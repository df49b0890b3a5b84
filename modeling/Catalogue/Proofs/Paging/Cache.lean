import Catalogue.Proofs.Paging.Fetching

/-!
# The page that a pager keeps

A pager is changed (`Pager.Change`) and read (`Pager.Reading`) in any order (`Pager.Calls`). A
change forgets the page. A reading searches only if there is no page, and then keeps the page that
it gets (`Reading.next_of_yields`), or fails and keeps nothing (`Reading.next_of_fails`); of a page
that is kept, it reads without a search (`Reading.next_of_fetched`). So apart from its page, a pager
has in each part what was chosen last (`Calls.forget_run`), and its page is what one search for just
this pager gave, after which it was only read (`Calls.cached`). `Calls.searches_once` has this for
the pager and the session that any calls leave.
-/

namespace Catalogue

variable {σ α β : Type}

namespace Pager

/-- The pager without its page. -/
def forget (p : Pager α) : Pager α :=
  { p with fetched := none }

theorem forget_of_not_fetched {p : Pager α} (h : p.fetched = none) : p.forget = p := by
  rw [forget, ← h]

/-! ## Changes -/

/-- A change of what a pager stands for, by the types of its rows before and after it. -/
inductive Change (α : Type) : Type → Type 1 where
  /-- Another size of the page. -/
  | pageSize (size : Option Nat) : Change α α
  /-- Another page. -/
  | page (number : Option Nat) : Change α α
  /-- Another order of the results. -/
  | sort (order : List Json) : Change α α
  /-- Other settings. -/
  | settings (chosen : Settings) : Change α α
  /-- Other rows. -/
  | rows {β : Type} (f : α → Except Failure β) : Change α β

/-- The pager after a change. -/
def Change.apply : Change α β → Pager α → Pager β
  | .pageSize size, p => p.withPageSize size
  | .page number, p => p.withPage number
  | .sort order, p => p.withSort order
  | .settings chosen, p => p.withSettings chosen
  | .rows f, p => p.mapRows f

/-- The pager with another part in place of one of its own, as the change says, and without a page.
Rows are made of the rows so far. -/
def Change.replace : Change α β → Pager α → Pager β
  | .pageSize size, p => ⟨p.plan, size, p.requestedPage, none⟩
  | .page number, p => ⟨p.plan, p.requestedSize, number, none⟩
  | .sort order, p => ⟨{ p.plan with sort := order }, p.requestedSize, p.requestedPage, none⟩
  | .settings chosen, p =>
    ⟨{ p.plan with settings := chosen }, p.requestedSize, p.requestedPage, none⟩
  | .rows f, p =>
    let row (hit : Hit) :=
      match p.plan.row hit with
      | .ok given => f given
      | .error e => .error e
    ⟨⟨p.plan.index, p.plan.query, p.plan.sort, p.plan.settings, row⟩, p.requestedSize,
      p.requestedPage, none⟩

theorem Change.apply_eq (change : Change α β) (p : Pager α) : change.apply p = change.replace p := by
  cases change with
  | rows f =>
    simp only [apply, mapRows, replace]
    congr 2
    funext hit
    cases p.plan.row hit <;> rfl
  | _ => rfl

/-- A change forgets the page. -/
theorem Change.fetched_apply (change : Change α β) (p : Pager α) :
    (change.apply p).fetched = none := by
  cases change <;> rfl

/-- What a change makes of a pager does not depend on its page. -/
theorem Change.apply_forget (change : Change α β) (p : Pager α) :
    change.apply p.forget = change.apply p := by
  cases change <;> rfl

/-- Changes leave the index and the query alone. -/
theorem Change.source_apply (change : Change α β) (p : Pager α) :
    (change.apply p).plan.index = p.plan.index ∧ (change.apply p).plan.query = p.plan.query := by
  cases change <;> exact ⟨rfl, rfl⟩

/-! ## Readings -/

/-- What can be read of a page. -/
inductive Reading where
  /-- The page itself. -/
  | fetch
  /-- The number of its rows. -/
  | length
  /-- Whether it has no rows. -/
  | isEmpty
  /-- The number of matching documents. -/
  | total
  /-- Whether that number is exact. -/
  | isAccurate
  /-- Its rows, at once or one by one. -/
  | rows
  /-- The milliseconds that the backend took. -/
  | took
  /-- The number of pages that the matching documents fill. -/
  | pageCount

/-- An answer to a reading. -/
inductive Answer (α : Type) where
  /-- A page. -/
  | page (page : Page α)
  /-- A number. -/
  | number (number : Nat)
  /-- Yes or no. -/
  | flag (flag : Bool)
  /-- Rows. -/
  | rows (rows : List α)

namespace Reading

/-- Reads, with the pager that keeps the page. -/
def run (b : Backend σ) (p : Pager α) : Reading → Exchange σ (Answer α × Pager α)
  | .fetch => Prod.map .page id <$> p.fetch b
  | .length => Prod.map .number id <$> p.length b
  | .isEmpty => Prod.map .flag id <$> p.isEmpty b
  | .total => Prod.map .number id <$> p.total b
  | .isAccurate => Prod.map .flag id <$> p.isAccurate b
  | .rows => Prod.map .rows id <$> p.rows b
  | .took => Prod.map .number id <$> p.took b
  | .pageCount => Prod.map .number id <$> p.pageCount b

/-- What a page of this size answers. -/
def answer (size : Nat) (page : Page α) : Reading → Answer α
  | .fetch => .page page
  | .length => .number page.rows.length
  | .isEmpty => .flag page.rows.isEmpty
  | .total => .number page.total
  | .isAccurate => .flag page.accurate
  | .rows => .rows page.rows
  | .took => .number page.took
  | .pageCount => .number ((page.total + size - 1) / size)

/-- One reading of a pager in a session : its result, and the pager and the session after it. A
pager that cannot be read stays as it is. -/
def next (b : Backend σ) (reading : Reading) (p : Pager α) (session : Session σ) :
    Except Failure (Answer α) × Pager α × Session σ :=
  match (reading.run b p).run.run session with
  | (.ok (answer, p), session) => (.ok answer, p, session)
  | (.error e, session) => (.error e, p, session)

/-- One reading after the other : their results, and what they leave. -/
def all (b : Backend σ) :
    List Reading → Pager α → Session σ → List (Except Failure (Answer α)) × Pager α × Session σ
  | [], p, session => ([], p, session)
  | reading :: rest, p, session =>
    let (result, p, session) := reading.next b p session
    let (results, p, session) := all b rest p session
    (result :: results, p, session)

/-- Every reading fetches the page and answers from it. -/
theorem run_eq (b : Backend σ) (p : Pager α) (reading : Reading) :
    reading.run b p =
      (fun fetched => (reading.answer p.pageSize fetched.1, fetched.2)) <$> p.fetch b := by
  cases reading with
  | fetch => rfl
  | _ => simp [run, answer, Prod.map, Pager.length, Pager.isEmpty, Pager.total, Pager.isAccurate,
      Pager.rows, Pager.took, Pager.pageCount, Pager.read]

end Reading

/-! ## One reading -/

section Reading

variable {p : Pager α} {page : Page α} (b : Backend σ) (session : Session σ)

/-- A fetch of a page that was not fetched yet is one search. -/
theorem fetch_of_not_fetched (h : p.fetched = none) :
    (p.fetch b).run.run session =
      ((p.plan.outcome (session.answer b p.request)).map fun page =>
          (page, { p with fetched := some page }),
        session.searched b p.request) := by
  rw [fetch, h]
  simp only
  rw [Exchange.bind_run, Plan.fetch_eq, p.plan_request]
  cases p.plan.outcome _ <;> rfl

theorem fetch_of_fetched (h : p.fetched = some page) :
    p.fetch b = pure (page, p) := by
  rw [fetch, h]

/-- A page that was fetched answers every reading without a search. -/
theorem Reading.next_of_fetched (h : p.fetched = some page) (reading : Reading) :
    reading.next b p session = (.ok (reading.answer p.pageSize page), p, session) := by
  rw [next, run_eq, fetch_of_fetched b h]
  rfl

theorem Reading.all_of_fetched (h : p.fetched = some page) (readings : List Reading) :
    Reading.all b readings p session =
      (readings.map fun reading => .ok (reading.answer p.pageSize page), p, session) := by
  induction readings with
  | nil => rfl
  | cons reading rest ih =>
    simp only [all, reading.next_of_fetched b session h, ih]
    rfl

/-- If there is no page, a reading is one search : the page that it gives answers and is kept. -/
theorem Reading.next_of_yields (h : p.fetched = none)
    (hpage : p.plan.Yields (session.answer b p.request) page) (reading : Reading) :
    reading.next b p session =
      (.ok (reading.answer p.pageSize page), { p with fetched := some page },
        session.searched b p.request) := by
  have hfetch := fetch_of_not_fetched b session h
  rw [(p.plan.outcome_eq_ok_iff _ page).mpr hpage] at hfetch
  rw [next, run_eq, map_eq_pure_bind, Exchange.bind_run, hfetch]
  rfl

/-- The page that the first reading gives answers the others too. -/
theorem Reading.all_of_yields (h : p.fetched = none)
    (hpage : p.plan.Yields (session.answer b p.request) page) (reading : Reading)
    (later : List Reading) :
    Reading.all b (reading :: later) p session =
      ((reading :: later).map fun reading => .ok (reading.answer p.pageSize page),
        { p with fetched := some page }, session.searched b p.request) := by
  have hlater := Reading.all_of_fetched (p := { p with fetched := some page }) b
    (session.searched b p.request) rfl later
  simp only [all, reading.next_of_yields b session h hpage, hlater]
  rfl

/-- A reading that fails leaves the pager without a page. -/
theorem Reading.next_of_fails (h : p.fetched = none) {e : Failure}
    (he : p.plan.Fails (session.answer b p.request) e) (reading : Reading) :
    reading.next b p session = (.error e, p, session.searched b p.request) := by
  have hfetch := fetch_of_not_fetched b session h
  rw [(p.plan.outcome_eq_error_iff _ e).mpr he] at hfetch
  rw [next, run_eq, map_eq_pure_bind, Exchange.bind_run, hfetch]
  rfl

/-- A reading changes nothing of a pager but its page. -/
theorem Reading.forget_next (reading : Reading) : (reading.next b p session).2.1.forget = p.forget := by
  cases h : p.fetched with
  | some page => rw [reading.next_of_fetched b session h]
  | none =>
    rcases p.plan.yields_or_fails (session.answer b p.request) with ⟨page, hpage⟩ | ⟨e, he⟩
    · rw [reading.next_of_yields b session h hpage]
      rfl
    · rw [reading.next_of_fails b session h he]

end Reading

/-! ## Any order of changes and readings -/

/-- Changes and readings of a pager, one after the other. -/
inductive Calls : Type → Type 1 where
  /-- No calls : the first page of the hits of a query. -/
  | start : Calls Hit
  /-- A change after other calls. -/
  | change {α β : Type} (before : Calls α) (change : Change α β) : Calls β
  /-- A reading after other calls. -/
  | read {α : Type} (before : Calls α) (reading : Reading) : Calls α

namespace Calls

/-- Readings after other calls. -/
def reads (before : Calls α) (readings : List Reading) : Calls α :=
  readings.foldl read before

/-- What a pager stands for after the calls : every part is the one that was chosen last. -/
def target (index : String) (query : Json) {α : Type} : Calls α → Pager α
  | .start => ⟨⟨index, query, [], {}, .ok⟩, none, none, none⟩
  | .change before c => c.replace (before.target index query)
  | .read before _ => before.target index query

/-- The pager and the session that calls leave. -/
def run (b : Backend σ) (index : String) (query : Json) (session : Session σ) {α : Type} :
    Calls α → Pager α × Session σ
  | .start => (Pager.ofQuery index query, session)
  | .change before c =>
    let (p, session) := before.run b index query session
    (c.apply p, session)
  | .read before reading =>
    let (p, session) := before.run b index query session
    (reading.next b p session).2

variable (b : Backend σ) (index : String) (query : Json) (session : Session σ)

theorem run_read (before : Calls α) (reading : Reading) :
    (before.read reading).run b index query session =
      (reading.next b (before.run b index query session).1
        (before.run b index query session).2).2 := rfl

/-- Apart from its page, a pager has in each part what was chosen last. -/
theorem forget_run (calls : Calls α) :
    (calls.run b index query session).1.forget = calls.target index query := by
  induction calls with
  | start => rfl
  | change before c ih =>
    rw [target, ← ih, ← c.apply_eq, c.apply_forget]
    exact forget_of_not_fetched (c.fetched_apply _)
  | read before reading ih =>
    rw [target, ← ih]
    exact reading.forget_next b _

theorem source_target (calls : Calls α) :
    (calls.target index query).plan.index = index ∧
      (calls.target index query).plan.query = query := by
  induction calls with
  | start => exact ⟨rfl, rfl⟩
  | change before c ih =>
    obtain ⟨hindex, hquery⟩ := c.source_apply (before.target index query)
    rw [c.apply_eq] at hindex hquery
    exact ⟨hindex.trans ih.1, hquery.trans ih.2⟩
  | read before reading ih => exact ih

/-- The page of a pager is what one search for this pager gave, after which it was only read. -/
theorem cached (calls : Calls α) {page : Page α}
    (h : (calls.run b index query session).1.fetched = some page) :
    ∃ (before : Calls α) (reading : Reading) (later : List Reading),
      calls = (before.read reading).reads later ∧
      let p := calls.target index query
      let earlier := (before.run b index query session).2
      (before.run b index query session).1 = p ∧
        p.plan.Yields (earlier.answer b p.request) page ∧
        (calls.run b index query session).2 = earlier.searched b p.request := by
  induction calls with
  | start => exact nomatch h
  | change before c => exact nomatch (c.fetched_apply _).symm.trans h
  | read before reading ih =>
    have hforget := before.forget_run b index query session
    rw [run_read] at h ⊢
    generalize hp : (before.run b index query session).1 = p at *
    generalize hnow : (before.run b index query session).2 = now at *
    cases hfetched : p.fetched with
    | some kept =>
      rw [reading.next_of_fetched b now hfetched] at h ⊢
      obtain ⟨first, opening, later, rfl, hrun⟩ := ih h
      refine ⟨first, opening, later ++ [reading], ?_, hrun⟩
      rw [reads, reads, List.foldl_append]
      rfl
    | none =>
      rw [forget_of_not_fetched hfetched] at hforget
      rcases p.plan.yields_or_fails (now.answer b p.request) with ⟨given, hgiven⟩ | ⟨e, he⟩
      · rw [reading.next_of_yields b now hfetched hgiven] at h ⊢
        obtain rfl : given = page := Option.some.inj h
        rw [target, ← hforget]
        exact ⟨before, reading, [], rfl, hp, by rwa [hnow], by rw [hnow]⟩
      · rw [reading.next_of_fails b now hfetched he] at h
        exact nomatch hfetched.symm.trans h

/-- After any calls, the pager has in each part what was chosen last, apart from its page, and its
page is what one search for just this pager gave, after which it was only read. A change leaves it without a
page and does not search. Without a page, a reading is one search : if that fails, or some hit gives
no row, so does the reading, and there is still no page; otherwise its page answers this reading and
all that follow. A page that is kept answers all readings without a search. -/
theorem searches_once (calls : Calls α) :
    let p := (calls.run b index query session).1
    let now := (calls.run b index query session).2
    p.forget = calls.target index query ∧ p.plan.index = index ∧ p.plan.query = query ∧
      (∀ page, p.fetched = some page →
        ∃ (before : Calls α) (reading : Reading) (later : List Reading),
          calls = (before.read reading).reads later ∧
          (before.run b index query session).1 = p.forget ∧
          let earlier := (before.run b index query session).2
          p.plan.Yields (earlier.answer b p.request) page ∧
            now = earlier.searched b p.request) ∧
      (∀ (β : Type) (c : Change α β),
        ((calls.change c).run b index query session).1.fetched = none ∧
          ((calls.change c).run b index query session).2 = now) ∧
      (p.fetched = none →
        (∀ e, p.plan.Fails (now.answer b p.request) e → ∀ reading : Reading,
          reading.next b p now = (.error e, p, now.searched b p.request)) ∧
        (∀ page, p.plan.Yields (now.answer b p.request) page →
          ∀ (reading : Reading) (later : List Reading),
            Reading.all b (reading :: later) p now =
              ((reading :: later).map fun reading => .ok (reading.answer p.pageSize page),
                { p with fetched := some page }, now.searched b p.request)) ∧
        ((∃ page, p.plan.Yields (now.answer b p.request) page) ∨
          ∃ e, p.plan.Fails (now.answer b p.request) e)) ∧
      (∀ page, p.fetched = some page → ∀ readings : List Reading,
        Reading.all b readings p now =
          (readings.map fun reading => .ok (reading.answer p.pageSize page), p, now)) := by
  intro p now
  have hforget := calls.forget_run b index query session
  obtain ⟨hindex, hquery⟩ := calls.source_target index query
  rw [← hforget] at hindex hquery
  refine ⟨hforget, hindex, hquery, fun page hpage => ?_, fun β c => ?_,
    fun hnone => ⟨fun e he reading => ?_, fun page hpage reading later => ?_, ?_⟩,
    fun page hpage readings => ?_⟩
  · obtain ⟨before, reading, later, hcalls, hbefore, hyields, hnow⟩ :=
      calls.cached b index query session hpage
    rw [← hforget] at hbefore hyields hnow
    exact ⟨before, reading, later, hcalls, hbefore, hyields, hnow⟩
  · exact ⟨c.fetched_apply _, rfl⟩
  · exact reading.next_of_fails b now hnone he
  · exact Reading.all_of_yields b now hnone hpage reading later
  · exact p.plan.yields_or_fails _
  · exact Reading.all_of_fetched b now hpage readings

end Calls

end Pager

end Catalogue
