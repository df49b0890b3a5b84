import Catalogue.Proofs.Paging.Fetching

/-!
# Streams over any backend

`RowStream.run` calls for the next row any number of times, also after the end, until a call is
broken off. What such a run has done is told by the pages that it has fetched (`RowStream.Walk`) :
the rows given and those still buffered are the rows of these pages, the session is the one after
the searches of the pagers page by page (`Pager.sessionAhead`), and every page but the last one is
full. A call without a search gives a row of the buffer or the end (`RowStream.Walk.pop`), and a call
with a search fetches one more page or fails (`RowStream.Walk.append`, `RowStream.Walk.fail`). So a
run is a walk, unless a call of it has fetched the page whose number is the last word
(`RowStream.walk_or_breaksOff`), and `RowStream.walk_pagers` says what this means to its caller.
-/

namespace Catalogue

variable {σ α : Type}

/-! ## Runs -/

namespace RowStream

/-- What calls of `RowStream.next` leave. -/
structure Run (σ α : Type) where
  /-- The items that the calls gave, in order. -/
  items : List (Option (Except Failure α))
  /-- The stream after the calls. -/
  stream : RowStream α
  /-- The session after the calls. -/
  session : Session σ
  /-- Why the last call was broken off, if it was. There are no calls after it. -/
  panic : Option Panic := none

/-- A run with one more call. -/
def Run.step (b : Backend σ) (r : Run σ α) : Run σ α :=
  match r.panic with
  | some _ => r
  | none =>
    match (r.stream.next b).run.run r.session with
    | (.ok (item, stream), session) => ⟨r.items ++ [item], stream, session, none⟩
    | (.error panic, session) => { r with session := session, panic := some panic }

/-- This many calls, those after the end included. -/
def run (b : Backend σ) (start : Session σ) (stream : RowStream α) : Nat → Run σ α
  | 0 => ⟨[], stream, start, none⟩
  | n + 1 => (run b start stream n).step b

section Steps

variable {b : Backend σ} {r : Run σ α} {session : Session σ}

theorem Run.step_of_ok (hr : r.panic = none) {item : Option (Except Failure α)}
    {stream : RowStream α}
    (h : (r.stream.next b).run.run r.session = (.ok (item, stream), session)) :
    r.step b = ⟨r.items ++ [item], stream, session, none⟩ := by
  simp only [Run.step, hr, h]

theorem Run.step_of_error (hr : r.panic = none) {panic : Panic}
    (h : (r.stream.next b).run.run r.session = (.error panic, session)) :
    r.step b = { r with session := session, panic := some panic } := by
  simp only [Run.step, hr, h]

/-- There are no calls after one that was broken off. -/
theorem Run.step_of_panic (hr : r.panic ≠ none) : r.step b = r := by
  obtain ⟨panic, hpanic⟩ := Option.ne_none_iff_exists'.mp hr
  simp only [Run.step, hpanic]

end Steps

/-- Calls that are not broken off come after calls that are not either. -/
theorem panic_eq_none_of_le {b : Backend σ} {start : Session σ} {stream : RowStream α} {k n : Nat}
    (hk : k ≤ n) (h : (stream.run b start n).panic = none) :
    (stream.run b start k).panic = none := by
  induction hk with
  | refl => exact h
  | step hk ih =>
    refine ih (Classical.byContradiction fun hpanic => hpanic ?_)
    rwa [run, Run.step_of_panic hpanic] at h

/-- Every call that is not broken off gives an item. -/
theorem length_items_run {b : Backend σ} {start : Session σ} {stream : RowStream α} {n : Nat}
    (h : (stream.run b start n).panic = none) : (stream.run b start n).items.length = n := by
  induction n with
  | zero => rfl
  | succ n ih =>
    have hbefore := panic_eq_none_of_le n.le_succ h
    rw [run] at h ⊢
    rcases hnext : ((stream.run b start n).stream.next b).run.run (stream.run b start n).session
      with ⟨_ | ⟨item, rest⟩, session⟩
    · rw [Run.step_of_error hbefore hnext] at h
      exact nomatch h
    · rw [Run.step_of_ok hbefore hnext, List.length_append, ih hbefore]
      rfl

end RowStream

/-! ## Pagers page by page -/

namespace Pager

variable (b : Backend σ) (p : Pager α) (start : Session σ)

/-- The pager of the page that comes `k` pages later. -/
def ahead (k : Nat) : Pager α :=
  p.withPage (some (p.pageNumber + k))

/-- The session after the searches of this many pagers, one for each page. -/
def sessionAhead : Nat → Session σ
  | 0 => start
  | k + 1 => (sessionAhead k).searched b (p.ahead k).request

/-- The answer that the pager `k` pages later gets. -/
def answerAhead (k : Nat) : Except BackendError Response :=
  (p.sessionAhead b start k).answer b (p.ahead k).request

theorem offset_ahead (k : Nat) :
    (p.ahead k).offset = pageOffset (p.pageNumber + k) p.pageSize := by
  have hnumber : (p.ahead k).pageNumber = p.pageNumber + k :=
    Nat.max_eq_left (Nat.le_add_right_of_le (Nat.le_max_right _ _))
  rw [offset, hnumber]
  rfl

theorem calls_sessionAhead (n : Nat) :
    (p.sessionAhead b start n).calls =
      start.calls ++ (List.range n).map fun k => .search (p.ahead k).request := by
  induction n with
  | zero => simp [sessionAhead]
  | succ n ih =>
    rw [sessionAhead, Session.searched, ih, List.range_succ, List.map_append, List.append_assoc]
    rfl

theorem searches_sessionAhead (n : Nat) :
    (p.sessionAhead b start n).searches = start.searches + n := by
  induction n with
  | zero => rfl
  | succ n ih => rw [sessionAhead, Session.searches_searched, ih, Nat.add_assoc]

end Pager

/-! ## Walks -/

theorem getElem?_append_singleton {l : List α} {a q : α} {k : Nat} (h : (l ++ [a])[k]? = some q) :
    l[k]? = some q ∨ k = l.length ∧ q = a := by
  rcases Nat.lt_or_ge k l.length with hk | hk
  · exact .inl (List.getElem?_append_left hk ▸ h)
  · have hlength := (List.getElem?_eq_some_iff.mp h).1
    obtain rfl : k = l.length := by
      rw [List.length_append, List.length_singleton] at hlength
      omega
    rw [List.getElem?_concat_length, Option.some.injEq] at h
    exact .inr ⟨rfl, h.symm⟩

namespace RowStream

variable {b : Backend σ} {p : Pager α} {start : Session σ} {r : Run σ α} {pages : List (Page α)}
  {given : List α} {failure : Option Failure} {ends n : Nat}

/-- A run of the stream of `p` has fetched `pages`, given the rows `given`, perhaps failed, and come
to its end `ends` times. -/
structure Walk (b : Backend σ) (p : Pager α) (start : Session σ) (r : Run σ α)
    (pages : List (Page α)) (given : List α) (failure : Option Failure) (ends : Nat) : Prop where
  panic_eq : r.panic = none
  plan_eq : r.stream.plan = p.plan
  size_eq : r.stream.size = p.pageSize
  number_eq : r.stream.nextPage = p.pageNumber + pages.length
  number_lt : pages ≠ [] → p.pageNumber + pages.length < sizeBound
  items_eq : r.items = given.map (fun row => some (.ok row)) ++
    failure.toList.map (fun e => some (.error e)) ++ List.replicate ends none
  rows_eq : pages.flatMap Page.rows = given ++ r.stream.buffer
  session_eq : r.session = p.sessionAhead b start (pages.length + failure.toList.length)
  yields : ∀ k page, pages[k]? = some page → p.plan.Yields (p.answerAhead b start k) page
  fails : ∀ e, failure = some e → p.plan.Fails (p.answerAhead b start pages.length) e
  goes_on : ∀ k page, pages[k]? = some page →
    k + 1 < pages.length ∨ failure ≠ none ∨ r.stream.done = false →
      page.isLast p.pageSize (p.ahead k).offset = false
  is_last : r.stream.done = true → failure = none → ∃ page, pages.getLast? = some page ∧
    page.isLast p.pageSize (p.ahead (pages.length - 1)).offset = true
  closed : failure ≠ none ∨ ends ≠ 0 → r.stream.done = true ∧ r.stream.buffer = []

/-- A stream that was not used yet has fetched and given nothing. -/
theorem walk_start : Walk b p start (p.stream.run b start 0) [] [] none 0 where
  panic_eq := rfl
  plan_eq := rfl
  size_eq := rfl
  number_eq := rfl
  number_lt h := absurd rfl h
  items_eq := rfl
  rows_eq := rfl
  session_eq := rfl
  yields k page h := by simp at h
  fails e h := by simp at h
  goes_on k page h := by simp at h
  is_last h := by simp [run, Pager.stream] at h
  closed h := by simp at h

theorem Walk.length_items (h : Walk b p start r pages given failure ends) :
    r.items.length = given.length + failure.toList.length + ends := by
  simp [h.items_eq, Nat.add_assoc]

/-- A stream that has rows to give or is done goes on without a search. -/
theorem Walk.pop (h : Walk b p start r pages given failure ends) (hb : ¬ r.stream.Fetches) :
    ∃ given ends, Walk b p start ⟨r.items ++ [r.stream.pop.1], r.stream.pop.2, r.session, none⟩
      pages given failure ends := by
  cases hbuffer : r.stream.buffer with
  | nil =>
    have hdone : r.stream.done = true :=
      (not_fetches_iff.mp hb).resolve_right fun hne => hne hbuffer
    have hpop : r.stream.pop = (none, r.stream) := by rw [RowStream.pop, hbuffer]
    rw [hpop]
    refine ⟨given, ends + 1, { h with
      panic_eq := rfl, items_eq := ?_, closed := fun _ => ⟨hdone, hbuffer⟩ }⟩
    rw [h.items_eq, List.replicate_succ', List.append_assoc]
  | cons row rest =>
    have hopen : ¬(failure ≠ none ∨ ends ≠ 0) := by
      intro hclosed
      simp [(h.closed hclosed).2] at hbuffer
    obtain ⟨rfl, rfl⟩ : failure = none ∧ ends = 0 := by simpa using hopen
    have hpop : r.stream.pop = (some (.ok row), { r.stream with buffer := rest }) := by
      rw [RowStream.pop, hbuffer]
    rw [hpop]
    refine ⟨given ++ [row], 0, { h with
      panic_eq := rfl, items_eq := ?_, rows_eq := ?_, closed := by simp }⟩
    · simp [h.items_eq]
    · simp [h.rows_eq, hbuffer]

/-- A stream that is not done has not come to its end, and did not fail. -/
theorem Walk.eq_of_not_done (h : Walk b p start r pages given failure ends)
    (hdone : r.stream.done = false) : failure = none ∧ ends = 0 := by
  have hopen : ¬(failure ≠ none ∨ ends ≠ 0) := by
    intro hclosed
    exact Bool.false_ne_true (hdone.symm.trans (h.closed hclosed).1)
  simpa using hopen

theorem Walk.offset_eq (h : Walk b p start r pages given failure ends) :
    r.stream.offset = (p.ahead pages.length).offset := by
  rw [offset, h.number_eq, h.size_eq, p.offset_ahead]

theorem Walk.request_eq (h : Walk b p start r pages given failure ends) :
    r.stream.request = (p.ahead pages.length).request := by
  rw [request, h.offset_eq, h.plan_eq, h.size_eq, ← Pager.plan_request]
  rfl

/-- The next page is asked for as the pager of this page does. -/
theorem Walk.answer_eq (h : Walk b p start r pages given failure ends)
    (hdone : r.stream.done = false) :
    r.session.answer b r.stream.request = p.answerAhead b start pages.length := by
  obtain ⟨rfl, -⟩ := h.eq_of_not_done hdone
  rw [h.request_eq, h.session_eq]
  rfl

/-- The session after the next page was asked for. -/
theorem Walk.searched_eq (h : Walk b p start r pages given failure ends)
    (hdone : r.stream.done = false) :
    r.session.searched b r.stream.request = p.sessionAhead b start (pages.length + 1) := by
  obtain ⟨rfl, -⟩ := h.eq_of_not_done hdone
  rw [h.request_eq, h.session_eq]
  rfl

/-- The pages of a walk have numbers that are words, and so has the page after them. -/
theorem Walk.length_le (h : Walk b p start r pages given failure ends) :
    pages.length ≤ sizeBound - 1 - p.pageNumber := by
  by_cases hpages : pages = []
  · simp [hpages]
  · have hlt := h.number_lt hpages
    omega

/-- The next page is fetched : the stream has its rows to give. -/
theorem Walk.append (h : Walk b p start r pages given none 0) (hfetches : r.stream.Fetches)
    (hword : r.stream.nextPage + 1 < sizeBound) {page : Page α}
    (hpage : p.plan.Yields (p.answerAhead b start pages.length) page) :
    Walk b p start ⟨r.items, r.stream.append page, p.sessionAhead b start (pages.length + 1), none⟩
      (pages ++ [page]) given none 0 where
  panic_eq := rfl
  plan_eq := h.plan_eq
  size_eq := h.size_eq
  number_eq := by
    rw [RowStream.append, h.number_eq, List.length_append]
    rfl
  number_lt _ := by
    rw [h.number_eq] at hword
    rwa [List.length_append]
  items_eq := h.items_eq
  rows_eq := by simp [RowStream.append, h.rows_eq]
  session_eq := by simp
  yields k q hq := by
    rcases getElem?_append_singleton hq with hq | ⟨rfl, rfl⟩
    · exact h.yields k q hq
    · exact hpage
  fails e he := by simp at he
  goes_on k q hq hk := by
    rcases getElem?_append_singleton hq with hq | ⟨rfl, rfl⟩
    · exact h.goes_on k q hq (.inr (.inr hfetches.1))
    · have hopen : (r.stream.append q).done = false := by simpa using hk
      have hnot := (Bool.or_eq_false_iff.mp hopen).2
      rwa [h.offset_eq, h.size_eq] at hnot
  is_last hlast _ := by
    have hpageLast := hlast
    simp only [RowStream.append, hfetches.1, Bool.false_or] at hpageLast
    rw [h.offset_eq, h.size_eq] at hpageLast
    exact ⟨page, List.getLast?_concat, by simpa using hpageLast⟩
  closed hclosed := by simp at hclosed

/-- The next page cannot be had : the stream fails and is done. -/
theorem Walk.fail (h : Walk b p start r pages given none 0) (hfetches : r.stream.Fetches)
    {e : Failure} (he : p.plan.Fails (p.answerAhead b start pages.length) e) :
    Walk b p start ⟨r.items ++ [some (.error e)], { r.stream with done := true },
      p.sessionAhead b start (pages.length + 1), none⟩ pages given (some e) 0 where
  panic_eq := rfl
  plan_eq := h.plan_eq
  size_eq := h.size_eq
  number_eq := h.number_eq
  number_lt := h.number_lt
  items_eq := by simp [h.items_eq]
  rows_eq := h.rows_eq
  session_eq := rfl
  yields := h.yields
  fails _ hcause := Option.some.inj hcause ▸ he
  goes_on k q hq _ := h.goes_on k q hq (.inr (.inr hfetches.1))
  is_last _ hnone := by simp at hnone
  closed _ := ⟨rfl, hfetches.2⟩

/-- The next call of a walk is broken off : it fetches a page whose number has no successor. -/
structure BreaksOff (b : Backend σ) (p : Pager α) (start : Session σ) (r : Run σ α)
    (pages : List (Page α)) (given : List α) (last : Page α) : Prop where
  walk : Walk b p start r pages given none 0
  fetches : r.stream.Fetches
  yields : p.plan.Yields (p.answerAhead b start pages.length) last
  length_eq : pages.length = sizeBound - 1 - p.pageNumber
  step_eq : r.step b = { r with
    session := p.sessionAhead b start (pages.length + 1), panic := some .overflow }

/-- One more call continues a walk : it gives a row that was fetched, or comes to the end, or
fetches the next page, and then gives its first row, or comes to the end, or fails. Or it is broken
off. -/
theorem Walk.step (h : Walk b p start r pages given failure ends) :
    (∃ (fetched : Option (Page α)) (given : List α) (failure : Option Failure) (ends : Nat),
      Walk b p start (r.step b) (pages ++ fetched.toList) given failure ends) ∨
    ∃ last, BreaksOff b p start r pages given last := by
  by_cases hfetches : r.stream.Fetches
  · obtain ⟨rfl, rfl⟩ := h.eq_of_not_done hfetches.1
    have hanswer := h.answer_eq hfetches.1
    have hsearched := h.searched_eq hfetches.1
    rcases p.plan.yields_or_fails (p.answerAhead b start pages.length) with ⟨page, hpage⟩ | ⟨e, he⟩
    · have hyields := hpage
      rw [← hanswer, ← h.plan_eq] at hyields
      by_cases hword : r.stream.nextPage + 1 < sizeBound
      · have hnext := next_of_page hfetches hyields hword
        rw [hsearched] at hnext
        obtain ⟨given, ends, hpop⟩ :=
          (h.append hfetches hword hpage).pop (r.stream.not_fetches_append page)
        refine .inl ⟨some page, given, none, ends, ?_⟩
        rwa [Run.step_of_ok h.panic_eq hnext]
      · have hnext := next_of_overflow hfetches hyields hword
        rw [hsearched] at hnext
        refine .inr ⟨page, h, hfetches, hpage, ?_, Run.step_of_error h.panic_eq hnext⟩
        have hle := h.length_le
        rw [h.number_eq] at hword
        omega
    · have hfails := he
      rw [← hanswer, ← h.plan_eq] at hfails
      have hnext := next_of_error hfetches hfails
      rw [hsearched] at hnext
      refine .inl ⟨none, given, some e, 0, ?_⟩
      rw [Run.step_of_ok h.panic_eq hnext, Option.toList_none, List.append_nil]
      exact h.fail hfetches he
  · obtain ⟨given, ends, hpop⟩ := h.pop hfetches
    have hnext := next_of_buffered r.stream b r.session hfetches
    refine .inl ⟨none, given, failure, ends, ?_⟩
    rwa [Run.step_of_ok h.panic_eq hnext, Option.toList_none, List.append_nil]

/-- Calls make a walk, unless one of them is broken off, which is the last one then. -/
theorem walk_or_breaksOff (b : Backend σ) (p : Pager α) (start : Session σ) (n : Nat) :
    (∃ pages given failure ends, Walk b p start (p.stream.run b start n) pages given failure ends) ∨
    ∃ k < n, ∃ pages given last, BreaksOff b p start (p.stream.run b start k) pages given last ∧
      p.stream.run b start n = p.stream.run b start (k + 1) := by
  induction n with
  | zero => exact .inl ⟨[], [], none, 0, walk_start⟩
  | succ n ih =>
    rcases ih with ⟨pages, given, failure, ends, h⟩ | ⟨k, hk, pages, given, last, h, hrun⟩
    · rcases h.step with ⟨fetched, given, failure, ends, h⟩ | ⟨last, h⟩
      · exact .inl ⟨pages ++ fetched.toList, given, failure, ends, h⟩
      · exact .inr ⟨n, n.lt_succ_self, pages, given, last, h, rfl⟩
    · refine .inr ⟨k, Nat.lt_succ_of_lt hk, pages, given, last, h, ?_⟩
      have hpanic : (p.stream.run b start n).panic ≠ none := by
        rw [hrun, run, h.step_eq]
        exact Option.some_ne_none _
      rw [run, Run.step_of_panic hpanic, hrun]

/-- Calls that are not broken off make a walk. -/
theorem walk_run (hpanic : (p.stream.run b start n).panic = none) :
    ∃ pages given failure ends, Walk b p start (p.stream.run b start n) pages given failure ends := by
  rcases walk_or_breaksOff b p start n with h | ⟨k, -, pages, given, last, h, hrun⟩
  · exact h
  · rw [hrun, run, h.step_eq] at hpanic
    exact absurd hpanic (Option.some_ne_none _)

/-! ## The end of a walk -/

theorem step_of_done {stream : RowStream α} (hdone : stream.done = true)
    (hbuffer : stream.buffer = []) (items : List (Option (Except Failure α)))
    (session : Session σ) :
    Run.step b ⟨items, stream, session, none⟩ = ⟨items ++ [none], stream, session, none⟩ := by
  have hpop : stream.pop = (none, stream) := by rw [RowStream.pop, hbuffer]
  have hnext := next_of_buffered stream b session (not_fetches_iff.mpr (.inl hdone))
  rw [hpop] at hnext
  exact Run.step_of_ok rfl hnext

/-- A walk that is done and has no rows to give comes to its end with every call. -/
theorem Walk.run_add_of_done
    (h : Walk b p start (p.stream.run b start n) pages given failure ends)
    (hdone : (p.stream.run b start n).stream.done = true)
    (hbuffer : (p.stream.run b start n).stream.buffer = []) (m : Nat) :
    p.stream.run b start (n + m) =
      ⟨(p.stream.run b start n).items ++ List.replicate m none, (p.stream.run b start n).stream,
        (p.stream.run b start n).session, none⟩ := by
  induction m with
  | zero => rw [Nat.add_zero, List.replicate_zero, List.append_nil, ← h.panic_eq]
  | succ m ih =>
    rw [← Nat.add_assoc, run, ih, step_of_done hdone hbuffer, List.replicate_succ',
      List.append_assoc]

/-- A call that searches finds no rows to give. -/
theorem Walk.of_session_step_ne (h : Walk b p start r pages given failure ends)
    (hsession : (r.step b).session ≠ r.session) :
    failure = none ∧ ends = 0 ∧ given = pages.flatMap Page.rows := by
  have hfetches : r.stream.Fetches := by
    by_contra hnot
    apply hsession
    rw [Run.step_of_ok h.panic_eq (next_of_buffered r.stream b r.session hnot)]
  obtain ⟨hfailure, hends⟩ := h.eq_of_not_done hfetches.1
  refine ⟨hfailure, hends, ?_⟩
  rw [h.rows_eq, hfetches.2, List.append_nil]

/-- Over any backend and with any rows, as long as the pages that it fetches have numbers below the
last word, no call of a stream is broken off. It gives the rows of these pages, in order and none
twice, and then perhaps an error, and then the end for ever. Its searches are those of the pagers
page by page. It fetches a page only when all rows before it were given, and only after a page that
is full and does not reach a total that is exact. It fails as the page that it cannot have fails,
and otherwise ends after a page that is short or reaches such a total. -/
theorem walk_pagers (b : Backend σ) (p : Pager α) (start : Session σ) (n : Nat)
    (hnumber : ∀ k < n, (p.stream.run b start k).stream.Fetches →
      (p.stream.run b start k).stream.nextPage < sizeBound - 1) :
    let run := p.stream.run b start
    ∃ (pages : List (Page α)) (given : List α) (failure : Option Failure) (ends : Nat),
      let searches := pages.length + failure.toList.length
      (run n).panic = none ∧
      (run n).items = given.map (fun row => some (.ok row)) ++
        failure.toList.map (fun e => some (.error e)) ++ List.replicate ends none ∧
      given <+: pages.flatMap Page.rows ∧
      (run n).session = p.sessionAhead b start searches ∧
      (run n).session.calls =
        start.calls ++ (List.range searches).map (fun k => .search (p.ahead k).request) ∧
      (∀ k page, pages[k]? = some page → p.plan.Yields (p.answerAhead b start k) page) ∧
      (∀ e, failure = some e → p.plan.Fails (p.answerAhead b start pages.length) e) ∧
      (∀ k page, pages[k]? = some page → k + 1 < searches → p.pageSize ≤ page.rows.length ∧
        (page.accurate = true → page.total < sizeBound →
          (p.ahead k).offset + page.rows.length < page.total)) ∧
      ((run (n + 1)).session ≠ (run n).session →
        failure = none ∧ ends = 0 ∧ given = pages.flatMap Page.rows) ∧
      (failure ≠ none ∨ ends ≠ 0 → given = pages.flatMap Page.rows ∧
        ∀ m, (run (n + m)).items = (run n).items ++ List.replicate m none ∧
          (run (n + m)).session = (run n).session) ∧
      (ends ≠ 0 → failure = none → ∃ page, pages.getLast? = some page ∧
        (page.rows.length < p.pageSize ∨ page.accurate = true ∧
          page.total ≤ (p.ahead (pages.length - 1)).offset + page.rows.length)) := by
  intro run
  have hpanic : (p.stream.run b start n).panic = none := by
    rcases walk_or_breaksOff b p start n with ⟨_, _, _, _, h⟩ | ⟨k, hk, pages, _, _, h, -⟩
    · exact h.panic_eq
    · have hlt := hnumber k hk h.fetches
      have hlength := h.length_eq
      rw [h.walk.number_eq] at hlt
      omega
  obtain ⟨pages, given, failure, ends, h⟩ := walk_run hpanic
  refine ⟨pages, given, failure, ends, hpanic, h.items_eq, ?_, h.session_eq, ?_, h.yields, h.fails,
    fun k page hpage hk => ?_, h.of_session_step_ne, fun hclosed => ?_, fun hends hfailure => ?_⟩
  · rw [h.rows_eq]
    exact List.prefix_append _ _
  · rw [h.session_eq, p.calls_sessionAhead]
  · refine Page.le_of_not_isLast (h.goes_on k page hpage ?_)
    cases failure with
    | none => exact .inl hk
    | some e => exact .inr (.inl (by simp))
  · obtain ⟨hdone, hbuffer⟩ := h.closed hclosed
    refine ⟨?_, fun m => ?_⟩
    · rw [h.rows_eq, hbuffer, List.append_nil]
    · have hrun := h.run_add_of_done hdone hbuffer m
      simp only [run, hrun, and_self]
  · obtain ⟨hdone, -⟩ := h.closed (.inr hends)
    obtain ⟨page, hpage, hlast⟩ := h.is_last hdone hfailure
    exact ⟨page, hpage, Page.of_isLast (Nat.le_max_left _ _) hlast⟩

/-- A backend that is gone after one full page : the failure comes after the rows of the page, and
then the end for ever. -/
theorem walk_pagers_noNodes :
    let b : Backend Nat :=
      { search := fun _ served =>
          (if served = 0 then
              .ok { hits := [{ id := "a" }, { id := "b" }], total := 2, totalIsExact := false,
                    took := 1, timedOut := false, shards := {} }
            else .error (.noNodesAvailable "gone"), served + 1)
        perform := fun _ served => (.ok (), served) }
    let p := (Pager.ofQuery "notes" (.obj [])).withPageSize (some 2)
    let start : Session Nat := ⟨0, []⟩
    (∀ k < 3, (p.stream.run b start k).stream.Fetches →
        (p.stream.run b start k).stream.nextPage < sizeBound - 1) ∧
      (p.stream.run b start 3).items = [some (.ok { id := "a" }), some (.ok { id := "b" }),
        some (.error (.backend (.noNodesAvailable "gone")))] ∧
      ∀ m, (p.stream.run b start (3 + m)).items =
          (p.stream.run b start 3).items ++ List.replicate m none ∧
        (p.stream.run b start (3 + m)).session = (p.stream.run b start 3).session := by
  intro b p start
  have hnumber : ∀ k < 3, (p.stream.run b start k).stream.Fetches →
      (p.stream.run b start k).stream.nextPage < sizeBound - 1 := by
    intro k hk _
    obtain rfl | rfl | rfl : k = 0 ∨ k = 1 ∨ k = 2 := by omega
    · decide
    · decide
    · decide
  have hitems : (p.stream.run b start 3).items = [some (.ok { id := "a" }),
      some (.ok { id := "b" }), some (.error (.backend (.noNodesAvailable "gone")))] := rfl
  obtain ⟨pages, given, failure, ends, -, hgiven, -, -, -, -, -, -, -, hclosed, -⟩ :=
    walk_pagers b p start 3 hnumber
  have hfailed : failure ≠ none := by
    rintro rfl
    have hmem : some (.error (.backend (.noNodesAvailable "gone"))) ∈
        (p.stream.run b start 3).items := hitems ▸ by simp
    rw [hgiven] at hmem
    simp at hmem
  exact ⟨hnumber, hitems, (hclosed (.inl hfailed)).2⟩

end RowStream

end Catalogue
