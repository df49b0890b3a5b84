import Catalogue.Paging.RowStream
import Catalogue.Proofs.Lists

/-!
# What fetching a page leaves

A fetch is one search, whatever comes of it : the session goes on as the backend leaves it
(`Session.searched`). Its outcome is a page if the backend answers and every hit gives a row
(`Plan.Yields`), and otherwise the error of the backend or of the first hit that gives none
(`Plan.Fails`). The outcome of a fetch tells which of the two is the case (`Plan.outcome_eq_ok_iff`,
`Plan.outcome_eq_error_iff`).

A stream fetches a page when it has no rows left to give and is not done (`RowStream.Fetches`). The
four ways in which one step of it can go are `RowStream.next_of_buffered`, `RowStream.next_of_page`,
`RowStream.next_of_error` and, where the number of the page is the last word,
`RowStream.next_of_overflow`.
-/

namespace Catalogue

variable {σ α : Type}

/-! ## One search -/

namespace Session

/-- The session after a search. -/
def searched (b : Backend σ) (session : Session σ) (request : Request) : Session σ :=
  ⟨(b.search request session.state).2, session.calls ++ [.search request]⟩

/-- The answer to a search. -/
def answer (b : Backend σ) (session : Session σ) (request : Request) :
    Except BackendError Response :=
  (b.search request session.state).1

theorem searches_searched (b : Backend σ) (session : Session σ) (request : Request) :
    (session.searched b request).searches = session.searches + 1 := by
  rw [searches, searched, List.countP_append]
  rfl

end Session

/-! ## Pages -/

namespace Plan

variable (plan : Plan α)

/-- The page of an answer : every hit gives a row, and the rest is taken over. -/
def Yields (answer : Except BackendError Response) (page : Page α) : Prop :=
  ∃ response, answer = .ok response ∧
    List.Forall₂ (fun hit row => plan.row hit = .ok row) response.hits page.rows ∧
    page.total = response.total ∧ page.accurate = response.totalIsExact ∧
    page.took = response.took ∧ page.timedOut = response.timedOut

/-- The error of an answer that gives no page : that of the backend, or that of the first hit that
gives no row. -/
def Fails (answer : Except BackendError Response) (e : Failure) : Prop :=
  (∃ cause, answer = .error cause ∧ e = .backend cause) ∨
    ∃ response before hit rest, answer = .ok response ∧ response.hits = before ++ hit :: rest ∧
      (∀ earlier ∈ before, ∃ row, plan.row earlier = .ok row) ∧ plan.row hit = .error e

/-- What becomes of an answer. -/
def outcome : Except BackendError Response → Except Failure (Page α)
  | .ok response => plan.pageOf response
  | .error cause => .error (.backend cause)

theorem outcome_eq_ok_iff (answer : Except BackendError Response) (page : Page α) :
    plan.outcome answer = .ok page ↔ plan.Yields answer page := by
  cases answer with
  | error cause => simp [outcome, Yields]
  | ok response =>
    obtain ⟨total, accurate, rows, took, timedOut⟩ := page
    simp only [outcome, Yields, pageOf, Except.ok.injEq, exists_eq_left', ← mapM_eq_ok_iff]
    cases response.hits.mapM plan.row with
    | error e => simp [Except.map]
    | ok results =>
      simp only [Except.map, Except.ok.injEq, Page.mk.injEq]
      constructor
      · rintro ⟨rfl, rfl, rfl, rfl, rfl⟩
        exact ⟨rfl, rfl, rfl, rfl, rfl⟩
      · rintro ⟨rfl, rfl, rfl, rfl, rfl⟩
        exact ⟨rfl, rfl, rfl, rfl, rfl⟩

theorem outcome_eq_error_iff (answer : Except BackendError Response) (e : Failure) :
    plan.outcome answer = .error e ↔ plan.Fails answer e := by
  cases answer with
  | error cause => simp [outcome, Fails, eq_comm]
  | ok response =>
    simp only [outcome, Fails, pageOf, reduceCtorEq, false_and, exists_false, false_or,
      Except.ok.injEq, exists_and_left, exists_eq_left', ← mapM_eq_error_iff]
    cases response.hits.mapM plan.row <;> simp [Except.map]

variable {plan} in
/-- An answer gives one page at most. -/
theorem Yields.unique {answer : Except BackendError Response} {page other : Page α}
    (h : plan.Yields answer page) (hother : plan.Yields answer other) : page = other := by
  have houtcome := (plan.outcome_eq_ok_iff answer page).mpr h
  rw [(plan.outcome_eq_ok_iff answer other).mpr hother] at houtcome
  exact (Except.ok.inj houtcome).symm

variable {plan} in
theorem Yields.not_fails {answer : Except BackendError Response} {page : Page α}
    (h : plan.Yields answer page) (e : Failure) : ¬ plan.Fails answer e := by
  rw [← outcome_eq_error_iff, (plan.outcome_eq_ok_iff answer page).mpr h]
  exact nofun

theorem yields_or_fails (answer : Except BackendError Response) :
    (∃ page, plan.Yields answer page) ∨ ∃ e, plan.Fails answer e := by
  cases h : plan.outcome answer with
  | ok page => exact .inl ⟨page, (plan.outcome_eq_ok_iff answer page).mp h⟩
  | error e => exact .inr ⟨e, (plan.outcome_eq_error_iff answer e).mp h⟩

theorem fetch_eq (b : Backend σ) (size offset : Nat) (session : Session σ) :
    (plan.fetch b size offset).run.run session =
      (plan.outcome (session.answer b (plan.request size offset)),
        session.searched b (plan.request size offset)) := by
  rw [fetch, Exchange.bind_run, Backend.ask_run, Session.answer, Session.searched]
  cases (b.search (plan.request size offset) session.state).1 <;> rfl

end Plan

/-- The request for the page of a pager : its index, its query and its order, as many rows as were
requested, or else as the settings say, from one to the largest size, and after as many rows as the
pages before it have, or after the largest offset. -/
def Pager.request (p : Pager α) : Request :=
  let size := max 1 (min (p.requestedSize.getD p.plan.settings.pageSize)
    (max 1 p.plan.settings.maxPageSize))
  { index := p.plan.index
    query := p.plan.query
    size := size
    offset := min ((max (p.requestedPage.getD 1) 1 - 1) * size) (sizeBound - 1)
    sort := p.plan.sort }

/-- A pager fetches its page by this request. -/
theorem Pager.plan_request (p : Pager α) : p.plan.request p.pageSize p.offset = p.request := rfl

theorem Pager.offset_eq {p : Pager α} (h : (p.pageNumber - 1) * p.pageSize < sizeBound) :
    p.offset = (p.pageNumber - 1) * p.pageSize :=
  Nat.min_eq_left (Nat.le_pred_of_lt h)

/-- Nothing comes after the largest offset. -/
theorem Pager.drop_offset (p : Pager α) {l : List β} (h : l.length < sizeBound) :
    l.drop p.offset = l.drop ((p.pageNumber - 1) * p.pageSize) := by
  rcases Nat.lt_or_ge ((p.pageNumber - 1) * p.pageSize) sizeBound with hlt | hge
  · rw [p.offset_eq hlt]
  · have hlast : p.offset = sizeBound - 1 :=
      Nat.min_eq_right (Nat.le_trans (Nat.sub_le _ _) hge)
    rw [List.drop_of_length_le (by omega), List.drop_of_length_le (by omega)]

/-- Pages one behind the other have all of a list, as far as they reach. -/
theorem flatMap_take_drop (l : List α) (size n : Nat) :
    ((List.range n).flatMap fun k => (l.drop (k * size)).take size) = l.take (n * size) := by
  induction n with
  | zero => simp
  | succ n ih =>
    rw [List.range_succ, List.flatMap_append, ih, Nat.succ_mul, List.take_add]
    simp

/-! ## Streams -/

section Offsets

variable {number size : Nat}

/-- Below the largest offset, one page more is `size` rows more. -/
theorem pageOffset_succ (hnumber : 0 < number) (hsize : 0 < size)
    (h : pageOffset number size + size < sizeBound) :
    pageOffset (number + 1) size = pageOffset number size + size := by
  obtain ⟨n, rfl⟩ := Nat.exists_eq_add_one.mpr hnumber
  have hbefore : pageOffset (n + 1) size = min (n * size) (sizeBound - 1) := rfl
  have hafter : pageOffset (n + 1 + 1) size = min ((n + 1) * size) (sizeBound - 1) := rfl
  rw [hbefore] at h ⊢
  rw [hafter, Nat.succ_mul]
  omega

/-- Below the largest offset, the rows up to the end of a page fill as many pages as its number
says. -/
theorem mul_le_of_pageOffset (hsize : 0 < size)
    (h : pageOffset number size + size < sizeBound) :
    number * size ≤ pageOffset number size + size := by
  unfold pageOffset at h ⊢
  rw [Nat.sub_mul, Nat.one_mul] at h ⊢
  omega

end Offsets

namespace Page

variable {page : Page α} {size offset : Nat}

/-- A page that is not the last one is full, and a total that is exact and has a word's size lies
behind it. -/
theorem le_of_not_isLast (h : page.isLast size offset = false) :
    size ≤ page.rows.length ∧
      (page.accurate = true → page.total < sizeBound → offset + page.rows.length < page.total) := by
  simp only [isLast, Bool.or_eq_false_iff, decide_eq_false_iff_not, Bool.and_eq_false_imp,
    Nat.not_lt] at h
  obtain ⟨⟨-, hfull⟩, htotal⟩ := h
  refine ⟨hfull, fun haccurate hbound => ?_⟩
  have hbehind := htotal haccurate
  rw [offsetAdd] at hbehind
  omega

/-- The last page is short, or it reaches a total that is exact. -/
theorem of_isLast (hsize : 0 < size) (h : page.isLast size offset = true) :
    page.rows.length < size ∨
      page.accurate = true ∧ page.total ≤ offset + page.rows.length := by
  simp only [isLast, Bool.or_eq_true, List.isEmpty_iff_length_eq_zero, decide_eq_true_eq,
    Bool.and_eq_true] at h
  rcases h with (hempty | hshort) | ⟨haccurate, htotal⟩
  · exact .inl (by omega)
  · exact .inl hshort
  · rw [offsetAdd] at htotal
    exact .inr ⟨haccurate, by omega⟩

end Page

namespace Steps

theorem lift_run (x : StateM (Session σ) α) (session : Session σ) :
    (liftM x : Steps σ α).run.run session = (.ok (x.run session).1, (x.run session).2) := rfl

/-- Steps go on in the session that the first of them leave, unless these are broken off. -/
theorem bind_run (x : Steps σ α) (f : α → Steps σ β) (session : Session σ) :
    (x >>= f).run.run session =
      match x.run.run session with
      | (.ok a, session) => (f a).run.run session
      | (.error panic, session) => (.error panic, session) := by
  change ExceptT.bindCont f (x session).1 (x session).2 = _
  rw [show x.run.run session = x session from rfl]
  rcases x session with ⟨_ | _, _⟩ <;> rfl

end Steps

namespace RowStream

variable (stream : RowStream α) (b : Backend σ) (session : Session σ)

/-- The request for the next page. -/
def request : Request :=
  stream.plan.request stream.size stream.offset

/-- The next call fetches a page. -/
def Fetches : Prop :=
  stream.done = false ∧ stream.buffer = []

variable {stream} in
theorem not_fetches_iff : ¬ stream.Fetches ↔ stream.done = true ∨ stream.buffer ≠ [] := by
  rw [Fetches, Classical.not_and_iff_not_or_not, Bool.not_eq_false]

/-- After a page was fetched there is a first row to give, or the stream is done. -/
theorem not_fetches_append (page : Page α) : ¬ (stream.append page).Fetches := by
  rw [not_fetches_iff]
  by_cases hrows : page.rows = []
  · left
    simp [append, Page.isLast, hrows]
  · right
    exact List.append_ne_nil_of_right_ne_nil _ hrows

theorem load_eq :
    (stream.load b).run.run session =
      (match stream.plan.outcome (session.answer b stream.request) with
        | .ok page =>
          if stream.nextPage + 1 < sizeBound then .ok (.ok (stream.append page))
          else .error .overflow
        | .error e => .ok (.error e),
        session.searched b stream.request) := by
  rw [load, Steps.bind_run, Steps.lift_run, Plan.fetch_eq]
  unfold request
  cases stream.plan.outcome _ with
  | error e => rfl
  | ok page =>
    simp only
    split <;> rfl

/-- A stream that has rows to give or is done asks for nothing. -/
theorem next_of_buffered (h : ¬ stream.Fetches) :
    (stream.next b).run.run session = (.ok stream.pop, session) := by
  have hcond : (stream.done || !stream.buffer.isEmpty) = true := by
    simpa [Bool.or_eq_true] using not_fetches_iff.mp h
  rw [RowStream.next, if_pos hcond]
  rfl

variable {stream b session}

theorem next_eq (h : stream.Fetches) :
    (stream.next b).run.run session =
      (match stream.plan.outcome (session.answer b stream.request) with
        | .ok page =>
          if stream.nextPage + 1 < sizeBound then .ok (stream.append page).pop
          else .error .overflow
        | .error e => .ok (some (.error e), { stream with done := true }),
        session.searched b stream.request) := by
  rw [RowStream.next, if_neg (by simp [h.1, h.2]), Steps.bind_run, load_eq]
  cases stream.plan.outcome _ with
  | error e => rfl
  | ok page =>
    by_cases hword : stream.nextPage + 1 < sizeBound
    · simp only [if_pos hword]
      rfl
    · simp only [if_neg hword]

/-- A page that can be had is fetched, and the stream gives its first row or ends. -/
theorem next_of_page (h : stream.Fetches) {page : Page α}
    (hpage : stream.plan.Yields (session.answer b stream.request) page)
    (hword : stream.nextPage + 1 < sizeBound) :
    (stream.next b).run.run session =
      (.ok (stream.append page).pop, session.searched b stream.request) := by
  rw [next_eq h, (stream.plan.outcome_eq_ok_iff _ page).mpr hpage]
  simp only [if_pos hword]

/-- If the number of the page that is fetched is the last word, the call is broken off. -/
theorem next_of_overflow (h : stream.Fetches) {page : Page α}
    (hpage : stream.plan.Yields (session.answer b stream.request) page)
    (hword : ¬ stream.nextPage + 1 < sizeBound) :
    (stream.next b).run.run session =
      (.error .overflow, session.searched b stream.request) := by
  rw [next_eq h, (stream.plan.outcome_eq_ok_iff _ page).mpr hpage]
  simp only [if_neg hword]

/-- A page that cannot be had gives its error, and the stream is done. -/
theorem next_of_error (h : stream.Fetches) {e : Failure}
    (he : stream.plan.Fails (session.answer b stream.request) e) :
    (stream.next b).run.run session =
      (.ok (some (.error e), { stream with done := true }),
        session.searched b stream.request) := by
  rw [next_eq h, (stream.plan.outcome_eq_error_iff _ e).mpr he]

end RowStream

end Catalogue
