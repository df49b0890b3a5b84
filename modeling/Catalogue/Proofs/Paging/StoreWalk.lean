import Catalogue.Proofs.Paging.StoreStream
import Catalogue.Proofs.Paging.Walk

/-!
# Walks over a store

A store answers every search, so a walk over it fails only if some row does. If none does, the pages
of the walk lie one behind the other (`RowStream.Walk.pages_eq`), and their rows are those of all
documents from the first page on, as far as the pages reach (`Store.flatMap_pages`).

A page is the last one if no documents come behind it, and a store that does not say how many it has
must give a short page first (`Store.isLast_page_iff`). So a walk that came to its end has given all
rows, and its number of searches follows from their number (`RowStream.Walk.of_ends`), while one that
is not done has searches before it (`RowStream.Walk.of_not_done`). Every run is a walk that has ended
or is on the way, unless the searches reach the page whose number is the last word
(`RowStream.run_store`).
-/

namespace Catalogue

variable {α : Type} {rowOf : String × Document → α}

/-! ## Pages of a store -/

namespace Store

/-- Whether the store says how many documents it has. -/
def reportsCount (s : Store) : Bool :=
  match s.totals with
  | .exact => true
  | .number => true
  | .lowerBound => false
  | .omitted => false

/-- The number of searches that give the last `rest` documents in pages of `size`. -/
def searchesFor (s : Store) (size rest : Nat) : Nat :=
  if s.reportsCount then max 1 ((rest + size - 1) / size) else rest / size + 1

theorem counted_eq (s : Store) (size offset : Nat) :
    (s.counted size offset).exact = s.reportsCount := by
  unfold counted report? reportsCount
  cases s.totals <;> rfl

/-- A page is the last one if it reaches the end of the documents, or is short. -/
theorem isLast_page_iff {s : Store} (hlen : s.documents.length < sizeBound) {size : Nat}
    (hsize : 0 < size) (offset : Nat) :
    (s.page rowOf size offset).isLast size offset = true ↔
      s.documents.length < offset + size ∨
        s.reportsCount = true ∧ s.documents.length = offset + size := by
  have hrows := s.length_rows_page rowOf size offset
  have hreported : (s.page rowOf size offset).accurate = s.reportsCount := s.counted_eq size offset
  have htotal (h : s.reportsCount = true) :
      (s.page rowOf size offset).total = s.documents.length :=
    count_counted ((s.counted_eq size offset).trans h)
  constructor
  · intro hlast
    rcases Page.of_isLast hsize hlast with hshort | ⟨haccurate, hend⟩
    · exact .inl (by omega)
    · have hreports := hreported.symm.trans haccurate
      rw [htotal hreports] at hend
      rcases Nat.lt_or_ge s.documents.length (offset + size) with hshort | hfull
      · exact .inl hshort
      · exact .inr ⟨hreports, by omega⟩
  · intro hend
    by_contra hnot
    obtain ⟨hfull, hbehind⟩ := Page.le_of_not_isLast (Bool.eq_false_iff.mpr hnot)
    rcases hend with hshort | ⟨hreports, hend⟩
    · omega
    · have hbehind := hbehind (hreported.trans hreports)
      rw [htotal hreports] at hbehind
      omega

/-- Pages one behind the other have the rows of all documents, as far as they reach. -/
theorem flatMap_pages (s : Store) (size offset n : Nat) :
    ((List.range n).map fun k => s.page rowOf size (offset + k * size)).flatMap Page.rows =
      ((s.documents.drop offset).map rowOf).take (n * size) := by
  rw [← flatMap_take_drop, List.flatMap_map]
  simp [page, found, List.drop_drop, List.map_drop, List.map_take]

/-- A page that reaches the end of the documents, after pages that do not, is the last of the pages
that it takes to give them. -/
theorem eq_searchesFor {s : Store} {size rest n : Nat} (hsize : 0 < size) (hn : 0 < n)
    (hlast : rest < n * size ∨ s.reportsCount = true ∧ rest = n * size)
    (hbefore : n = 1 ∨ (n - 1) * size < rest ∨ s.reportsCount = false ∧ (n - 1) * size = rest) :
    n = s.searchesFor size rest := by
  obtain ⟨m, rfl⟩ := Nat.exists_eq_add_one.mpr hn
  rw [Nat.add_one_sub_one] at hbefore
  have hsucc : (m + 1) * size = m * size + size := Nat.succ_mul m size
  have hbefore : m = 0 ∨ m * size < rest ∨ s.reportsCount = false ∧ m * size = rest :=
    hbefore.imp_left fun h => by omega
  rw [searchesFor]
  cases hreports : s.reportsCount with
  | true =>
    have hle : rest ≤ (m + 1) * size := by
      rcases hlast with h | ⟨-, h⟩
      · exact Nat.le_of_lt h
      · exact Nat.le_of_eq h
    rw [if_pos rfl]
    rcases hbefore with rfl | hlt | ⟨hfalse, -⟩
    · have hpages : (rest + size - 1) / size < 2 := by
        rw [Nat.div_lt_iff_lt_mul hsize]
        omega
      omega
    · have hpages : (rest + size - 1) / size = m + 1 :=
        Nat.div_eq_of_lt_le (by omega) (by rw [Nat.succ_mul]; omega)
      rw [hpages]
      omega
    · exact absurd (hreports.symm.trans hfalse) (by simp)
  | false =>
    have hlt : rest < (m + 1) * size := by simpa [hreports] using hlast
    have hpages : rest / size = m := by
      refine Nat.div_eq_of_lt_le ?_ hlt
      rcases hbefore with rfl | hlt | ⟨-, heq⟩
      · omega
      · exact Nat.le_of_lt hlt
      · exact Nat.le_of_eq heq
    rw [if_neg Bool.false_ne_true, hpages]

end Store

/-! ## The session of a walk -/

namespace Pager

variable (p : Pager α) (start : Session Store)

/-- Searches leave a store as it is. -/
theorem state_sessionAhead (k : Nat) :
    (p.sessionAhead Store.backend start k).state = start.state := by
  induction k with
  | zero => rfl
  | succ k ih => exact ih

/-- No page of a store fails if no row does. -/
theorem outcome_answerAhead (hlen : start.state.documents.length < sizeBound)
    (hrow : ∀ entry ∈ start.state.documents, p.plan.row (Store.hit entry) = .ok (rowOf entry))
    (k : Nat) :
    p.plan.outcome (p.answerAhead Store.backend start k) =
      .ok (start.state.page rowOf p.pageSize (p.ahead k).offset) := by
  have hstate := p.state_sessionAhead start k
  rw [← hstate] at hlen hrow ⊢
  exact Plan.outcome_store hlen hrow (p.ahead k).request

/-- Behind a page that is not the last one lies the next page. -/
theorem offset_ahead_succ (hlen : start.state.documents.length < sizeBound) {k : Nat}
    (h : (start.state.page rowOf p.pageSize (p.ahead k).offset).isLast p.pageSize
      (p.ahead k).offset = false) :
    (p.ahead (k + 1)).offset = (p.ahead k).offset + p.pageSize := by
  have hsize : 0 < p.pageSize := Nat.le_max_left _ _
  have hnumber : 0 < p.pageNumber + k := Nat.add_pos_left (Nat.le_max_right _ _) k
  have hfull := Nat.lt_of_le_of_lt (Store.le_length_of_not_isLast hsize h) hlen
  rw [offset_ahead] at hfull ⊢
  rw [offset_ahead]
  exact pageOffset_succ hnumber hsize hfull

end Pager

/-! ## Walks -/

namespace RowStream

section Walks

variable {p : Pager α} {start : Session Store} {r : Run Store α} {pages : List (Page α)}
  {given : List α} {failure : Option Failure} {ends : Nat}
  (hlen : start.state.documents.length < sizeBound)
  (hrow : ∀ entry ∈ start.state.documents, p.plan.row (Store.hit entry) = .ok (rowOf entry))

include hlen hrow

theorem Walk.failure_eq_none (h : Walk Store.backend p start r pages given failure ends) :
    failure = none := by
  cases failure with
  | none => rfl
  | some e =>
    have hfails := (p.plan.outcome_eq_error_iff _ e).mpr (h.fails e rfl)
    rw [p.outcome_answerAhead start hlen hrow] at hfails
    exact nomatch hfails

theorem eq_page_of_yields {k : Nat} {page : Page α}
    (hpage : p.plan.Yields (p.answerAhead Store.backend start k) page) :
    page = start.state.page rowOf p.pageSize (p.ahead k).offset := by
  have houtcome := (p.plan.outcome_eq_ok_iff _ page).mpr hpage
  rw [p.outcome_answerAhead start hlen hrow] at houtcome
  exact (Except.ok.inj houtcome).symm

/-- Every page of a walk is the page of the store at its offset. -/
theorem Walk.eq_page (h : Walk Store.backend p start r pages given failure ends) {k : Nat}
    {page : Page α} (hpage : pages[k]? = some page) :
    page = start.state.page rowOf p.pageSize (p.ahead k).offset :=
  eq_page_of_yields hlen hrow (h.yields k page hpage)

/-- The pages of a walk lie one behind the other. -/
theorem Walk.offset_eq_add (h : Walk Store.backend p start r pages given failure ends) {k : Nat}
    (hk : k < pages.length) : (p.ahead k).offset = p.offset + k * p.pageSize := by
  induction k with
  | zero =>
    rw [p.offset_ahead, Nat.zero_mul]
    rfl
  | succ k ih =>
    have hpage : pages[k]? = some pages[k] := List.getElem?_eq_getElem _
    have hnot := h.goes_on k _ hpage (.inl hk)
    rw [h.eq_page hlen hrow hpage] at hnot
    rw [p.offset_ahead_succ start hlen hnot, ih (Nat.lt_of_succ_lt hk), Nat.succ_mul,
      Nat.add_assoc]

theorem Walk.pages_eq (h : Walk Store.backend p start r pages given failure ends) :
    pages = (List.range pages.length).map fun k =>
      start.state.page rowOf p.pageSize (p.offset + k * p.pageSize) := by
  refine List.ext_getElem (by simp) fun k hk _ => ?_
  have hpage : pages[k]? = some pages[k] := List.getElem?_eq_getElem _
  have heq := h.eq_page hlen hrow hpage
  rw [h.offset_eq_add hlen hrow hk] at heq
  simpa using heq

/-- What was given and what is still to give are the rows of the store, as far as the pages reach. -/
theorem Walk.take_eq (h : Walk Store.backend p start r pages given failure ends) :
    (((start.state.documents.drop p.offset).map rowOf).take
      (pages.length * p.pageSize)) = given ++ r.stream.buffer := by
  rw [← h.rows_eq, h.pages_eq hlen hrow, Store.flatMap_pages, List.length_map,
    List.length_range]

/-- The rows are given in order and none twice. -/
theorem Walk.given_prefix (h : Walk Store.backend p start r pages given failure ends) :
    given <+: (start.state.documents.drop p.offset).map rowOf := by
  have htake := List.take_prefix (pages.length * p.pageSize)
    ((start.state.documents.drop p.offset).map rowOf)
  rw [h.take_eq hlen hrow] at htake
  exact (List.prefix_append _ _).trans htake

/-- A page of a walk is the last one if it reaches the end of the rows, or is short. -/
theorem Walk.isLast_iff (h : Walk Store.backend p start r pages given failure ends) {k : Nat}
    {page : Page α} (hpage : pages[k]? = some page) :
    let rest := start.state.documents.length - p.offset
    page.isLast p.pageSize (p.ahead k).offset = true ↔
      rest < (k + 1) * p.pageSize ∨
        start.state.reportsCount = true ∧ rest = (k + 1) * p.pageSize := by
  intro rest
  have hsize : 0 < p.pageSize := Nat.le_max_left _ _
  have hk : k < pages.length := (List.getElem?_eq_some_iff.mp hpage).1
  have hsucc : (k + 1) * p.pageSize = k * p.pageSize + p.pageSize := Nat.succ_mul _ _
  rw [h.eq_page hlen hrow hpage, h.offset_eq_add hlen hrow hk,
    Store.isLast_page_iff hlen hsize]
  refine or_congr ?_ (and_congr_right fun _ => ?_)
  · omega
  · omega

/-- A walk that came to its end has given all rows, in as many searches as it takes. -/
theorem Walk.of_ends (h : Walk Store.backend p start r pages given failure ends)
    (hends : ends ≠ 0) :
    given = (start.state.documents.drop p.offset).map rowOf ∧
      pages.length = start.state.searchesFor p.pageSize
        (start.state.documents.length - p.offset) := by
  have hsize : 0 < p.pageSize := Nat.le_max_left _ _
  obtain ⟨hdone, hbuffer⟩ := h.closed (.inr hends)
  obtain ⟨page, hpage, hisLast⟩ := h.is_last hdone (h.failure_eq_none hlen hrow)
  rw [List.getLast?_eq_getElem?] at hpage
  have hpos : pages.length - 1 < pages.length := (List.getElem?_eq_some_iff.mp hpage).1
  have hcount : pages.length - 1 + 1 = pages.length := by omega
  have hlast := (h.isLast_iff hlen hrow hpage).mp hisLast
  rw [hcount] at hlast
  constructor
  · have htake := h.take_eq hlen hrow
    rw [hbuffer, List.append_nil, List.take_of_length_le] at htake
    · exact htake.symm
    · rw [List.length_map, List.length_drop]
      omega
  · refine Store.eq_searchesFor hsize (by omega) hlast ?_
    by_cases hone : pages.length = 1
    · exact .inl hone
    · right
      -- The page before the last one is not the last one.
      have hbefore : pages[pages.length - 2]? = some pages[pages.length - 2] :=
        List.getElem?_eq_getElem _
      have hnot := h.goes_on _ _ hbefore (.inl (by omega))
      have hlast := mt (h.isLast_iff hlen hrow hbefore).mpr (by simp [hnot])
      rw [show pages.length - 2 + 1 = pages.length - 1 by omega] at hlast
      obtain ⟨hfull, hexact⟩ := not_or.mp hlast
      rcases Nat.lt_or_eq_of_le (Nat.le_of_not_lt hfull) with hlt | heq
      · exact .inl hlt
      · have hreports : start.state.reportsCount = false :=
          Bool.eq_false_iff.mpr fun hreports => hexact ⟨hreports, heq.symm⟩
        exact .inr ⟨hreports, heq⟩

/-- A walk that is not done has not reached the end of the rows, and searches at least once more. -/
theorem Walk.of_not_done (h : Walk Store.backend p start r pages given failure ends)
    (hdone : r.stream.done = false) :
    let rest := start.state.documents.length - p.offset
    pages.length * p.pageSize ≤ rest ∧ pages.length < start.state.searchesFor p.pageSize rest := by
  intro rest
  have hsize : 0 < p.pageSize := Nat.le_max_left _ _
  cases hcount : pages.length with
  | zero =>
    refine ⟨by simp, ?_⟩
    unfold Store.searchesFor
    split
    · exact Nat.lt_of_lt_of_le Nat.zero_lt_one (Nat.le_max_left _ _)
    · exact Nat.succ_pos _
  | succ k =>
    have hlast : pages[k]? = some pages[k] := List.getElem?_eq_getElem _
    have hnot := h.goes_on k _ hlast (.inr (.inr hdone))
    have hopen := mt (h.isLast_iff hlen hrow hlast).mpr (by simp [hnot])
    obtain ⟨hfull, hexact⟩ := not_or.mp hopen
    have hfull : (k + 1) * p.pageSize ≤ rest := Nat.le_of_not_lt hfull
    refine ⟨hfull, ?_⟩
    unfold Store.searchesFor
    cases hreports : start.state.reportsCount with
    | true =>
      have hlt : (k + 1) * p.pageSize < rest :=
        Nat.lt_of_le_of_ne hfull fun heq => hexact ⟨hreports, heq.symm⟩
      have hpages : k + 1 + 1 ≤ (rest + p.pageSize - 1) / p.pageSize := by
        rw [Nat.le_div_iff_mul_le hsize, Nat.succ_mul]
        omega
      rw [if_pos rfl]
      omega
    | false =>
      have hpages : k + 1 ≤ rest / p.pageSize := (Nat.le_div_iff_mul_le hsize).mpr hfull
      rw [if_neg Bool.false_ne_true]
      omega

/-- The items of a walk are the rows in order, and the end from there on. -/
theorem Walk.items_eq_take (h : Walk Store.backend p start r pages given none ends) :
    let rows := (start.state.documents.drop p.offset).map rowOf
    r.items = (rows.map fun row => some (.ok row)).take r.items.length ++
      List.replicate (r.items.length - rows.length) none := by
  intro rows
  have hitems : r.items = given.map (fun row => some (.ok row)) ++ List.replicate ends none := by
    simpa using h.items_eq
  have hcount : r.items.length = given.length + ends := by simpa using h.length_items
  have hprefix := h.given_prefix hlen hrow
  rw [hcount, ← List.map_take, hitems]
  by_cases hends : ends = 0
  · rw [hends, Nat.add_zero, Nat.sub_eq_zero_of_le hprefix.length_le,
      ← List.prefix_iff_eq_take.mp hprefix]
  · obtain ⟨hgiven, -⟩ := h.of_ends hlen hrow hends
    have hall : rows.take (given.length + ends) = rows :=
      List.take_of_length_le (hgiven ▸ Nat.le_add_right _ _)
    rw [hall, hgiven, Nat.add_sub_cancel_left]

/-- A walk with more items than rows came to its end. -/
theorem Walk.ends_ne_zero (h : Walk Store.backend p start r pages given none ends)
    (hlt : start.state.documents.length - p.offset < r.items.length) : ends ≠ 0 := by
  rintro rfl
  have hcount : r.items.length = given.length := by simpa using h.length_items
  have hle := (h.given_prefix hlen hrow).length_le
  rw [List.length_map, List.length_drop] at hle
  omega

/-- A walk that goes on needs no page whose number has no successor. -/
theorem Walk.not_past (h : Walk Store.backend p start r pages given none ends) :
    let before := sizeBound - 1 - p.pageNumber
    ¬ (before < start.state.searchesFor p.pageSize (start.state.documents.length - p.offset) ∧
      before * p.pageSize < r.items.length) := by
  rintro before ⟨hbefore, hlt⟩
  have hle : pages.length ≤ before := h.length_le
  by_cases hends : ends = 0
  · have hcount : r.items.length = given.length + ends := by simpa using h.length_items
    have htake := congrArg List.length (h.take_eq hlen hrow)
    rw [List.length_take, List.length_append] at htake
    have hmul : pages.length * p.pageSize ≤ before * p.pageSize := Nat.mul_le_mul_right _ hle
    omega
  · obtain ⟨-, hpages⟩ := h.of_ends hlen hrow hends
    omega

/-- A walk whose next call is broken off has given the rows of all pages before the one that this
call fetches, and is not at its end. -/
theorem BreaksOff.items_eq {last : Page α} (h : BreaksOff Store.backend p start r pages given last) :
    let before := sizeBound - 1 - p.pageNumber
    let rows := (start.state.documents.drop p.offset).map rowOf
    before < start.state.searchesFor p.pageSize (start.state.documents.length - p.offset) ∧
      r.items.length = before * p.pageSize ∧
      r.items = (rows.take (before * p.pageSize)).map fun row => some (.ok row) := by
  intro before rows
  have hlength : pages.length = before := h.length_eq
  obtain ⟨hfull, hbefore⟩ := h.walk.of_not_done hlen hrow h.fetches.1
  have htake := h.walk.take_eq hlen hrow
  rw [h.fetches.2, List.append_nil, hlength] at htake
  rw [hlength] at hfull hbefore
  have hitems : r.items = given.map fun row => some (.ok row) := by simpa using h.walk.items_eq
  have hgiven : given.length = before * p.pageSize := by
    rw [← htake, List.length_take, List.length_map, List.length_drop, Nat.min_eq_left hfull]
  refine ⟨hbefore, ?_, ?_⟩
  · rw [hitems, List.length_map, hgiven]
  · rw [hitems, ← htake]

end Walks

/-- Over a store whose documents all give rows, a stream gives the rows of all documents from its
page on, in order and each once, and then the end for ever. To come to the end it searches as often
as it takes to fill pages with these rows, and if the store does not report the number of its
documents, once more after pages that are all full. This is so unless one of these searches is for
the page whose number is the last word : then the calls up to it give the rows of the pages before
it, and the call that fetches it is broken off. -/
theorem run_store (p : Pager α) (start : Session Store) (rowOf : String × Document → α)
    (hlen : start.state.documents.length < sizeBound)
    (hrow : ∀ entry ∈ start.state.documents, p.plan.row (Store.hit entry) = .ok (rowOf entry))
    (n : Nat) :
    let rows := (start.state.documents.drop ((p.pageNumber - 1) * p.pageSize)).map rowOf
    let searches := start.state.searchesFor p.pageSize rows.length
    let before := sizeBound - 1 - p.pageNumber
    let run := p.stream.run Store.backend start n
    run.session.state = start.state ∧
    (run.panic = none ↔ ¬ (before < searches ∧ before * p.pageSize < n)) ∧
    (run.panic = none →
      run.items = (rows.map fun row => some (.ok row)).take n ++
        List.replicate (n - rows.length) none ∧
      (rows.length < n → run.session.searches = start.searches + searches)) ∧
    (run.panic ≠ none →
      run.items = (rows.take (before * p.pageSize)).map (fun row => some (.ok row)) ∧
      run.session.searches = start.searches + (before + 1)) := by
  intro rows searches before run
  have hrows : (start.state.documents.drop p.offset).map rowOf = rows := by
    rw [p.drop_offset hlen]
  have hrest : start.state.documents.length - p.offset = rows.length := by
    rw [← hrows, List.length_map, List.length_drop]
  rcases walk_or_breaksOff Store.backend p start n with
    ⟨pages, given, failure, ends, h⟩ | ⟨k, hk, pages, given, last, h, hrun⟩
  · obtain rfl := h.failure_eq_none hlen hrow
    have hpanic : run.panic = none := h.panic_eq
    have hcount : run.items.length = n := RowStream.length_items_run hpanic
    have hnot := h.not_past hlen hrow
    have hitems := h.items_eq_take hlen hrow
    rw [hcount, hrest] at hnot
    rw [hcount, hrows] at hitems
    refine ⟨?_, iff_of_true hpanic hnot, fun _ => ⟨hitems, fun hlt => ?_⟩,
      fun hne => absurd hpanic hne⟩
    · rw [h.session_eq, p.state_sessionAhead]
    · have hends := h.ends_ne_zero hlen hrow (by rw [hcount, hrest]; exact hlt)
      obtain ⟨-, hpages⟩ := h.of_ends hlen hrow hends
      rw [h.session_eq, p.searches_sessionAhead, hpages, hrest]
      rfl
  · have hstep : run = { p.stream.run Store.backend start k with
        session := p.sessionAhead Store.backend start (pages.length + 1)
        panic := some .overflow } := hrun.trans h.step_eq
    have hlength : pages.length = before := h.length_eq
    obtain ⟨hbefore, hfull, hitems⟩ := h.items_eq hlen hrow
    rw [hrest] at hbefore
    rw [RowStream.length_items_run h.walk.panic_eq] at hfull
    rw [hrows] at hitems
    have hpanic : run.panic ≠ none := by
      rw [hstep]
      exact Option.some_ne_none _
    refine ⟨?_, iff_of_false hpanic ?_, fun hnone => absurd hnone hpanic, fun _ => ⟨?_, ?_⟩⟩
    · rw [hstep]
      exact p.state_sessionAhead start _
    · exact not_not_intro ⟨hbefore, hfull ▸ hk⟩
    · rw [hstep]
      exact hitems
    · rw [hstep]
      exact (p.searches_sessionAhead Store.backend start _).trans (by rw [hlength])

theorem run_store_secondPage :
    let start : Session Store :=
      ⟨{ documents := ["a", "b", "c", "d", "e"].map fun id => (id, [])
         totals := .lowerBound }, []⟩
    let p := ((Pager.ofQuery "notes" (.obj [])).withPageSize (some 2)).withPage (some 2)
    (p.stream.run Store.backend start 5).panic = none ∧
      (p.stream.run Store.backend start 5).items =
        [some (.ok (Store.hit ("c", []))), some (.ok (Store.hit ("d", []))),
          some (.ok (Store.hit ("e", []))), none, none] ∧
      (p.stream.run Store.backend start 5).session.state = start.state ∧
      (p.stream.run Store.backend start 5).session.searches = 2 := by
  intro start p
  obtain ⟨hstate, hpanic, hnone, -⟩ :=
    run_store p start Store.hit (by decide) (fun _ _ => rfl) 5
  have hpanic := hpanic.mpr (by decide)
  obtain ⟨hitems, hsearches⟩ := hnone hpanic
  exact ⟨hpanic, hitems, hstate, (hsearches (by decide)).trans (by decide)⟩

/-- An empty store and the page whose number is the last word : no rows come before the page or on
it, but its number has no successor, and the first call is broken off where it should give the
end. -/
theorem not_run_store_lastWord :
    let p := ((Pager.ofQuery "u" (.single "match_all" (.obj []))).withPage
      (some 18446744073709551615)).withPageSize (some 1)
    let start : Session Store := ⟨{}, []⟩
    let run := p.stream.run Store.backend start 1
    p.pageNumber * p.pageSize < sizeBound ∧ run.panic = some .overflow ∧ run.items = [] ∧
      run.session.searches = 1 := by
  intro p start run
  have hlen : start.state.documents.length < sizeBound := Nat.succ_pos _
  have hpage : p.stream.plan.Yields (start.answer Store.backend p.stream.request)
      (start.state.page Store.hit p.stream.size p.stream.offset) :=
    RowStream.yields_store hlen fun _ _ => rfl
  have hnext : (p.stream.next Store.backend).run.run start =
      (.error .overflow, start.searched Store.backend p.stream.request) :=
    next_of_overflow ⟨rfl, rfl⟩ hpage (by decide)
  have hrun : run =
      ⟨[], p.stream, start.searched Store.backend p.stream.request, some .overflow⟩ :=
    Run.step_of_error rfl hnext
  rw [hrun]
  exact ⟨by decide, rfl, rfl, rfl⟩

end RowStream

end Catalogue
