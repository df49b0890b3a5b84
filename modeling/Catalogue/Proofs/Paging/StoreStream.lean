import Catalogue.Backend.Store
import Catalogue.Proofs.Backend.Answers
import Catalogue.Proofs.Paging.Fetching

/-!
# Streams over a store

What a store in memory answers is read as the documents that were asked for and a count of all
documents that is right or marked as inexact (`Store.ofJson_answer`). So the only page that ends a
stream is one with no documents behind it (`Store.map_drop_eq`).

`RowStream.Gives` says which rows a stream has yet to give : those it has fetched, and after them
those of all documents from its next page on. Fetching a page moves rows from the second part to the
first (`RowStream.Gives.append`), a step gives the first row (`RowStream.Gives.next`), and steps to
the end give all of them in order (`RowStream.Gives.items`).
-/

namespace Catalogue

/-! ## Answers -/

namespace Store

/-- A stored document as a hit. -/
def hit (entry : String × Document) : Hit :=
  { id := entry.1, score := some (Binary64.ofNat 1), source := entry.2 }

/-- The documents of a page. -/
def found (s : Store) (size offset : Nat) : Dict Document :=
  (s.documents.drop offset).take size

/-- What a store says of the number of its documents. -/
def report? (s : Store) (size : Nat) : Option MatchCount :=
  match s.totals with
  | .exact => some ⟨s.documents.length, true⟩
  | .number => some ⟨s.documents.length, true⟩
  | .lowerBound => some ⟨min s.documents.length size, false⟩
  | .omitted => none

/-- The number of documents as it is read from an answer : what the store says, or else the number
of hits. -/
def counted (s : Store) (size offset : Nat) : MatchCount :=
  (s.report? size).getD ⟨(s.found size offset).length, false⟩

/-- A number that is marked as exact is right. -/
theorem count_counted {s : Store} {size offset : Nat} (h : (s.counted size offset).exact = true) :
    (s.counted size offset).count = s.documents.length := by
  unfold counted report? at h ⊢
  cases ht : s.totals with
  | exact => rfl
  | number => rfl
  | lowerBound => simp [ht] at h
  | omitted => simp [ht] at h

theorem writtenAs_hitJson (entry : String × Document) : (hit entry).WrittenAs (hitJson entry) :=
  (hit entry).writtenAs_toJson

theorem writtenAs_relatedTotal {count : Nat} (h : count < Word.bound64) (relation : String) :
    MatchCount.WrittenAs ⟨count, relation == "eq"⟩ (relatedTotal count relation) :=
  .related h rfl rfl

/-- What a store answers describes the hits, and the total as it is reported. -/
theorem writtenAs_page {s : Store} (h : s.documents.length < Word.bound64) (size : Nat)
    (entries : Dict Document) :
    HitList.WrittenAs ⟨s.report? size, entries.map hit⟩
      (.obj (s.totalEntry size ++ [("hits", .arr (entries.map hitJson))])) := by
  have hmin : min s.documents.length size < Word.bound64 :=
    Nat.lt_of_le_of_lt (Nat.min_le_left _ _) h
  have hhits : Json.IsListOf Hit.WrittenAs (entries.map hit) (.arr (entries.map hitJson)) := by
    refine ⟨_, rfl, ?_⟩
    rw [List.forall₂_map_left_iff, List.forall₂_map_right_iff, List.forall₂_same]
    exact fun entry _ => writtenAs_hitJson entry
  refine ⟨_, .keyed _, nofun, ?_⟩
  unfold totalEntry report?
  cases s.totals with
  | exact => exact ⟨.present (.value (writtenAs_relatedTotal h "eq")), .present hhits⟩
  | number => exact ⟨.present (.value (.number h)), .present hhits⟩
  | lowerBound => exact ⟨.present (.value (writtenAs_relatedTotal hmin "gte")), .present hhits⟩
  | omitted => exact ⟨.leftOut, .present hhits⟩

theorem ofJson_answer {s : Store} (h : s.documents.length < Word.bound64) (request : Request) :
    Response.ofJson (s.answer request) = .ok
      { hits := (s.found request.size request.offset).map hit
        total := (s.counted request.size request.offset).count
        totalIsExact := (s.counted request.size request.offset).exact
        took := 1
        timedOut := false
        shards := {} } := by
  have hpage := writtenAs_page h request.size (s.found request.size request.offset)
  have htook : Json.IsBelow Word.bound64 1 (.int 1) := ⟨rfl, by decide⟩
  refine (Response.ofJson_eq_ok_iff _ _).mpr ⟨_, .keyed _, .present htook, .present rfl, .leftOut,
    s.report? request.size, .present hpage, ?_⟩
  simp only [counted, List.length_map]

end Store

/-! ## Pages -/

section Pages

variable {α : Type} {plan : Plan α} {rowOf : String × Document → α}

theorem Plan.mapM_row {entries : Dict Document}
    (h : ∀ entry ∈ entries, plan.row (Store.hit entry) = .ok (rowOf entry)) :
    (entries.map Store.hit).mapM plan.row = .ok (entries.map rowOf) := by
  rw [mapM_eq_ok_iff, List.forall₂_map_left_iff, List.forall₂_map_right_iff]
  exact List.forall₂_same.mpr h

/-- A page of the rows of a store. -/
def Store.page (s : Store) (rowOf : String × Document → α) (size offset : Nat) : Page α :=
  { total := (s.counted size offset).count
    accurate := (s.counted size offset).exact
    rows := (s.found size offset).map rowOf
    took := 1
    timedOut := false }

/-- What a store answers gives a page of its rows. -/
theorem Plan.outcome_store {s : Store} (hlen : s.documents.length < sizeBound)
    (hrow : ∀ entry ∈ s.documents, plan.row (Store.hit entry) = .ok (rowOf entry))
    (request : Request) :
    plan.outcome (Store.backend.search request s).1 =
      .ok (s.page rowOf request.size request.offset) := by
  have hfound : ∀ entry ∈ s.found request.size request.offset,
      plan.row (Store.hit entry) = .ok (rowOf entry) := fun entry he =>
    hrow entry (List.mem_of_mem_drop (List.mem_of_mem_take he))
  have hanswer : (Store.backend.search request s).1 = .ok _ := Store.ofJson_answer hlen request
  rw [hanswer, Plan.outcome, Plan.pageOf]
  simp only
  rw [Plan.mapM_row hfound]
  rfl

/-- A stream over a store fetches a page of its rows. -/
theorem RowStream.yields_store {stream : RowStream α} {session : Session Store}
    (hlen : session.state.documents.length < sizeBound)
    (hrow : ∀ entry ∈ session.state.documents,
      stream.plan.row (Store.hit entry) = .ok (rowOf entry)) :
    stream.plan.Yields (session.answer Store.backend stream.request)
      (session.state.page rowOf stream.size stream.offset) :=
  (stream.plan.outcome_eq_ok_iff _ _).mp (Plan.outcome_store hlen hrow stream.request)

theorem Store.length_rows_page (s : Store) (rowOf : String × Document → α) (size offset : Nat) :
    (s.page rowOf size offset).rows.length = min size (s.documents.length - offset) := by
  simp [page, found]

/-- No documents come after the last page. -/
theorem Store.length_le_of_isLast {s : Store} {size offset : Nat} (hsize : 0 < size)
    (h : (s.page rowOf size offset).isLast size offset = true) :
    s.documents.length ≤ offset + size := by
  have hrows := s.length_rows_page rowOf size offset
  rcases Page.of_isLast hsize h with hshort | ⟨hexact, htotal⟩
  · omega
  · have hcount : (s.page rowOf size offset).total = s.documents.length := count_counted hexact
    omega

/-- A page that is not the last one is full. -/
theorem Store.le_length_of_not_isLast {s : Store} {size offset : Nat} (hsize : 0 < size)
    (h : (s.page rowOf size offset).isLast size offset = false) :
    offset + size ≤ s.documents.length := by
  have hrows := s.length_rows_page rowOf size offset
  have hfull := (Page.le_of_not_isLast h).1
  omega

/-- The rows after an offset are those of the page there and, unless it is the last one, those
after it. -/
theorem Store.map_drop_eq (s : Store) (rowOf : String × Document → α) {size : Nat}
    (hsize : 0 < size) (offset : Nat) :
    (s.documents.drop offset).map rowOf = (s.page rowOf size offset).rows ++
      if (s.page rowOf size offset).isLast size offset then [] else
        (s.documents.drop (offset + size)).map rowOf := by
  have hsplit : (s.documents.drop offset).map rowOf =
      (s.page rowOf size offset).rows ++ (s.documents.drop (offset + size)).map rowOf := by
    rw [page, found, ← List.map_append, ← List.drop_drop, List.take_append_drop]
  rw [hsplit]
  split
  case isTrue hlast =>
    rw [List.drop_of_length_le (length_le_of_isLast hsize hlast), List.map_nil]
  case isFalse => rfl

end Pages

/-! ## The rows still to come -/

section Rows

variable {α : Type} {rowOf : String × Document → α}

/-- The stream over a store has yet to give these rows : what it has fetched, and after it, unless
it is done, those of all documents from its next page on. The documents and their pages can be
numbered in a word, and so can the page after the next one. -/
structure RowStream.Gives (stream : RowStream α) (s : Store) (rowOf : String × Document → α)
    (rows : List α) : Prop where
  length_lt : s.documents.length < sizeBound
  pages_lt : s.documents.length / stream.size + 2 < sizeBound
  size_pos : 0 < stream.size
  number_pos : 0 < stream.nextPage
  number_lt : stream.done = false → stream.nextPage + 1 < sizeBound
  row_eq : ∀ entry ∈ s.documents, stream.plan.row (Store.hit entry) = .ok (rowOf entry)
  rows_eq : rows = stream.buffer ++ if stream.done then [] else
    (s.documents.drop stream.offset).map rowOf

namespace RowStream

variable {stream : RowStream α} {s : Store} {rows : List α}

/-- A stream that is done or has fetched rows gives the first of the rows to come. -/
theorem Gives.pop (h : stream.Gives s rowOf rows) (hb : ¬ stream.Fetches) :
    stream.pop.1 = rows.head?.map .ok ∧ stream.pop.2.Gives s rowOf rows.tail := by
  have hrows := h.rows_eq
  unfold RowStream.pop
  cases hbuffer : stream.buffer with
  | nil =>
    have hdone : stream.done = true := (not_fetches_iff.mp hb).resolve_right fun hne => hne hbuffer
    rw [hbuffer, if_pos hdone] at hrows
    subst hrows
    exact ⟨rfl, { h with rows_eq := by simp [hbuffer, hdone] }⟩
  | cons row rest =>
    rw [hbuffer] at hrows
    subst hrows
    exact ⟨rfl, { h with rows_eq := rfl }⟩

/-- Fetching a page leaves the rows to come as they are. -/
theorem Gives.append (h : stream.Gives s rowOf rows) (hdone : stream.done = false) :
    (stream.append (s.page rowOf stream.size stream.offset)).Gives s rowOf rows := by
  have hrows := h.rows_eq
  rw [hdone, ite_cond_eq_false _ _ (by simp), s.map_drop_eq rowOf h.size_pos] at hrows
  cases hlast : (s.page rowOf stream.size stream.offset).isLast stream.size stream.offset with
  | true =>
    exact {
      length_lt := h.length_lt
      pages_lt := h.pages_lt
      size_pos := h.size_pos
      number_pos := Nat.succ_pos _
      number_lt := by simp [RowStream.append, hlast]
      row_eq := h.row_eq
      rows_eq := by simp [hrows, hlast, RowStream.append] }
  | false =>
    -- The page is full, so the documents fill at least as many pages as its number says.
    have hfull := Store.le_length_of_not_isLast h.size_pos hlast
    have hbound : stream.offset + stream.size < sizeBound := Nat.lt_of_le_of_lt hfull h.length_lt
    have hnumber : stream.nextPage ≤ s.documents.length / stream.size :=
      (Nat.le_div_iff_mul_le h.size_pos).mpr (Nat.le_trans (mul_le_of_pageOffset h.size_pos hbound) hfull)
    have hoffset : pageOffset (stream.nextPage + 1) stream.size = stream.offset + stream.size :=
      pageOffset_succ h.number_pos h.size_pos hbound
    exact {
      length_lt := h.length_lt
      pages_lt := h.pages_lt
      size_pos := h.size_pos
      number_pos := Nat.succ_pos _
      number_lt := fun _ => Nat.lt_of_le_of_lt (Nat.add_le_add_right hnumber 2) h.pages_lt
      row_eq := h.row_eq
      rows_eq := by simp [hrows, hdone, RowStream.append, offset, hoffset] }

/-- One step gives the first of the rows to come, or the end. -/
theorem Gives.next {session : Session Store} (h : stream.Gives session.state rowOf rows) :
    ∃ rest calls, (stream.next Store.backend).run.run session =
        (.ok (rows.head?.map .ok, rest), ⟨session.state, calls⟩) ∧
      rest.Gives session.state rowOf rows.tail := by
  by_cases hfetches : stream.Fetches
  · have hpage : stream.plan.Yields (session.answer Store.backend stream.request) _ :=
      yields_store h.length_lt h.row_eq
    obtain ⟨hitem, hrest⟩ := (h.append hfetches.1).pop (stream.not_fetches_append _)
    refine ⟨_, (session.searched Store.backend stream.request).calls, ?_, hrest⟩
    rw [next_of_page hfetches hpage (h.number_lt hfetches.1), ← hitem]
    rfl
  · obtain ⟨hitem, hrest⟩ := h.pop hfetches
    refine ⟨stream.pop.2, session.calls, ?_, hrest⟩
    rw [stream.next_of_buffered Store.backend session hfetches, ← hitem]

/-- As many steps as there are rows to come give them in order, and the next step gives the end. -/
theorem Gives.items (session : Session Store) (h : stream.Gives session.state rowOf rows)
    (n : Nat) :
    ∃ rest, ((stream.items Store.backend n).run.run session).1 =
      .ok ((rows.map (fun row => some (Except.ok row)) ++ [none]).take n, rest) := by
  induction n generalizing stream session rows with
  | zero => exact ⟨stream, rfl⟩
  | succ n ih =>
    obtain ⟨rest, calls, hrun, hrest⟩ := h.next
    rw [RowStream.items, Steps.bind_run, hrun]
    cases rows with
    | nil =>
      rw [List.map_nil, List.nil_append, List.take_of_length_le (by simp)]
      exact ⟨rest, rfl⟩
    | cons row rows =>
      obtain ⟨last, hitems⟩ := ih ⟨session.state, calls⟩ hrest
      refine ⟨last, ?_⟩
      simp only [List.head?_cons, Option.map_some]
      rw [Steps.bind_run]
      generalize (rest.items Store.backend n).run.run ⟨session.state, calls⟩ = left at hitems ⊢
      obtain ⟨answer, after⟩ := left
      obtain rfl : answer = .ok _ := hitems
      rfl

/-- A stream that was not used yet has to give all rows from its page on. -/
theorem gives_stream (p : Pager α) (s : Store) (hnumber : p.pageNumber = 1)
    (hlen : s.documents.length < sizeBound)
    (hpages : s.documents.length / p.pageSize + 2 < sizeBound)
    (hrow : ∀ entry ∈ s.documents, p.plan.row (Store.hit entry) = .ok (rowOf entry)) :
    p.stream.Gives s rowOf (s.documents.map rowOf) where
  length_lt := hlen
  pages_lt := hpages
  size_pos := Nat.le_max_left _ _
  number_pos := Nat.le_max_right _ _
  number_lt _ := by
    show p.pageNumber + 1 < sizeBound
    rw [hnumber]
    decide
  row_eq := hrow
  rows_eq := by
    have hoffset : p.stream.offset = 0 := by
      rw [show p.stream.offset = p.offset from rfl, Pager.offset, hnumber, pageOffset, Nat.sub_self, Nat.zero_mul]
      rfl
    rw [hoffset]
    rfl

end RowStream

end Rows

end Catalogue
