import Catalogue.Backend.Rehearsal
import Catalogue.Proofs.Paging.Walk

/-!
# Numbers of pages in a word

A stream keeps the number of its next page in a word. A call that fetches the page takes one from
the number to find the rows before the page, and adds one to it when the page is there.
`RowStream.Run.StaysInWord` says that nothing of this leaves the word, and `Pager.CountsInWord` that
it is so in all of so many calls.

Taking one never leaves the word (`RowStream.inWord_run`). The last word is the number of a page too,
and adding one to it does, which breaks the call off. So calls count exactly as long as they do not
come to that page (`Pager.countsInWord_iff`). Whether they come to it (`Pager.RunsOut`) is a matter
of what the backend answers : it has to give this page and all pages before it, none of which ends
the results, and there have to be more calls than these have rows. A pager that starts at the last
word comes to it with its first call (`Pager.not_countsInWord_lastWord`).
-/

namespace Catalogue

variable {σ α : Type}

namespace RowStream

/-- A call that fetches a page computes within a word : one can be taken from the number of the
page, the rows before the page are a product, or the largest offset where that is larger, and one
can be added to the number if the page can be had. -/
structure Run.StaysInWord (b : Backend σ) (r : Run σ α) : Prop where
  one_le : 1 ≤ r.stream.nextPage
  lt_bound : r.stream.nextPage < sizeBound
  offset_eq : r.stream.offset = min ((r.stream.nextPage - 1) * r.stream.size) (sizeBound - 1)
  succ_lt : ∀ page, r.stream.plan.Yields (r.session.answer b r.stream.request) page →
    r.stream.nextPage + 1 < sizeBound

end RowStream

namespace Pager

/-- So many calls compute the numbers of pages within a word. -/
def CountsInWord (b : Backend σ) (p : Pager α) (start : Session σ) (n : Nat) : Prop :=
  ∀ k < n, (p.stream.run b start k).stream.Fetches → (p.stream.run b start k).StaysInWord b

/-- So many calls come to the page whose number is the last word, and it can be had : so can all
pages before it, none of them is the last one, and the calls are more than their rows. -/
def RunsOut (b : Backend σ) (p : Pager α) (start : Session σ) (n : Nat) : Prop :=
  ∃ (before : List (Page α)) (last : Page α), p.pageNumber + before.length = sizeBound - 1 ∧
    (∀ k page, (before ++ [last])[k]? = some page → p.plan.Yields (p.answerAhead b start k) page) ∧
    (∀ k (page : Page α), before[k]? = some page →
      page.isLast p.pageSize (p.ahead k).offset = false) ∧
    (before.flatMap Page.rows).length < n

end Pager

namespace RowStream

variable {b : Backend σ} {p : Pager α} {start : Session σ} {r : Run σ α}
  {pages before : List (Page α)} {last : Page α} {given : List α} {failure : Option Failure}
  {ends k n : Nat}

/-! ## Numbers of walks -/

theorem Walk.inWord (h : Walk b p start r pages given failure ends)
    (hword : p.pageNumber < sizeBound) : 1 ≤ r.stream.nextPage ∧ r.stream.nextPage < sizeBound := by
  have hpos : 1 ≤ p.pageNumber := Nat.le_max_right _ _
  have hle := h.length_le
  rw [h.number_eq]
  omega

/-- Whatever the calls come to, the number of the next page is a word that one can be taken from. -/
theorem inWord_run (hword : p.pageNumber < sizeBound) (b : Backend σ) (start : Session σ) (n : Nat) :
    1 ≤ (p.stream.run b start n).stream.nextPage ∧
      (p.stream.run b start n).stream.nextPage < sizeBound := by
  rcases walk_or_breaksOff b p start n with ⟨_, _, _, _, h⟩ | ⟨k, -, _, _, _, h, hrun⟩
  · exact h.inWord hword
  · rw [hrun, run, h.step_eq]
    exact h.walk.inWord hword

/-- The searches of any calls are those of the pages in order. -/
theorem calls_run (b : Backend σ) (p : Pager α) (start : Session σ) (n : Nat) :
    ∃ searches, (p.stream.run b start n).session.calls =
      start.calls ++ (List.range searches).map fun k => .search (p.ahead k).request := by
  rcases walk_or_breaksOff b p start n with ⟨_, _, _, _, h⟩ | ⟨k, -, pages, _, _, h, hrun⟩
  · rw [h.session_eq]
    exact ⟨_, p.calls_sessionAhead b start _⟩
  · rw [hrun, run, h.step_eq]
    exact ⟨_, p.calls_sessionAhead b start (pages.length + 1)⟩

/-! ## The page whose number is the last word -/

/-- Calls of which one is broken off have run out of numbers. -/
theorem BreaksOff.runsOut (h : BreaksOff b p start (p.stream.run b start k) pages given last)
    (hword : p.pageNumber < sizeBound) (hk : k < n) : p.RunsOut b start n := by
  refine ⟨pages, last, ?_, fun i page hpage => ?_, fun i page hpage => ?_, ?_⟩
  · have hlength := h.length_eq
    omega
  · rcases getElem?_append_singleton hpage with hpage | ⟨rfl, rfl⟩
    · exact h.walk.yields i page hpage
    · exact h.yields
  · exact h.walk.goes_on i page hpage (.inr (.inr h.fetches.1))
  · -- A call that fetches has given all rows before the page, one for each call.
    have hitems := h.walk.length_items
    rw [length_items_run h.walk.panic_eq] at hitems
    rw [h.walk.rows_eq, h.fetches.2, List.append_nil]
    simp at hitems
    omega

/-- The pages of a walk are the first ones of those that can be had. -/
theorem Walk.exists_append (h : Walk b p start r pages given failure ends)
    (hle : pages.length ≤ before.length)
    (hyields : ∀ k page, before[k]? = some page → p.plan.Yields (p.answerAhead b start k) page) :
    ∃ rest, before = pages ++ rest := by
  have htake : pages = before.take pages.length := by
    refine List.ext_getElem (by simp [hle]) fun k hk hk' => ?_
    rw [List.getElem_take]
    exact (h.yields k _ (List.getElem?_eq_getElem hk)).unique
      (hyields k _ (List.getElem?_eq_getElem (Nat.lt_of_lt_of_le hk hle)))
  obtain ⟨rest, hrest⟩ := List.prefix_iff_eq_take.mpr htake
  exact ⟨rest, hrest.symm⟩

/-- A walk that has given as many rows as some pages have fetches the page that comes after them,
unless it has gone further already. -/
theorem Walk.fetches (h : Walk b p start r pages given failure ends)
    (hlength : r.items.length = (before.flatMap Page.rows).length)
    (hle : pages.length ≤ before.length)
    (hyields : ∀ k page, (before ++ [last])[k]? = some page →
      p.plan.Yields (p.answerAhead b start k) page)
    (hopen : ∀ k (page : Page α), before[k]? = some page →
      page.isLast p.pageSize (p.ahead k).offset = false) :
    r.stream.Fetches ∧ pages = before := by
  have hlt : pages.length < (before ++ [last]).length := by
    rw [List.length_append]
    exact Nat.lt_succ_of_le hle
  have hfailure : failure = none := by
    refine Option.eq_none_iff_forall_ne_some.mpr fun e he => ?_
    exact (hyields _ _ (List.getElem?_eq_getElem hlt)).not_fails e (h.fails e he)
  obtain ⟨rest, rfl⟩ : ∃ rest, before = pages ++ rest := by
    refine h.exists_append hle fun k page hpage => hyields k page ?_
    rwa [List.getElem?_append_left (List.getElem?_eq_some_iff.mp hpage).1]
  have hdone : r.stream.done = false := by
    cases hdone : r.stream.done with
    | false => rfl
    | true =>
      obtain ⟨page, hpage, hisLast⟩ := h.is_last hdone hfailure
      rw [List.getLast?_eq_getElem?] at hpage
      have hindex := (List.getElem?_eq_some_iff.mp hpage).1
      rw [← List.getElem?_append_left hindex] at hpage
      exact hisLast.symm.trans (hopen _ _ hpage)
  obtain ⟨rfl, rfl⟩ := h.eq_of_not_done hdone
  -- What the other pages have is still to be given, and every page has rows.
  have hgiven : r.items.length = given.length := by simpa using h.length_items
  rw [hgiven, List.flatMap_append, h.rows_eq, List.length_append, List.length_append] at hlength
  have hbuffer : r.stream.buffer = [] := List.length_eq_zero_iff.mp (by omega)
  have hnone : rest.flatMap Page.rows = [] := List.length_eq_zero_iff.mp (by omega)
  have hrest : rest = [] := by
    refine List.eq_nil_iff_forall_not_mem.mpr fun page hpage => ?_
    obtain ⟨k, hk⟩ := List.mem_iff_getElem?.mp (List.mem_append_right pages hpage)
    have hfull := (Page.le_of_not_isLast (hopen k page hk)).1
    have hsize : 1 ≤ p.pageSize := Nat.le_max_left _ _
    rw [List.flatMap_eq_nil_iff.mp hnone page hpage, List.length_nil] at hfull
    omega
  exact ⟨⟨hdone, hbuffer⟩, by rw [hrest, List.append_nil]⟩

end RowStream

namespace Pager

open RowStream

variable {b : Backend σ} {p : Pager α} {start : Session σ} {n : Nat}

/-- Calls that come to the page whose number is the last word are broken off there. -/
theorem RunsOut.panic_ne (h : p.RunsOut b start n) : (p.stream.run b start n).panic ≠ none := by
  obtain ⟨before, last, hnumber, hyields, hopen, hlt⟩ := h
  intro hpanic
  obtain ⟨pages, given, failure, ends, hwalk⟩ := walk_run (panic_eq_none_of_le (Nat.le_of_lt hlt) hpanic)
  have hle := hwalk.length_le
  obtain ⟨hfetches, rfl⟩ := hwalk.fetches (length_items_run hwalk.panic_eq) (by omega) hyields hopen
  have hlast : p.plan.Yields (p.answerAhead b start pages.length) last :=
    hyields _ _ List.getElem?_concat_length
  rw [← hwalk.answer_eq hfetches.1, ← hwalk.plan_eq] at hlast
  have hword : ¬ (p.stream.run b start (pages.flatMap Page.rows).length).stream.nextPage + 1 <
      sizeBound := by
    rw [hwalk.number_eq]
    omega
  have hstep := Run.step_of_error hwalk.panic_eq (next_of_overflow hfetches hlast hword)
  have hnone := panic_eq_none_of_le (Nat.succ_le_of_lt hlt) hpanic
  rw [run, hstep] at hnone
  cases hnone

theorem panic_eq_none_iff (hword : p.pageNumber < sizeBound) :
    (p.stream.run b start n).panic = none ↔ ¬ p.RunsOut b start n := by
  refine ⟨fun hpanic h => h.panic_ne hpanic, fun hnot => ?_⟩
  rcases walk_or_breaksOff b p start n with ⟨_, _, _, _, h⟩ | ⟨k, hk, _, _, _, h, -⟩
  · exact h.panic_eq
  · exact absurd (h.runsOut hword hk) hnot

/-- A call is broken off exactly if it leaves the word. -/
theorem countsInWord_iff_panic (hword : p.pageNumber < sizeBound) :
    p.CountsInWord b start n ↔ (p.stream.run b start n).panic = none := by
  constructor
  · intro hcounts
    rcases walk_or_breaksOff b p start n with ⟨_, _, _, _, h⟩ | ⟨k, hk, pages, _, last, h, -⟩
    · exact h.panic_eq
    · have hlast := h.yields
      rw [← h.walk.answer_eq h.fetches.1, ← h.walk.plan_eq] at hlast
      have hlt := (hcounts k hk h.fetches).succ_lt last hlast
      have hlength := h.length_eq
      rw [h.walk.number_eq] at hlt
      omega
  · intro hpanic k hk hfetches
    obtain ⟨hone, hlt⟩ := inWord_run hword b start k
    refine ⟨hone, hlt, rfl, fun page hpage => Classical.byContradiction fun hnot => ?_⟩
    have hnone := panic_eq_none_of_le (Nat.succ_le_of_lt hk) hpanic
    have hbefore := panic_eq_none_of_le (Nat.le_succ k) hnone
    rw [run, Run.step_of_error hbefore (next_of_overflow hfetches hpage hnot)] at hnone
    cases hnone

/-- Over any backend, so many calls compute the numbers of pages within a word exactly if none of
them is broken off, and exactly if they do not come to the page whose number is the last word.
Whatever they come to, one can be taken from the number of the next page, and they ask for one page
after the other, each by the number of rows before it, or by the largest offset where that is
larger. -/
theorem countsInWord_iff (b : Backend σ) (p : Pager α) (start : Session σ) (n : Nat)
    (hword : ∀ number, p.requestedPage = some number → number < sizeBound) :
    (p.CountsInWord b start n ↔ (p.stream.run b start n).panic = none) ∧
    ((p.stream.run b start n).panic = none ↔ ¬ p.RunsOut b start n) ∧
    (1 ≤ (p.stream.run b start n).stream.nextPage ∧
      (p.stream.run b start n).stream.nextPage < sizeBound) ∧
    ∃ searches, (p.stream.run b start n).session.calls = start.calls ++
      (List.range searches).map fun k => .search
        { index := p.plan.index, query := p.plan.query, size := p.pageSize
          offset := min ((p.pageNumber - 1 + k) * p.pageSize) (sizeBound - 1)
          sort := p.plan.sort } := by
  have hnumber : p.pageNumber < sizeBound := by
    rw [pageNumber]
    cases hpage : p.requestedPage with
    | none => decide
    | some number => exact Nat.max_lt.mpr ⟨hword number hpage, by decide⟩
  refine ⟨countsInWord_iff_panic hnumber, panic_eq_none_iff hnumber, inWord_run hnumber b start n, ?_⟩
  obtain ⟨searches, hcalls⟩ := calls_run b p start n
  refine ⟨searches, hcalls.trans ?_⟩
  have hpos : 1 ≤ p.pageNumber := Nat.le_max_right _ _
  congr 2
  funext k
  rw [← plan_request, p.offset_ahead, pageOffset, Nat.sub_add_comm hpos]
  rfl

/-- The last page but one is there, and then the backend is gone : any number of calls compute within
a word, and none is broken off. -/
theorem countsInWord_gone :
    let b : Backend Nat :=
      { search := fun _ served =>
          (if served = 0 then
              .ok { hits := [{ id := "a" }], total := 1, totalIsExact := false, took := 1,
                    timedOut := false, shards := {} }
            else .error (.noNodesAvailable "gone"), served + 1)
        perform := fun _ served => (.ok (), served) }
    let p := ((Pager.ofQuery "notes" (.obj [])).withPageSize (some 1)).withPage
      (some (sizeBound - 2))
    (∀ number, p.requestedPage = some number → number < sizeBound) ∧
      ∀ n, p.CountsInWord b ⟨0, []⟩ n ∧ (p.stream.run b ⟨0, []⟩ n).panic = none := by
  intro b p
  have hword : ∀ number, p.requestedPage = some number → number < sizeBound := by
    rintro _ ⟨⟩
    decide
  refine ⟨hword, fun n => ?_⟩
  obtain ⟨hcounts, hpanic, -⟩ := countsInWord_iff b p ⟨0, []⟩ n hword
  suffices hnot : ¬ p.RunsOut b ⟨0, []⟩ n from
    ⟨hcounts.mpr (hpanic.mpr hnot), hpanic.mpr hnot⟩
  rintro ⟨before, last, hnumber, hyields, -⟩
  have hlength : before.length = 1 :=
    Nat.add_left_cancel (show sizeBound - 2 + before.length = sizeBound - 2 + 1 from hnumber)
  obtain ⟨page, rfl⟩ := List.length_eq_one_iff.mp hlength
  have hgone : p.plan.Fails (p.answerAhead b ⟨0, []⟩ 1) (.backend (.noNodesAvailable "gone")) :=
    .inl ⟨_, rfl, rfl⟩
  exact (hyields 1 last rfl).not_fails _ hgone

/-- The page whose number is the last word is there, with one hit : the first call fetches it, adds
one to the last word and is broken off, so that the hit is never given. -/
theorem not_countsInWord_lastWord :
    let reply : Reply := .body (.single "hits" (.single "hits" (.arr [.single "_id" (.str "a")])))
    let query : Json := .single "match_all" (.obj [])
    let p := ((Pager.ofQuery "u" query).withPage (some 18446744073709551615)).withPageSize (some 1)
    let start : Session Rehearsal := ⟨{ script := some [reply] }, []⟩
    let run := p.stream.run Rehearsal.backend start 1
    ¬ p.CountsInWord Rehearsal.backend start 1 ∧ run.panic = some .overflow ∧ run.items = [] ∧
      run.session.calls =
        [.search { index := "u", query := query, size := 1, offset := 18446744073709551614 }] := by
  refine ⟨fun hcounts => ?_, rfl, rfl, rfl⟩
  have hstays := hcounts 0 Nat.zero_lt_one ⟨rfl, rfl⟩
  have hlt := hstays.succ_lt
    { total := 1, accurate := false, rows := [{ id := "a" }], took := 0, timedOut := false }
    ⟨_, rfl, .cons rfl .nil, rfl, rfl, rfl, rfl⟩
  exact absurd hlt (by decide)

end Pager

end Catalogue
