import Catalogue.Proofs.Time.Percent

/-!
# Letter patterns

A letter pattern falls into segments : quotes, quoted texts, runs of a letter and other characters
(`LetterPattern.segments`). Each segment has a meaning as a layout, in which only a run of a letter
with a meaning of its own is a directive (`LetterPattern.Segment.layout`), and the pattern in
percent notation is what these layouts are in percent notation (`LetterPattern.percent_meaning`).

The pattern may also be read by position, one round per segment (`LetterPattern.Scanner`). What was
written and what is to be written of the rest stay the same together from round to round, so the
scanner never reads past the end and stops with the pattern in percent notation
(`LetterPattern.Scanner.scan?_eq`).

`LetterPattern.percent_wellFormed` : whatever the pattern, its percent notation is cut into tokens
in exactly one way and is read as what the pattern means, so every instant can be written by it.
-/

namespace Catalogue

namespace LetterPattern

/-! ## Segments -/

/-- A segment of a pattern. -/
inductive Segment where
  /-- Two single quotes, which stand for one. -/
  | quote
  /-- The text between two single quotes, or after one that is not closed. -/
  | quoted (text : List Char)
  /-- A letter, as often as it stands in a row. -/
  | run (letter : Char) (length : Nat)
  /-- Any other character. -/
  | mark (c : Char)

/-- The segments of a pattern. -/
def segments : List Char → List Segment
  | [] => []
  | '\'' :: '\'' :: s => .quote :: segments s
  | '\'' :: s => .quoted (quoted s) :: segments (s.drop ((quoted s).length + 1))
  | c :: s =>
    if c.isAlpha then
      .run c ((s.takeWhile (· == c)).length + 1) ::
        segments (s.drop (s.takeWhile (· == c)).length)
    else .mark c :: segments s
termination_by s => s.length
decreasing_by all_goals simp only [List.length_cons, List.length_drop]; omega

/-- The part of a date that a run of a letter stands for. -/
def part? (letter : Char) (run : Nat) : Option Directive :=
  match letter with
  | 'y' | 'u' => some (if run = 2 then .yearOfCentury else .year)
  | 'M' => some (if run ≤ 2 then .month else if run = 3 then .monthShort else .monthName)
  | 'd' => some .day
  | 'H' => some .hour24
  | 'h' => some .hour12
  | 'm' => some .minute
  | 's' => some .second
  | 'S' => some (.fraction (if run ≤ 3 then 1 else if run ≤ 6 then 2 else 3))
  | 'a' => some .halfOfDay
  | 'E' => some (if run ≤ 3 then .weekdayShort else .weekdayName)
  | 'Z' => some (if run = 1 then .offset else .offsetColon)
  | 'X' => some (if run ≤ 2 then .offset else .offsetColon)
  | _ => none

/-- What a segment stands for. -/
def Segment.layout : Segment → Layout
  | .quote => [.literal '\'']
  | .quoted text => text.map .literal
  | .run letter length =>
    ((part? letter length).map fun d => [.directive d]).getD
      (List.replicate length (.literal letter))
  | .mark c => [.literal c]

/-- What a pattern stands for. -/
def meaning (pattern : List Char) : Layout :=
  (segments pattern).flatMap Segment.layout

theorem directive?_eq_map (letter : Char) (run : Nat) :
    directive? letter run = (part? letter run).map Directive.percent := by
  unfold directive? part?
  split
  all_goals simp only [Option.map_some, Option.map_none, Option.some.injEq]
  all_goals repeat' split
  all_goals rfl

theorem wellFormed_of_part? {letter : Char} {run : Nat} {d : Directive}
    (h : part? letter run = some d) : d.WellFormed := by
  rintro groups rfl
  unfold part? at h
  split at h
  all_goals
    repeat' split at h
  all_goals
    simp only [Option.some.injEq, Directive.fraction.injEq, reduceCtorEq] at h
  all_goals omega

theorem percent_map_literal (text : List Char) :
    Layout.percent (text.map .literal) = text.flatMap literal := by
  rw [Layout.percent, List.flatMap_map]
  rfl

/-- A run in percent notation. -/
theorem percent_layout_run (letter : Char) (run : Nat) :
    Layout.percent (Segment.layout (.run letter run)) =
      (directive? letter run).getD ((List.replicate run letter).flatMap literal) := by
  rw [Segment.layout, directive?_eq_map]
  cases part? letter run with
  | none =>
    rw [Option.map_none, Option.map_none, Option.getD_none, Option.getD_none,
      ← percent_map_literal, List.map_replicate]
  | some d => exact List.append_nil _

theorem wellFormed_layout (segment : Segment) : ∀ item ∈ segment.layout, item.WellFormed := by
  intro item hitem
  cases segment with
  | quote =>
    rw [List.mem_singleton.mp hitem]
    exact .literal '\''
  | quoted text => exact LayoutItem.wellFormed_of_mem_map_literal hitem
  | mark c =>
    rw [List.mem_singleton.mp hitem]
    exact .literal c
  | run letter length =>
    rw [Segment.layout] at hitem
    cases hpart : part? letter length with
    | none =>
      rw [hpart, Option.map_none, Option.getD_none, ← List.map_replicate] at hitem
      exact LayoutItem.wellFormed_of_mem_map_literal hitem
    | some d =>
      rw [hpart] at hitem
      rw [List.mem_singleton.mp hitem]
      exact .directive (wellFormed_of_part? hpart)

/-- A single quote before anything but another one opens a quoted text. -/
theorem percent_quoted {s : List Char} (h : s.head? ≠ some '\'') :
    percent ('\'' :: s) =
      (quoted s).flatMap literal ++ percent (s.drop ((quoted s).length + 1)) := by
  rw [percent]
  rintro t rfl
  exact h rfl

/-- What a pattern means, in percent notation, is the pattern in percent notation. -/
theorem percent_meaning (pattern : List Char) : (meaning pattern).percent = percent pattern := by
  fun_induction percent pattern with
  | case1 => rw [meaning, segments]; rfl
  | case2 s ih =>
    rw [meaning, segments, List.flatMap_cons, Layout.percent_append, ← meaning, ih]
    rfl
  | case3 s hs ih =>
    rw [meaning, segments, List.flatMap_cons, Layout.percent_append, ← meaning, ih]
    · rw [Segment.layout, percent_map_literal]
    · exact hs
  | case4 c s hquotes hquote halpha run ih =>
    rw [meaning, segments, if_pos halpha, List.flatMap_cons, Layout.percent_append, ← meaning, ih,
      percent_layout_run]
    · exact hquotes
    · exact hquote
  | case5 c s hquotes hquote halpha ih =>
    rw [meaning, segments, if_neg halpha, List.flatMap_cons, Layout.percent_append, ← meaning, ih]
    · exact congrArg (· ++ percent s) (List.append_nil _)
    · exact hquotes
    · exact hquote

theorem ofPercent?_percent (pattern : List Char) :
    Layout.ofPercent? (percent pattern) = some (meaning pattern) := by
  refine Layout.ofPercent?_eq_some_iff.mpr ⟨(percent_meaning pattern).symm, fun item hitem => ?_⟩
  obtain ⟨segment, -, hmem⟩ := List.mem_flatMap.mp hitem
  exact wellFormed_layout segment item hmem

/-! ## Patterns read by position -/

/-- Where a pattern is being read, and what was written so far. -/
structure Scanner where
  /-- The place of the next character. -/
  position : Nat
  /-- The text in percent notation. -/
  written : List Char

namespace Scanner

/-- The pattern from the position on. -/
def rest (pattern : List Char) (s : Scanner) : List Char :=
  pattern.drop s.position

/-- Copies a quoted text, up to the next single quote or the end of the pattern. Like every step
here it fails where a place past the end is read. -/
def copyQuoted? (pattern : List Char) (s : Scanner) : Option Scanner :=
  if s.position < pattern.length then
    match pattern[s.position]? with
    | none => none
    | some c =>
      if c = '\'' then some s
      else copyQuoted? pattern ⟨s.position + 1, s.written ++ literal c⟩
  else some s
termination_by pattern.length - s.position

/-- Reads one segment. -/
def round? (pattern : List Char) (s : Scanner) : Option Scanner := do
  let c ← pattern[s.position]?
  if c = '\'' then
    if pattern[s.position + 1]? = some '\'' then
      some ⟨s.position + 2, s.written ++ ['\'']⟩
    else
      let closing ← copyQuoted? pattern ⟨s.position + 1, s.written⟩
      some ⟨closing.position + 1, closing.written⟩
  else if c.isAlpha then
    let run := ((s.rest pattern).takeWhile (· == c)).length
    some ⟨s.position + run,
      s.written ++ (directive? c run).getD ((List.replicate run c).flatMap literal)⟩
  else some ⟨s.position + 1, s.written ++ literal c⟩

theorem rest_eq_cons {pattern : List Char} {s : Scanner} {c : Char}
    (h : pattern[s.position]? = some c) :
    s.rest pattern = c :: pattern.drop (s.position + 1) := by
  obtain ⟨hlt, rfl⟩ := List.getElem?_eq_some_iff.mp h
  exact List.drop_eq_getElem_cons hlt

theorem rest_eq_nil {pattern : List Char} {s : Scanner} (h : ¬ s.position < pattern.length) :
    s.rest pattern = [] :=
  List.drop_eq_nil_of_le (Nat.le_of_not_lt h)

theorem copyQuoted?_eq (pattern : List Char) (s : Scanner) :
    copyQuoted? pattern s = some
      ⟨s.position + (quoted (s.rest pattern)).length,
        s.written ++ (quoted (s.rest pattern)).flatMap literal⟩ := by
  fun_induction copyQuoted? pattern s with
  | case1 s hlt hnone => exact absurd hlt (Nat.not_lt.mpr (List.getElem?_eq_none_iff.mp hnone))
  | case2 s hlt hquote =>
    rw [rest_eq_cons hquote]
    simp [quoted]
  | case3 s hlt c hc hquote ih =>
    have hquoted : quoted (s.rest pattern) = c :: quoted (pattern.drop (s.position + 1)) := by
      rw [rest_eq_cons hc, quoted, List.takeWhile_cons_of_pos (by simpa using hquote), quoted]
    rw [ih, hquoted, List.flatMap_cons, List.length_cons, rest]
    simp [Nat.add_assoc, Nat.add_comm 1]
  | case4 s hlt => simp [rest_eq_nil hlt, quoted]

/-- A round ends, further on, and what was written and what is to be written of the rest are
together what they were. -/
theorem exists_round?_eq {pattern : List Char} {s : Scanner} (h : s.position < pattern.length) :
    ∃ next, round? pattern s = some next ∧ s.position < next.position ∧
      next.written ++ percent (next.rest pattern) = s.written ++ percent (s.rest pattern) := by
  obtain ⟨c, hc⟩ : ∃ c, pattern[s.position]? = some c := ⟨_, List.getElem?_eq_getElem h⟩
  have hrest := rest_eq_cons hc
  by_cases hquote : c = '\''
  · subst hquote
    by_cases hnext : pattern[s.position + 1]? = some '\''
    · have htail : pattern.drop (s.position + 1) = '\'' :: pattern.drop (s.position + 2) :=
        rest_eq_cons (s := ⟨s.position + 1, s.written⟩) hnext
      refine ⟨⟨s.position + 2, s.written ++ ['\'']⟩, by simp [round?, hc, hnext], by simp, ?_⟩
      rw [hrest, htail, percent, rest]
      simp
    · have hopen : (pattern.drop (s.position + 1)).head? ≠ some '\'' := by rwa [List.head?_drop]
      obtain ⟨text, htext⟩ : ∃ text, text = quoted (pattern.drop (s.position + 1)) := ⟨_, rfl⟩
      refine ⟨⟨s.position + 1 + text.length + 1, s.written ++ text.flatMap literal⟩,
        by simp [round?, hc, hnext, copyQuoted?_eq, rest, htext], by simp only; omega, ?_⟩
      rw [hrest, percent_quoted hopen, ← htext]
      simp [rest, Nat.add_assoc]
  · by_cases halpha : c.isAlpha
    · obtain ⟨more, hmore⟩ :
          ∃ n, n = ((pattern.drop (s.position + 1)).takeWhile (· == c)).length := ⟨_, rfl⟩
      have hrun : ((s.rest pattern).takeWhile (· == c)).length = more + 1 := by
        rw [hrest, List.takeWhile_cons, if_pos (beq_self_eq_true c), List.length_cons, hmore]
      refine ⟨⟨s.position + (more + 1), s.written ++
          (directive? c (more + 1)).getD ((List.replicate (more + 1) c).flatMap literal)⟩,
        by simp [round?, hc, hquote, halpha, hrun], by simp only; omega, ?_⟩
      rw [hrest, percent, if_pos halpha, ← hmore]
      · simp [rest, Nat.add_comm more, Nat.add_assoc]
      · exact fun t ht _ => hquote ht
      · exact hquote
    · refine ⟨⟨s.position + 1, s.written ++ literal c⟩, by simp [round?, hc, hquote, halpha],
        by simp, ?_⟩
      rw [hrest, percent, if_neg halpha]
      · simp [rest]
      · exact fun t ht _ => hquote ht
      · exact hquote

theorem lt_position_of_round? {pattern : List Char} {s next : Scanner}
    (h : round? pattern s = some next) : s.position < next.position := by
  have hlt : s.position < pattern.length := by
    rw [round?, Option.bind_eq_bind, Option.bind_eq_some_iff] at h
    obtain ⟨c, hc, -⟩ := h
    exact (List.getElem?_eq_some_iff.mp hc).1
  obtain ⟨next', hnext, hposition, -⟩ := exists_round?_eq hlt
  exact Option.some.inj (h.symm.trans hnext) ▸ hposition

/-- Reads round by round up to the end. -/
def scan? (pattern : List Char) (s : Scanner) : Option (List Char) :=
  if s.position < pattern.length then
    match h : round? pattern s with
    | none => none
    | some next =>
      have : s.position < next.position := lt_position_of_round? h
      scan? pattern next
  else some s.written
termination_by pattern.length - s.position

/-- Reading by position ends, never past the end of the pattern, with what was written before and
the rest of the pattern in percent notation. -/
theorem scan?_eq (pattern : List Char) (s : Scanner) :
    scan? pattern s = some (s.written ++ percent (s.rest pattern)) := by
  fun_induction scan? pattern s with
  | case1 s hlt hnone =>
    obtain ⟨next, hnext, -⟩ := exists_round?_eq hlt
    simp [hnone] at hnext
  | case2 s hlt next hnext _ ih =>
    obtain ⟨next', hnext', -, hwritten⟩ := exists_round?_eq hlt
    obtain rfl := Option.some.inj (hnext.symm.trans hnext')
    rw [ih, hwritten]
  | case3 s hlt => rw [rest_eq_nil hlt, percent, List.append_nil]

end Scanner

/-! ## All patterns -/

/-- Whatever the pattern, reading it by position comes to the end of it, and what was written then
is cut into tokens in exactly one way, which is by the items of its meaning. It is read as that
meaning, and every instant is written by it. -/
theorem percent_wellFormed (pattern : List Char) :
    Scanner.scan? pattern ⟨0, []⟩ = some (percent pattern) ∧
      (∃! tokens : List (List Char),
        (∀ token ∈ tokens, Layout.IsToken token) ∧ tokens.flatten = percent pattern) ∧
      ((meaning pattern).map LayoutItem.percent).flatten = percent pattern ∧
      Layout.ofPercent? (percent pattern) = some (meaning pattern) ∧
      ∀ t : Instant, (DateFormat.percent (percent pattern)).write t =
        .str (String.ofList ((meaning pattern).render t)) := by
  have hread := ofPercent?_percent pattern
  have hsplit {tokens : List (List Char)} :
      (∀ token ∈ tokens, Layout.IsToken token) ∧ tokens.flatten = percent pattern ↔
        tokens = (meaning pattern).map LayoutItem.percent :=
    Layout.flatten_eq_iff hread
  refine ⟨Scanner.scan?_eq pattern ⟨0, []⟩, ⟨_, hsplit.mpr rfl, fun _ => hsplit.mp⟩,
    (hsplit.mpr rfl).2, hread, fun t => ?_⟩
  rw [DateFormat.write, hread, Option.getD_some]

end LetterPattern

namespace DateFormat

/-- Every alternative of a format can write, those with a name of their own too. -/
theorem exists_layout_of_ofName {name : String} {text : List Char}
    (h : ofName name = .percent text) : ∃ layout, Layout.ofPercent? text = some layout := by
  unfold ofName at h
  split at h
  case h_12 =>
    obtain rfl := DateFormat.percent.inj h
    exact ⟨_, LetterPattern.ofPercent?_percent _⟩
  all_goals simp only [reduceCtorEq, DateFormat.percent.injEq] at h
  all_goals
    subst h
    exact Option.isSome_iff_exists.mp (by decide +kernel)

end DateFormat

end Catalogue
