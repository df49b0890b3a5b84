import Catalogue.Query.Fragment
import Mathlib.Data.List.Infix

/-!
# Escaped texts, read again

A reader for which a backslash makes the next character literal goes through a text from left to
right (`Text.unescape`). It keeps what it read, each character with a mark that says whether it was
made literal, and whether it is after a backslash that has no character yet (`Text.Unescaping`).

If it is not after such a backslash, it reads the escape of a character as that character, marked
exactly if it is reserved, and is not after such a backslash again
(`Text.Unescaping.run_escape_singleton`). This takes the backslash to be reserved, since one that is
not written twice would make the character after it literal. So an escaped text is read as the text
(`Text.unescape_escape`), and no reserved character stands in it as itself
(`Text.pending_or_backslash`). `Fragment.escape_literal` says so for regular expressions.
-/

namespace Catalogue

namespace Text

/-- What was read of a text in which a backslash makes the next character literal. -/
structure Unescaping where
  /-- The characters, each with whether a backslash made it literal. -/
  marks : List (Char × Bool) := []
  /-- Whether the last character is a backslash that is to make the next one literal. -/
  pending : Bool := false
deriving DecidableEq

namespace Unescaping

/-- What was read after one more character. -/
def next (u : Unescaping) (c : Char) : Unescaping :=
  if u.pending then ⟨u.marks ++ [(c, true)], false⟩
  else if c = '\\' then ⟨u.marks, true⟩
  else ⟨u.marks ++ [(c, false)], false⟩

/-- What was read after the characters of a text. -/
def run (u : Unescaping) (s : List Char) : Unescaping :=
  s.foldl next u

variable {u : Unescaping} {c : Char}

theorem next_of_pending (h : u.pending = true) (c : Char) :
    u.next c = ⟨u.marks ++ [(c, true)], false⟩ :=
  if_pos h

theorem next_backslash (h : u.pending = false) : u.next '\\' = ⟨u.marks, true⟩ := by
  simp [next, h]

theorem next_of_ne_backslash (h : u.pending = false) (hc : c ≠ '\\') :
    u.next c = ⟨u.marks ++ [(c, false)], false⟩ := by
  simp [next, h, hc]

theorem run_cons (u : Unescaping) (c : Char) (s : List Char) :
    u.run (c :: s) = (u.next c).run s :=
  rfl

theorem run_append (u : Unescaping) (s t : List Char) : u.run (s ++ t) = (u.run s).run t :=
  List.foldl_append

theorem marks_prefix_next (u : Unescaping) (c : Char) : u.marks <+: (u.next c).marks := by
  rw [next]
  split
  · exact List.prefix_append _ _
  · split
    · exact List.prefix_rfl
    · exact List.prefix_append _ _

/-- What was read stays read. -/
theorem marks_prefix_run (u : Unescaping) (s : List Char) : u.marks <+: (u.run s).marks := by
  induction s generalizing u with
  | nil => exact List.prefix_rfl
  | cons c s ih => exact (marks_prefix_next u c).trans (ih (u.next c))

end Unescaping

/-! ## Escaped texts -/

/-- The characters of a text, each with whether it is reserved. -/
def marked (reserved text : List Char) : List (Char × Bool) :=
  text.map fun c => (c, decide (c ∈ reserved))

namespace Unescaping

variable {u : Unescaping} {reserved : List Char} {c : Char}

/-- The escape of a character is read as the character. -/
theorem run_escape_singleton (hreserved : '\\' ∈ reserved) (h : u.pending = false) (c : Char) :
    u.run (escape reserved [c]) = ⟨u.marks ++ [(c, decide (c ∈ reserved))], false⟩ := by
  by_cases hc : c ∈ reserved
  · calc u.run (escape reserved [c]) = (u.next '\\').next c := by simp [escape, hc, run]
      _ = ⟨u.marks ++ [(c, true)], false⟩ := by rw [next_backslash h, next_of_pending rfl]
      _ = _ := by rw [decide_eq_true hc]
  · -- a backslash would be reserved
    have hne : c ≠ '\\' := fun he => hc (he ▸ hreserved)
    calc u.run (escape reserved [c]) = u.next c := by simp [escape, hc, run]
      _ = ⟨u.marks ++ [(c, false)], false⟩ := next_of_ne_backslash h hne
      _ = _ := by rw [decide_eq_false hc]

theorem run_escape (hreserved : '\\' ∈ reserved) (h : u.pending = false) (text : List Char) :
    u.run (escape reserved text) = ⟨u.marks ++ marked reserved text, false⟩ := by
  induction text generalizing u with
  | nil =>
    rw [marked, List.map_nil, List.append_nil, ← h]
    rfl
  | cons c text ih =>
    rw [← List.singleton_append, escape_append, run_append, run_escape_singleton hreserved h,
      ih rfl, List.append_assoc]
    rfl

/-- What was read before the rest of a text keeps its marks. -/
theorem decide_mem_of_run {text rest : List Char} (h : u.run rest = ⟨marked reserved text, false⟩)
    {mark : Bool} (hc : (c, mark) ∈ u.marks) : decide (c ∈ reserved) = mark := by
  have hc := (u.marks_prefix_run rest).mem hc
  rw [h] at hc
  obtain ⟨d, -, hd⟩ := List.mem_map.mp hc
  obtain ⟨rfl, hmark⟩ := Prod.mk.inj hd
  exact hmark

end Unescaping

/-- A text as it is read if a backslash makes the next character literal. -/
def unescape (s : List Char) : Unescaping :=
  Unescaping.run {} s

variable {reserved : List Char} (hreserved : '\\' ∈ reserved)

include hreserved

/-- An escaped text is read as the text, and the literal characters are the reserved ones. -/
theorem unescape_escape (text : List Char) :
    unescape (escape reserved text) = ⟨marked reserved text, false⟩ :=
  Unescaping.run_escape hreserved rfl text

theorem escape_injective : Function.Injective (escape reserved) := by
  intro s t h
  have hread : (unescape (escape reserved s)).marks.map Prod.fst =
      (unescape (escape reserved t)).marks.map Prod.fst := by rw [h]
  simpa [unescape_escape hreserved, marked, Function.comp_def] using hread

/-- Where a reserved character stands in an escaped text, a backslash makes it literal, or it is the
backslash that makes a reserved character literal. -/
theorem pending_or_backslash {text before after : List Char} {c : Char}
    (h : escape reserved text = before ++ c :: after) (hc : c ∈ reserved) :
    (unescape before).pending = true ∨
      c = '\\' ∧ ∃ d ∈ reserved, after.head? = some d := by
  have hread : ((unescape before).next c).run after = ⟨marked reserved text, false⟩ :=
    calc ((unescape before).next c).run after = unescape (before ++ c :: after) :=
          (Unescaping.run_append {} before (c :: after)).symm
      _ = ⟨marked reserved text, false⟩ := by rw [← h, unescape_escape hreserved]
  cases hpending : (unescape before).pending with
  | true => exact .inl rfl
  | false =>
    right
    rcases eq_or_ne c '\\' with rfl | hne
    · rw [Unescaping.next_backslash hpending] at hread
      refine ⟨rfl, ?_⟩
      cases after with
      | nil => cases congrArg Unescaping.pending hread
      | cons d rest =>
        rw [Unescaping.run_cons, Unescaping.next_of_pending rfl] at hread
        exact ⟨d, of_decide_eq_true (Unescaping.decide_mem_of_run hread (by simp)), rfl⟩
    · rw [Unescaping.next_of_ne_backslash hpending hne] at hread
      exact absurd hc (of_decide_eq_false (Unescaping.decide_mem_of_run hread (by simp)))

end Text

/-- An escaped text stands for itself in a regular expression. It is read to its end as the
characters of the text, of which the reserved ones, and no others, are made literal. No reserved
character stands in it for anything else, different texts have different escaped forms, and texts are
escaped one after the other. -/
theorem Fragment.escape_literal :
    Text.queryReserved = "\\.?+*|\x7b\x7d[]()\"#@&<>~".toList ∧
    (∀ text, Text.unescape (escape text) =
      ⟨text.map fun c => (c, decide (c ∈ Text.queryReserved)), false⟩) ∧
    (∀ text before c after, escape text = before ++ c :: after → c ∈ Text.queryReserved →
      (Text.unescape before).pending = true ∨
        c = '\\' ∧ ∃ d ∈ Text.queryReserved, after.head? = some d) ∧
    Function.Injective escape ∧
    ∀ s t, escape (s ++ t) = escape s ++ escape t := by
  have hbackslash : '\\' ∈ Text.queryReserved := by decide
  exact ⟨by decide, Text.unescape_escape hbackslash,
    fun _ _ _ _ => Text.pending_or_backslash hbackslash,
    Text.escape_injective hbackslash, Text.escape_append Text.queryReserved⟩

/-- The point is the last of two characters that are made literal. -/
theorem Fragment.escape_literal_point :
    let before := "\\\\\\".toList
    escape "\\.".toList = before ++ ['.'] ∧
      Text.unescape (before ++ ['.']) = ⟨[('\\', true), ('.', true)], false⟩ ∧
      (Text.unescape before).pending = true := by
  intro before
  have hwritten : escape "\\.".toList = before ++ ['.'] := by decide
  obtain ⟨-, hread, hplace, -, -⟩ := escape_literal
  refine ⟨hwritten, ?_, ?_⟩
  · rw [← hwritten, hread]
    decide
  · rcases hplace _ _ _ _ hwritten (by decide) with h | ⟨h, -⟩
    · exact h
    · cases h

end Catalogue
