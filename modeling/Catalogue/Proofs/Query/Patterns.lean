import Catalogue.Proofs.Query.Meaning
import Mathlib.Data.List.Infix

/-!
# What patterns match

A pattern is a list of pieces : any text, any character, or one certain character. `Glob.Matches`
says which texts it matches, and `Glob.test` decides it. Pieces are written in two ways, with `%`
and `_` in what a person asks for (`Glob.ofLike`), and with `*`, `?` and an escape in what the
backend is asked for (`Glob.ofWildcard`). Translating the first into the second keeps the pieces
(`Glob.ofWildcard_wildcardOfLike`), and a pattern that only fixes a start has the pieces of that
start, followed by any text (`Glob.ofLike_of_likePrefix?`).

`Predicate.holds_like` : the fragment of a test by patterns is true of the texts that some pattern
matches, whichever of the two fragments stands for a pattern.
-/

namespace Catalogue

/-! ## How patterns are translated -/

namespace Fragment

theorem wildcardOfLike_cons {c : Char} (hp : c ≠ '%') (hu : c ≠ '_') (rest : List Char) :
    wildcardOfLike (c :: rest) =
      if c = '\\' ∨ c = '*' ∨ c = '?' then '\\' :: c :: wildcardOfLike rest
      else c :: wildcardOfLike rest := by
  conv_lhs => unfold wildcardOfLike
  split <;> simp_all

/-- The patterns that fix a start and nothing else. -/
theorem likePrefix?_eq_some_iff (pattern start : List Char) :
    likePrefix? pattern = some start ↔
      pattern = start ++ ['%'] ∧ start ≠ [] ∧ ∀ c ∈ start, isLikeWildcard c = false := by
  constructor
  · intro h
    rw [likePrefix?] at h
    split at h
    case isTrue hfixed =>
      obtain ⟨hlast, hne, hplain⟩ := hfixed
      obtain rfl := Option.some.inj h
      exact ⟨(List.dropLast_append_getLast? '%' hlast).symm, hne, by simpa using hplain⟩
    case isFalse => exact absurd h nofun
  · rintro ⟨rfl, hne, hplain⟩
    simpa [likePrefix?, hne] using hplain

end Fragment

/-! ## Pieces and texts -/

namespace Glob

/-- A piece of a pattern. -/
inductive Piece where
  /-- Any text, even the empty one. -/
  | anyText
  /-- Any character. -/
  | anyChar
  /-- This character. -/
  | exactly (c : Char)

/-- The text consists of parts for the pieces, in their order. -/
inductive Matches : List Piece → List Char → Prop
  | nil : Matches [] []
  | anyText {pieces text} (part : List Char) (h : Matches pieces text) :
    Matches (.anyText :: pieces) (part ++ text)
  | anyChar {pieces text} (c : Char) (h : Matches pieces text) :
    Matches (.anyChar :: pieces) (c :: text)
  | exactly {pieces text} (c : Char) (h : Matches pieces text) :
    Matches (.exactly c :: pieces) (c :: text)

/-- Whether the pieces match the text. -/
def test : List Piece → List Char → Bool
  | [], text => text.isEmpty
  | .anyText :: pieces, text => text.tails.any fun rest => test pieces rest
  | .anyChar :: pieces, text =>
    match text with
    | [] => false
    | _ :: rest => test pieces rest
  | .exactly c :: pieces, text =>
    match text with
    | [] => false
    | d :: rest => c == d && test pieces rest

theorem test_iff (pieces : List Piece) (text : List Char) :
    test pieces text = true ↔ Matches pieces text := by
  induction pieces generalizing text with
  | nil =>
    rw [test, List.isEmpty_iff]
    constructor
    · rintro rfl
      exact .nil
    · rintro ⟨⟩
      rfl
  | cons piece pieces ih =>
    cases piece with
    | anyText =>
      simp only [test, List.any_eq_true, List.mem_tails, ih]
      constructor
      · rintro ⟨rest, ⟨part, rfl⟩, h⟩
        exact .anyText part h
      · rintro ⟨⟩
        case anyText rest part h => exact ⟨rest, List.suffix_append part rest, h⟩
    | anyChar =>
      cases text with
      | nil => exact iff_of_false nofun nofun
      | cons c rest =>
        rw [test, ih]
        constructor
        · exact .anyChar c
        · rintro ⟨⟩
          assumption
    | exactly c =>
      cases text with
      | nil => exact iff_of_false nofun nofun
      | cons d rest =>
        simp only [test, Bool.and_eq_true, beq_iff_eq, ih]
        constructor
        · rintro ⟨rfl, h⟩
          exact .exactly c h
        · rintro ⟨⟩
          exact ⟨rfl, by assumption⟩

instance (pieces : List Piece) (text : List Char) : Decidable (Matches pieces text) :=
  decidable_of_iff _ (test_iff pieces text)

/-- A start, followed by any text. -/
theorem matches_exactly_anyText (start text : List Char) :
    Matches (start.map .exactly ++ [.anyText]) text ↔ start <+: text := by
  induction start generalizing text with
  | nil =>
    refine iff_of_true ?_ List.nil_prefix
    simpa using Matches.anyText text .nil
  | cons c start ih =>
    rw [List.map_cons, List.cons_append]
    constructor
    · rintro ⟨⟩
      case exactly rest h => exact List.cons_prefix_cons.mpr ⟨rfl, (ih rest).mp h⟩
    · rintro ⟨rest, rfl⟩
      exact .exactly c ((ih _).mpr (List.prefix_append start rest))

/-! ## Two ways to write pieces -/

/-- The piece that a character of a pattern with `%` and `_` stands for. -/
def Piece.ofLike (c : Char) : Piece :=
  if c = '%' then .anyText else if c = '_' then .anyChar else .exactly c

/-- The pieces of a pattern in which `%` is any text and `_` any character, and all else, the
backslash too, is itself. -/
def ofLike (pattern : List Char) : List Piece :=
  pattern.map Piece.ofLike

/-- The pieces of a pattern in which `*` is any text and `?` any character, and a backslash makes
the next character literal. -/
def ofWildcard : List Char → List Piece
  | [] => []
  | '*' :: rest => .anyText :: ofWildcard rest
  | '?' :: rest => .anyChar :: ofWildcard rest
  | '\\' :: c :: rest => .exactly c :: ofWildcard rest
  | c :: rest => .exactly c :: ofWildcard rest

theorem ofWildcard_cons {c : Char} (hs : c ≠ '*') (hq : c ≠ '?') (hb : c ≠ '\\')
    (rest : List Char) : ofWildcard (c :: rest) = .exactly c :: ofWildcard rest := by
  conv_lhs => unfold ofWildcard
  split <;> simp_all

/-- A pattern has the same pieces after its translation. -/
theorem ofWildcard_wildcardOfLike (pattern : List Char) :
    ofWildcard (Fragment.wildcardOfLike pattern) = ofLike pattern := by
  induction pattern with
  | nil => rfl
  | cons c rest ih =>
    rw [ofLike, List.map_cons, ← ofLike, ← ih, Piece.ofLike]
    -- The three kinds of characters : two with a meaning, those that need an escape, and the rest.
    by_cases hp : c = '%'
    · subst hp
      rfl
    by_cases hu : c = '_'
    · subst hu
      rfl
    rw [if_neg hp, if_neg hu, Fragment.wildcardOfLike_cons hp hu]
    split
    case isTrue hescape => rcases hescape with rfl | rfl | rfl <;> rfl
    case isFalse hplain =>
      obtain ⟨hb, hs, hq⟩ := not_or.mp hplain |>.imp_right not_or.mp
      exact ofWildcard_cons hs hq hb _

example : ofLike "*?P_r%".toList = ofWildcard "\\*\\?P?r*".toList := by rfl

/-- A pattern that only fixes a start has the pieces of that start, followed by any text. -/
theorem ofLike_of_likePrefix? {pattern start : List Char}
    (h : Fragment.likePrefix? pattern = some start) :
    ofLike pattern = start.map .exactly ++ [.anyText] := by
  obtain ⟨rfl, -, hplain⟩ := (Fragment.likePrefix?_eq_some_iff pattern start).mp h
  have hstart : ofLike start = start.map .exactly := by
    refine List.map_congr_left fun c hc => ?_
    have hc := hplain c hc
    simp only [Fragment.isLikeWildcard, Bool.or_eq_false_iff, beq_eq_false_iff_ne] at hc
    rw [Piece.ofLike, if_neg hc.1, if_neg hc.2]
  rw [← hstart, ofLike, List.map_append]
  rfl

end Glob

/-! ## Tests of a text -/

namespace Valuation

section Text

variable (field text : String)

/-- Whether a test of the field by a start or by a pattern is true of the text. -/
def textAtom : Json → Bool
  | .obj [("prefix", .obj [(name, .str start)])] =>
    name = field ∧ start.toList <+: text.toList
  | .obj [("wildcard", .obj [(name, .str pattern)])] =>
    name = field ∧ Glob.Matches (Glob.ofWildcard pattern.toList) text.toList
  | _ => false

/-- The truth values of fragments for a document that has the text in the field. -/
def ofText : Valuation :=
  ofAtoms (textAtom field text)

theorem holds_startsWith (start : List Char) :
    (ofText field text).holds (Fragment.startsWith field start) = true ↔
      start <+: text.toList := by
  simp [ofText, ofAtoms, Fragment.startsWith, Json.single, truth, textAtom]

theorem holds_wildcard (pattern : List Char) :
    (ofText field text).holds (Fragment.wildcard field pattern) = true ↔
      Glob.Matches (Glob.ofWildcard pattern) text.toList := by
  simp [ofText, ofAtoms, Fragment.wildcard, Json.single, truth, textAtom]

/-- The test for a start is true of the texts that the pattern matches. -/
theorem holds_startsWith_of_likePrefix? {pattern start : List Char}
    (h : Fragment.likePrefix? pattern = some start) :
    (ofText field text).holds (Fragment.startsWith field start) = true ↔
      Glob.Matches (Glob.ofLike pattern) text.toList := by
  rw [holds_startsWith, Glob.ofLike_of_likePrefix? h, Glob.matches_exactly_anyText]

theorem holds_wildcardOfLike (pattern : List Char) :
    (ofText field text).holds (Fragment.wildcard field (Fragment.wildcardOfLike pattern)) = true ↔
      Glob.Matches (Glob.ofLike pattern) text.toList := by
  rw [holds_wildcard, Glob.ofWildcard_wildcardOfLike]

/-- The fragment of a pattern is true of the texts that the pattern matches, whichever of the two
tests it is. -/
theorem holds_fragmentLike (pattern : List Char) :
    (ofText field text).holds (Fragment.like field pattern) = true ↔
      Glob.Matches (Glob.ofLike pattern) text.toList := by
  rw [Fragment.like]
  split
  case h_1 start h => exact holds_startsWith_of_likePrefix? field text h
  case h_2 => exact holds_wildcardOfLike field text pattern

example : (ofText "name" "Jo%n").holds (Fragment.like "name" "_%\\%".toList) = false ∧
    (ofText "name" "Jo\\n").holds (Fragment.like "name" "_%\\%".toList) = true := by decide

end Text

end Valuation

theorem Operator.patternTexts_str (field : String) (operator : Operator) (texts : List String) :
    patternTexts field operator (texts.map .str) = .ok texts := by
  induction texts with
  | nil => rfl
  | cons s rest ih =>
    rw [List.map_cons, patternTexts, ih]
    rfl

/-- A test by patterns compiles to a fragment that is true of the texts which the pattern matches,
or some pattern of a list. For a pattern that only fixes a start, the test for the start and the
test by the translated pattern have the same truth value. -/
theorem Predicate.holds_like (field text : String) :
    let E := Valuation.ofText field text
    (∀ pattern : String, ∃ fragment,
      (Predicate.like field (.str pattern)).compile = .ok fragment ∧
        (E.holds fragment = true ↔
          Glob.Matches (Glob.ofLike pattern.toList) text.toList)) ∧
    (∀ patterns : List String, ∃ fragment,
      (Predicate.like field (.arr (patterns.map .str))).compile = .ok fragment ∧
        (E.holds fragment = true ↔
          ∃ pattern ∈ patterns, Glob.Matches (Glob.ofLike pattern.toList) text.toList)) ∧
    ∀ pattern start, Fragment.likePrefix? pattern = some start →
      E.holds (Fragment.startsWith field start) =
        E.holds (Fragment.wildcard field (Fragment.wildcardOfLike pattern)) := by
  intro E
  refine ⟨fun pattern => ?_, fun patterns => ?_, fun pattern start h => ?_⟩
  · exact ⟨_, rfl, Valuation.holds_fragmentLike field text pattern.toList⟩
  · refine ⟨Fragment.any (patterns.map fun pattern => Fragment.like field pattern.toList), ?_, ?_⟩
    · rw [like, compile, Operator.comparison, Operator.matching, Operator.patterns,
        Operator.patternTexts_str]
      rfl
    · simp only [E.holds_any, List.any_map, List.any_eq_true, Function.comp_apply,
        E, Valuation.holds_fragmentLike]
  · rw [Bool.eq_iff_iff, Valuation.holds_startsWith_of_likePrefix? field text h,
      Valuation.holds_wildcardOfLike]

end Catalogue
