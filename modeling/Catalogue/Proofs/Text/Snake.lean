import Catalogue.Text.Snake
import Mathlib

/-!
# Names in lower case with underscores, as normal forms

`Text.snake` makes the name of an index, if its schema gives it no other, of the name of the type of
its entities. Here are the laws of such names, for types whose names are ASCII characters.

The scan of a name looks at the characters around a letter and at the character written last. What it
can do is said once (`Text.Respelt`) : a character is kept in lower case, with an underscore before
it or without, and a separator becomes an underscore or is dropped. An underscore is only added after
a character that is not an underscore. For separators the scan looks at what it wrote last, but for
letters it looks at what it read last, so this takes the invariant that a word only starts behind a
letter or a digit that was written last (`Text.InStep`).

The laws are inductions on what the scan did. `Text.snake_normal` has them together.
-/

namespace Catalogue.Text

/-! ## ASCII characters -/

section Ascii

variable {c : Char}

theorem isUpper_of_ascii (hc : c.toNat < 128) : isUpper c = c.isUpper :=
  if_pos hc

theorem isLower_of_ascii (hc : c.toNat < 128) : isLower c = c.isLower :=
  if_pos hc

theorem lower_of_ascii (hc : c.toNat < 128) : lower c = [c.toLower] :=
  if_pos hc

theorem isSeparator_iff : isSeparator c = true ↔ c ∈ [':', '\\', '-', ' '] := by
  simp [isSeparator, or_assoc]

/-- A letter or a digit is neither a separator nor an underscore. -/
theorem not_separator_of_isAlphanum (h : c.isAlphanum = true) :
    isSeparator c = false ∧ c ≠ '_' := by
  refine ⟨?_, ?_⟩
  · rw [Bool.eq_false_iff]
    intro hc
    simp only [isSeparator_iff, List.mem_cons, List.not_mem_nil, or_false] at hc
    rcases hc with rfl | rfl | rfl | rfl <;> cases h
  · rintro rfl
    cases h

theorem isAlphanum_of_isUpper (h : c.isUpper = true) : c.isAlphanum = true := by
  simp [Char.isAlphanum, Char.isAlpha, h]

/-- A character is its own lower form, or both are letters. -/
theorem toLower_eq_or (c : Char) :
    c.toLower = c ∨ c.isAlphanum = true ∧ c.toLower.isAlphanum = true := by
  by_cases hc : c.isUpper = true
  · right
    have halpha : c.isAlpha = true := by simp [Char.isAlpha, hc]
    simp [Char.isAlphanum, Char.isAlpha_toLower_eq_isAlpha, halpha]
  · exact .inl (Char.toLower_eq_of_not_isUpper hc)

theorem isAlphanum_toLower (c : Char) : c.toLower.isAlphanum = c.isAlphanum := by
  rcases toLower_eq_or c with h | ⟨hc, hlower⟩
  · rw [h]
  · rw [hc, hlower]

theorem toLower_eq_underscore_iff : c.toLower = '_' ↔ c = '_' := by
  rcases toLower_eq_or c with h | ⟨hc, hlower⟩
  · rw [h]
  · exact iff_of_false (not_separator_of_isAlphanum hlower).2 (not_separator_of_isAlphanum hc).2

theorem isSeparator_toLower (c : Char) : isSeparator c.toLower = isSeparator c := by
  rcases toLower_eq_or c with h | ⟨hc, hlower⟩
  · rw [h]
  · rw [(not_separator_of_isAlphanum hlower).1, (not_separator_of_isAlphanum hc).1]

theorem toNat_lt_of_isAlphanum (h : c.isAlphanum = true) : c.toNat < 128 := by
  simp only [Char.isAlphanum, Char.isAlpha, Char.isUpper, Char.isLower, Char.isDigit,
    Bool.or_eq_true, Bool.and_eq_true, decide_eq_true_eq, UInt32.le_iff_toNat_le, ge_iff_le] at h
  change (((65 ≤ c.toNat ∧ c.toNat ≤ 90) ∨ (97 ≤ c.toNat ∧ c.toNat ≤ 122)) ∨
    (48 ≤ c.toNat ∧ c.toNat ≤ 57)) at h
  omega

theorem isUpper_toLower (hc : c.toNat < 128) : isUpper c.toLower = false := by
  have hlower : c.toLower.toNat < 128 := by
    rcases toLower_eq_or c with h | ⟨-, h⟩
    · rwa [h]
    · exact toNat_lt_of_isAlphanum h
  rw [isUpper_of_ascii hlower, Char.isUpper_toLower_eq_false]

/-- Neither an uppercase letter nor a separator. -/
def IsPlain (c : Char) : Prop :=
  isUpper c = false ∧ isSeparator c = false

theorem isPlain_underscore : IsPlain '_' :=
  ⟨by decide, by decide⟩

theorem isPlain_toLower (hc : c.toNat < 128) (hsep : isSeparator c = false) : IsPlain c.toLower :=
  ⟨isUpper_toLower hc, by rw [isSeparator_toLower, hsep]⟩

/-- A word only starts behind a letter or a digit. -/
theorem isAlphanum_of_startsWord (hc : c.toNat < 128) {next : Option Char}
    (h : startsWord (some c) next = true) : c.isAlphanum = true := by
  simp only [startsWord, Option.any_some, Bool.or_eq_true, Bool.and_eq_true, isUpper_of_ascii hc,
    isLower_of_ascii hc] at h
  simp only [Char.isAlphanum, Char.isAlpha, Bool.or_eq_true]
  tauto

/-- Letters and digits are left by a filter that leaves them all. -/
theorem filter_isAlphanum_filter {keep : Char → Bool}
    (hkeep : ∀ c : Char, c.isAlphanum = true → keep c = true) (s : List Char) :
    (s.filter keep).filter Char.isAlphanum = s.filter Char.isAlphanum := by
  rw [List.filter_filter]
  exact List.filter_congr fun c _ => Bool.and_eq_left_iff_imp.mpr (hkeep c)

end Ascii

/-! ## What the scan does -/

/-- The rest `name` of a name is written as `written`, after the character `last`. -/
inductive Respelt : Option Char → List Char → List Char → Prop
  /-- Nothing is left. -/
  | nil {last} : Respelt last [] []
  /-- A character is written in lower case. -/
  | kept {last c name written} : isSeparator c = false → Respelt (some c.toLower) name written →
      Respelt last (c :: name) (c.toLower :: written)
  /-- A letter starts a word. -/
  | parted {d c name written} : d ≠ '_' → c.isAlphanum = true →
      Respelt (some c.toLower) name written →
      Respelt (some d) (c :: name) ('_' :: c.toLower :: written)
  /-- A separator ends a word. -/
  | ended {d c name written} : d ≠ '_' → isSeparator c = true →
      Respelt (some '_') name written → Respelt (some d) (c :: name) ('_' :: written)
  /-- A separator stands where no word ends. -/
  | dropped {last c name written} : last.any (· != '_') = false → isSeparator c = true →
      Respelt last name written → Respelt last (c :: name) written

/-- If a word may start after the character read last, the character written last is not an
underscore. -/
def InStep (prev last : Option Char) : Prop :=
  ∀ next, startsWord prev next = true → ∃ d, last = some d ∧ d ≠ '_'

theorem inStep_none : InStep none none := by
  intro next h
  cases h

theorem inStep_toLower {c : Char} (hc : c.toNat < 128) : InStep (some c) (some c.toLower) := by
  intro next h
  have halphanum := isAlphanum_of_startsWord hc h
  exact ⟨_, rfl, mt toLower_eq_underscore_iff.mp (not_separator_of_isAlphanum halphanum).2⟩

theorem inStep_of_isSeparator {c : Char} (hc : c.toNat < 128) (hsep : isSeparator c = true)
    (last : Option Char) : InStep (some c) last := by
  intro next h
  have hnot := (not_separator_of_isAlphanum (isAlphanum_of_startsWord hc h)).1
  rw [hsep] at hnot
  cases hnot

/-- What is written of the rest of a name. -/
theorem respelt_snakeFrom {prev last : Option Char} {name : List Char}
    (hname : ∀ c ∈ name, c.toNat < 128) (h : InStep prev last) :
    Respelt last name (snakeFrom prev last name) := by
  induction name generalizing prev last with
  | nil => exact .nil
  | cons c name ih =>
    obtain ⟨hc, hname⟩ := List.forall_mem_cons.mp hname
    have hkept : Respelt (some c.toLower) name (snakeFrom (some c) (some c.toLower) name) :=
      ih hname (inStep_toLower hc)
    rw [snakeFrom, isUpper_of_ascii hc, lower_of_ascii hc]
    split
    case isTrue hupper =>
      -- a new word starts behind a letter or a digit, and that is what was written last
      have halphanum := isAlphanum_of_isUpper hupper
      cases hword : startsWord prev name.head? with
      | true =>
        obtain ⟨d, rfl, hd⟩ := h _ hword
        exact .parted hd halphanum hkept
      | false => exact .kept (not_separator_of_isAlphanum halphanum).1 hkept
    case isFalse hupper =>
      split
      case isTrue hsep =>
        -- no word starts behind a separator, whatever was written last
        have hstep := inStep_of_isSeparator hc hsep
        split
        case isTrue hlast =>
          obtain ⟨d, rfl, hd⟩ := (Option.any_eq_true _ _).mp hlast
          exact .ended (by simpa using hd) hsep (ih hname (hstep _))
        case isFalse hlast => exact .dropped (by simpa using hlast) hsep (ih hname (hstep _))
      case isFalse hsep =>
        have hself : c.toLower = c := Char.toLower_eq_of_not_isUpper hupper
        have hwritten : Respelt last (c :: name) _ := .kept (Bool.eq_false_iff.mpr hsep) hkept
        rwa [hself] at hwritten

/-- What is written of a name. -/
theorem respelt_snake {name : List Char} (hname : ∀ c ∈ name, c.toNat < 128) :
    Respelt none name (snake name) :=
  respelt_snakeFrom hname inStep_none

/-! ## Laws of what is written -/

namespace Respelt

variable {last : Option Char} {name written : List Char}

/-- No uppercase letter and no separator is written. -/
theorem plain (h : Respelt last name written) (hname : ∀ c ∈ name, c.toNat < 128) :
    ∀ c ∈ written, IsPlain c := by
  induction h with
  | nil => exact nofun
  | kept hsep _ ih =>
    obtain ⟨hc, hname⟩ := List.forall_mem_cons.mp hname
    exact List.forall_mem_cons.mpr ⟨isPlain_toLower hc hsep, ih hname⟩
  | parted _ halphanum _ ih =>
    obtain ⟨hc, hname⟩ := List.forall_mem_cons.mp hname
    have hlower := isPlain_toLower hc (not_separator_of_isAlphanum halphanum).1
    exact List.forall_mem_cons.mpr
      ⟨isPlain_underscore, List.forall_mem_cons.mpr ⟨hlower, ih hname⟩⟩
  | ended _ _ _ ih =>
    exact List.forall_mem_cons.mpr ⟨isPlain_underscore, ih (List.forall_mem_cons.mp hname).2⟩
  | dropped _ _ _ ih => exact ih (List.forall_mem_cons.mp hname).2

/-- Without the underscores, the characters of the name are written in order. -/
theorem filter_ne_underscore (h : Respelt last name written) :
    written.filter (· ≠ '_') =
      (name.filter fun c => c ≠ '_' ∧ isSeparator c = false).map Char.toLower := by
  induction h with
  | nil => rfl
  | @kept last c name written hsep _ ih =>
    by_cases hc : c = '_'
    · rw [List.filter_cons_of_neg (by simp [hc]), List.filter_cons_of_neg (by simp [hc]), ih]
    · have hlower : c.toLower ≠ '_' := mt toLower_eq_underscore_iff.mp hc
      rw [List.filter_cons_of_pos (by simpa using hlower),
        List.filter_cons_of_pos (by simp [hc, hsep]), ih, List.map_cons]
  | @parted d c name written _ halphanum _ ih =>
    obtain ⟨hsep, hc⟩ := not_separator_of_isAlphanum halphanum
    have hlower : c.toLower ≠ '_' := mt toLower_eq_underscore_iff.mp hc
    rw [List.filter_cons_of_neg (by simp), List.filter_cons_of_pos (by simpa using hlower),
      List.filter_cons_of_pos (by simp [hc, hsep]), ih, List.map_cons]
  | ended _ hsep _ ih =>
    rw [List.filter_cons_of_neg (by simp), List.filter_cons_of_neg (by simp [hsep]), ih]
  | dropped _ hsep _ ih => rw [List.filter_cons_of_neg (by simp [hsep]), ih]

/-- The letters and digits of the name are written in order. -/
theorem filter_isAlphanum (h : Respelt last name written) :
    written.filter Char.isAlphanum = (name.filter Char.isAlphanum).map Char.toLower := by
  have hwritten : (written.filter (· ≠ '_')).filter Char.isAlphanum =
      written.filter Char.isAlphanum :=
    filter_isAlphanum_filter (fun c hc => by simpa using (not_separator_of_isAlphanum hc).2) written
  have hname : (name.filter fun c => c ≠ '_' ∧ isSeparator c = false).filter Char.isAlphanum =
      name.filter Char.isAlphanum :=
    filter_isAlphanum_filter (fun c hc => by simpa using (not_separator_of_isAlphanum hc).symm) name
  have hlower : Char.isAlphanum ∘ Char.toLower = Char.isAlphanum := funext isAlphanum_toLower
  rw [← hwritten, h.filter_ne_underscore, List.filter_map, hlower, hname]

/-- The first character that is written is that of the name, separators left out. -/
theorem head? (h : Respelt none name written) :
    written.head? = (name.find? fun c => isSeparator c = false).map Char.toLower := by
  generalize hlast : none = last at h
  induction h with
  | nil => rfl
  | kept hsep => simp [hsep]
  | parted => cases hlast
  | ended => cases hlast
  | dropped _ hsep _ ih => simpa [hsep] using ih hlast

/-- Of a name without underscores, no two are written next to each other, the character written
before included. -/
theorem isChain (h : Respelt last name written) (hname : '_' ∉ name) :
    (last.toList ++ written).IsChain fun c d => c ≠ '_' ∨ d ≠ '_' := by
  induction h with
  | @nil last => cases last <;> simp
  | @kept last c name written _ _ ih =>
    have hc : c ≠ '_' := (List.ne_of_not_mem_cons hname).symm
    have hlower : c.toLower ≠ '_' := mt toLower_eq_underscore_iff.mp hc
    have hrest := ih (List.not_mem_of_not_mem_cons hname)
    cases last with
    | none => exact hrest
    | some d => exact hrest.cons_cons (.inr hlower)
  | @parted d c name written hd halphanum _ ih =>
    have hlower : c.toLower ≠ '_' :=
      mt toLower_eq_underscore_iff.mp (not_separator_of_isAlphanum halphanum).2
    have hrest := ih (List.not_mem_of_not_mem_cons hname)
    exact (hrest.cons_cons (.inr hlower)).cons_cons (.inl hd)
  | ended hd _ _ ih => exact (ih (List.not_mem_of_not_mem_cons hname)).cons_cons (.inl hd)
  | dropped _ _ _ ih => exact ih (List.not_mem_of_not_mem_cons hname)

end Respelt

/-- A name with no uppercase letter and no separator is written as it is. -/
theorem snakeFrom_of_plain {prev last : Option Char} {name : List Char}
    (h : ∀ c ∈ name, IsPlain c) :
    snakeFrom prev last name = name := by
  induction name generalizing prev last with
  | nil => rfl
  | cons c name ih =>
    obtain ⟨⟨hupper, hsep⟩, hname⟩ := List.forall_mem_cons.mp h
    rw [snakeFrom, if_neg (by simp [hupper]), if_neg (by simp [hsep]), ih hname]

/-- The name of an index that is made of a name of ASCII characters is a normal form. It has neither
uppercase letters nor separators and is made of itself. But for underscores, it has the characters of
the name other than separators, in lower case and in order, so that no letter and no digit is lost,
added or moved. It starts with an underscore only if the name, from its first character on that is
not a separator, does, and it has two underscores next to each other only if the name has one. -/
theorem snake_normal (name : List Char) (hname : ∀ c ∈ name, c.toNat < 128) :
    let separators := [':', '\\', '-', ' ']
    (∀ c ∈ snake name, isUpper c = false ∧ c ∉ separators) ∧
    snake (snake name) = snake name ∧
    (snake name).filter (· ≠ '_') =
      (name.filter fun c => c ≠ '_' ∧ c ∉ separators).map Char.toLower ∧
    (snake name).filter Char.isAlphanum = (name.filter Char.isAlphanum).map Char.toLower ∧
    ((snake name).head? = some '_' → name.find? (· ∉ separators) = some '_') ∧
    (['_', '_'] <:+: snake name → '_' ∈ name) := by
  intro separators
  have hsep (c : Char) : isSeparator c = false ↔ c ∉ separators := by
    rw [← Bool.not_eq_true, isSeparator_iff]
  have hwritten := respelt_snake hname
  have hplain := hwritten.plain hname
  have hletters := hwritten.filter_ne_underscore
  simp only [hsep] at hletters
  refine ⟨fun c hc => ?_, snakeFrom_of_plain hplain, hletters, hwritten.filter_isAlphanum,
    fun hhead => ?_, fun hdouble => ?_⟩
  · exact ⟨(hplain c hc).1, (hsep c).mp (hplain c hc).2⟩
  · have hfirst := hwritten.head?
    simp only [hhead, hsep] at hfirst
    obtain ⟨c, hc, hlower⟩ := Option.map_eq_some_iff.mp hfirst.symm
    rw [hc, toLower_eq_underscore_iff.mp hlower]
  · by_contra hnone
    obtain ⟨before, after, hdouble⟩ := hdouble
    have hchain := hwritten.isChain hnone
    rw [Option.toList_none, List.nil_append, ← hdouble] at hchain
    simpa using hchain.left_of_append.right_of_append

/-- Two separators in a row, a word in capitals, and a digit. -/
theorem snake_normal_acronym :
    let name := "App::HTTP-Log2Line".toList
    (∀ c ∈ name, c.toNat < 128) ∧ snake name = "app_http_log2_line".toList ∧
      snake (snake name) = snake name ∧
      (snake name).filter Char.isAlphanum = "apphttplog2line".toList ∧
      ¬ ['_', '_'] <:+: snake name := by
  intro name
  have hname : ∀ c ∈ name, c.toNat < 128 := by
    have hall : name.all (·.toNat < 128) = true := by decide
    simpa using hall
  obtain ⟨-, hagain, -, hletters, -, hdouble⟩ := snake_normal name hname
  refine ⟨hname, by decide +kernel, hagain, ?_, fun h => ?_⟩
  · rw [hletters]
    decide
  · exact absurd (hdouble h) (by decide)

end Catalogue.Text
