import Catalogue.Proofs.Decimal.PlainText
import Catalogue.Time.Rfc3339

/-!
# Numbers read back

Dates are written in numerals of a fixed width, and read by taking as many digits as there are, up
to a limit. What was written is what is read, if the numeral is as wide as the limit or if no digit
follows.

`Scan.number?_append` : a reader of numbers reads a numeral and leaves what follows.
`Scan.fraction?_padded` : the digits after a point give the nanoseconds back.
`Text.readSigned?_integer` : an integer of 64 signed bits reads back from its decimal text.
-/

namespace Catalogue

/-- A step of a reader that gives a result hands it to the next step. -/
theorem Option.bind_of_some {α β : Type} {x : Option α} {a : α} {f : α → Option β}
    (h : x = some a) : (x >>= f) = f a := by
  rw [h]
  rfl

namespace Text

/-! ## Digits -/

theorem isDigit_digit {d : Nat} (h : d < 10) : (digit d).isDigit := by
  have all : ∀ e ∈ List.range 10, (digit e).isDigit := by decide
  exact all d (List.mem_range.mpr h)

theorem isDigit_of_mem_padded {width n : Nat} {c : Char} (h : c ∈ padded width n) : c.isDigit := by
  induction width generalizing n with
  | zero => simp [padded] at h
  | succ width ih =>
    rcases List.mem_append.mp h with h | h
    · exact ih h
    · rw [List.mem_singleton.mp h]
      exact isDigit_digit (Nat.mod_lt _ (by omega))

theorem isDigit_of_mem_digits {n : Nat} {c : Char} (h : c ∈ digits n) : c.isDigit := by
  obtain ⟨d, hd, rfl⟩ := exists_digit_of_mem_digits h
  exact isDigit_digit hd

theorem isDigit_of_mem_atLeast {width n : Nat} {c : Char} (h : c ∈ atLeast width n) :
    c.isDigit := by
  rw [atLeast] at h
  split at h
  · exact isDigit_of_mem_padded h
  · exact isDigit_of_mem_digits h

theorem readDigits_atLeast (width n : Nat) : readDigits 0 (atLeast width n) = some n := by
  rw [atLeast]
  split
  case isTrue h => exact readDigits_padded width n h
  case isFalse => exact readDigits_digits n

/-- A digit comes first. -/
def StartsWithDigit (s : List Char) : Prop :=
  ∃ c ∈ s.head?, c.isDigit

theorem not_startsWithDigit_nil : ¬ StartsWithDigit [] := by
  simp [StartsWithDigit]

theorem startsWithDigit_cons (c : Char) (s : List Char) :
    StartsWithDigit (c :: s) ↔ c.isDigit := by
  simp [StartsWithDigit]

theorem takeWhile_isDigit_append {s t : List Char} (hs : ∀ c ∈ s, c.isDigit)
    (ht : ¬ StartsWithDigit t) : (s ++ t).takeWhile Char.isDigit = s := by
  rw [List.takeWhile_append_of_pos hs]
  cases t with
  | nil => simp
  | cons c t =>
    rw [startsWithDigit_cons] at ht
    rw [List.takeWhile_cons_of_neg ht, List.append_nil]

/-- The first digits of a wide numeral are a numeral. -/
theorem take_padded (width more n : Nat) :
    (padded (width + more) n).take width = padded width (n / Nat.pow 10 more) := by
  induction more generalizing n with
  | zero =>
    rw [Nat.add_zero, List.take_of_length_le (Nat.le_of_eq (length_padded _ _)),
      show Nat.pow 10 0 = 1 from rfl, Nat.div_one]
  | succ more ih =>
    have hpow : Nat.pow 10 (more + 1) = 10 * Nat.pow 10 more := by
      rw [Nat.mul_comm]
      rfl
    rw [← Nat.add_assoc, padded, List.take_append_of_le_length (by rw [length_padded]; omega), ih,
      hpow, Nat.div_div_eq_div_mul]

end Text

namespace Scan

open Text

/-! ## Readers -/

theorem char?_cons (c : Char) (s : List Char) : char? c (c :: s) = some s :=
  if_pos rfl

theorem number?_append {least most n : Nat} {digits rest : List Char}
    (hdigits : ∀ c ∈ digits, c.isDigit) (hread : readDigits 0 digits = some n)
    (hleast : least ≤ digits.length) (hmost : digits.length ≤ most)
    (hend : digits.length = most ∨ ¬ StartsWithDigit rest) :
    number? least most (digits ++ rest) = some (n, rest) := by
  have htake : ((digits ++ rest).take most).takeWhile Char.isDigit = digits := by
    rcases hend with hfull | hrest
    · rw [List.take_left' hfull]
      simpa using takeWhile_isDigit_append hdigits not_startsWithDigit_nil
    · rw [List.take_append, List.take_of_length_le hmost]
      refine takeWhile_isDigit_append hdigits fun h => hrest ?_
      obtain ⟨c, hc, hdigit⟩ := h
      rw [List.head?_take] at hc
      split at hc
      · simp at hc
      · exact ⟨c, hc, hdigit⟩
  simp [number?, htake, hread, Nat.not_lt.mpr hleast]

/-- A numeral as wide as the reader takes. -/
theorem number?_padded {width n : Nat} (least : Nat) (hleast : least ≤ width)
    (hn : n < Nat.pow 10 width) (rest : List Char) :
    number? least width (padded width n ++ rest) = some (n, rest) :=
  number?_append (fun _ => isDigit_of_mem_padded) (readDigits_padded width n hn)
    (by rwa [length_padded]) (Nat.le_of_eq (length_padded _ _)) (.inl (length_padded _ _))

theorem fraction?_padded {width n : Nat} (hpos : 1 ≤ width) (hwidth : width ≤ 9)
    (hn : n < Nat.pow 10 width) {rest : List Char} (hrest : ¬ StartsWithDigit rest) :
    fraction? (padded width n ++ rest) = some (n * Nat.pow 10 (9 - width), rest) := by
  have hnumber : number? 1 9 (padded width n ++ rest) = some (n, rest) :=
    number?_append (fun _ => isDigit_of_mem_padded) (readDigits_padded width n hn)
      (by rwa [length_padded]) (by rwa [length_padded]) (.inr hrest)
  have hdrop : rest.dropWhile Char.isDigit = rest := by
    cases rest with
    | nil => rfl
    | cons c rest =>
      rw [startsWithDigit_cons] at hrest
      exact List.dropWhile_cons_of_neg hrest
  have hlength : (padded width n ++ rest).length - rest.length = width := by
    simp [length_padded]
  rw [fraction?, hnumber]
  simp only [Option.bind_eq_bind, Option.bind_some, hlength, hdrop]

end Scan

namespace Text

/-! ## Integers -/

theorem readNat?_digits (n : Nat) : readNat? (digits n) = some n := by
  cases h : digits n with
  | nil => exact absurd h (digits_ne_nil n)
  | cons c s =>
    rw [readNat?, ← h, readDigits_digits]
    simp

/-- An integer of 64 signed bits is read from its decimal text. -/
theorem readSigned?_integer (n : Int64) : readSigned? (integer n.toInt) = some n := by
  have low := n.le_toInt
  have high := n.toInt_lt
  have hfits : Word.Signed64 n.toInt := ⟨by omega, by omega⟩
  have hsigned : ((some n.toInt).filter fun m => Word.Signed64 m).map Int64.ofInt = some n := by
    simp [hfits]
  rw [integer]
  split
  case isTrue hneg =>
    have habs : -(n.toInt.natAbs : Int) = n.toInt := by omega
    simp only [readSigned?, readNat?_digits, Option.bind_eq_bind, Option.bind_some, Option.pure_def,
      Option.map_some, habs, hsigned]
  case isFalse hpos =>
    have habs : (n.toInt.natAbs : Int) = n.toInt := by omega
    have hread := readNat?_digits n.toInt.natAbs
    have hdigit : ∀ c ∈ digits n.toInt.natAbs, c.isDigit := fun c => isDigit_of_mem_digits
    generalize digits n.toInt.natAbs = s at *
    -- a digit is no sign, so the text is read from its first character on
    simp only [readSigned?]
    split
    · exact absurd (hdigit '-' List.mem_cons_self) (by decide)
    · exact absurd (hdigit '+' List.mem_cons_self) (by decide)
    · simp only [hread, Option.bind_eq_bind, Option.bind_some, Option.pure_def, Option.map_some,
        habs, hsigned]

end Text

end Catalogue
