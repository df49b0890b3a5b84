import Catalogue.Word

/-!
# Decimal numerals

Numbers written with the ten ASCII digits: the digits of a number, numerals of a fixed width, and
reading. `readDigits_digits` and `readDigits_padded` say that what is written reads back.
-/

namespace Catalogue.Text

/-- The digit for `d`, meant for `d < 10`. -/
def digit (d : Nat) : Char :=
  Char.ofNat (48 + d)

/-- The value of an ASCII digit. -/
def digitValue? (c : Char) : Option Nat :=
  if 48 ≤ c.toNat ∧ c.toNat ≤ 57 then some (c.toNat - 48) else none

/-- The decimal digits of `n`, no more than needed. -/
def digits (n : Nat) : List Char :=
  if n < 10 then [digit n] else digits (n / 10) ++ [digit (n % 10)]

/-- The last `width` decimal digits of `n`, with zeros in front. -/
def padded : Nat → Nat → List Char
  | 0, _ => []
  | width + 1, n => padded width (n / 10) ++ [digit (n % 10)]

/-- The decimal digits of `n`, at least `width` of them. -/
def atLeast (width n : Nat) : List Char :=
  if n < Nat.pow 10 width then padded width n else digits n

/-- An integer: a minus sign if it is negative, then the digits of its size. -/
def integer (n : Int) : List Char :=
  if n < 0 then '-' :: digits n.natAbs else digits n.natAbs

/-- Reads digits to the end, onto the digits already read. -/
def readDigits (n : Nat) : List Char → Option Nat
  | [] => some n
  | c :: s =>
    match digitValue? c with
    | some d => readDigits (10 * n + d) s
    | none => none

/-- Reads one or more digits to the end. -/
def readNat? : List Char → Option Nat
  | [] => none
  | s => readDigits 0 s

/-- Reads a number below `2 ^ 64`: digits, with one plus sign allowed in front. -/
def readUnsigned? (s : List Char) : Option Nat :=
  let magnitude := match s with
    | '+' :: rest => readNat? rest
    | _ => readNat? s
  magnitude.filter (· < Word.bound64)

/-- Reads a signed 64-bit number: digits, with one sign allowed in front. -/
def readSigned? (s : List Char) : Option Int64 :=
  let value : Option Int := match s with
    | '-' :: rest => (readNat? rest).map fun n => -(n : Int)
    | '+' :: rest => (readNat? rest).map fun n => (n : Int)
    | _ => (readNat? s).map fun n => (n : Int)
  (value.filter fun n => Word.Signed64 n).map Int64.ofInt

/-! ### What is written reads back -/

theorem digitValue?_digit {d : Nat} (h : d < 10) : digitValue? (digit d) = some d := by
  have all : ∀ e ∈ List.range 10, digitValue? (digit e) = some e := by decide
  exact all d (List.mem_range.mpr h)

theorem readDigits_append (n : Nat) (s t : List Char) :
    readDigits n (s ++ t) = (readDigits n s).bind fun m => readDigits m t := by
  induction s generalizing n with
  | nil => simp [readDigits]
  | cons c s ih =>
    cases h : digitValue? c with
    | none => simp [readDigits, h]
    | some d => simp [readDigits, h, ih]

theorem readDigits_digits (n : Nat) : readDigits 0 (digits n) = some n := by
  fun_induction digits n with
  | case1 n h => simp [readDigits, digitValue?_digit h]
  | case2 n h ih =>
    have hd : n % 10 < 10 := Nat.mod_lt _ (by omega)
    simp only [readDigits_append, ih, Option.bind_some, readDigits, digitValue?_digit hd]
    congr 1
    omega

theorem readDigits_padded (width n : Nat) (h : n < Nat.pow 10 width) :
    readDigits 0 (padded width n) = some n := by
  induction width generalizing n with
  | zero => simp_all [padded, readDigits]
  | succ width ih =>
    have hd : n % 10 < 10 := Nat.mod_lt _ (by omega)
    have hn : n / 10 < Nat.pow 10 width := by
      have hs : Nat.pow 10 (width + 1) = Nat.pow 10 width * 10 := rfl
      omega
    simp only [padded, readDigits_append, ih _ hn, Option.bind_some, readDigits,
      digitValue?_digit hd]
    congr 1
    omega

theorem length_padded (width n : Nat) : (padded width n).length = width := by
  induction width generalizing n with
  | zero => rfl
  | succ width ih => simp [padded, ih]

end Catalogue.Text
