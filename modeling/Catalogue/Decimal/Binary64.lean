/-!
# Binary floating point numbers

A 64-bit floating point number is held as its bits, so that two numbers are equal exactly when no
reader can tell them apart. A finite number is `± m * 2 ^ q`; `Binary64.ofInt` rounds an integer to
the nearest number, and a tie goes to the even neighbour.
-/

namespace Catalogue

/-- A 64-bit floating point number, by its bits. -/
structure Binary64 where
  /-- The sign bit, eleven bits of exponent and fifty-two bits of fraction. -/
  bits : UInt64
deriving DecidableEq, Repr, Inhabited

namespace Binary64

/-- Fractions are below this, the power `2 ^ 52`. -/
abbrev fractionBound : Nat := 4503599627370496

/-- Whether the sign bit is set. -/
def isNegative (x : Binary64) : Bool :=
  9223372036854775808 ≤ x.bits.toNat

/-- The eleven bits of the exponent. -/
def exponentField (x : Binary64) : Nat :=
  x.bits.toNat / fractionBound % 2048

/-- The fifty-two bits of the fraction. -/
def fractionField (x : Binary64) : Nat :=
  x.bits.toNat % fractionBound

/-- Whether the number is neither infinite nor NaN. -/
def isFinite (x : Binary64) : Bool :=
  x.exponentField != 2047

/-- Whether the bits stand for no number. -/
def isNaN (x : Binary64) : Bool :=
  x.exponentField == 2047 && x.fractionField != 0

/-- The coefficient `m` of a finite number. -/
def coefficient (x : Binary64) : Nat :=
  if x.exponentField = 0 then x.fractionField else fractionBound + x.fractionField

/-- The binary exponent `q` of a finite number. -/
def scale (x : Binary64) : Int :=
  if x.exponentField = 0 then -1074 else (x.exponentField : Int) - 1075

/-- Whether the gap to the number below is half the gap to the number above. -/
def narrowBelow (x : Binary64) : Bool :=
  x.fractionField == 0 && 1 < x.exponentField

/-- The quotient of `n` by `2 ^ k`, rounded to nearest, a tie to even. -/
def roundShift (n k : Nat) : Nat :=
  let quotient := n / Nat.pow 2 k
  let rest := 2 * (n % Nat.pow 2 k)
  if rest < Nat.pow 2 k then quotient
  else if Nat.pow 2 k < rest then quotient + 1
  else quotient + quotient % 2

/-- The number nearest to a natural number below `2 ^ 1023`, a tie to even. A coefficient that
rounds up to `2 ^ 53` carries into the exponent. -/
def ofNat (n : Nat) : Binary64 :=
  if n = 0 then ⟨0⟩
  else
    let top := n.log2
    let coefficient := if top ≤ 52 then n * Nat.pow 2 (52 - top) else roundShift n (top - 52)
    ⟨UInt64.ofNat ((1022 + top) * fractionBound + coefficient)⟩

/-- The number nearest to an integer of less than 1023 bits, a tie to even. -/
def ofInt (n : Int) : Binary64 :=
  if n < 0 then ⟨(ofNat n.natAbs).bits + 0x8000000000000000⟩ else ofNat n.natAbs

end Binary64

end Catalogue
