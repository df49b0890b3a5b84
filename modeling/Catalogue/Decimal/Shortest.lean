import Catalogue.Decimal.Binary64

/-!
# Shortest decimals

`Binary64.shortest` picks the fewest decimal digits that read back to a floating point number, and
among those the ones nearest to it. The reals that round to a number form an interval, from halfway
to the neighbour below to halfway to the neighbour above, with its ends exactly when the
coefficient is even. If a decimal with `n` digits lies in the interval, so does one of the two
decimals with `n` digits next to the number, so the search looks at these two for `n = 1, 2, …`.
-/

namespace Catalogue

/-- The decimal `digits * 10 ^ exponent`. -/
structure Decimal where
  /-- The digits as a number. -/
  digits : Nat
  /-- The power of ten of the last digit. -/
  exponent : Int
deriving DecidableEq, Repr

/-- Which of two equally near decimals is taken. -/
inductive Tie where
  /-- The one whose last digit is even. -/
  | toEven
  /-- The one farther from zero. -/
  | away
deriving DecidableEq, Repr

namespace Decimal

/-- Compares `a * 10 ^ i` with `n * 2 ^ j`. -/
def compareBinary (a : Nat) (i : Int) (n : Nat) (j : Int) : Ordering :=
  compare (a * Nat.pow 10 i.toNat * Nat.pow 2 (-j).toNat)
    (n * Nat.pow 2 j.toNat * Nat.pow 10 (-i).toNat)

/-- Moves trailing zeros of the digits into the exponent. -/
def strip (digits : Nat) (exponent : Int) : Decimal :=
  if h : digits ≠ 0 ∧ digits % 10 = 0 then strip (digits / 10) (exponent + 1)
  else ⟨digits, exponent⟩
termination_by digits
decreasing_by omega

end Decimal

namespace Binary64

/-- Whether `digits * 10 ^ exponent` is among the reals that round to the size of `x`. -/
def readsBack (x : Binary64) (digits : Nat) (exponent : Int) : Bool :=
  let low := if x.narrowBelow then 4 * x.coefficient - 1 else 4 * x.coefficient - 2
  let high := 4 * x.coefficient + 2
  let closed := x.coefficient % 2 == 0
  let below := Decimal.compareBinary digits exponent low (x.scale - 2)
  let above := Decimal.compareBinary digits exponent high (x.scale - 2)
  (below == .gt || (closed && below == .eq)) && (above == .lt || (closed && above == .eq))

/-- The least `k` for which the size of `x` is below `10 ^ k`, found next to the estimate that the
binary logarithm gives. -/
def decimalScale (x : Binary64) : Int :=
  let estimate := Int.fdiv (((x.coefficient.log2 : Int) + x.scale) * 30103) 100000
  let fits (k : Int) := Decimal.compareBinary 1 k x.coefficient x.scale == .gt
  ([estimate - 1, estimate, estimate + 1].find? fits).getD (estimate + 2)

/-- The size of `x` divided by `10 ^ exponent`, rounded down. -/
def quotient (x : Binary64) (exponent : Int) : Nat :=
  (x.coefficient * Nat.pow 2 x.scale.toNat * Nat.pow 10 (-exponent).toNat) /
    (Nat.pow 2 (-x.scale).toNat * Nat.pow 10 exponent.toNat)

/-- The decimal next to the size of `x` on the grid `10 ^ exponent` that reads back, the nearer one
if both do. -/
def onGrid? (x : Binary64) (tie : Tie) (exponent : Int) : Option Decimal :=
  let low := x.quotient exponent
  let high := low + 1
  match x.readsBack low exponent, x.readsBack high exponent with
  | false, false => none
  | true, false => some (Decimal.strip low exponent)
  | false, true => some (Decimal.strip high exponent)
  | true, true =>
    match Decimal.compareBinary (low + high) exponent (2 * x.coefficient) x.scale with
    | .gt => some (Decimal.strip low exponent)
    | .lt => some (Decimal.strip high exponent)
    | .eq =>
      if tie = .toEven ∧ low % 2 = 0 then some (Decimal.strip low exponent)
      else some (Decimal.strip high exponent)

/-- The size of `x` written out in full. -/
def exactDecimal (x : Binary64) : Decimal :=
  Decimal.strip (x.coefficient * Nat.pow 2 x.scale.toNat * Nat.pow 5 (-x.scale).toNat)
    (min x.scale 0)

/-- The shortest decimal that reads back to the size of a finite number other than zero. -/
def shortest (x : Binary64) (tie : Tie) : Decimal :=
  let top := x.decimalScale
  ((List.range 17).findSome? fun n : Nat => x.onGrid? tie (top - (n + 1))).getD x.exactDecimal

end Binary64

end Catalogue
