/-!
# Word sizes

The bounds of numbers that are held in 32 or 64 bits.
-/

namespace Catalogue.Word

/-- Numbers of 32 bits are below this, the power `2 ^ 32`. -/
abbrev bound32 : Nat := 4294967296

/-- Numbers of 64 bits are below this, the power `2 ^ 64`. -/
abbrev bound64 : Nat := 18446744073709551616

/-- Whether an integer has a signed form of 64 bits, which reaches from `-2 ^ 63` up to but not
including `2 ^ 63`. -/
abbrev Signed64 (n : Int) : Prop :=
  -9223372036854775808 ≤ n ∧ n < 9223372036854775808

end Catalogue.Word
