import Catalogue.Decimal.Shortest
import Catalogue.Text.Numeral

/-!
# Decimals as text

A decimal is laid out positionally, with zeros and a point where needed, or with one digit before
the point and an exponent.
-/

namespace Catalogue.Decimal

/-- The exponent of the leading digit. -/
def leadingExponent (d : Decimal) : Int :=
  d.exponent + (Text.digits d.digits).length - 1

/-- The digits with zeros and a point where the exponent asks for them; a whole number has no
point. -/
def positional (d : Decimal) : List Char :=
  let digits := Text.digits d.digits
  if 0 ≤ d.exponent then digits ++ List.replicate d.exponent.toNat '0'
  else
    let places := (-d.exponent).toNat
    if places < digits.length then
      digits.take (digits.length - places) ++ '.' :: digits.drop (digits.length - places)
    else '0' :: '.' :: List.replicate (places - digits.length) '0' ++ digits

/-- One digit, a point and the others if there are any, and the signed exponent. -/
def scientific (d : Decimal) : List Char :=
  let exponent := d.leadingExponent
  let mantissa := match Text.digits d.digits with
    | first :: second :: rest => first :: '.' :: second :: rest
    | short => short
  let sign := if 0 ≤ exponent then '+' else '-'
  mantissa ++ 'e' :: sign :: Text.digits exponent.natAbs

end Catalogue.Decimal
