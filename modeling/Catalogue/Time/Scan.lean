import Catalogue.Text.Blank
import Catalogue.Text.Numeral

/-!
# Scanning dates

Readers of the pieces that dates are made of. Each takes a text and gives what it read and the rest
of the text.
-/

namespace Catalogue.Scan

/-- One given character. -/
def char? (c : Char) : List Char → Option (List Char)
  | [] => none
  | d :: s => if c = d then some s else none

/-- A number of at least `least` and at most `most` digits, as many as there are. -/
def number? (least most : Nat) (s : List Char) : Option (Nat × List Char) :=
  let digits := (s.take most).takeWhile Char.isDigit
  if digits.length < least then none
  else (Text.readDigits 0 digits).map fun n => (n, s.drop digits.length)

/-- Nanoseconds from the digits after a point: at least one, and those past the ninth do not
count. -/
def fraction? (s : List Char) : Option (Nat × List Char) := do
  let (n, rest) ← number? 1 9 s
  some (n * Nat.pow 10 (9 - (s.length - rest.length)), rest.dropWhile Char.isDigit)

/-- The sign of an offset: a plus, a hyphen or a minus sign. -/
def sign? : List Char → Option (Int × List Char)
  | '+' :: s => some (1, s)
  | '-' :: s => some (-1, s)
  | '−' :: s => some (-1, s)
  | _ => none

/-- An offset from universal time in seconds: a sign, two digits of hours, what `between` skips, and
two digits of minutes below 60. -/
def offset? (between : List Char → Option (List Char)) (s : List Char) :
    Option (Int × List Char) := do
  let (sign, s) ← sign? s
  let (hours, s) ← number? 2 2 s
  let (minutes, s) ← number? 2 2 (← between s)
  if minutes < 60 then some (sign * (hours * 3600 + minutes * 60 : Nat), s) else none

end Catalogue.Scan
