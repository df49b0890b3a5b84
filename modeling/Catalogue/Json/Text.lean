import Catalogue.Decimal.Layout
import Catalogue.Json.Basic

/-!
# Compact JSON text

A value as JSON text without spaces, with the entries of an object in its own order.
-/

namespace Catalogue.Json

open Text (digits integer)

/-- A hexadecimal digit, in lower case. -/
def hexDigit (d : Nat) : Char :=
  if d < 10 then Char.ofNat (48 + d) else Char.ofNat (87 + d)

/-- One character of a JSON string: the quote, the backslash and the control characters are
written as escapes, of two characters where there is one. -/
def escapeChar (c : Char) : List Char :=
  match c with
  | '"' => ['\\', '"']
  | '\\' => ['\\', '\\']
  | '\x08' => ['\\', 'b']
  | '\x09' => ['\\', 't']
  | '\x0a' => ['\\', 'n']
  | '\x0c' => ['\\', 'f']
  | '\x0d' => ['\\', 'r']
  | _ =>
    if c.toNat < 32 then
      ['\\', 'u', '0', '0', hexDigit (c.toNat / 16), hexDigit (c.toNat % 16)]
    else [c]

/-- A text between quotes. -/
def quoted (s : String) : List Char :=
  '"' :: s.toList.flatMap escapeChar ++ ['"']

/-- Numbers that are not integers are written with the fewest digits that identify them:
positionally, with a point, for leading digits from `10 ^ -5` to `10 ^ 15`, and otherwise with a
signed exponent. -/
def floatText (x : Binary64) : List Char :=
  let sign := if x.isNegative then ['-'] else []
  if x.coefficient = 0 then sign ++ ['0', '.', '0']
  else
    let decimal := x.shortest .toEven
    let leading := decimal.leadingExponent
    if -5 ≤ leading ∧ leading ≤ 15 then
      sign ++ decimal.positional ++ (if 0 ≤ decimal.exponent then ['.', '0'] else [])
    else sign ++ decimal.scientific

mutual

/-- The characters of the compact text of a value. -/
def compactChars : Json → List Char
  | .null => ['n', 'u', 'l', 'l']
  | .bool true => ['t', 'r', 'u', 'e']
  | .bool false => ['f', 'a', 'l', 's', 'e']
  | .int n => integer n
  | .float x => floatText x
  | .str s => quoted s
  | .arr items => '[' :: compactItems items ++ [']']
  | .obj entries => '\x7b' :: compactEntries entries ++ ['\x7d']

/-- The items of a list, with commas between. -/
def compactItems : List Json → List Char
  | [] => []
  | [item] => compactChars item
  | item :: next :: rest => compactChars item ++ ',' :: compactItems (next :: rest)

/-- The entries of an object, with commas between. -/
def compactEntries : List (String × Json) → List Char
  | [] => []
  | [(key, value)] => quoted key ++ ':' :: compactChars value
  | (key, value) :: next :: rest =>
    quoted key ++ ':' :: compactChars value ++ ',' :: compactEntries (next :: rest)

end

/-- The compact text of a value. -/
def compact (value : Json) : String :=
  String.ofList (compactChars value)

end Catalogue.Json
