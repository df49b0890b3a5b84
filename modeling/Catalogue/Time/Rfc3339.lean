import Catalogue.Time.Components
import Catalogue.Time.Scan

/-!
# RFC 3339

The text of an instant by RFC 3339: day, `T`, time with as many groups of three digits of fraction
as it needs, and `Z`; a leap second is second 60. A year outside 0 to 9999 has a sign. Reading takes
`T`, `t` or a space between day and time, any digits of fraction, and `Z`, `z` or an offset.
-/

namespace Catalogue

namespace Date

/-- The year: four digits, or a sign and at least four for a year outside 0 to 9999. -/
def yearText (year : Int) : List Char :=
  if 0 ≤ year ∧ year ≤ 9999 then Text.padded 4 year.toNat
  else (if year < 0 then '-' else '+') :: Text.atLeast 4 year.natAbs

end Date

namespace Instant

/-- The fraction of the second: a point and three, six or nine digits, or nothing. -/
def fractionText (fraction : Nat) : List Char :=
  if fraction = 0 then []
  else if fraction % nanosPerMilli = 0 then '.' :: Text.padded 3 (fraction / nanosPerMilli)
  else if fraction % nanosPerMicro = 0 then '.' :: Text.padded 6 (fraction / nanosPerMicro)
  else '.' :: Text.padded 9 fraction

/-- The characters of the text of an instant. -/
def rfc3339Chars (t : Instant) : List Char :=
  Date.yearText t.date.year ++ '-' :: Text.padded 2 t.date.month ++ '-' ::
    Text.padded 2 t.date.day ++ 'T' :: Text.padded 2 t.hour ++ ':' :: Text.padded 2 t.minute ++
    ':' :: Text.padded 2 t.second ++ fractionText t.fraction ++ ['Z']

/-- The text of an instant. -/
def rfc3339 (t : Instant) : String :=
  String.ofList t.rfc3339Chars

/-- The mark between day and time. -/
def separator? : List Char → Option (List Char)
  | 'T' :: s => some s
  | 't' :: s => some s
  | ' ' :: s => some s
  | _ => none

/-- The fraction of the second and the rest of the text, where a point shows that there is one. -/
def readFraction? (c : Components) : List Char → Option (Components × List Char)
  | '.' :: s => do
    let (n, s) ← Scan.fraction? s
    some (← c.setFraction n, s)
  | s => some (c, s)

/-- The offset at the end of the text. -/
def readOffset? : List Char → Option Int
  | ['Z'] => some 0
  | ['z'] => some 0
  | s => do
    let (offset, rest) ← Scan.offset? (Scan.char? ':') s
    if rest = [] then some offset else none

/-- Reads an instant. -/
def ofRfc3339? (s : List Char) : Option Instant := do
  let (year, s) ← Scan.number? 4 4 s
  let (month, s) ← Scan.number? 2 2 (← Scan.char? '-' s)
  let (day, s) ← Scan.number? 2 2 (← Scan.char? '-' s)
  let (hour, s) ← Scan.number? 2 2 (← separator? s)
  let (minute, s) ← Scan.number? 2 2 (← Scan.char? ':' s)
  let (second, s) ← Scan.number? 2 2 (← Scan.char? ':' s)
  let c ← Components.setYear {} year
  let c ← c.setMonth month
  let c ← c.setDay day
  let c ← c.setHour24 hour
  let c ← c.setMinute minute
  let c ← c.setSecond second
  let (c, s) ← readFraction? c s
  (← c.setOffset (← readOffset? s)).moment?

end Instant

end Catalogue
