import Catalogue.Text.Split
import Catalogue.Time.Layout
import Catalogue.Value

/-!
# Date formats

The format of a date field is a list of alternatives with `||` between them. An alternative is the
name of a format or a pattern of letters, `yyyy-MM-dd`, in which a run of one letter stands for a
part of the date and text between single quotes stands for itself. Patterns are kept in percent
notation. Dates are written by the first alternative and read by the first that can read them.
-/

namespace Catalogue

/-! ## Letter patterns -/

namespace LetterPattern

/-- The directive that a run of a letter stands for, in percent notation. -/
def directive? (letter : Char) (run : Nat) : Option (List Char) :=
  match letter with
  | 'y' | 'u' => some (if run = 2 then ['%', 'y'] else ['%', 'Y'])
  | 'M' => some (if run ≤ 2 then ['%', 'm'] else if run = 3 then ['%', 'b'] else ['%', 'B'])
  | 'd' => some ['%', 'd']
  | 'H' => some ['%', 'H']
  | 'h' => some ['%', 'I']
  | 'm' => some ['%', 'M']
  | 's' => some ['%', 'S']
  | 'S' =>
    some (if run ≤ 3 then ['%', '3', 'f'] else if run ≤ 6 then ['%', '6', 'f']
      else ['%', '9', 'f'])
  | 'a' => some ['%', 'p']
  | 'E' => some (if run ≤ 3 then ['%', 'a'] else ['%', 'A'])
  | 'Z' => some (if run = 1 then ['%', 'z'] else ['%', ':', 'z'])
  | 'X' => some (if run ≤ 2 then ['%', 'z'] else ['%', ':', 'z'])
  | _ => none

/-- A character that stands for itself, in percent notation. -/
def literal (c : Char) : List Char :=
  if c = '%' then ['%', '%'] else [c]

/-- The text up to the next single quote. -/
def quoted (s : List Char) : List Char :=
  s.takeWhile (· != '\'')

/-- The pattern in percent notation. A letter with no meaning stands for itself, and two single
quotes outside a quoted text are one. -/
def percent : List Char → List Char
  | [] => []
  | '\'' :: '\'' :: s => '\'' :: percent s
  | '\'' :: s => (quoted s).flatMap literal ++ percent (s.drop ((quoted s).length + 1))
  | c :: s =>
    if c.isAlpha then
      let run := (s.takeWhile (· == c)).length
      (directive? c (run + 1)).getD ((List.replicate (run + 1) c).flatMap literal) ++
        percent (s.drop run)
    else literal c ++ percent s
termination_by s => s.length
decreasing_by all_goals simp only [List.length_cons, List.length_drop]; omega

end LetterPattern

/-! ## Formats -/

/-- One alternative of the format of a date field. -/
inductive DateFormat where
  /-- The text by RFC 3339. -/
  | rfc3339
  /-- Milliseconds since the start of 1970, as an integer. -/
  | epochMillis
  /-- Seconds since the start of 1970, as an integer. -/
  | epochSecond
  /-- A text by a layout in percent notation. -/
  | percent (text : List Char)
deriving DecidableEq, Repr

namespace DateFormat

/-- The alternative that a name or a letter pattern stands for. -/
def ofName (name : String) : DateFormat :=
  match name with
  | "epoch_millis" => .epochMillis
  | "epoch_second" => .epochSecond
  | "date_time" | "strict_date_time" | "date_optional_time" | "strict_date_optional_time" =>
    .rfc3339
  | "date" | "strict_date" => .percent "%Y-%m-%d".toList
  | "basic_date" => .percent "%Y%m%d".toList
  | "date_hour_minute_second" | "strict_date_hour_minute_second" =>
    .percent "%Y-%m-%dT%H:%M:%S".toList
  | _ => .percent (LetterPattern.percent name.toList)

/-- The alternatives of the format of a field: the trimmed pieces between `||` that are not
empty. -/
def alternatives (format : Option String) : List DateFormat :=
  match format with
  | none => []
  | some text =>
    (((Text.split ['|', '|'] text.toList).map Text.trimBlanks).filter (· ≠ [])).map
      fun name => ofName (String.ofList name)

/-- An instant in a document. -/
def write (t : Instant) : DateFormat → Value
  | .rfc3339 => .str t.rfc3339
  | .epochMillis => .int (Int64.ofInt t.epochMillis)
  | .epochSecond => .int (Int64.ofInt t.seconds)
  | .percent text => .str (String.ofList (Layout.render ((Layout.ofPercent? text).getD []) t))

/-- The instant that a text or an integer in a document stands for. Only the formats that count
from 1970 read integers, and they read numerals as well. -/
def read? : DateFormat → Value → Option Instant
  | .epochMillis, .int n => Instant.ofEpochMillis? n.toInt
  | .epochSecond, .int n => Instant.ofEpochSeconds? n.toInt
  | .epochMillis, .str s => do Instant.ofEpochMillis? (← Text.readSigned? s.toList).toInt
  | .epochSecond, .str s => do Instant.ofEpochSeconds? (← Text.readSigned? s.toList).toInt
  | .rfc3339, .str s => Instant.ofRfc3339? s.toList
  | .percent text, .str s => do (← Layout.ofPercent? text).read? s.toList
  | _, _ => none

end DateFormat

end Catalogue
