import Catalogue.Json.Basic
import Catalogue.Text.Blank

/-!
# Comparison operators

The eleven ways to compare a field with a value. Each has one text, which JSON uses; a query that a
person writes may also use other spellings, in any case and with white space around it.
-/

namespace Catalogue

/-- A comparison of a field with a value. -/
inductive Operator where
  /-- Has the value, or one of a list of values, or no value. -/
  | eq
  /-- The opposite of `eq`. -/
  | ne
  /-- Is below the value. -/
  | lt
  /-- Is the value or below it. -/
  | le
  /-- Is above the value. -/
  | gt
  /-- Is the value or above it. -/
  | ge
  /-- Is from the first of two values to the second. -/
  | between
  /-- Has one of the values of a list. -/
  | oneOf
  /-- Has none of the values of a list. -/
  | noneOf
  /-- Matches a pattern, in which `%` is any text and `_` any character. -/
  | like
  /-- Matches a regular expression. -/
  | regex
deriving DecidableEq, Repr

namespace Operator

/-- All operators. -/
def all : List Operator :=
  [.eq, .ne, .lt, .le, .gt, .ge, .between, .oneOf, .noneOf, .like, .regex]

/-- The text of an operator. -/
def text : Operator → String
  | .eq => "="
  | .ne => "!="
  | .lt => "<"
  | .le => "<="
  | .gt => ">"
  | .ge => ">="
  | .between => "between"
  | .oneOf => ":in"
  | .noneOf => "!in"
  | .like => ":like"
  | .regex => "~="

/-- The operator with exactly this text. -/
def ofText? : String → Option Operator
  | "=" => some .eq
  | "!=" => some .ne
  | "<" => some .lt
  | "<=" => some .le
  | ">" => some .gt
  | ">=" => some .ge
  | "between" => some .between
  | ":in" => some .oneOf
  | "!in" => some .noneOf
  | ":like" => some .like
  | "~=" => some .regex
  | _ => none

/-- The operator with this text or with this for another spelling. -/
def ofSpelling? : String → Option Operator
  | "==" => some .eq
  | "<>" => some .ne
  | "in" => some .oneOf
  | "not in" => some .noneOf
  | "like" => some .like
  | "regex" => some .regex
  | text => ofText? text

/-- Reads an operator as a person writes it: white space around it and the case of ASCII letters
do not matter. -/
def read? (text : String) : Option Operator :=
  ofSpelling? (String.ofList ((Text.trimBlanks text.toList).map Char.toLower))

/-- Reads an operator from JSON: its text, or an object with null under its text. -/
def ofJson? : Json → Option Operator
  | .str text => ofText? text
  | .obj [(text, .null)] => ofText? text
  | _ => none

/-- The operator in JSON. -/
def toJson (operator : Operator) : Json :=
  .str operator.text

theorem ofText?_text (operator : Operator) : ofText? operator.text = some operator := by
  cases operator <;> rfl

end Operator

end Catalogue
