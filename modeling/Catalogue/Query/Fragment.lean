import Catalogue.Json.Basic
import Catalogue.Text.Escape

/-!
# Query fragments

The backend's query language is JSON. This module has the fragments that are built here: tests of
one field, and the boolean fragments that join them. `Fragment.all` and `Fragment.any` leave a
single fragment as it is, and `Fragment.all` of none matches every document.
-/

namespace Catalogue.Fragment

/-! ### Tests of a field -/

/-- The field has the value. -/
def term (field : String) (value : Json) : Json :=
  .single "term" (.single field value)

/-- The field has one of the values. -/
def terms (field : String) (values : List Json) : Json :=
  .single "terms" (.single field (.arr values))

/-- The field has no value. -/
def missing (field : String) : Json :=
  .single "missing" (.single "field" (.str field))

/-- The field has some value. -/
def exists_ (field : String) : Json :=
  .single "exists" (.single "field" (.str field))

/-- The field is within bounds, each under the name of its relation. -/
def range (field : String) (bounds : List (String × Json)) : Json :=
  .single "range" (.single field (.obj bounds))

/-- The field starts with the text. -/
def startsWith (field : String) (text : List Char) : Json :=
  .single "prefix" (.single field (.str (String.ofList text)))

/-- The field matches the pattern, in which `*` is any text, `?` any character, and a backslash
makes the next character literal. -/
def wildcard (field : String) (pattern : List Char) : Json :=
  .single "wildcard" (.single field (.str (String.ofList pattern)))

/-- The field matches the regular expression. -/
def regexp (field : String) (pattern : String) : Json :=
  .single "regexp" (.single field (.single "value" (.str pattern)))

/-! ### Joins -/

/-- Every document matches. -/
def matchAll : Json :=
  .single "match_all" (.obj [])

/-- All fragments match. -/
def must (fragments : List Json) : Json :=
  .single "bool" (.single "must" (.arr fragments))

/-- At least one fragment matches. -/
def should (fragments : List Json) : Json :=
  .single "bool" (.obj [("minimum_should_match", .int 1), ("should", .arr fragments)])

/-- None of the fragments matches. -/
def mustNot (fragments : List Json) : Json :=
  .single "bool" (.single "must_not" (.arr fragments))

/-- The conjunction of fragments. -/
def all : List Json → Json
  | [] => matchAll
  | [fragment] => fragment
  | fragments => must fragments

/-- The disjunction of fragments. -/
def any : List Json → Json
  | [fragment] => fragment
  | fragments => should fragments

/-- The negation of a fragment. -/
def negate (fragment : Json) : Json :=
  mustNot [fragment]

/-! ### Patterns -/

/-- A pattern in which `%` is any text and `_` any character, as the pattern of a wildcard test.
What has a meaning there only is escaped. -/
def wildcardOfLike : List Char → List Char
  | [] => []
  | '%' :: pattern => '*' :: wildcardOfLike pattern
  | '_' :: pattern => '?' :: wildcardOfLike pattern
  | c :: pattern =>
    if c = '\\' ∨ c = '*' ∨ c = '?' then '\\' :: c :: wildcardOfLike pattern
    else c :: wildcardOfLike pattern

/-- Whether a character of a pattern stands for something other than itself. -/
def isLikeWildcard (c : Char) : Bool :=
  c == '%' || c == '_'

/-- The text before the final `%` of a pattern that has no other wildcard and starts with a
character. -/
def likePrefix? (pattern : List Char) : Option (List Char) :=
  let literal := pattern.dropLast
  if pattern.getLast? = some '%' ∧ literal ≠ [] ∧ literal.all (fun c => !isLikeWildcard c) then
    some literal
  else none

/-- The field matches a pattern: a pattern that fixes how the field starts and nothing else is a
test for that start. -/
def like (field : String) (pattern : List Char) : Json :=
  match likePrefix? pattern with
  | some literal => startsWith field literal
  | none => wildcard field (wildcardOfLike pattern)

/-- A text as a regular expression that matches just this text. -/
def escape (text : List Char) : List Char :=
  Text.escape Text.queryReserved text

end Catalogue.Fragment
