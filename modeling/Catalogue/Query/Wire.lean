import Catalogue.Query.Predicate

/-!
# Predicates in JSON

A predicate is an object with one key, which names its kind. `Predicate.toJson` writes it and
`Predicate.ofJson?` reads it. Reading admits more than is written: other keys beside those of a
comparison, and an operator as an object with null under its text.
-/

namespace Catalogue

namespace Predicate

mutual

/-- The predicate in JSON. -/
def toJson : Predicate → Json
  | .compare field operator value =>
    .single "compare"
      (.obj [("field", .str field), ("operator", operator.toJson), ("value", value)])
  | .and children => .single "and" (.arr (childrenToJson children))
  | .or children => .single "or" (.arr (childrenToJson children))
  | .not child => .single "not" (toJson child)
  | .raw fragment => .single "raw" fragment

/-- The predicates of a list in JSON. -/
def childrenToJson : List Predicate → List Json
  | [] => []
  | child :: rest => toJson child :: childrenToJson rest

end

/-- Reads the comparison that an object describes. -/
def comparisonOfJson? : Json → Option Predicate
  | .obj entries =>
    match Dict.get? entries "field", Dict.get? entries "operator", Dict.get? entries "value" with
    | some (.str field), some operator, some value =>
      (Operator.ofJson? operator).map fun operator => .compare field operator value
    | _, _, _ => none
  | _ => none

mutual

/-- Reads a predicate. -/
def ofJson? : Json → Option Predicate
  | .obj entries => ofEntries? entries
  | _ => none

/-- Reads the predicate under the one key of an object. -/
def ofEntries? : List (String × Json) → Option Predicate
  | [("compare", body)] => comparisonOfJson? body
  | [("and", body)] => (childrenOfJson? body).map .and
  | [("or", body)] => (childrenOfJson? body).map .or
  | [("not", body)] => (ofJson? body).map .not
  | [("raw", fragment)] => some (.raw fragment)
  | _ => none

/-- Reads a list of predicates. -/
def childrenOfJson? : Json → Option (List Predicate)
  | .arr items => ofItems? items
  | _ => none

/-- Reads the predicates of a list, first to last. -/
def ofItems? : List Json → Option (List Predicate)
  | [] => some []
  | item :: rest =>
    match ofJson? item, ofItems? rest with
    | some child, some children => some (child :: children)
    | _, _ => none

end

end Predicate

end Catalogue
