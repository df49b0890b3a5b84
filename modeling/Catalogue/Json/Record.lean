import Catalogue.Json.Basic

/-!
# Records in JSON

A record with fixed fields is written as an object, in which other keys may stand beside the
fields, or as the list of its fields in order, in which the last ones may be left out. A field that
is left out takes its default where it has one; a field that is there must have the right kind.
-/

namespace Catalogue.Json

/-- The fields of a record as they were written. -/
structure Record where
  /-- Whether the record was written as a list. -/
  positional : Bool
  /-- The value of each field in order, if it is there. -/
  fields : List (Option Json)

namespace Record

/-- The fields named `names` of a record, if the value is written as a record with at most these
fields in order or with any keys. -/
def read? (names : List String) : Json → Option Record
  | .obj entries => some ⟨false, names.map fun name => Dict.get? entries name⟩
  | .arr items =>
    if items.length ≤ names.length then
      some ⟨true, items.map some ++ List.replicate (names.length - items.length) none⟩
    else none
  | _ => none

/-- The field at position `i`, if it is there. -/
def field? (r : Record) (i : Nat) : Option Json :=
  (r.fields[i]?).join

variable {α : Type}

/-- A field that must be there. -/
def required (r : Record) (i : Nat) (read : Json → Option α) : Option α :=
  (r.field? i).bind read

/-- A field with a default. -/
def withDefault (r : Record) (i : Nat) (read : Json → Option α) (default : α) : Option α :=
  match r.field? i with
  | none => some default
  | some value => read value

/-- A field whose value may be null. -/
def nullable (read : Json → Option α) : Json → Option (Option α)
  | .null => some none
  | value => (read value).map some

/-- A field that may be null, and that only an object may leave out. -/
def optional (r : Record) (i : Nat) (read : Json → Option α) : Option (Option α) :=
  match r.field? i with
  | none => if r.positional then none else some none
  | some value => nullable read value

end Record

end Catalogue.Json
