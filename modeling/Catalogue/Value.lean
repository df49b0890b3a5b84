import Catalogue.Json.Basic
import Catalogue.Decimal.Layout
import Catalogue.Time.Rfc3339
import Catalogue.Word

/-!
# Values of entity fields

What an entity holds in a field. Documents hold JSON; `Value.toJson` and `Value.ofJson` go from one
to the other. A date becomes a text and a number without a JSON form becomes null, and neither
comes back; an integer of JSON beyond 64 signed bits becomes a floating point number.
-/

namespace Catalogue

/-- The value of an entity field. -/
inductive Value where
  /-- No value, as a value. -/
  | null
  /-- A truth value. -/
  | bool (b : Bool)
  /-- A signed 64-bit integer. -/
  | int (n : Int64)
  /-- A floating point number. -/
  | float (x : Binary64)
  /-- A text. -/
  | str (s : String)
  /-- An instant. -/
  | date (t : Instant)
  /-- A list of values. -/
  | list (items : List Value)
  /-- Values under text keys, in order. -/
  | map (entries : List (String × Value))
deriving Inhabited

namespace Value

/-- Whether the value is null. -/
def isNull : Value → Bool
  | .null => true
  | _ => false

/-- The text of a text. -/
def str? : Value → Option String
  | .str s => some s
  | _ => none

/-- The integer of an integer. -/
def int? : Value → Option Int64
  | .int n => some n
  | _ => none

/-- The instant of a date. -/
def date? : Value → Option Instant
  | .date t => some t
  | _ => none

/-- The items of a list. -/
def list? : Value → Option (List Value)
  | .list items => some items
  | _ => none

/-- A number as plain text: the fewest digits that identify it, always positional, a whole number
without a point. -/
def floatText (x : Binary64) : List Char :=
  let sign := if x.isNegative then ['-'] else []
  if x.isNaN then ['N', 'a', 'N']
  else if !x.isFinite then sign ++ ['i', 'n', 'f']
  else if x.coefficient = 0 then sign ++ ['0']
  else sign ++ (x.shortest .away).positional

/-- A scalar as plain text: null is the empty text, and lists and maps have none. -/
def toText? : Value → Option String
  | .null => some ""
  | .bool b => some (if b then "true" else "false")
  | .int n => some (String.ofList (Text.integer n.toInt))
  | .float x => some (String.ofList (floatText x))
  | .str s => some s
  | .date t => some t.rfc3339
  | .list _ => none
  | .map _ => none

mutual

/-- The value in a document. -/
def toJson : Value → Json
  | .null => .null
  | .bool b => .bool b
  | .int n => .int n.toInt
  | .float x => if x.isFinite then .float x else .null
  | .str s => .str s
  | .date t => .str t.rfc3339
  | .list items => .arr (itemsToJson items)
  | .map entries => .obj (entriesToJson entries)

/-- The values of a list in a document. -/
def itemsToJson : List Value → List Json
  | [] => []
  | value :: rest => toJson value :: itemsToJson rest

/-- The values of a map in a document. -/
def entriesToJson : List (String × Value) → List (String × Json)
  | [] => []
  | (key, value) :: rest => (key, toJson value) :: entriesToJson rest

end

mutual

/-- The value that a document holds. -/
def ofJson : Json → Value
  | .null => .null
  | .bool b => .bool b
  | .int n => if Word.Signed64 n then .int (Int64.ofInt n) else .float (Binary64.ofInt n)
  | .float x => .float x
  | .str s => .str s
  | .arr items => .list (itemsOfJson items)
  | .obj entries => .map (entriesOfJson entries)

/-- The values that a list in a document holds. -/
def itemsOfJson : List Json → List Value
  | [] => []
  | json :: rest => ofJson json :: itemsOfJson rest

/-- The values that an object in a document holds. -/
def entriesOfJson : List (String × Json) → List (String × Value)
  | [] => []
  | (key, json) :: rest => (key, ofJson json) :: entriesOfJson rest

end

theorem itemsToJson_eq_map : ∀ items, itemsToJson items = items.map toJson
  | [] => rfl
  | value :: rest => by rw [itemsToJson, List.map_cons, itemsToJson_eq_map rest]

theorem entriesToJson_eq_map :
    ∀ entries, entriesToJson entries = entries.map fun entry => (entry.1, toJson entry.2)
  | [] => rfl
  | (key, value) :: rest => by rw [entriesToJson, List.map_cons, entriesToJson_eq_map rest]

theorem itemsOfJson_eq_map : ∀ items, itemsOfJson items = items.map ofJson
  | [] => rfl
  | json :: rest => by rw [itemsOfJson, List.map_cons, itemsOfJson_eq_map rest]

theorem entriesOfJson_eq_map :
    ∀ entries, entriesOfJson entries = entries.map fun entry => (entry.1, ofJson entry.2)
  | [] => rfl
  | (key, json) :: rest => by rw [entriesOfJson, List.map_cons, entriesOfJson_eq_map rest]

/-! ### Induction -/

section Induction

variable {motive : Value → Prop}
  (null : motive .null)
  (bool : ∀ b, motive (.bool b))
  (int : ∀ n, motive (.int n))
  (float : ∀ x, motive (.float x))
  (str : ∀ s, motive (.str s))
  (date : ∀ t, motive (.date t))
  (list : ∀ items, (∀ item ∈ items, motive item) → motive (.list items))
  (map : ∀ entries, (∀ entry ∈ entries, motive entry.2) → motive (.map entries))

include null bool int float str date list map in
/-- What holds of a list and of a map as soon as it holds of all values in them holds of every
value. -/
@[elab_as_elim, induction_eliminator]
theorem inductOn : ∀ value : Value, motive value
  | .null => null
  | .bool b => bool b
  | .int n => int n
  | .float x => float x
  | .str s => str s
  | .date t => date t
  | .list items => list items fun item _ => inductOn item
  | .map entries => map entries fun entry _ => inductOn entry.2
decreasing_by
  · have := List.sizeOf_lt_of_mem ‹item ∈ items›
    simp only [Value.list.sizeOf_spec]
    omega
  · have h := List.sizeOf_lt_of_mem ‹entry ∈ entries›
    have : sizeOf entry = 1 + sizeOf entry.1 + sizeOf entry.2 := rfl
    simp only [Value.map.sizeOf_spec]
    omega

end Induction

end Value

end Catalogue
