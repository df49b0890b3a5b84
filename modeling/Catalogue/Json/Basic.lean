import Catalogue.Decimal.Binary64
import Catalogue.Dict

/-!
# JSON values

A number is an integer or a floating point number, and the two are never equal: `1` and `1.0` are
different values. The integers of a backend's JSON run from `-2 ^ 63` to `2 ^ 64 - 1`. An object
keeps its entries in the order in which its keys arrived.
-/

namespace Catalogue

/-- A JSON value. -/
inductive Json where
  /-- The null value. -/
  | null
  /-- A truth value. -/
  | bool (b : Bool)
  /-- An integer. -/
  | int (n : Int)
  /-- A number with a fraction or an exponent, or one too large for an integer. -/
  | float (x : Binary64)
  /-- A text. -/
  | str (s : String)
  /-- A list of values. -/
  | arr (items : List Json)
  /-- Values under text keys. -/
  | obj (entries : List (String × Json))
deriving Inhabited

/-- A JSON object: the fields of a document, the settings of an analyzer, the options of a
field. -/
abbrev Object := Dict Json

namespace Json

/-- The text of a text. -/
def str? : Json → Option String
  | .str s => some s
  | _ => none

/-- The truth value of a truth value. -/
def bool? : Json → Option Bool
  | .bool b => some b
  | _ => none

/-- The items of a list. -/
def arr? : Json → Option (List Json)
  | .arr items => some items
  | _ => none

/-- The entries of an object. -/
def obj? : Json → Option Object
  | .obj entries => some entries
  | _ => none

/-- The value of an integer from `0` up to but not including `bound`. -/
def natBelow? (bound : Nat) : Json → Option Nat
  | .int n => if 0 ≤ n ∧ n < bound then some n.toNat else none
  | _ => none

/-- The value of a number as a floating point number. -/
def float? : Json → Option Binary64
  | .int n => some (Binary64.ofInt n)
  | .float x => some x
  | _ => none

/-- The object with one entry. -/
def single (key : String) (value : Json) : Json :=
  .obj [(key, value)]

/-- The text, or null where there is none. -/
def ofText? : Option String → Json
  | some s => .str s
  | none => .null

/-! ### Induction -/

section Induction

variable {motive : Json → Prop}
  (null : motive .null)
  (bool : ∀ b, motive (.bool b))
  (int : ∀ n, motive (.int n))
  (float : ∀ x, motive (.float x))
  (str : ∀ s, motive (.str s))
  (arr : ∀ items, (∀ item ∈ items, motive item) → motive (.arr items))
  (obj : ∀ entries, (∀ entry ∈ entries, motive entry.2) → motive (.obj entries))

include null bool int float str arr obj in
/-- What holds of a list and of an object as soon as it holds of all values in them holds of every
JSON value. -/
@[elab_as_elim, induction_eliminator]
theorem inductOn : ∀ json : Json, motive json
  | .null => null
  | .bool b => bool b
  | .int n => int n
  | .float x => float x
  | .str s => str s
  | .arr items => arr items fun item _ => inductOn item
  | .obj entries => obj entries fun entry _ => inductOn entry.2
decreasing_by
  · have := List.sizeOf_lt_of_mem ‹item ∈ items›
    simp only [Json.arr.sizeOf_spec]
    omega
  · have h := List.sizeOf_lt_of_mem ‹entry ∈ entries›
    have : sizeOf entry = 1 + sizeOf entry.1 + sizeOf entry.2 := rfl
    simp only [Json.obj.sizeOf_spec]
    omega

end Induction

end Json

end Catalogue
