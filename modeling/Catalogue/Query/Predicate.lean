import Catalogue.Query.Operator

/-!
# Predicates

What a search asks of a document: comparisons of fields with values, joined by and, or and not. A
fragment in the backend's own language may stand where a comparison may.
-/

namespace Catalogue

/-- A condition on documents. -/
inductive Predicate where
  /-- A field compared with a value. -/
  | compare (field : String) (operator : Operator) (value : Json)
  /-- All conditions hold. -/
  | and (children : List Predicate)
  /-- Some condition holds. -/
  | or (children : List Predicate)
  /-- The condition does not hold. -/
  | not (child : Predicate)
  /-- A condition in the language of the backend. -/
  | raw (fragment : Json)
deriving Inhabited

namespace Predicate

/-- The field has the value. -/
def eq (field : String) (value : Json) : Predicate :=
  .compare field .eq value

/-- The field does not have the value. -/
def ne (field : String) (value : Json) : Predicate :=
  .compare field .ne value

/-- The field is below the value. -/
def lt (field : String) (value : Json) : Predicate :=
  .compare field .lt value

/-- The field is the value or below it. -/
def le (field : String) (value : Json) : Predicate :=
  .compare field .le value

/-- The field is above the value. -/
def gt (field : String) (value : Json) : Predicate :=
  .compare field .gt value

/-- The field is the value or above it. -/
def ge (field : String) (value : Json) : Predicate :=
  .compare field .ge value

/-- The field is from `lo` to `hi`. -/
def between (field : String) (lo hi : Json) : Predicate :=
  .compare field .between (.arr [lo, hi])

/-- The field has one of the values. -/
def oneOf (field : String) (values : List Json) : Predicate :=
  .compare field .oneOf (.arr values)

/-- The field has none of the values. -/
def noneOf (field : String) (values : List Json) : Predicate :=
  .compare field .noneOf (.arr values)

/-- The field matches a pattern, in which `%` is any text and `_` any character. -/
def like (field : String) (pattern : Json) : Predicate :=
  .compare field .like pattern

/-- The field matches a regular expression. -/
def regex (field : String) (pattern : Json) : Predicate :=
  .compare field .regex pattern

/-! ### Induction -/

section Induction

variable {motive : Predicate → Prop}
  (compare : ∀ field operator value, motive (.compare field operator value))
  (and : ∀ children, (∀ child ∈ children, motive child) → motive (.and children))
  (or : ∀ children, (∀ child ∈ children, motive child) → motive (.or children))
  (not : ∀ child, motive child → motive (.not child))
  (raw : ∀ fragment, motive (.raw fragment))

include compare and or not raw in
/-- What holds of a join as soon as it holds of every child holds of every predicate. -/
@[elab_as_elim, induction_eliminator]
theorem inductOn : ∀ p : Predicate, motive p
  | .compare field operator value => compare field operator value
  | .and children => and children fun child _ => inductOn child
  | .or children => or children fun child _ => inductOn child
  | .not child => not child (inductOn child)
  | .raw fragment => raw fragment

end Induction

end Predicate

end Catalogue
