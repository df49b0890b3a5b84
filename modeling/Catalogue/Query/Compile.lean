import Catalogue.Query.Error
import Catalogue.Query.Fragment
import Catalogue.Query.Predicate

/-!
# Compilation

`Predicate.compile` gives the fragment of a predicate. It fails if some comparison in it has no
meaning, with the error of the first such comparison. To be equal to null is to have no value, and
a comparison with a list is one with each of its members.
-/

namespace Catalogue

namespace Operator

/-- The name of a bound in a range. -/
def bound : Operator → String
  | .lt => "lt"
  | .le => "lte"
  | .gt => "gt"
  | _ => "gte"

/-- How many values JSON gives. -/
def valueCount : Json → Nat
  | .null => 0
  | .arr items => items.length
  | _ => 1

/-- The texts of a list of patterns. -/
def patternTexts (field : String) (operator : Operator) :
    List Json → Except QueryError (List String)
  | [] => .ok []
  | .str s :: rest => (patternTexts field operator rest).map (s :: ·)
  | _ :: _ => .error (.expectedString field operator)

/-- The patterns that JSON gives: a text, or a list of texts. -/
def patterns (field : String) (operator : Operator) : Json → Except QueryError (List String)
  | .null => .error (.nullValue field operator)
  | .str s => .ok [s]
  | .arr items => patternTexts field operator items
  | _ => .error (.expectedString field operator)

/-- The fragment for equality. -/
def equal (field : String) (operator : Operator) : Json → Except QueryError Json
  | .null => .ok (Fragment.missing field)
  | .arr items => .ok (Fragment.terms field items)
  | .obj _ => .error (.expectedScalar field operator)
  | scalar => .ok (Fragment.term field scalar)

/-- The fragment for inequality. -/
def unequal (field : String) (operator : Operator) : Json → Except QueryError Json
  | .null => .ok (Fragment.exists_ field)
  | .arr items => .ok (Fragment.negate (Fragment.terms field items))
  | .obj _ => .error (.expectedScalar field operator)
  | scalar => .ok (Fragment.negate (Fragment.term field scalar))

/-- The fragment for one bound. -/
def bounded (field : String) (operator : Operator) : Json → Except QueryError Json
  | .null => .error (.nullValue field operator)
  | .arr _ => .error (.expectedScalar field operator)
  | .obj _ => .error (.expectedScalar field operator)
  | scalar => .ok (Fragment.range field [(operator.bound, scalar)])

/-- The fragment for a pair of bounds. -/
def within (field : String) (operator : Operator) : Json → Except QueryError Json
  | .arr [lo, hi] => .ok (Fragment.range field [("gte", lo), ("lte", hi)])
  | value => .error (.arity field operator 2 (valueCount value))

/-- The fragment for membership. -/
def member (field : String) (operator : Operator) : Json → Except QueryError Json
  | .null => .ok (Fragment.missing field)
  | .arr [] => .ok (Fragment.missing field)
  | .arr items => .ok (Fragment.terms field items)
  | _ => .error (.expectedList field operator)

/-- The fragment for the opposite of membership. -/
def nonmember (field : String) (operator : Operator) : Json → Except QueryError Json
  | .null => .ok (Fragment.exists_ field)
  | .arr [] => .ok (Fragment.exists_ field)
  | .arr items => .ok (Fragment.negate (Fragment.terms field items))
  | _ => .error (.expectedList field operator)

/-- The fragment for a test by patterns, of which one has to match. -/
def matching (field : String) (operator : Operator) (test : String → Json) (value : Json) :
    Except QueryError Json :=
  (patterns field operator value).map fun texts => Fragment.any (texts.map test)

/-- The fragment that compares a field with a value. -/
def comparison (field : String) (operator : Operator) (value : Json) : Except QueryError Json :=
  match operator with
  | .eq => equal field operator value
  | .ne => unequal field operator value
  | .lt => bounded field operator value
  | .le => bounded field operator value
  | .gt => bounded field operator value
  | .ge => bounded field operator value
  | .between => within field operator value
  | .oneOf => member field operator value
  | .noneOf => nonmember field operator value
  | .like => matching field operator (fun pattern => Fragment.like field pattern.toList) value
  | .regex => matching field operator (Fragment.regexp field) value

end Operator

namespace Predicate

mutual

/-- The fragment of a predicate, or the first error in it. -/
def compile : Predicate → Except QueryError Json
  | .compare field operator value => operator.comparison field value
  | .and children => (compileAll children).map Fragment.all
  | .or children => (compileAll children).map Fragment.any
  | .not child => (compile child).map Fragment.negate
  | .raw fragment => .ok fragment

/-- The fragments of a list of predicates, or the first error in it. -/
def compileAll : List Predicate → Except QueryError (List Json)
  | [] => .ok []
  | child :: rest =>
    match compile child with
    | .ok fragment => (compileAll rest).map (fragment :: ·)
    | .error e => .error e

end

/-- The comparison with an operator as a person writes it. -/
def parse (field operator : String) (value : Json) : Except QueryError Predicate :=
  match Operator.read? operator with
  | some op => .ok (.compare field op value)
  | none => .error (.unknownOperator operator)

end Predicate

end Catalogue
