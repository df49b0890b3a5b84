import Catalogue.Query.Operator
import Catalogue.Text.Numeral

/-!
# Why a query is refused

The causes for which a comparison has no meaning in the backend's language, each with the field
and the operator where it arose, and their messages.
-/

namespace Catalogue

/-- A cause for which a query is refused. -/
inductive QueryError where
  /-- The text names no operator. -/
  | unknownOperator (text : String)
  /-- The operator takes another number of values. -/
  | arity (field : String) (operator : Operator) (expected actual : Nat)
  /-- The operator takes a list. -/
  | expectedList (field : String) (operator : Operator)
  /-- The operator takes no list and no object. -/
  | expectedScalar (field : String) (operator : Operator)
  /-- The operator takes a text or a list of texts. -/
  | expectedString (field : String) (operator : Operator)
  /-- The operator does not take null. -/
  | nullValue (field : String) (operator : Operator)
deriving DecidableEq, Repr

namespace QueryError

/-- A comparison as messages quote it. -/
def subject (field : String) (operator : Operator) : String :=
  "`" ++ field ++ " " ++ operator.text ++ "`"

/-- The message of an error. -/
def message : QueryError → String
  | .unknownOperator text => "unknown operator `" ++ text ++ "`"
  | .arity field operator expected actual =>
    subject field operator ++ " expects " ++ String.ofList (Text.digits expected)
      ++ " values, got " ++ String.ofList (Text.digits actual)
  | .expectedList field operator => subject field operator ++ " expects a list"
  | .expectedScalar field operator => subject field operator ++ " expects a single value"
  | .expectedString field operator => subject field operator ++ " expects a string pattern"
  | .nullValue field operator => subject field operator ++ " does not accept null"

end QueryError

end Catalogue
