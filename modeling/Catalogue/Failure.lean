import Catalogue.Backend.Error
import Catalogue.Query.Error
import Catalogue.Registry

/-!
# Failures

All causes for which an operation of a collection fails, each kept as it arose. A panic is not among
them : it is no result of an operation, but breaks it off.
-/

namespace Catalogue

/-- A cause of failure. -/
inductive Failure where
  /-- The query is refused. -/
  | query (cause : QueryError)
  /-- The schema refuses the entity or the scope. -/
  | schema (cause : SchemaError)
  /-- The registry has no schema. -/
  | registry (cause : RegistryError)
  /-- The backend fails. -/
  | backend (cause : BackendError)
deriving DecidableEq, Repr

/-- Why an operation is broken off. -/
inductive Panic where
  /-- A number has left its word. -/
  | overflow
deriving DecidableEq, Repr

/-- The message of the cause. -/
def Failure.message : Failure → String
  | .query cause => cause.message
  | .schema cause => cause.message
  | .registry cause => cause.message
  | .backend cause => cause.message

end Catalogue
