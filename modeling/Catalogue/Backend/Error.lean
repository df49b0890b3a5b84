/-!
# Failures of the backend

The backend answers a request with a status when it cannot serve it. A failure is transient if the
same request may succeed later.
-/

namespace Catalogue

/-- A failure of the backend, with what it said. -/
inductive BackendError where
  /-- No node is there to serve the request. -/
  | noNodesAvailable (text : String)
  /-- The request is at fault. -/
  | badRequest (text : String)
  /-- The backend is at fault. -/
  | serverError (text : String)
  /-- The answer cannot be understood. -/
  | malformedResponse (text : String)
deriving DecidableEq, Repr

namespace BackendError

/-- The failure that a status reports. -/
def ofStatus (status : Nat) (text : String) : BackendError :=
  if status = 503 then .noNodesAvailable text
  else if 400 ≤ status ∧ status ≤ 499 then .badRequest text
  else .serverError text

/-- Whether the same request may succeed later. -/
def isTransient : BackendError → Bool
  | .noNodesAvailable _ => true
  | .badRequest _ => false
  | .serverError _ => true
  | .malformedResponse _ => false

/-- The message of a failure. -/
def message : BackendError → String
  | .noNodesAvailable text => "no search node available: " ++ text
  | .badRequest text => "backend rejected the request: " ++ text
  | .serverError text => "backend failure: " ++ text
  | .malformedResponse text => "malformed backend response: " ++ text

end BackendError

end Catalogue
