import Catalogue.Backend.Store

/-!
# A backend for rehearsals

A store in memory whose answers to searches may be given beforehand, and whose calls may be made
to fail from some call on. A call that fails has no effect and uses up no prepared answer.
-/

namespace Catalogue

/-- The kinds of calls. -/
inductive Method where
  /-- A search. -/
  | search
  /-- Storing a document. -/
  | index
  /-- Deleting a document. -/
  | delete
  /-- Creating an index. -/
  | createIndex
  /-- Deleting an index. -/
  | deleteIndex
deriving DecidableEq, Repr

/-- The kind of a command. -/
def Command.method : Command → Method
  | .index _ _ _ => .index
  | .delete _ _ => .delete
  | .createIndex _ _ => .createIndex
  | .deleteIndex _ => .deleteIndex

/-- A failure that is reported from some call of a kind on. -/
structure Fault where
  /-- The kind of calls that fail. -/
  method : Method
  /-- The status of the failure. -/
  status : Nat
  /-- The text of the failure. -/
  text : String
  /-- The number of the first call that fails, counted from one. -/
  fromCall : Nat := 1

/-- An answer prepared for a search. -/
inductive Reply where
  /-- An answer in JSON. -/
  | body (body : Json)
  /-- A failure. -/
  | refusal (status : Nat) (text : String)

/-- A store with prepared answers and failures. -/
structure Rehearsal where
  /-- The documents. -/
  store : Store := {}
  /-- The answers to the next searches, if the store does not answer itself. -/
  script : Option (List Reply) := none
  /-- The failures. -/
  faults : List Fault := []
  /-- The kinds of the calls so far, latest first. -/
  made : List Method := []

namespace Rehearsal

/-- The failure of the next call of a kind, if it fails. -/
def fault? (r : Rehearsal) (method : Method) : Option BackendError :=
  (r.faults.find? fun fault =>
    fault.method = method ∧ fault.fromCall ≤ r.made.count method + 1).map
      fun fault => .ofStatus fault.status fault.text

/-- The rehearsal after one more call of a kind. -/
def record (r : Rehearsal) (method : Method) : Rehearsal :=
  { r with made := method :: r.made }

/-- What a prepared answer gives. -/
def Reply.result : Reply → Except BackendError Response
  | .body body => Response.ofJson body
  | .refusal status text => .error (.ofStatus status text)

/-- The answer to a search. A script that is used up gives empty answers. -/
def answer (r : Rehearsal) (request : Request) : Except BackendError Response × Rehearsal :=
  match r.script with
  | none => (Response.ofJson (r.store.answer request), r)
  | some [] => (Response.ofJson (.obj []), r)
  | some (reply :: rest) => (Reply.result reply, { r with script := some rest })

/-- The rehearsal as a backend. -/
def backend : Backend Rehearsal where
  search request r :=
    match r.fault? .search with
    | some e => (.error e, r.record .search)
    | none => (r.record .search).answer request
  perform command r :=
    match r.fault? command.method with
    | some e => (.error e, r.record command.method)
    | none => (.ok (), { r.record command.method with store := r.store.apply command })

end Rehearsal

end Catalogue
