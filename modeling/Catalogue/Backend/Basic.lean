import Catalogue.Backend.Request
import Catalogue.Backend.Response
import Catalogue.Failure

/-!
# Backends

A backend answers searches and performs commands, and either may change its state and may fail. A
session is the state of a backend together with the log of the calls made so far, each of which is
logged before it can fail. An exchange is a computation that makes calls in a session.
-/

namespace Catalogue

/-- A search engine with states `σ`. -/
structure Backend (σ : Type) where
  /-- Answers a search. -/
  search : Request → σ → Except BackendError Response × σ
  /-- Performs a change. -/
  perform : Command → σ → Except BackendError Unit × σ

/-- A backend in use. -/
structure Session (σ : Type) where
  /-- The state of the backend. -/
  state : σ
  /-- The calls so far, oldest first. -/
  calls : List Call := []

/-- A computation that makes calls and may fail. -/
abbrev Exchange (σ α : Type) := ExceptT Failure (StateM (Session σ)) α

variable {σ α β : Type}

/-- The number of searches in a session. -/
def Session.searches (session : Session σ) : Nat :=
  session.calls.countP fun
    | .search _ => true
    | .command _ => false

namespace Backend

/-- Searches. -/
def ask (b : Backend σ) (request : Request) : Exchange σ Response :=
  ExceptT.mk fun session =>
    let (answer, state) := b.search request session.state
    (answer.mapError Failure.backend, ⟨state, session.calls ++ [.search request]⟩)

/-- Sends a command. -/
def tell (b : Backend σ) (command : Command) : Exchange σ Unit :=
  ExceptT.mk fun session =>
    let (answer, state) := b.perform command session.state
    (answer.mapError Failure.backend, ⟨state, session.calls ++ [.command command]⟩)

end Backend

namespace Exchange

/-- Fails if the schema refuses. -/
def ofSchema (result : Except SchemaError α) : Exchange σ α :=
  ExceptT.mk fun session => (result.mapError Failure.schema, session)

end Exchange

/-! ### What a run leaves -/

theorem Backend.ask_run (b : Backend σ) (request : Request) (session : Session σ) :
    (b.ask request).run.run session =
      ((b.search request session.state).1.mapError Failure.backend,
        ⟨(b.search request session.state).2, session.calls ++ [.search request]⟩) := rfl

theorem Backend.tell_run (b : Backend σ) (command : Command) (session : Session σ) :
    (b.tell command).run.run session =
      ((b.perform command session.state).1.mapError Failure.backend,
        ⟨(b.perform command session.state).2, session.calls ++ [.command command]⟩) := rfl

namespace Exchange

theorem pure_run (a : α) (session : Session σ) :
    (pure a : Exchange σ α).run.run session = (.ok a, session) := rfl

theorem ofSchema_run (result : Except SchemaError α) (session : Session σ) :
    (ofSchema result).run.run session = (result.mapError Failure.schema, session) := rfl

/-- An exchange goes on in the session that its first part leaves, unless that part fails. -/
theorem bind_run (x : Exchange σ α) (f : α → Exchange σ β) (session : Session σ) :
    (x >>= f).run.run session =
      match x.run.run session with
      | (.ok a, session) => (f a).run.run session
      | (.error cause, session) => (.error cause, session) := by
  change ExceptT.bindCont f (x session).1 (x session).2 = _
  rw [show x.run.run session = x session from rfl]
  rcases x session with ⟨_ | _, _⟩ <;> rfl

end Exchange

end Catalogue
