import Catalogue.Collection

/-!
# The calls of adding and removing

Adding an entity sends one command or none, and so does removing one. Which command it is depends on
the schema alone, and the session goes on as the backend leaves it.
-/

namespace Catalogue

variable {σ : Type}

/-- The session after a command, whether it succeeds or not. -/
def Session.told (b : Backend σ) (session : Session σ) (command : Command) : Session σ :=
  ⟨(b.perform command session.state).2, session.calls ++ [.command command]⟩

@[simp] theorem Session.calls_told (b : Backend σ) (session : Session σ) (command : Command) :
    (session.told b command).calls = session.calls ++ [.command command] := rfl

namespace Collection

variable (c : Collection) (b : Backend σ)

/-- An entity that does not belong in the index is passed over. -/
theorem add_declined {e : Entity} (h : c.schema.shouldIndex e = false) (session : Session σ) :
    (c.add b e).run.run session = (.ok false, session) := by
  rw [add, if_neg (by simp [h]), Exchange.pure_run]

/-- An entity of which there is no document is not added, and nothing is asked of the backend. -/
theorem add_refused {e : Entity} {cause : SchemaError} (h : c.schema.shouldIndex e = true)
    (hd : c.schema.toDocument e = .error cause) (session : Session σ) :
    (c.add b e).run.run session = (.error (.schema cause), session) := by
  rw [add, if_pos h, hd, Exchange.bind_run, Exchange.ofSchema_run]
  rfl

theorem add_eq {e : Entity} {d : Document} (h : c.schema.shouldIndex e = true)
    (hd : c.schema.toDocument e = .ok d) (session : Session σ) :
    (c.add b e).run.run session =
      (((b.perform (c.storing d) session.state).1.mapError Failure.backend).map fun _ => true,
        session.told b (c.storing d)) := by
  have hdocument :
      (Except.ok d : Except SchemaError Document).mapError Failure.schema = .ok d := rfl
  rw [add, if_pos h, hd, Exchange.bind_run, Exchange.ofSchema_run, hdocument]
  simp only
  rw [Exchange.bind_run, Backend.tell_run]
  cases (b.perform (c.storing d) session.state).1 <;> rfl

/-- An entity without an id is not removed, and nothing is asked of the backend. -/
theorem remove_refused {e : Entity} {cause : SchemaError}
    (h : c.schema.documentId e = .error cause) (session : Session σ) :
    (c.remove b e).run.run session = (.error (.schema cause), session) := by
  rw [remove, h, Exchange.bind_run, Exchange.ofSchema_run]
  rfl

theorem remove_eq {e : Entity} {id : String} (h : c.schema.documentId e = .ok id)
    (session : Session σ) :
    (c.remove b e).run.run session =
      ((b.perform (.delete c.name id) session.state).1.mapError Failure.backend,
        session.told b (.delete c.name id)) := by
  rw [remove, h, Exchange.bind_run, Exchange.ofSchema_run]
  rfl

end Collection

end Catalogue
