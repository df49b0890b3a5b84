import Catalogue.Proofs.Collection.Calls
import Catalogue.Proofs.Schema.RoundTrip
import Mathlib.Data.List.Forall2

/-!
# How far a refresh gets

A refresh adds the listed entities one by one and stops at the first failure. `Collection.Stores`
says with which command an entity is sent, `Document.StoredUnder` under which id, and
`Collection.FirstFailure` what can stop a run that has sent some commands.
`Collection.refreshAll_prefix` : whatever the backend answers, a refresh sends the commands of the
first few of the entities that belong in the index, in their order. It gives their number if nothing
fails, and else the first failure as it arose.

The ways in which one more entity can go are `Collection.addAll_declined`,
`Collection.addAll_refused`, `Collection.addAll_failed` and `Collection.addAll_added`.
-/

namespace Catalogue

variable {σ : Type}

/-! ## Commands in a row -/

namespace Backend

variable (b : Backend σ)

/-- The state after commands, whether they succeed or not. -/
def after (state : σ) (commands : List Command) : σ :=
  commands.foldl (fun state command => (b.perform command state).2) state

/-- Each of the commands succeeds in the state that those before it leave. -/
def Performs : σ → List Command → Prop
  | _, [] => True
  | state, command :: rest =>
    (b.perform command state).1 = .ok () ∧ Performs (b.perform command state).2 rest

theorem performs_append (state : σ) (commands later : List Command) :
    b.Performs state (commands ++ later) ↔
      b.Performs state commands ∧ b.Performs (b.after state commands) later := by
  induction commands generalizing state with
  | nil => exact (iff_of_eq (true_and _)).symm
  | cons command rest ih =>
    rw [List.cons_append, Performs, Performs, ih, and_assoc]
    rfl

end Backend

/-! ## The command of an entity -/

/-- The id under which a document is stored, for what the document has under the key of the id. A
text is the id itself, and anything else but null has the id that it is in JSON. -/
inductive Document.StoredUnder : Option Json → Option String → Prop
  | absent : StoredUnder none none
  | null : StoredUnder (some .null) none
  | text (text : String) : StoredUnder (some (.str text)) (some text)
  | other (id : Json) (hnull : id ≠ .null) (htext : ∀ text, id ≠ .str text) :
      StoredUnder (some id) (some id.compact)

theorem Document.storedUnder_idText (id : Option Json) :
    StoredUnder id (id.bind Document.idText?) := by
  cases id with
  | none => exact .absent
  | some id =>
    cases id with
    | null => exact .null
    | str text => exact .text text
    | _ => exact .other _ nofun nofun

namespace Collection

variable (c : Collection) (b : Backend σ)

/-- The command stores what the document of the entity has under other keys than that of the id,
and the id goes apart. -/
def Stores (e : Entity) (command : Command) : Prop :=
  ∃ d fields id, c.schema.toDocument e = .ok d ∧
    fields.Perm (d.filter fun entry => entry.1 ≠ Document.idKey) ∧
    Document.StoredUnder (Dict.get? d Document.idKey) id ∧ command = .index c.name id fields

theorem stores_storing {e : Entity} {d : Document} (h : c.schema.toDocument e = .ok d) :
    c.Stores e (c.storing d) :=
  ⟨d, d.erase Document.idKey, _, h, Dict.perm_erase (Schema.nodup_keys_of_toDocument_eq_ok h) _,
    Document.storedUnder_idText _, rfl⟩

/-! ## One entity more -/

theorem addAll_declined {e : Entity} (h : c.schema.shouldIndex e = false) (rest : List Entity)
    (session : Session σ) :
    (c.addAll b (e :: rest)).run.run session = (c.addAll b rest).run.run session := by
  rw [addAll, Exchange.bind_run, c.add_declined b h]
  simp only
  rw [Exchange.bind_run]
  rcases (c.addAll b rest).run.run session with ⟨_ | count, later⟩ <;> rfl

theorem addAll_refused {e : Entity} (h : c.schema.shouldIndex e = true) {cause : SchemaError}
    (hd : c.schema.toDocument e = .error cause) (rest : List Entity) (session : Session σ) :
    (c.addAll b (e :: rest)).run.run session = (.error (.schema cause), session) := by
  rw [addAll, Exchange.bind_run, c.add_refused b h hd]

theorem addAll_failed {e : Entity} (h : c.schema.shouldIndex e = true) {d : Document}
    (hd : c.schema.toDocument e = .ok d) {session : Session σ} {cause : BackendError}
    (hb : (b.perform (c.storing d) session.state).1 = .error cause) (rest : List Entity) :
    (c.addAll b (e :: rest)).run.run session =
      (.error (.backend cause), session.told b (c.storing d)) := by
  rw [addAll, Exchange.bind_run, c.add_eq b h hd, hb]
  rfl

theorem addAll_added {e : Entity} (h : c.schema.shouldIndex e = true) {d : Document}
    (hd : c.schema.toDocument e = .ok d) {session : Session σ}
    (hb : (b.perform (c.storing d) session.state).1 = .ok ()) (rest : List Entity) :
    (c.addAll b (e :: rest)).run.run session =
      let later := (c.addAll b rest).run.run (session.told b (c.storing d))
      (later.1.map (· + 1), later.2) := by
  rw [addAll, Exchange.bind_run, c.add_eq b h hd, hb]
  simp only [Except.mapError, Except.map]
  rw [Exchange.bind_run]
  rcases (c.addAll b rest).run.run _ with ⟨_ | count, later⟩ <;> rfl

/-! ## The whole run -/

variable {c} {b}

/-- The failure is the first one of a run that sends these commands and leaves the entities in
`rest` without. -/
inductive FirstFailure (c : Collection) (b : Backend σ) (state : σ) (commands : List Command)
    (rest : List Entity) : Failure → Prop
  /-- The last command fails. -/
  | backend {before : List Command} {last : Command} {cause : BackendError}
    (hcommands : commands = before ++ [last]) (hbefore : b.Performs state before)
    (hlast : (b.perform last (b.after state before)).1 = .error cause) :
    FirstFailure c b state commands rest (.backend cause)
  /-- All commands succeed, and there is no document of the next entity. -/
  | schema {next : Entity} {later : List Entity} {cause : SchemaError}
    (hcommands : b.Performs state commands) (hrest : rest = next :: later)
    (hnext : c.schema.toDocument next = .error cause) :
    FirstFailure c b state commands rest (.schema cause)

theorem FirstFailure.cons {state : σ} {command : Command} {commands : List Command}
    {rest : List Entity} {failure : Failure} (hb : (b.perform command state).1 = .ok ())
    (h : c.FirstFailure b (b.perform command state).2 commands rest failure) :
    c.FirstFailure b state (command :: commands) rest failure := by
  cases h with
  | @backend before last cause hcommands hbefore hlast =>
    have hperforms : b.Performs state (command :: before) := ⟨hb, hbefore⟩
    exact .backend (congrArg (command :: ·) hcommands) hperforms hlast
  | schema hcommands hrest hnext => exact .schema ⟨hb, hcommands⟩ hrest hnext

/-- If the last command fails, not all commands succeed. -/
theorem not_performs_of_last {state : σ} {before : List Command} {last : Command}
    {cause : BackendError} (h : (b.perform last (b.after state before)).1 = .error cause) :
    ¬ b.Performs state (before ++ [last]) := by
  rw [b.performs_append, Backend.Performs, h]
  exact fun hall => absurd hall.2.1 nofun

theorem FirstFailure.unique {state : σ} {commands : List Command} {rest : List Entity}
    {failure other : Failure} (h : c.FirstFailure b state commands rest failure)
    (h' : c.FirstFailure b state commands rest other) : failure = other := by
  cases h with
  | backend hcommands _ hlast =>
    subst hcommands
    cases h' with
    | backend hcommands' _ hlast' =>
      obtain ⟨rfl, hsame⟩ := List.append_inj' hcommands' rfl
      obtain rfl := List.singleton_inj.mp hsame
      rw [Except.error.inj (hlast.symm.trans hlast')]
    | schema hall => exact absurd hall (not_performs_of_last hlast)
  | schema hall hrest hnext =>
    cases h' with
    | backend hcommands _ hlast => exact absurd (hcommands ▸ hall) (not_performs_of_last hlast)
    | schema _ hrest' hnext' =>
      obtain ⟨rfl, -⟩ := List.cons.inj (hrest.symm.trans hrest')
      rw [Except.error.inj (hnext.symm.trans hnext')]

theorem FirstFailure.not_performs {state : σ} {commands : List Command} {rest : List Entity}
    {failure : Failure} (h : c.FirstFailure b state commands rest failure) :
    ¬ (rest = [] ∧ b.Performs state commands) := by
  rintro ⟨hnil, hall⟩
  cases h with
  | backend hcommands _ hlast => exact not_performs_of_last hlast (hcommands ▸ hall)
  | schema _ hrest _ => exact List.cons_ne_nil _ _ (hrest.symm.trans hnil)

/-- A run sends the commands of the first few entities that belong in the index, and counts them
unless it ends in a failure. -/
theorem addAll_run (c : Collection) (b : Backend σ) (entities : List Entity)
    (session : Session σ) :
    ∃ stored rest commands, entities.filter c.schema.shouldIndex = stored ++ rest ∧
      List.Forall₂ c.Stores stored commands ∧
      ((c.addAll b entities).run.run session).2 =
        ⟨b.after session.state commands, session.calls ++ commands.map .command⟩ ∧
      (((c.addAll b entities).run.run session).1 = .ok commands.length ∧ rest = [] ∧
          b.Performs session.state commands ∨
        ∃ failure, ((c.addAll b entities).run.run session).1 = .error failure ∧
          c.FirstFailure b session.state commands rest failure) := by
  induction entities generalizing session with
  | nil =>
    refine ⟨[], [], [], rfl, .nil, ?_, .inl ⟨rfl, rfl, trivial⟩⟩
    rw [addAll, Exchange.pure_run]
    simp [Backend.after]
  | cons e entities ih =>
    cases hbelongs : c.schema.shouldIndex e with
    | false =>
      rw [c.addAll_declined b hbelongs, List.filter_cons_of_neg (by simp [hbelongs])]
      exact ih session
    | true =>
      rw [List.filter_cons_of_pos hbelongs]
      cases hd : c.schema.toDocument e with
      | error cause =>
        rw [c.addAll_refused b hbelongs hd]
        exact ⟨[], _, [], rfl, .nil, by simp [Backend.after], .inr ⟨_, rfl, .schema trivial rfl hd⟩⟩
      | ok d =>
        cases hb : (b.perform (c.storing d) session.state).1 with
        | error cause =>
          rw [c.addAll_failed b hbelongs hd hb]
          exact ⟨[e], _, [c.storing d], rfl, .cons (c.stores_storing hd) .nil, rfl,
            .inr ⟨_, rfl, .backend (List.nil_append _).symm trivial hb⟩⟩
        | ok =>
          obtain ⟨stored, rest, commands, hfilter, hstores, hsession, hanswer⟩ :=
            ih (session.told b (c.storing d))
          rw [c.addAll_added b hbelongs hd hb]
          refine ⟨e :: stored, rest, c.storing d :: commands, by rw [hfilter, List.cons_append],
            .cons (c.stores_storing hd) hstores, ?_, ?_⟩
          · refine hsession.trans ?_
            rw [Session.calls_told, List.append_assoc]
            rfl
          · rcases hanswer with ⟨hok, hrest, hperforms⟩ | ⟨failure, herror, hfirst⟩
            · refine .inl ⟨?_, hrest, hb, hperforms⟩
              simp only [hok]
              rfl
            · refine .inr ⟨failure, ?_, hfirst.cons hb⟩
              simp only [herror]
              rfl

/-- For any list of entities, any test for those that belong in the index and any backend, a
refresh sends one command for each of the first few entities that belong, in their order, and no
other. It gives the number of commands exactly if they are the commands of all these entities and
all succeed. Otherwise it gives the first failure as it arose : that of its last command, or that of
the entity for which the next command would have been. -/
theorem refreshAll_prefix (c : Collection) (b : Backend σ) (session : Session σ) :
    let run := (c.refreshAll b).run.run session
    ∃ stored rest commands,
      (c.schema.listing.getD []).filter c.schema.shouldIndex = stored ++ rest ∧
      List.Forall₂ c.Stores stored commands ∧
      run.2 = ⟨b.after session.state commands, session.calls ++ commands.map .command⟩ ∧
      (∀ n, run.1 = .ok n ↔ n = commands.length ∧ rest = [] ∧ b.Performs session.state commands) ∧
      ∀ failure, run.1 = .error failure ↔
        c.FirstFailure b session.state commands rest failure := by
  intro run
  obtain ⟨stored, rest, commands, hfilter, hstores, hsession, hanswer⟩ :=
    c.addAll_run b (c.schema.listing.getD []) session
  refine ⟨stored, rest, commands, hfilter, hstores, hsession, ?_⟩
  rcases hanswer with ⟨hok, hrest, hperforms⟩ | ⟨failure, herror, hfirst⟩
  · have hrun : run.1 = .ok commands.length := hok
    refine ⟨fun n => ?_, fun failure => ?_⟩
    · rw [hrun, Except.ok.injEq, and_iff_left ⟨hrest, hperforms⟩, eq_comm]
    · rw [hrun]
      exact iff_of_false nofun fun h => h.not_performs ⟨hrest, hperforms⟩
  · have hrun : run.1 = .error failure := herror
    refine ⟨fun n => ?_, fun other => ?_⟩
    · rw [hrun]
      exact iff_of_false nofun fun h => hfirst.not_performs h.2
    · rw [hrun, Except.error.injEq]
      exact ⟨fun h => h ▸ hfirst, hfirst.unique⟩

end Collection

end Catalogue
