import Catalogue.Backend.Store
import Catalogue.Proofs.Collection.Calls
import Catalogue.Proofs.Decimal.PlainText
import Catalogue.Proofs.Schema.RoundTrip

/-!
# The id of a document when it is stored and when it is deleted

Adding an entity stores a document under the text that JSON gives its id, and removing the entity
deletes the document under the plain text of the id. `Value.OneIdText` names the ids for which the
two texts are the same, and `Schema.OneDocumentId` the entities. `Collection.agreesOnId_iff` : for
these entities, and for no others, removing deletes the document that adding stored.
-/

namespace Catalogue

/-! ## The two texts of an id -/

namespace Value

theorem floatText_ne_nil (x : Binary64) : floatText x ≠ [] := by
  intro h
  unfold floatText at h
  simp only at h
  split at h
  · exact absurd h nofun
  · split at h
    · exact absurd (List.append_eq_nil_iff.mp h).2 nofun
    · split at h
      · exact absurd (List.append_eq_nil_iff.mp h).2 nofun
      · exact Decimal.positional_ne_nil _ (List.append_eq_nil_iff.mp h).2

theorem integer_ne_nil (n : Int) : Text.integer n ≠ [] := by
  unfold Text.integer
  split
  · exact List.cons_ne_nil _ _
  · exact Text.digits_ne_nil _

theorem rfc3339_ne_empty (t : Instant) : t.rfc3339 ≠ "" := by
  rw [Instant.rfc3339, Ne, String.ofList_eq_empty_iff]
  simp [Instant.rfc3339Chars]

/-- The ids that have the same text in JSON and as plain text, where the empty text is none. -/
def OneIdText : Value → Prop
  | .float x => x.isFinite ∧ x.SameText
  | .str s => s ≠ ""
  | .list _ => False
  | .map _ => False
  | _ => True

/-- The text under which a document is stored is the one under which it is deleted exactly for the
ids of `OneIdText`. -/
theorem idText?_toJson_eq_iff (id : Value) :
    Document.idText? id.toJson = id.toText?.filter (· ≠ "") ↔ id.OneIdText := by
  cases id with
  | null => exact iff_of_true rfl trivial
  | bool b => cases b <;> exact iff_of_true (by decide) trivial
  | int n =>
    refine iff_of_true ?_ trivial
    simp [toJson, toText?, Document.idText?, Json.compact, Json.compactChars, Option.filter,
      integer_ne_nil]
  | float x =>
    by_cases h : x.isFinite
    · rw [OneIdText, and_iff_right h, ← Json.floatText_eq_iff h]
      simp [toJson, toText?, Document.idText?, Json.compact, Json.compactChars, Option.filter,
        floatText_ne_nil, h, String.ofList_inj]
    · refine iff_of_false ?_ (fun hid => h hid.1)
      simp [toJson, toText?, Document.idText?, Option.filter, floatText_ne_nil, h]
  | str s =>
    by_cases h : s = ""
    · refine iff_of_false ?_ (fun hid => hid h)
      simp [toJson, toText?, Document.idText?, Option.filter, h]
    · refine iff_of_true ?_ h
      simp [toJson, toText?, Document.idText?, Option.filter, h]
  | date t =>
    refine iff_of_true ?_ trivial
    simp [toJson, toText?, Document.idText?, Option.filter, rfc3339_ne_empty]
  | list items =>
    refine iff_of_false (fun h => ?_) id
    simp [toJson, toText?, Document.idText?] at h
  | map entries =>
    refine iff_of_false (fun h => ?_) id
    simp [toJson, toText?, Document.idText?] at h

end Value

/-! ## The ids that the calls carry -/

namespace Schema

variable (s : Schema)

/-- The id under which the document of an entity is stored. -/
def addedId (e : Entity) : Option String :=
  match s.storedId e with
  | some id => Document.idText? id.toJson
  | none => (Dict.get? (s.storedFields e) Document.idKey).bind Document.idText?

/-- The id under which the document of an entity is deleted. -/
def removedId (e : Entity) : Option String :=
  ((s.idOf e).bind Value.toText?).filter (· ≠ "")

/-- The document of an entity has one id : its text is the same both ways, or there is no id and no
property takes its place. -/
def OneDocumentId (e : Entity) : Prop :=
  match s.storedId e with
  | some id => id.OneIdText
  | none => ∀ wire, Dict.get? (s.storedFields e) Document.idKey = some wire → wire = .null

theorem exists_toDocument {e : Entity} (ht : e.type = s.entityType) :
    ∃ d, s.toDocument e = .ok d ∧ (Dict.get? d Document.idKey).bind Document.idText? =
      s.addedId e := by
  rw [toDocument, checkType, if_pos ht, Except.map, addedId, storedId]
  refine ⟨_, rfl, ?_⟩
  cases (s.idOf e).filter (!·.isNull) with
  | none => rfl
  | some id => rw [Dict.get?_insert, if_pos rfl, Option.bind_some]

theorem documentId_eq (e : Entity) :
    s.documentId e = match s.removedId e with
      | some text => .ok text
      | none => .error (.missingId s.entityType) := rfl

theorem idText?_eq_none_iff (wire : Json) : Document.idText? wire = none ↔ wire = .null := by
  cases wire <;> simp [Document.idText?]

theorem addedId_eq_removedId_iff (e : Entity) :
    s.addedId e = s.removedId e ↔ s.OneDocumentId e := by
  unfold addedId removedId OneDocumentId
  cases h : s.storedId e with
  | some id =>
    obtain ⟨hid, -⟩ := (s.storedId_eq_some_iff e id).mp h
    rw [hid, Option.bind_some]
    exact id.idText?_toJson_eq_iff
  | none =>
    have hnone : ((s.idOf e).bind Value.toText?).filter (· ≠ "") = none := by
      unfold storedId at h
      cases hid : s.idOf e with
      | none => rfl
      | some id =>
        cases id with
        | null => rfl
        | _ => simp [hid, Option.filter, Value.isNull] at h
    rw [hnone, Option.bind_eq_none_iff]
    exact forall₂_congr fun wire _ => idText?_eq_none_iff wire

end Schema

namespace Collection

variable {σ : Type}

/-- Removing an entity deletes the document with an id, or fails without a call for want of an
id. -/
def RemovesUnder (c : Collection) (b : Backend σ) (e : Entity) (session : Session σ) :
    Option String → Prop
  | some text =>
    ((c.remove b e).run.run session).2.calls =
      session.calls ++ [.command (.delete c.name text)]
  | none =>
    (c.remove b e).run.run session = (.error (.schema (.missingId c.schema.entityType)), session)

/-- Whatever id goes with the document that adding an entity stores, removing the entity goes by
the same id. The two calls may come at any times. -/
def AgreesOnId (c : Collection) (b : Backend σ) (e : Entity) (session later : Session σ) : Prop :=
  ∀ id document, ((c.add b e).run.run session).2.calls =
      session.calls ++ [.command (.index c.name id document)] →
    c.RemovesUnder b e later id

theorem append_command_inj {calls : List Call} {command other : Command} :
    calls ++ [.command command] = calls ++ [.command other] ↔ command = other := by
  rw [List.append_right_inj, List.singleton_inj, Call.command.injEq]

theorem exists_calls_add (c : Collection) (b : Backend σ) {e : Entity}
    (ht : e.type = c.schema.entityType) (hs : c.schema.shouldIndex e) (session : Session σ) :
    ∃ document, ((c.add b e).run.run session).2.calls =
      session.calls ++ [.command (.index c.name (c.schema.addedId e) document)] := by
  obtain ⟨d, hd, hid⟩ := c.schema.exists_toDocument ht
  rw [c.add_eq b hs hd, ← hid]
  exact ⟨_, rfl⟩

theorem removesUnder_iff (c : Collection) (b : Backend σ) (e : Entity) (session : Session σ)
    (id : Option String) : c.RemovesUnder b e session id ↔ id = c.schema.removedId e := by
  have hdocument := c.schema.documentId_eq e
  cases hr : c.schema.removedId e with
  | none =>
    rw [hr] at hdocument
    have hrun := c.remove_refused b hdocument session
    cases id with
    | none => exact iff_of_true hrun rfl
    | some text =>
      refine iff_of_false (fun h => ?_) nofun
      rw [RemovesUnder, hrun] at h
      exact absurd (List.self_eq_append_right.mp h) nofun
  | some removed =>
    rw [hr] at hdocument
    have hrun := c.remove_eq b hdocument session
    cases id with
    | none =>
      refine iff_of_false (fun h => ?_) nofun
      rw [RemovesUnder, hrun] at h
      have hcalls := congrArg (fun run => run.2.calls) h
      exact absurd (List.append_right_eq_self.mp hcalls) nofun
    | some text =>
      rw [RemovesUnder, hrun, Session.calls_told, append_command_inj, Command.delete.injEq,
        Option.some_inj, and_iff_right rfl, eq_comm]

/-- Adding and removing agree on the id of an entity exactly if its document has one id. -/
theorem agreesOnId_iff (c : Collection) (b : Backend σ) (e : Entity)
    (ht : e.type = c.schema.entityType) (hs : c.schema.shouldIndex e)
    (session later : Session σ) :
    c.AgreesOnId b e session later ↔ c.schema.OneDocumentId e := by
  obtain ⟨stored, hstored⟩ := c.exists_calls_add b ht hs session
  rw [← c.schema.addedId_eq_removedId_iff e, ← c.removesUnder_iff b e later]
  constructor
  · intro h
    exact h _ stored hstored
  · intro h id document hcalls
    rw [hstored, append_command_inj, Command.index.injEq] at hcalls
    obtain ⟨-, rfl, -⟩ := hcalls
    exact h

/-- A user whose id is a number with a fraction. -/
theorem agreesOnId_fraction :
    let c : Collection :=
      { schema :=
          { entityType := "User", fields := [{ name := "name", kind := .string }]
            id := some (Accessor.field "id") } }
    let e : Entity := ⟨"User", [("id", .float ⟨0x4004000000000000⟩), ("name", .str "Ada")]⟩
    let session : Session Store := { state := {} }
    e.type = c.schema.entityType ∧ c.schema.shouldIndex e ∧
      c.AgreesOnId Store.backend e session session := by
  intro c e session
  have hid : (Value.float ⟨0x4004000000000000⟩).OneIdText := by
    unfold Value.OneIdText
    decide +kernel
  exact ⟨rfl, rfl, (c.agreesOnId_iff Store.backend e rfl rfl session session).mpr hid⟩

/-- The document of a user whose id is the number two is stored under one text, and another one is
deleted. -/
theorem not_agreesOnId_two :
    let c : Collection :=
      { schema :=
          { entityType := "User", fields := [{ name := "name", kind := .string }]
            id := some (Accessor.field "id") } }
    let e : Entity := ⟨"User", [("id", .float ⟨0x4000000000000000⟩), ("name", .str "Ada")]⟩
    let session : Session Store := { state := {} }
    e.type = c.schema.entityType ∧ c.schema.shouldIndex e ∧
      ((c.add Store.backend e).run.run session).2.calls =
        [.command (.index "user" (some "2.0") [("name", .str "Ada")])] ∧
      ((c.remove Store.backend e).run.run session).2.calls = [.command (.delete "user" "2")] ∧
      ¬ c.AgreesOnId Store.backend e session session := by
  intro c e session
  have hname : c.name = "user" := by decide
  have hstored : Document.idText? (.float ⟨0x4000000000000000⟩) = some "2.0" := by decide +kernel
  have hdeleted : c.schema.removedId e = some "2" := by decide +kernel
  have hadd : ((c.add Store.backend e).run.run session).2.calls =
      [.command (.index "user" (some "2.0") [("name", .str "Ada")])] := by
    rw [c.add_eq Store.backend rfl rfl, ← hname, ← hstored]
    rfl
  have hremove : ((c.remove Store.backend e).run.run session).2.calls =
      [.command (.delete "user" "2")] := by
    rw [c.remove_eq Store.backend (by rw [c.schema.documentId_eq, hdeleted]), ← hname]
    rfl
  refine ⟨rfl, rfl, hadd, hremove, fun h => ?_⟩
  have hagree := h (some "2.0") [("name", .str "Ada")] (by rw [hadd, hname]; rfl)
  rw [RemovesUnder, hremove, hname] at hagree
  have hcommand := Call.command.inj (List.singleton_inj.mp hagree)
  exact absurd (Command.delete.inj hcommand).2 (by decide)

end Collection

end Catalogue
