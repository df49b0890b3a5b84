import Catalogue.Proofs.Collection.Contents
import Catalogue.Proofs.Collection.DocumentId

/-!
# Entities of another type

A collection is about entities of one type. Adding an entity of another type is declined or fails,
and asks nothing of the backend (`Collection.add_of_type_ne`). Removing does not look at the type :
it goes by the id alone, and so an entity of another type may delete a document that is not its own.
`Collection.keepsOut_iff` : of the entities of other types exactly those are kept away from the
backend that have no id to go by.

`Collection.afterUpdates_filter_type` is what this comes to over a history : where no entity of
another type has such an id, the updates about them may be left out.
-/

namespace Catalogue

/-! ## Values that are no ids -/

/-- The value is no id : it has no text, or the empty one. -/
def Value.Anonymous : Value → Prop
  | .null => True
  | .str s => s = ""
  | .list _ => True
  | .map _ => True
  | _ => False

/-- The entity has no id to go by. -/
def Schema.Anonymous (s : Schema) (e : Entity) : Prop :=
  ∀ id, s.idOf e = some id → id.Anonymous

theorem Value.filter_toText?_eq_none_iff (value : Value) :
    value.toText?.filter (· ≠ "") = none ↔ value.Anonymous := by
  cases value with
  | null => exact iff_of_true rfl trivial
  | bool b => cases b <;> exact iff_of_false (by decide) id
  | int n => simp [Anonymous, toText?, integer_ne_nil]
  | float x => simp [Anonymous, toText?, floatText_ne_nil]
  | str s => simp [Anonymous, toText?]
  | date t => simp [Anonymous, toText?, rfc3339_ne_empty]
  | list items => exact iff_of_true rfl trivial
  | map entries => exact iff_of_true rfl trivial

namespace Schema

variable {s : Schema} {e : Entity}

theorem removedId_eq_none_iff : s.removedId e = none ↔ s.Anonymous e := by
  unfold removedId Anonymous
  cases s.idOf e with
  | none => exact iff_of_true rfl nofun
  | some id => simpa using id.filter_toText?_eq_none_iff

theorem toDocument_of_type_ne (ht : e.type ≠ s.entityType) :
    s.toDocument e = .error (.typeMismatch s.entityType e.type) := by
  rw [toDocument, checkType, if_neg ht]
  rfl

theorem documentId_of_anonymous (h : s.Anonymous e) :
    s.documentId e = .error (.missingId s.entityType) := by
  rw [documentId_eq, removedId_eq_none_iff.mpr h]

theorem exists_documentId_of_not_anonymous (h : ¬ s.Anonymous e) :
    ∃ text, s.documentId e = .ok text := by
  rw [documentId_eq]
  cases hid : s.removedId e with
  | none => exact absurd (removedId_eq_none_iff.mp hid) h
  | some text => exact ⟨text, rfl⟩

end Schema

/-! ## One entity -/

namespace Collection

variable {σ : Type} (c : Collection) (b : Backend σ) {e : Entity} (session : Session σ)

/-- The entity does not get as far as the backend : adding it is declined or fails for its type, and
removing it fails. -/
structure KeepsOut (e : Entity) : Prop where
  add_run : (c.add b e).run.run session =
    (if c.schema.shouldIndex e then
      .error (.schema (.typeMismatch c.schema.entityType e.type)) else .ok false, session)
  remove_run : ∃ cause, (c.remove b e).run.run session = (.error (.schema cause), session)

theorem add_of_type_ne (ht : e.type ≠ c.schema.entityType) :
    (c.add b e).run.run session =
      (if c.schema.shouldIndex e then
        .error (.schema (.typeMismatch c.schema.entityType e.type)) else .ok false, session) := by
  cases hs : c.schema.shouldIndex e with
  | true =>
    rw [c.add_refused b hs (Schema.toDocument_of_type_ne ht), if_pos rfl]
  | false => exact c.add_declined b hs session

/-- An entity of another type is kept out exactly if it has no id to go by. -/
theorem keepsOut_iff (ht : e.type ≠ c.schema.entityType) :
    c.KeepsOut b session e ↔ c.schema.Anonymous e := by
  constructor
  · rintro ⟨-, cause, hremove⟩
    by_contra h
    obtain ⟨text, htext⟩ := Schema.exists_documentId_of_not_anonymous h
    rw [c.remove_eq b htext] at hremove
    -- With an id there is a call, so the log cannot be what it was.
    have hcalls := congrArg (fun run => run.2.calls) hremove
    exact absurd (List.append_right_eq_self.mp hcalls) nofun
  · intro h
    exact ⟨c.add_of_type_ne b session ht, _,
      c.remove_refused b (Schema.documentId_of_anonymous h) session⟩

/-- An order without an id, and users. -/
theorem keepsOut_unnumbered :
    let c : Collection :=
      { schema :=
          { entityType := "User", fields := [{ name := "name", kind := .string }]
            id := some (Accessor.field "id") } }
    let order : Entity := ⟨"Order", [("id", .list [.str "7"]), ("name", .str "Ada")]⟩
    let session : Session Store := { state := { documents := [("7", [("name", .str "Ada")])] } }
    order.type ≠ c.schema.entityType ∧ c.KeepsOut Store.backend session order := by
  intro c order session
  have ht : order.type ≠ c.schema.entityType := by decide
  refine ⟨ht, (c.keepsOut_iff Store.backend session ht).mpr ?_⟩
  rintro id ⟨⟩
  trivial

/-- Removing an order whose number is that of a user deletes the document of the user. -/
theorem not_keepsOut_numbered :
    let c : Collection :=
      { schema :=
          { entityType := "User", fields := [{ name := "name", kind := .string }]
            id := some (Accessor.field "id") } }
    let order : Entity := ⟨"Order", [("id", .str "7")]⟩
    let session : Session Store := { state := { documents := [("7", [("name", .str "Ada")])] } }
    order.type ≠ c.schema.entityType ∧
      (c.remove Store.backend order).run.run session =
        (.ok (), { state := {}, calls := [.command (.delete "user" "7")] }) ∧
      ¬ c.KeepsOut Store.backend session order := by
  intro c order session
  have hname : c.name = "user" := by decide
  have hremove : (c.remove Store.backend order).run.run session =
      (.ok (), { state := {}, calls := [.command (.delete "user" "7")] }) := by
    rw [c.remove_eq Store.backend (documentId_eq_ok (i := "7") (by decide) rfl), hname]
    rfl
  refine ⟨by decide, hremove, ?_⟩
  rintro ⟨-, cause, hrefused⟩
  exact absurd (hremove.symm.trans hrefused) nofun

/-! ## Histories -/

variable {c} {b}

/-- An update about an entity of another type leaves the session as it is, unless it removes an
entity that has an id. -/
theorem afterUpdate_of_type_ne {u : Update} (ht : u.entity.type ≠ c.schema.entityType)
    (hu : ∀ r, u = .remove r → c.schema.Anonymous r) : c.afterUpdate b session u = session := by
  cases u with
  | add e => rw [afterUpdate, c.add_of_type_ne (e := e) b session ht]
  | remove e =>
    rw [afterUpdate, c.remove_refused b (Schema.documentId_of_anonymous (hu e rfl))]

/-- Where no entity of another type is removed by an id, only the updates about entities of the
type of the collection have an effect. -/
theorem afterUpdates_filter_type {updates : List Update}
    (hu : ∀ r, .remove r ∈ updates → r.type ≠ c.schema.entityType → c.schema.Anonymous r) :
    c.afterUpdates b session (updates.filter fun u => u.entity.type = c.schema.entityType) =
      c.afterUpdates b session updates := by
  induction updates generalizing session with
  | nil => rfl
  | cons u rest ih =>
    have hrest := fun session => ih session fun r hr => hu r (List.mem_cons_of_mem u hr)
    by_cases ht : u.entity.type = c.schema.entityType
    · rw [List.filter_cons_of_pos (by simpa using ht)]
      exact hrest (c.afterUpdate b session u)
    · have hsame : c.afterUpdate b session u = session :=
        afterUpdate_of_type_ne session ht fun r hr =>
          hu r (hr ▸ List.mem_cons_self) fun h => ht (hr ▸ h)
      rw [List.filter_cons_of_neg (by simpa using ht), hrest session]
      change _ = c.afterUpdates b (c.afterUpdate b session u) rest
      rw [hsame]

end Collection

end Catalogue
