import Catalogue.Backend.Response

/-!
# What a document reaches

`Schema.ofDocument_frame` : of any document, and for any schema whose blank entity has the right
type, an entity is made. The document reaches the fields that its properties and its id are written
to and leaves the others as they are in the blank entity. The entity depends on what the document
stores under the names of the properties that can be written, and on its id, and on nothing else.
A hit therefore gives the same entity as its stored fields with the id among them.

Accessors may be any functions here, so what one writes to is told by what it can change : it
touches a part of an entity if some write gives the part another value (`Accessor.Touches`). A part
is what any function makes of an entity, one of its fields or its type. Writes that do not touch a
part come and go without a trace in it (`Schema.part_readFields`).
-/

namespace Catalogue

/-! ## One write -/

namespace Accessor

variable {β : Type} {a : Accessor} {part : Entity → β}

/-- Some write gives this part of an entity another value. -/
def Touches (a : Accessor) (part : Entity → β) : Prop :=
  ∃ e value, part (a.write e value) ≠ part e

theorem part_write (h : ¬ a.Touches part) (e : Entity) (value : Value) :
    part (a.write e value) = part e :=
  Classical.not_not.mp fun hne => h ⟨e, value, hne⟩

theorem touches_field_iff {target name : String} :
    (field target).Touches (·.get? name) ↔ target = name := by
  constructor
  · intro ⟨e, value, hne⟩
    simp only [write_field, Entity.get?_set] at hne
    split at hne
    case isTrue htarget => exact htarget
    case isFalse => exact absurd rfl hne
  · intro h
    refine ⟨⟨"", []⟩, .null, ?_⟩
    simp only [write_field, Entity.get?_set, if_pos h]
    exact nofun

theorem not_touches_type_field (target : String) : ¬ (field target).Touches Entity.type :=
  fun ⟨_, _, hne⟩ => hne rfl

end Accessor

theorem Property.write_of_not_writable {p : Property} (h : p.accessor.writable = false)
    (e : Entity) (wire : Json) : p.write e wire = e :=
  Accessor.write_of_not_writable h e (p.ofWire wire)

/-! ## The stored fields of a document -/

namespace Document

theorem source_of_obj {d : Document} {fields : Object}
    (h : Dict.get? d sourceKey = some (.obj fields)) : d.source = fields := by
  simp [source, h, Json.obj?]

theorem source_of_not_obj {d : Document}
    (h : ∀ fields, Dict.get? d sourceKey ≠ some (.obj fields)) : d.source = d := by
  cases hd : Dict.get? d sourceKey with
  | none => simp [source, hd]
  | some value =>
    cases value with
    | obj fields => exact absurd hd (h fields)
    | _ => simp [source, hd, Json.obj?]

/-- The key of the id is not that of the stored fields, so a document with an id put in stores
what it stored. -/
theorem source_insert_idKey {d : Document}
    (h : ∀ fields, Dict.get? d sourceKey ≠ some (.obj fields)) (id : Json) :
    source (Dict.insert d idKey id) = Dict.insert d idKey id := by
  apply source_of_not_obj
  intro fields
  rw [Dict.get?_insert, if_neg (by decide)]
  exact h fields

end Document

namespace Schema

variable {s : Schema}

/-! ## Reading the properties -/

/-- One property read from the stored fields, a step of `readFields`. -/
def readField (source : Object) (e : Entity) (entry : String × Property) : Entity :=
  match Dict.get? source entry.1 with
  | some wire => entry.2.write e wire
  | none => e

theorem readFields_eq_foldl (properties : Dict Property) (source : Object) (e : Entity) :
    readFields properties source e = properties.foldl (readField source) e := rfl

section Parts

variable {β : Type} {part : Entity → β}

theorem part_readField {source : Object} {entry : String × Property}
    (h : entry.2.accessor.Touches part → Dict.get? source entry.1 = none) (e : Entity) :
    part (readField source e entry) = part e := by
  unfold readField
  split
  case h_1 wire hw =>
    exact Accessor.part_write (fun htouches => nomatch hw.symm.trans (h htouches)) e _
  case h_2 => rfl

/-- Properties that do not touch a part, or that have nothing stored, leave it as it is. -/
theorem part_readFields {properties : Dict Property} {source : Object}
    (h : ∀ entry ∈ properties, entry.2.accessor.Touches part → Dict.get? source entry.1 = none)
    (e : Entity) : part (readFields properties source e) = part e := by
  rw [readFields_eq_foldl]
  induction properties generalizing e with
  | nil => rfl
  | cons entry rest ih =>
    rw [List.foldl_cons, ih fun entry hentry => h entry (List.mem_cons_of_mem _ hentry),
      part_readField (h entry List.mem_cons_self)]

end Parts

theorem readField_congr {source other : Object} {entry : String × Property}
    (h : entry.2.accessor.writable = true →
      Dict.get? source entry.1 = Dict.get? other entry.1) (e : Entity) :
    readField source e entry = readField other e entry := by
  cases hw : entry.2.accessor.writable with
  | true => rw [readField, readField, h hw]
  | false =>
    -- whatever the two store under the name, it is not written
    have hsame (o : Object) : readField o e entry = e := by
      unfold readField
      split
      · exact Property.write_of_not_writable hw e _
      · rfl
    rw [hsame, hsame]

theorem readFields_congr {properties : Dict Property} {source other : Object}
    (h : ∀ entry ∈ properties, entry.2.accessor.writable = true →
      Dict.get? source entry.1 = Dict.get? other entry.1) (e : Entity) :
    readFields properties source e = readFields properties other e := by
  simp only [readFields_eq_foldl]
  induction properties generalizing e with
  | nil => rfl
  | cons entry rest ih =>
    rw [List.foldl_cons, List.foldl_cons, readField_congr (h entry List.mem_cons_self),
      ih fun entry hentry => h entry (List.mem_cons_of_mem _ hentry)]

/-! ## The entity of a document -/

/-- The blank entity with what a document gives, whatever its type. -/
def decoded (s : Schema) (d : Document) : Entity :=
  match Dict.get? d Document.idKey with
  | some id => s.setId (readFields s.properties d.source s.blank) (.ofJson id)
  | none => readFields s.properties d.source s.blank

theorem ofDocument_eq_ok_decoded (h : s.blank.type = s.entityType) (d : Document) :
    s.ofDocument d = .ok (s.decoded d) := by
  rw [ofDocument, checkType, if_pos h]
  rfl

theorem ofDocument_eq_error (h : s.blank.type ≠ s.entityType) (d : Document) :
    s.ofDocument d = .error (.typeMismatch s.entityType s.blank.type) := by
  rw [ofDocument, checkType, if_neg h]
  rfl

theorem ofDocument_eq_error_iff (s : Schema) (d : Document) (error : SchemaError) :
    s.ofDocument d = .error error ↔
      s.blank.type ≠ s.entityType ∧ error = .typeMismatch s.entityType s.blank.type := by
  by_cases h : s.blank.type = s.entityType
  · simp [ofDocument_eq_ok_decoded h, h]
  · simp [ofDocument_eq_error h, h, eq_comm]

/-- A document reaches a part of the entity if it has a property that touches the part, or an id and
the id touches it. -/
def Reaches {β : Type} (s : Schema) (d : Document) (part : Entity → β) : Prop :=
  (∃ entry ∈ s.properties, entry.2.accessor.Touches part ∧
    (Dict.get? d.source entry.1).isSome) ∨
  ∃ a ∈ s.id, a.Touches part ∧ (Dict.get? d Document.idKey).isSome

theorem part_decoded_of_not_reaches {β : Type} {part : Entity → β} {d : Document}
    (h : ¬ s.Reaches d part) : part (s.decoded d) = part s.blank := by
  have hfields : part (readFields s.properties d.source s.blank) = part s.blank :=
    part_readFields (fun entry hentry htouches => Option.not_isSome_iff_eq_none.mp fun hsome =>
      h (.inl ⟨entry, hentry, htouches, hsome⟩)) s.blank
  unfold decoded setId
  split
  case h_1 id hd =>
    split
    case h_1 a ha =>
      have hnot : ¬ a.Touches part := fun htouches =>
        h (.inr ⟨a, ha, htouches, Option.isSome_of_eq_some hd⟩)
      rw [Accessor.part_write hnot, hfields]
    case h_2 => exact hfields
  case h_2 => exact hfields

/-- Two documents that a schema cannot tell apart : they have the same id, and store the same
under the name of every property that can be written. -/
structure Agree (s : Schema) (d other : Document) : Prop where
  id_eq : Dict.get? d Document.idKey = Dict.get? other Document.idKey
  source_eq : ∀ entry ∈ s.properties, entry.2.accessor.writable = true →
    Dict.get? d.source entry.1 = Dict.get? other.source entry.1

theorem Agree.ofDocument_eq {d other : Document} (h : s.Agree d other) :
    s.ofDocument d = s.ofDocument other := by
  simp only [ofDocument, h.id_eq, readFields_congr h.source_eq]

/-! ## Hits -/

theorem source_hit (h : Hit) : Document.source h.toDocument = h.source :=
  Document.source_of_obj rfl

/-- A hit and its stored fields with the id among them agree, unless a property has the name of
the id or the stored fields have an object in place of themselves. -/
theorem agree_hit (hid : Document.idKey ∉ Dict.keys s.properties) (h : Hit)
    (hsource : ∀ fields, Dict.get? h.source Document.sourceKey ≠ some (.obj fields)) :
    s.Agree h.toDocument (Dict.insert h.source Document.idKey (.str h.id)) where
  id_eq := by
    rw [Dict.get?_insert, if_pos rfl]
    rfl
  source_eq entry hentry _ := by
    have hne : Document.idKey ≠ entry.1 := fun heq =>
      hid (heq ▸ List.mem_map_of_mem hentry)
    rw [source_hit, Document.source_insert_idKey hsource, Dict.get?_insert, if_neg hne]

/-- A document gives an entity unless the blank one has the wrong type. The fields that it does not
reach are those of the blank entity, and so is the type, and the rest comes from what it stores under
the names of properties that can be written, and from its id. What a document stores is the object
under the key for that, or else the document, so a hit gives what its stored fields and its id
give. -/
theorem ofDocument_frame (s : Schema) (d : Document) :
    (∀ error, s.ofDocument d = .error error ↔
      s.blank.type ≠ s.entityType ∧ error = .typeMismatch s.entityType s.blank.type) ∧
    (s.blank.type = s.entityType → ∃ e, s.ofDocument d = .ok e ∧
      (∀ name, ¬ s.Reaches d (·.get? name) → e.get? name = s.blank.get? name) ∧
      (¬ s.Reaches d Entity.type → e.type = s.entityType)) ∧
    (∀ entry ∈ s.properties, entry.2.accessor.writable = false →
      ∀ e wire, entry.2.write e wire = e) ∧
    (∀ fields, Dict.get? d Document.sourceKey = some (.obj fields) → d.source = fields) ∧
    ((∀ fields, Dict.get? d Document.sourceKey ≠ some (.obj fields)) → d.source = d) ∧
    (∀ other, s.Agree d other → s.ofDocument d = s.ofDocument other) ∧
    ∀ h : Hit, Document.idKey ∉ Dict.keys s.properties →
      (∀ fields, Dict.get? h.source Document.sourceKey ≠ some (.obj fields)) →
      s.ofDocument h.toDocument =
        s.ofDocument (Dict.insert h.source Document.idKey (.str h.id)) := by
  refine ⟨ofDocument_eq_error_iff s d, fun htype => ?_, fun _ _ hw => ?_,
    fun _ => Document.source_of_obj, Document.source_of_not_obj, fun _ h => h.ofDocument_eq,
    fun h hid hsource => (agree_hit hid h hsource).ofDocument_eq⟩
  · exact ⟨s.decoded d, ofDocument_eq_ok_decoded htype d,
      fun name hname => part_decoded_of_not_reaches hname,
      fun hkept => (part_decoded_of_not_reaches hkept).trans htype⟩
  · exact Property.write_of_not_writable hw

/-- A note whose heading is written to its label, which is kept as the former one, whose caption is
written to the label too, and whose length is computed and never written. It is the same from a hit
and from a document, and whatever length either has. -/
theorem ofDocument_frame_note :
    let heading : Accessor :=
      { read := fun e => e.get? "title"
        setter := some fun e value =>
          (e.set "former" ((e.get? "label").getD .null)).set "label" value }
    let length : Accessor :=
      { read := fun e => (e.get? "title").bind fun title =>
          title.toText?.map fun text => .int (Int64.ofNat text.length)
        setter := none }
    let s : Schema :=
      { entityType := "Note"
        fields := [
          { name := "heading", kind := .string, accessor := heading },
          { name := "caption", kind := .string, accessor := Accessor.field "label" },
          { name := "length", kind := .integer, accessor := length }]
        id := some (Accessor.field "number")
        blank := ⟨"Note", [("length", .int 4), ("label", .str "Sky")]⟩ }
    let h : Hit := { id := "7", source := [("heading", .str "Sea"), ("length", .int 9)] }
    let d : Document := [("caption", .str "Land"), ("_id", .str "8"), ("pages", .int 2)]
    let other : Document := [("_id", .str "8"), ("length", .int 5), ("caption", .str "Land")]
    (∃ e, s.ofDocument h.toDocument = .ok e ∧ e.get? "length" = some (.int 4) ∧
        e.get? "label" = some (.str "Sea") ∧ e.get? "former" = some (.str "Sky")) ∧
      s.ofDocument h.toDocument = s.ofDocument
        [("heading", .str "Sea"), ("length", .int 9), ("_id", .str "7")] ∧
      d.source = d ∧ s.Agree d other ∧ s.ofDocument d = s.ofDocument other := by
  intro heading length s h d other
  obtain ⟨-, hframe, -, -, -, -, hhit⟩ := ofDocument_frame s h.toDocument
  obtain ⟨-, -, -, -, hself, hagree, -⟩ := ofDocument_frame s d
  have hproperties : s.properties = s.fields.map fun f => (f.name, s.property f) :=
    Dict.ofList_of_nodup (by decide)
  have hkept : ¬ s.Reaches h.toDocument (·.get? "length") := by
    rintro (⟨entry, hentry, htouches, -⟩ | ⟨a, ha, htouches, -⟩)
    · rw [hproperties] at hentry
      obtain ⟨f, hf, rfl⟩ := List.mem_map.mp hentry
      simp only [s, List.mem_cons, List.not_mem_nil, or_false] at hf
      rcases hf with rfl | rfl | rfl
      · obtain ⟨e, value, hne⟩ := htouches
        exact hne (by simp [heading, property, Accessor.write, Entity.get?_set])
      · exact absurd (Accessor.touches_field_iff.mp htouches) (by decide)
      · obtain ⟨e, value, hne⟩ := htouches
        exact hne rfl
    · obtain rfl := Option.some.inj ha
      exact absurd (Accessor.touches_field_iff.mp htouches) (by decide)
  have hsame : s.Agree d other := by
    refine ⟨rfl, fun entry hentry hwritable => ?_⟩
    rw [hproperties] at hentry
    obtain ⟨f, hf, rfl⟩ := List.mem_map.mp hentry
    simp only [s, List.mem_cons, List.not_mem_nil, or_false] at hf
    rcases hf with rfl | rfl | rfl
    · rfl
    · rfl
    · exact absurd hwritable Bool.false_ne_true
  have hsource (fields : Object) : Dict.get? h.source Document.sourceKey ≠ some (.obj fields) := by
    simp [h, Dict.get?_cons, Dict.get?_nil, Document.sourceKey]
  have hnone (fields : Object) : Dict.get? d Document.sourceKey ≠ some (.obj fields) := by
    simp [d, Dict.get?_cons, Dict.get?_nil, Document.sourceKey]
  refine ⟨?_, hhit h (by decide) hsource, hself hnone, hsame, hagree other hsame⟩
  obtain ⟨e, hok, hframe, -⟩ := hframe rfl
  have he : e = s.decoded h.toDocument :=
    Except.ok.inj (hok.symm.trans (ofDocument_eq_ok_decoded rfl _))
  exact ⟨e, hok, hframe "length" hkept, by rw [he]; rfl, by rw [he]; rfl⟩

end Schema

end Catalogue
