import Catalogue.Proofs.Schema.Chain
import Catalogue.Proofs.Schema.Decoding

/-!
# Entities in documents and back

`Schema.ofDocument_toDocument` : an entity comes back from its document with the same value, or
again none, in every declared field, with the same id unless that is null, and with nothing else.

Each of the two directions is described once, by a lookup. `Schema.get?_storedFields` and
`Schema.get?_document` say what a document has under a key, and `Schema.ofDocument_eq_ok` what an
entity has in a field, for any document. Both need only that the fields of the schema do not get
into each other's way (`Schema.Direct`). What becomes of a value is left to `Property.Keeps`.
-/

namespace Catalogue

/-- A schema whose fields have names of their own, other than the two reserved keys, and whose
properties and id are read and written under one name each, starting from an entity with nothing
set. -/
structure Schema.Direct (s : Schema) : Prop where
  names_nodup : (s.fields.map Field.name).Nodup
  idKey_not_mem : Document.idKey ∉ s.fields.map Field.name
  sourceKey_not_mem : Document.sourceKey ∉ s.fields.map Field.name
  accessor_eq : ∀ f ∈ s.fields, f.accessor = Accessor.field f.name
  id_eq : ∀ a, s.id = some a → ∃ name, a = Accessor.field name
  blank_eq : s.blank = ⟨s.entityType, []⟩

namespace Schema

variable {s : Schema}

/-! ## Properties -/

theorem properties_eq_map (h : (s.fields.map Field.name).Nodup) :
    s.properties = s.fields.map fun f => (f.name, s.property f) := by
  apply Dict.ofList_of_nodup
  simpa [Dict.keys, List.map_map, Function.comp_def] using h

theorem nodup_keys_properties (s : Schema) : (Dict.keys s.properties).Nodup :=
  Dict.nodup_keys_ofList _

/-- The names of the properties are the declared ones, each once. -/
theorem keys_properties (s : Schema) :
    Dict.keys s.properties = (s.fields.map Field.name).eraseDups := by
  rw [properties, Dict.keys_ofList]
  simp [Dict.keys, Function.comp_def]

theorem get?_properties (h : (s.fields.map Field.name).Nodup) {f : Field} (hf : f ∈ s.fields) :
    Dict.get? s.properties f.name = some (s.property f) := by
  apply Dict.get?_of_mem (nodup_keys_properties s)
  rw [properties_eq_map h]
  exact List.mem_map.mpr ⟨f, hf, rfl⟩

theorem get?_properties_eq_none {name : String} (hn : name ∉ s.fields.map Field.name) :
    Dict.get? s.properties name = none := by
  rwa [Dict.get?_eq_none_iff, keys_properties, List.mem_eraseDups]

/-! ## What a document has under a key -/

theorem get?_storedFields (s : Schema) (e : Entity) (name : String) :
    Dict.get? (s.storedFields e) name = (Dict.get? s.properties name).bind (·.read e) :=
  Dict.get?_filterMap (nodup_keys_properties s) (·.read e) name

theorem get?_storedFields_eq_none (e : Entity) {name : String}
    (hn : name ∉ s.fields.map Field.name) : Dict.get? (s.storedFields e) name = none := by
  rw [get?_storedFields, get?_properties_eq_none hn, Option.bind_none]

theorem nodup_keys_storedFields (s : Schema) (e : Entity) :
    (Dict.keys (s.storedFields e)).Nodup :=
  (Dict.keys_filterMap_sublist s.properties (·.read e)).nodup s.nodup_keys_properties

/-- A document has no key twice, even if a property has the key of the id. -/
theorem nodup_keys_of_toDocument_eq_ok {e : Entity} {d : Document} (h : s.toDocument e = .ok d) :
    (Dict.keys d).Nodup := by
  rw [toDocument] at h
  cases hcheck : s.checkType e with
  | error cause =>
    rw [hcheck] at h
    exact absurd h nofun
  | ok =>
    rw [hcheck] at h
    obtain rfl := Except.ok.inj h
    split
    · exact Dict.nodup_keys_insert (s.nodup_keys_storedFields e) _ _
    · exact s.nodup_keys_storedFields e

/-- The id that goes into the document of an entity, which is not null. -/
def storedId (s : Schema) (e : Entity) : Option Value :=
  (s.idOf e).filter (!·.isNull)

theorem storedId_eq_some_iff (e : Entity) (id : Value) :
    s.storedId e = some id ↔ s.idOf e = some id ∧ id.isNull = false := by
  simp [storedId, Option.filter_eq_some_iff]

/-- The stored fields of an entity and, after them, its id. -/
def document (s : Schema) (e : Entity) : Document :=
  s.storedFields e ++ ((s.storedId e).map fun id => (Document.idKey, id.toJson)).toList

theorem toDocument_eq_ok (hn : Document.idKey ∉ s.fields.map Field.name) {e : Entity}
    (ht : e.type = s.entityType) : s.toDocument e = .ok (s.document e) := by
  have hnew := (Dict.get?_eq_none_iff _ _).mp (get?_storedFields_eq_none e hn)
  rw [toDocument, checkType, if_pos ht, document, storedId]
  cases (s.idOf e).filter (!·.isNull) with
  | none => simp [Except.map]
  | some id => simp [Except.map, Dict.insert_of_not_mem hnew]

theorem get?_document (e : Entity) (key : String) :
    Dict.get? (s.document e) key = (Dict.get? (s.storedFields e) key).or
      (if Document.idKey = key then (s.storedId e).map Value.toJson else none) := by
  rw [document, Dict.get?_append]
  cases s.storedId e with
  | none => simp
  | some id => simp [Dict.get?_cons]

theorem source_document (hs : s.Direct) (e : Entity) :
    Document.source (s.document e) = s.document e := by
  have hnone : Dict.get? (s.document e) Document.sourceKey = none := by
    rw [get?_document, get?_storedFields_eq_none e hs.sourceKey_not_mem]
    rfl
  simp [Document.source, hnone]

/-! ## What an entity has in a field -/

/-- A property under its own name is read into the field of this name and into no other. -/
theorem get?_readField {entry : String × Property}
    (ha : entry.2.accessor = Accessor.field entry.1) (source : Object) (e : Entity)
    (name : String) :
    (readField source e entry).get? name =
      (if entry.1 = name then (Dict.get? source entry.1).map entry.2.ofWire else none).or
        (e.get? name) := by
  unfold readField
  cases Dict.get? source entry.1 with
  | none => simp
  | some wire =>
    simp only [Property.write, ha, Accessor.write_field, Entity.get?_set]
    split <;> rfl

theorem get?_readFields {properties : Dict Property} (hd : (Dict.keys properties).Nodup)
    (ha : ∀ entry ∈ properties, entry.2.accessor = Accessor.field entry.1) (source : Object)
    (e : Entity) (name : String) :
    (readFields properties source e).get? name =
      ((Dict.get? properties name).bind fun p => (Dict.get? source name).map p.ofWire).or
        (e.get? name) := by
  induction properties generalizing e with
  | nil => rfl
  | cons entry rest ih =>
    obtain ⟨key, p⟩ := entry
    obtain ⟨hk, hd⟩ := List.nodup_cons.mp hd
    have hnone : Dict.get? rest key = none := (Dict.get?_eq_none_iff rest key).mpr hk
    rw [readFields_eq_foldl, List.foldl_cons, ← readFields_eq_foldl,
      ih hd fun entry he => ha entry (List.mem_cons_of_mem _ he),
      get?_readField (ha (key, p) List.mem_cons_self), Dict.get?_cons]
    by_cases h : key = name
    · subst h
      simp [hnone]
    · simp [h]

theorem accessor_properties (hs : s.Direct) :
    ∀ entry ∈ s.properties, entry.2.accessor = Accessor.field entry.1 := by
  intro entry he
  rw [properties_eq_map hs.names_nodup] at he
  obtain ⟨f, hf, rfl⟩ := List.mem_map.mp he
  exact hs.accessor_eq f hf

open Classical in
/-- What the id of a document puts into a field. -/
noncomputable def idField (s : Schema) (d : Document) (name : String) : Option Value :=
  if s.id = some (Accessor.field name) then (Dict.get? d Document.idKey).map Value.ofJson else none

/-- The id comes last, and is put into the field that the schema has for it. -/
theorem get?_decoded (hs : s.Direct) (d : Document) (name : String) :
    (s.decoded d).get? name =
      (s.idField d name).or ((readFields s.properties d.source s.blank).get? name) := by
  cases hd : Dict.get? d Document.idKey with
  | none => simp [decoded, idField, hd]
  | some id =>
    cases ha : s.id with
    | none => simp [decoded, idField, setId, hd, ha]
    | some a =>
      obtain ⟨field, rfl⟩ := hs.id_eq a ha
      simp only [decoded, idField, setId, hd, ha, Accessor.write_field, Entity.get?_set,
        Option.some.injEq, Accessor.field_inj]
      split <;> rfl

/-- No property and no id of such a schema changes the type of the entity. -/
theorem type_decoded (hs : s.Direct) (d : Document) : (s.decoded d).type = s.blank.type := by
  refine part_decoded_of_not_reaches ?_
  rintro (⟨entry, hentry, htouches, -⟩ | ⟨a, ha, htouches, -⟩)
  · rw [accessor_properties hs entry hentry] at htouches
    exact Accessor.not_touches_type_field _ htouches
  · obtain ⟨field, rfl⟩ := hs.id_eq a ha
    exact Accessor.not_touches_type_field _ htouches

/-- A document gives an entity the values under the declared names, and over them the id. -/
theorem ofDocument_eq_ok (hs : s.Direct) (d : Document) :
    ∃ e, s.ofDocument d = .ok e ∧ e.type = s.entityType ∧
      ∀ name, e.get? name = (s.idField d name).or
        ((Dict.get? s.properties name).bind fun p => (Dict.get? d.source name).map p.ofWire) := by
  have htype : s.blank.type = s.entityType := by rw [hs.blank_eq]
  have hunset (name : String) : s.blank.get? name = none := by
    rw [hs.blank_eq]
    rfl
  refine ⟨s.decoded d, ofDocument_eq_ok_decoded htype d, (type_decoded hs d).trans htype,
    fun name => ?_⟩
  rw [get?_decoded hs, get?_readFields (nodup_keys_properties s) (accessor_properties hs), hunset,
    Option.or_none]

/-! ## There and back -/

open Classical in
/-- The entity has in every field what is left of `e` after a way through the index : the declared
fields and the id. -/
def Restores (s : Schema) (e restored : Entity) : Prop :=
  restored.type = s.entityType ∧ ∀ name, restored.get? name =
    if name ∈ s.fields.map Field.name then e.get? name
    else if s.id = some (Accessor.field name) then s.storedId e else none

theorem map_ofWire_read (hs : s.Direct) {e : Entity} {f : Field} (hf : f ∈ s.fields)
    (hkeeps : ∀ value, e.get? f.name = some value → (s.property f).Keeps value) :
    ((s.property f).read e).map (s.property f).ofWire = e.get? f.name := by
  have hread : (s.property f).accessor.read e = e.get? f.name := by
    show f.accessor.read e = _
    rw [hs.accessor_eq f hf]
    rfl
  rw [Property.read, hread, Option.map_map]
  cases he : e.get? f.name with
  | none => rfl
  | some value => exact congrArg some (hkeeps value he)

/-- A document that has the stored fields of an entity, in it or under their own key, and its id
gives the entity back. -/
theorem restores_of_document (hs : s.Direct) {e : Entity} {d : Document}
    (hsource : ∀ f ∈ s.fields, Dict.get? d.source f.name = Dict.get? (s.storedFields e) f.name)
    (hid : Dict.get? d Document.idKey = (s.storedId e).map Value.toJson)
    (hkeeps : ∀ f ∈ s.fields, ∀ value, e.get? f.name = some value → (s.property f).Keeps value)
    (hplain : ∀ id, s.storedId e = some id → Value.ofJson id.toJson = id) :
    ∃ restored, s.ofDocument d = .ok restored ∧ s.Restores e restored := by
  classical
  obtain ⟨restored, hok, htype, hget⟩ := ofDocument_eq_ok hs d
  refine ⟨restored, hok, htype, fun name => ?_⟩
  have hidField : s.idField d name =
      if s.id = some (Accessor.field name) then s.storedId e else none := by
    rw [idField, hid]
    cases h : s.storedId e with
    | none => rfl
    | some id => simp [hplain id h]
  rw [hget, hidField]
  by_cases hname : name ∈ s.fields.map Field.name
  · rw [if_pos hname]
    obtain ⟨f, hf, rfl⟩ := List.mem_map.mp hname
    rw [get?_properties hs.names_nodup hf, Option.bind_some, hsource f hf,
      get?_storedFields, get?_properties hs.names_nodup hf, Option.bind_some,
      map_ofWire_read hs hf (hkeeps f hf)]
    split
    case isTrue ha =>
      -- the id has the field of this property, and both put the same value there
      have hidOf : s.idOf e = e.get? f.name := by
        rw [idOf, ha]
        rfl
      rw [storedId, hidOf]
      cases e.get? f.name with
      | none => rfl
      | some value => cases h : value.isNull <;> simp [Option.filter, h]
    case isFalse => rfl
  · rw [if_neg hname, get?_properties_eq_none hname, Option.bind_none,
      Option.or_none]

theorem Restores.idOf_eq (hs : s.Direct) {e restored : Entity} (h : s.Restores e restored)
    {id : Value} (hid : s.storedId e = some id) : s.idOf restored = some id := by
  obtain ⟨hidOf, -⟩ := (storedId_eq_some_iff e id).mp hid
  cases ha : s.id with
  | none => simp [idOf, ha] at hidOf
  | some a =>
    obtain ⟨g, rfl⟩ := hs.id_eq a ha
    have hg := h.2 g
    simp only [idOf, ha, Option.bind_some, Accessor.read_field] at hidOf ⊢
    rw [hg, ha, hid, hidOf]
    simp

/-- An entity whose declared values are restorable, and whose id is plain, comes back from its
document in all that is declared. -/
theorem ofDocument_toDocument (hs : s.Direct) (e : Entity) (ht : e.type = s.entityType)
    (hfields : ∀ f ∈ s.fields, ∀ value, e.get? f.name = some value →
      (s.property f).Restorable value)
    (hid : ∀ id, s.idOf e = some id → id.isPlain) :
    ∃ d restored, s.toDocument e = .ok d ∧ s.ofDocument d = .ok restored ∧
      restored.type = s.entityType ∧
      (∀ f ∈ s.fields, restored.get? f.name = e.get? f.name) ∧
      (∀ id, s.idOf e = some id → id.isNull = false → s.idOf restored = some id) ∧
      ∀ name, restored.get? name ≠ none → (∃ f ∈ s.fields, f.name = name) ∨
        s.id = some (Accessor.field name) ∧ ∃ id, s.idOf e = some id ∧ id.isNull = false := by
  have hplain : ∀ id, s.storedId e = some id → Value.ofJson id.toJson = id := fun id h =>
    Value.ofJson_toJson (hid id ((storedId_eq_some_iff e id).mp h).1)
  have hstored : ∀ f ∈ s.fields, Dict.get? (Document.source (s.document e)) f.name =
      Dict.get? (s.storedFields e) f.name := by
    intro f hf
    have hne : Document.idKey ≠ f.name := fun h =>
      hs.idKey_not_mem (h ▸ List.mem_map.mpr ⟨f, hf, rfl⟩)
    rw [source_document hs, get?_document, if_neg hne, Option.or_none]
  have hidKey : Dict.get? (s.document e) Document.idKey = (s.storedId e).map Value.toJson := by
    rw [get?_document, get?_storedFields_eq_none e hs.idKey_not_mem, if_pos rfl]
    rfl
  obtain ⟨restored, hok, hrest⟩ := restores_of_document hs hstored hidKey
    (fun f hf value hv => Property.keeps_of_restorable (hfields f hf value hv)) hplain
  refine ⟨s.document e, restored, toDocument_eq_ok hs.idKey_not_mem ht, hok,
    hrest.1, fun f hf => ?_, fun id h hnull => ?_, fun name h => ?_⟩
  · rw [hrest.2, if_pos (List.mem_map.mpr ⟨f, hf, rfl⟩)]
  · exact hrest.idOf_eq hs ((storedId_eq_some_iff e id).mpr ⟨h, hnull⟩)
  · rw [hrest.2] at h
    by_cases hname : name ∈ s.fields.map Field.name
    · exact Or.inl (List.mem_map.mp hname)
    · rw [if_neg hname] at h
      split at h
      case isTrue ha =>
        obtain ⟨id, hid⟩ := Option.ne_none_iff_exists'.mp h
        exact Or.inr ⟨ha, id, (storedId_eq_some_iff e id).mp hid⟩
      case isFalse => exact absurd rfl h

/-- A note with a map of titles, a list kept as one text, a date and an unset field. -/
theorem ofDocument_toDocument_note :
    let s : Schema :=
      { entityType := "Note"
        declaredAnalyzers := [("list", .commaSeparated)]
        fields := [
          { name := "title", kind := .object }, { name := "pages", kind := .integer },
          { name := "tags", kind := .string, analyzerName := "list" },
          { name := "written", kind := .date }]
        id := some (Accessor.field "number") }
    let e : Entity := ⟨"Note", [("number", .int 7), ("title", .map [("en", .list [.str "Sea"])]),
      ("tags", .list [.str "a", .str "b"]), ("written", .date .epoch)]⟩
    s.Direct ∧ ∃ d restored, s.toDocument e = .ok d ∧ s.ofDocument d = .ok restored ∧
      (∀ f ∈ s.fields, restored.get? f.name = e.get? f.name) ∧
      s.idOf restored = some (.int 7) := by
  intro s e
  have hs : s.Direct := by
    refine ⟨by decide, by decide, by decide, ?_, ?_, rfl⟩
    · intro f hf
      simp only [s, List.mem_cons, List.not_mem_nil, or_false] at hf
      rcases hf with rfl | rfl | rfl | rfl <;> rfl
    · intro a ha
      exact ⟨"number", (Option.some.inj ha).symm⟩
  have hfields : ∀ f ∈ s.fields, ∀ value, e.get? f.name = some value →
      (s.property f).Restorable value := by
    intro f hf value hv
    simp only [s, List.mem_cons, List.not_mem_nil, or_false] at hf
    rcases hf with rfl | rfl | rfl | rfl
    · obtain rfl := Option.some.inj hv
      exact rfl
    · exact absurd (show (none : Option Value) = some value from hv) nofun
    · obtain rfl := Option.some.inj hv
      exact Or.inr ⟨["a", "b"], Or.inr ⟨by decide, by decide +kernel⟩, rfl⟩
    · obtain rfl := Option.some.inj hv
      exact ⟨.epoch, rfl, by unfold DateFormat.ReadsBack; decide +kernel⟩
  have hid : ∀ id, s.idOf e = some id → id.isPlain := by
    intro id h
    obtain rfl := Option.some.inj h
    rfl
  obtain ⟨d, restored, hd, hok, -, hsame, hsameId, -⟩ :=
    ofDocument_toDocument hs e rfl hfields hid
  exact ⟨hs, d, restored, hd, hok, hsame, hsameId _ rfl rfl⟩

end Schema

end Catalogue
