import Catalogue.Proofs.Schema.Delimited
import Catalogue.Proofs.Schema.RoundTrip

/-!
# Documents read back and written again

An entity need not come back from its document : an instant comes back as a text, NaN as null, a
list of numbers as texts, and a text with separators as a list. What comes back has the same
document all the same, if no field converts its values.

`Property.toWire_ofWire_toWire` says so of one value : whatever a document has of it is what it has
of the value that the document gives. `Schema.get?_restored` says which entity a document of an
entity gives, whatever the values are, and `Schema.toDocument_ofDocument_toDocument` puts the two
together. The id must have a field of its own, where no property writes over it, and must not be an
infinite number or NaN, which is an id in the entity and none in the document.
-/

namespace Catalogue

/-! ## Values -/

theorem Value.isNull_ofJson_toJson {value : Value} (h : value.isNull = false)
    (hfinite : ∀ x, value = .float x → x.isFinite) :
    (Value.ofJson value.toJson).isNull = false := by
  cases value with
  | int n =>
    rw [toJson, ofJson_int]
    exact h
  | float x =>
    rw [toJson, if_pos (hfinite x rfl), ofJson]
    exact h
  | null => cases h
  | _ => rfl

namespace Analyzer

/-- An analyzer makes the same of a value and of what a document gives back for it. -/
def Stable (a : Analyzer) : Prop :=
  ∀ value, (a.toIndex (a.ofIndex (Value.ofJson (a.toIndex value).toJson))).toJson =
    (a.toIndex value).toJson

/-- This has to be asked of no analyzer but one of the application. -/
theorem stable_of_application {a : Analyzer} (h : ∀ own, a = .application own → a.Stable) :
    a.Stable := by
  intro value
  cases a with
  | application own => exact h own rfl value
  | delimited separator filters =>
    rw [toIndex_ofIndex_of_not_joinable, Value.toJson_ofJson_toJson]
    rw [Value.joinable_ofJson_toJson_iff]
    exact not_joinable_toIndex separator filters value
  | _ => exact Value.toJson_ofJson_toJson value

end Analyzer

theorem Property.toWire_ofWire_toWire {p : Property} (hp : p.conversion = .identity)
    (hanalyzer : p.analyzer.Stable) (value : Value) :
    p.toWire (p.ofWire (p.toWire value)) = p.toWire value := by
  unfold toWire ofWire
  rw [hp]
  exact hanalyzer value

namespace Schema

variable {s : Schema} {e : Entity}

/-! ## What a document of an entity gives -/

open Classical in
/-- The entity that a document of an entity gives has in a field what the property of that name
gives for its stored value, and over it the id. -/
theorem get?_restored (hs : s.Direct) (e : Entity) :
    ∃ restored, s.ofDocument (s.document e) = .ok restored ∧ restored.type = s.entityType ∧
      ∀ name, restored.get? name =
        (if s.id = some (Accessor.field name) then
          (s.storedId e).map fun id => Value.ofJson id.toJson else none).or
        ((Dict.get? s.properties name).bind fun p => (p.read e).map p.ofWire) := by
  obtain ⟨restored, hok, htype, hget⟩ := ofDocument_eq_ok hs (s.document e)
  refine ⟨restored, hok, htype, fun name => ?_⟩
  have hid : Dict.get? (s.document e) Document.idKey = (s.storedId e).map Value.toJson := by
    rw [get?_document, get?_storedFields_eq_none e hs.idKey_not_mem, if_pos rfl,
      Option.none_or]
  rw [hget, idField, hid, Option.map_map, source_document hs]
  congr 1
  cases hp : Dict.get? s.properties name with
  | none => rfl
  | some p =>
    have hne : Document.idKey ≠ name := by
      rintro rfl
      rw [get?_properties_eq_none hs.idKey_not_mem] at hp
      cases hp
    rw [Option.bind_some, Option.bind_some, get?_document, if_neg hne, Option.or_none,
      get?_storedFields, hp, Option.bind_some]

/-! ## The same document again -/

variable {restored : Entity}

theorem storedFields_restored (hs : s.Direct) (hconv : ∀ f ∈ s.fields, f.conversion = .identity)
    (hanalyzer : ∀ f ∈ s.fields, (s.property f).analyzer.Stable)
    (hget : ∀ f ∈ s.fields,
      restored.get? f.name = ((s.property f).read e).map (s.property f).ofWire) :
    s.storedFields restored = s.storedFields e := by
  unfold storedFields
  refine List.filterMap_congr fun entry hentry => ?_
  rw [properties_eq_map hs.names_nodup] at hentry
  obtain ⟨f, hf, rfl⟩ := List.mem_map.mp hentry
  have hread (e : Entity) : (s.property f).read e = (e.get? f.name).map (s.property f).toWire := by
    rw [Property.read]
    exact congrArg (Option.map _) (congrArg (Accessor.read · e) (hs.accessor_eq f hf))
  have hsame : (s.property f).read restored = (s.property f).read e := by
    rw [hread, hget f hf, hread, Option.map_map, Option.map_map]
    exact Option.map_congr fun value _ =>
      Property.toWire_ofWire_toWire (hconv f hf) (hanalyzer f hf) value
  rw [hsame]

theorem storedId_restored (hs : s.Direct)
    (hfinite : ∀ x, s.idOf e = some (.float x) → x.isFinite)
    (hget : ∀ name, s.id = some (Accessor.field name) →
      restored.get? name = (s.storedId e).map fun id => Value.ofJson id.toJson) :
    (s.storedId restored).map Value.toJson = (s.storedId e).map Value.toJson := by
  cases ha : s.id with
  | none => simp [storedId, idOf, ha]
  | some a =>
    obtain ⟨name, rfl⟩ := hs.id_eq a ha
    have hidOf : s.idOf restored = (s.storedId e).map fun id => Value.ofJson id.toJson := by
      rw [← hget name ha, idOf, ha]
      rfl
    cases hid : s.storedId e with
    | none =>
      rw [storedId, hidOf, hid]
      rfl
    | some id =>
      obtain ⟨hidOf', hnull⟩ := (storedId_eq_some_iff e id).mp hid
      have hnull' := Value.isNull_ofJson_toJson hnull fun x hx => hfinite x (hx ▸ hidOf')
      have hstored : s.storedId restored = some (Value.ofJson id.toJson) :=
        (storedId_eq_some_iff restored _).mpr ⟨by rw [hidOf, hid, Option.map_some], hnull'⟩
      rw [hstored, Option.map_some, Option.map_some, Value.toJson_ofJson_toJson]

/-- Where no field converts its values and the id has a field of its own, an entity has a document,
the document gives an entity, and that entity has the same document again. An analyzer of the
application has to be stable for this ; all others are. -/
theorem toDocument_ofDocument_toDocument (hs : s.Direct)
    (hown : ∀ f ∈ s.fields, s.id ≠ some (Accessor.field f.name))
    (hconv : ∀ f ∈ s.fields, f.conversion = .identity)
    (happlication : ∀ f ∈ s.fields, ∀ own, s.analyzer f.analyzerName = .application own →
      (s.analyzer f.analyzerName).Stable)
    (e : Entity) (ht : e.type = s.entityType)
    (hfinite : ∀ x, s.idOf e = some (.float x) → x.isFinite) :
    ∃ d restored, s.toDocument e = .ok d ∧ s.ofDocument d = .ok restored ∧
      s.toDocument restored = .ok d := by
  obtain ⟨restored, hok, htype, hget⟩ := get?_restored hs e
  have hfields : s.storedFields restored = s.storedFields e := by
    refine storedFields_restored hs hconv
      (fun f hf => Analyzer.stable_of_application (happlication f hf)) fun f hf => ?_
    rw [hget, if_neg (hown f hf), Option.none_or, get?_properties hs.names_nodup hf,
      Option.bind_some]
  have hid : (s.storedId restored).map Value.toJson = (s.storedId e).map Value.toJson := by
    refine storedId_restored hs hfinite fun name hname => ?_
    have hnot : name ∉ s.fields.map Field.name := by
      intro hmem
      obtain ⟨f, hf, rfl⟩ := List.mem_map.mp hmem
      exact hown f hf hname
    rw [hget, if_pos hname, get?_properties_eq_none hnot, Option.bind_none,
      Option.or_none]
  have hsame : s.document restored = s.document e := by
    have hentry (id : Option Value) : (id.map fun id => (Document.idKey, id.toJson)) =
        (id.map Value.toJson).map fun wire => (Document.idKey, wire) := by
      rw [Option.map_map]
      rfl
    rw [document, document, hfields, hentry, hentry, hid]
  have hdocument (e : Entity) (ht : e.type = s.entityType) : s.toDocument e = .ok (s.document e) :=
    toDocument_eq_ok hs.idKey_not_mem ht
  exact ⟨s.document e, restored, hdocument e ht, hok, by rw [hdocument restored htype, hsame]⟩

/-- A note of which little comes back : an instant and NaN in a map, and lists whose items have the
separator in them or are no texts. -/
theorem toDocument_ofDocument_toDocument_note :
    let s : Schema :=
      { entityType := "Note"
        declaredAnalyzers := [("list", .commaSeparated), ("letters", .delimited "" [])]
        fields := [
          { name := "title", kind := .object },
          { name := "tags", kind := .string, analyzerName := "list" },
          { name := "code", kind := .string, analyzerName := "letters" }]
        id := some (Accessor.field "number") }
    let nan : Value := .float ⟨0x7ff8000000000000⟩
    let e : Entity := ⟨"Note", [("number", .list [nan]),
      ("title", .map [("written", .date .epoch), ("weight", nan)]),
      ("tags", .list [.str "a,b", nan, .null]), ("code", .list [.int 12, .bool true])]⟩
    s.Direct ∧ (∀ f ∈ s.fields, s.id ≠ some (Accessor.field f.name)) ∧
      (∀ f ∈ s.fields, f.conversion = .identity) ∧
      (∀ f ∈ s.fields, ∀ own, s.analyzer f.analyzerName ≠ .application own) ∧
      ∃ d restored, s.toDocument e = .ok d ∧ s.ofDocument d = .ok restored ∧
        s.toDocument restored = .ok d := by
  intro s nan e
  have hs : s.Direct := by
    refine ⟨by decide, by decide, by decide, ?_, ?_, rfl⟩
    · intro f hf
      simp only [s, List.mem_cons, List.not_mem_nil, or_false] at hf
      rcases hf with rfl | rfl | rfl <;> rfl
    · intro a ha
      exact ⟨"number", (Option.some.inj ha).symm⟩
  have hown : ∀ f ∈ s.fields, s.id ≠ some (Accessor.field f.name) := by
    simp [s]
  have hconv : ∀ f ∈ s.fields, f.conversion = .identity := by
    simp [s]
  have hnone : ∀ f ∈ s.fields, ∀ own, s.analyzer f.analyzerName ≠ .application own := by
    intro f hf own
    simp only [s, List.mem_cons, List.not_mem_nil, or_false] at hf
    rcases hf with rfl | rfl | rfl
    · exact nofun
    · exact nofun
    · exact nofun
  have hfinite : ∀ x, s.idOf e = some (.float x) → x.isFinite := by
    intro x hx
    exact nomatch Option.some.inj hx
  exact ⟨hs, hown, hconv, hnone, toDocument_ofDocument_toDocument hs hown hconv
    (fun f hf own heq => absurd heq (hnone f hf own)) e rfl hfinite⟩

end Schema

end Catalogue
