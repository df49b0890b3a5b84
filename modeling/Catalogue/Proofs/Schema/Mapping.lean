import Catalogue.Proofs.Schema.RoundTrip
import Catalogue.Schema.IndexBody

/-!
# Documents have the fields that are mapped

The index body maps the declared names, and the document of an entity has values under them. Both
go back to the properties of the schema, in which a name that is declared again keeps its first
place (`Schema.keys_properties`) and gets its last declaration
(`Schema.get?_properties_eq_some_iff`). What a mapping has under each key is said by
`Field.MappedAs`.

`Schema.toDocument_mapped` : the index body maps every declared name as its last declaration says,
and a document has those of the names whose last declaration gives a value, in the same order, and
the id behind them. So every key of a document but that of the id is mapped.
-/

namespace Catalogue

/-! ## The mapping of a field -/

/-- What the mapping of a field says. The options stand as they are given. Without one for it the
type is that of the kind, and the analyzer that of a string that names one ; an analyzer stands only
where the type is that of texts. -/
structure Field.MappedAs (f : Field) (mapping : Object) : Prop where
  /-- The type is given, or is that of the kind. -/
  type : Dict.get? mapping "type" =
    (Dict.get? f.options "type").or (some (.str f.kind.backendType))
  /-- The analyzer of a text is given, or is the one that a string names. -/
  analyzer_of_text : Dict.get? mapping "type" = some (.str "text") →
    Dict.get? mapping "analyzer" = (Dict.get? f.options "analyzer").or
      (if f.kind = .string ∧ f.analyzerName ≠ Analyzer.defaultName then some (.str f.analyzerName)
        else none)
  /-- Nothing else has an analyzer. -/
  analyzer_of_other : Dict.get? mapping "type" ≠ some (.str "text") →
    Dict.get? mapping "analyzer" = none
  /-- All other options stand. -/
  option : ∀ key, key ≠ "type" → key ≠ "analyzer" →
    Dict.get? mapping key = Dict.get? f.options key

namespace Property

variable {p : Property}

/-- What the kind and the analyzer of a field imply, without its options. -/
def implied (p : Property) : Object :=
  if p.kind = .string ∧ p.analyzerName ≠ Analyzer.defaultName then
    Dict.insert [("type", .str p.kind.backendType)] "analyzer" (.str p.analyzerName)
  else [("type", .str p.kind.backendType)]

theorem fieldMapping_eq (p : Property) :
    p.fieldMapping =
      if (Dict.get? (Dict.merge p.implied p.options) "type").bind Json.str? = some "text" then
        Dict.merge p.implied p.options
      else Dict.erase (Dict.merge p.implied p.options) "analyzer" := rfl

theorem get?_implied (p : Property) (key : String) :
    Dict.get? p.implied key =
      if key = "type" then some (.str p.kind.backendType)
      else if key = "analyzer" ∧ p.kind = .string ∧ p.analyzerName ≠ Analyzer.defaultName then
        some (.str p.analyzerName)
      else none := by
  rw [implied]
  split <;> grind [Dict.get?_insert, Dict.get?_cons, Dict.get?_nil]

theorem nodup_keys_implied (p : Property) : (Dict.keys p.implied).Nodup := by
  have htype : (Dict.keys [("type", Json.str p.kind.backendType)]).Nodup := by simp [Dict.keys]
  rw [implied]
  split
  · exact Dict.nodup_keys_insert htype _ _
  · exact htype

/-- The options of a field have each key once, so a mapping has what they say, and else what is
implied. -/
theorem get?_merge_implied (h : (Dict.keys p.options).Nodup) (key : String) :
    Dict.get? (Dict.merge p.implied p.options) key =
      (Dict.get? p.options key).or (Dict.get? p.implied key) := by
  rw [Dict.get?_merge, ← Dict.get?_perm (List.reverse_perm p.options).symm h]

theorem get?_fieldMapping_of_ne (h : (Dict.keys p.options).Nodup) {key : String}
    (hkey : key ≠ "analyzer") :
    Dict.get? p.fieldMapping key = (Dict.get? p.options key).or (Dict.get? p.implied key) := by
  rw [← get?_merge_implied h, fieldMapping_eq]
  split
  case isTrue => rfl
  case isFalse =>
    rw [Dict.get?_erase (Dict.nodup_keys_merge p.nodup_keys_implied _), if_neg hkey.symm]

theorem mappedAs_fieldMapping (h : (Dict.keys p.options).Nodup) :
    p.toField.MappedAs p.fieldMapping := by
  have htype := get?_fieldMapping_of_ne h (show "type" ≠ "analyzer" by decide)
  have htext : (Dict.get? (Dict.merge p.implied p.options) "type").bind Json.str? = some "text" ↔
      Dict.get? p.fieldMapping "type" = some (.str "text") := by
    rw [htype, ← get?_merge_implied h]
    constructor
    · intro hbind
      obtain ⟨json, hjson, hstr⟩ := Option.bind_eq_some_iff.mp hbind
      rw [hjson]
      cases json with
      | str text => exact congrArg (some ∘ Json.str) (Option.some.inj hstr)
      | _ => exact nomatch hstr
    · intro hjson
      rw [hjson]
      rfl
  refine ⟨?_, fun hmapping => ?_, fun hmapping => ?_, fun key htypeKey hanalyzerKey => ?_⟩
  · rw [htype, get?_implied, if_pos rfl]
  · rw [fieldMapping_eq, if_pos (htext.mpr hmapping), get?_merge_implied h, get?_implied,
      if_neg (by decide)]
    simp only [true_and]
  · rw [fieldMapping_eq, if_neg (mt htext.mp hmapping),
      Dict.get?_erase (Dict.nodup_keys_merge p.nodup_keys_implied _), if_pos rfl]
  · rw [get?_fieldMapping_of_ne h hanalyzerKey, get?_implied, if_neg htypeKey,
      if_neg fun hkey => hanalyzerKey hkey.1, Option.or_none]

end Property

namespace Schema

variable {s : Schema}

/-! ## Names that are declared again -/

/-- The declared names, each once, in the order of their first declarations. -/
def declaredNames (s : Schema) : List String :=
  (s.fields.map Field.name).eraseDups

/-- The field is the last one that is declared under the name. -/
def LastDeclares (s : Schema) (name : String) (f : Field) : Prop :=
  ∃ before after, s.fields = before ++ f :: after ∧ f.name = name ∧
    ∀ later ∈ after, later.name ≠ name

theorem get?_properties_eq_some_iff (name : String) (p : Property) :
    Dict.get? s.properties name = some p ↔ ∃ f, s.LastDeclares name f ∧ p = s.property f := by
  rw [properties, Dict.get?_ofList_eq_some_iff]
  constructor
  · rintro ⟨before, after, heq, hafter⟩
    obtain ⟨earlier, rest, hfields, -, hrest⟩ := List.map_eq_append_iff.mp heq
    obtain ⟨f, later, rfl, hf, rfl⟩ := List.map_eq_cons_iff.mp hrest
    obtain ⟨hname, rfl⟩ := Prod.mk.inj hf
    exact ⟨f, ⟨earlier, later, hfields, hname, fun g hg => hafter _ (List.mem_map_of_mem hg)⟩, rfl⟩
  · rintro ⟨f, ⟨earlier, later, hfields, rfl, hlater⟩, rfl⟩
    refine ⟨_, _, by rw [hfields, List.map_append, List.map_cons], fun entry hentry => ?_⟩
    obtain ⟨g, hg, rfl⟩ := List.mem_map.mp hentry
    exact hlater g hg

theorem LastDeclares.unique {name : String} {f g : Field} (hf : s.LastDeclares name f)
    (hg : s.LastDeclares name g) : f = g := by
  have hp := (get?_properties_eq_some_iff name _).mpr ⟨f, hf, rfl⟩
  have hq := (get?_properties_eq_some_iff name _).mpr ⟨g, hg, rfl⟩
  exact (Property.mk.inj (Option.some.inj (hp.symm.trans hq))).1

/-- A declared name has a property, which is that of its last declaration. -/
theorem exists_lastDeclares {name : String} (h : name ∈ s.declaredNames) :
    ∃ f, s.LastDeclares name f ∧ Dict.get? s.properties name = some (s.property f) := by
  cases hp : Dict.get? s.properties name with
  | none =>
    rw [Dict.get?_eq_none_iff, keys_properties] at hp
    exact absurd h hp
  | some p =>
    obtain ⟨f, hf, rfl⟩ := (get?_properties_eq_some_iff name p).mp hp
    exact ⟨f, hf, rfl⟩

/-! ## Mappings and documents -/

/-- The mappings of the properties. -/
def fieldMappings (s : Schema) : Object :=
  s.properties.mapValues fun p => .obj p.fieldMapping

theorem keys_fieldMappings (s : Schema) : s.fieldMappings.keys = s.declaredNames := by
  have hkeys : s.fieldMappings.keys = Dict.keys s.properties := by
    simp [fieldMappings, Dict.keys, Dict.mapValues, Function.comp_def]
  rw [hkeys, keys_properties, declaredNames]

theorem keys_storedFields_sublist (s : Schema) (e : Entity) :
    (Dict.keys (s.storedFields e)).Sublist s.declaredNames := by
  have hkeys : Dict.keys s.properties = s.declaredNames := keys_properties s
  rw [← hkeys]
  exact Dict.keys_filterMap_sublist s.properties (·.read e)

theorem keys_document (s : Schema) (e : Entity) :
    Dict.keys (s.document e) =
      Dict.keys (s.storedFields e) ++ ((s.storedId e).map fun _ => Document.idKey).toList := by
  rw [document, Dict.keys_append]
  cases s.storedId e <;> rfl

theorem idKey_mem_keys_document_iff (hid : Document.idKey ∉ s.fields.map Field.name) (e : Entity) :
    Document.idKey ∈ Dict.keys (s.document e) ↔ ∃ id, s.storedId e = some id := by
  have hfresh : Document.idKey ∉ Dict.keys (s.storedFields e) :=
    (Dict.get?_eq_none_iff _ _).mp (get?_storedFields_eq_none e hid)
  rw [keys_document, List.mem_append, or_iff_right hfresh]
  simp

/-- The keys of a document are mapped, but for that of the id. -/
theorem mem_declaredNames_of_mem_keys_document {e : Entity} {key : String}
    (h : key ∈ Dict.keys (s.document e)) : key = Document.idKey ∨ key ∈ s.declaredNames := by
  rw [keys_document, List.mem_append] at h
  rcases h with hstored | hidKey
  · exact .inr ((s.keys_storedFields_sublist e).subset hstored)
  · obtain ⟨-, -, rfl⟩ := Option.map_eq_some_iff.mp (Option.mem_toList.mp hidKey)
    exact .inl rfl

theorem document_of_isNull {e : Entity} (h : ∀ id, s.idOf e = some id → id.isNull = true) :
    s.document e = s.storedFields e := by
  have hnone : s.storedId e = none := by
    refine Option.eq_none_iff_forall_ne_some.mpr fun id hstored => ?_
    obtain ⟨hid, hfalse⟩ := (s.storedId_eq_some_iff e id).mp hstored
    exact Bool.false_ne_true (hfalse.symm.trans (h id hid))
  rw [document, hnone]
  exact List.append_nil _

theorem LastDeclares.mem {name : String} {f : Field} (h : s.LastDeclares name f) :
    f ∈ s.fields := by
  obtain ⟨before, after, hfields, -⟩ := h
  rw [hfields]
  exact List.mem_append_right _ List.mem_cons_self

/-- For any declarations, repeated ones included, the index body maps the declared names in the
order of their first declarations, each by its last one. The document of an entity has those of
these names, in this order, whose last declaration reads a value, and with the value as it goes
through the conversion of that declaration, by the format among its options, and then through the
analyzer that it names. An id that is not null comes after them, so that no key of the document but
that of the id is without a mapping. The options of a field are taken to have each key once, as
objects of JSON do. -/
theorem toDocument_mapped (s : Schema) (hid : Document.idKey ∉ s.fields.map Field.name)
    (hoptions : ∀ f ∈ s.fields, (Dict.keys f.options).Nodup) (e : Entity)
    (ht : e.type = s.entityType) :
    ∃ mappings stored d : Object,
      s.indexBody.mappings = .single "properties" (.obj mappings) ∧ s.toDocument e = .ok d ∧
      mappings.keys = s.declaredNames ∧ stored.keys.Sublist s.declaredNames ∧
      (∀ name ∈ s.declaredNames, ∃ f mapping, s.LastDeclares name f ∧
        mappings.get? name = some (.obj mapping) ∧ f.MappedAs mapping ∧
        stored.get? name = (f.accessor.read e).map fun value =>
          let format := (Dict.get? f.options "format").bind Json.str?
          ((s.analyzer f.analyzerName).toIndex (f.conversion.toIndex format value)).toJson) ∧
      (Document.idKey ∈ d.keys ↔ ∃ id, s.idOf e = some id ∧ id.isNull = false) ∧
      (∀ id, s.idOf e = some id → id.isNull = false →
        d = stored ++ [(Document.idKey, id.toJson)]) ∧
      ((∀ id, s.idOf e = some id → id.isNull = true) → d = stored) ∧
      ∀ key ∈ d.keys, key = Document.idKey ∨ key ∈ mappings.keys := by
  refine ⟨s.fieldMappings, s.storedFields e, s.document e, rfl, toDocument_eq_ok hid ht,
    s.keys_fieldMappings, s.keys_storedFields_sublist e, fun name hname => ?_, ?_,
    fun id hsome hnull => ?_, document_of_isNull, fun key hkey => ?_⟩
  · obtain ⟨f, hf, hp⟩ := exists_lastDeclares hname
    refine ⟨f, (s.property f).fieldMapping, hf, ?_,
      (s.property f).mappedAs_fieldMapping (hoptions f hf.mem), ?_⟩
    · rw [fieldMappings, Dict.get?_mapValues, hp]
      rfl
    · rw [get?_storedFields, hp]
      rfl
  · rw [idKey_mem_keys_document_iff hid]
    exact exists_congr (s.storedId_eq_some_iff e)
  · rw [document, (s.storedId_eq_some_iff e id).mpr ⟨hsome, hnull⟩]
    rfl
  · rw [keys_fieldMappings]
    exact mem_declaredNames_of_mem_keys_document hkey

/-- A note whose title is declared again, as a keyword that is read from the heading, with the
second in which it was written and a list of tags that is kept as one text. -/
theorem toDocument_mapped_again :
    let again : Field :=
      { name := "title", kind := .string, options := [("type", .str "keyword")]
        accessor := Accessor.field "heading" }
    let written : Field :=
      { name := "written", kind := .date, options := [("format", .str "epoch_second")] }
    let tags : Field := { name := "tags", kind := .string, analyzerName := "list" }
    let s : Schema :=
      { entityType := "Note"
        declaredAnalyzers := [("list", .commaSeparated)]
        fields := [{ name := "title", kind := .string }, written, tags, again]
        id := some (Accessor.field "number") }
    let e : Entity :=
      ⟨"Note", [("title", .str "Tide"), ("heading", .str "Ebb"), ("number", .int 7),
        ("written", .date ⟨1626249600, 0, by decide⟩), ("tags", .list [.str "sea", .str "sand"])]⟩
    Document.idKey ∉ s.fields.map Field.name ∧
      (∀ f ∈ s.fields, (Dict.keys f.options).Nodup) ∧ e.type = s.entityType ∧
      ∃ mappings stored d title : Object,
        s.indexBody.mappings = .single "properties" (.obj mappings) ∧ s.toDocument e = .ok d ∧
        mappings.keys = ["title", "written", "tags"] ∧
        mappings.get? "title" = some (.obj title) ∧
        title.get? "type" = some (.str "keyword") ∧ title.get? "analyzer" = none ∧
        stored.get? "title" = some (.str "Ebb") ∧
        stored.get? "written" = some (.int 1626249600) ∧
        stored.get? "tags" = some (.str "sea,sand") ∧
        d = stored ++ [("_id", .int 7)] := by
  intro again written tags s e
  have hid : Document.idKey ∉ s.fields.map Field.name := by decide
  have hoptions : ∀ f ∈ s.fields, (Dict.keys f.options).Nodup := by
    simp [s, again, written, tags, Dict.keys]
  have hnames : s.declaredNames = ["title", "written", "tags"] := by decide
  have htitle : s.LastDeclares "title" again := ⟨s.fields.take 3, [], rfl, rfl, by simp⟩
  have hwritten : s.LastDeclares "written" written :=
    ⟨s.fields.take 1, [tags, again], rfl, rfl, by decide⟩
  have htags : s.LastDeclares "tags" tags := ⟨s.fields.take 2, [again], rfl, rfl, by decide⟩
  obtain ⟨mappings, stored, d, hmappings, hd, hkeys, -, hnamed, -, hdocument, -⟩ :=
    s.toDocument_mapped hid hoptions e rfl
  obtain ⟨f, title, hf, hmapping, hmapped, hstored⟩ := hnamed "title" (by rw [hnames]; decide)
  obtain rfl := hf.unique htitle
  have hkeyword : Dict.get? title "type" = some (.str "keyword") := hmapped.type
  obtain ⟨f, -, hf, -, -, hstoredDate⟩ := hnamed "written" (by rw [hnames]; decide)
  obtain rfl := hf.unique hwritten
  obtain ⟨f, -, hf, -, -, hstoredTags⟩ := hnamed "tags" (by rw [hnames]; decide)
  obtain rfl := hf.unique htags
  have hformat : DateFormat.alternatives (some "epoch_second") = [.epochSecond] := by
    have hname : ((Text.split ['|', '|'] "epoch_second".toList).map Text.trimBlanks).filter
        (· ≠ []) = ["epoch_second".toList] := by decide +kernel
    rw [DateFormat.alternatives, hname]
    rfl
  have hwrite : Conversion.date.toIndex (some "epoch_second")
      (.date ⟨1626249600, 0, by decide⟩) = .int 1626249600 := by
    rw [Conversion.toIndex, hformat]
    rfl
  have hdate : stored.get? "written" = some (.int 1626249600) :=
    hstoredDate.trans
      (congrArg (fun value => some (Analyzer.standard.toIndex value).toJson) hwrite)
  exact ⟨hid, hoptions, rfl, mappings, stored, d, title, hmappings, hd, hkeys.trans hnames,
    hmapping, hkeyword, hmapped.analyzer_of_other (by simp [hkeyword]), hstored, hdate, hstoredTags,
    hdocument (.int 7) rfl rfl⟩

end Schema

end Catalogue
