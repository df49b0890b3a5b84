import Catalogue.Proofs.Schema.Analysis

/-!
# References to analyzers

The mapping of a text names the analyzer of its field, and the settings leave out the analyzers
that the backend knows. A reference resolves if the settings have its name, or if the backend knows
the analyzer of the property by it. A name that is not declared always resolves, and so does that
of an analyzer with settings. What does not is an analyzer of the backend that is declared under
another name than its own : the settings leave it out, and the mappings use the declared name.

`Schema.resolves_iff` : the references that dangle are those to such an alias, and no others.
-/

namespace Catalogue

/-- What an index body says about a property. -/
def IndexBody.mapping? (body : IndexBody) (name : String) : Option Object :=
  ((body.mappings.obj?.bind fun mappings => Dict.get? mappings "properties").bind Json.obj?).bind
    fun properties => (Dict.get? properties name).bind Json.obj?

/-- The backend knows the analyzer by this name. -/
def Analyzer.KnownAs (a : Analyzer) (name : String) : Prop :=
  a.isBuiltin ∧ Dict.get? a.declaration "type" = some (.str name)

theorem Analyzer.knownAs_builtin (name : String) : (Analyzer.builtin name).KnownAs name :=
  ⟨rfl, rfl⟩

/-- An option that is not given leaves the analyzer of a text to the field. -/
theorem Property.get?_fieldMapping_analyzer {p : Property} (hkind : p.kind = .string)
    (htype : Dict.get? p.options "type" = none)
    (hanalyzer : Dict.get? p.options "analyzer" = none) :
    Dict.get? p.fieldMapping "analyzer" =
      if p.analyzerName = Analyzer.defaultName then none else some (.str p.analyzerName) := by
  rw [fieldMapping]
  simp only [hkind, FieldKind.backendType, true_and]
  by_cases hname : p.analyzerName = Analyzer.defaultName
  · simp [hname, Dict.get?_merge_of_none htype, Dict.get?_merge_of_none hanalyzer, Dict.get?_cons,
      Json.str?]
  · simp [hname, Dict.get?_merge_of_none htype, Dict.get?_merge_of_none hanalyzer, Dict.get?_cons,
      Dict.get?_insert, Json.str?]

namespace Schema

variable {s : Schema}

theorem mapping?_indexBody (s : Schema) (name : String) :
    s.indexBody.mapping? name = (Dict.get? s.properties name).map Property.fieldMapping := by
  have hmapping : s.indexBody.mapping? name =
      (Dict.get? (Dict.mapValues (fun p => Json.obj p.fieldMapping) s.properties) name).bind
        Json.obj? := rfl
  rw [hmapping, Dict.get?_mapValues]
  cases Dict.get? s.properties name <;> rfl

/-- A property has the analyzer that its field names. -/
theorem analyzer_of_get?_properties {name : String} {p : Property}
    (h : Dict.get? s.properties name = some p) : p.analyzer = s.analyzer p.analyzerName := by
  have hmem := Dict.mem_of_mem_ofList (Dict.mem_of_get? h)
  obtain ⟨field, -, heq⟩ := List.mem_map.mp hmem
  obtain rfl := (Prod.mk.inj heq).2
  rfl

/-- The settings have an analyzer of this name. -/
def Defines (s : Schema) (name : String) : Prop :=
  ∃ analyzers : Object,
    s.indexBody.section? "analyzer" = some (.obj analyzers) ∧ name ∈ Dict.keys analyzers

theorem defines_iff (name : String) :
    s.Defines name ↔ ∃ a, Dict.get? s.analyzers name = some a ∧ a.isBuiltin = false := by
  have hsection : s.indexBody.section? "analyzer" = Analysis.present s.analyzerEntries :=
    s.section?_indexBody "analyzer"
  have hown : name ∈ Dict.keys s.ownAnalyzers ↔
      ∃ a, Dict.get? s.analyzers name = some a ∧ a.isBuiltin = false := by
    rw [Dict.keys, List.mem_map]
    constructor
    · rintro ⟨⟨_, a⟩, hmem, rfl⟩
      obtain ⟨hmem, hown⟩ := List.mem_filter.mp hmem
      exact ⟨a, Dict.get?_of_mem s.nodup_keys_analyzers hmem, by simpa using hown⟩
    · rintro ⟨a, hget, hown⟩
      exact ⟨(name, a), List.mem_filter.mpr ⟨Dict.mem_of_get? hget, by simp [hown]⟩, rfl⟩
  rw [← hown, ← keys_analyzerEntries, Defines, hsection, Analysis.present]
  constructor
  · rintro ⟨analyzers, hpresent, hmem⟩
    split at hpresent
    case isTrue => simp at hpresent
    case isFalse => exact Json.obj.inj (Option.some.inj hpresent) ▸ hmem
  · intro hmem
    refine ⟨s.analyzerEntries, if_neg fun hempty => ?_, hmem⟩
    rw [List.isEmpty_iff.mp hempty] at hmem
    exact List.not_mem_nil hmem

/-- A reference by this name leads somewhere, for a property. -/
def Resolves (s : Schema) (p : Property) (name : String) : Prop :=
  s.Defines name ∨ p.analyzer.KnownAs name

/-- The name is declared for an analyzer that the backend knows by another name. -/
def Aliased (s : Schema) (name : String) : Prop :=
  ∃ a, Dict.get? s.analyzers name = some a ∧ a.isBuiltin ∧ ¬ a.KnownAs name

theorem resolves_analyzerName_iff {p : Property} (h : p.analyzer = s.analyzer p.analyzerName) :
    s.Resolves p p.analyzerName ↔ ¬ s.Aliased p.analyzerName := by
  rw [Resolves, defines_iff, h, analyzer, Aliased]
  cases hget : Dict.get? s.analyzers p.analyzerName with
  | none => simp [Analyzer.knownAs_builtin]
  | some a => cases hbuiltin : a.isBuiltin <;> simp [hbuiltin, Analyzer.KnownAs]

/-- A text without options for it names an analyzer that the settings or the backend have, unless
the name is an alias of an analyzer that the backend knows by another name. -/
theorem resolves_iff {name : String} {p : Property} (hp : Dict.get? s.properties name = some p)
    (hkind : p.kind = .string) (htype : Dict.get? p.options "type" = none)
    (hanalyzer : Dict.get? p.options "analyzer" = none) {mapping : Object}
    (hmapping : s.indexBody.mapping? name = some mapping) {reference : Json}
    (hreference : Dict.get? mapping "analyzer" = some reference) :
    ∃ n, reference = .str n ∧ (s.Resolves p n ↔ ¬ s.Aliased n) := by
  rw [mapping?_indexBody, hp] at hmapping
  obtain rfl := Option.some.inj hmapping
  rw [Property.get?_fieldMapping_analyzer hkind htype hanalyzer] at hreference
  split at hreference
  case isTrue => exact nomatch hreference
  case isFalse =>
    obtain rfl := Option.some.inj hreference
    exact ⟨_, rfl, resolves_analyzerName_iff (analyzer_of_get?_properties hp)⟩

/-- A list of tags that is cut at commas : the settings have its analyzer. -/
theorem resolves_iff_tags :
    let field : Field := { name := "tags", kind := .string, analyzerName := "tags" }
    let s : Schema :=
      { entityType := "Article"
        fields := [field]
        declaredAnalyzers := [("tags", .commaSeparated)] }
    Dict.get? s.properties "tags" = some (s.property field) ∧
      s.indexBody.mapping? "tags" = some [("type", .str "text"), ("analyzer", .str "tags")] ∧
      s.Resolves (s.property field) "tags" := by
  intro field s
  have hp : Dict.get? s.properties "tags" = some (s.property field) := rfl
  have hmapping : s.indexBody.mapping? "tags" =
      some [("type", .str "text"), ("analyzer", .str "tags")] := rfl
  obtain ⟨n, hn, hresolves⟩ := resolves_iff hp rfl rfl rfl hmapping rfl
  obtain rfl := Json.str.inj hn
  refine ⟨hp, hmapping, hresolves.mpr ?_⟩
  rintro ⟨a, hget, hbuiltin, -⟩
  obtain rfl : Analyzer.commaSeparated = a := Option.some.inj hget
  exact nomatch hbuiltin

/-- The standard analyzer under another name : the mapping refers to it by that name, and the
settings are empty. -/
theorem not_resolves_alias :
    let field : Field := { name := "title", kind := .string, analyzerName := "folded" }
    let s : Schema :=
      { entityType := "Article"
        fields := [field]
        declaredAnalyzers := [("folded", .standard)] }
    Dict.get? s.properties "title" = some (s.property field) ∧
      s.indexBody.mapping? "title" = some [("type", .str "text"), ("analyzer", .str "folded")] ∧
      s.indexBody.settings = .obj [] ∧
      ¬ s.Resolves (s.property field) "folded" := by
  intro field s
  have hsection : s.indexBody.section? "analyzer" = none := rfl
  have hdeclaration : (s.property field).analyzer.declaration = [("type", .str "standard")] := rfl
  refine ⟨rfl, rfl, rfl, ?_⟩
  rintro (⟨analyzers, hanalyzers, -⟩ | ⟨-, htype⟩)
  · rw [hsection] at hanalyzers
    exact nomatch hanalyzers
  · rw [hdeclaration] at htype
    simp [Dict.get?_cons] at htype

end Schema

end Catalogue
