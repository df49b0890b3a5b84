import Catalogue.Proofs.Schema.Analysis

/-!
# What the settings of an index declare

An analyzer that the backend does not know is declared by settings, by a separator and filters, or
by the application. `Analyzer.Declared` says what this comes to : settings, a tokenizer, and filters
in their order. In the entry of an analyzer a tokenizer or a filter that is defined in place gives
way to a name, and the definition is under this name in a section of its own (`Json.RefersTo`).

`Schema.indexBody_declares` : the settings have each of these analyzers as it was declared, what
they define in place, and nothing else.
-/

namespace Catalogue

/-! ## What is declared -/

/-- The filters that settings give : a list of them, or a single one, or none. -/
inductive FiltersOf : Option Json → List Json → Prop
  | list (items : List Json) : FiltersOf (some (.arr items)) items
  | absent : FiltersOf none []
  | null : FiltersOf (some .null) []
  | single (filter : Json) (hnull : filter ≠ .null) (hlist : ∀ items, filter ≠ .arr items) :
      FiltersOf (some filter) [filter]

theorem exists_filtersOf (given : Option Json) : ∃ filters, FiltersOf given filters := by
  match given with
  | none => exact ⟨[], .absent⟩
  | some .null => exact ⟨[], .null⟩
  | some (.arr items) => exact ⟨items, .list items⟩
  | some (.bool b) => exact ⟨[.bool b], .single _ nofun nofun⟩
  | some (.int n) => exact ⟨[.int n], .single _ nofun nofun⟩
  | some (.float x) => exact ⟨[.float x], .single _ nofun nofun⟩
  | some (.str s) => exact ⟨[.str s], .single _ nofun nofun⟩
  | some (.obj entries) => exact ⟨[.obj entries], .single _ nofun nofun⟩

namespace Analyzer

/-- What is declared of an analyzer that the backend does not know : its settings, its tokenizer,
and its filters in their order. A text with separators is cut by a pattern for the separator. -/
inductive Declared : Analyzer → Object → Option Json → List Json → Prop
  | custom (settings : Object) (filters : List Json)
      (h : FiltersOf (Dict.get? settings "filter") filters) :
      Declared (.custom settings) settings (Dict.get? settings "tokenizer") filters
  | delimited (separator : String) (filters : List Json) :
      Declared (.delimited separator filters) [("type", .str "custom")]
        (some (.obj
          [("type", .str "pattern"),
           ("pattern", .str (String.ofList (Text.escape Text.tokenReserved separator.toList)))]))
        filters
  | application (own : ApplicationAnalyzer) (h : own.isBuiltin = false) :
      Declared (.application own) own.declaration own.tokenizer? own.filters

/-- Settings have each key once, as objects of JSON do, and an analyzer of the application keeps its
tokenizer and its filters out of them. -/
def Sound : Analyzer → Prop
  | .custom settings => (Dict.keys settings).Nodup
  | .application own =>
    "tokenizer" ∉ Dict.keys own.declaration ∧ "filter" ∉ Dict.keys own.declaration
  | _ => True

variable {a : Analyzer} {settings : Object} {tokenizer : Option Json} {filters : List Json}

/-- Of every analyzer that the backend does not know, and of no other, something is declared. -/
theorem exists_declared_iff :
    (∃ settings tokenizer filters, a.Declared settings tokenizer filters) ↔
      a.isBuiltin = false := by
  constructor
  · rintro ⟨settings, tokenizer, filters, h⟩
    cases h with
    | custom => rfl
    | delimited => rfl
    | application own h => exact h
  · intro h
    cases a with
    | standard => exact nomatch h
    | builtin name => exact nomatch h
    | custom settings =>
      obtain ⟨filters, hfilters⟩ := exists_filtersOf (Dict.get? settings "filter")
      exact ⟨_, _, _, .custom settings filters hfilters⟩
    | delimited separator filters => exact ⟨_, _, _, .delimited separator filters⟩
    | application own => exact ⟨_, _, _, .application own h⟩

theorem Declared.tokenizer_eq (h : a.Declared settings tokenizer filters) :
    a.tokenizer? = tokenizer := by
  cases h <;> rfl

theorem Declared.filters_eq (h : a.Declared settings tokenizer filters) : a.filters = filters := by
  cases h with
  | custom _ _ hfilters =>
    generalize hgiven : Dict.get? settings "filter" = given at hfilters
    rw [Analyzer.filters, hgiven]
    cases hfilters with
    | single filter hnull hlist =>
      cases filter with
      | null => exact absurd rfl hnull
      | arr items => exact absurd rfl (hlist items)
      | _ => rfl
    | _ => rfl
  | delimited => rfl
  | application => rfl

/-- The settings other than tokenizer and filters are those that were declared. -/
theorem Declared.get?_declaration (h : a.Declared settings tokenizer filters) (hsound : a.Sound)
    (key : String) :
    Dict.get? a.declaration key =
      if key = "tokenizer" ∨ key = "filter" then none else Dict.get? settings key := by
  cases h with
  | custom settings _ _ =>
    have hsettings : (Dict.keys settings).Nodup := hsound
    rw [declaration, Dict.get?_erase (Dict.nodup_keys_erase hsettings _), Dict.get?_erase hsettings]
    grind
  | delimited => grind [declaration, Dict.get?_cons, Dict.get?_nil]
  | application own _ =>
    obtain ⟨htokenizer, hfilter⟩ := hsound
    rw [declaration]
    split
    case isTrue hkey =>
      rw [Dict.get?_eq_none_iff]
      rcases hkey with rfl | rfl
      · exact htokenizer
      · exact hfilter
    case isFalse => rfl

end Analyzer

/-! ## What an entry says -/

/-- What refers to a tokenizer or a filter : to one that is defined in place a name, under which the
section has the definition, and to any other one itself. -/
inductive Json.RefersTo (section_ : Object) (name : String) : Json → Json → Prop
  | defined (definition : Object) (h : Dict.get? section_ name = some (.obj definition)) :
      RefersTo section_ name (.obj definition) (.str name)
  | given (declared : Json) (h : ∀ definition, declared ≠ .obj definition) :
      RefersTo section_ name declared declared

theorem Json.refersTo_reference {section_ : Object} {name : String} {declared : Json}
    (h : ∀ definition, declared = .obj definition →
      Dict.get? section_ name = some (.obj definition)) :
    RefersTo section_ name declared (declared.reference name) := by
  cases declared with
  | obj definition => exact .defined definition (h definition rfl)
  | _ => exact .given _ nofun

/-- An entry of the settings says what was declared of the analyzer of this name. -/
structure Analyzer.Renders (tokenizers filterSection : Object) (name : String) (settings : Object)
    (tokenizer : Option Json) (filters : List Json) (entry : Object) : Prop where
  /-- All but the tokenizer and the filters is as it was declared. -/
  kept : ∀ key, key ≠ "tokenizer" → key ≠ "filter" →
    Dict.get? entry key = Dict.get? settings key
  /-- There is a tokenizer where one was declared. -/
  tokenizer : Option.Rel (Json.RefersTo tokenizers (Analysis.tokenizerName name)) tokenizer
    (Dict.get? entry "tokenizer")
  /-- The filters stand in their order, if there are any. -/
  filters : ∃ references : List Json, references.length = filters.length ∧
    (∀ (n : Nat) declared reference, filters[n]? = some declared →
      references[n]? = some reference →
      Json.RefersTo filterSection (Analysis.filterName name n) declared reference) ∧
    Dict.get? entry "filter" = if references = [] then none else some (.arr references)

/-- What is defined in place is in the section under its name. -/
theorem Json.RefersTo.get?_section {section_ definition : Object} {name : String} {reference : Json}
    (h : RefersTo section_ name (.obj definition) reference) :
    Dict.get? section_ name = some (.obj definition) := by
  cases h with
  | defined _ h => exact h
  | given _ h => exact absurd rfl (h definition)

namespace Analyzer.Renders

variable {tokenizers filterSection settings definition entry : Object} {name : String}
  {tokenizer : Option Json} {filters : List Json}

theorem get?_tokenizers
    (h : Renders tokenizers filterSection name settings (some (.obj definition)) filters entry) :
    Dict.get? tokenizers (Analysis.tokenizerName name) = some (.obj definition) := by
  have hrel := h.tokenizer
  generalize Dict.get? entry "tokenizer" = reference at hrel
  cases hrel with
  | some hrefers => exact hrefers.get?_section

theorem get?_filters
    (h : Renders tokenizers filterSection name settings tokenizer filters entry) {n : Nat}
    (hn : filters[n]? = some (.obj definition)) :
    Dict.get? filterSection (Analysis.filterName name n) = some (.obj definition) := by
  obtain ⟨references, hlength, hrefers, -⟩ := h.filters
  obtain ⟨hlt, -⟩ := List.getElem?_eq_some_iff.mp hn
  exact (hrefers n _ _ hn (List.getElem?_eq_getElem (hlength ▸ hlt))).get?_section

end Analyzer.Renders

namespace Schema

variable {s : Schema} {name : String} {settings : Object} {tokenizer : Option Json}
  {filters : List Json}

/-- The schema declares this of an analyzer under this name. -/
def Declares (s : Schema) (name : String) (settings : Object) (tokenizer : Option Json)
    (filters : List Json) : Prop :=
  ∃ a, Dict.get? s.analyzers name = some a ∧ a.Declared settings tokenizer filters

theorem Declares.mem_ownAnalyzers (h : s.Declares name settings tokenizer filters) :
    ∃ a, (name, a) ∈ s.ownAnalyzers ∧ a.Declared settings tokenizer filters := by
  obtain ⟨a, hget, ha⟩ := h
  have hown := Analyzer.exists_declared_iff.mp ⟨settings, tokenizer, filters, ha⟩
  exact ⟨a, List.mem_filter.mpr ⟨Dict.mem_of_get? hget, by simp [hown]⟩, ha⟩

theorem exists_declares_of_mem {entry : String × Analyzer} (h : entry ∈ s.ownAnalyzers) :
    ∃ settings tokenizer filters, s.Declares entry.1 settings tokenizer filters ∧
      entry.2.Declared settings tokenizer filters := by
  obtain ⟨hmem, hown⟩ := List.mem_filter.mp h
  obtain ⟨settings, tokenizer, filters, ha⟩ :=
    Analyzer.exists_declared_iff.mpr (show entry.2.isBuiltin = false by simpa using hown)
  have hget := Dict.get?_of_mem s.nodup_keys_analyzers hmem
  exact ⟨settings, tokenizer, filters, ⟨entry.2, hget, ha⟩, ha⟩

/-- The analyzer that is there without a declaration is one that the backend knows. -/
theorem mem_declaredAnalyzers_of_mem_ownAnalyzers {s : Schema} {entry : String × Analyzer}
    (h : entry ∈ s.ownAnalyzers) : entry ∈ s.declaredAnalyzers := by
  obtain ⟨hmem, hown⟩ := List.mem_filter.mp h
  rw [analyzers] at hmem
  split at hmem
  case isTrue => exact Dict.mem_of_mem_ofList hmem
  case isFalse =>
    rcases List.mem_append.mp hmem with hmem | hmem
    · exact Dict.mem_of_mem_ofList hmem
    · obtain rfl := List.mem_singleton.mp hmem
      exact absurd hown Bool.false_ne_true

/-! ## What the sections have -/

theorem get?_tokenizerDefinitions {a : Analyzer} (ha : (name, a) ∈ s.ownAnalyzers)
    {definition : Object} (h : a.tokenizer? = some (.obj definition)) :
    Dict.get? s.tokenizerDefinitions (Analysis.tokenizerName name) = some (.obj definition) := by
  refine Dict.get?_of_mem s.nodup_keys_tokenizerDefinitions ?_
  refine List.mem_flatMap.mpr ⟨_, ha, ?_⟩
  simp [Analyzer.tokenizerDefinitions, h, Json.definition]

theorem get?_filterDefinitions {a : Analyzer} (ha : (name, a) ∈ s.ownAnalyzers)
    {n : Nat} {definition : Object} (h : a.filters[n]? = some (.obj definition)) :
    Dict.get? s.filterDefinitions (Analysis.filterName name n) = some (.obj definition) := by
  refine Dict.get?_of_mem s.nodup_keys_filterDefinitions ?_
  refine List.mem_flatMap.mpr ⟨_, ha, List.mem_flatMap.mpr ⟨(.obj definition, n), ?_, ?_⟩⟩
  · exact List.mem_zipIdx_iff_getElem?.mpr h
  · exact List.mem_singleton.mpr rfl

end Schema

namespace Json

theorem mem_definition_iff {name key : String} {declared value : Json} :
    (key, value) ∈ declared.definition name ↔
      key = name ∧ value = declared ∧ ∃ definition, declared = .obj definition := by
  cases declared <;> simp [definition]

end Json

namespace Schema

variable {s : Schema}

/-- Every entry of the section of tokenizers was declared in place. -/
theorem exists_declares_of_get?_tokenizer {key : String} {value : Json}
    (h : Dict.get? s.tokenizerDefinitions key = some value) :
    ∃ name settings definition filters,
      s.Declares name settings (some (.obj definition)) filters ∧
      key = Analysis.tokenizerName name ∧ value = .obj definition := by
  obtain ⟨entry, hentry, hmem⟩ := List.mem_flatMap.mp (Dict.mem_of_get? h)
  obtain ⟨settings, tokenizer, filters, hdeclares, ha⟩ := exists_declares_of_mem hentry
  rw [Analyzer.tokenizerDefinitions, ha.tokenizer_eq] at hmem
  obtain ⟨declared, hdeclared, hdefinition⟩ := List.mem_flatMap.mp hmem
  obtain ⟨hkey, rfl, definition, rfl⟩ := Json.mem_definition_iff.mp hdefinition
  obtain rfl := Option.mem_toList.mp hdeclared
  exact ⟨entry.1, settings, definition, filters, hdeclares, hkey, rfl⟩

/-- Every entry of the section of filters was declared in place. -/
theorem exists_declares_of_get?_filter {key : String} {value : Json}
    (h : Dict.get? s.filterDefinitions key = some value) :
    ∃ name settings tokenizer filters, ∃ (n : Nat) (definition : Object),
      s.Declares name settings tokenizer filters ∧ filters[n]? = some (.obj definition) ∧
      key = Analysis.filterName name n ∧ value = .obj definition := by
  obtain ⟨entry, hentry, hmem⟩ := List.mem_flatMap.mp (Dict.mem_of_get? h)
  obtain ⟨settings, tokenizer, filters, hdeclares, ha⟩ := exists_declares_of_mem hentry
  rw [Analyzer.filterDefinitions, ha.filters_eq] at hmem
  obtain ⟨⟨declared, n⟩, hdeclared, hdefinition⟩ := List.mem_flatMap.mp hmem
  obtain ⟨hkey, rfl, definition, rfl⟩ := Json.mem_definition_iff.mp hdefinition
  exact ⟨entry.1, settings, tokenizer, filters, n, definition, hdeclares,
    List.mem_zipIdx_iff_getElem?.mp hdeclared, hkey, rfl⟩

end Schema

namespace Analyzer

variable {a : Analyzer} {settings : Object} {tokenizer : Option Json} {filters : List Json}

/-- A lookup in an entry is about the filters, the tokenizer, or what is left of the
declaration. -/
theorem get?_entry (name key : String) :
    Dict.get? (a.entry name) key =
      if key = "filter" ∧ a.filterReferences name ≠ [] then some (.arr (a.filterReferences name))
      else if key = "tokenizer" ∧ a.tokenizer?.isSome then
        a.tokenizer?.map (Json.reference (Analysis.tokenizerName name))
      else Dict.get? a.declaration key := by
  rw [entry]
  cases a.tokenizer? <;> grind [Dict.get?_insert]

theorem Declared.renders_entry (h : a.Declared settings tokenizer filters) (hsound : a.Sound)
    {name : String} {s : Schema} (ha : (name, a) ∈ s.ownAnalyzers) :
    Renders s.tokenizerDefinitions s.filterDefinitions name settings tokenizer filters
      (a.entry name) where
  kept key htokenizer hfilter := by
    rw [get?_entry, h.get?_declaration hsound]
    simp [htokenizer, hfilter]
  tokenizer := by
    rw [get?_entry, h.get?_declaration hsound, h.tokenizer_eq]
    cases ht : tokenizer with
    | none => simp
    | some declared =>
      simp only [Option.isSome_some, Option.map_some]
      refine .some (Json.refersTo_reference fun definition hobj => ?_)
      exact Schema.get?_tokenizerDefinitions ha (by rw [h.tokenizer_eq, ht, hobj])
  filters := by
    refine ⟨a.filterReferences name, ?_, fun n declared reference hdeclared hreference => ?_, ?_⟩
    · simp [filterReferences, h.filters_eq]
    · rw [filterReferences, h.filters_eq] at hreference
      have hreference : declared.reference (Analysis.filterName name n) = reference := by
        simpa [List.getElem?_zipIdx, hdeclared] using hreference
      subst hreference
      refine Json.refersTo_reference fun definition hobj => ?_
      exact Schema.get?_filterDefinitions ha (by rw [h.filters_eq, hdeclared, hobj])
    · rw [get?_entry, h.get?_declaration hsound]
      split <;> simp_all

end Analyzer

namespace Schema

/-- The settings of an index have an entry for each analyzer that the backend does not know, in the
order of the schema and as it was declared, and in two further sections what these analyzers define
in place, and nothing else. What is defined in place has a name of its own, and a section without
entries is not there. -/
theorem indexBody_declares (s : Schema) (h : ∀ entry ∈ s.declaredAnalyzers, entry.2.Sound) :
    ∃ analyzers tokenizers filters : Object,
      s.indexBody.section? "analyzer" = Analysis.present analyzers ∧
      s.indexBody.section? "tokenizer" = Analysis.present tokenizers ∧
      s.indexBody.section? "filter" = Analysis.present filters ∧
      (Dict.keys analyzers).Sublist (Dict.keys s.analyzers) ∧
      (Dict.keys analyzers).Nodup ∧ (Dict.keys tokenizers).Nodup ∧ (Dict.keys filters).Nodup ∧
      (∀ name, name ∈ Dict.keys analyzers ↔
        ∃ settings tokenizer given, s.Declares name settings tokenizer given) ∧
      (∀ name settings tokenizer given, s.Declares name settings tokenizer given →
        ∃ entry, Dict.get? analyzers name = some (.obj entry) ∧
          Analyzer.Renders tokenizers filters name settings tokenizer given entry) ∧
      (∀ key value, Dict.get? tokenizers key = some value →
        ∃ name settings definition given,
          s.Declares name settings (some (.obj definition)) given ∧
          key = Analysis.tokenizerName name ∧ value = .obj definition) ∧
      (∀ key value, Dict.get? filters key = some value →
        ∃ name settings tokenizer given, ∃ (n : Nat) (definition : Object),
          s.Declares name settings tokenizer given ∧ given[n]? = some (.obj definition) ∧
          key = Analysis.filterName name n ∧ value = .obj definition) ∧
      (∀ name other, Analysis.tokenizerName name = Analysis.tokenizerName other → name = other) ∧
      ∀ name other n m, Analysis.filterName name n = Analysis.filterName other m →
        name = other ∧ n = m := by
  have hkeys : Dict.keys s.analyzerEntries = Dict.keys s.ownAnalyzers := s.keys_analyzerEntries
  refine ⟨s.analyzerEntries, s.tokenizerDefinitions, s.filterDefinitions, s.section?_indexBody _,
    s.section?_indexBody _, s.section?_indexBody _, hkeys ▸ Dict.keys_filter_sublist _ _,
    s.nodup_keys_analyzerEntries, s.nodup_keys_tokenizerDefinitions,
    s.nodup_keys_filterDefinitions, fun name => ?_, fun name settings tokenizer given hdeclares => ?_,
    fun _ _ => exists_declares_of_get?_tokenizer, fun _ _ => exists_declares_of_get?_filter,
    fun _ _ heq => Analysis.tokenizerName_injective heq,
    fun _ _ _ _ => Analysis.filterName_inj⟩
  · rw [hkeys]
    constructor
    · intro hname
      obtain ⟨entry, hentry, rfl⟩ := List.mem_map.mp hname
      obtain ⟨settings, tokenizer, given, hdeclares, -⟩ := exists_declares_of_mem hentry
      exact ⟨settings, tokenizer, given, hdeclares⟩
    · rintro ⟨settings, tokenizer, given, hdeclares⟩
      obtain ⟨a, ha, -⟩ := hdeclares.mem_ownAnalyzers
      exact List.mem_map.mpr ⟨(name, a), ha, rfl⟩
  · obtain ⟨a, ha, hdeclared⟩ := hdeclares.mem_ownAnalyzers
    have hsound := h _ (mem_declaredAnalyzers_of_mem_ownAnalyzers ha)
    exact ⟨a.entry name,
      Dict.get?_of_mem s.nodup_keys_analyzerEntries (List.mem_map.mpr ⟨_, ha, rfl⟩),
      hdeclared.renders_entry hsound ha⟩

/-- A filter in place of an analyzer `a` next to an analyzer that has the name of that filter, a
tokenizer in place, and a list that is cut at dots. -/
theorem indexBody_declares_twins :
    let s : Schema :=
      { entityType := "Article"
        fields := []
        declaredAnalyzers :=
          [("a", .custom
              [("type", .str "custom"), ("tokenizer", .obj [("type", .str "ngram")]),
               ("filter", .arr [.str "lowercase", .obj [("type", .str "shingle")]])]),
            ("a_filter_1", .custom [("filter", .obj [("type", .str "stop")])]),
            ("folded", .standard),
            ("tags", .delimited "." [.str "trim"])] }
    (∀ entry ∈ s.declaredAnalyzers, entry.2.Sound) ∧
      ∃ analyzers tokenizers filters : Object,
        s.indexBody.section? "analyzer" = Analysis.present analyzers ∧
        s.indexBody.section? "tokenizer" = Analysis.present tokenizers ∧
        s.indexBody.section? "filter" = Analysis.present filters ∧
        (∃ entry, Dict.get? analyzers "a" = some (.obj entry) ∧
          Dict.get? entry "type" = some (.str "custom")) ∧
        "folded" ∉ Dict.keys analyzers ∧
        Dict.get? tokenizers "a_tokenizer" = some (.obj [("type", .str "ngram")]) ∧
        Dict.get? tokenizers "tags_tokenizer" =
          some (.obj [("type", .str "pattern"), ("pattern", .str "\\.")]) ∧
        Dict.get? filters "a_filter_1" = some (.obj [("type", .str "shingle")]) ∧
        Dict.get? filters "a_filter_1_filter_0" = some (.obj [("type", .str "stop")]) := by
  intro s
  have hsound : ∀ entry ∈ s.declaredAnalyzers, entry.2.Sound := by
    intro entry hentry
    simp only [s, List.mem_cons, List.not_mem_nil, or_false] at hentry
    rcases hentry with rfl | rfl | rfl | rfl
    · simp [Analyzer.Sound, Dict.keys]
    · simp [Analyzer.Sound, Dict.keys]
    · trivial
    · trivial
  have hfirst : s.Declares "a" _ (some (.obj [("type", .str "ngram")]))
      [.str "lowercase", .obj [("type", .str "shingle")]] :=
    ⟨_, rfl, .custom _ _ (.list _)⟩
  have hsecond : s.Declares "a_filter_1" _ none [.obj [("type", .str "stop")]] :=
    ⟨_, rfl, .custom _ _ (.single _ (by simp) (by simp))⟩
  have htags : s.Declares "tags" _
      (some (.obj [("type", .str "pattern"), ("pattern", .str "\\.")])) _ :=
    ⟨_, rfl, .delimited "." [.str "trim"]⟩
  have hname : Analysis.filterName "a" 1 = "a_filter_1" := by
    rw [Analysis.filterName, Text.digits]
    rfl
  have hname' : Analysis.filterName "a_filter_1" 0 = "a_filter_1_filter_0" := by
    rw [Analysis.filterName, Text.digits]
    rfl
  obtain ⟨analyzers, tokenizers, filters, hanalyzers, htokenizers, hfilters, -, -, -, -, hkeys,
    hrenders, -⟩ := indexBody_declares s hsound
  obtain ⟨first, hentry, hrender⟩ := hrenders _ _ _ _ hfirst
  obtain ⟨_, -, hrender'⟩ := hrenders _ _ _ _ hsecond
  obtain ⟨_, -, hrenderTags⟩ := hrenders _ _ _ _ htags
  refine ⟨hsound, analyzers, tokenizers, filters, hanalyzers, htokenizers, hfilters,
    ⟨first, hentry, hrender.kept "type" (by decide) (by decide)⟩, fun hmem => ?_,
    hrender.get?_tokenizers, hrenderTags.get?_tokenizers, hname ▸ hrender.get?_filters rfl,
    hname' ▸ hrender'.get?_filters rfl⟩
  obtain ⟨_, _, _, a, hget, hdeclared⟩ := (hkeys "folded").mp hmem
  obtain rfl : Analyzer.standard = a := Option.some.inj hget
  cases hdeclared

end Schema

end Catalogue
