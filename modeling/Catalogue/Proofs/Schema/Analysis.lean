import Catalogue.Proofs.Decimal.PlainText
import Catalogue.Schema.IndexBody
import Mathlib.Data.List.Sigma

/-!
# The sections of the settings of an index

The settings of an index body come from one fold over the analyzers that writes to three sections
at once. What it writes does not depend on what is there already (`Analysis.foldl_declare`). The
names of what is defined in place end in `_tokenizer`, or in `_filter_` and a number : neither names
one thing of two analyzers (`Analysis.tokenizerName_injective`, `Analysis.filterName_inj`), so that
no entry is written over, and each section is the list of the entries that are written to it
(`Schema.section?_indexBody`).
-/

namespace Catalogue

/-! ## Names -/

/-- What stands before the last `c` of a text, and what stands after it. -/
theorem Text.append_cons_inj {c : Char} {s t u v : List Char} (hu : c ∉ u) (hv : c ∉ v)
    (h : s ++ c :: u = t ++ c :: v) : s = t ∧ u = v := by
  rcases List.append_eq_append_iff.mp h with ⟨a, ht, hc⟩ | ⟨a, hs, hc⟩
  · cases a with
    | nil => exact ⟨by simp [ht], by simpa using hc⟩
    | cons b a =>
      refine absurd ?_ hu
      simp [(List.cons.inj hc).2]
  · cases a with
    | nil => exact ⟨by simp [hs], by simpa using hc.symm⟩
    | cons b a =>
      refine absurd ?_ hv
      simp [(List.cons.inj hc).2]

theorem Text.digits_injective : Function.Injective Text.digits := by
  intro n m h
  have hn := Text.readDigits_digits n
  rw [h, Text.readDigits_digits] at hn
  exact (Option.some.inj hn).symm

namespace Analysis

theorem tokenizerName_injective : Function.Injective tokenizerName := by
  intro a b h
  exact String.append_left_inj _ |>.mp h

/-- A number has no underscore, so the last one ends the name of the analyzer and `_filter`. -/
theorem filterName_inj {a b : String} {n m : Nat} (h : filterName a n = filterName b m) :
    a = b ∧ n = m := by
  have hdigits (k : Nat) : '_' ∉ Text.digits k := Text.not_mem_digits rfl
  have hname (c : String) (k : Nat) :
      (filterName c k).toList = (c.toList ++ "_filter".toList) ++ '_' :: Text.digits k := by
    simp [filterName]
  have hlist := congrArg String.toList h
  rw [hname, hname] at hlist
  obtain ⟨hfront, hnumber⟩ := Text.append_cons_inj (hdigits n) (hdigits m) hlist
  exact ⟨String.toList_inj.mp (List.append_cancel_right hfront), Text.digits_injective hnumber⟩

end Analysis

/-- Parts of a dictionary that have different labels share no key if a key tells the label. -/
theorem Dict.nodup_keys_flatMap {α β κ : Type} {parts : List β} {f : β → Dict α} {label : β → κ}
    (hparts : (parts.map label).Nodup) (hf : ∀ part ∈ parts, (f part).keys.Nodup)
    (hlabel : ∀ p q key, key ∈ (f p).keys → key ∈ (f q).keys → label p = label q) :
    (keys (parts.flatMap f)).Nodup := by
  rw [keys, List.map_flatMap]
  refine List.nodup_flatMap.mpr ⟨hf, (List.pairwise_map.mp hparts).imp ?_⟩
  intro p q hne key hp hq
  exact hne (hlabel p q key hp hq)

/-! ## What one analyzer adds -/

namespace Json

/-- How an analyzer refers to a tokenizer or a filter : by a name if it is defined in place, or
else as it was given. -/
def reference (name : String) : Json → Json
  | .obj _ => .str name
  | given => given

/-- The entry that a tokenizer or a filter has in the section of its kind : one that is defined in
place has its definition there. -/
def definition (name : String) : Json → Object
  | .obj settings => [(name, .obj settings)]
  | _ => []

theorem eq_of_mem_keys_definition {name key : String} {given : Json}
    (h : key ∈ Dict.keys (given.definition name)) : key = name := by
  cases given <;> simp_all [definition, Dict.keys]

theorem nodup_keys_definition (name : String) (given : Json) :
    (Dict.keys (given.definition name)).Nodup := by
  cases given <;> simp [definition, Dict.keys]

end Json

namespace Analyzer

variable {a : Analyzer}

/-- The tokenizer that an analyzer of this name defines in place. -/
def tokenizerDefinitions (name : String) (a : Analyzer) : Object :=
  a.tokenizer?.toList.flatMap (Json.definition (Analysis.tokenizerName name))

/-- The filters of an analyzer of this name, in order. -/
def filterReferences (name : String) (a : Analyzer) : List Json :=
  a.filters.zipIdx.map fun entry => entry.1.reference (Analysis.filterName name entry.2)

/-- The filters that an analyzer of this name defines in place. -/
def filterDefinitions (name : String) (a : Analyzer) : Object :=
  a.filters.zipIdx.flatMap fun entry => entry.1.definition (Analysis.filterName name entry.2)

/-- The entry of an analyzer of this name. -/
def entry (name : String) (a : Analyzer) : Object :=
  let withTokenizer := match a.tokenizer? with
    | some given =>
      Dict.insert a.declaration "tokenizer" (given.reference (Analysis.tokenizerName name))
    | none => a.declaration
  if a.filterReferences name = [] then withTokenizer
  else Dict.insert withTokenizer "filter" (.arr (a.filterReferences name))

theorem eq_of_mem_keys_tokenizerDefinitions {name key : String}
    (h : key ∈ Dict.keys (a.tokenizerDefinitions name)) : key = Analysis.tokenizerName name := by
  rw [tokenizerDefinitions] at h
  cases ht : a.tokenizer? with
  | none => simp [ht, Dict.keys] at h
  | some given =>
    have hgiven : key ∈ Dict.keys (given.definition (Analysis.tokenizerName name)) := by
      simpa [ht] using h
    exact Json.eq_of_mem_keys_definition hgiven

theorem nodup_keys_tokenizerDefinitions (name : String) :
    (Dict.keys (a.tokenizerDefinitions name)).Nodup := by
  rw [tokenizerDefinitions]
  cases a.tokenizer? with
  | none => exact .nil
  | some given => simpa using Json.nodup_keys_definition _ given

theorem eq_of_mem_keys_filterDefinitions {name key : String}
    (h : key ∈ Dict.keys (a.filterDefinitions name)) : ∃ n, key = Analysis.filterName name n := by
  rw [filterDefinitions, Dict.keys, List.map_flatMap] at h
  obtain ⟨entry, -, hkey⟩ := List.mem_flatMap.mp h
  exact ⟨entry.2, Json.eq_of_mem_keys_definition hkey⟩

theorem nodup_keys_filterDefinitions (name : String) :
    (Dict.keys (a.filterDefinitions name)).Nodup := by
  refine Dict.nodup_keys_flatMap (List.nodup_zipIdx_map_snd a.filters)
    (fun entry _ => Json.nodup_keys_definition _ entry.1) fun p q key hp hq => ?_
  have hname := (Json.eq_of_mem_keys_definition hp).symm.trans (Json.eq_of_mem_keys_definition hq)
  exact (Analysis.filterName_inj hname).2

end Analyzer

namespace Analysis

theorem referTokenizer_eq (name : String) (section_ : Object) (tokenizer : Option Json) :
    referTokenizer name section_ tokenizer =
      (tokenizer.map (Json.reference (tokenizerName name)),
        Dict.merge section_
          (tokenizer.toList.flatMap (Json.definition (tokenizerName name)))) := by
  cases tokenizer with
  | none => rfl
  | some given => cases given <;> rfl

theorem referFilters_cons (name : String) (n : Nat) (section_ : Object) (given : Json)
    (rest : List Json) :
    referFilters name n section_ (given :: rest) =
      let result := referFilters name (n + 1)
        (Dict.merge section_ (given.definition (filterName name n))) rest
      (given.reference (filterName name n) :: result.1, result.2) := by
  cases given <;> rfl

theorem referFilters_eq (name : String) (n : Nat) (section_ : Object) (filters : List Json) :
    referFilters name n section_ filters =
      ((filters.zipIdx n).map fun entry => entry.1.reference (filterName name entry.2),
        Dict.merge section_
          ((filters.zipIdx n).flatMap fun entry =>
            entry.1.definition (filterName name entry.2))) := by
  induction filters generalizing n section_ with
  | nil => rfl
  | cons given rest ih =>
    rw [referFilters_cons, ih, List.zipIdx_cons, List.map_cons, List.flatMap_cons,
      Dict.merge_append]

theorem declare_eq (a : Analysis) (name : String) (analyzer : Analyzer) :
    a.declare name analyzer =
      { analyzers := Dict.insert a.analyzers name (.obj (analyzer.entry name))
        tokenizers := Dict.merge a.tokenizers (analyzer.tokenizerDefinitions name)
        filters := Dict.merge a.filters (analyzer.filterDefinitions name) } := by
  rw [declare, referTokenizer_eq, referFilters_eq, Analyzer.entry, Analyzer.tokenizerDefinitions]
  cases analyzer.tokenizer? <;> rfl

/-- The fold over the analyzers writes the entries of each in turn. -/
theorem foldl_declare (a : Analysis) (entries : Dict Analyzer) :
    entries.foldl (fun a entry => a.declare entry.1 entry.2) a =
      { analyzers := Dict.merge a.analyzers
          (entries.map fun entry => (entry.1, .obj (entry.2.entry entry.1)))
        tokenizers := Dict.merge a.tokenizers
          (entries.flatMap fun entry => entry.2.tokenizerDefinitions entry.1)
        filters := Dict.merge a.filters
          (entries.flatMap fun entry => entry.2.filterDefinitions entry.1) } := by
  induction entries generalizing a with
  | nil => rfl
  | cons first rest ih =>
    rw [List.foldl_cons, ih, declare_eq, List.map_cons, List.flatMap_cons, List.flatMap_cons,
      Dict.merge_append, Dict.merge_append]
    rfl

end Analysis

/-! ## The sections -/

/-- A section in JSON, if it is not empty. -/
def Analysis.present (section_ : Object) : Option Json :=
  if section_.isEmpty then none else some (.obj section_)

/-- What is under a key of the settings of analyzers. -/
def IndexBody.section? (body : IndexBody) (key : String) : Option Json :=
  ((body.settings.obj?.bind fun settings => Dict.get? settings "analysis").bind Json.obj?).bind
    fun analysis => Dict.get? analysis key

namespace Analysis

variable (a : Analysis)

/-- The sections by name. -/
def parts : Dict Object :=
  [("analyzer", a.analyzers), ("tokenizer", a.tokenizers), ("filter", a.filters)]

theorem get?_sections (key : String) :
    Dict.get? a.sections key = (Dict.get? a.parts key).bind present := by
  have hparts : (Dict.keys a.parts).Nodup := by simp [parts, Dict.keys]
  have hsections : a.sections =
      a.parts.filterMap fun entry => (present entry.2).map fun value => (entry.1, value) := by
    refine List.filterMap_congr fun entry _ => ?_
    rw [present]
    split <;> rfl
  rw [hsections, Dict.get?_filterMap hparts]

theorem section?_toJson (mappings : Json) (key : String) :
    (IndexBody.mk a.toJson mappings).section? key = (Dict.get? a.parts key).bind present := by
  rw [← get?_sections, toJson]
  split
  case isTrue h =>
    rw [List.isEmpty_iff.mp h]
    rfl
  case isFalse => rfl

end Analysis

namespace Schema

variable (s : Schema)

/-- The analyzers that the backend does not know. -/
def ownAnalyzers : Dict Analyzer :=
  s.analyzers.filter fun entry => !entry.2.isBuiltin

/-- The entries of these analyzers. -/
def analyzerEntries : Object :=
  s.ownAnalyzers.map fun entry => (entry.1, .obj (entry.2.entry entry.1))

/-- The tokenizers that are defined in place. -/
def tokenizerDefinitions : Object :=
  s.ownAnalyzers.flatMap fun entry => entry.2.tokenizerDefinitions entry.1

/-- The filters that are defined in place. -/
def filterDefinitions : Object :=
  s.ownAnalyzers.flatMap fun entry => entry.2.filterDefinitions entry.1

theorem nodup_keys_analyzers : (Dict.keys s.analyzers).Nodup := by
  have hdeclared := Dict.nodup_keys_ofList s.declaredAnalyzers
  rw [analyzers]
  split
  case isTrue => exact hdeclared
  case isFalse h =>
    have hnew : Analyzer.defaultName ∉ Dict.keys (Dict.ofList s.declaredAnalyzers) := by
      rw [← Dict.get?_eq_none_iff]
      simpa [Dict.contains] using h
    rw [← Dict.insert_of_not_mem hnew]
    exact Dict.nodup_keys_insert hdeclared _ _

theorem nodup_keys_ownAnalyzers : (Dict.keys s.ownAnalyzers).Nodup :=
  (Dict.keys_filter_sublist _ _).nodup s.nodup_keys_analyzers

theorem keys_analyzerEntries : Dict.keys s.analyzerEntries = Dict.keys s.ownAnalyzers := by
  rw [Dict.keys, analyzerEntries, List.map_map]
  rfl

theorem nodup_keys_analyzerEntries : (Dict.keys s.analyzerEntries).Nodup :=
  s.keys_analyzerEntries ▸ s.nodup_keys_ownAnalyzers

theorem nodup_keys_tokenizerDefinitions : (Dict.keys s.tokenizerDefinitions).Nodup := by
  refine Dict.nodup_keys_flatMap s.nodup_keys_ownAnalyzers
    (fun entry _ => Analyzer.nodup_keys_tokenizerDefinitions entry.1) fun p q key hp hq => ?_
  have hp := Analyzer.eq_of_mem_keys_tokenizerDefinitions hp
  have hq := Analyzer.eq_of_mem_keys_tokenizerDefinitions hq
  exact Analysis.tokenizerName_injective (hp.symm.trans hq)

theorem nodup_keys_filterDefinitions : (Dict.keys s.filterDefinitions).Nodup := by
  refine Dict.nodup_keys_flatMap s.nodup_keys_ownAnalyzers
    (fun entry _ => Analyzer.nodup_keys_filterDefinitions entry.1) fun p q key hp hq => ?_
  obtain ⟨n, hp⟩ := Analyzer.eq_of_mem_keys_filterDefinitions hp
  obtain ⟨m, hq⟩ := Analyzer.eq_of_mem_keys_filterDefinitions hq
  exact (Analysis.filterName_inj (hp.symm.trans hq)).1

/-- No entry is written over, so the sections are the entries that are written to them. -/
theorem ofAnalyzers_eq :
    Analysis.ofAnalyzers s.analyzers =
      { analyzers := s.analyzerEntries
        tokenizers := s.tokenizerDefinitions
        filters := s.filterDefinitions } := by
  have hfold := Analysis.foldl_declare {} s.ownAnalyzers
  calc Analysis.ofAnalyzers s.analyzers
      = { analyzers := Dict.ofList s.analyzerEntries
          tokenizers := Dict.ofList s.tokenizerDefinitions
          filters := Dict.ofList s.filterDefinitions } := hfold
    _ = _ := by
      rw [Dict.ofList_of_nodup s.nodup_keys_analyzerEntries,
        Dict.ofList_of_nodup s.nodup_keys_tokenizerDefinitions,
        Dict.ofList_of_nodup s.nodup_keys_filterDefinitions]

theorem section?_indexBody (key : String) :
    s.indexBody.section? key =
      (Dict.get? (Analysis.parts ⟨s.analyzerEntries, s.tokenizerDefinitions,
        s.filterDefinitions⟩) key).bind Analysis.present := by
  rw [← ofAnalyzers_eq]
  exact Analysis.section?_toJson _ _ key

end Schema

end Catalogue
