import Catalogue.Schema.Basic
import Catalogue.Text.Numeral

/-!
# Index bodies

What the backend is told when an index is created: settings for the analyzers that it does not
know, and a mapping for each property. A tokenizer or filter that is defined in place gets a name,
made of the name of its analyzer, and goes to a section of its own.
-/

namespace Catalogue

/-- The sections of the settings of analyzers. -/
structure Analysis where
  /-- The analyzers by name. -/
  analyzers : Object := []
  /-- The tokenizers that were defined in place. -/
  tokenizers : Object := []
  /-- The filters that were defined in place. -/
  filters : Object := []

/-- What the backend is told when an index is created. -/
structure IndexBody where
  /-- The settings of analyzers. -/
  settings : Json
  /-- The mappings of properties. -/
  mappings : Json

namespace Analysis

/-- The name of the tokenizer that an analyzer defines in place. -/
def tokenizerName (analyzer : String) : String :=
  analyzer ++ "_tokenizer"

/-- The name of the filter that an analyzer defines in place as number `n` of its filters. -/
def filterName (analyzer : String) (n : Nat) : String :=
  analyzer ++ "_filter_" ++ String.ofList (Text.digits n)

/-- The references to a list of filters, the first of which is number `n`, and the section of
filters with those that are defined in place. -/
def referFilters (analyzer : String) (n : Nat) (section_ : Object) :
    List Json → List Json × Object
  | [] => ([], section_)
  | .obj definition :: rest =>
    let name := filterName analyzer n
    let result := referFilters analyzer (n + 1) (Dict.insert section_ name (.obj definition)) rest
    (.str name :: result.1, result.2)
  | filter :: rest =>
    let result := referFilters analyzer (n + 1) section_ rest
    (filter :: result.1, result.2)

/-- The reference to a tokenizer and the section of tokenizers with one that is defined in
place. -/
def referTokenizer (analyzer : String) (section_ : Object) :
    Option Json → Option Json × Object
  | some (.obj definition) =>
    let name := tokenizerName analyzer
    (some (.str name), Dict.insert section_ name (.obj definition))
  | tokenizer => (tokenizer, section_)

/-- Adds an analyzer under a name. -/
def declare (a : Analysis) (name : String) (analyzer : Analyzer) : Analysis :=
  let (tokenizer, tokenizers) := referTokenizer name a.tokenizers analyzer.tokenizer?
  let (references, filters) := referFilters name 0 a.filters analyzer.filters
  let withTokenizer := match tokenizer with
    | some reference => Dict.insert analyzer.declaration "tokenizer" reference
    | none => analyzer.declaration
  let declaration :=
    if references = [] then withTokenizer
    else Dict.insert withTokenizer "filter" (.arr references)
  { analyzers := Dict.insert a.analyzers name (.obj declaration)
    tokenizers := tokenizers
    filters := filters }

/-- The settings of those analyzers that the backend does not know. -/
def ofAnalyzers (analyzers : Dict Analyzer) : Analysis :=
  (analyzers.filter fun entry => !entry.2.isBuiltin).foldl
    (fun a entry => a.declare entry.1 entry.2) {}

/-- The sections that are not empty. -/
def sections (a : Analysis) : Object :=
  [("analyzer", a.analyzers), ("tokenizer", a.tokenizers), ("filter", a.filters)].filterMap
    fun entry => if entry.2.isEmpty then none else some (entry.1, .obj entry.2)

/-- The settings in JSON. -/
def toJson (a : Analysis) : Json :=
  if a.sections.isEmpty then .obj [] else .single "analysis" (.obj a.sections)

end Analysis

/-- The index body of a schema. -/
def Schema.indexBody (s : Schema) : IndexBody :=
  { settings := (Analysis.ofAnalyzers s.analyzers).toJson
    mappings := .single "properties"
      (.obj (s.properties.mapValues fun property => .obj property.fieldMapping)) }

/-- The body in JSON. -/
def IndexBody.toJson (body : IndexBody) : Json :=
  .obj [("settings", body.settings), ("mappings", body.mappings)]

end Catalogue
