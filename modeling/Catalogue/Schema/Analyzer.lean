import Catalogue.Text.Escape
import Catalogue.Text.Split
import Catalogue.Value

/-!
# Analyzers

An analyzer says how the backend cuts a text into terms. It is built into the backend, or declared
by settings, or keeps a list as one text with separators and cuts it at them, or is the
application's. The third kind changes values on their way into a document and back: lists of scalars
are joined and texts are split. The fourth may change them in any way.
-/

namespace Catalogue

/-- What an analyzer of the application says of itself, and how it changes values. -/
structure ApplicationAnalyzer where
  /-- The settings other than tokenizer and filters. -/
  declaration : Object
  /-- The tokenizer, a name or a definition. -/
  tokenizer? : Option Json := none
  /-- The filters in order, each a name or a definition. -/
  filters : List Json := []
  /-- Whether the backend knows the analyzer without a declaration. -/
  isBuiltin : Bool := false
  /-- A value on its way into a document. -/
  toIndex : Value → Value := id
  /-- A value on its way out of a document. -/
  ofIndex : Value → Value := id

/-- How the text of a field is analyzed. -/
inductive Analyzer where
  /-- The standard analyzer of the backend. -/
  | standard
  /-- Another analyzer that the backend knows by name. -/
  | builtin (name : String)
  /-- An analyzer given by its settings, tokenizer and filters among them. -/
  | custom (settings : Object)
  /-- An analyzer of lists that are kept as one text with separators. -/
  | delimited (separator : String) (filters : List Json)
  /-- An analyzer of the application. -/
  | application (a : ApplicationAnalyzer)

namespace Analyzer

/-- The name of the analyzer of fields that name none. -/
def defaultName : String := "default"

/-- The analyzer given by a settings object; anything else gives the standard one. -/
def ofJson : Json → Analyzer
  | .obj settings => .custom settings
  | _ => .standard

/-- The analyzer of lists that are kept as comma separated values. -/
def commaSeparated : Analyzer :=
  .delimited "," []

/-- Whether the backend knows the analyzer without a declaration. -/
def isBuiltin : Analyzer → Bool
  | .standard => true
  | .builtin _ => true
  | .custom _ => false
  | .delimited _ _ => false
  | .application a => a.isBuiltin

/-- The settings other than tokenizer and filters. -/
def declaration : Analyzer → Object
  | .standard => [("type", .str "standard")]
  | .builtin name => [("type", .str name)]
  | .custom settings => Dict.erase (Dict.erase settings "tokenizer") "filter"
  | .delimited _ _ => [("type", .str "custom")]
  | .application a => a.declaration

/-- The tokenizer, a name or a definition. -/
def tokenizer? : Analyzer → Option Json
  | .standard => none
  | .builtin _ => none
  | .custom settings => Dict.get? settings "tokenizer"
  | .delimited separator _ =>
    some (.obj
      [("type", .str "pattern"),
       ("pattern", .str (String.ofList (Text.escape Text.tokenReserved separator.toList)))])
  | .application a => a.tokenizer?

/-- The filters in order, each a name or a definition. -/
def filters : Analyzer → List Json
  | .standard => []
  | .builtin _ => []
  | .custom settings =>
    match Dict.get? settings "filter" with
    | some (.arr items) => items
    | some .null => []
    | none => []
    | some single => [single]
  | .delimited _ filters => filters
  | .application a => a.filters

/-- A value on its way into a document. -/
def toIndex : Analyzer → Value → Value
  | .delimited separator _, .list items =>
    match items.mapM Value.toText? with
    | some texts => .str (String.ofList (Text.join separator.toList (texts.map String.toList)))
    | none => .list items
  | .application a, value => a.toIndex value
  | _, value => value

/-- A value on its way out of a document. -/
def ofIndex : Analyzer → Value → Value
  | .delimited separator _, .str s =>
    if s = "" then .list []
    else .list ((Text.split separator.toList s.toList).map fun piece => .str (String.ofList piece))
  | .application a, value => a.ofIndex value
  | _, value => value

end Analyzer

end Catalogue
