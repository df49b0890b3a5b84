import Catalogue.Entity
import Catalogue.Schema.Analyzer
import Catalogue.Time.Format

/-!
# Fields of a schema

A field is declared by its name and kind; options for the backend, an analyzer, an accessor and a
conversion may be given. A property is a field together with the analyzer that it names. A value
goes from the entity through the conversion and the analyzer into the document, and back the other
way round.
-/

namespace Catalogue

/-- What a field holds. -/
inductive FieldKind where
  /-- Text. -/
  | string
  /-- Whole numbers. -/
  | integer
  /-- Numbers. -/
  | float
  /-- Truth values. -/
  | boolean
  /-- Instants. -/
  | date
  /-- Maps of values. -/
  | object
deriving DecidableEq, Repr

namespace FieldKind

/-- The name of the kind in a schema. -/
def name : FieldKind → String
  | .string => "string"
  | .integer => "integer"
  | .float => "float"
  | .boolean => "boolean"
  | .date => "date"
  | .object => "object"

/-- The type of the field in the backend. -/
def backendType : FieldKind → String
  | .string => "text"
  | .integer => "long"
  | .float => "double"
  | .boolean => "boolean"
  | .date => "date"
  | .object => "object"

/-- The kind with this name. -/
def ofName? : String → Option FieldKind
  | "string" => some .string
  | "integer" => some .integer
  | "float" => some .float
  | "boolean" => some .boolean
  | "date" => some .date
  | "object" => some .object
  | _ => none

/-- The kind that JSON names, by a text or by an object with null under the name. -/
def ofJson? : Json → Option FieldKind
  | .str name => ofName? name
  | .obj [(name, .null)] => ofName? name
  | _ => none

end FieldKind

/-- How a value is changed on its way into a document and back. -/
inductive Conversion where
  /-- Not at all. -/
  | identity
  /-- Instants are written and read by the format of the field. -/
  | date
  /-- By functions of the application, one for each way. -/
  | application (toIndex ofIndex : Value → Value)

namespace Conversion

/-- A value on its way into a document: an instant is written by the first alternative of the
format, or by RFC 3339 if there is none. -/
def toIndex (format : Option String) : Conversion → Value → Value
  | .date, .date t => ((DateFormat.alternatives format).headD .rfc3339).write t
  | .application toIndex _, value => toIndex value
  | _, value => value

/-- The alternatives by which instants are read: those of the format, or RFC 3339 if there are
none. -/
def readers (format : Option String) : List DateFormat :=
  match DateFormat.alternatives format with
  | [] => [.rfc3339]
  | alternatives => alternatives

/-- The value as an instant, by the first alternative that can read it. -/
def readDate (format : Option String) (value : Value) : Value :=
  match (readers format).findSome? fun alternative => alternative.read? value with
  | some t => .date t
  | none => value

/-- A value on its way out of a document: a text or an integer that the format can read is an
instant. -/
def ofIndex (format : Option String) : Conversion → Value → Value
  | .date, .str s => readDate format (.str s)
  | .date, .int n => readDate format (.int n)
  | .application _ ofIndex, value => ofIndex value
  | _, value => value

end Conversion

/-- A field as a schema declares it. -/
structure Field where
  /-- The name in documents. -/
  name : String
  /-- What the field holds. -/
  kind : FieldKind
  /-- Options for the backend, which override what the kind implies. -/
  options : Object := []
  /-- The name of the analyzer. -/
  analyzerName : String := Analyzer.defaultName
  /-- Where the field is read and written. -/
  accessor : Accessor := Accessor.field name
  /-- How values are changed on their way. -/
  conversion : Conversion := if kind = .date then .date else .identity

namespace Field

/-- Adds an option, in place of one of the same name. -/
def option (f : Field) (key : String) (value : Json) : Field :=
  { f with options := Dict.insert f.options key value }

/-- Gives the format of dates. -/
def format (f : Field) (format : String) : Field :=
  f.option "format" (.str format)

/-- Keeps the text as one term. -/
def keyword (f : Field) : Field :=
  f.option "type" (.str "keyword")

end Field

/-- A field together with its analyzer. -/
structure Property extends Field where
  /-- The analyzer that the field names. -/
  analyzer : Analyzer

namespace Property

/-- The format of dates, if the options give one as a text. -/
def dateFormat (p : Property) : Option String :=
  (Dict.get? p.options "format").bind Json.str?

/-- A value of the entity as a document holds it. -/
def toWire (p : Property) (value : Value) : Json :=
  (p.analyzer.toIndex (p.conversion.toIndex p.dateFormat value)).toJson

/-- A value of a document as the entity holds it. -/
def ofWire (p : Property) (wire : Json) : Value :=
  p.conversion.ofIndex p.dateFormat (p.analyzer.ofIndex (Value.ofJson wire))

/-- The value of the property in a document, if the entity has one. -/
def read (p : Property) (e : Entity) : Option Json :=
  (p.accessor.read e).map p.toWire

/-- The entity with the property taken from a document. -/
def write (p : Property) (e : Entity) (wire : Json) : Entity :=
  p.accessor.write e (p.ofWire wire)

/-- What the index body says about the property: its type, the analyzer of a text that does not
have the default one, and the options. Only a field that stays a text keeps an analyzer. -/
def fieldMapping (p : Property) : Object :=
  let type : Object := [("type", .str p.kind.backendType)]
  let implied :=
    if p.kind = .string ∧ p.analyzerName ≠ Analyzer.defaultName then
      Dict.insert type "analyzer" (.str p.analyzerName)
    else type
  let mapping := Dict.merge implied p.options
  if (Dict.get? mapping "type").bind Json.str? = some "text" then mapping
  else Dict.erase mapping "analyzer"

end Property

end Catalogue
