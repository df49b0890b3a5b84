import Catalogue.Query.Predicate
import Catalogue.Schema.Field
import Catalogue.Text.Snake

/-!
# Schemas

A schema says how entities of one type are indexed: its fields and analyzers, and, as far as it
has them, an id, named scopes, a test for the entities that belong in the index, and the list of
all entities. What is declared twice counts as it was declared last, in its first place.
-/

namespace Catalogue

/-- How entities of one type are indexed. -/
structure Schema where
  /-- The type of the entities. -/
  entityType : String
  /-- The name of the index, without what is put before all names. -/
  indexName : String := String.ofList (Text.snake entityType.toList)
  /-- The declared analyzers. -/
  declaredAnalyzers : List (String × Analyzer) := []
  /-- The declared fields. -/
  fields : List Field
  /-- Where the id is read and written. -/
  id : Option Accessor := none
  /-- The declared scopes, each a predicate with arguments. -/
  declaredScopes : List (String × (List Json → Predicate)) := []
  /-- The test for the entities that belong in the index. -/
  belongs : Option (Entity → Bool) := none
  /-- All entities. -/
  listing : Option (List Entity) := none
  /-- The entity to which what is read back is written. -/
  blank : Entity := ⟨entityType, []⟩

/-- What a schema has of the parts that it need not have. -/
structure Capabilities where
  /-- Has an id. -/
  id : Bool
  /-- Has scopes. -/
  scopes : Bool
  /-- Has a test for the entities that belong in the index. -/
  shouldIndex : Bool
  /-- Has a list of all entities. -/
  enumerate : Bool
deriving DecidableEq, Repr

/-- Why a schema refuses an entity or a scope. -/
inductive SchemaError where
  /-- The entity has another type. -/
  | typeMismatch (expected actual : String)
  /-- The scope is not declared. -/
  | scopeNotFound (entityType scope : String)
  /-- The entity has no id. -/
  | missingId (entityType : String)
deriving DecidableEq, Repr

/-- The message of an error. -/
def SchemaError.message : SchemaError → String
  | .typeMismatch expected actual =>
    "expected a `" ++ expected ++ "` entity, got `" ++ actual ++ "`"
  | .scopeNotFound entityType scope =>
    "scope `" ++ scope ++ "` is not declared for `" ++ entityType ++ "`"
  | .missingId entityType => "`" ++ entityType ++ "` entity has no id"

namespace Schema

/-- The analyzers by name. There always is one under the default name. -/
def analyzers (s : Schema) : Dict Analyzer :=
  let declared := Dict.ofList s.declaredAnalyzers
  if declared.contains Analyzer.defaultName then declared
  else declared ++ [(Analyzer.defaultName, .standard)]

/-- The analyzer with this name. A name that is not declared belongs to an analyzer that the
backend knows. -/
def analyzer (s : Schema) (name : String) : Analyzer :=
  (s.analyzers.get? name).getD (.builtin name)

/-- A field with its analyzer. -/
def property (s : Schema) (field : Field) : Property :=
  { field with analyzer := s.analyzer field.analyzerName }

/-- The properties by name. -/
def properties (s : Schema) : Dict Property :=
  Dict.ofList (s.fields.map fun field => (field.name, s.property field))

/-- The scopes by name. -/
def scopes (s : Schema) : Dict (List Json → Predicate) :=
  Dict.ofList s.declaredScopes

/-- The predicate of a scope. -/
def scope (s : Schema) (name : String) (args : List Json) : Except SchemaError Predicate :=
  match s.scopes.get? name with
  | some predicate => .ok (predicate args)
  | none => .error (.scopeNotFound s.entityType name)

/-- What the schema has. -/
def capabilities (s : Schema) : Capabilities :=
  { id := s.id.isSome
    scopes := !s.scopes.isEmpty
    shouldIndex := s.belongs.isSome
    enumerate := s.listing.isSome }

/-- Whether an entity belongs in the index; without a test all do. -/
def shouldIndex (s : Schema) (e : Entity) : Bool :=
  match s.belongs with
  | some test => test e
  | none => true

/-- The id of an entity, if the schema has ids and the entity has one. -/
def idOf (s : Schema) (e : Entity) : Option Value :=
  s.id.bind fun accessor => accessor.read e

/-- The entity with an id, or as it is if the schema has no ids. -/
def setId (s : Schema) (e : Entity) (id : Value) : Entity :=
  match s.id with
  | some accessor => accessor.write e id
  | none => e

/-- The id of an entity as a text, which must not be empty. -/
def documentId (s : Schema) (e : Entity) : Except SchemaError String :=
  match ((s.idOf e).bind Value.toText?).filter (· ≠ "") with
  | some text => .ok text
  | none => .error (.missingId s.entityType)

/-- Fails unless the entity has the type of the schema. -/
def checkType (s : Schema) (e : Entity) : Except SchemaError Unit :=
  if e.type = s.entityType then .ok () else .error (.typeMismatch s.entityType e.type)

end Schema

end Catalogue
