import Catalogue.Schema.Basic

/-!
# Documents

What the backend stores of an entity: the properties that the entity has, and its id under a key
of its own. `Schema.toDocument` makes a document and `Schema.ofDocument` takes an entity from one,
or from a search hit, which has the stored fields in an object under a second key.
-/

namespace Catalogue

/-- What the backend stores of an entity. -/
abbrev Document := Object

namespace Document

/-- The key of the id. -/
def idKey : String := "_id"

/-- The key of the stored fields in a search hit. -/
def sourceKey : String := "_source"

/-- The stored fields: what is under their key if that is an object, or else the document. -/
def source (d : Document) : Object :=
  ((d.get? sourceKey).bind Json.obj?).getD d

end Document

namespace Schema

/-- The properties that an entity has. -/
def storedFields (s : Schema) (e : Entity) : Document :=
  s.properties.filterMap fun entry => (entry.2.read e).map fun wire => (entry.1, wire)

/-- The document of an entity. An entity of another type has none. -/
def toDocument (s : Schema) (e : Entity) : Except SchemaError Document :=
  (s.checkType e).map fun _ =>
    match (s.idOf e).filter (!·.isNull) with
    | some id => Dict.insert (s.storedFields e) Document.idKey id.toJson
    | none => s.storedFields e

/-- The entity with the properties that the fields of a document give. -/
def readFields (properties : Dict Property) (source : Object) (e : Entity) : Entity :=
  properties.foldl
    (fun e entry =>
      match Dict.get? source entry.1 with
      | some wire => entry.2.write e wire
      | none => e)
    e

/-- The entity of a document: the blank entity with what the document gives. -/
def ofDocument (s : Schema) (d : Document) : Except SchemaError Entity :=
  (s.checkType s.blank).map fun _ =>
    let e := readFields s.properties d.source s.blank
    match Dict.get? d Document.idKey with
    | some id => s.setId e (.ofJson id)
    | none => e

end Schema

end Catalogue
