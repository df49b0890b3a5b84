import Catalogue.Json.Text
import Catalogue.Paging.RowStream
import Catalogue.Query.Basic
import Catalogue.Schema.IndexBody

/-!
# Collections

The entities of one type in one index of the backend: they are added and removed one by one or
listed anew, and searched. A search gives a pager; it fails without a call if the query has an
error.
-/

namespace Catalogue

variable {σ : Type}

/-- Adds a scope of a schema to a query. -/
def Query.scope (q : Query) (schema : Schema) (name : String) (args : List Json) :
    Except SchemaError Query :=
  (schema.scope name args).map q.where_

/-- The text of an id in a document: a text as it is, null for none, and all else as JSON. -/
def Document.idText? : Json → Option String
  | .str text => some text
  | .null => none
  | value => some value.compact

/-- The entities of one type in one index. -/
structure Collection where
  /-- How the entities are indexed. -/
  schema : Schema
  /-- The settings of searches. -/
  settings : Settings := {}

namespace Collection

/-- The full name of the index. -/
def name (c : Collection) : String :=
  c.settings.indexName c.schema.indexName

/-- Creates the index. -/
def create (c : Collection) (b : Backend σ) : Exchange σ Unit :=
  b.tell (.createIndex c.name c.schema.indexBody.toJson)

/-- Deletes the index. -/
def drop (c : Collection) (b : Backend σ) : Exchange σ Unit :=
  b.tell (.deleteIndex c.name)

/-- The command that stores a document: its id goes apart. -/
def storing (c : Collection) (d : Document) : Command :=
  .index c.name ((d.get? Document.idKey).bind Document.idText?) (d.erase Document.idKey)

/-- Adds an entity if it belongs in the index, and says whether it does. -/
def add (c : Collection) (b : Backend σ) (e : Entity) : Exchange σ Bool :=
  if c.schema.shouldIndex e then do
    let document ← Exchange.ofSchema (c.schema.toDocument e)
    b.tell (c.storing document)
    pure true
  else pure false

/-- Removes an entity, which must have an id. -/
def remove (c : Collection) (b : Backend σ) (e : Entity) : Exchange σ Unit := do
  let id ← Exchange.ofSchema (c.schema.documentId e)
  b.tell (.delete c.name id)

/-- Adds entities in order and counts those that belong in the index. -/
def addAll (c : Collection) (b : Backend σ) : List Entity → Exchange σ Nat
  | [] => pure 0
  | e :: rest => do
    let added ← c.add b e
    let count ← c.addAll b rest
    pure (if added then count + 1 else count)

/-- Adds all entities that the schema lists and counts those that belong in the index. -/
def refreshAll (c : Collection) (b : Backend σ) : Exchange σ Nat :=
  c.addAll b (c.schema.listing.getD [])

/-- A search for hits. -/
def searchRaw (c : Collection) (q : Query) : Except QueryError (Pager Hit) :=
  q.compile.map fun fragment =>
    (((((Pager.ofQuery c.name fragment).withSettings c.settings).withPageSize
      q.pageSize?).withPage q.page?).withSort q.sort)

/-- The entity of a hit. -/
def entityOf (c : Collection) (hit : Hit) : Except Failure Entity :=
  (c.schema.ofDocument hit.toDocument).mapError Failure.schema

/-- A search for entities. -/
def search (c : Collection) (q : Query) : Except QueryError (Pager Entity) :=
  (c.searchRaw q).map fun pager => pager.mapRows c.entityOf

end Collection

end Catalogue
