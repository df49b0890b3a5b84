import Catalogue.Schema.Document

/-!
# Requests

What is asked of the backend: a search for one page of results, or a command that changes an index.
-/

namespace Catalogue

/-- A search for one page of results. -/
structure Request where
  /-- The index to search. -/
  index : String
  /-- The query fragment. -/
  query : Json
  /-- The largest number of results. -/
  size : Nat := 10
  /-- The number of results to skip. -/
  offset : Nat := 0
  /-- The order of the results. -/
  sort : List Json := []

namespace Request

/-- The order under its key, unless there is none. -/
def sortEntry (r : Request) : Object :=
  if r.sort.isEmpty then [] else [("sort", .arr r.sort)]

/-- The body of the request. -/
def body (r : Request) : Json :=
  .obj ([("query", r.query), ("size", .int r.size), ("from", .int r.offset)] ++ r.sortEntry)

/-- The whole request in JSON. -/
def toJson (r : Request) : Json :=
  .obj ([("index", .str r.index), ("query", r.query), ("size", .int r.size),
    ("from", .int r.offset)] ++ r.sortEntry)

end Request

/-- A change of an index. -/
inductive Command where
  /-- Store a document, under an id or under one that the backend assigns. -/
  | index (index : String) (id : Option String) (document : Document)
  /-- Delete the document with an id. -/
  | delete (index id : String)
  /-- Create an index. -/
  | createIndex (index : String) (body : Json)
  /-- Delete an index. -/
  | deleteIndex (index : String)

/-- A call of the backend. -/
inductive Call where
  /-- A search. -/
  | search (request : Request)
  /-- A change. -/
  | command (command : Command)

end Catalogue
