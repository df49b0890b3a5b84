import Catalogue.Backend.Basic

/-!
# A store in memory

A backend that keeps the documents of one index in the order in which their ids first arrived and
serves all of them in that order, whatever the query. It may report the total of a search in four
ways, of which two are not exact.
-/

namespace Catalogue

/-- How a store reports the number of documents. -/
inductive TotalReport where
  /-- The number, marked as exact. -/
  | exact
  /-- The bare number. -/
  | number
  /-- At most the size of a page, marked as a lower bound. -/
  | lowerBound
  /-- Not at all. -/
  | omitted
deriving DecidableEq, Repr

/-- The documents of an index. -/
structure Store where
  /-- The documents by id. -/
  documents : Dict Document := []
  /-- How the number of documents is reported. -/
  totals : TotalReport := .exact
  /-- The number of ids that the store has assigned. -/
  assigned : Nat := 0

namespace Store

/-- A total with its relation to the number of documents. -/
def relatedTotal (count : Nat) (relation : String) : Json :=
  .obj [("value", .int count), ("relation", .str relation)]

/-- What the store says of the number of documents. -/
def totalEntry (s : Store) (size : Nat) : Object :=
  match s.totals with
  | .exact => [("total", relatedTotal s.documents.length "eq")]
  | .number => [("total", .int s.documents.length)]
  | .lowerBound => [("total", relatedTotal (min s.documents.length size) "gte")]
  | .omitted => []

/-- A stored document as a hit in JSON. -/
def hitJson (entry : String × Document) : Json :=
  .obj [("_id", .str entry.1), ("_score", .float (Binary64.ofNat 1)), ("_source", .obj entry.2)]

/-- The answer to a search in JSON. -/
def answer (s : Store) (request : Request) : Json :=
  let found := (s.documents.drop request.offset).take request.size
  .obj
    [("took", .int 1), ("timed_out", .bool false),
     ("hits", .obj (s.totalEntry request.size ++ [("hits", .arr (found.map hitJson))]))]

/-- The store after a change. Creating and deleting an index leaves the documents alone. -/
def apply (s : Store) : Command → Store
  | .index _ (some id) document => { s with documents := Dict.insert s.documents id document }
  | .index _ none document =>
    let id := "auto-" ++ String.ofList (Text.digits (s.assigned + 1))
    { s with documents := Dict.insert s.documents id document, assigned := s.assigned + 1 }
  | .delete _ id => { s with documents := s.documents.filter fun entry => entry.1 ≠ id }
  | .createIndex _ _ => s
  | .deleteIndex _ => s

/-- The store as a backend. -/
def backend : Backend Store where
  search request s := (Response.ofJson (s.answer request), s)
  perform command s := (.ok (), s.apply command)

end Store

end Catalogue
