import Catalogue.Backend.Error
import Catalogue.Json.Record
import Catalogue.Schema.Document
import Catalogue.Word

/-!
# Responses

One page of results as the backend answers in JSON. `Response.ofJson` accepts an answer as a whole
or not at all. What is left out takes its default; a total that is left out is the number of hits
on the page, and is not exact.
-/

namespace Catalogue

/-- A document that a search found. -/
structure Hit where
  /-- The id of the document. -/
  id : String := ""
  /-- How well it matches. -/
  score : Option Binary64 := none
  /-- The stored fields. -/
  source : Object := []

namespace Hit

/-- Reads a hit. -/
def ofJson? (value : Json) : Option Hit := do
  let record ← Json.Record.read? ["_id", "_score", "_source"] value
  let id ← record.withDefault 0 Json.str? ""
  let score ← record.withDefault 1 (Json.Record.nullable Json.float?) none
  let source ← record.withDefault 2 Json.obj? []
  some ⟨id, score, source⟩

/-- The hit in JSON. -/
def toJson (h : Hit) : Json :=
  .obj
    [("_id", .str h.id), ("_score", (h.score.map Json.float).getD .null), ("_source", .obj h.source)]

/-- The hit as a document with its stored fields apart. -/
def toDocument (h : Hit) : Document :=
  [(Document.idKey, .str h.id), (Document.sourceKey, .obj h.source)]

end Hit

/-- On how many parts of the index a search ran. -/
structure ShardCounts where
  /-- All parts. -/
  total : Nat := 0
  /-- Those that answered. -/
  successful : Nat := 0
  /-- Those that were skipped. -/
  skipped : Nat := 0
  /-- Those that failed. -/
  failed : Nat := 0
deriving DecidableEq, Repr

/-- Reads counts of parts. -/
def ShardCounts.ofJson? (value : Json) : Option ShardCounts := do
  let record ← Json.Record.read? ["total", "successful", "skipped", "failed"] value
  let count := Json.natBelow? Word.bound32
  let total ← record.withDefault 0 count 0
  let successful ← record.withDefault 1 count 0
  let skipped ← record.withDefault 2 count 0
  let failed ← record.withDefault 3 count 0
  some ⟨total, successful, skipped, failed⟩

/-- How many documents match. -/
structure MatchCount where
  /-- The number. -/
  count : Nat
  /-- Whether the number is exact, and not a lower bound. -/
  exact : Bool
deriving DecidableEq, Repr

/-- Reads a total: a number, which is exact, or an object with a number and its relation to the
total. -/
def MatchCount.ofJson? : Json → Option MatchCount
  | .obj entries =>
    match Dict.get? entries "value", Dict.get? entries "relation" with
    | some value, some (.str relation) =>
      (value.natBelow? Word.bound64).map fun count => ⟨count, relation == "eq"⟩
    | _, _ => none
  | value => (value.natBelow? Word.bound64).map fun count => ⟨count, true⟩

/-- The hits of a page and the total, if there is one. -/
structure HitList where
  /-- The total. -/
  total : Option MatchCount := none
  /-- The hits in order. -/
  hits : List Hit := []

/-- Reads the hits of a page. -/
def HitList.ofJson? (value : Json) : Option HitList := do
  let record ← Json.Record.read? ["total", "hits"] value
  let total ← record.optional 0 MatchCount.ofJson?
  let hits ← record.withDefault 1 (fun hits => hits.arr?.bind fun items => items.mapM Hit.ofJson?) []
  some ⟨total, hits⟩

/-- One page of results. -/
structure Response where
  /-- The hits in order. -/
  hits : List Hit
  /-- The number of matching documents. -/
  total : Nat
  /-- Whether that number is exact, and not a lower bound. -/
  totalIsExact : Bool
  /-- The milliseconds that the backend took. -/
  took : Nat
  /-- Whether the backend ran out of time. -/
  timedOut : Bool
  /-- On how many parts of the index the search ran. -/
  shards : ShardCounts

namespace Response

/-- Reads an answer. -/
def ofJson? (value : Json) : Option Response := do
  let record ← Json.Record.read? ["took", "timed_out", "_shards", "hits"] value
  let took ← record.withDefault 0 (Json.natBelow? Word.bound64) 0
  let timedOut ← record.withDefault 1 Json.bool? false
  let shards ← record.withDefault 2 ShardCounts.ofJson? {}
  let page ← record.withDefault 3 HitList.ofJson? {}
  let total := page.total.getD ⟨page.hits.length, false⟩
  some ⟨page.hits, total.count, total.exact, took, timedOut, shards⟩

/-- Reads an answer, or says that it cannot be understood. -/
def ofJson (value : Json) : Except BackendError Response :=
  match ofJson? value with
  | some response => .ok response
  | none => .error (.malformedResponse "a field has the wrong kind")

end Response

end Catalogue
