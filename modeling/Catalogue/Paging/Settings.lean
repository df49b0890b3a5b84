import Catalogue.Json.Record
import Catalogue.Text.Blank
import Catalogue.Text.Numeral
import Catalogue.Word

/-!
# Settings

How many results a page has, how many it may have, and what is put before the names of indices.
Settings come from JSON or from texts of the environment; of these, a text that is no positive
number or that is blank counts as absent.
-/

namespace Catalogue

/-- Sizes and offsets are below this number. -/
abbrev sizeBound : Nat := Word.bound64

/-- The settings of searches. -/
structure Settings where
  /-- The size of a page when the query does not choose it. -/
  pageSize : Nat := 10
  /-- The largest size of a page. -/
  maxPageSize : Nat := 10000
  /-- What is put before the name of every index. -/
  indexPrefix : Option String := none
deriving DecidableEq, Repr

namespace Settings

/-- The size of a page: the requested size or the default one, from one to the largest. -/
def effectivePageSize (s : Settings) (requested : Option Nat) : Nat :=
  max 1 (min (requested.getD s.pageSize) (max 1 s.maxPageSize))

/-- The full name of an index. -/
def indexName (s : Settings) (base : String) : String :=
  s.indexPrefix.getD "" ++ base

/-- Reads settings from JSON. Both sizes must be there. -/
def ofJson? (value : Json) : Option Settings := do
  let record ← Json.Record.read? ["page_size", "max_page_size", "index_prefix"] value
  let pageSize ← record.required 0 (Json.natBelow? sizeBound)
  let maxPageSize ← record.required 1 (Json.natBelow? sizeBound)
  let indexPrefix ← record.optional 2 Json.str?
  some ⟨pageSize, maxPageSize, indexPrefix⟩

/-- The settings in JSON. -/
def toJson (s : Settings) : Json :=
  .obj
    [("page_size", .int s.pageSize), ("max_page_size", .int s.maxPageSize),
     ("index_prefix", Json.ofText? s.indexPrefix)]

/-- The positive number that a text of the environment gives. -/
def positive? (text : String) : Option Nat :=
  (Text.readUnsigned? text.toList).filter (0 < ·)

/-- The settings that texts of the environment give, with defaults for what they do not give. -/
def ofEnvironment (pageSize maxPageSize indexPrefix : Option String) : Settings :=
  let trimmed := indexPrefix.map fun text => String.ofList (Text.trimBlanks text.toList)
  { pageSize := (pageSize.bind positive?).getD 10
    maxPageSize := (maxPageSize.bind positive?).getD 10000
    indexPrefix := trimmed.filter (· ≠ "") }

end Settings

end Catalogue
