import Catalogue.Backend.Basic
import Catalogue.Backend.Error
import Catalogue.Backend.Rehearsal
import Catalogue.Backend.Request
import Catalogue.Backend.Response
import Catalogue.Backend.Store
import Catalogue.Collection
import Catalogue.Decimal.Binary64
import Catalogue.Decimal.Layout
import Catalogue.Decimal.Shortest
import Catalogue.Dict
import Catalogue.Entity
import Catalogue.Failure
import Catalogue.Json.Basic
import Catalogue.Json.Record
import Catalogue.Json.Text
import Catalogue.Paging.Page
import Catalogue.Paging.RowStream
import Catalogue.Paging.Settings
import Catalogue.Query.Basic
import Catalogue.Query.Compile
import Catalogue.Query.Error
import Catalogue.Query.Fragment
import Catalogue.Query.Operator
import Catalogue.Query.Predicate
import Catalogue.Query.Wire
import Catalogue.Registry
import Catalogue.Schema.Analyzer
import Catalogue.Schema.Basic
import Catalogue.Schema.Document
import Catalogue.Schema.Field
import Catalogue.Schema.IndexBody
import Catalogue.Text.Blank
import Catalogue.Text.Case
import Catalogue.Text.Escape
import Catalogue.Text.Numeral
import Catalogue.Text.Snake
import Catalogue.Text.Split
import Catalogue.Time.Calendar
import Catalogue.Time.Components
import Catalogue.Time.Format
import Catalogue.Time.Instant
import Catalogue.Time.Layout
import Catalogue.Time.Rfc3339
import Catalogue.Time.Scan
import Catalogue.Value
import Catalogue.Word
import Catalogue.Proofs.Lists
import Catalogue.Proofs.Query.Meaning
import Catalogue.Proofs.Value.Json
import Catalogue.Proofs.Text.Split
import Catalogue.Proofs.Schema.Chain
import Catalogue.Proofs.Schema.Delimited
import Catalogue.Proofs.Schema.Decoding
import Catalogue.Proofs.Schema.RoundTrip
import Catalogue.Proofs.Schema.Reindexing
import Catalogue.Proofs.Collection.Calls
import Catalogue.Proofs.Decimal.PlainText
import Catalogue.Proofs.Collection.DocumentId
import Catalogue.Proofs.Collection.History
import Catalogue.Proofs.Backend.Answers
import Catalogue.Proofs.Paging.StoreStream
import Catalogue.Proofs.Collection.Contents
import Catalogue.Proofs.Query.Building
import Catalogue.Proofs.Paging.Walk
import Catalogue.Proofs.Paging.StoreWalk
import Catalogue.Proofs.Paging.Cache
import Catalogue.Proofs.Registry.Calls
import Catalogue.Proofs.Registry.Kept
import Catalogue.Proofs.Registry.Identity
import Catalogue.Proofs.Registry.Coherence
import Catalogue.Proofs.Registry.Caching
import Catalogue.Proofs.Schema.Analysis
import Catalogue.Proofs.Schema.Declarations
import Catalogue.Proofs.Schema.References
import Catalogue.Proofs.Schema.Mapping
import Catalogue.Proofs.Collection.Foreign
import Catalogue.Proofs.Query.Patterns
import Catalogue.Proofs.Query.Opposites
import Catalogue.Proofs.Query.Faults
import Catalogue.Proofs.Value.Wire
import Catalogue.Proofs.Time.Scan
import Catalogue.Proofs.Time.Calendar
import Catalogue.Proofs.Time.Clock
import Catalogue.Proofs.Time.Rfc3339
import Catalogue.Proofs.Schema.Dates
import Catalogue.Proofs.Time.Layout
import Catalogue.Proofs.Time.Rereading
import Catalogue.Proofs.Schema.DatesRewritten
import Catalogue.Proofs.Schema.DayFormats
import Catalogue.Proofs.Time.Percent
import Catalogue.Proofs.Time.LetterPatterns
import Catalogue.Proofs.Time.Quotes
import Catalogue.Proofs.Collection.Refresh
import Catalogue.Proofs.Collection.RefreshAgain
import Catalogue.Proofs.Paging.Pages
import Catalogue.Proofs.Paging.Counting
import Catalogue.Proofs.Query.Intervals
import Catalogue.Proofs.Query.Wire
import Catalogue.Proofs.Text.Escape
import Catalogue.Proofs.Text.Snake
