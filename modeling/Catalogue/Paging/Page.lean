import Catalogue.Backend.Basic
import Catalogue.Paging.Settings

/-!
# Pages

A pager stands for one page of the results of a query. Nothing is asked of the backend until
something of the page is read; then the page is fetched once and kept. Every change of what the
pager stands for forgets the page. A failure is not kept, so the next reading tries again.
-/

namespace Catalogue

variable {σ α β : Type}

/-- What it takes to fetch any page of a query. -/
structure Plan (α : Type) where
  /-- The index to search. -/
  index : String
  /-- The query fragment. -/
  query : Json
  /-- The order of the results. -/
  sort : List Json := []
  /-- The settings of the search. -/
  settings : Settings := {}
  /-- Turns a hit into a row. -/
  row : Hit → Except Failure α

/-- A page that was fetched. -/
structure Page (α : Type) where
  /-- The number of matching documents. -/
  total : Nat
  /-- Whether that number is exact. -/
  accurate : Bool
  /-- The rows in order. -/
  rows : List α
  /-- The milliseconds that the backend took. -/
  took : Nat
  /-- Whether the backend ran out of time. -/
  timedOut : Bool

/-- The sum, but no more than an offset can be. -/
def offsetAdd (a b : Nat) : Nat :=
  min (a + b) (sizeBound - 1)

/-- The number of rows before a page, but no more than an offset can be. -/
def pageOffset (number size : Nat) : Nat :=
  min ((number - 1) * size) (sizeBound - 1)

namespace Plan

/-- The request for `size` rows after `offset` rows. -/
def request (plan : Plan α) (size offset : Nat) : Request :=
  { index := plan.index, query := plan.query, size := size, offset := offset, sort := plan.sort }

/-- The page of a response, unless some hit gives no row. -/
def pageOf (plan : Plan α) (response : Response) : Except Failure (Page α) :=
  (response.hits.mapM plan.row).map fun rows =>
    { total := response.total
      accurate := response.totalIsExact
      rows := rows
      took := response.took
      timedOut := response.timedOut }

/-- Fetches `size` rows after `offset` rows. -/
def fetch (plan : Plan α) (b : Backend σ) (size offset : Nat) : Exchange σ (Page α) := do
  let response ← b.ask (plan.request size offset)
  ExceptT.mk (pure (plan.pageOf response))

end Plan

/-- One page of the results of a query. -/
structure Pager (α : Type) where
  /-- How pages are fetched. -/
  plan : Plan α
  /-- The requested size of the page. -/
  requestedSize : Option Nat := none
  /-- The requested number of the page. -/
  requestedPage : Option Nat := none
  /-- The page, once it was fetched. -/
  fetched : Option (Page α) := none

namespace Pager

/-- The first page of the hits of a query. -/
def ofQuery (index : String) (query : Json) : Pager Hit :=
  { plan := { index := index, query := query, row := .ok } }

/-! ### What the page is -/

/-- Chooses the size of the page, or leaves it to the settings. -/
def withPageSize (p : Pager α) (size : Option Nat) : Pager α :=
  { p with requestedSize := size, fetched := none }

/-- Chooses the number of the page, or the first page. -/
def withPage (p : Pager α) (number : Option Nat) : Pager α :=
  { p with requestedPage := number, fetched := none }

/-- Chooses the order of the results. -/
def withSort (p : Pager α) (sort : List Json) : Pager α :=
  { p with plan := { p.plan with sort := sort }, fetched := none }

/-- Chooses the settings. -/
def withSettings (p : Pager α) (settings : Settings) : Pager α :=
  { p with plan := { p.plan with settings := settings }, fetched := none }

/-- Applies `f` to each row. -/
def mapRows (p : Pager α) (f : α → Except Failure β) : Pager β :=
  { plan :=
      { index := p.plan.index, query := p.plan.query, sort := p.plan.sort,
        settings := p.plan.settings, row := fun hit => p.plan.row hit >>= f }
    requestedSize := p.requestedSize
    requestedPage := p.requestedPage }

/-- The size of the page. -/
def pageSize (p : Pager α) : Nat :=
  p.plan.settings.effectivePageSize p.requestedSize

/-- The number of the page, counted from one. -/
def pageNumber (p : Pager α) : Nat :=
  max (p.requestedPage.getD 1) 1

/-- The number of rows before the page. -/
def offset (p : Pager α) : Nat :=
  pageOffset p.pageNumber p.pageSize

/-- Whether the page was fetched. -/
def isFetched (p : Pager α) : Bool :=
  p.fetched.isSome

/-! ### Reading -/

/-- The page, which is fetched if it was not fetched yet, and the pager that keeps it. -/
def fetch (b : Backend σ) (p : Pager α) : Exchange σ (Page α × Pager α) :=
  match p.fetched with
  | some page => pure (page, p)
  | none => do
    let page ← p.plan.fetch b p.pageSize p.offset
    pure (page, { p with fetched := some page })

/-- What `f` says of the page, and the pager that keeps it. -/
def read (b : Backend σ) (f : Page α → β) (p : Pager α) : Exchange σ (β × Pager α) := do
  let (page, p) ← p.fetch b
  pure (f page, p)

/-- The number of rows on the page. -/
def length (b : Backend σ) (p : Pager α) : Exchange σ (Nat × Pager α) :=
  p.read b fun page => page.rows.length

/-- Whether the page has no rows. -/
def isEmpty (b : Backend σ) (p : Pager α) : Exchange σ (Bool × Pager α) :=
  p.read b fun page => page.rows.isEmpty

/-- The number of matching documents. -/
def total (b : Backend σ) (p : Pager α) : Exchange σ (Nat × Pager α) :=
  p.read b Page.total

/-- Whether that number is exact. -/
def isAccurate (b : Backend σ) (p : Pager α) : Exchange σ (Bool × Pager α) :=
  p.read b Page.accurate

/-- The rows. -/
def rows (b : Backend σ) (p : Pager α) : Exchange σ (List α × Pager α) :=
  p.read b Page.rows

/-- The milliseconds that the backend took. -/
def took (b : Backend σ) (p : Pager α) : Exchange σ (Nat × Pager α) :=
  p.read b Page.took

/-- The number of pages that the matching documents fill. -/
def pageCount (b : Backend σ) (p : Pager α) : Exchange σ (Nat × Pager α) :=
  p.read b fun page => (page.total + p.pageSize - 1) / p.pageSize

end Pager

end Catalogue
