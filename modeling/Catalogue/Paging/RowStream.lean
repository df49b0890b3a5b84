import Catalogue.Paging.Page

/-!
# Streams of rows

A stream gives the rows of a query one by one, from a page onwards, and fetches a page only when
all rows before it were given. It ends after a page with fewer rows than it may have, after the
last of a number of rows that is known exactly, and after an error. It counts pages in a word. A
page whose number is the last word is fetched, but then there is no number for the page after it,
and the call is broken off.
-/

namespace Catalogue

variable {σ α : Type}

/-- A computation that makes calls and may be broken off. -/
abbrev Steps (σ α : Type) := ExceptT Panic (StateM (Session σ)) α

/-- The rows of a query from some page onwards. -/
structure RowStream (α : Type) where
  /-- How pages are fetched. -/
  plan : Plan α
  /-- The size of a page. -/
  size : Nat
  /-- The number of the page to fetch next, counted from one in a word. -/
  nextPage : Nat
  /-- The rows that were fetched and not given yet. -/
  buffer : List α := []
  /-- Whether no page is to be fetched any more. -/
  done : Bool := false

/-- The rows from the page onwards. -/
def Pager.stream (p : Pager α) : RowStream α :=
  { plan := p.plan, size := p.pageSize, nextPage := p.pageNumber }

/-- Whether a page after `offset` rows is the last one: it is short, or it reaches a total that is
exact. -/
def Page.isLast (page : Page α) (size offset : Nat) : Bool :=
  page.rows.isEmpty || page.rows.length < size
    || (page.accurate && page.total ≤ offsetAdd offset page.rows.length)

namespace RowStream

/-- The number of rows before the next page. -/
def offset (s : RowStream α) : Nat :=
  pageOffset s.nextPage s.size

/-- The stream after one more page. -/
def append (s : RowStream α) (page : Page α) : RowStream α :=
  { s with
    nextPage := s.nextPage + 1
    buffer := s.buffer ++ page.rows
    done := s.done || page.isLast s.size s.offset }

/-- Fetches the next page. Once the page is there, its number must have a successor. -/
def load (b : Backend σ) (s : RowStream α) : Steps σ (Except Failure (RowStream α)) := do
  match ← (s.plan.fetch b s.size s.offset).run with
  | .ok page => if s.nextPage + 1 < sizeBound then pure (.ok (s.append page)) else throw .overflow
  | .error e => pure (.error e)

/-- Gives the first row of the buffer, or the end if it is empty. -/
def pop (s : RowStream α) : Option (Except Failure α) × RowStream α :=
  match s.buffer with
  | row :: rest => (some (.ok row), { s with buffer := rest })
  | [] => (none, s)

/-- The next row, or an error, or the end, and the stream after it. -/
def next (b : Backend σ) (s : RowStream α) :
    Steps σ (Option (Except Failure α) × RowStream α) := do
  if s.done || !s.buffer.isEmpty then pure s.pop
  else
    match ← s.load b with
    | .ok loaded => pure loaded.pop
    | .error e => pure (some (.error e), { s with done := true })

/-- The next items, at most `n` of them, up to the end, which is an item too. -/
def items (b : Backend σ) :
    Nat → RowStream α → Steps σ (List (Option (Except Failure α)) × RowStream α)
  | 0, s => pure ([], s)
  | n + 1, s => do
    let (item, s) ← s.next b
    match item with
    | none => pure ([none], s)
    | some _ =>
      let (rest, s) ← items b n s
      pure (item :: rest, s)

end RowStream

end Catalogue
