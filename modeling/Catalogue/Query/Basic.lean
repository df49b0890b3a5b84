import Catalogue.Query.Compile

/-!
# Queries

A query collects clauses, an order and a page. Its clauses hold together; `Query.orWhere` joins
what was collected so far with an alternative. Order and paging are kept apart from the clauses.
-/

namespace Catalogue

/-- What a search asks for. -/
structure Query where
  /-- The conditions that hold together, oldest first. -/
  clauses : List Predicate := []
  /-- The order of the results, most significant key first. -/
  sort : List Json := []
  /-- The number of results on a page, if the query chooses it. -/
  pageSize? : Option Nat := none
  /-- The number of the page, counted from one, if the query chooses it. -/
  page? : Option Nat := none

namespace Query

/-- Everything. -/
def empty : Query :=
  {}

/-- Adds a condition. -/
def where_ (q : Query) (p : Predicate) : Query :=
  { q with clauses := q.clauses ++ [p] }

/-- Adds an alternative to all conditions so far. -/
def orWhere (q : Query) (p : Predicate) : Query :=
  { q with clauses := [.or [.and q.clauses, p]] }

/-- Adds a comparison with an operator as a person writes it. -/
def filter (q : Query) (field operator : String) (value : Json) : Except QueryError Query :=
  (Predicate.parse field operator value).map q.where_

/-- Adds a key to the order. -/
def sortBy (q : Query) (field : String) (ascending : Bool) : Query :=
  let order := if ascending then "asc" else "desc"
  { q with sort := q.sort ++ [.single field (.single "order" (.str order))] }

/-- Chooses the number of results on a page. -/
def pageSize (q : Query) (size : Nat) : Query :=
  { q with pageSize? := some size }

/-- Chooses the page. -/
def page (q : Query) (number : Nat) : Query :=
  { q with page? := some number }

/-- All clauses together. -/
def predicate (q : Query) : Predicate :=
  .and q.clauses

/-- The fragment of the query, or the first error in it. -/
def compile (q : Query) : Except QueryError Json :=
  q.predicate.compile

end Query

end Catalogue
