import Catalogue.Collection
import Catalogue.Proofs.Query.Meaning
import Mathlib.Data.List.Induction

/-!
# Queries built step by step

A query starts empty and grows by steps. `Query.build` takes them in order and stops at the first
one that is refused : a filter whose operator has no meaning, or a scope that is not declared. Some
steps add a clause, the others choose the order and the page (`Query.build_eq_ok_iff`).

An alternative wraps all clauses before it, so the clauses of a query are nested as deep as it has
alternatives. What they mean is a fold over the steps nevertheless (`Clause.all_meaning_foldl`), and
so is whether they compile : the first predicate that was added and does not compile gives the error
of the query (`Clause.findSome?_refusal_foldl`). `Query.meaning_build` has both for the compiled
fragment, and that a query with an error asks nothing of the backend.
-/

namespace Catalogue

/-! ## Steps -/

/-- What a step adds to the clauses of a query. -/
inductive Clause where
  /-- A condition that holds as well. -/
  | narrow (p : Predicate)
  /-- An alternative to all conditions so far. -/
  | widen (p : Predicate)

/-- A step in building a query. -/
inductive Query.Step where
  /-- Adds a condition. -/
  | where_ (p : Predicate)
  /-- Adds a comparison with an operator as a person writes it. -/
  | filter (field operator : String) (value : Json)
  /-- Adds a scope of the schema. -/
  | scope (name : String) (args : List Json)
  /-- Adds an alternative to all conditions so far. -/
  | orWhere (p : Predicate)
  /-- Adds a key to the order. -/
  | sortBy (field : String) (ascending : Bool)
  /-- Chooses the number of results on a page. -/
  | pageSize (size : Nat)
  /-- Chooses the page. -/
  | page (number : Nat)

namespace Query

/-- The query after one more step, unless the step is refused. -/
def extend (schema : Schema) (q : Query) : Step → Except Failure Query
  | .where_ p => .ok (q.where_ p)
  | .filter field operator value => (q.filter field operator value).mapError Failure.query
  | .scope name args => (q.scope schema name args).mapError Failure.schema
  | .orWhere p => .ok (q.orWhere p)
  | .sortBy field ascending => .ok (q.sortBy field ascending)
  | .pageSize size => .ok (q.pageSize size)
  | .page number => .ok (q.page number)

/-- The query that steps build, unless one of them is refused. -/
def build (schema : Schema) (steps : List Step) : Except Failure Query :=
  steps.foldlM (extend schema) empty

namespace Step

/-- Whether a step is about the clauses, and not about order and paging. -/
def isClause : Step → Bool
  | .where_ _ => true
  | .filter _ _ _ => true
  | .scope _ _ => true
  | .orWhere _ => true
  | .sortBy _ _ => false
  | .pageSize _ => false
  | .page _ => false

/-- The clause that a step adds, if it is about clauses and is not refused. -/
def clause? (schema : Schema) : Step → Option Clause
  | .where_ p => some (.narrow p)
  | .filter field operator value => (Predicate.parse field operator value).toOption.map .narrow
  | .scope name args => (schema.scope name args).toOption.map .narrow
  | .orWhere p => some (.widen p)
  | _ => none

/-- The key that a step adds to the order. -/
def sortKey? : Step → Option Json
  | .sortBy field ascending =>
    some (.single field (.single "order" (.str (if ascending then "asc" else "desc"))))
  | _ => none

/-- The number of results on a page that a step chooses. -/
def pageSize? : Step → Option Nat
  | .pageSize size => some size
  | _ => none

/-- The page that a step chooses. -/
def page? : Step → Option Nat
  | .page number => some number
  | _ => none

theorem clause?_eq_none {schema : Schema} : ∀ s : Step, s.isClause = false → s.clause? schema = none
  | .sortBy _ _, _ => rfl
  | .pageSize _, _ => rfl
  | .page _, _ => rfl

theorem paging_eq_none : ∀ s : Step, s.isClause = true →
    s.sortKey? = none ∧ s.pageSize? = none ∧ s.page? = none
  | .where_ _, _ => ⟨rfl, rfl, rfl⟩
  | .filter _ _ _, _ => ⟨rfl, rfl, rfl⟩
  | .scope _ _, _ => ⟨rfl, rfl, rfl⟩
  | .orWhere _, _ => ⟨rfl, rfl, rfl⟩

/-- A step that adds what it is meant to add. -/
def Accepted (schema : Schema) (s : Step) : Prop :=
  s.isClause = true → (s.clause? schema).isSome = true

end Step

end Query

/-! ## Clauses one after another -/

namespace Clause

/-- The predicate of a clause. -/
def predicate : Clause → Predicate
  | .narrow p => p
  | .widen p => p

/-- The clauses of a query after one more. -/
def onto (clauses : List Predicate) : Clause → List Predicate
  | .narrow p => clauses ++ [p]
  | .widen p => [.or [.and clauses, p]]

/-- Whether a query is true after one more clause, if it was `before`. -/
def truth (E : Valuation) (before : Bool) : Clause → Bool
  | .narrow p => before && p.meaning E
  | .widen p => before || p.meaning E

theorem all_meaning_onto (E : Valuation) (clauses : List Predicate) (c : Clause) :
    (c.onto clauses).all (Predicate.meaning E) =
      c.truth E (clauses.all (Predicate.meaning E)) := by
  cases c with
  | narrow p => simp [onto, truth]
  | widen p => simp [onto, truth, Predicate.meaning_or, Predicate.meaning_and]

theorem all_meaning_foldl (E : Valuation) (clauses : List Predicate) (added : List Clause) :
    (added.foldl onto clauses).all (Predicate.meaning E) =
      added.foldl (truth E) (clauses.all (Predicate.meaning E)) := by
  induction added generalizing clauses with
  | nil => rfl
  | cons c rest ih => rw [List.foldl_cons, List.foldl_cons, ih, all_meaning_onto]

end Clause

/-! ## Compilation -/

namespace Predicate

/-- The error of a predicate that does not compile. -/
def refusal? (p : Predicate) : Option QueryError :=
  match p.compile with
  | .ok _ => none
  | .error e => some e

theorem refusal?_eq_some_iff (p : Predicate) (e : QueryError) :
    p.refusal? = some e ↔ p.compile = .error e := by
  unfold refusal?
  cases p.compile <;> simp

theorem refusal?_eq_none_iff (p : Predicate) :
    p.refusal? = none ↔ ∃ fragment, p.compile = .ok fragment := by
  unfold refusal?
  cases p.compile <;> simp

theorem compileAll_eq_error_iff (children : List Predicate) (e : QueryError) :
    compileAll children = .error e ↔ children.findSome? refusal? = some e := by
  induction children with
  | nil => simp [compileAll]
  | cons child rest ih =>
    cases hc : child.compile with
    | error cause => simp [compileAll, refusal?, hc]
    | ok fragment =>
      rw [List.findSome?_cons, refusal?, hc, ← ih, compileAll, hc]
      exact Except.map_eq_error_iff

theorem refusal?_and (children : List Predicate) :
    (and children).refusal? = children.findSome? refusal? := by
  refine Option.ext fun e => ?_
  rw [refusal?_eq_some_iff, ← compileAll_eq_error_iff, compile, Except.map_eq_error_iff]

theorem refusal?_or (children : List Predicate) :
    (or children).refusal? = children.findSome? refusal? := by
  refine Option.ext fun e => ?_
  rw [refusal?_eq_some_iff, ← compileAll_eq_error_iff, compile, Except.map_eq_error_iff]

theorem refusal?_not (child : Predicate) : (not child).refusal? = child.refusal? := by
  refine Option.ext fun e => ?_
  rw [refusal?_eq_some_iff, refusal?_eq_some_iff, compile, Except.map_eq_error_iff]

end Predicate

namespace Clause

/-- An alternative compiles after the conditions that it wraps. -/
theorem findSome?_refusal_onto (clauses : List Predicate) (c : Clause) :
    (c.onto clauses).findSome? Predicate.refusal? =
      (clauses ++ [c.predicate]).findSome? Predicate.refusal? := by
  cases c with
  | narrow p => rfl
  | widen p =>
    have hpair : [Predicate.and clauses, p] = [.and clauses] ++ [p] := rfl
    rw [onto, predicate, List.findSome?_singleton, Predicate.refusal?_or, hpair,
      List.findSome?_append, List.findSome?_singleton, Predicate.refusal?_and,
      List.findSome?_append]

theorem findSome?_refusal_foldl (clauses : List Predicate) (added : List Clause) :
    (added.foldl onto clauses).findSome? Predicate.refusal? =
      (clauses ++ added.map predicate).findSome? Predicate.refusal? := by
  induction added generalizing clauses with
  | nil => rw [List.foldl_nil, List.map_nil, List.append_nil]
  | cons c rest ih =>
    rw [List.foldl_cons, ih, List.findSome?_append, findSome?_refusal_onto,
      ← List.findSome?_append, List.append_assoc]
    rfl

end Clause

namespace Query

variable {schema : Schema}

theorem compile_eq_error_iff (q : Query) (e : QueryError) :
    q.compile = .error e ↔ q.clauses.findSome? Predicate.refusal? = some e := by
  rw [compile, predicate, ← Predicate.refusal?_eq_some_iff, Predicate.refusal?_and]

/-- A query has an error if some predicate that was added to it has one. -/
theorem exists_compile_eq_error_iff {q : Query} {added : List Clause}
    (h : q.clauses = added.foldl Clause.onto []) :
    (∃ e, q.compile = .error e) ↔ ∃ c ∈ added, ∃ e, c.predicate.compile = .error e := by
  have hfirst (e : QueryError) : q.compile = .error e ↔
      (added.map Clause.predicate).findSome? Predicate.refusal? = some e := by
    rw [compile_eq_error_iff, h, Clause.findSome?_refusal_foldl, List.nil_append]
  simp only [hfirst, ← Predicate.refusal?_eq_some_iff, ← Option.isSome_iff_exists,
    List.findSome?_isSome_iff, List.mem_map, exists_exists_and_eq_and]

/-- The fragment of a query is true if all its clauses are. -/
theorem holds_of_compile (E : Valuation) {q : Query} {fragment : Json}
    (h : q.compile = .ok fragment) : E.holds fragment = q.clauses.all (Predicate.meaning E) := by
  rw [compile, predicate, Predicate.compile] at h
  obtain ⟨fragments, hf, rfl⟩ := Except.map_eq_ok_iff.mp h
  exact Predicate.holds_all_compileAll (fun clause _ => clause.faithful E) hf

end Query

/-- Fails if the query has an error. -/
def Exchange.ofQuery {σ α : Type} (result : Except QueryError α) : Exchange σ α :=
  ExceptT.mk fun session => (result.mapError Failure.query, session)

theorem Exchange.ofQuery_error_bind {σ α β : Type} (e : QueryError) (use : α → Exchange σ β)
    (session : Session σ) :
    (ofQuery (.error e) >>= use).run.run session = (.error (.query e), session) := by
  rw [bind_run]
  rfl

namespace Collection

variable (c : Collection) {q : Query} {e : QueryError}

theorem searchRaw_eq_error (h : q.compile = .error e) : c.searchRaw q = .error e := by
  rw [searchRaw, h]
  rfl

theorem search_eq_error (h : q.compile = .error e) : c.search q = .error e := by
  rw [search, c.searchRaw_eq_error h]
  rfl

end Collection

namespace Query

variable {schema : Schema}

/-! ## What steps build -/

theorem extend_eq_ok_iff (q q' : Query) (s : Step) :
    q.extend schema s = .ok q' ↔ s.Accepted schema ∧ q' =
      { clauses := (s.clause? schema).toList.foldl Clause.onto q.clauses
        sort := q.sort ++ s.sortKey?.toList
        pageSize? := s.pageSize?.or q.pageSize?
        page? := s.page?.or q.page? } := by
  cases s with
  | filter field operator value =>
    cases hp : Predicate.parse field operator value <;>
      simp [extend, filter, hp, Step.Accepted, Step.isClause, Step.clause?, Step.sortKey?,
        Step.pageSize?, Step.page?, where_, Clause.onto, Except.map, Except.mapError,
        Except.toOption, eq_comm]
  | scope name args =>
    cases hp : schema.scope name args <;>
      simp [extend, scope, hp, Step.Accepted, Step.isClause, Step.clause?, Step.sortKey?,
        Step.pageSize?, Step.page?, where_, Clause.onto, Except.map, Except.mapError,
        Except.toOption, eq_comm]
  | _ =>
    simp [extend, where_, orWhere, sortBy, pageSize, page, Step.Accepted, Step.isClause,
      Step.clause?, Step.sortKey?, Step.pageSize?, Step.page?, Clause.onto, eq_comm]

theorem build_append_singleton_eq_ok_iff (steps : List Step) (s : Step) (q' : Query) :
    build schema (steps ++ [s]) = .ok q' ↔
      ∃ q, build schema steps = .ok q ∧ q.extend schema s = .ok q' := by
  have happend : build schema (steps ++ [s]) =
      (build schema steps).bind fun q => q.extend schema s := by
    rw [build, List.foldlM_append]
    simp only [List.foldlM_cons, List.foldlM_nil, bind_pure]
    rfl
  rw [happend]
  cases build schema steps <;> simp [Except.bind]

/-- Steps build a query if none of them is refused : their clauses in order, each wrapping or
following those before it, their keys in order, and the last choices of size and page. -/
theorem build_eq_ok_iff (steps : List Step) (q : Query) :
    build schema steps = .ok q ↔ (∀ s ∈ steps, s.Accepted schema) ∧ q =
      { clauses := (steps.filterMap (Step.clause? schema)).foldl Clause.onto []
        sort := steps.filterMap Step.sortKey?
        pageSize? := (steps.filterMap Step.pageSize?).getLast?
        page? := (steps.filterMap Step.page?).getLast? } := by
  induction steps using List.reverseRecOn generalizing q with
  | nil => simp [build, empty, eq_comm, pure, Except.pure]
  | append_singleton steps s ih =>
    have hlast (choice : Step → Option Nat) :
        ((steps ++ [s]).filterMap choice).getLast? =
          (choice s).or (steps.filterMap choice).getLast? := by
      cases hs : choice s <;> simp [hs]
    have hadded (β : Type) (part : Step → Option β) :
        (steps ++ [s]).filterMap part = steps.filterMap part ++ (part s).toList := by
      cases hs : part s <;> simp [hs]
    rw [build_append_singleton_eq_ok_iff, hlast, hlast, hadded, hadded, List.foldl_append]
    simp only [ih, extend_eq_ok_iff, List.forall_mem_append, List.forall_mem_singleton]
    constructor
    · rintro ⟨q, ⟨hsteps, rfl⟩, hs, rfl⟩
      exact ⟨⟨hsteps, hs⟩, rfl⟩
    · rintro ⟨⟨hsteps, hs⟩, rfl⟩
      exact ⟨_, ⟨hsteps, rfl⟩, hs, rfl⟩

/-- Whether a sequence of steps is accepted depends on those about clauses only. -/
theorem accepted_of_filter_eq {steps other : List Step}
    (h : other.filter Step.isClause = steps.filter Step.isClause)
    (hsteps : ∀ s ∈ steps, s.Accepted schema) : ∀ s ∈ other, s.Accepted schema := by
  intro s hs hclause
  have hmem : s ∈ steps.filter Step.isClause := h ▸ List.mem_filter.mpr ⟨hs, hclause⟩
  exact hsteps s (List.mem_filter.mp hmem).1 hclause

/-- What steps about clauses have no part in is decided by the other steps. -/
theorem filterMap_eq_of_filter_eq {β : Type} {part : Step → Option β} {keep : Step → Bool}
    (hpart : ∀ s, keep s = false → part s = none) {steps other : List Step}
    (h : other.filter keep = steps.filter keep) :
    other.filterMap part = steps.filterMap part := by
  have hkept (l : List Step) : (l.filter keep).filterMap part = l.filterMap part := by
    rw [List.filterMap_filter]
    refine List.filterMap_congr fun s _ => ?_
    cases hs : keep s
    · simp [hpart s hs]
    · simp
  rw [← hkept other, h, hkept steps]

/-! ## Meaning -/

/-- What steps build means what they say : each condition narrows what came before it, and each
alternative widens it. Order and paging have no part in this, and clauses none in order and paging.
If some predicate that was added does not compile, neither does the query, and a search for it
fails before anything is asked of the backend, whatever was to be done with the results. -/
theorem meaning_build (schema : Schema) (steps : List Step) (q : Query)
    (h : build schema steps = .ok q) :
    let added := steps.filterMap (Step.clause? schema)
    (∀ (E : Valuation) (fragment : Json), q.compile = .ok fragment →
      E.holds fragment = added.foldl (Clause.truth E) true) ∧
    (∀ other, other.filter Step.isClause = steps.filter Step.isClause →
      ∃ q', build schema other = .ok q' ∧ q'.compile = q.compile) ∧
    (∀ other q', build schema other = .ok q' →
      other.filter (fun s => !s.isClause) = steps.filter (fun s => !s.isClause) →
        q'.sort = q.sort ∧ q'.pageSize? = q.pageSize? ∧ q'.page? = q.page?) ∧
    ((∃ e, q.compile = .error e) ↔ ∃ clause ∈ added, ∃ e, clause.predicate.compile = .error e) ∧
    ∀ e, q.compile = .error e → ∀ c : Collection,
      c.search q = .error e ∧ c.searchRaw q = .error e ∧
      ∀ (σ β : Type) (session : Session σ),
        (∀ use : Pager Entity → Exchange σ β,
          (Exchange.ofQuery (c.search q) >>= use).run.run session =
            (.error (.query e), session)) ∧
        ∀ use : Pager Hit → Exchange σ β,
          (Exchange.ofQuery (c.searchRaw q) >>= use).run.run session =
            (.error (.query e), session) := by
  intro added
  obtain ⟨hsteps, rfl⟩ := (build_eq_ok_iff steps q).mp h
  refine ⟨fun E fragment hc => ?_, fun other hother => ?_, fun other q' hq' hother => ?_, ?_,
    fun e he c => ⟨c.search_eq_error he, c.searchRaw_eq_error he, fun σ β session => ?_⟩⟩
  · rw [holds_of_compile E hc, Clause.all_meaning_foldl]
    rfl
  · have haccepted := accepted_of_filter_eq hother hsteps
    have hadded : other.filterMap (Step.clause? schema) = added :=
      filterMap_eq_of_filter_eq Step.clause?_eq_none hother
    refine ⟨_, (build_eq_ok_iff other _).mpr ⟨haccepted, rfl⟩, ?_⟩
    rw [compile, predicate, hadded]
    rfl
  · obtain ⟨-, rfl⟩ := (build_eq_ok_iff other q').mp hq'
    have hpart {β : Type} {part : Step → Option β}
        (hclause : ∀ s : Step, s.isClause = true → part s = none) :
        other.filterMap part = steps.filterMap part :=
      filterMap_eq_of_filter_eq (fun s hs => hclause s (by simpa using hs)) hother
    have hsort := hpart fun s hs => (s.paging_eq_none hs).1
    have hsize := hpart fun s hs => (s.paging_eq_none hs).2.1
    have hpage := hpart fun s hs => (s.paging_eq_none hs).2.2
    exact ⟨hsort, congrArg List.getLast? hsize, congrArg List.getLast? hpage⟩
  · exact exists_compile_eq_error_iff rfl
  · refine ⟨fun use => ?_, fun use => ?_⟩
    · rw [c.search_eq_error he]
      exact Exchange.ofQuery_error_bind e use session
    · rw [c.searchRaw_eq_error he]
      exact Exchange.ofQuery_error_bind e use session

/-- A scope and a filter, then an alternative to both, then one more condition, with order and page
chosen in between. -/
theorem meaning_build_alternative :
    let schema : Schema :=
      { entityType := "Book", fields := []
        declaredScopes := [("published", fun _ => .eq "draft" (.bool false))] }
    let steps : List Step :=
      [.scope "published" [], .sortBy "title" true, .filter "year" ">=" (.int 1900), .page 2,
        .orWhere (.eq "title" (.str "Emma")), .where_ (.not (.eq "lang" (.str "fr")))]
    ∃ q fragment, build schema steps = .ok q ∧ q.compile = .ok fragment ∧
      ∀ E : Valuation, E.holds fragment =
        (((E.holds (Fragment.term "draft" (.bool false)) &&
            E.holds (Fragment.range "year" [("gte", .int 1900)])) ||
          E.holds (Fragment.term "title" (.str "Emma"))) &&
          !E.holds (Fragment.term "lang" (.str "fr"))) := by
  intro schema steps
  obtain ⟨q, fragment, hq, hfragment⟩ :
      ∃ q fragment, build schema steps = .ok q ∧ q.compile = .ok fragment := ⟨_, _, rfl, rfl⟩
  obtain ⟨hmeaning, -⟩ := meaning_build schema steps q hq
  exact ⟨q, fragment, hq, hfragment, fun E => hmeaning E fragment hfragment⟩

end Query

end Catalogue
