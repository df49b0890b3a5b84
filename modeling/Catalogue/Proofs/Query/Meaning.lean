import Catalogue.Query.Compile
import Mathlib.Data.List.Forall2

/-!
# The boolean meaning of compiled queries

A `Valuation` gives every fragment a truth value and reads the boolean joins as what they say. Of
all other fragments it may say anything : `Valuation.ofAtoms` extends any choice of truth values
for them. `Predicate.meaning` is the truth value of a predicate as a formula over its comparisons
and raw fragments.

`Predicate.holds_compile` : the fragment of a predicate has the truth value of the predicate.
A join compiles to three shapes, for no child, one child and more, so the joins are settled first
(`Valuation.holds_all`, `Valuation.holds_any`), on lists of any length.
-/

namespace Catalogue

theorem Except.map_eq_ok_iff {ε α β : Type} {f : α → β} {result : Except ε α} {b : β} :
    result.map f = .ok b ↔ ∃ a, result = .ok a ∧ f a = b := by
  cases result <;> simp [Except.map]

theorem Except.map_eq_error_iff {ε α β : Type} {f : α → β} {result : Except ε α} {e : ε} :
    result.map f = .error e ↔ result = .error e := by
  cases result <;> simp [Except.map]

/-- Truth values for fragments under which the boolean joins mean what they say. -/
structure Valuation where
  /-- The truth value of a fragment. -/
  holds : Json → Bool
  holds_matchAll : holds Fragment.matchAll = true
  holds_must : ∀ fragments, holds (Fragment.must fragments) = fragments.all holds
  holds_should : ∀ fragments, holds (Fragment.should fragments) = fragments.any holds
  holds_mustNot : ∀ fragment, holds (Fragment.mustNot [fragment]) = !holds fragment

namespace Valuation

section Atoms

variable (atom : Json → Bool)

mutual

/-- The truth value of a fragment when `atom` decides whatever is no boolean join. -/
def truth : Json → Bool
  | .obj [("match_all", .obj [])] => true
  | .obj [("bool", .obj [("must", .arr fragments)])] => truthOfAll fragments
  | .obj [("bool", .obj [("minimum_should_match", .int 1), ("should", .arr fragments)])] =>
    truthOfSome fragments
  | .obj [("bool", .obj [("must_not", .arr [fragment])])] => !truth fragment
  | fragment => atom fragment

/-- Whether all fragments are true. -/
def truthOfAll : List Json → Bool
  | [] => true
  | fragment :: rest => truth fragment && truthOfAll rest

/-- Whether some fragment is true. -/
def truthOfSome : List Json → Bool
  | [] => false
  | fragment :: rest => truth fragment || truthOfSome rest

end

theorem truthOfAll_eq_all : ∀ fragments, truthOfAll atom fragments = fragments.all (truth atom)
  | [] => rfl
  | fragment :: rest => by rw [truthOfAll, List.all_cons, truthOfAll_eq_all rest]

theorem truthOfSome_eq_any : ∀ fragments, truthOfSome atom fragments = fragments.any (truth atom)
  | [] => rfl
  | fragment :: rest => by rw [truthOfSome, List.any_cons, truthOfSome_eq_any rest]

/-- Every choice of truth values for the fragments that are no joins extends to a valuation. -/
def ofAtoms : Valuation where
  holds := truth atom
  holds_matchAll := by simp [Fragment.matchAll, Json.single, truth]
  holds_must fragments := by
    rw [← truthOfAll_eq_all]
    simp [Fragment.must, Json.single, truth]
  holds_should fragments := by
    rw [← truthOfSome_eq_any]
    simp [Fragment.should, Json.single, truth]
  holds_mustNot fragment := by simp [Fragment.mustNot, Json.single, truth]

end Atoms

variable (E : Valuation)

theorem holds_all (fragments : List Json) :
    E.holds (Fragment.all fragments) = fragments.all E.holds := by
  match fragments with
  | [] => simpa [Fragment.all] using E.holds_matchAll
  | [fragment] => simp [Fragment.all]
  | first :: second :: rest => exact E.holds_must _

theorem holds_any (fragments : List Json) :
    E.holds (Fragment.any fragments) = fragments.any E.holds := by
  match fragments with
  | [] => exact E.holds_should []
  | [fragment] => simp [Fragment.any]
  | first :: second :: rest => exact E.holds_should _

theorem holds_negate (fragment : Json) :
    E.holds (Fragment.negate fragment) = !E.holds fragment :=
  E.holds_mustNot fragment

end Valuation

/-! ## Predicates as formulas -/

namespace Predicate

section Meaning

variable (E : Valuation)

mutual

/-- The truth value of a predicate as a formula. A comparison has that of its own fragment, and
one without a fragment is false. -/
def meaning : Predicate → Bool
  | .compare field operator value =>
    match operator.comparison field value with
    | .ok fragment => E.holds fragment
    | .error _ => false
  | .and children => meaningOfAll children
  | .or children => meaningOfSome children
  | .not child => !meaning child
  | .raw fragment => E.holds fragment

/-- Whether all predicates are true. -/
def meaningOfAll : List Predicate → Bool
  | [] => true
  | child :: rest => meaning child && meaningOfAll rest

/-- Whether some predicate is true. -/
def meaningOfSome : List Predicate → Bool
  | [] => false
  | child :: rest => meaning child || meaningOfSome rest

end

theorem meaning_and (children : List Predicate) :
    meaning E (.and children) = children.all (meaning E) := by
  rw [meaning]
  induction children with
  | nil => rfl
  | cons child rest ih => rw [meaningOfAll, List.all_cons, ih]

theorem meaning_or (children : List Predicate) :
    meaning E (.or children) = children.any (meaning E) := by
  rw [meaning]
  induction children with
  | nil => rfl
  | cons child rest ih => rw [meaningOfSome, List.any_cons, ih]

end Meaning

/-! ## Compilation -/

/-- A list compiles if every member does, and then to the fragments of the members in order. -/
theorem compileAll_eq_ok_iff (children : List Predicate) (fragments : List Json) :
    compileAll children = .ok fragments ↔
      List.Forall₂ (fun child fragment => compile child = .ok fragment) children fragments := by
  induction children generalizing fragments with
  | nil => cases fragments <;> simp [compileAll]
  | cons child rest ih =>
    cases hc : compile child with
    | error e => cases fragments <;> simp [compileAll, hc]
    | ok fragment =>
      rw [compileAll, hc]
      simp only [Except.map_eq_ok_iff, ih]
      cases fragments <;> simp [hc, and_comm]

/-- Whatever a predicate compiles to has the truth value of the predicate. -/
def Faithful (E : Valuation) (p : Predicate) : Prop :=
  ∀ fragment, p.compile = .ok fragment → E.holds fragment = p.meaning E

section Faithful

variable {E : Valuation} {child : Predicate} {children : List Predicate} {fragments : List Json}

/-- The fragments of a list, if each means what its predicate means. -/
theorem map_holds_compileAll (hchildren : ∀ child ∈ children, child.Faithful E)
    (h : compileAll children = .ok fragments) :
    fragments.map E.holds = children.map (meaning E) := by
  induction (compileAll_eq_ok_iff children fragments).mp h with
  | nil => rfl
  | cons hc hr ihr =>
    rw [List.map_cons, List.map_cons, hchildren _ List.mem_cons_self _ hc,
      ihr (fun child hm => hchildren child (List.mem_cons_of_mem _ hm))
        ((compileAll_eq_ok_iff _ _).mpr hr)]

theorem holds_all_compileAll (hchildren : ∀ child ∈ children, child.Faithful E)
    (h : compileAll children = .ok fragments) :
    E.holds (Fragment.all fragments) = children.all (meaning E) := by
  have hm := congrArg (List.all · id) (map_holds_compileAll hchildren h)
  simpa only [E.holds_all, List.all_map, Function.id_comp] using hm

theorem holds_any_compileAll (hchildren : ∀ child ∈ children, child.Faithful E)
    (h : compileAll children = .ok fragments) :
    E.holds (Fragment.any fragments) = children.any (meaning E) := by
  have hm := congrArg (List.any · id) (map_holds_compileAll hchildren h)
  simpa only [E.holds_any, List.any_map, Function.id_comp] using hm

theorem faithful_and (hchildren : ∀ child ∈ children, child.Faithful E) :
    (and children).Faithful E := by
  intro fragment h
  rw [compile] at h
  obtain ⟨fragments, hf, rfl⟩ := Except.map_eq_ok_iff.mp h
  rw [meaning_and, holds_all_compileAll hchildren hf]

theorem faithful_or (hchildren : ∀ child ∈ children, child.Faithful E) :
    (or children).Faithful E := by
  intro fragment h
  rw [compile] at h
  obtain ⟨fragments, hf, rfl⟩ := Except.map_eq_ok_iff.mp h
  rw [meaning_or, holds_any_compileAll hchildren hf]

theorem faithful_not (hchild : child.Faithful E) : (not child).Faithful E := by
  intro fragment h
  rw [compile] at h
  obtain ⟨inner, hi, rfl⟩ := Except.map_eq_ok_iff.mp h
  rw [E.holds_negate, meaning, hchild inner hi]

end Faithful

theorem faithful (E : Valuation) (p : Predicate) : p.Faithful E := by
  induction p with
  | compare field operator value =>
    intro fragment h
    rw [compile] at h
    simp [meaning, h]
  | and children ih => exact faithful_and ih
  | or children ih => exact faithful_or ih
  | not child ih => exact faithful_not ih
  | raw json =>
    intro fragment h
    rw [compile, Except.ok.injEq] at h
    rw [meaning, h]

/-- What compiles has the truth value of the predicate it came from. -/
theorem holds_compile (E : Valuation) (p : Predicate) (fragment : Json)
    (h : p.compile = .ok fragment) : E.holds fragment = p.meaning E :=
  p.faithful E fragment h

/-- A conjunction with an empty disjunction and a negated raw join in it, when just the range test
is true. -/
theorem holds_compile_nested :
    let E := Valuation.ofAtoms fun fragment => fragment matches .obj [("range", _)]
    let p : Predicate := .and
      [.or [.or [], .not (.raw (Fragment.must [Fragment.exists_ "age"]))], .ge "age" (.int 18)]
    ∃ fragment, p.compile = .ok fragment ∧ E.holds fragment = p.meaning E ∧
      p.meaning E = true := by
  intro E p
  obtain ⟨fragment, h⟩ : ∃ fragment, p.compile = .ok fragment := ⟨_, rfl⟩
  exact ⟨fragment, h, holds_compile E p fragment h, by decide⟩

end Predicate

end Catalogue
