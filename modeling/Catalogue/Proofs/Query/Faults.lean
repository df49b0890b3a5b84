import Catalogue.Proofs.Query.Building
import Catalogue.Proofs.Query.Opposites

/-!
# Why a predicate does not compile

A predicate is a tree, and only the comparisons at its leaves can be at fault. `Comparison.Fault`
lists what makes a comparison meaningless, and the error that it is reported with; these are the
errors of `Operator.comparison`, and there are no others (`Operator.comparison_eq_error_iff`).

`Predicate.comparisons` are the comparisons of a tree from left to right. A tree compiles if none of
them is at fault, and otherwise it gives the error of the first one that is, however deep it stands
and whatever follows it (`Predicate.compile_firstFault`).
-/

namespace Catalogue

/-! ## Comparisons at fault -/

/-- A field compared with a value. -/
structure Comparison where
  /-- The name of the field. -/
  field : String
  /-- How the field is compared. -/
  operator : Operator
  /-- What it is compared with. -/
  value : Json

namespace Operator

/-- The operators that ask for a value. -/
def equalities : List Operator := [.eq, .ne]

/-- The operators that ask for a bound. -/
def orders : List Operator := [.lt, .le, .gt, .ge]

/-- The operators that ask for a list. -/
def memberships : List Operator := [.oneOf, .noneOf]

/-- The operators that ask for patterns. -/
def patternTests : List Operator := [.like, .regex]

end Operator

open Operator in
/-- What makes a comparison meaningless, with the error that says so. -/
inductive Comparison.Fault : Comparison → QueryError → Prop
  | equalObject {field operator} (entries : List (String × Json)) (ho : operator ∈ equalities) :
    Fault ⟨field, operator, .obj entries⟩ (.expectedScalar field operator)
  | orderNull {field operator} (ho : operator ∈ orders) :
    Fault ⟨field, operator, .null⟩ (.nullValue field operator)
  | orderList {field operator} (items : List Json) (ho : operator ∈ orders) :
    Fault ⟨field, operator, .arr items⟩ (.expectedScalar field operator)
  | orderObject {field operator} (entries : List (String × Json)) (ho : operator ∈ orders) :
    Fault ⟨field, operator, .obj entries⟩ (.expectedScalar field operator)
  | pairNull {field} :
    Fault ⟨field, .between, .null⟩ (.arity field .between 2 0)
  | pairList {field items} (hlength : items.length ≠ 2) :
    Fault ⟨field, .between, .arr items⟩ (.arity field .between 2 items.length)
  | pairOther {field value} (hnull : value ≠ .null) (hlist : value.arr? = none) :
    Fault ⟨field, .between, value⟩ (.arity field .between 2 1)
  | memberOther {field operator value} (ho : operator ∈ memberships) (hnull : value ≠ .null)
    (hlist : value.arr? = none) :
    Fault ⟨field, operator, value⟩ (.expectedList field operator)
  | patternNull {field operator} (ho : operator ∈ patternTests) :
    Fault ⟨field, operator, .null⟩ (.nullValue field operator)
  | patternList {field operator items} (ho : operator ∈ patternTests)
    (hitem : ∃ item ∈ items, item.str? = none) :
    Fault ⟨field, operator, .arr items⟩ (.expectedString field operator)
  | patternOther {field operator value} (ho : operator ∈ patternTests) (hnull : value ≠ .null)
    (htext : value.str? = none) (hlist : value.arr? = none) :
    Fault ⟨field, operator, value⟩ (.expectedString field operator)

/-- The comparison has no meaning. -/
def Comparison.IllFormed (c : Comparison) : Prop :=
  ∃ e, c.Fault e

/-- The field and the operator that an error names. -/
def QueryError.place? : QueryError → Option (String × Operator)
  | .unknownOperator _ => none
  | .arity field operator _ _ => some (field, operator)
  | .expectedList field operator => some (field, operator)
  | .expectedScalar field operator => some (field, operator)
  | .expectedString field operator => some (field, operator)
  | .nullValue field operator => some (field, operator)

/-- An error names the field and the operator that are at fault. -/
theorem Comparison.Fault.place?_eq {c : Comparison} {e : QueryError} (h : c.Fault e) :
    e.place? = some (c.field, c.operator) := by
  cases h <;> rfl

namespace Operator

variable {field : String} {operator : Operator} {value : Json} {e : QueryError}

/-! ### The errors of each kind of comparison -/

theorem comparison_eq_error_iff_equal (ho : operator ∈ equalities) :
    operator.comparison field value = .error e ↔ equal field operator value = .error e := by
  simp only [equalities, List.mem_cons, List.not_mem_nil, or_false] at ho
  rcases ho with rfl | rfl
  · rfl
  · exact (paired_equal field .ne value).error_iff e

theorem comparison_eq_error_iff_bounded (ho : operator ∈ orders) :
    operator.comparison field value = .error e ↔ bounded field operator value = .error e := by
  simp only [orders, List.mem_cons, List.not_mem_nil, or_false] at ho
  rcases ho with rfl | rfl | rfl | rfl <;> rfl

theorem comparison_eq_error_iff_member (ho : operator ∈ memberships) :
    operator.comparison field value = .error e ↔ member field operator value = .error e := by
  simp only [memberships, List.mem_cons, List.not_mem_nil, or_false] at ho
  rcases ho with rfl | rfl
  · rfl
  · exact (paired_member field .noneOf value).error_iff e

theorem comparison_eq_error_iff_patterns (ho : operator ∈ patternTests) :
    operator.comparison field value = .error e ↔ patterns field operator value = .error e := by
  simp only [patternTests, List.mem_cons, List.not_mem_nil, or_false] at ho
  rcases ho with rfl | rfl <;> rw [comparison, matching, Except.map_eq_error_iff]

theorem within_list {items : List Json} (h : items.length ≠ 2) :
    within field operator (.arr items) = .error (.arity field operator 2 items.length) := by
  match items with
  | [] => rfl
  | [_] => rfl
  | [_, _] => exact absurd rfl h
  | _ :: _ :: _ :: _ => rfl

theorem patternTexts_eq_error_iff (items : List Json) :
    patternTexts field operator items = .error e ↔
      (∃ item ∈ items, item.str? = none) ∧ e = .expectedString field operator := by
  induction items with
  | nil => simp [patternTexts]
  | cons item rest ih =>
    cases item with
    | str s =>
      rw [patternTexts, Except.map_eq_error_iff, ih]
      simp [Json.str?]
    | _ => simp [patternTexts, Json.str?, eq_comm]

/-! ### Faults and errors -/

theorem comparison_of_fault {c : Comparison} (h : c.Fault e) :
    c.operator.comparison c.field c.value = .error e := by
  cases h with
  | equalObject entries ho => exact (comparison_eq_error_iff_equal ho).mpr rfl
  | orderNull ho => exact (comparison_eq_error_iff_bounded ho).mpr rfl
  | orderList items ho => exact (comparison_eq_error_iff_bounded ho).mpr rfl
  | orderObject entries ho => exact (comparison_eq_error_iff_bounded ho).mpr rfl
  | pairNull => rfl
  | pairList hlength => exact within_list hlength
  | @pairOther field value hnull hlist =>
    cases value with
    | null => exact absurd rfl hnull
    | arr items => cases hlist
    | _ => rfl
  | @memberOther field operator value ho hnull hlist =>
    refine (comparison_eq_error_iff_member ho).mpr ?_
    cases value with
    | null => exact absurd rfl hnull
    | arr items => cases hlist
    | _ => rfl
  | patternNull ho => exact (comparison_eq_error_iff_patterns ho).mpr rfl
  | @patternList field operator items ho hitem =>
    exact (comparison_eq_error_iff_patterns ho).mpr
      ((patternTexts_eq_error_iff items).mpr ⟨hitem, rfl⟩)
  | @patternOther field operator value ho hnull htext hlist =>
    refine (comparison_eq_error_iff_patterns ho).mpr ?_
    cases value with
    | null => exact absurd rfl hnull
    | str s => cases htext
    | arr items => cases hlist
    | _ => rfl

theorem fault_of_equal (ho : operator ∈ equalities) (h : equal field operator value = .error e) :
    Comparison.Fault ⟨field, operator, value⟩ e := by
  cases value <;> cases h
  exact .equalObject _ ho

theorem fault_of_bounded (ho : operator ∈ orders) (h : bounded field operator value = .error e) :
    Comparison.Fault ⟨field, operator, value⟩ e := by
  cases value <;> cases h
  case null => exact .orderNull ho
  case arr items => exact .orderList items ho
  case obj entries => exact .orderObject entries ho

theorem fault_of_within (h : within field .between value = .error e) :
    Comparison.Fault ⟨field, .between, value⟩ e := by
  cases value with
  | null =>
    cases h
    exact .pairNull
  | arr items =>
    by_cases hlength : items.length = 2
    · obtain ⟨lo, hi, rfl⟩ := List.length_eq_two.mp hlength
      cases h
    · rw [within_list hlength] at h
      cases h
      exact .pairList hlength
  | _ =>
    cases h
    exact .pairOther nofun rfl

theorem fault_of_member (ho : operator ∈ memberships) (h : member field operator value = .error e) :
    Comparison.Fault ⟨field, operator, value⟩ e := by
  cases value with
  | null => cases h
  | arr items => cases items <;> cases h
  | _ =>
    cases h
    exact .memberOther ho nofun rfl

theorem fault_of_patterns (ho : operator ∈ patternTests)
    (h : patterns field operator value = .error e) :
    Comparison.Fault ⟨field, operator, value⟩ e := by
  cases value with
  | null =>
    cases h
    exact .patternNull ho
  | str s => cases h
  | arr items =>
    obtain ⟨hitem, rfl⟩ := (patternTexts_eq_error_iff items).mp h
    exact .patternList ho hitem
  | _ =>
    cases h
    exact .patternOther ho nofun rfl rfl

theorem fault_of_comparison (h : operator.comparison field value = .error e) :
    Comparison.Fault ⟨field, operator, value⟩ e := by
  -- One fact for each group of operators ; the cases only say to which group an operator belongs.
  have heq (ho : operator ∈ equalities) := fault_of_equal ho
    ((comparison_eq_error_iff_equal ho).mp h)
  have horder (ho : operator ∈ orders) := fault_of_bounded ho
    ((comparison_eq_error_iff_bounded ho).mp h)
  have hmember (ho : operator ∈ memberships) := fault_of_member ho
    ((comparison_eq_error_iff_member ho).mp h)
  have hpattern (ho : operator ∈ patternTests) := fault_of_patterns ho
    ((comparison_eq_error_iff_patterns ho).mp h)
  cases operator with
  | eq | ne => exact heq (by decide)
  | lt | le | gt | ge => exact horder (by decide)
  | between => exact fault_of_within h
  | oneOf | noneOf => exact hmember (by decide)
  | like | regex => exact hpattern (by decide)

/-- The errors of comparisons are their faults. -/
theorem comparison_eq_error_iff (c : Comparison) (e : QueryError) :
    c.operator.comparison c.field c.value = .error e ↔ c.Fault e :=
  ⟨fault_of_comparison, comparison_of_fault⟩

end Operator

/-! ## Trees -/

namespace Predicate

mutual

/-- The comparisons in a predicate, from left to right. -/
def comparisons : Predicate → List Comparison
  | .compare field operator value => [⟨field, operator, value⟩]
  | .and children => comparisonsOfAll children
  | .or children => comparisonsOfAll children
  | .not child => comparisons child
  | .raw _ => []

/-- The comparisons in the predicates of a list, from left to right. -/
def comparisonsOfAll : List Predicate → List Comparison
  | [] => []
  | child :: rest => comparisons child ++ comparisonsOfAll rest

end

end Predicate

/-- The error of a comparison. -/
def Comparison.refusal? (c : Comparison) : Option QueryError :=
  (Predicate.compare c.field c.operator c.value).refusal?

theorem Comparison.refusal?_eq_some_iff (c : Comparison) (e : QueryError) :
    c.refusal? = some e ↔ c.Fault e := by
  rw [refusal?, Predicate.refusal?_eq_some_iff, Predicate.compile,
    Operator.comparison_eq_error_iff]

theorem Comparison.refusal?_eq_none_iff (c : Comparison) :
    c.refusal? = none ↔ ¬ c.IllFormed := by
  rw [IllFormed, Option.eq_none_iff_forall_ne_some, not_exists]
  exact forall_congr' fun e => not_congr (c.refusal?_eq_some_iff e)

namespace Predicate

theorem findSome?_refusal_comparisonsOfAll {children : List Predicate}
    (ih : ∀ child ∈ children, child.refusal? = child.comparisons.findSome? Comparison.refusal?) :
    (comparisonsOfAll children).findSome? Comparison.refusal? =
      children.findSome? refusal? := by
  induction children with
  | nil => rfl
  | cons child rest ihr =>
    -- The comparisons of the first child come first, and so does its error.
    rw [comparisonsOfAll, List.findSome?_append, List.findSome?_cons,
      ihr fun child hm => ih child (List.mem_cons_of_mem _ hm), ← ih child List.mem_cons_self]
    cases child.refusal? <;> rfl

/-- The error of a predicate is the first one among its comparisons. -/
theorem refusal?_eq_findSome? (p : Predicate) :
    p.refusal? = p.comparisons.findSome? Comparison.refusal? := by
  induction p with
  | compare field operator value =>
    rw [comparisons, List.findSome?_singleton]
    rfl
  | and children ih => rw [refusal?_and, comparisons, findSome?_refusal_comparisonsOfAll ih]
  | or children ih => rw [refusal?_or, comparisons, findSome?_refusal_comparisonsOfAll ih]
  | not child ih => rw [refusal?_not, comparisons, ih]
  | raw fragment => rfl

/-- A predicate compiles if none of its comparisons is at fault, and otherwise it gives the error of
the first one that is, which names its field and its operator. A fragment in the language of the
backend is never at fault. -/
theorem compile_firstFault (p : Predicate) :
    ((∃ fragment, p.compile = .ok fragment) ↔ ∀ c ∈ p.comparisons, ¬ c.IllFormed) ∧
    (∀ e, p.compile = .error e ↔ ∃ before c after, p.comparisons = before ++ c :: after ∧
      (∀ earlier ∈ before, ¬ earlier.IllFormed) ∧ c.Fault e ∧
        e.place? = some (c.field, c.operator)) ∧
    ∀ fragment, (raw fragment).compile = .ok fragment := by
  refine ⟨?_, fun e => ?_, fun fragment => by rw [compile]⟩
  · rw [← refusal?_eq_none_iff, refusal?_eq_findSome?, List.findSome?_eq_none_iff]
    exact forall₂_congr fun c _ => c.refusal?_eq_none_iff
  · rw [← refusal?_eq_some_iff, refusal?_eq_findSome?, List.findSome?_eq_some_iff]
    simp only [Comparison.refusal?_eq_some_iff, Comparison.refusal?_eq_none_iff]
    constructor
    · rintro ⟨before, c, after, hsplit, hfault, hbefore⟩
      exact ⟨before, c, after, hsplit, hbefore, hfault, hfault.place?_eq⟩
    · rintro ⟨before, c, after, hsplit, hbefore, hfault, -⟩
      exact ⟨before, c, after, hsplit, hfault, hbefore⟩

example : (and [eq "a" (.int 1), or [ne "b" .null, not (compare "c" .between (.int 1))],
    lt "d" .null]).compile = .error (.arity "c" .between 2 1) := by rfl

end Predicate

end Catalogue
