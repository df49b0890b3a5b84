import Catalogue.Proofs.Query.Faults

/-!
# Intervals

A field is compared with an interval by the operator that takes a list of two bounds, or by the two
operators that take the lower bound and the upper bound alone. All three give ranges. The operators
with one bound refuse null, lists and objects (`Operator.comparison_order_eq_ok_iff`), while the
operator with two bounds counts them and does not look at them
(`Operator.comparison_between_eq_ok_iff`).

`Operator.SplitsInterval` says that the comparison with an interval goes by those with its bounds.
This is so exactly for bounds that are scalars (`Operator.splitsInterval_iff`). With null for a bound
the backend is asked for a range that is open at this end, where the bound alone is refused
(`Operator.not_splitsInterval_null`).
-/

namespace Catalogue

/-- A truth value, a number or a text. -/
def Json.IsScalar (json : Json) : Prop :=
  json ≠ .null ∧ json.arr? = none ∧ json.obj? = none

namespace Operator

variable (field : String) (value lo hi fragment : Json)

/-- A comparison with one bound takes scalars. -/
theorem comparison_order_eq_ok_iff {operator : Operator} (ho : operator ∈ orders) :
    operator.comparison field value = .ok fragment ↔
      value.IsScalar ∧ fragment = Fragment.range field [(operator.bound, value)] := by
  have hbounded : operator.comparison field value = bounded field operator value := by
    simp only [orders, List.mem_cons, List.not_mem_nil, or_false] at ho
    rcases ho with rfl | rfl | rfl | rfl <;> rfl
  rw [hbounded]
  cases value with
  | null | arr items | obj entries => simp [bounded, Json.IsScalar, Json.arr?, Json.obj?]
  | _ => simp [bounded, Json.IsScalar, Json.arr?, Json.obj?, eq_comm]

theorem exists_comparison_order_iff {operator : Operator} (ho : operator ∈ orders) :
    (∃ fragment, operator.comparison field value = .ok fragment) ↔ value.IsScalar := by
  simp [comparison_order_eq_ok_iff field value _ ho]

/-- A comparison with one bound is at fault for everything else. -/
theorem illFormed_order_iff {operator : Operator} (ho : operator ∈ orders) :
    Comparison.IllFormed ⟨field, operator, value⟩ ↔ ¬ value.IsScalar := by
  rw [← exists_comparison_order_iff field value ho]
  cases hresult : operator.comparison field value with
  | ok fragment =>
    refine iff_of_false ?_ (by simp)
    rintro ⟨e, hfault⟩
    exact nomatch hresult.symm.trans (comparison_of_fault hfault)
  | error e => exact iff_of_true ⟨e, fault_of_comparison hresult⟩ (by simp)

/-- A comparison with two bounds takes any two values. -/
theorem comparison_between_eq_ok_iff :
    between.comparison field value = .ok fragment ↔
      ∃ lo hi, value = .arr [lo, hi] ∧
        fragment = Fragment.range field [("gte", lo), ("lte", hi)] := by
  constructor
  · intro h
    have hfault (e : QueryError) : ¬ Comparison.Fault ⟨field, .between, value⟩ e := by
      intro hfault
      rw [comparison_of_fault hfault] at h
      cases h
    cases value with
    | arr items =>
      have hlength : items.length = 2 := by
        by_contra hlength
        exact hfault _ (.pairList hlength)
      obtain ⟨lo, hi, rfl⟩ := List.length_eq_two.mp hlength
      exact ⟨lo, hi, rfl, (Except.ok.inj h).symm⟩
    | null => exact absurd .pairNull (hfault _)
    | _ => exact absurd (.pairOther nofun rfl) (hfault _)
  · rintro ⟨lo, hi, rfl, rfl⟩
    rfl

/-- The comparison with an interval goes by the comparisons with its bounds : it succeeds exactly if
both of them do, and then it is the range that has the bounds of both ranges. -/
def SplitsInterval : Prop :=
  ((∃ fragment, between.comparison field (.arr [lo, hi]) = .ok fragment) ↔
    (∃ fragment, ge.comparison field lo = .ok fragment) ∧
      ∃ fragment, le.comparison field hi = .ok fragment) ∧
  ∀ fragment, between.comparison field (.arr [lo, hi]) = .ok fragment →
    ∃ lower upper, ge.comparison field lo = .ok (Fragment.range field lower) ∧
      le.comparison field hi = .ok (Fragment.range field upper) ∧
      fragment = Fragment.range field (Dict.merge lower upper)

/-- The comparison with an interval goes by the comparisons with its bounds exactly if both bounds
are scalars. It takes all other bounds as well, for which the comparisons with one bound are at
fault. -/
theorem splitsInterval_iff :
    (SplitsInterval field lo hi ↔ lo.IsScalar ∧ hi.IsScalar) ∧
    between.comparison field (.arr [lo, hi]) =
      .ok (Fragment.range field [("gte", lo), ("lte", hi)]) ∧
    (Comparison.IllFormed ⟨field, .ge, lo⟩ ↔ ¬ lo.IsScalar) ∧
    (Comparison.IllFormed ⟨field, .le, hi⟩ ↔ ¬ hi.IsScalar) := by
  have hge : ge ∈ orders := by decide
  have hle : le ∈ orders := by decide
  refine ⟨⟨fun h => ?_, fun ⟨hlo, hhi⟩ => ⟨?_, fun fragment hfragment => ?_⟩⟩, rfl,
    illFormed_order_iff field lo hge, illFormed_order_iff field hi hle⟩
  · obtain ⟨hlo, hhi⟩ := h.1.mp ⟨_, rfl⟩
    exact ⟨(exists_comparison_order_iff field lo hge).mp hlo,
      (exists_comparison_order_iff field hi hle).mp hhi⟩
  · rw [exists_comparison_order_iff field lo hge, exists_comparison_order_iff field hi hle]
    exact iff_of_true ⟨_, rfl⟩ ⟨hlo, hhi⟩
  · refine ⟨[("gte", lo)], [("lte", hi)],
      (comparison_order_eq_ok_iff field lo _ hge).mpr ⟨hlo, rfl⟩,
      (comparison_order_eq_ok_iff field hi _ hle).mpr ⟨hhi, rfl⟩, ?_⟩
    obtain ⟨_, _, ⟨⟩, rfl⟩ := (comparison_between_eq_ok_iff field _ fragment).mp hfragment
    rfl

/-- With null for the lower bound there is a range, and null alone is refused. -/
theorem not_splitsInterval_null :
    ¬ SplitsInterval "age" .null (.int 51) ∧
      between.comparison "age" (.arr [.null, .int 51]) =
        .ok (Fragment.range "age" [("gte", .null), ("lte", .int 51)]) ∧
      ge.comparison "age" .null = .error (.nullValue "age" .ge) := by
  refine ⟨fun h => ?_, rfl, rfl⟩
  obtain ⟨⟨fragment, hlower⟩, -⟩ := h.1.mp ⟨_, rfl⟩
  cases hlower

end Operator

end Catalogue
