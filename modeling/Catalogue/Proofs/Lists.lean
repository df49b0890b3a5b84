import Mathlib.Data.List.Forall2

/-!
# Lists of results

A function that may fail goes through a list in order and gives a list of its results, if every
member of the list has one (`mapM_eq_some_iff`, `mapM_eq_ok_iff`). Where failures have causes, the
first member that fails gives the cause (`mapM_eq_error_iff`).
-/

namespace Catalogue

universe u v

section Option

variable {α : Type u} {β : Type v} (f : α → Option β) (l : List α)

theorem mapM_eq_some_iff (m : List β) : l.mapM f = some m ↔ l.map f = m.map some := by
  induction l generalizing m with
  | nil => cases m <;> simp
  | cons a l ih =>
    simp only [List.mapM_cons, Option.pure_def, Option.bind_eq_bind, Option.bind_eq_some_iff,
      Option.some.injEq, List.map_cons]
    cases m with
    | nil => simp
    | cons b m => simp [ih]

theorem mapM_eq_none_iff : l.mapM f = none ↔ ∃ a ∈ l, f a = none := by
  induction l with
  | nil => simp
  | cons a l ih =>
    simp only [List.mapM_cons, Option.pure_def, Option.bind_eq_bind, List.exists_mem_cons_iff, ← ih]
    cases f a <;> cases l.mapM f <;> simp

/-- A list has results if every member does, and then those of the members in order. -/
theorem mapM_eq_some_iff_forall₂ (m : List β) :
    l.mapM f = some m ↔ List.Forall₂ (fun b a => f a = some b) m l := by
  rw [mapM_eq_some_iff, eq_comm, ← List.forall₂_eq_eq_eq, List.forall₂_map_left_iff,
    List.forall₂_map_right_iff]
  simp only [eq_comm]

end Option

section Except

variable {α β ε : Type} {f : α → Except ε β}

theorem mapM_cons_of_ok {a : α} {b : β} (ha : f a = .ok b) (rest : List α) :
    (a :: rest).mapM f = (rest.mapM f).map (b :: ·) := by
  rw [List.mapM_cons, ha]
  rfl

theorem mapM_cons_of_error {a : α} {e : ε} (ha : f a = .error e) (rest : List α) :
    (a :: rest).mapM f = .error e := by
  rw [List.mapM_cons, ha]
  rfl

/-- A list succeeds if every member does, and then with the results of the members in order. -/
theorem mapM_eq_ok_iff (l : List α) (results : List β) :
    l.mapM f = .ok results ↔ List.Forall₂ (fun a b => f a = .ok b) l results := by
  induction l generalizing results with
  | nil => cases results <;> simp [pure, Except.pure]
  | cons a rest ih =>
    cases ha : f a with
    | error e => cases results <;> simp [mapM_cons_of_error ha, ha]
    | ok b =>
      rw [mapM_cons_of_ok ha]
      cases hm : rest.mapM f with
      | error e => cases results <;> simp [Except.map, ← ih, hm]
      | ok rows => cases results <;> simp [Except.map, ← ih, hm, ha]

/-- A list fails as its first member that fails. -/
theorem mapM_eq_error_iff (l : List α) (e : ε) :
    l.mapM f = .error e ↔ ∃ before a rest, l = before ++ a :: rest ∧
      (∀ x ∈ before, ∃ b, f x = .ok b) ∧ f a = .error e := by
  induction l with
  | nil => simp [pure, Except.pure]
  | cons a rest ih =>
    cases ha : f a with
    | error cause =>
      rw [mapM_cons_of_error ha, Except.error.injEq]
      constructor
      · rintro rfl
        exact ⟨[], a, rest, rfl, by simp, ha⟩
      · rintro ⟨_ | ⟨x, before⟩, y, after, hl, hbefore, hy⟩
        · obtain ⟨rfl, -⟩ := List.cons.inj hl
          exact Except.error.inj (ha.symm.trans hy)
        · obtain ⟨rfl, -⟩ := List.cons.inj hl
          obtain ⟨b, hb⟩ := hbefore a List.mem_cons_self
          exact nomatch ha.symm.trans hb
    | ok b =>
      have hrest : (a :: rest).mapM f = .error e ↔ rest.mapM f = .error e := by
        rw [mapM_cons_of_ok ha]
        cases rest.mapM f <;> simp [Except.map]
      rw [hrest, ih]
      constructor
      · rintro ⟨before, y, after, rfl, hbefore, hy⟩
        refine ⟨a :: before, y, after, rfl, fun x hx => ?_, hy⟩
        rcases List.mem_cons.mp hx with rfl | hx
        · exact ⟨b, ha⟩
        · exact hbefore x hx
      · rintro ⟨_ | ⟨x, before⟩, y, after, hl, hbefore, hy⟩
        · obtain ⟨rfl, -⟩ := List.cons.inj hl
          exact nomatch ha.symm.trans hy
        · obtain ⟨rfl, rfl⟩ := List.cons.inj hl
          exact ⟨before, y, after, rfl, fun z hz => hbefore z (List.mem_cons_of_mem _ hz), hy⟩

end Except

end Catalogue
