import Catalogue.Proofs.Schema.RoundTrip
import Mathlib.Data.List.Induction

/-!
# What a history of additions and removals leaves

Entities are added and removed under their ids. `Schema.Latest` and `Schema.Enters` say of a whole
history which version of an id it leaves and when the id came to stay. `Schema.live` computes this
step by step as a dictionary from ids to entities : its entries are the latest versions
(`Schema.get?_live_eq_some_iff`), in the order in which their ids came (`Schema.inOrder_live`).
-/

namespace Catalogue

/-- A change of what a collection holds. -/
inductive Update where
  /-- Adding an entity. -/
  | add (e : Entity)
  /-- Removing an entity. -/
  | remove (e : Entity)

/-- The entity that is added or removed. -/
def Update.entity : Update → Entity
  | .add e => e
  | .remove e => e

/-- The entity that is added. -/
def Update.added? : Update → Option Entity
  | .add e => some e
  | .remove _ => none

namespace Schema

variable (s : Schema)

/-! ## Histories -/

/-- The entity belongs in the index and has the text `i` as its id. -/
def Accepts (i : String) (e : Entity) : Prop :=
  s.shouldIndex e = true ∧ s.idOf e = some (.str i)

/-- The update replaces or removes what there is under the id `i`. -/
def Touches (i : String) : Update → Prop
  | .add e => s.Accepts i e
  | .remove e => s.idOf e = some (.str i)

/-- The entity was the last one to be accepted under the id `i`, and it was not removed later. -/
def Latest (updates : List Update) (i : String) (e : Entity) : Prop :=
  ∃ before after, updates = before ++ .add e :: after ∧ s.Accepts i e ∧
    ∀ u ∈ after, ¬ s.Touches i u

/-- The update at position `k` accepts an entity under the id `i` when there is none, and no later
one removes the id. -/
def Enters (updates : List Update) (i : String) (k : Nat) : Prop :=
  ∃ before e after, updates = before ++ .add e :: after ∧ before.length = k ∧ s.Accepts i e ∧
    (∀ earlier, ¬ s.Latest before i earlier) ∧
    ∀ r, .remove r ∈ after → s.idOf r ≠ some (.str i)

/-- The ids stand in the order in which they came to stay. -/
def InOrder (updates : List Update) (ids : List String) : Prop :=
  ∃ entered : String → Nat, (∀ i ∈ ids, s.Enters updates i (entered i)) ∧
    ids.Pairwise fun i j => entered i < entered j

theorem not_latest_nil (i : String) (e : Entity) : ¬ s.Latest [] i e := by
  rintro ⟨before, after, h, -⟩
  simp at h

theorem latest_append_singleton (updates : List Update) (u : Update) (i : String) (e : Entity) :
    s.Latest (updates ++ [u]) i e ↔
      u = .add e ∧ s.Accepts i e ∨ s.Latest updates i e ∧ ¬ s.Touches i u := by
  constructor
  · rintro ⟨before, after, h, haccepts, hafter⟩
    rcases List.eq_nil_or_concat after with rfl | ⟨after, last, rfl⟩
    · obtain ⟨-, hu⟩ := List.append_inj' h rfl
      exact Or.inl ⟨List.singleton_inj.mp hu, haccepts⟩
    · rw [List.concat_eq_append, ← List.cons_append, ← List.append_assoc] at h
      obtain ⟨rfl, hu⟩ := List.append_inj' h rfl
      obtain rfl := List.singleton_inj.mp hu
      refine Or.inr ⟨⟨before, after, rfl, haccepts, fun v hv => hafter v ?_⟩, hafter u ?_⟩ <;>
        simp_all
  · rintro (⟨rfl, haccepts⟩ | ⟨⟨before, after, rfl, haccepts, hafter⟩, hu⟩)
    · exact ⟨updates, [], rfl, haccepts, nofun⟩
    · refine ⟨before, after ++ [u], by simp, haccepts, fun v hv => ?_⟩
      rcases List.mem_append.mp hv with hv | hv
      · exact hafter v hv
      · rwa [List.mem_singleton.mp hv]

theorem Enters.lt_length {updates : List Update} {i : String} {k : Nat}
    (h : s.Enters updates i k) : k < updates.length := by
  obtain ⟨before, e, after, rfl, rfl, -⟩ := h
  simp

/-- An id that came to stay is still there after an update that does not remove it. -/
theorem Enters.append {updates : List Update} {i : String} {k : Nat} (h : s.Enters updates i k)
    {u : Update} (hu : ∀ r, u = .remove r → s.idOf r ≠ some (.str i)) :
    s.Enters (updates ++ [u]) i k := by
  obtain ⟨before, e, after, rfl, hk, haccepts, hnew, hafter⟩ := h
  refine ⟨before, e, after ++ [u], by simp, hk, haccepts, hnew, fun r hr => ?_⟩
  rcases List.mem_append.mp hr with hr | hr
  · exact hafter r hr
  · exact hu r (List.mem_singleton.mp hr).symm

theorem enters_append_add {updates : List Update} {i : String} {e : Entity}
    (haccepts : s.Accepts i e) (hnew : ∀ earlier, ¬ s.Latest updates i earlier) :
    s.Enters (updates ++ [.add e]) i updates.length :=
  ⟨updates, e, [], rfl, rfl, haccepts, hnew, nofun⟩

/-! ## The dictionary of a history -/

/-- The text of the id of an entity, if the id is a text. -/
def key? (e : Entity) : Option String :=
  (s.idOf e).bind Value.str?

theorem key?_eq_some_iff (e : Entity) (i : String) :
    s.key? e = some i ↔ s.idOf e = some (.str i) := by
  unfold key?
  cases s.idOf e with
  | none => simp
  | some id => cases id <;> simp [Value.str?]

/-- The dictionary after one more update. -/
def liveStep (live : Dict Entity) : Update → Dict Entity
  | .add e =>
    match s.key? e with
    | some i => if s.shouldIndex e then Dict.insert live i e else live
    | none => live
  | .remove e =>
    match s.key? e with
    | some i => live.filter fun entry => entry.1 ≠ i
    | none => live

/-- The entities that a history leaves, by id. -/
def live (updates : List Update) : Dict Entity :=
  updates.foldl s.liveStep []

theorem live_append_singleton (updates : List Update) (u : Update) :
    s.live (updates ++ [u]) = s.liveStep (s.live updates) u := by
  rw [live, List.foldl_append]
  rfl

theorem nodup_keys_liveStep {live : Dict Entity} (h : live.keys.Nodup) (u : Update) :
    (s.liveStep live u).keys.Nodup := by
  unfold liveStep
  cases u with
  | add e =>
    simp only
    split
    · split
      · exact Dict.nodup_keys_insert h _ _
      · exact h
    · exact h
  | remove e =>
    simp only
    split
    · exact h.sublist (Dict.keys_filter_sublist live _)
    · exact h

theorem get?_liveStep_of_touches {i : String} {u : Update} (h : s.Touches i u)
    (live : Dict Entity) : Dict.get? (s.liveStep live u) i = u.added? := by
  cases u with
  | add e =>
    obtain ⟨haccepts, hid⟩ := h
    have hkey := (s.key?_eq_some_iff e i).mpr hid
    simp only [liveStep, hkey, haccepts, if_true, Dict.get?_insert, Update.added?]
  | remove e =>
    have hkey := (s.key?_eq_some_iff e i).mpr h
    simp only [liveStep, hkey, Dict.get?_filter_ne, if_true, Update.added?]

theorem get?_liveStep_of_not_touches {i : String} {u : Update} (h : ¬ s.Touches i u)
    (live : Dict Entity) : Dict.get? (s.liveStep live u) i = Dict.get? live i := by
  cases u with
  | add e =>
    cases hkey : s.key? e with
    | none => simp only [liveStep, hkey]
    | some j =>
      simp only [liveStep, hkey]
      split
      case isTrue haccepts =>
        have hne : j ≠ i := by
          rintro rfl
          exact h ⟨haccepts, (s.key?_eq_some_iff e j).mp hkey⟩
        rw [Dict.get?_insert, if_neg hne]
      case isFalse => rfl
  | remove e =>
    cases hkey : s.key? e with
    | none => simp only [liveStep, hkey]
    | some j =>
      have hne : j ≠ i := by
        rintro rfl
        exact h ((s.key?_eq_some_iff e j).mp hkey)
      simp only [liveStep, hkey, Dict.get?_filter_ne, if_neg hne]

theorem nodup_keys_live (updates : List Update) : (s.live updates).keys.Nodup := by
  induction updates using List.reverseRecOn with
  | nil => exact List.nodup_nil
  | append_singleton updates u ih =>
    rw [live_append_singleton]
    exact s.nodup_keys_liveStep ih u

/-- Under an id there is the latest version of the id, and nothing if it was removed. -/
theorem get?_live_eq_some_iff (updates : List Update) (i : String) (e : Entity) :
    Dict.get? (s.live updates) i = some e ↔ s.Latest updates i e := by
  induction updates using List.reverseRecOn with
  | nil => exact iff_of_false nofun (s.not_latest_nil i e)
  | append_singleton updates u ih =>
    rw [live_append_singleton, latest_append_singleton]
    by_cases h : s.Touches i u
    · rw [s.get?_liveStep_of_touches h, or_iff_left fun hl => hl.2 h]
      constructor
      · intro hadded
        cases u with
        | add added =>
          obtain rfl := Option.some.inj hadded
          exact ⟨rfl, h⟩
        | remove removed => exact absurd hadded nofun
      · rintro ⟨rfl, -⟩
        rfl
    · rw [s.get?_liveStep_of_not_touches h, ih, and_iff_left h]
      refine (or_iff_right ?_).symm
      rintro ⟨rfl, haccepts⟩
      exact h haccepts

theorem not_mem_keys_live_iff (updates : List Update) (i : String) :
    i ∉ (s.live updates).keys ↔ ∀ e, ¬ s.Latest updates i e := by
  rw [← Dict.get?_eq_none_iff, Option.eq_none_iff_forall_ne_some]
  exact forall_congr' fun e => not_congr (s.get?_live_eq_some_iff updates i e)

/-- Ids that are still there after an update stand in the same order. -/
theorem InOrder.append {updates : List Update} {ids kept : List String} {u : Update}
    (h : s.InOrder updates ids) (hkept : kept.Sublist ids)
    (hu : ∀ r, u = .remove r → ∀ i ∈ kept, s.idOf r ≠ some (.str i)) :
    s.InOrder (updates ++ [u]) kept := by
  obtain ⟨entered, hentered, hordered⟩ := h
  refine ⟨entered, fun i hi => ?_, hordered.sublist hkept⟩
  exact (hentered i (hkept.subset hi)).append s fun r hr => hu r hr i hi

/-- An id that comes to stay goes behind all others. -/
theorem InOrder.append_add {updates : List Update} {ids : List String} {i : String} {e : Entity}
    (h : s.InOrder updates ids) (hi : i ∉ ids) (haccepts : s.Accepts i e)
    (hnew : ∀ earlier, ¬ s.Latest updates i earlier) :
    s.InOrder (updates ++ [.add e]) (ids ++ [i]) := by
  obtain ⟨entered, hentered, hordered⟩ := h
  have hother : ∀ j ∈ ids, j ≠ i := fun j hj he => hi (he ▸ hj)
  refine ⟨Function.update entered i updates.length, fun j hj => ?_, ?_⟩
  · rcases List.mem_append.mp hj with hj | hj
    · rw [Function.update_of_ne (hother j hj)]
      exact (hentered j hj).append s nofun
    · obtain rfl := List.mem_singleton.mp hj
      rw [Function.update_self]
      exact s.enters_append_add haccepts hnew
  · refine List.pairwise_append.mpr ⟨?_, List.pairwise_singleton _ _, fun j hj k hk => ?_⟩
    · refine hordered.imp_of_mem fun hj hk hlt => ?_
      rwa [Function.update_of_ne (hother _ hj), Function.update_of_ne (hother _ hk)]
    · obtain rfl := List.mem_singleton.mp hk
      rw [Function.update_of_ne (hother j hj), Function.update_self]
      exact (hentered j hj).lt_length s

/-- The ids that a history leaves stand in the order in which they came to stay. -/
theorem inOrder_live (updates : List Update) : s.InOrder updates (s.live updates).keys := by
  induction updates using List.reverseRecOn with
  | nil => exact ⟨fun _ => 0, nofun, List.Pairwise.nil⟩
  | append_singleton updates u ih =>
    have hsame (hu : ∀ r, u ≠ .remove r) : s.InOrder (updates ++ [u]) (s.live updates).keys :=
      ih.append s (List.Sublist.refl _) fun r hr => absurd hr (hu r)
    rw [live_append_singleton]
    cases u with
    | add e =>
      rw [liveStep]
      split
      case h_1 i hkey =>
        split
        case isTrue haccepts =>
          rw [Dict.keys_insert]
          split
          case isTrue => exact hsame nofun
          case isFalse hi =>
            exact ih.append_add s hi ⟨haccepts, (s.key?_eq_some_iff e i).mp hkey⟩
              ((s.not_mem_keys_live_iff updates i).mp hi)
        case isFalse => exact hsame nofun
      case h_2 => exact hsame nofun
    | remove e =>
      rw [liveStep]
      split
      case h_1 i hkey =>
        refine ih.append s (Dict.keys_filter_sublist _ _) ?_
        rintro r ⟨⟩ j hj hid
        rw [← s.key?_eq_some_iff, hkey] at hid
        obtain rfl := Option.some.inj hid
        have hnone := Dict.get?_filter_ne (s.live updates) i i
        rw [if_pos rfl, Dict.get?_eq_none_iff] at hnone
        exact hnone hj
      case h_2 hkey =>
        refine ih.append s (List.Sublist.refl _) ?_
        rintro r ⟨⟩ j hj hid
        rw [← s.key?_eq_some_iff, hkey] at hid
        exact absurd hid nofun

end Schema

end Catalogue
