import Catalogue.Value

/-!
# Values in JSON and back

`Value.ofJson_toJson` : a value without instants and without numbers that are no numbers of JSON
comes back from JSON as it was, whatever lists and maps it is made of. An instant comes back as a
text and an infinite number as null, so both are left out at any depth (`Value.isPlain`), and
`Value.ofJson_toJson_eq_iff` says that no other value comes back.

What is lost is lost at once : the value that comes back has the same JSON
(`Value.toJson_ofJson_toJson`).
-/

namespace Catalogue

namespace Value

mutual

/-- Whether the value has no instant and no infinite number or NaN in it, at any depth. -/
def isPlain : Value → Bool
  | .float x => x.isFinite
  | .date _ => false
  | .list items => itemsPlain items
  | .map entries => entriesPlain entries
  | _ => true

/-- Whether all values of a list are plain. -/
def itemsPlain : List Value → Bool
  | [] => true
  | value :: rest => isPlain value && itemsPlain rest

/-- Whether all values of a map are plain. -/
def entriesPlain : List (String × Value) → Bool
  | [] => true
  | (_, value) :: rest => isPlain value && entriesPlain rest

end

theorem itemsPlain_eq_all : ∀ items, itemsPlain items = items.all isPlain
  | [] => rfl
  | value :: rest => by rw [itemsPlain, List.all_cons, itemsPlain_eq_all rest]

theorem entriesPlain_eq_all :
    ∀ entries, entriesPlain entries = entries.all fun entry => isPlain entry.2
  | [] => rfl
  | (key, value) :: rest => by rw [entriesPlain, List.all_cons, entriesPlain_eq_all rest]

/-! ## Values in other values -/

/-- The value `part` is the other one or is in it, at some depth. -/
inductive Within (part : Value) : Value → Prop
  | refl : Within part part
  | item {item : Value} {items : List Value} (hi : item ∈ items) (h : Within part item) :
    Within part (.list items)
  | entry {entry : String × Value} {entries : List (String × Value)} (he : entry ∈ entries)
    (h : Within part entry.2) : Within part (.map entries)

theorem isPlain_of_within {part value : Value} (h : part.Within value) (hp : value.isPlain) :
    part.isPlain := by
  induction h with
  | refl => exact hp
  | item hi _ ih =>
    rw [isPlain, itemsPlain_eq_all, List.all_eq_true] at hp
    exact ih (hp _ hi)
  | entry he _ ih =>
    rw [isPlain, entriesPlain_eq_all, List.all_eq_true] at hp
    exact ih (hp _ he)

theorem isPlain_iff {value : Value} : value.isPlain ↔ ∀ part, Within part value →
    (∀ t, part ≠ .date t) ∧ ∀ x, part = .float x → x.isFinite := by
  constructor
  · intro hp part hpart
    have := isPlain_of_within hpart hp
    exact ⟨fun t ht => by simp [ht, isPlain] at this, fun x hx => by simpa [hx, isPlain] using this⟩
  · intro h
    induction value with
    | null => rfl
    | bool b => rfl
    | int n => rfl
    | float x => exact (h _ .refl).2 x rfl
    | str s => rfl
    | date t => exact absurd rfl ((h _ .refl).1 t)
    | list items ih =>
      rw [isPlain, itemsPlain_eq_all, List.all_eq_true]
      exact fun item hi => ih item hi fun part hpart => h part (.item hi hpart)
    | map entries ih =>
      rw [isPlain, entriesPlain_eq_all, List.all_eq_true]
      exact fun entry he => ih entry he fun part hpart => h part (.entry he hpart)

/-! ## There and back -/

/-- An integer of 64 bits is one of JSON, and is read as an integer again. -/
theorem ofJson_int (n : Int64) : ofJson (.int n.toInt) = .int n := by
  have low := n.le_toInt
  have high := n.toInt_lt
  rw [ofJson, if_pos ⟨by omega, by omega⟩, Int64.ofInt_toInt]

theorem ofJson_toJson_list (items : List Value) :
    ofJson (toJson (.list items)) = .list (items.map fun item => ofJson item.toJson) := by
  rw [toJson, ofJson, itemsToJson_eq_map, itemsOfJson_eq_map, List.map_map]
  rfl

theorem ofJson_toJson_map (entries : List (String × Value)) :
    ofJson (toJson (.map entries)) =
      .map (entries.map fun entry => (entry.1, ofJson entry.2.toJson)) := by
  rw [toJson, ofJson, entriesToJson_eq_map, entriesOfJson_eq_map, List.map_map]
  rfl

theorem ofJson_toJson {value : Value} (h : value.isPlain) : ofJson value.toJson = value := by
  induction value with
  | null => rfl
  | bool b => rfl
  | int n => exact ofJson_int n
  | float x =>
    rw [isPlain] at h
    rw [toJson, if_pos h, ofJson]
  | str s => rfl
  | date t => simp [isPlain] at h
  | list items ih =>
    rw [isPlain, itemsPlain_eq_all, List.all_eq_true] at h
    rw [ofJson_toJson_list]
    congr 1
    exact (List.map_congr_left fun item hi => ih item hi (h item hi)).trans (List.map_id items)
  | map entries ih =>
    rw [isPlain, entriesPlain_eq_all, List.all_eq_true] at h
    rw [ofJson_toJson_map]
    congr 1
    refine (List.map_congr_left fun entry he => ?_).trans (List.map_id entries)
    exact Prod.ext rfl (ih entry he (h entry he))

theorem isPlain_of_ofJson_toJson {value : Value} (h : ofJson value.toJson = value) :
    value.isPlain := by
  induction value with
  | null => rfl
  | bool b => rfl
  | int n => rfl
  | float x =>
    by_cases hx : x.isFinite
    · rwa [isPlain]
    · rw [toJson, if_neg hx, ofJson] at h
      cases h
  | str s => rfl
  | date t => cases h
  | list items ih =>
    rw [ofJson_toJson_list, list.injEq] at h
    rw [isPlain, itemsPlain_eq_all, List.all_eq_true]
    exact fun item hi => ih item hi (List.map_inj_left.mp (h.trans (List.map_id items).symm) item hi)
  | map entries ih =>
    rw [ofJson_toJson_map, map.injEq] at h
    rw [isPlain, entriesPlain_eq_all, List.all_eq_true]
    intro entry he
    have hentry := List.map_inj_left.mp (h.trans (List.map_id entries).symm) entry he
    exact ih entry he (congrArg Prod.snd hentry)

/-- The values that come back from JSON as they were are those with no instant in them and no
infinite number or NaN, at any depth. -/
theorem ofJson_toJson_eq_iff (value : Value) :
    ofJson value.toJson = value ↔ ∀ part, Within part value →
      (∀ t, part ≠ .date t) ∧ ∀ x, part = .float x → x.isFinite :=
  ⟨fun h => isPlain_iff.mp (isPlain_of_ofJson_toJson h), fun h => ofJson_toJson (isPlain_iff.mpr h)⟩

/-- The value that comes back from JSON has the JSON that it came from. -/
theorem toJson_ofJson_toJson (value : Value) : (ofJson value.toJson).toJson = value.toJson := by
  induction value with
  | null => rfl
  | bool b => rfl
  | int n => rw [toJson, ofJson_int, toJson]
  | float x =>
    by_cases h : x.isFinite
    · rw [toJson, if_pos h, ofJson, toJson, if_pos h]
    · rw [toJson, if_neg h, ofJson, toJson]
  | str s => rfl
  | date t => rfl
  | list items ih =>
    rw [ofJson_toJson_list, toJson, toJson, itemsToJson_eq_map, itemsToJson_eq_map, List.map_map]
    exact congrArg Json.arr (List.map_congr_left ih)
  | map entries ih =>
    rw [ofJson_toJson_map, toJson, toJson, entriesToJson_eq_map, entriesToJson_eq_map,
      List.map_map]
    exact congrArg Json.obj (List.map_congr_left fun entry he => Prod.ext rfl (ih entry he))

/-- What has no text, a list or a map, has none after JSON either. -/
theorem toText?_ofJson_toJson_eq_none_iff (value : Value) :
    (ofJson value.toJson).toText? = none ↔ value.toText? = none := by
  cases value with
  | int n => rw [toJson, ofJson_int]
  | float x =>
    by_cases h : x.isFinite
    · rw [toJson, if_pos h, ofJson]
    · simp [toJson, h, ofJson, toText?]
  | _ => simp [toJson, ofJson, toText?]

end Value

end Catalogue
