import Catalogue.Value

/-!
# JSON in values and back

A document that was read and is written again, with nothing changed between, should be stored as it
was. Values have integers of 64 signed bits only. An integer of JSON that is larger is read as a
floating point number (`Value.ofJson`), and what is written for that is no integer any more.

`Json.toJson_ofJson_eq_iff` : the JSON that is written as it was read is that without such an
integer, and without a number that JSON has no text for, at any depth.
-/

namespace Catalogue

namespace Json

/-! ## JSON in other JSON -/

/-- The JSON value `part` is the other one or is in it, at some depth. -/
inductive Within (part : Json) : Json → Prop
  | refl : Within part part
  | item {item : Json} {items : List Json} (hi : item ∈ items) (h : Within part item) :
    Within part (.arr items)
  | entry {entry : String × Json} {entries : List (String × Json)} (he : entry ∈ entries)
    (h : Within part entry.2) : Within part (.obj entries)

/-- Every part of the JSON has the property. -/
def Throughout (P : Json → Prop) (json : Json) : Prop :=
  ∀ part, Within part json → P part

variable {P : Json → Prop}

theorem throughout_of_scalar {json : Json} (harr : ∀ items, json ≠ .arr items)
    (hobj : ∀ entries, json ≠ .obj entries) : Throughout P json ↔ P json := by
  refine ⟨fun h => h json .refl, fun h part hpart => ?_⟩
  cases hpart with
  | refl => exact h
  | item hi _ => exact absurd rfl (harr _)
  | entry he _ => exact absurd rfl (hobj _)

theorem throughout_arr {items : List Json} :
    Throughout P (.arr items) ↔ P (.arr items) ∧ ∀ item ∈ items, Throughout P item := by
  constructor
  · exact fun h => ⟨h _ .refl, fun item hi part hpart => h part (.item hi hpart)⟩
  · rintro ⟨hself, hitems⟩ part hpart
    cases hpart with
    | refl => exact hself
    | item hi h => exact hitems _ hi part h

theorem throughout_obj {entries : List (String × Json)} :
    Throughout P (.obj entries) ↔
      P (.obj entries) ∧ ∀ entry ∈ entries, Throughout P entry.2 := by
  constructor
  · exact fun h => ⟨h _ .refl, fun entry he part hpart => h part (.entry he hpart)⟩
  · rintro ⟨hself, hentries⟩ part hpart
    cases hpart with
    | refl => exact hself
    | entry he h => exact hentries _ he part h

/-! ## There and back -/

/-- A number that a value holds as it is: an integer of 64 signed bits, or a floating point number
that is neither infinite nor NaN. What is no number has the property too. -/
def Fits (json : Json) : Prop :=
  (∀ n, json = .int n → Word.Signed64 n) ∧ ∀ x, json = .float x → x.isFinite

theorem toJson_ofJson_int {n : Int} (h : Word.Signed64 n) :
    (Value.ofJson (.int n)).toJson = .int n := by
  rw [Value.ofJson, if_pos h, Value.toJson, Int64.toInt_ofInt_of_le (by omega) (by omega)]

/-- A larger integer comes back as a number with a point, or as null. -/
theorem toJson_ofJson_int_ne {n : Int} (h : ¬ Word.Signed64 n) (m : Int) :
    (Value.ofJson (.int n)).toJson ≠ .int m := by
  rw [Value.ofJson, if_neg h, Value.toJson]
  split <;> simp

theorem toJson_ofJson_arr (items : List Json) :
    (Value.ofJson (.arr items)).toJson =
      .arr (items.map fun item => (Value.ofJson item).toJson) := by
  rw [Value.ofJson, Value.toJson, Value.itemsOfJson_eq_map, Value.itemsToJson_eq_map, List.map_map]
  rfl

theorem toJson_ofJson_obj (entries : List (String × Json)) :
    (Value.ofJson (.obj entries)).toJson =
      .obj (entries.map fun entry => (entry.1, (Value.ofJson entry.2).toJson)) := by
  rw [Value.ofJson, Value.toJson, Value.entriesOfJson_eq_map, Value.entriesToJson_eq_map,
    List.map_map]
  rfl

/-- The JSON that comes back from the value it is read as is that in which every integer has 64
signed bits and every other number is neither infinite nor NaN, at any depth. -/
theorem toJson_ofJson_eq_iff (json : Json) :
    (Value.ofJson json).toJson = json ↔ Throughout Fits json := by
  induction json with
  | null => simp [throughout_of_scalar, Fits, Value.ofJson, Value.toJson]
  | bool b => simp [throughout_of_scalar, Fits, Value.ofJson, Value.toJson]
  | int n =>
    rw [throughout_of_scalar (by simp) (by simp)]
    by_cases h : Word.Signed64 n
    · exact iff_of_true (toJson_ofJson_int h) ⟨fun m hm => Json.int.inj hm ▸ h, by simp⟩
    · exact iff_of_false (toJson_ofJson_int_ne h n) fun hfits => h (hfits.1 n rfl)
  | float x =>
    rw [throughout_of_scalar (by simp) (by simp), Value.ofJson, Value.toJson]
    by_cases h : x.isFinite
    · exact iff_of_true (if_pos h) ⟨by simp, fun y hy => Json.float.inj hy ▸ h⟩
    · exact iff_of_false (by simp [h]) fun hfits => h (hfits.2 x rfl)
  | str s => simp [throughout_of_scalar, Fits, Value.ofJson, Value.toJson]
  | arr items ih =>
    have hfits : Fits (.arr items) := ⟨by simp, by simp⟩
    have hitems := List.map_inj_left (l := items) (f := fun item => (Value.ofJson item).toJson)
      (g := id)
    rw [List.map_id] at hitems
    rw [toJson_ofJson_arr, Json.arr.injEq, throughout_arr, and_iff_right hfits, hitems]
    exact forall₂_congr ih
  | obj entries ih =>
    have hfits : Fits (.obj entries) := ⟨by simp, by simp⟩
    have hentries := List.map_inj_left (l := entries)
      (f := fun entry => (entry.1, (Value.ofJson entry.2).toJson)) (g := id)
    rw [List.map_id] at hentries
    rw [toJson_ofJson_obj, Json.obj.injEq, throughout_obj, and_iff_right hfits, hentries]
    refine forall₂_congr fun entry he => ?_
    rw [← ih entry he, id, Prod.ext_iff]
    exact and_iff_right rfl

/-- One more than `2 ^ 63` comes back as the floating point number `2 ^ 63`. -/
theorem toJson_ofJson_unsigned :
    (Value.ofJson (.int 9223372036854775809)).toJson =
        .float (Binary64.ofInt 9223372036854775808) ∧
      (Value.ofJson (.int 9223372036854775809)).toJson ≠ .int 9223372036854775809 :=
  ⟨rfl, nofun⟩

end Json

end Catalogue
