/-!
# Ordered dictionaries

Entries under text keys, in the order in which the keys first arrived. Writing to a key that is
present keeps its place, so a dictionary that grows by `Dict.insert` alone has each key once.
-/

namespace Catalogue

universe u v

/-- Entries under text keys, oldest key first. -/
abbrev Dict (α : Type u) := List (String × α)

namespace Dict

variable {α : Type u} {β : Type v}

/-- The keys, oldest first. -/
def keys (d : Dict α) : List String :=
  d.map Prod.fst

/-- The value of the first entry under `key`. -/
def get? : Dict α → String → Option α
  | [], _ => none
  | (k, a) :: d, key => if k = key then some a else get? d key

/-- Whether some entry is under `key`. -/
def contains (d : Dict α) (key : String) : Bool :=
  (d.get? key).isSome

/-- Writes a value: a key that is present keeps its place, a new key goes to the end. -/
def insert : Dict α → String → α → Dict α
  | [], key, b => [(key, b)]
  | (k, a) :: d, key, b => if k = key then (key, b) :: d else (k, a) :: insert d key b

/-- Writes the entries of `e` into `d`, first to last. -/
def merge (d e : Dict α) : Dict α :=
  e.foldl (fun acc entry => acc.insert entry.1 entry.2) d

/-- The dictionary of a list of entries: a repeated key has its first place and its last value. -/
def ofList (entries : List (String × α)) : Dict α :=
  merge [] entries

/-- Removes the entry under `key`; the last entry moves into the gap. -/
def erase : Dict α → String → Dict α
  | [], _ => []
  | (k, a) :: d, key =>
    if k = key then
      match d.getLast? with
      | none => []
      | some last => last :: d.dropLast
    else (k, a) :: erase d key

/-- The dictionary with `f` applied to each value. -/
def mapValues (f : α → β) (d : Dict α) : Dict β :=
  d.map fun entry => (entry.1, f entry.2)

/-! ### What each operation does to a lookup -/

@[simp] theorem get?_nil (key : String) : get? ([] : Dict α) key = none := rfl

theorem get?_cons (k : String) (a : α) (d : Dict α) (key : String) :
    get? ((k, a) :: d) key = if k = key then some a else get? d key := rfl

theorem get?_insert (d : Dict α) (k : String) (b : α) (key : String) :
    get? (d.insert k b) key = if k = key then some b else get? d key := by
  induction d with
  | nil => simp [insert, get?]
  | cons e d ih =>
    obtain ⟨k', a⟩ := e
    by_cases h : k' = k
    · subst h
      by_cases hk : k' = key <;> simp [insert, get?, hk]
    · by_cases hk : k' = key
      · subst hk
        simp [insert, get?, h, Ne.symm h]
      · simp [insert, get?, h, hk, ih]

/-- A new key goes to the end, and a present key moves nothing. -/
theorem keys_insert (d : Dict α) (k : String) (b : α) :
    (d.insert k b).keys = if k ∈ d.keys then d.keys else d.keys ++ [k] := by
  induction d with
  | nil => simp [insert, keys]
  | cons e d ih =>
    obtain ⟨k', a⟩ := e
    by_cases h : k' = k
    · subst h
      simp [insert, keys]
    · simp only [keys] at ih
      by_cases hm : k ∈ d.map Prod.fst <;> simp_all [insert, keys, Ne.symm h]

theorem get?_eq_none_iff (d : Dict α) (key : String) : get? d key = none ↔ key ∉ d.keys := by
  induction d with
  | nil => simp [keys]
  | cons e d ih =>
    obtain ⟨k, a⟩ := e
    simp only [keys] at ih
    by_cases h : k = key
    · simp [get?, keys, h]
    · simp [get?, keys, h, ih, Ne.symm h]

theorem get?_append (d e : Dict α) (key : String) :
    get? (d ++ e) key = (get? d key).or (get? e key) := by
  induction d with
  | nil => rfl
  | cons entry d ih =>
    obtain ⟨k, a⟩ := entry
    by_cases h : k = key <;> simp [get?, h, ih]

theorem mem_of_get? {d : Dict α} {key : String} {a : α} (h : get? d key = some a) :
    (key, a) ∈ d := by
  induction d with
  | nil => simp at h
  | cons e d ih =>
    obtain ⟨k, b⟩ := e
    rw [get?_cons] at h
    split at h
    · simp_all
    · exact List.mem_cons_of_mem _ (ih h)

theorem mem_of_mem_insert {d : Dict α} {k : String} {b : α} {entry : String × α}
    (h : entry ∈ d.insert k b) : entry = (k, b) ∨ entry ∈ d := by
  induction d with
  | nil => exact .inl (List.mem_singleton.mp h)
  | cons e d ih =>
    obtain ⟨k', a⟩ := e
    rw [insert] at h
    split at h
    · exact (List.mem_cons.mp h).imp_right (List.mem_cons_of_mem _)
    · rcases List.mem_cons.mp h with rfl | h
      · exact .inr List.mem_cons_self
      · exact (ih h).imp_right (List.mem_cons_of_mem _)

theorem mem_of_mem_merge {d e : Dict α} {entry : String × α} (h : entry ∈ d.merge e) :
    entry ∈ d ∨ entry ∈ e := by
  induction e generalizing d with
  | nil => exact .inl h
  | cons first e ih =>
    rcases ih (d := d.insert first.1 first.2) h with h | h
    · exact (mem_of_mem_insert h).elim (fun he => .inr (he ▸ List.mem_cons_self)) .inl
    · exact .inr (List.mem_cons_of_mem _ h)

theorem mem_of_mem_ofList {entries : List (String × α)} {entry : String × α}
    (h : entry ∈ ofList entries) : entry ∈ entries :=
  (mem_of_mem_merge h).resolve_left List.not_mem_nil

/-- A lookup of a key that the later entries do not have. -/
theorem get?_merge_of_none {d e : Dict α} {key : String} (h : get? e key = none) :
    get? (d.merge e) key = get? d key := by
  induction e generalizing d with
  | nil => rfl
  | cons first e ih =>
    obtain ⟨k, a⟩ := first
    rw [get?_cons] at h
    split at h
    case isTrue => exact nomatch h
    case isFalse hk =>
      calc get? (d.merge ((k, a) :: e)) key = get? ((d.insert k a).merge e) key := rfl
        _ = get? (d.insert k a) key := ih h
        _ = get? d key := by rw [get?_insert, if_neg hk]

theorem merge_append (d e e' : Dict α) : d.merge (e ++ e') = (d.merge e).merge e' :=
  List.foldl_append

/-! ### Dictionaries whose keys differ -/

theorem nodup_keys_insert {d : Dict α} (hd : d.keys.Nodup) (k : String) (b : α) :
    (d.insert k b).keys.Nodup := by
  rw [keys_insert]
  split
  case isTrue => exact hd
  case isFalse h =>
    refine List.nodup_append.mpr ⟨hd, by simp, fun key hkey other hother he => ?_⟩
    exact h (List.mem_singleton.mp hother ▸ he ▸ hkey)

theorem nodup_keys_merge {d : Dict α} (hd : d.keys.Nodup) (e : Dict α) :
    (d.merge e).keys.Nodup := by
  induction e generalizing d with
  | nil => exact hd
  | cons first e ih => exact ih (nodup_keys_insert hd first.1 first.2)

theorem nodup_keys_ofList (entries : List (String × α)) : (keys (ofList entries)).Nodup :=
  nodup_keys_merge (d := []) .nil entries

theorem get?_of_mem {d : Dict α} (hd : d.keys.Nodup) {key : String} {a : α} (h : (key, a) ∈ d) :
    get? d key = some a := by
  induction d with
  | nil => simp at h
  | cons e d ih =>
    obtain ⟨k, b⟩ := e
    obtain ⟨hk, hd⟩ := List.nodup_cons.mp hd
    rw [get?_cons]
    rcases List.mem_cons.mp h with h | h
    · simp_all
    · have hne : k ≠ key := fun he => hk (he ▸ List.mem_map.mpr ⟨_, h, rfl⟩)
      rw [if_neg hne, ih hd h]

theorem insert_of_not_mem {d : Dict α} {key : String} (h : key ∉ d.keys) (b : α) :
    d.insert key b = d ++ [(key, b)] := by
  induction d with
  | nil => rfl
  | cons e d ih =>
    obtain ⟨k, a⟩ := e
    simp only [keys, List.map_cons, List.mem_cons, not_or] at h
    rw [insert, if_neg (Ne.symm h.1), ih h.2, List.cons_append]

theorem merge_of_disjoint {d e : Dict α} (he : e.keys.Nodup) (h : ∀ key ∈ e.keys, key ∉ d.keys) :
    d.merge e = d ++ e := by
  induction e generalizing d with
  | nil => simp [merge]
  | cons entry e ih =>
    obtain ⟨k, a⟩ := entry
    obtain ⟨hk, he⟩ := List.nodup_cons.mp he
    have hd : d.insert k a = d ++ [(k, a)] := insert_of_not_mem (h k (by simp [keys])) a
    have hfresh : ∀ key ∈ keys e, key ∉ keys (d ++ [(k, a)]) := by
      intro key hm hmem
      rcases (by simpa [keys] using hmem : key ∈ d.keys ∨ key = k) with hin | rfl
      · exact h key (by simp_all [keys]) hin
      · exact hk hm
    calc d.merge ((k, a) :: e) = (d ++ [(k, a)]).merge e := by rw [← hd]; rfl
      _ = d ++ [(k, a)] ++ e := ih he hfresh
      _ = d ++ (k, a) :: e := by simp

/-- Entries whose keys differ are their own dictionary. -/
theorem ofList_of_nodup {entries : List (String × α)} (h : (keys entries).Nodup) :
    ofList entries = entries :=
  merge_of_disjoint h (by simp [keys])

/-- The entry that was written last is removed without a trace. -/
theorem erase_append_singleton {d : Dict α} {key : String} (h : key ∉ d.keys) (a : α) :
    erase (d ++ [(key, a)]) key = d := by
  induction d with
  | nil => simp [erase]
  | cons e d ih =>
    obtain ⟨k, b⟩ := e
    simp only [keys, List.map_cons, List.mem_cons, not_or] at h
    rw [List.cons_append, erase, if_neg (Ne.symm h.1), ih h.2]

theorem mapValues_insert (f : α → β) (d : Dict α) (k : String) (a : α) :
    mapValues f (d.insert k a) = (mapValues f d).insert k (f a) := by
  induction d with
  | nil => rfl
  | cons e d ih =>
    obtain ⟨k', b⟩ := e
    by_cases h : k' = k
    · simp [mapValues, insert, h]
    · simpa [mapValues, insert, h] using ih

theorem get?_mapValues (f : α → β) (d : Dict α) (key : String) :
    get? (mapValues f d) key = (get? d key).map f := by
  induction d with
  | nil => rfl
  | cons e d ih =>
    obtain ⟨k, a⟩ := e
    rw [mapValues, List.map_cons, get?_cons, get?_cons]
    split
    · rfl
    · exact ih

theorem mapValues_filter (f : α → β) (d : Dict α) (keep : String → Bool) :
    mapValues f (d.filter fun entry => keep entry.1) =
      (mapValues f d).filter fun entry => keep entry.1 := by
  rw [mapValues, mapValues, List.filter_map]
  rfl

/-- A lookup after the entries under a key were dropped. -/
theorem get?_filter_ne (d : Dict α) (k key : String) :
    get? (d.filter fun entry => entry.1 ≠ k) key = if k = key then none else get? d key := by
  induction d with
  | nil => simp
  | cons e d ih =>
    obtain ⟨k', a⟩ := e
    by_cases hk : k' = k
    · subst hk
      rw [List.filter_cons_of_neg (by simp), ih, get?_cons]
      split <;> rfl
    · rw [List.filter_cons_of_pos (by simp [hk]), get?_cons, get?_cons, ih]
      by_cases hkey : k' = key
      · rw [if_pos hkey, if_pos hkey, if_neg (hkey ▸ Ne.symm hk)]
      · rw [if_neg hkey, if_neg hkey]

theorem keys_filter_sublist (d : Dict α) (keep : String × α → Bool) :
    (keys (d.filter keep)).Sublist d.keys :=
  List.filter_sublist.map Prod.fst

/-- The order of entries does not matter if their keys differ. -/
theorem get?_perm {d e : Dict α} (h : d.Perm e) (hd : d.keys.Nodup) (key : String) :
    get? d key = get? e key := by
  have he : e.keys.Nodup := (h.map Prod.fst).nodup_iff.mp hd
  cases hget : get? e key with
  | none =>
    rw [get?_eq_none_iff] at hget ⊢
    exact fun hmem => hget ((h.map Prod.fst).mem_iff.mp hmem)
  | some a => exact get?_of_mem hd (h.mem_iff.mpr (mem_of_get? hget))

/-- Removing a key leaves the other entries, in another order. -/
theorem perm_erase {d : Dict α} (hd : d.keys.Nodup) (key : String) :
    (d.erase key).Perm (d.filter fun entry => entry.1 ≠ key) := by
  induction d with
  | nil => exact .nil
  | cons e d ih =>
    obtain ⟨k, a⟩ := e
    obtain ⟨hk, hrest⟩ := List.nodup_cons.mp hd
    rw [erase]
    split
    case isTrue h =>
      have hfilter : d.filter (fun entry => entry.1 ≠ key) = d := by
        refine List.filter_eq_self.mpr fun entry hentry => ?_
        exact decide_eq_true fun he => hk (h ▸ List.mem_map.mpr ⟨entry, hentry, he⟩)
      rw [List.filter_cons_of_neg (by simp [h]), hfilter]
      cases hlast : d.getLast? with
      | none => rw [List.getLast?_eq_none_iff.mp hlast]
      | some last =>
        obtain ⟨front, rfl⟩ := List.getLast?_eq_some_iff.mp hlast
        rw [List.dropLast_concat]
        exact (List.perm_append_singleton last front).symm
    case isFalse h =>
      rw [List.filter_cons_of_pos (by simpa using h)]
      exact (ih hrest).cons _

theorem nodup_keys_erase {d : Dict α} (hd : d.keys.Nodup) (key : String) :
    (keys (d.erase key)).Nodup :=
  ((perm_erase hd key).map Prod.fst).nodup_iff.mpr ((keys_filter_sublist d _).nodup hd)

/-- A lookup after a key was removed. -/
theorem get?_erase {d : Dict α} (hd : d.keys.Nodup) (k key : String) :
    get? (d.erase k) key = if k = key then none else get? d key := by
  rw [get?_perm (perm_erase hd k) (nodup_keys_erase hd k), get?_filter_ne]

/-- A lookup after each value was replaced, or dropped together with its key. -/
theorem get?_filterMap {d : Dict α} (hd : d.keys.Nodup) (f : α → Option β) (key : String) :
    get? (d.filterMap fun entry => (f entry.2).map fun b => (entry.1, b)) key =
      (get? d key).bind f := by
  induction d with
  | nil => rfl
  | cons e d ih =>
    obtain ⟨k, a⟩ := e
    obtain ⟨hk, hd⟩ := List.nodup_cons.mp hd
    rw [get?_cons, List.filterMap_cons]
    by_cases h : k = key
    · subst h
      have hrest : get? d k = none := (get?_eq_none_iff d k).mpr hk
      cases hf : f a <;> simp [hf, get?, ih hd, hrest]
    · cases f a <;> simp [get?, ih hd, h]

theorem keys_append (d e : Dict α) : keys (d ++ e) = d.keys ++ keys e :=
  List.map_append

theorem keys_filterMap_sublist (d : Dict α) (f : α → Option β) :
    (keys (d.filterMap fun entry => (f entry.2).map fun b => (entry.1, b))).Sublist d.keys := by
  induction d with
  | nil => exact .slnil
  | cons e d ih =>
    obtain ⟨k, a⟩ := e
    rw [List.filterMap_cons]
    cases f a with
    | none => exact ih.cons k
    | some b => exact ih.cons_cons k

/-! ### Entries whose keys repeat -/

/-- The value of a key is the one that was written last. -/
theorem get?_merge (d e : Dict α) (key : String) :
    get? (d.merge e) key = (get? e.reverse key).or (get? d key) := by
  induction e generalizing d with
  | nil => rfl
  | cons first e ih =>
    obtain ⟨k, a⟩ := first
    calc get? (d.merge ((k, a) :: e)) key = get? ((d.insert k a).merge e) key := rfl
      _ = (get? e.reverse key).or (get? (d.insert k a) key) := ih (d.insert k a)
      _ = (get? e.reverse key).or ((get? [(k, a)] key).or (get? d key)) := by
        rw [get?_insert, get?_cons]
        split <;> rfl
      _ = (get? ((k, a) :: e).reverse key).or (get? d key) := by
        rw [List.reverse_cons, get?_append, Option.or_assoc]

/-- New keys go to the end in the order in which they first came. -/
theorem keys_merge (d e : Dict α) :
    (d.merge e).keys = d.keys ++ ((keys e).removeAll d.keys).eraseDups := by
  induction e generalizing d with
  | nil => simp [merge, keys]
  | cons first e ih =>
    obtain ⟨k, a⟩ := first
    have hstep : (d.merge ((k, a) :: e)).keys =
        (d.insert k a).keys ++ ((keys e).removeAll (d.insert k a).keys).eraseDups :=
      ih (d.insert k a)
    have hkeys : keys ((k, a) :: e) = k :: keys e := rfl
    rw [hstep, keys_insert, hkeys, List.cons_removeAll]
    by_cases hk : k ∈ d.keys
    · simp [hk]
    · simp [hk, List.eraseDups_cons, List.removeAll, List.filter_filter, Bool.and_comm]
      rfl

theorem mem_keys_merge {d e : Dict α} {key : String} :
    key ∈ (d.merge e).keys ↔ key ∈ d.keys ∨ key ∈ keys e := by
  rw [keys_merge, List.mem_append, List.mem_eraseDups, List.removeAll, List.mem_filter]
  by_cases h : key ∈ d.keys <;> simp [h]

/-- The keys of a list of entries, each once, in the order in which they first came. -/
theorem keys_ofList (entries : List (String × α)) :
    (ofList entries).keys = (keys entries).eraseDups := by
  rw [ofList, keys_merge]
  simp [keys]

/-- A lookup finds the first entry under a key. -/
theorem get?_eq_some_iff {d : Dict α} {key : String} {a : α} :
    get? d key = some a ↔
      ∃ before after, d = before ++ (key, a) :: after ∧ ∀ entry ∈ before, entry.1 ≠ key := by
  induction d with
  | nil => simp
  | cons first d ih =>
    obtain ⟨k, b⟩ := first
    rw [get?_cons]
    split
    case isTrue hk =>
      subst hk
      constructor
      · rintro ⟨⟩
        exact ⟨[], d, rfl, nofun⟩
      · rintro ⟨_ | ⟨other, before⟩, after, heq, hbefore⟩
        · obtain ⟨heq, -⟩ := List.cons.inj heq
          rw [(Prod.mk.inj heq).2]
        · obtain ⟨rfl, -⟩ := List.cons.inj heq
          exact absurd rfl (hbefore _ List.mem_cons_self)
    case isFalse hk =>
      rw [ih]
      constructor
      · rintro ⟨before, after, rfl, hbefore⟩
        refine ⟨(k, b) :: before, after, rfl, fun entry hentry => ?_⟩
        rcases List.mem_cons.mp hentry with rfl | hentry
        · exact hk
        · exact hbefore entry hentry
      · rintro ⟨_ | ⟨other, before⟩, after, heq, hbefore⟩
        · obtain ⟨heq, -⟩ := List.cons.inj heq
          exact absurd (Prod.mk.inj heq).1 hk
        · obtain ⟨-, rfl⟩ := List.cons.inj heq
          exact ⟨before, after, rfl, fun entry hentry =>
            hbefore entry (List.mem_cons_of_mem _ hentry)⟩

/-- A repeated key has its last value. -/
theorem get?_ofList_eq_some_iff {entries : List (String × α)} {key : String} {a : α} :
    get? (ofList entries) key = some a ↔
      ∃ before after, entries = before ++ (key, a) :: after ∧ ∀ entry ∈ after, entry.1 ≠ key := by
  rw [ofList, get?_merge, get?_nil, Option.or_none, get?_eq_some_iff]
  constructor
  · rintro ⟨after, before, heq, hafter⟩
    refine ⟨before.reverse, after.reverse, ?_, fun entry h => hafter entry (List.mem_reverse.mp h)⟩
    rw [← List.reverse_reverse entries, heq]
    simp
  · rintro ⟨before, after, rfl, hafter⟩
    exact ⟨after.reverse, before.reverse, by simp, fun entry h =>
      hafter entry (List.mem_reverse.mp h)⟩

/-! ### Writing again -/

/-- The second of two values under one key replaces the first. -/
theorem insert_insert (d : Dict α) (k : String) (a b : α) :
    (d.insert k a).insert k b = d.insert k b := by
  induction d with
  | nil => simp [insert]
  | cons e d ih =>
    obtain ⟨k', c⟩ := e
    by_cases h : k' = k
    · simp [insert, h]
    · simp [insert, h, ih]

/-- Writing to a present key and to another one can be done in any order. -/
theorem insert_comm {d : Dict α} {k j : String} (hj : j ∈ d.keys) (hne : k ≠ j) (a b : α) :
    (d.insert k a).insert j b = (d.insert j b).insert k a := by
  induction d with
  | nil => simp [keys] at hj
  | cons e d ih =>
    obtain ⟨k', c⟩ := e
    by_cases hk : k' = k
    · subst hk
      simp [insert, hne]
    · by_cases hk' : k' = j
      · subst hk'
        simp [insert, hk]
      · have hrest : j ∈ keys d := by simpa [keys, Ne.symm hk'] using hj
        simp [insert, hk, hk', ih hrest]

/-- What was written under a key is lost when the key is written again, whatever was written to
present keys in between. -/
theorem insert_merge_insert {d e : Dict α} (h : ∀ key ∈ keys e, key ∈ d.keys) (k : String)
    (a b : α) : ((d.insert k a).merge e).insert k b = (d.merge e).insert k b := by
  induction e generalizing d with
  | nil => exact insert_insert d k a b
  | cons first e ih =>
    obtain ⟨j, c⟩ := first
    have hj : j ∈ d.keys := h j List.mem_cons_self
    have hrest : ∀ key ∈ keys e, key ∈ (d.insert j c).keys := by
      intro key hkey
      rw [keys_insert, if_pos hj]
      exact h key (List.mem_cons_of_mem j hkey)
    change (((d.insert k a).insert j c).merge e).insert k b = ((d.insert j c).merge e).insert k b
    by_cases hk : k = j
    · rw [hk, insert_insert]
    · rw [insert_comm hj hk, ih hrest]

end Dict

end Catalogue
