import Catalogue.Text.Split
import Mathlib.Data.List.Infix

/-!
# Pieces of a text

`Text.join_split` : the pieces of a text, put together again, are the text, for every separator.

The other way round, from pieces to one text and back, only some pieces return. A cut is made at the
first place where the separator stands (`Text.cut?_eq_some_iff`), so a piece returns if in the piece
followed by the separator that place is the end of the piece. `Text.Separable` says so of all pieces
but the last, which must not have the separator in it, and `Text.split_join_iff` is the equivalence.

A piece without the separator may still be cut too early, where the separator stands across the end
of the piece. This takes a separator that overlaps itself (`Text.OverlapsItself`), and for each such
separator there is such a piece (`Text.exists_cut_early`).
-/

namespace Catalogue.Text

variable {sep s : List Char}

/-! ## The first place of a separator -/

/-- The separator stands in `s` at place `i`, and at no place before. -/
structure FirstAt (sep s : List Char) (i : Nat) : Prop where
  /-- What begins at the place begins with the separator. -/
  stands : sep <+: s.drop i
  /-- At no place before it does. -/
  not_before : ∀ j < i, ¬ sep <+: s.drop j

theorem FirstAt.unique {i j : Nat} (hi : FirstAt sep s i) (hj : FirstAt sep s j) : i = j := by
  rcases Nat.lt_trichotomy i j with h | h | h
  · exact absurd hi.stands (hj.not_before i h)
  · exact h
  · exact absurd hj.stands (hi.not_before j h)

theorem cut?_eq_none_iff : cut? sep s = none ↔ ¬ sep <:+: s := by
  induction s with
  | nil => simp [cut?]
  | cons c s ih =>
    rw [cut?, List.infix_cons_iff, ← List.isPrefixOf_iff_prefix]
    split
    case isTrue h => simp [h]
    case isFalse h => rw [Option.map_eq_none_iff, ih, or_iff_right h]

theorem firstAt_of_cut? {before after : List Char} (h : cut? sep s = some (before, after)) :
    FirstAt sep s before.length := by
  induction s generalizing before with
  | nil =>
    rw [cut?] at h
    split at h
    case isTrue hs =>
      obtain ⟨rfl, -⟩ := Prod.mk.inj (Option.some.inj h)
      exact ⟨by simp [hs], fun j hj => absurd hj (Nat.not_lt_zero j)⟩
    case isFalse => cases h
  | cons c s ih =>
    rw [cut?] at h
    split at h
    case isTrue hp =>
      obtain ⟨rfl, -⟩ := Prod.mk.inj (Option.some.inj h)
      exact ⟨List.isPrefixOf_iff_prefix.mp hp, fun j hj => absurd hj (Nat.not_lt_zero j)⟩
    case isFalse hp =>
      obtain ⟨⟨b, a⟩, hb, hab⟩ := Option.map_eq_some_iff.mp h
      obtain ⟨rfl, rfl⟩ := Prod.mk.inj hab
      refine ⟨(ih hb).stands, fun j hj => ?_⟩
      cases j with
      | zero => exact fun h => hp (List.isPrefixOf_iff_prefix.mpr h)
      | succ j => exact (ih hb).not_before j (Nat.lt_of_succ_lt_succ hj)

/-- A cut is made at the first place where the separator stands. -/
theorem cut?_eq_some_iff {before after : List Char} :
    cut? sep s = some (before, after) ↔
      s = before ++ sep ++ after ∧ FirstAt sep s before.length := by
  refine ⟨fun h => ⟨eq_append_of_cut? h, firstAt_of_cut? h⟩, fun ⟨hs, hfirst⟩ => ?_⟩
  cases hc : cut? sep s with
  | none => exact absurd ⟨before, after, hs.symm⟩ (cut?_eq_none_iff.mp hc)
  | some parts =>
    obtain ⟨b, a⟩ := parts
    -- both places are the first one, so both cuts are at the same place
    have hlen : b.length = before.length := (firstAt_of_cut? hc).unique hfirst
    have heq : b ++ (sep ++ a) = before ++ (sep ++ after) := by
      simpa using (eq_append_of_cut? hc).symm.trans hs
    obtain ⟨rfl, hrest⟩ := List.append_inj heq hlen
    rw [List.append_cancel_left hrest]

/-- Where the separator first stands up to some place does not depend on what comes after it. -/
theorem firstAt_append_iff (piece rest : List Char) :
    FirstAt sep (piece ++ sep ++ rest) piece.length ↔ FirstAt sep (piece ++ sep) piece.length := by
  have hshort : ∀ j ≤ piece.length,
      (sep <+: (piece ++ sep ++ rest).drop j ↔ sep <+: (piece ++ sep).drop j) := by
    intro j hj
    have hlen : sep.length ≤ ((piece ++ sep).drop j).length := by
      simp only [List.length_drop, List.length_append]
      omega
    rw [List.drop_append_of_le_length (by simp only [List.length_append]; omega)]
    exact ⟨fun h => List.prefix_of_prefix_length_le h (List.prefix_append _ _) hlen,
      fun h => h.trans (List.prefix_append _ _)⟩
  constructor
  · intro h
    exact ⟨(hshort _ le_rfl).mp h.stands, fun j hj hp => h.not_before j hj ((hshort j hj.le).mpr hp)⟩
  · intro h
    exact ⟨(hshort _ le_rfl).mpr h.stands, fun j hj hp => h.not_before j hj ((hshort j hj.le).mp hp)⟩

/-! ## The pieces of a text are the text -/

theorem split_of_cut?_eq_none (hs : sep ≠ []) (h : cut? sep s = none) : split sep s = [s] := by
  rw [split, dif_neg hs]
  split
  · rfl
  case _ hc =>
    rw [h] at hc
    cases hc

theorem split_of_cut?_eq_some {before after : List Char} (hs : sep ≠ [])
    (h : cut? sep s = some (before, after)) : split sep s = before :: split sep after := by
  conv_lhs => rw [split, dif_neg hs]
  split
  case _ hc =>
    rw [h] at hc
    cases hc
  case _ hc =>
    obtain ⟨rfl, rfl⟩ := Prod.mk.inj (Option.some.inj (h.symm.trans hc))
    rfl

theorem split_ne_nil (sep s : List Char) : split sep s ≠ [] := by
  by_cases hs : sep = []
  · rw [split, dif_pos hs]
    exact List.cons_ne_nil _ _
  · cases h : cut? sep s with
    | none => simp [split_of_cut?_eq_none hs h]
    | some parts => simp [split_of_cut?_eq_some hs h]

theorem join_cons (sep piece : List Char) {pieces : List (List Char)} (h : pieces ≠ []) :
    join sep (piece :: pieces) = piece ++ sep ++ join sep pieces := by
  cases pieces with
  | nil => exact absurd rfl h
  | cons next rest => rfl

theorem join_nil_left (pieces : List (List Char)) : join [] pieces = pieces.flatten := by
  induction pieces with
  | nil => rfl
  | cons piece pieces ih =>
    cases pieces with
    | nil => simp [join]
    | cons next rest => simp [join, ih]

theorem join_split (sep s : List Char) : join sep (split sep s) = s := by
  fun_induction split sep s with
  | case1 s hs =>
    subst hs
    simp [join_nil_left, ← List.flatMap_def]
  | case2 s hs h => rfl
  | case3 s hs before after h hlt ih =>
    rw [join_cons sep before (split_ne_nil sep after), ih]
    exact (eq_append_of_cut? h).symm

/-! ## The pieces that return -/

/-- Pieces that the separator tells apart. -/
structure Separable (sep : List Char) (pieces : List (List Char)) : Prop where
  /-- Put after a piece other than the last, the separator stands there first at its end. -/
  inner : ∀ piece ∈ pieces.dropLast, FirstAt sep (piece ++ sep) piece.length
  /-- The last piece does not have the separator in it. -/
  last : ∀ piece ∈ pieces.getLast?, ¬ sep <:+: piece

theorem separable_nil (sep : List Char) : Separable sep [] :=
  ⟨nofun, nofun⟩

theorem separable_singleton (sep piece : List Char) :
    Separable sep [piece] ↔ ¬ sep <:+: piece :=
  ⟨fun h => h.last piece rfl, fun h => ⟨nofun, fun _ hp => Option.some.inj hp ▸ h⟩⟩

theorem separable_cons (sep piece : List Char) {pieces : List (List Char)} (h : pieces ≠ []) :
    Separable sep (piece :: pieces) ↔
      FirstAt sep (piece ++ sep) piece.length ∧ Separable sep pieces := by
  obtain ⟨next, rest, rfl⟩ := List.exists_cons_of_ne_nil h
  constructor
  · intro hp
    exact ⟨hp.inner piece (by simp),
      ⟨fun p hm => hp.inner p (by simp [hm]), fun p hm => hp.last p (by simpa using hm)⟩⟩
  · rintro ⟨hpiece, hp⟩
    refine ⟨fun p hm => ?_, fun p hm => hp.last p (by simpa using hm)⟩
    rcases List.mem_cons.mp (by simpa using hm) with rfl | hm
    · exact hpiece
    · exact hp.inner p hm

theorem split_eq_singleton_iff (hs : sep ≠ []) : split sep s = [s] ↔ ¬ sep <:+: s := by
  rw [← cut?_eq_none_iff]
  refine ⟨fun h => ?_, split_of_cut?_eq_none hs⟩
  cases hc : cut? sep s with
  | none => rfl
  | some parts =>
    rw [split_of_cut?_eq_some hs hc] at h
    exact absurd (List.cons.inj h).2 (split_ne_nil sep parts.2)

/-- A piece in front of a separator is the first one cut off if the separator does not stand earlier
than after it. -/
theorem split_append_iff (hs : sep ≠ []) (piece rest : List Char) (pieces : List (List Char)) :
    split sep (piece ++ sep ++ rest) = piece :: pieces ↔
      FirstAt sep (piece ++ sep) piece.length ∧ split sep rest = pieces := by
  rw [← firstAt_append_iff piece rest]
  constructor
  · intro h
    cases hc : cut? sep (piece ++ sep ++ rest) with
    | none => exact absurd ⟨piece, rest, rfl⟩ (cut?_eq_none_iff.mp hc)
    | some parts =>
      obtain ⟨before, after⟩ := parts
      rw [split_of_cut?_eq_some hs hc] at h
      obtain ⟨rfl, hafter⟩ := List.cons.inj h
      obtain ⟨heq, hfirst⟩ := cut?_eq_some_iff.mp hc
      exact ⟨hfirst, List.append_cancel_left heq ▸ hafter⟩
  · rintro ⟨hfirst, h⟩
    rw [split_of_cut?_eq_some hs (cut?_eq_some_iff.mpr ⟨rfl, hfirst⟩), h]

/-- Pieces return from their join exactly if they are separable. -/
theorem split_join_iff (hs : sep ≠ []) {pieces : List (List Char)} (hne : pieces ≠ []) :
    split sep (join sep pieces) = pieces ↔ Separable sep pieces := by
  induction pieces with
  | nil => exact absurd rfl hne
  | cons piece rest ih =>
    rcases eq_or_ne rest [] with rfl | hrest
    · rw [join, split_eq_singleton_iff hs, separable_singleton]
    · rw [join_cons sep piece hrest, split_append_iff hs, ih hrest, separable_cons sep piece hrest]

theorem separable_split (hs : sep ≠ []) (s : List Char) : Separable sep (split sep s) := by
  rw [← split_join_iff hs (split_ne_nil sep s), join_split]

/-- A separator that is cut at the end of a piece is not in the piece. -/
theorem FirstAt.not_isInfix {piece : List Char} (hs : sep ≠ [])
    (h : FirstAt sep (piece ++ sep) piece.length) : ¬ sep <:+: piece := by
  rintro ⟨before, after, rfl⟩
  have hpos := List.length_pos_iff.mpr hs
  refine h.not_before before.length (by simp only [List.length_append]; omega) ?_
  simp

theorem Separable.not_isInfix {pieces : List (List Char)} (hs : sep ≠ [])
    (h : Separable sep pieces) : ∀ piece ∈ pieces, ¬ sep <:+: piece := by
  intro piece hp
  have hne : pieces ≠ [] := List.ne_nil_of_mem hp
  rw [← List.dropLast_concat_getLast hne, List.mem_append, List.mem_singleton] at hp
  rcases hp with hp | rfl
  · exact (h.inner piece hp).not_isInfix hs
  · exact h.last _ (List.getLast?_eq_some_getLast hne)

/-! ## Separators that overlap themselves -/

/-- A part of the separator, neither empty nor all of it, is at its start and at its end. -/
def OverlapsItself (sep : List Char) : Prop :=
  ∃ part, part ≠ [] ∧ part ≠ sep ∧ part <+: sep ∧ part <:+ sep

theorem not_overlapsItself_singleton (c : Char) : ¬ OverlapsItself [c] := by
  rintro ⟨part, hne, hproper, hstart, -⟩
  rcases List.prefix_cons_iff.mp hstart with rfl | ⟨rest, rfl, hrest⟩
  · exact hne rfl
  · exact hproper (by rw [List.prefix_nil.mp hrest])

/-- A separator that does not overlap itself is only found at the end of a piece without it. -/
theorem firstAt_of_not_isInfix (h : ¬ OverlapsItself sep) {piece : List Char}
    (hp : ¬ sep <:+: piece) : FirstAt sep (piece ++ sep) piece.length := by
  refine ⟨by simp, fun j hj hstart => ?_⟩
  rw [List.drop_append_of_le_length hj.le] at hstart
  have hend : piece.drop j <:+ piece := List.drop_suffix j piece
  have hne : piece.drop j ≠ [] := by simpa using hj
  -- the separator stands across the end of the piece, for it has no room within the piece
  rcases List.prefix_or_prefix_of_prefix hstart (List.prefix_append _ _) with hin | ⟨part, rfl⟩
  · exact hp (hin.isInfix.trans hend.isInfix)
  · refine h ⟨part, ?_, ?_, ?_, List.suffix_append _ _⟩
    · rintro rfl
      exact hp (by simpa using hend.isInfix)
    · exact fun he => hne (by simpa using he)
    · exact (List.prefix_append_right_inj _).mp hstart

theorem separable_of_not_isInfix (h : ¬ OverlapsItself sep) {pieces : List (List Char)}
    (hp : ∀ piece ∈ pieces, ¬ sep <:+: piece) : Separable sep pieces :=
  ⟨fun piece hm => firstAt_of_not_isInfix h (hp piece (List.mem_of_mem_dropLast hm)),
    fun piece hm => hp piece (List.mem_of_getLast? hm)⟩

/-- A separator that overlaps itself is found too early after what is left of it in front of the
overlap. -/
theorem exists_cut_early (h : OverlapsItself sep) :
    ∃ piece, ¬ sep <:+: piece ∧ ¬ FirstAt sep (piece ++ sep) piece.length := by
  obtain ⟨part, hne, hproper, hstart, piece, rfl⟩ := h
  have hpos : 0 < piece.length := by
    refine List.length_pos_iff.mpr ?_
    rintro rfl
    exact hproper rfl
  refine ⟨piece, fun hin => ?_, fun hfirst => hfirst.not_before 0 hpos ?_⟩
  · have hlen := hin.length_le
    have := List.length_pos_iff.mpr hne
    simp only [List.length_append] at hlen
    omega
  · exact (List.prefix_append_right_inj piece).mpr hstart

end Catalogue.Text
