/-!
# Splitting and joining

`split` cuts a text at each place where a separator stands, from left to right and without
overlap; `join` puts the pieces together again. The empty separator stands before, between and
after the characters, so it splits off an empty piece at each end.
-/

namespace Catalogue.Text

/-- The text before the first place where `sep` stands and the text after it. -/
def cut? (sep : List Char) : List Char → Option (List Char × List Char)
  | [] => if sep = [] then some ([], []) else none
  | c :: s =>
    if sep.isPrefixOf (c :: s) then some ([], (c :: s).drop sep.length)
    else (cut? sep s).map fun parts => (c :: parts.1, parts.2)

theorem eq_append_of_cut? {sep s before after : List Char}
    (h : cut? sep s = some (before, after)) : s = before ++ sep ++ after := by
  induction s generalizing before with
  | nil =>
    simp only [cut?] at h
    split at h <;> simp_all
  | cons c s ih =>
    simp only [cut?] at h
    split at h
    · rename_i hp
      obtain ⟨t, ht⟩ := List.isPrefixOf_iff_prefix.mp hp
      simp only [Option.some.injEq, Prod.mk.injEq] at h
      obtain ⟨rfl, rfl⟩ := h
      rw [← ht]
      simp
    · rename_i hp
      obtain ⟨⟨b, a⟩, hb, hab⟩ := Option.map_eq_some_iff.mp h
      simp only [Prod.mk.injEq] at hab
      obtain ⟨rfl, rfl⟩ := hab
      simp [ih hb]

theorem length_lt_of_cut? {sep s before after : List Char} (hs : sep ≠ [])
    (h : cut? sep s = some (before, after)) : after.length < s.length := by
  have hlen := congrArg List.length (eq_append_of_cut? h)
  have hpos := List.length_pos_iff.mpr hs
  simp only [List.length_append] at hlen
  omega

/-- The pieces of `s` at each place where `sep` stands. -/
def split (sep s : List Char) : List (List Char) :=
  if hs : sep = [] then [] :: (s.map fun c => [c]) ++ [[]]
  else
    match h : cut? sep s with
    | none => [s]
    | some (before, after) =>
      have : after.length < s.length := length_lt_of_cut? hs h
      before :: split sep after
termination_by s.length

/-- The pieces with `sep` between each two. -/
def join (sep : List Char) : List (List Char) → List Char
  | [] => []
  | [piece] => piece
  | piece :: next :: rest => piece ++ sep ++ join sep (next :: rest)

end Catalogue.Text
