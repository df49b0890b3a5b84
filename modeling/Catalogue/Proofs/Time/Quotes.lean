import Catalogue.Proofs.Text.Split
import Catalogue.Proofs.Time.LetterPatterns

/-!
# Quoted texts in letter patterns

To have a text stand for itself in a pattern, one puts it between single quotes and writes every
single quote in it twice (`LetterPattern.inQuotes`). Outside of quotes two single quotes are one, but
inside, the first of the two closes the text and the second opens the next. So the quote is lost
between two pieces of text, and only where a piece is empty two quotes meet that are read as one
(`LetterPattern.percent_inQuotes`).

`LetterPattern.quotable_iff` : a text stands for itself between quotes exactly if its own quotes are
at its ends, with something between them.
-/

namespace Catalogue.LetterPattern

open Text

/-- A text with each single quote written twice. -/
def doubleQuotes (t : List Char) : List Char :=
  t.flatMap fun c => if c = '\'' then ['\'', '\''] else [c]

/-- A text between single quotes, with each single quote in it written twice. -/
def inQuotes (t : List Char) : List Char :=
  '\'' :: (doubleQuotes t ++ ['\''])

/-- Between quotes the text stands for itself : it is written out as literals are, and every instant
is written as the text. -/
def Quotable (t : List Char) : Prop :=
  percent (inQuotes t) = t.flatMap literal ∧
    ∀ i : Instant, (Layout.ofPercent? (percent (inQuotes t))).map (·.render i) = some t

/-! ## What is left of a text between quotes -/

/-- What is left of a piece of text between two quotes : an empty one is a quote. -/
def unquotedPiece (piece : List Char) : List Char :=
  if piece = [] then ['\''] else piece

/-- What is left of a text between quotes. -/
def unquoted (t : List Char) : List Char :=
  (split ['\''] t).flatMap unquotedPiece

/-- A text is what is between its quotes, and the quotes. -/
theorem exists_pieces (t : List Char) : ∃ pieces, split ['\''] t = pieces ∧ pieces ≠ [] ∧
    (∀ piece ∈ pieces, '\'' ∉ piece) ∧ join ['\''] pieces = t := by
  have hseparable := separable_split (List.cons_ne_nil '\'' []) t
  refine ⟨_, rfl, split_ne_nil _ t, fun piece hpiece hquote => ?_, join_split _ t⟩
  exact hseparable.not_isInfix (by simp) piece hpiece ((List.singleton_infix_iff _ _).mpr hquote)

/-- A piece of text between two quotes is read together with the quotes. -/
theorem percent_piece {piece : List Char} (h : '\'' ∉ piece) (s : List Char) :
    percent ('\'' :: (piece ++ '\'' :: s)) = (unquotedPiece piece).flatMap literal ++ percent s := by
  cases piece with
  | nil =>
    rw [List.nil_append, percent]
    rfl
  | cons c piece =>
    have hquoted : quoted (c :: piece ++ '\'' :: s) = c :: piece := by
      rw [quoted, List.takeWhile_append_of_pos, List.takeWhile_cons_of_neg (by simp),
        List.append_nil]
      exact fun d hd => by simpa using fun he : d = '\'' => h (he ▸ hd)
    have hhead : (c :: piece ++ '\'' :: s).head? ≠ some '\'' := by
      simpa using fun he : c = '\'' => h (he ▸ List.mem_cons_self)
    rw [percent_quoted hhead, hquoted, unquotedPiece, if_neg (List.cons_ne_nil c piece),
      ← List.drop_drop, List.drop_left]
    rfl

theorem doubleQuotes_of_not_mem {piece : List Char} (h : '\'' ∉ piece) :
    doubleQuotes piece = piece := by
  have hsame : doubleQuotes piece = piece.flatMap fun c => [c] :=
    List.flatMap_congr fun c hc => if_neg fun he => h (by rwa [← he])
  rw [hsame, List.flatMap_singleton']

/-- Between quotes, pieces of text without quotes are read one after the other. -/
theorem percent_inQuotes_join {pieces : List (List Char)} (hne : pieces ≠ [])
    (h : ∀ piece ∈ pieces, '\'' ∉ piece) :
    percent (inQuotes (join ['\''] pieces)) = (pieces.flatMap unquotedPiece).flatMap literal := by
  induction pieces with
  | nil => exact absurd rfl hne
  | cons piece rest ih =>
    obtain ⟨hpiece, hrest⟩ := List.forall_mem_cons.mp h
    rw [List.flatMap_cons, List.flatMap_append]
    rcases eq_or_ne rest [] with rfl | hrest_ne
    · rw [join, inQuotes, doubleQuotes_of_not_mem hpiece, percent_piece hpiece, percent]
      rfl
    · have hquotes : inQuotes (join ['\''] (piece :: rest)) =
          '\'' :: (piece ++ '\'' :: inQuotes (join ['\''] rest)) := by
        have hdoubled := doubleQuotes_of_not_mem hpiece
        rw [doubleQuotes] at hdoubled
        simp [join_cons _ piece hrest_ne, inQuotes, doubleQuotes, hdoubled]
      rw [hquotes, percent_piece hpiece, ih hrest_ne hrest]

/-- Between quotes a text is read as what is left of it there. -/
theorem percent_inQuotes (t : List Char) : percent (inQuotes t) = (unquoted t).flatMap literal := by
  obtain ⟨pieces, hsplit, hne, hpieces, rfl⟩ := exists_pieces t
  rw [percent_inQuotes_join hne hpieces, unquoted, hsplit]

theorem ofPercent?_literals (t : List Char) :
    Layout.ofPercent? (t.flatMap literal) = some (t.map .literal) :=
  Layout.ofPercent?_eq_some_iff.mpr
    ⟨(percent_map_literal t).symm, fun _ => LayoutItem.wellFormed_of_mem_map_literal⟩

theorem render_literals (t : List Char) (i : Instant) :
    Layout.render (t.map .literal) i = t := by
  rw [Layout.render, List.flatMap_map]
  exact List.flatMap_singleton' t

theorem quotable_iff_unquoted_eq {t : List Char} : Quotable t ↔ unquoted t = t := by
  have hwritten (i : Instant) :
      (Layout.ofPercent? (percent (inQuotes t))).map (·.render i) = some (unquoted t) := by
    rw [percent_inQuotes, ofPercent?_literals, Option.map_some, render_literals]
  constructor
  · rintro ⟨-, h⟩
    exact Option.some.inj ((hwritten .epoch).symm.trans (h .epoch))
  · intro h
    refine ⟨by rw [percent_inQuotes, h], fun i => ?_⟩
    rw [hwritten, h]

/-! ## Texts that stand for themselves -/

theorem count_unquotedPiece {piece : List Char} (h : '\'' ∉ piece) :
    (unquotedPiece piece).count '\'' = if piece = [] then 1 else 0 := by
  rw [unquotedPiece]
  split
  · rfl
  · exact List.count_eq_zero.mpr h

/-- As many quotes are left as there are empty pieces. -/
theorem count_flatMap_unquotedPiece {pieces : List (List Char)}
    (h : ∀ piece ∈ pieces, '\'' ∉ piece) :
    (pieces.flatMap unquotedPiece).count '\'' = pieces.count [] := by
  induction pieces with
  | nil => rfl
  | cons piece rest ih =>
    obtain ⟨hpiece, hrest⟩ := List.forall_mem_cons.mp h
    rw [List.flatMap_cons, List.count_append, ih hrest, count_unquotedPiece hpiece,
      List.count_cons, Nat.add_comm]
    simp

/-- There is one quote between each two pieces. -/
theorem count_join {pieces : List (List Char)} (hne : pieces ≠ [])
    (h : ∀ piece ∈ pieces, '\'' ∉ piece) :
    (join ['\''] pieces).count '\'' + 1 = pieces.length := by
  induction pieces with
  | nil => exact absurd rfl hne
  | cons piece rest ih =>
    obtain ⟨hpiece, hrest⟩ := List.forall_mem_cons.mp h
    have hnone : piece.count '\'' = 0 := List.count_eq_zero.mpr hpiece
    rcases eq_or_ne rest [] with rfl | hrest_ne
    · rw [join, hnone, List.length_singleton]
    · have := ih hrest_ne hrest
      rw [join_cons _ piece hrest_ne, List.count_append, List.count_append, hnone, List.length_cons]
      simp
      omega

/-- If one quote less is left than there are pieces, all pieces but one are empty. -/
theorem exists_replicate_of_count {pieces : List (List Char)}
    (h : pieces.count [] + 1 = pieces.length) :
    ∃ a s b, s ≠ [] ∧ pieces = List.replicate a [] ++ s :: List.replicate b [] := by
  have hfilter : (pieces.filter (· ≠ [])).length = 1 := by
    have hlength := List.length_eq_countP_add_countP (l := pieces) (· == ([] : List Char))
    rw [List.count] at h
    rw [← List.countP_eq_length_filter]
    simp only [beq_iff_eq] at hlength
    simp only [ne_eq]
    omega
  obtain ⟨s, hs⟩ := List.length_eq_one_iff.mp hfilter
  obtain ⟨before, after, rfl, hbefore, hne, hafter⟩ := List.filter_eq_cons_iff.mp hs
  have hempty {l : List (List Char)} (hl : ∀ piece ∈ l, ¬ decide (piece ≠ []) = true) :
      l = List.replicate l.length [] :=
    List.eq_replicate_of_mem fun piece hpiece => by simpa using hl piece hpiece
  refine ⟨before.length, s, after.length, by simpa using hne, ?_⟩
  rw [← hempty hbefore, ← hempty (List.filter_eq_nil_iff.mp hafter)]

theorem join_replicate (a b : Nat) (s : List Char) :
    join ['\''] (List.replicate a [] ++ s :: List.replicate b []) =
      List.replicate a '\'' ++ s ++ List.replicate b '\'' := by
  have hafter (b : Nat) (s : List Char) :
      join ['\''] (s :: List.replicate b []) = s ++ List.replicate b '\'' := by
    induction b generalizing s with
    | zero => exact (List.append_nil s).symm
    | succ b ih =>
      rw [List.replicate_succ, join_cons _ s (List.cons_ne_nil _ _), ih, List.replicate_succ]
      simp
  induction a with
  | zero => exact hafter b s
  | succ a ih =>
    rw [List.replicate_succ, List.cons_append, join_cons _ [] (by simp), ih, List.replicate_succ]
    simp

theorem flatMap_unquotedPiece_replicate (a b : Nat) {s : List Char} (h : s ≠ []) :
    (List.replicate a [] ++ s :: List.replicate b []).flatMap unquotedPiece =
      List.replicate a '\'' ++ s ++ List.replicate b '\'' := by
  have hempty (n : Nat) :
      (List.replicate n []).flatMap unquotedPiece = List.replicate n '\'' := by
    induction n with
    | zero => rfl
    | succ n ih => rw [List.replicate_succ, List.flatMap_cons, ih]; rfl
  rw [List.flatMap_append, List.flatMap_cons, hempty, hempty, unquotedPiece, if_neg h,
    List.append_assoc]

/-- What is left of pieces without quotes, joined by quotes. -/
theorem unquoted_join {pieces : List (List Char)} (hne : pieces ≠ [])
    (h : ∀ piece ∈ pieces, '\'' ∉ piece) :
    unquoted (join ['\''] pieces) = pieces.flatMap unquotedPiece := by
  have hseparable : Separable ['\''] pieces :=
    separable_of_not_isInfix (not_overlapsItself_singleton _) fun piece hpiece hin =>
      h piece hpiece ((List.singleton_infix_iff _ _).mp hin)
  rw [unquoted, (split_join_iff (List.cons_ne_nil _ _) hne).mpr hseparable]

/-- A text stands for itself between quotes exactly if its own quotes are at its ends, before and
after a text that is not empty. -/
theorem quotable_iff {t : List Char} :
    Quotable t ↔ ∃ a s b, s ≠ [] ∧ '\'' ∉ s ∧
      t = List.replicate a '\'' ++ s ++ List.replicate b '\'' := by
  rw [quotable_iff_unquoted_eq]
  constructor
  · intro h
    obtain ⟨pieces, hsplit, hne, hpieces, ht⟩ := exists_pieces t
    -- every quote of the text is left, and only empty pieces leave one
    have hcount : pieces.count [] + 1 = pieces.length := by
      rw [← count_join hne hpieces, ht, ← h, unquoted, hsplit, count_flatMap_unquotedPiece hpieces]
    obtain ⟨a, s, b, hs, rfl⟩ := exists_replicate_of_count hcount
    exact ⟨a, s, b, hs, hpieces s (by simp), by rw [← ht, join_replicate]⟩
  · rintro ⟨a, s, b, hs, hquote, rfl⟩
    rw [← join_replicate, unquoted_join (by simp), flatMap_unquotedPiece_replicate a b hs,
      join_replicate]
    intro piece hpiece
    simp only [List.mem_append, List.mem_cons, List.mem_replicate] at hpiece
    rcases hpiece with ⟨-, rfl⟩ | rfl | ⟨-, rfl⟩
    · exact List.not_mem_nil
    · exact hquote
    · exact List.not_mem_nil

/-- Five o'clock : the quote in the middle is lost. -/
theorem not_quotable_clock :
    let t := "o'clock".toList
    inQuotes t = "'o''clock'".toList ∧ t.flatMap literal = "o'clock".toList ∧
      percent (inQuotes t) = "oclock".toList ∧ ¬ Quotable t := by
  intro t
  have hpercent : percent (inQuotes t) = "oclock".toList := by decide +kernel
  refine ⟨by decide, by decide, hpercent, fun h => ?_⟩
  rw [Quotable, hpercent] at h
  exact absurd h.1 (by decide)

end Catalogue.LetterPattern
