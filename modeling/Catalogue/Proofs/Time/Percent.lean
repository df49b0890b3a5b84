import Catalogue.Proofs.Time.Layout
import Catalogue.Time.Format

/-!
# Percent notation

Every item of a layout has a text in percent notation, and the texts of one layout, put together,
are read as that layout and no other. So the notation needs no separators : a text is cut in one way
at most into directives, double percent signs and other characters.

`Layout.ofPercent?_eq_some_iff` : a text is read as the layout that is written so;
`Layout.flatten_eq_iff` : what is read as a layout is cut into tokens in one way, by its items.
-/

namespace Catalogue

/-- A directive in percent notation. Fractions have three, six or nine digits. -/
def Directive.percent : Directive → List Char
  | .year => ['%', 'Y']
  | .yearOfCentury => ['%', 'y']
  | .month => ['%', 'm']
  | .monthShort => ['%', 'b']
  | .monthName => ['%', 'B']
  | .day => ['%', 'd']
  | .hour24 => ['%', 'H']
  | .hour12 => ['%', 'I']
  | .minute => ['%', 'M']
  | .second => ['%', 'S']
  | .fraction 1 => ['%', '3', 'f']
  | .fraction 2 => ['%', '6', 'f']
  | .fraction _ => ['%', '9', 'f']
  | .halfOfDay => ['%', 'p']
  | .weekdayShort => ['%', 'a']
  | .weekdayName => ['%', 'A']
  | .offset => ['%', 'z']
  | .offsetColon => ['%', ':', 'z']

/-- An item of a layout in percent notation. -/
def LayoutItem.percent : LayoutItem → List Char
  | .directive d => d.percent
  | .literal c => LetterPattern.literal c

/-- Directives of a well-formed item are well-formed. -/
def LayoutItem.WellFormed (item : LayoutItem) : Prop :=
  ∀ d, item = .directive d → d.WellFormed

theorem LayoutItem.WellFormed.literal (c : Char) : (LayoutItem.literal c).WellFormed := by
  intro d h
  cases h

theorem LayoutItem.wellFormed_of_mem_map_literal {text : List Char} {item : LayoutItem}
    (h : item ∈ text.map LayoutItem.literal) : item.WellFormed := by
  obtain ⟨c, -, rfl⟩ := List.mem_map.mp h
  exact .literal c

theorem LayoutItem.WellFormed.directive {d : Directive} (h : d.WellFormed) :
    (LayoutItem.directive d).WellFormed := by
  intro e he
  rwa [← LayoutItem.directive.inj he]

/-- A layout in percent notation. -/
def Layout.percent (layout : Layout) : List Char :=
  layout.flatMap LayoutItem.percent

/-- The directives that percent notation has. -/
def Directive.all : List Directive :=
  [.yearOfCentury, .year, .month, .monthShort, .monthName, .day, .hour24, .hour12, .minute,
   .second, .fraction 1, .fraction 2, .fraction 3, .halfOfDay, .weekdayShort, .weekdayName, .offset,
   .offsetColon]

/-- Their texts. -/
def Directive.texts : List String :=
  ["%y", "%Y", "%m", "%b", "%B", "%d", "%H", "%I", "%M", "%S", "%3f", "%6f", "%9f", "%p", "%a",
   "%A", "%z", "%:z"]

theorem Directive.texts_eq_map : texts = all.map fun d => String.ofList d.percent := by
  decide

theorem Directive.mem_all_iff {d : Directive} : d ∈ all ↔ d.WellFormed := by
  cases d with
  | fraction groups =>
    have hgroups : (Directive.fraction groups).WellFormed ↔ 1 ≤ groups ∧ groups ≤ 3 :=
      ⟨fun h => h groups rfl, fun h other he => Directive.fraction.inj he ▸ h⟩
    rw [hgroups]
    simp [all]
    omega
  | _ => exact iff_of_true (by decide) nofun

/-- What percent notation is made of : directives, double percent signs, and characters other than
the percent sign. -/
def Layout.IsToken (token : List Char) : Prop :=
  String.ofList token ∈ Directive.texts ∨ token = ['%', '%'] ∨ ∃ c, c ≠ '%' ∧ token = [c]

namespace Layout

/-! ## Texts read back -/

theorem percent_cons (item : LayoutItem) (layout : Layout) :
    percent (item :: layout) = item.percent ++ percent layout :=
  List.flatMap_cons

theorem percent_append (layout other : Layout) :
    percent (layout ++ other) = layout.percent ++ other.percent :=
  List.flatMap_append

theorem ofPercent?_of_directive? {s rest : List Char} {d : Directive}
    (h : directive? s = some (d, rest)) :
    ofPercent? ('%' :: s) = (ofPercent? rest).map (.directive d :: ·) := by
  have hs : ∀ t, s ≠ '%' :: t := by
    rintro t rfl
    simp [directive?] at h
  rw [ofPercent?]
  · split
    case h_1 h' =>
      obtain ⟨rfl, rfl⟩ := Prod.mk.inj (Option.some.inj (h.symm.trans h'))
      rfl
    case h_2 h' => simp [h] at h'
  · exact hs

theorem exists_directive?_eq {d : Directive} (hd : d.WellFormed) (s : List Char) :
    ∃ text, d.percent = '%' :: text ∧ directive? (text ++ s) = some (d, s) := by
  cases d with
  | fraction groups =>
    obtain ⟨hlow, hhigh⟩ := hd groups rfl
    obtain rfl | rfl | rfl : groups = 1 ∨ groups = 2 ∨ groups = 3 := by omega
    all_goals exact ⟨_, rfl, rfl⟩
  | _ => exact ⟨_, rfl, rfl⟩

/-- The text of an item is read as the item, whatever follows. -/
theorem ofPercent?_item_append {item : LayoutItem} (h : item.WellFormed) (s : List Char) :
    ofPercent? (item.percent ++ s) = (ofPercent? s).map (item :: ·) := by
  cases item with
  | directive d =>
    obtain ⟨text, htext, hread⟩ := exists_directive?_eq (h d rfl) s
    rw [LayoutItem.percent, htext]
    exact ofPercent?_of_directive? hread
  | literal c =>
    by_cases hc : c = '%'
    · subst hc
      simp [LayoutItem.percent, LetterPattern.literal, ofPercent?]
    · simp [LayoutItem.percent, LetterPattern.literal, ofPercent?, hc]

theorem ofPercent?_percent {layout : Layout} (h : ∀ item ∈ layout, item.WellFormed) :
    ofPercent? layout.percent = some layout := by
  induction layout with
  | nil => rw [percent, List.flatMap_nil, ofPercent?]
  | cons item layout ih =>
    obtain ⟨hitem, hlayout⟩ := List.forall_mem_cons.mp h
    rw [percent_cons, ofPercent?_item_append hitem, ih hlayout]
    rfl

theorem eq_percent_of_directive? {s rest : List Char} {d : Directive}
    (h : directive? s = some (d, rest)) : '%' :: s = d.percent ++ rest := by
  unfold directive? at h
  split at h <;> simp only [Option.some.injEq, Prod.mk.injEq, reduceCtorEq] at h
  all_goals
    obtain ⟨rfl, rfl⟩ := h
    rfl

theorem eq_percent_of_ofPercent? {s : List Char} {layout : Layout}
    (h : ofPercent? s = some layout) : s = layout.percent ∧ ∀ item ∈ layout, item.WellFormed := by
  fun_induction ofPercent? s generalizing layout with
  | case1 =>
    obtain rfl := Option.some.inj h
    exact ⟨rfl, List.forall_mem_nil _⟩
  | case2 s ih =>
    obtain ⟨layout, hs, rfl⟩ := Option.map_eq_some_iff.mp h
    obtain ⟨rfl, hwf⟩ := ih hs
    exact ⟨rfl, List.forall_mem_cons.mpr ⟨.literal '%', hwf⟩⟩
  | case3 s _ d rest hd _ ih =>
    obtain ⟨layout, hs, rfl⟩ := Option.map_eq_some_iff.mp h
    obtain ⟨rfl, hwf⟩ := ih hs
    have hitem := LayoutItem.WellFormed.directive (wellFormed_of_directive? hd)
    exact ⟨eq_percent_of_directive? hd, List.forall_mem_cons.mpr ⟨hitem, hwf⟩⟩
  | case4 => simp at h
  | case5 c s _ hc ih =>
    obtain ⟨layout, hs, rfl⟩ := Option.map_eq_some_iff.mp h
    obtain ⟨rfl, hwf⟩ := ih hs
    have hliteral : LetterPattern.literal c = [c] := if_neg hc
    refine ⟨?_, List.forall_mem_cons.mpr ⟨.literal c, hwf⟩⟩
    rw [percent_cons, LayoutItem.percent, hliteral]
    rfl

/-- A text in percent notation is read as the layout that is written so, and as no other. -/
theorem ofPercent?_eq_some_iff {s : List Char} {layout : Layout} :
    ofPercent? s = some layout ↔ s = layout.percent ∧ ∀ item ∈ layout, item.WellFormed := by
  refine ⟨eq_percent_of_ofPercent?, ?_⟩
  rintro ⟨rfl, h⟩
  exact ofPercent?_percent h

/-! ## Tokens -/

theorem mem_texts_iff {token : List Char} :
    String.ofList token ∈ Directive.texts ↔ ∃ d : Directive, d.WellFormed ∧ d.percent = token := by
  simp only [Directive.texts_eq_map, List.mem_map, Directive.mem_all_iff, String.ofList_inj]

/-- The tokens are the texts of the well-formed items. -/
theorem isToken_iff {token : List Char} :
    IsToken token ↔ ∃ item : LayoutItem, item.WellFormed ∧ item.percent = token := by
  constructor
  · rintro (h | rfl | ⟨c, hc, rfl⟩)
    · obtain ⟨d, hd, rfl⟩ := mem_texts_iff.mp h
      exact ⟨.directive d, .directive hd, rfl⟩
    · exact ⟨.literal '%', .literal '%', rfl⟩
    · exact ⟨.literal c, .literal c, if_neg hc⟩
  · rintro ⟨item, hwf, rfl⟩
    cases item with
    | directive d => exact .inl (mem_texts_iff.mpr ⟨d, hwf d rfl, rfl⟩)
    | literal c =>
      by_cases hc : c = '%'
      · exact .inr (.inl (if_pos hc))
      · exact .inr (.inr ⟨c, hc, if_neg hc⟩)

theorem exists_layout_of_tokens {tokens : List (List Char)} (h : ∀ token ∈ tokens, IsToken token) :
    ∃ layout : Layout, (∀ item ∈ layout, item.WellFormed) ∧
      layout.map LayoutItem.percent = tokens := by
  induction tokens with
  | nil => exact ⟨[], List.forall_mem_nil _, rfl⟩
  | cons token tokens ih =>
    obtain ⟨htoken, htokens⟩ := List.forall_mem_cons.mp h
    obtain ⟨item, hitem, rfl⟩ := isToken_iff.mp htoken
    obtain ⟨layout, hlayout, rfl⟩ := ih htokens
    exact ⟨item :: layout, List.forall_mem_cons.mpr ⟨hitem, hlayout⟩, rfl⟩

/-- A text that is read as a layout is cut into tokens in one way, by its items. -/
theorem flatten_eq_iff {s : List Char} {layout : Layout} (h : ofPercent? s = some layout)
    {tokens : List (List Char)} :
    (∀ token ∈ tokens, IsToken token) ∧ tokens.flatten = s ↔
      tokens = layout.map LayoutItem.percent := by
  obtain ⟨rfl, hwf⟩ := eq_percent_of_ofPercent? h
  constructor
  · rintro ⟨htokens, hflatten⟩
    obtain ⟨other, hother, rfl⟩ := exists_layout_of_tokens htokens
    have hread := ofPercent?_percent hother
    rw [percent, List.flatMap_def, hflatten, h] at hread
    rw [Option.some.inj hread]
  · rintro rfl
    refine ⟨fun token htoken => ?_, List.flatMap_def.symm⟩
    obtain ⟨item, hitem, rfl⟩ := List.mem_map.mp htoken
    exact isToken_iff.mpr ⟨item, hwf item hitem, rfl⟩

end Layout

end Catalogue
