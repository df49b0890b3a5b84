import Catalogue.Proofs.Time.Clock
import Catalogue.Proofs.Time.Scan
import Catalogue.Time.Layout
import Mathlib.Data.List.DropRight

/-!
# Layouts read back

A layout is read item by item, and each directive reads what it wrote, whatever follows: numerals
have the width that the reader takes at most, and names are told apart by their first three letters.
White space in a layout stands for any white space, which does no harm, as no directive starts with
some (`Layout.Solid`). Only a year can be read wrongly: past four digits it has a sign, and then the
reader takes all digits that follow, so none may (`Layout.Legible`).

`Layout.readDirective?_renderDirective` : what a directive wrote is read as what it notes of an
instant (`Directive.note?`);
`Layout.readItems?_render` : what a layout wrote is read as what its directives note one after the
other, and nothing is left of the text;
`Layout.wellFormed_of_ofPercent?` : percent notation has no other directives than those.
-/

namespace Catalogue

namespace Layout

open Text Scan

/-! ## Names read back -/

theorem dropName?_append {name s : List Char} (h : name.length ≤ s.length) (rest : List Char) :
    dropName? name (s ++ rest) = (dropName? name s).map (· ++ rest) := by
  induction name generalizing s with
  | nil => rfl
  | cons c name ih =>
    cases s with
    | nil => simp at h
    | cons d s =>
      rw [List.cons_append, dropName?, dropName?]
      split
      · exact ih (by simpa using h)
      · rfl

theorem dropName?_self (name rest : List Char) : dropName? name (name ++ rest) = some rest := by
  induction name with
  | nil => rfl
  | cons c name ih => rw [List.cons_append, dropName?, if_pos rfl, ih]

/-- Short names that are no longer than a text are looked for in the text only. -/
theorem shortName?_append {names : List String} {s : List Char}
    (h : ∀ n < names.length, ((nameAt names n).take 3).length ≤ s.length) (rest : List Char) :
    shortName? names (s ++ rest) =
      (shortName? names s).map fun found => (found.1, found.2 ++ rest) := by
  rw [shortName?, shortName?, List.map_findSome?, ← List.head?_filterMap, ← List.head?_filterMap]
  congr 1
  refine List.filterMap_congr fun n hn => ?_
  rw [dropName?_append (h n (List.mem_range.mp hn)), Option.map_map, Function.comp, Option.map_map]
  rfl

/-- All names of a table start with neither white space nor a digit and have three letters or more,
and their first three letters tell them apart. -/
def Distinct (names : List String) : Prop :=
  ∀ n < names.length,
    ((nameAt names n).head?.any fun c => !isBlank c && !c.isDigit) ∧
      3 ≤ (nameAt names n).length ∧
        shortName? names ((nameAt names n).take 3) = some (n, [])

theorem distinct_monthNames : Distinct monthNames := by
  unfold Distinct
  decide

theorem distinct_weekdayNames : Distinct weekdayNames := by
  unfold Distinct
  decide

theorem shortName?_take {names : List String} (hnames : Distinct names) {n : Nat}
    (hn : n < names.length) (rest : List Char) :
    shortName? names ((nameAt names n).take 3 ++ rest) = some (n, rest) := by
  obtain ⟨-, hlength, hfound⟩ := hnames n hn
  have hshort : ((nameAt names n).take 3).length = 3 := by
    rw [List.length_take]
    omega
  rw [shortName?_append (fun m _ => by rw [hshort]; exact List.length_take_le 3 _), hfound]
  rfl

theorem fullName?_nameAt {names : List String} (hnames : Distinct names) {n : Nat}
    (hn : n < names.length) (rest : List Char) :
    fullName? names (nameAt names n ++ rest) = some (n, rest) := by
  have hname : nameAt names n ++ rest =
      (nameAt names n).take 3 ++ ((nameAt names n).drop 3 ++ rest) := by
    rw [← List.append_assoc, List.take_append_drop]
  rw [fullName?, hname, shortName?_take hnames hn, Option.map_some, dropName?_self,
    Option.getD_some]

/-! ## Directives read back -/

/-- The text starts with a character that is not white space. -/
def Solid (s : List Char) : Prop :=
  ∃ c ∈ s.head?, isBlank c = false

theorem Solid.append {s : List Char} (h : Solid s) (rest : List Char) : Solid (s ++ rest) := by
  obtain ⟨c, hc, hsolid⟩ := h
  exact ⟨c, by simp [Option.mem_def.mp hc], hsolid⟩

theorem Solid.dropBlanks {s : List Char} (h : Solid s) : dropBlanks s = s := by
  obtain ⟨c, hc, hsolid⟩ := h
  cases s with
  | nil => exact nomatch hc
  | cons d s =>
    obtain rfl : d = c := Option.some.inj hc
    exact List.dropWhile_cons_of_neg (by simp [hsolid])

theorem isBlank_of_isDigit {c : Char} (h : c.isDigit) : isBlank c = false := by
  have hdigit : 48 ≤ c.toNat ∧ c.toNat ≤ 57 := by
    simpa [Char.isDigit, Char.le_def, UInt32.le_iff_toNat_le] using h
  simp [isBlank, blankRanges]
  omega

theorem startsWithDigit_padded {width : Nat} (h : width ≠ 0) (n : Nat) (rest : List Char) :
    StartsWithDigit (padded width n ++ rest) := by
  cases hp : padded width n with
  | nil =>
    have := length_padded width n
    simp_all
  | cons c s =>
    rw [List.cons_append, startsWithDigit_cons]
    exact isDigit_of_mem_padded (hp ▸ List.mem_cons_self)

theorem solid_of_startsWithDigit {s : List Char} (h : StartsWithDigit s) : Solid s := by
  obtain ⟨c, hc, hdigit⟩ := h
  exact ⟨c, hc, isBlank_of_isDigit hdigit⟩

theorem twoDigits?_padded {n : Nat} (h : n < 100) (rest : List Char) :
    twoDigits? (padded 2 n ++ rest) = some (n, rest) := by
  have hsolid := solid_of_startsWithDigit (startsWithDigit_padded (by decide : 2 ≠ 0) n rest)
  rw [twoDigits?, hsolid.dropBlanks, number?_padded 1 (by decide) h]

theorem year?_padded {n : Nat} (h : n ≤ 9999) (rest : List Char) :
    year? (padded 4 n ++ rest) = some ((n : Int), rest) := by
  have hdigit := startsWithDigit_padded (by decide : 4 ≠ 0) n rest
  have hread : number? 1 4 (padded 4 n ++ rest) = some (n, rest) :=
    number?_padded 1 (by decide) (by simp; omega) rest
  rw [year?, (solid_of_startsWithDigit hdigit).dropBlanks]
  generalize padded 4 n ++ rest = s at *
  -- a digit is no sign
  split
  · exact absurd ((startsWithDigit_cons _ _).mp hdigit) (by decide)
  · exact absurd ((startsWithDigit_cons _ _).mp hdigit) (by decide)
  · rw [hread, Option.map_some]

theorem year?_signed {year : Int} {rest : List Char} (hrest : ¬ StartsWithDigit rest) :
    year? ((if year < 0 then '-' else '+') :: (atLeast 4 year.natAbs ++ rest)) =
      some (year, rest) := by
  have hlength : 1 ≤ (atLeast 4 year.natAbs).length := by
    rw [atLeast]
    split
    · rw [length_padded]
      decide
    · exact List.length_pos_of_ne_nil (digits_ne_nil _)
  have hread : number? 1 (atLeast 4 year.natAbs ++ rest).length (atLeast 4 year.natAbs ++ rest) =
      some (year.natAbs, rest) :=
    number?_append (fun _ => isDigit_of_mem_atLeast) (readDigits_atLeast 4 _) hlength
      (by simp) (.inr hrest)
  rw [year?]
  by_cases hneg : year < 0
  · have hyear : -(year.natAbs : Int) = year := by omega
    rw [if_pos hneg, Solid.dropBlanks ⟨'-', rfl, by decide⟩]
    simp only [hread, Option.map_some, hyear]
  · have hyear : (year.natAbs : Int) = year := by omega
    rw [if_neg hneg, Solid.dropBlanks ⟨'+', rfl, by decide⟩]
    simp only [hread, Option.map_some, hyear]

theorem year?_yearText {year : Int} {rest : List Char}
    (h : (0 ≤ year ∧ year ≤ 9999) ∨ ¬ StartsWithDigit rest) :
    year? (Date.yearText year ++ rest) = some (year, rest) := by
  rw [Date.yearText]
  split
  case isTrue hfour =>
    rw [year?_padded (by omega), Int.toNat_of_nonneg hfour.1]
  case isFalse hfour => exact year?_signed (h.resolve_left hfour)

/-- The offset zero, with a mark between hours and minutes that the reader skips. -/
theorem offset?_zero {between : List Char → Option (List Char)} (mark : List Char)
    {rest : List Char}
    (h : between (mark ++ padded 2 0 ++ rest) = some (padded 2 0 ++ rest)) :
    offset? between ('+' :: (padded 2 0 ++ (mark ++ padded 2 0 ++ rest))) = some (0, rest) := by
  have hread (s : List Char) : number? 2 2 (padded 2 0 ++ s) = some (0, s) :=
    number?_padded 2 (by decide) (by decide) s
  rw [offset?]
  refine (Option.bind_of_some rfl).trans ?_
  refine (Option.bind_of_some (hread _)).trans ?_
  refine (Option.bind_of_some h).trans ?_
  refine (Option.bind_of_some (hread _)).trans ?_
  rfl

theorem halfOfDay?_am (rest : List Char) : halfOfDay? ('A' :: 'M' :: rest) = some (0, rest) := by
  simp [halfOfDay?, dropName?]

theorem halfOfDay?_pm (rest : List Char) : halfOfDay? ('P' :: 'M' :: rest) = some (1, rest) := by
  simp [halfOfDay?, dropName?]

end Layout

theorem Instant.monthName_lt (t : Instant) : t.date.month - 1 < Layout.monthNames.length := by
  have hmonth := t.exists_date.month_bounds
  rw [show Layout.monthNames.length = 12 from rfl]
  omega

/-- The nanoseconds that the first `groups` groups of three digits of the fraction stand for. -/
def Instant.fractionShown (t : Instant) (groups : Nat) : Nat :=
  t.fraction / Nat.pow 10 (9 - 3 * groups) * Nat.pow 10 (9 - 3 * groups)

/-- Adds what a directive shows of an instant. -/
def Directive.note? (t : Instant) (c : Components) : Directive → Option Components
  | .year => c.setYear t.date.year
  | .yearOfCentury => c.setYearOfCentury (t.date.year % 100).toNat
  | .month | .monthShort | .monthName => c.setMonth t.date.month
  | .day => c.setDay t.date.day
  | .hour24 => c.setHour24 t.hour
  | .hour12 => c.setHour12 (if t.hour % 12 = 0 then 12 else t.hour % 12)
  | .minute => c.setMinute t.minute
  | .second => c.setSecond t.second
  | .fraction groups => c.setFraction (t.fractionShown groups)
  | .halfOfDay => c.setHalfOfDay (t.hour / 12)
  | .weekdayShort | .weekdayName => c.setWeekday t.date.weekday
  | .offset | .offsetColon => c.setOffset 0

/-- A fraction has one to three groups of digits. -/
def Directive.WellFormed (d : Directive) : Prop :=
  ∀ groups, d = .fraction groups → 1 ≤ groups ∧ groups ≤ 3

namespace Layout

open Text Scan

/-- A fraction is written as a numeral. -/
theorem renderDirective_fraction (t : Instant) {groups : Nat} (h : groups ≤ 3) :
    renderDirective t (.fraction groups) =
      padded (3 * groups) (t.fraction / Nat.pow 10 (9 - 3 * groups)) := by
  rw [renderDirective, ← take_padded, Nat.add_sub_cancel' (by omega : 3 * groups ≤ 9)]

/-- A reader that hands its result to a setter. -/
theorem bind_set {α : Type} (set : α → Option Components) {x : Option (α × List Char)} {a : α}
    {rest : List Char} (h : x = some (a, rest)) :
    (x >>= fun found => set found.1 >>= fun c => some (c, found.2)) =
      (set a).map fun c => (c, rest) := by
  rw [h]
  exact Option.map_eq_bind.symm

/-- What a directive wrote is read, whatever follows, but a digit may not follow a year with a
sign. -/
theorem readDirective?_renderDirective {t : Instant} {d : Directive} (hd : d.WellFormed)
    {rest : List Char}
    (hyear : d = .year → (0 ≤ t.date.year ∧ t.date.year ≤ 9999) ∨ ¬ StartsWithDigit rest)
    (c : Components) :
    readDirective? c (renderDirective t d ++ rest) d =
      (d.note? t c).map fun c => (c, rest) := by
  have hmonth := t.exists_date.month_bounds
  have hmonthIndex : t.date.month - 1 + 1 = t.date.month := by omega
  have hday := t.exists_date.day_le
  have hhour := t.hour_lt
  have hminute := t.minute_lt
  have hsecond := t.second_le
  have hmonthName := t.monthName_lt
  have hweekday := t.date.weekday_lt
  cases d with
  | year => exact bind_set c.setYear (year?_yearText (hyear rfl))
  | yearOfCentury => exact bind_set c.setYearOfCentury (twoDigits?_padded (by omega) rest)
  | month => exact bind_set c.setMonth (twoDigits?_padded (by omega) rest)
  | monthShort =>
    have hset := bind_set (fun n => c.setMonth (n + 1))
      (shortName?_take distinct_monthNames hmonthName rest)
    rwa [hmonthIndex] at hset
  | monthName =>
    have hset := bind_set (fun n => c.setMonth (n + 1))
      (fullName?_nameAt distinct_monthNames hmonthName rest)
    rwa [hmonthIndex] at hset
  | day => exact bind_set c.setDay (twoDigits?_padded (by omega) rest)
  | hour24 => exact bind_set c.setHour24 (twoDigits?_padded (by omega) rest)
  | hour12 => exact bind_set c.setHour12 (twoDigits?_padded (by split <;> omega) rest)
  | minute => exact bind_set c.setMinute (twoDigits?_padded (by omega) rest)
  | second => exact bind_set c.setSecond (twoDigits?_padded (by omega) rest)
  | fraction groups =>
    have hgroups := hd groups rfl
    have hfits : t.fraction / Nat.pow 10 (9 - 3 * groups) < Nat.pow 10 (3 * groups) := by
      refine Nat.div_lt_of_lt_mul ?_
      have hpow : Nat.pow 10 (9 - 3 * groups) * Nat.pow 10 (3 * groups) = Nat.pow 10 9 :=
        (Nat.pow_add' 10 _ _).symm.trans (congrArg (Nat.pow 10) (by omega))
      rw [hpow]
      exact t.fraction_lt
    rw [renderDirective_fraction t hgroups.2]
    exact bind_set (fun n => c.setFraction (n * Nat.pow 10 (9 - 3 * groups)))
      (number?_padded (3 * groups) (Nat.le_refl _) hfits rest)
  | halfOfDay =>
    by_cases hmorning : t.hour < 12
    · have hhalf : t.hour / 12 = 0 := by omega
      rw [renderDirective, if_pos hmorning, Directive.note?, hhalf]
      exact bind_set c.setHalfOfDay (halfOfDay?_am rest)
    · have hhalf : t.hour / 12 = 1 := by omega
      rw [renderDirective, if_neg hmorning, Directive.note?, hhalf]
      exact bind_set c.setHalfOfDay (halfOfDay?_pm rest)
  | weekdayShort =>
    exact bind_set c.setWeekday (shortName?_take distinct_weekdayNames hweekday rest)
  | weekdayName =>
    exact bind_set c.setWeekday (fullName?_nameAt distinct_weekdayNames hweekday rest)
  | offset => exact bind_set c.setOffset (offset?_zero [] rfl)
  | offsetColon => exact bind_set c.setOffset (offset?_zero [':'] rfl)

end Layout

/-! ## Items read back -/

/-- Directives that are written in digits without a sign. -/
def Directive.isNumeral : Directive → Bool
  | .yearOfCentury | .month | .day | .hour24 | .hour12 | .minute | .second | .fraction _ => true
  | _ => false

/-- Items that are written with a digit in the first place, years apart. -/
def LayoutItem.isNumeral : LayoutItem → Bool
  | .directive d => d.isNumeral
  | .literal c => c.isDigit

namespace Layout

open Text Scan

/-- The directives of a layout, in order. -/
def directives (layout : Layout) : List Directive :=
  layout.filterMap fun
    | .directive d => some d
    | .literal _ => none

/-- No number follows a year directly. -/
def YearsEnd (layout : Layout) : Prop :=
  layout.IsChain fun item next => item = .directive .year → next.isNumeral = false

/-- The end of each year can be told: a year has four digits, or what follows is no digit. -/
def Legible (layout : Layout) (t : Instant) : Prop :=
  (0 ≤ t.date.year ∧ t.date.year ≤ 9999) ∨ layout.YearsEnd

/-- A directive is written with a solid character in the first place, which is a digit only for a
numeral or a year. -/
theorem exists_head_renderDirective {d : Directive} (hd : d.WellFormed) (t : Instant) :
    ∃ c ∈ (renderDirective t d).head?, isBlank c = false ∧
      (c.isDigit → d.isNumeral ∨ d = .year ∧ 0 ≤ t.date.year ∧ t.date.year ≤ 9999) := by
  have numeral {width : Nat} (hwidth : width ≠ 0) (n : Nat) {P : Prop} (hP : P) :
      ∃ c ∈ (padded width n).head?, isBlank c = false ∧ (c.isDigit → P) := by
    obtain ⟨c, hc, hdigit⟩ := startsWithDigit_padded hwidth n []
    rw [List.append_nil] at hc
    exact ⟨c, hc, isBlank_of_isDigit hdigit, fun _ => hP⟩
  have name {names : List String} (hnames : Distinct names) {n : Nat} (hn : n < names.length)
      {P : Prop} : ∃ c ∈ (nameAt names n).head?, isBlank c = false ∧ (c.isDigit → P) := by
    obtain ⟨c, hc, hc'⟩ := (Option.any_eq_true _ _).mp (hnames n hn).1
    rw [Bool.and_eq_true, Bool.not_eq_true', Bool.not_eq_true'] at hc'
    exact ⟨c, hc, hc'.1, fun h => by simp [hc'.2] at h⟩
  cases d with
  | year =>
    rw [renderDirective, Date.yearText]
    split
    case isTrue hfour => exact numeral (by decide) _ (.inr ⟨rfl, hfour⟩)
    case isFalse =>
      refine ⟨_, rfl, ?_⟩
      split <;> exact ⟨by decide, nofun⟩
  | monthShort =>
    rw [renderDirective, List.head?_take, if_neg (by decide)]
    exact name distinct_monthNames t.monthName_lt
  | monthName => exact name distinct_monthNames t.monthName_lt
  | weekdayShort =>
    rw [renderDirective, List.head?_take, if_neg (by decide)]
    exact name distinct_weekdayNames t.date.weekday_lt
  | weekdayName => exact name distinct_weekdayNames t.date.weekday_lt
  | fraction groups =>
    have hgroups := hd groups rfl
    rw [renderDirective_fraction t hgroups.2]
    exact numeral (by omega) _ (.inl rfl)
  | halfOfDay =>
    rw [renderDirective]
    split <;> exact ⟨_, rfl, by decide, nofun⟩
  | offset | offsetColon => exact ⟨'+', rfl, by decide, nofun⟩
  | yearOfCentury | month | day | hour24 | hour12 | minute | second =>
    exact numeral (by decide) _ (.inl rfl)

theorem solid_renderDirective {d : Directive} (hd : d.WellFormed) (t : Instant) :
    Solid (renderDirective t d) := by
  obtain ⟨c, hc, hsolid, -⟩ := exists_head_renderDirective hd t
  exact ⟨c, hc, hsolid⟩

theorem render_cons_directive (d : Directive) (layout : Layout) (t : Instant) :
    render (.directive d :: layout) t = renderDirective t d ++ render layout t :=
  List.flatMap_cons

theorem render_cons_literal (c : Char) (layout : Layout) (t : Instant) :
    render (.literal c :: layout) t = c :: render layout t :=
  List.flatMap_cons

/-- The digits of a year with a sign end where the year ends. -/
theorem YearsEnd.not_startsWithDigit {layout : Layout} {t : Instant}
    (h : YearsEnd (.directive .year :: layout)) (hd : ∀ d ∈ directives layout, d.WellFormed)
    (hyear : ¬ (0 ≤ t.date.year ∧ t.date.year ≤ 9999)) :
    ¬ StartsWithDigit (render layout t) := by
  cases layout with
  | nil => exact not_startsWithDigit_nil
  | cons item layout =>
    have hitem : item.isNumeral = false := (List.isChain_cons_cons.mp h).1 rfl
    cases item with
    | literal c =>
      rw [render_cons_literal, startsWithDigit_cons]
      exact ne_true_of_eq_false hitem
    | directive d =>
      obtain ⟨c, hc, -, hdigit⟩ := exists_head_renderDirective (hd d List.mem_cons_self) t
      rintro ⟨e, he, hedigit⟩
      rw [render_cons_directive, List.head?_append, Option.mem_def.mp hc] at he
      obtain rfl : c = e := Option.some.inj he
      rcases hdigit hedigit with h | ⟨-, h⟩
      · exact absurd (h.symm.trans hitem) (by decide)
      · exact hyear h

/-- What a layout wrote is read item by item, with or without the white space in front of it, and
nothing is left. -/
theorem readItems?_render {layout : Layout} {t : Instant}
    (hd : ∀ d ∈ directives layout, d.WellFormed) (h : Legible layout t) {s : List Char}
    (hs : s = render layout t ∨ s = dropBlanks (render layout t)) (c : Components) :
    readItems? c layout s =
      ((directives layout).foldlM (Directive.note? t) c).map fun c => (c, []) := by
  induction layout generalizing c s with
  | nil =>
    have hnil : s = [] := by rcases hs with rfl | rfl <;> rfl
    rw [hnil]
    rfl
  | cons item layout ih =>
    have htail : Legible layout t := h.imp_right List.IsChain.of_cons
    cases item with
    | directive d =>
      have hdirective := hd d List.mem_cons_self
      have hsolid := (solid_renderDirective hdirective t).append (render layout t)
      rw [render_cons_directive, hsolid.dropBlanks, or_self] at hs
      have hdirectives : ∀ e ∈ directives layout, e.WellFormed :=
        fun e he => hd e (List.mem_cons_of_mem d he)
      have hyear : d = .year →
          (0 ≤ t.date.year ∧ t.date.year ≤ 9999) ∨ ¬ StartsWithDigit (render layout t) := by
        rintro rfl
        exact or_iff_not_imp_left.mpr fun hfour =>
          (h.resolve_left hfour).not_startsWithDigit hdirectives hfour
      rw [hs, readItems?, readDirective?_renderDirective hdirective hyear c]
      show _ = (Option.map _ (List.foldlM _ _ (d :: directives layout)))
      rw [List.foldlM_cons]
      cases d.note? t c with
      | none => rfl
      | some c' => exact ih hdirectives htail (.inl rfl) c'
    | literal l =>
      rw [render_cons_literal] at hs
      rw [readItems?]
      split
      case isTrue hblank =>
        have hdrop : dropBlanks (l :: render layout t) = dropBlanks (render layout t) :=
          List.dropWhile_cons_of_pos hblank
        have hs' : dropBlanks s = dropBlanks (render layout t) := by
          rcases hs with rfl | rfl
          · exact hdrop
          · rw [hdrop, dropBlanks, dropBlanks, List.dropWhile_idempotent]
        exact ih hd htail (.inr hs') c
      case isFalse hsolid =>
        have hs' : s = l :: render layout t := by
          rwa [dropBlanks, List.dropWhile_cons_of_neg hsolid, or_self] at hs
        rw [hs']
        refine (Option.bind_of_some (char?_cons l _)).trans ?_
        exact ih hd htail (.inl rfl) c

/-! ## Layouts in percent notation -/

theorem wellFormed_of_directive? {s rest : List Char} {d : Directive}
    (h : directive? s = some (d, rest)) : d.WellFormed := by
  unfold directive? at h
  split at h
  all_goals
    simp only [Option.some.injEq, Prod.mk.injEq, reduceCtorEq] at h
  all_goals
    obtain ⟨rfl, -⟩ := h
    intro groups hgroups
    cases hgroups
  all_goals decide

/-- Percent notation has well-formed directives only. -/
theorem wellFormed_of_ofPercent? {s : List Char} {layout : Layout}
    (h : ofPercent? s = some layout) : ∀ d ∈ directives layout, d.WellFormed := by
  fun_induction ofPercent? s generalizing layout with
  | case1 =>
    obtain rfl := Option.some.inj h
    exact nofun
  | case2 s ih =>
    obtain ⟨layout, hs, rfl⟩ := Option.map_eq_some_iff.mp h
    exact (ih hs :)
  | case3 s hs d rest hd hlt ih =>
    obtain ⟨layout, hs, rfl⟩ := Option.map_eq_some_iff.mp h
    exact List.forall_mem_cons.mpr ⟨wellFormed_of_directive? hd, ih hs⟩
  | case4 => exact nomatch h
  | case5 c s _ _ ih =>
    obtain ⟨layout, hs, rfl⟩ := Option.map_eq_some_iff.mp h
    exact (ih hs :)

end Layout

end Catalogue
