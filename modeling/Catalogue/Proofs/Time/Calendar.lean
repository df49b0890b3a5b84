import Catalogue.Time.Instant
import Mathlib.Order.Basic
import Mathlib.Tactic.IntervalCases

/-!
# Days of the calendar

The number of a day and its name are two sides of one thing. `Date.epochDay_ofEpochDay` has one
half: a number is the number of the day that it names. Here is the other half. A name is the name of
a day if its month has such a day (`Date.Exists`). The computation counts years from March, so both
directions go by the name of a day in such a year (`Date.march`), in which the last day of February
comes at the end.

`Date.exists_ofEpochDay` : what a number names exists;
`Date.ofEpochDay_epochDay` : a day that exists is named by its number;
`Date.of?_eq_some_iff` : the days from the first to the last of the calendar have a name.
-/

namespace Catalogue

namespace Date

/-- The month has such a day. -/
def Exists (d : Date) : Prop :=
  1 ≤ d.day ∧ d.day ≤ daysInMonth d.year d.month

theorem Exists.month_bounds {d : Date} (h : d.Exists) : 1 ≤ d.month ∧ d.month ≤ 12 := by
  obtain ⟨hday, hlast⟩ := h
  unfold daysInMonth at hlast
  split at hlast <;> omega

theorem Exists.day_le {d : Date} (h : d.Exists) : d.day ≤ 31 := by
  obtain ⟨hday, hlast⟩ := h
  unfold daysInMonth at hlast
  split at hlast <;> try split at hlast
  all_goals omega

theorem weekday_lt (d : Date) : d.weekday < 7 := by
  rw [weekday]
  omega

/-! ## Years from March -/

/-- The year of an era, from March, has a 29th of February at its end. -/
def LongYear (year : Nat) : Prop :=
  year % 4 = 3 ∧ (year % 100 ≠ 99 ∨ year = 399)

instance (year : Nat) : Decidable (LongYear year) :=
  inferInstanceAs (Decidable (_ ∧ _))

theorem isLeapYear_march (era : Int) {year : Nat} (h : year < 400) :
    isLeapYear (era * 400 + year + 1) ↔ LongYear year := by
  simp only [isLeapYear, LongYear, Bool.and_eq_true, Bool.or_eq_true, beq_iff_eq, bne_iff_ne]
  omega

/-- A day of an era lies in the year that is computed for it, and only a long year has a day
after 365 others. -/
theorem longYear_of_last {day : Nat} (h : day < 146097)
    (hlast : day = daysBeforeYear (yearOfEra day) + 365) : LongYear (yearOfEra day) := by
  obtain ⟨century, hcentury⟩ : ∃ c, c = min (day / 36524) 3 := ⟨_, rfl⟩
  obtain ⟨inCentury, hin⟩ : ∃ r, r = day - century * 36524 := ⟨_, rfl⟩
  obtain ⟨cycle, hcycle⟩ : ∃ q, q = inCentury / 1461 := ⟨_, rfl⟩
  obtain ⟨inCycle, hrest⟩ : ∃ r, r = inCentury - cycle * 1461 := ⟨_, rfl⟩
  obtain ⟨year, hyear⟩ : ∃ y, y = min (inCycle / 365) 3 := ⟨_, rfl⟩
  have hera : yearOfEra day = century * 100 + cycle * 4 + year := by
    simp only [yearOfEra, hyear, hrest, hcycle, hin, hcentury]
  rw [hera, daysBeforeYear_eq century cycle year (by omega) (by omega)] at hlast
  rw [hera, LongYear]
  omega

/-- A day of a year lies in that year of the era. -/
theorem yearOfEra_add {year dayOfYear : Nat} (h : year < 400)
    (hday : dayOfYear ≤ 364 ∨ dayOfYear = 365 ∧ LongYear year) :
    yearOfEra (daysBeforeYear year + dayOfYear) = year := by
  obtain ⟨century, hcentury⟩ : ∃ c, c = year / 100 := ⟨_, rfl⟩
  obtain ⟨cycle, hcycle⟩ : ∃ q, q = year % 100 / 4 := ⟨_, rfl⟩
  obtain ⟨last, hlast⟩ : ∃ y, y = year % 4 := ⟨_, rfl⟩
  obtain rfl : year = century * 100 + cycle * 4 + last := by omega
  rw [daysBeforeYear_eq century cycle last (by omega) (by omega)]
  have hfour : dayOfYear ≤ 364 ∨ dayOfYear = 365 ∧ last = 3 ∧ (cycle < 24 ∨ century = 3) := by
    rw [LongYear] at hday
    omega
  have hbounds : century ≤ 3 ∧ cycle ≤ 24 ∧ last ≤ 3 := by omega
  clear hday hcentury hcycle hlast h
  obtain ⟨inCycle, hcycle⟩ : ∃ r, r = last * 365 + dayOfYear := ⟨_, rfl⟩
  obtain ⟨inCentury, hcentury⟩ : ∃ r, r = cycle * 1461 + inCycle := ⟨_, rfl⟩
  have hday : century * 36524 + cycle * 1461 + last * 365 + dayOfYear =
      century * 36524 + inCentury := by omega
  have h1 : min ((century * 36524 + inCentury) / 36524) 3 = century := by omega
  have h2 : inCentury / 1461 = cycle := by omega
  have h3 : min (inCycle / 365) 3 = last := by omega
  have h4 : inCentury - cycle * 1461 = inCycle := by omega
  simp only [hday, yearOfEra, h1, Nat.add_sub_cancel_left, h2, h4, h3]

/-- The day that an era, a year of it from March, a month from March and the days before in that
month name. -/
def march (era : Int) (year marchMonth before : Nat) : Date where
  year := if marchMonth < 10 then era * 400 + year else era * 400 + year + 1
  month := if marchMonth < 10 then marchMonth + 3 else marchMonth - 9
  day := before + 1

theorem exists_march_iff (era : Int) {year marchMonth : Nat} (before : Nat) (hy : year < 400)
    (hm : marchMonth < 12) :
    (march era year marchMonth before).Exists ↔
      if marchMonth = 11 then before < 28 ∨ before = 28 ∧ LongYear year
      else before < daysBeforeMonth (marchMonth + 1) - daysBeforeMonth marchMonth := by
  by_cases h11 : marchMonth = 11
  · have hleap := isLeapYear_march era hy
    have hdays : daysInMonth (era * 400 + year + 1) 2 = if LongYear year then 29 else 28 := by
      simp only [daysInMonth, hleap]
    subst h11
    simp only [Exists, march, Nat.reduceLT, if_false, if_true, Nat.reduceSub, hdays]
    by_cases hlong : LongYear year
    · rw [if_pos hlong, and_iff_left hlong]
      omega
    · rw [if_neg hlong, or_iff_left fun h => hlong h.2]
      omega
  · rw [if_neg h11]
    interval_cases marchMonth
    all_goals
      simp only [Exists, march, daysInMonth, daysBeforeMonth, Nat.reduceLT, Nat.reduceAdd,
        Nat.reduceSub, if_true, if_false]
      omega

theorem ofEpochDay_eq_march (n : Int) : ∃ era year marchMonth before,
    ofEpochDay n = march era year marchMonth before ∧ year < 400 ∧ marchMonth < 12 ∧
      (march era year marchMonth before).Exists := by
  obtain ⟨day, hday⟩ : ∃ d, d = ((n + 719468) % 146097).toNat := ⟨_, rfl⟩
  have hlt : day < 146097 := by omega
  obtain ⟨hyear, hle, hrest⟩ := yearOfEra_bounds hlt
  have hlong := longYear_of_last hlt
  obtain ⟨dayOfYear, hof⟩ : ∃ d, d = day - daysBeforeYear (yearOfEra day) := ⟨_, rfl⟩
  obtain ⟨marchMonth, hmonth⟩ : ∃ m, m = (5 * dayOfYear + 2) / 153 := ⟨_, rfl⟩
  have hm : marchMonth < 12 := by omega
  refine ⟨(n + 719468) / 146097, yearOfEra day, marchMonth, dayOfYear - daysBeforeMonth marchMonth,
    by subst hmonth hof hday; rfl, hyear, hm, (exists_march_iff _ _ hyear hm).mpr ?_⟩
  simp only [daysBeforeMonth]
  split
  case isTrue h11 =>
    by_cases h365 : dayOfYear = 365
    · exact .inr ⟨by omega, hlong (by omega)⟩
    · exact .inl (by omega)
  case isFalse => omega

/-! ## Names and numbers -/

/-- What a number names exists. -/
theorem exists_ofEpochDay (n : Int) : (ofEpochDay n).Exists := by
  obtain ⟨era, year, marchMonth, before, heq, -, -, hexists⟩ := ofEpochDay_eq_march n
  exact heq ▸ hexists

theorem ofEpochDay_epochDay_march (era : Int) {year marchMonth before : Nat} (hy : year < 400)
    (hm : marchMonth < 12) (h : (march era year marchMonth before).Exists) :
    ofEpochDay (march era year marchMonth before).epochDay = march era year marchMonth before := by
  rw [exists_march_iff era before hy hm] at h
  obtain ⟨dayOfYear, hof⟩ : ∃ d, d = daysBeforeMonth marchMonth + before := ⟨_, rfl⟩
  have hday : dayOfYear ≤ 364 ∨ dayOfYear = 365 ∧ LongYear year := by
    simp only [daysBeforeMonth] at h hof
    split at h
    case isTrue =>
      rcases h with h | ⟨h, hlong⟩
      · exact .inl (by omega)
      · exact .inr ⟨by omega, hlong⟩
    case isFalse => exact .inl (by omega)
  have hmonth : (5 * dayOfYear + 2) / 153 = marchMonth := by
    simp only [daysBeforeMonth] at h hof
    split at h <;> omega
  have hyear := yearOfEra_add hy hday
  have hbefore : daysBeforeYear year + dayOfYear < 146097 := by
    rw [LongYear] at hday
    rw [daysBeforeYear]
    omega
  have hnumber : (march era year marchMonth before).epochDay + 719468 =
      era * 146097 + (daysBeforeYear year + dayOfYear : Nat) := by
    rw [march, epochDay_march era before hy hm]
    omega
  have hdiv : ((march era year marchMonth before).epochDay + 719468) / 146097 = era := by omega
  have hmod : (((march era year marchMonth before).epochDay + 719468) % 146097).toNat =
      daysBeforeYear year + dayOfYear := by omega
  simp only [ofEpochDay, hdiv, hmod, hyear, Nat.add_sub_cancel_left, hmonth]
  rw [hof, Nat.add_sub_cancel_left, march]

theorem Exists.eq_march {d : Date} (h : d.Exists) : ∃ era year marchMonth before,
    d = march era year marchMonth before ∧ year < 400 ∧ marchMonth < 12 := by
  obtain ⟨year, month, day⟩ := d
  obtain ⟨hpos, hle⟩ : 1 ≤ month ∧ month ≤ 12 := h.month_bounds
  have hday : 1 ≤ day := h.1
  by_cases hm : month ≤ 2
  · refine ⟨(year - 1) / 400, ((year - 1) % 400).toNat, month + 9, day - 1, ?_, by omega, by omega⟩
    rw [march, if_neg (by omega), if_neg (by omega), Date.mk.injEq]
    omega
  · refine ⟨year / 400, (year % 400).toNat, month - 3, day - 1, ?_, by omega, by omega⟩
    rw [march, if_pos (by omega), if_pos (by omega), Date.mk.injEq]
    omega

/-- A day that exists is named by its number. -/
theorem ofEpochDay_epochDay {d : Date} (h : d.Exists) : ofEpochDay d.epochDay = d := by
  obtain ⟨era, year, marchMonth, before, rfl, hy, hm⟩ := h.eq_march
  exact ofEpochDay_epochDay_march era hy hm h

/-! ## The ends of the calendar -/

theorem epochDay_first : first.epochDay = -96465292 := by decide

theorem epochDay_last : last.epochDay = 95026236 := by decide

theorem daysBeforeYear_lt {year later : Nat} (h : year < later) :
    daysBeforeYear year + 365 ≤ daysBeforeYear later := by
  have hstep (y : Nat) : daysBeforeYear y + 365 ≤ daysBeforeYear (y + 1) := by
    simp only [daysBeforeYear]
    omega
  induction later, h using Nat.le_induction with
  | base => exact hstep year
  | succ later _ ih => exact (ih.trans (Nat.le_add_right _ 365)).trans (hstep later)

theorem daysBeforeYear_trichotomy (year other : Nat) :
    year < other ∧ daysBeforeYear year + 365 ≤ daysBeforeYear other ∨
      year = other ∧ daysBeforeYear year = daysBeforeYear other ∨
      other < year ∧ daysBeforeYear other + 365 ≤ daysBeforeYear year := by
  rcases Nat.lt_trichotomy year other with h | rfl | h
  · exact .inl ⟨h, daysBeforeYear_lt h⟩
  · exact .inr (.inl ⟨rfl, rfl⟩)
  · exact .inr (.inr ⟨h, daysBeforeYear_lt h⟩)

/-- A day that exists lies in the calendar by its number if it does so by its year. -/
theorem Exists.epochDay_bounds_iff {d : Date} (h : d.Exists) :
    first.epochDay ≤ d.epochDay ∧ d.epochDay ≤ last.epochDay ↔
      first.year ≤ d.year ∧ d.year ≤ last.year := by
  obtain ⟨era, year, marchMonth, before, rfl, hy, hm⟩ := h.eq_march
  rw [exists_march_iff era before hy hm] at h
  obtain ⟨dayOfYear, hof⟩ : ∃ d, d = daysBeforeMonth marchMonth + before := ⟨_, rfl⟩
  have hnumber : (march era year marchMonth before).epochDay =
      era * 146097 + daysBeforeYear year + dayOfYear - 719468 := by
    rw [march, epochDay_march era before hy hm]
    omega
  have hday : dayOfYear ≤ 365 ∧ (dayOfYear < 306 ↔ marchMonth < 10) := by
    simp only [daysBeforeMonth] at h hof
    split at h <;> omega
  rw [hnumber, epochDay_first, epochDay_last, march]
  simp only [first, last]
  -- the calendar starts in the year 256 of the era -656 and ends in the year 142 of the era 655
  have hstart := daysBeforeYear_trichotomy year 256
  have hend := daysBeforeYear_trichotomy year 142
  have hlt := daysBeforeYear_lt hy
  rw [show daysBeforeYear 256 = 93502 from rfl] at hstart
  rw [show daysBeforeYear 142 = 51864 from rfl] at hend
  rw [show daysBeforeYear 400 = 146096 from rfl] at hlt
  have hera : era < -656 ∨ era = -656 ∨ -656 < era ∧ era < 655 ∨ era = 655 ∨ 655 < era := by omega
  split <;> rcases hera with hera | rfl | hera | rfl | hera <;> omega

theorem of?_eq_some_iff {year : Int} {month day : Nat} {d : Date} :
    of? year month day = some d ↔
      d = ⟨year, month, day⟩ ∧ d.Exists ∧ first.epochDay ≤ d.epochDay ∧
        d.epochDay ≤ last.epochDay := by
  rw [of?]
  constructor
  · intro h
    split at h
    case isTrue hin =>
      obtain rfl := Option.some.inj h
      have hexists : Exists ⟨year, month, day⟩ := hin.2.2
      exact ⟨rfl, hexists, hexists.epochDay_bounds_iff.mpr ⟨hin.1, hin.2.1⟩⟩
    case isFalse => exact nomatch h
  · rintro ⟨rfl, hexists, hbounds⟩
    have hyear := hexists.epochDay_bounds_iff.mp hbounds
    exact if_pos ⟨hyear.1, hyear.2, hexists⟩

end Date

end Catalogue
