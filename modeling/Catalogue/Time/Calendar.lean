/-!
# The civil calendar

Days are numbered from 1970-01-01, which is day 0, and named by the proleptic Gregorian calendar.
The computation counts years from March, so that the leap day is the last of its year, in eras of
400 years or 146097 days. `epochDay_ofEpochDay` says that naming a day loses nothing.
-/

namespace Catalogue

/-- A day named by year, month and day of the month. -/
structure Date where
  /-- The year, where year 0 comes before year 1. -/
  year : Int
  /-- The month, from 1 to 12. -/
  month : Nat
  /-- The day of the month, from 1. -/
  day : Nat
deriving DecidableEq, Repr

namespace Date

/-- The days of an era before a year of it. -/
def daysBeforeYear (yearOfEra : Nat) : Nat :=
  yearOfEra * 365 + yearOfEra / 4 - yearOfEra / 100

/-- The days of a year before a month, both from March. -/
def daysBeforeMonth (marchMonth : Nat) : Nat :=
  (153 * marchMonth + 2) / 5

/-- The year of the era that a day of the era lies in: centuries have 36524 days and four years
1461, and the last of four takes what is left. -/
def yearOfEra (day : Nat) : Nat :=
  let century := min (day / 36524) 3
  let inCentury := day - century * 36524
  let cycle := inCentury / 1461
  let inCycle := inCentury - cycle * 1461
  century * 100 + cycle * 4 + min (inCycle / 365) 3

/-- The number of a day, counted from 1970-01-01. -/
def epochDay (d : Date) : Int :=
  let year := if d.month ≤ 2 then d.year - 1 else d.year
  let marchMonth := if d.month ≤ 2 then d.month + 9 else d.month - 3
  let dayOfEra := daysBeforeYear (year % 400).toNat + daysBeforeMonth marchMonth + (d.day - 1)
  year / 400 * 146097 + dayOfEra - 719468

/-- The day with a given number. -/
def ofEpochDay (n : Int) : Date :=
  let shifted := n + 719468
  let day := (shifted % 146097).toNat
  let year := yearOfEra day
  let dayOfYear := day - daysBeforeYear year
  let marchMonth := (5 * dayOfYear + 2) / 153
  let civilYear := shifted / 146097 * 400 + year
  { year := if marchMonth < 10 then civilYear else civilYear + 1
    month := if marchMonth < 10 then marchMonth + 3 else marchMonth - 9
    day := dayOfYear - daysBeforeMonth marchMonth + 1 }

/-- Whether a year has a leap day. -/
def isLeapYear (year : Int) : Bool :=
  year % 4 == 0 && (year % 100 != 0 || year % 400 == 0)

/-- The number of days of a month, or 0 for a number that is no month. -/
def daysInMonth (year : Int) (month : Nat) : Nat :=
  match month with
  | 1 | 3 | 5 | 7 | 8 | 10 | 12 => 31
  | 4 | 6 | 9 | 11 => 30
  | 2 => if isLeapYear year then 29 else 28
  | _ => 0

/-- The first day that can be named. -/
def first : Date := ⟨-262143, 1, 1⟩

/-- The last day that can be named. -/
def last : Date := ⟨262142, 12, 31⟩

/-- The day with this name, if there is one from `Date.first` to `Date.last`. -/
def of? (year : Int) (month day : Nat) : Option Date :=
  if first.year ≤ year ∧ year ≤ last.year ∧ 1 ≤ day ∧ day ≤ daysInMonth year month then
    some ⟨year, month, day⟩
  else none

/-- The day of the week, where 0 is Sunday. -/
def weekday (d : Date) : Nat :=
  ((d.epochDay + 4) % 7).toNat

/-! ### Naming a day loses nothing -/

theorem daysBeforeYear_eq (century cycle year : Nat) (hc : cycle ≤ 24) (hy : year ≤ 3) :
    daysBeforeYear (century * 100 + cycle * 4 + year) =
      century * 36524 + cycle * 1461 + year * 365 := by
  have h4 : (century * 100 + cycle * 4 + year) / 4 = century * 25 + cycle := by omega
  have h100 : (century * 100 + cycle * 4 + year) / 100 = century := by omega
  simp only [daysBeforeYear, h4, h100]
  omega

/-- The year of a day of an era starts at most 365 days before it. -/
theorem yearOfEra_bounds {day : Nat} (h : day < 146097) :
    yearOfEra day < 400 ∧ daysBeforeYear (yearOfEra day) ≤ day ∧
      day ≤ daysBeforeYear (yearOfEra day) + 365 := by
  obtain ⟨century, hcentury⟩ : ∃ c, c = min (day / 36524) 3 := ⟨_, rfl⟩
  obtain ⟨inCentury, hin⟩ : ∃ r, r = day - century * 36524 := ⟨_, rfl⟩
  obtain ⟨cycle, hcycle⟩ : ∃ q, q = inCentury / 1461 := ⟨_, rfl⟩
  obtain ⟨inCycle, hrest⟩ : ∃ r, r = inCentury - cycle * 1461 := ⟨_, rfl⟩
  obtain ⟨year, hyear⟩ : ∃ y, y = min (inCycle / 365) 3 := ⟨_, rfl⟩
  have hera : yearOfEra day = century * 100 + cycle * 4 + year := by
    simp only [yearOfEra, hyear, hrest, hcycle, hin, hcentury]
  have hc : cycle ≤ 24 := by omega
  rw [hera, daysBeforeYear_eq century cycle year hc (by omega)]
  omega

/-- The number of a day that is named by era, year of the era and month from March. -/
theorem epochDay_march (era : Int) {year marchMonth : Nat} (day : Nat) (hy : year < 400)
    (hm : marchMonth < 12) :
    epochDay { year := if marchMonth < 10 then era * 400 + year else era * 400 + year + 1
               month := if marchMonth < 10 then marchMonth + 3 else marchMonth - 9
               day := day + 1 } =
      era * 146097 + daysBeforeYear year + daysBeforeMonth marchMonth + day - 719468 := by
  have hmod : ((era * 400 + year) % 400).toNat = year := by omega
  have hdiv : (era * 400 + year) / 400 = era := by omega
  by_cases h : marchMonth < 10
  · have h2 : ¬ marchMonth + 3 ≤ 2 := by omega
    simp only [epochDay, h, h2, if_true, if_false, hmod, hdiv, Nat.add_sub_cancel]
    omega
  · have h2 : marchMonth - 9 ≤ 2 := by omega
    have h3 : marchMonth - 9 + 9 = marchMonth := by omega
    simp only [epochDay, h, h2, h3, if_true, if_false, hmod, hdiv, Int.add_sub_cancel,
      Nat.add_sub_cancel]
    omega

/-- The number of the day that a number names is that number. -/
theorem epochDay_ofEpochDay (n : Int) : (ofEpochDay n).epochDay = n := by
  have hday : ((n + 719468) % 146097).toNat < 146097 := by omega
  obtain ⟨hlt, hle, hrest⟩ := yearOfEra_bounds hday
  have hmonth :
      (5 * (((n + 719468) % 146097).toNat -
        daysBeforeYear (yearOfEra ((n + 719468) % 146097).toNat)) + 2) / 153 < 12 := by omega
  rw [ofEpochDay, epochDay_march _ _ hlt hmonth]
  generalize daysBeforeYear (yearOfEra ((n + 719468) % 146097).toNat) = before at *
  simp only [daysBeforeMonth]
  omega

end Date

end Catalogue
