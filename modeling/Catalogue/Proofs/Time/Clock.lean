import Catalogue.Proofs.Time.Calendar
import Catalogue.Time.Components

/-!
# What a clock shows

On the clock of universal time an instant shows a day, an hour, a minute, a second from 0 to 60 and
nanoseconds (`Instant.Shows`). They are all there is to it: `Instant.Shows.eq` says that two
instants that show the same are the same, and `Instant.exists_shows` that every reading of the clock
is that of an instant, leap seconds at the end of any minute included.

`Components.exists_onClock?` : components with day, hour and minute are read as the instant that
shows them, and what is not known is zero;
`Components.exists_midnight?` : components with a day are read as the start of that day.
-/

namespace Catalogue

namespace Instant

/-! ## Readings of the clock -/

/-- The clock shows this day and time. -/
structure Shows (t : Instant) (date : Date) (hour minute second fraction : Nat) : Prop where
  date : t.date = date
  hour : t.hour = hour
  minute : t.minute = minute
  second : t.second = second
  fraction : t.fraction = fraction

theorem shows_self (t : Instant) : t.Shows t.date t.hour t.minute t.second t.fraction :=
  ⟨rfl, rfl, rfl, rfl, rfl⟩

theorem exists_date (t : Instant) : t.date.Exists :=
  Date.exists_ofEpochDay _

theorem epochDay_date (t : Instant) : t.date.epochDay = t.seconds / 86400 :=
  Date.epochDay_ofEpochDay _

theorem of?_date (t : Instant) : Date.of? t.date.year t.date.month t.date.day = some t.date := by
  obtain ⟨hfirst, hlast, -⟩ := t.valid
  rw [firstSecond] at hfirst
  rw [lastSecond] at hlast
  have hday := t.epochDay_date
  exact Date.of?_eq_some_iff.mpr ⟨rfl, t.exists_date, by omega, by omega⟩

theorem hour_lt (t : Instant) : t.hour < 24 := by
  rw [hour, secondOfDay]
  omega

theorem minute_lt (t : Instant) : t.minute < 60 :=
  Nat.mod_lt _ (by decide)

theorem fraction_lt (t : Instant) : t.fraction < nanosPerSecond :=
  Nat.mod_lt _ (by decide)

theorem second_le (t : Instant) : t.second ≤ 60 := by
  obtain ⟨-, -, hnanos, hleap⟩ := t.valid
  simp only [second, secondOfDay, nanosPerSecond] at *
  omega

theorem eq_of_seconds_nanos {t u : Instant} (hseconds : t.seconds = u.seconds)
    (hnanos : t.nanos = u.nanos) : t = u := by
  cases t
  cases u
  cases hseconds
  cases hnanos
  rfl

theorem of?_eq_some_iff {seconds : Int} {nanos : Nat} {t : Instant} :
    of? seconds nanos = some t ↔ t.seconds = seconds ∧ t.nanos = nanos := by
  rw [of?]
  constructor
  · intro h
    split at h
    · obtain rfl := Option.some.inj h
      exact ⟨rfl, rfl⟩
    · exact nomatch h
  · rintro ⟨rfl, rfl⟩
    exact dif_pos t.valid

/-- The instant is the only one that shows what it shows. -/
theorem Shows.eq {t u : Instant} {date : Date} {hour minute second fraction : Nat}
    (ht : t.Shows date hour minute second fraction)
    (hu : u.Shows date hour minute second fraction) : t = u := by
  have hday : t.seconds / 86400 = u.seconds / 86400 := by
    rw [← epochDay_date, ← epochDay_date, ht.date, hu.date]
  have hhour := ht.hour.trans hu.hour.symm
  have hminute := ht.minute.trans hu.minute.symm
  have hsecond := ht.second.trans hu.second.symm
  have hfraction := ht.fraction.trans hu.fraction.symm
  obtain ⟨-, -, htnanos, htleap⟩ := t.valid
  obtain ⟨-, -, hunanos, huleap⟩ := u.valid
  simp only [Instant.hour, Instant.minute, Instant.second, Instant.fraction, secondOfDay,
    nanosPerSecond] at *
  have htoday : ((t.seconds % 86400).toNat : Int) = t.seconds % 86400 := by omega
  have hutoday : ((u.seconds % 86400).toNat : Int) = u.seconds % 86400 := by omega
  have hnanos : t.nanos / 1000000000 = u.nanos / 1000000000 := by omega
  exact eq_of_seconds_nanos (by omega) (by omega)

/-- What a clock can show is what it shows of some instant; second 60 is a longer second 59. -/
theorem exists_shows {date : Date} (hexists : date.Exists)
    (hfirst : Date.first.epochDay ≤ date.epochDay) (hlast : date.epochDay ≤ Date.last.epochDay)
    {hour minute second fraction : Nat} (hhour : hour < 24) (hminute : minute < 60)
    (hsecond : second ≤ 60) (hfraction : fraction < nanosPerSecond) :
    ∃ t : Instant,
      of? (date.epochDay * 86400 + (hour * 3600 + minute * 60 + min second 59 : Nat))
        (second / 60 * nanosPerSecond + fraction) = some t ∧
      t.Shows date hour minute second fraction := by
  obtain ⟨day, hday⟩ : ∃ d, d = date.epochDay := ⟨_, rfl⟩
  obtain ⟨ofDay, hof⟩ : ∃ n, n = hour * 3600 + minute * 60 + min second 59 := ⟨_, rfl⟩
  have hlt : ofDay < 86400 := by omega
  have hvalid : Valid (day * 86400 + ofDay) (second / 60 * nanosPerSecond + fraction) := by
    simp only [Valid, firstSecond, lastSecond, nanosPerSecond] at *
    omega
  rw [← hof, ← hday, of?, dif_pos hvalid]
  refine ⟨_, rfl, ?_⟩
  have hdiv : (day * 86400 + ofDay) / 86400 = day := by omega
  have hmod : ((day * 86400 + ofDay) % 86400).toNat = ofDay := by omega
  constructor
  case date => rw [Instant.date, hdiv, hday, Date.ofEpochDay_epochDay hexists]
  all_goals
    simp only [Instant.hour, Instant.minute, Instant.second, Instant.fraction, secondOfDay, hmod,
      nanosPerSecond] at *
    omega

/-- The start of the day. -/
def midnight (t : Instant) : Instant where
  seconds := t.seconds / 86400 * 86400
  nanos := 0
  valid := by
    obtain ⟨hfirst, hlast, -⟩ := t.valid
    simp only [Valid, firstSecond, lastSecond, nanosPerSecond] at *
    omega

theorem shows_midnight (t : Instant) : t.midnight.Shows t.date 0 0 0 0 := by
  have hday : t.seconds / 86400 * 86400 / 86400 = t.seconds / 86400 := by omega
  have hstart : t.seconds / 86400 * 86400 % 86400 = 0 := by omega
  constructor
  case date => rw [Instant.date, midnight, hday, Instant.date]
  all_goals simp [Instant.hour, Instant.minute, Instant.second, Instant.fraction, secondOfDay,
    midnight, hstart]

end Instant

namespace Components

variable {c : Components}

/-! ## Adding components

A component that is new, or the same again, is added if it is in its range. -/

theorem agree_eq {α : Type} [DecidableEq α] {known : Option α} {found : α}
    (h : ∀ value ∈ known, value = found) : agree known found = some (some found) := by
  cases known with
  | none => rfl
  | some value => simp [agree, h value rfl]

theorem agreeWithin_eq {low high found : Nat} {known : Option Nat} (hlow : low ≤ found)
    (hhigh : found ≤ high) (h : ∀ value ∈ known, value = found) :
    agreeWithin low high known found = some (some found) := by
  rw [agreeWithin, if_pos ⟨hlow, hhigh⟩, agree_eq h]

theorem setYear_eq {n : Int} (h : ∀ value ∈ c.year, value = n) :
    c.setYear n = some { c with year := some n } := by
  rw [setYear, agree_eq h, Option.map_some]

theorem setYearOfCentury_eq {n : Nat} (hn : n ≤ 99) (h : ∀ value ∈ c.yearOfCentury, value = n) :
    c.setYearOfCentury n = some { c with yearOfCentury := some n } := by
  rw [setYearOfCentury, agreeWithin_eq n.zero_le hn h, Option.map_some]

theorem setMonth_eq {n : Nat} (hlow : 1 ≤ n) (hhigh : n ≤ 12) (h : ∀ value ∈ c.month, value = n) :
    c.setMonth n = some { c with month := some n } := by
  rw [setMonth, agreeWithin_eq hlow hhigh h, Option.map_some]

theorem setDay_eq {n : Nat} (hlow : 1 ≤ n) (hhigh : n ≤ 31) (h : ∀ value ∈ c.day, value = n) :
    c.setDay n = some { c with day := some n } := by
  rw [setDay, agreeWithin_eq hlow hhigh h, Option.map_some]

theorem setWeekday_eq {n : Nat} (hn : n ≤ 6) (h : ∀ value ∈ c.weekday, value = n) :
    c.setWeekday n = some { c with weekday := some n } := by
  rw [setWeekday, agreeWithin_eq n.zero_le hn h, Option.map_some]

theorem setHalfOfDay_eq {n : Nat} (hn : n ≤ 1) (h : ∀ value ∈ c.halfOfDay, value = n) :
    c.setHalfOfDay n = some { c with halfOfDay := some n } := by
  rw [setHalfOfDay, agreeWithin_eq n.zero_le hn h, Option.map_some]

theorem setHour12_eq {n : Nat} (hlow : 1 ≤ n) (hhigh : n ≤ 12)
    (h : ∀ value ∈ c.hourOfHalf, value = n % 12) :
    c.setHour12 n = some { c with hourOfHalf := some (n % 12) } := by
  rw [setHour12, if_pos ⟨hlow, hhigh⟩, agree_eq h, Option.map_some]

theorem setHour24_eq {n : Nat} (hn : n < 24) (hhour : ∀ value ∈ c.hourOfHalf, value = n % 12)
    (hhalf : ∀ value ∈ c.halfOfDay, value = n / 12) :
    c.setHour24 n = some { c with hourOfHalf := some (n % 12), halfOfDay := some (n / 12) } := by
  rw [setHour24, if_pos (by omega), agree_eq hhour, Option.bind_some]
  exact setHalfOfDay_eq (by omega) hhalf

theorem setMinute_eq {n : Nat} (hn : n < 60) (h : ∀ value ∈ c.minute, value = n) :
    c.setMinute n = some { c with minute := some n } := by
  rw [setMinute, agreeWithin_eq n.zero_le (by omega) h, Option.map_some]

theorem setSecond_eq {n : Nat} (hn : n ≤ 60) (h : ∀ value ∈ c.second, value = n) :
    c.setSecond n = some { c with second := some n } := by
  rw [setSecond, agreeWithin_eq n.zero_le hn h, Option.map_some]

theorem setFraction_eq {n : Nat} (hn : n < Instant.nanosPerSecond)
    (h : ∀ value ∈ c.fraction, value = n) :
    c.setFraction n = some { c with fraction := some n } := by
  rw [setFraction, agreeWithin_eq n.zero_le (by simp only [Instant.nanosPerSecond] at hn; omega) h,
    Option.map_some]

theorem setOffset_eq {n : Int} (h : ∀ value ∈ c.offset, value = n) :
    c.setOffset n = some { c with offset := some n } := by
  rw [setOffset, agree_eq h, Option.map_some]

/-! ## Instants from components -/

theorem exists_of_date? {date : Date} (h : c.date? = some date) :
    date.Exists ∧ Date.first.epochDay ≤ date.epochDay ∧ date.epochDay ≤ Date.last.epochDay := by
  simp only [date?, Option.bind_eq_bind, Option.bind_eq_some_iff] at h
  obtain ⟨year, -, month, -, day, -, date', hof, h⟩ := h
  split at h
  case isTrue =>
    obtain rfl := Option.some.inj h
    exact (Date.of?_eq_some_iff.mp hof).2
  case isFalse => exact nomatch h

/-- The components have the hour and the minute, and they have the second if they have a
fraction. -/
structure HasTime (c : Components) (hour minute : Nat) : Prop where
  halfOfDay : c.halfOfDay = some (hour / 12)
  hourOfHalf : c.hourOfHalf = some (hour % 12)
  minute : c.minute = some minute
  second : c.fraction.isSome → c.second.isSome

theorem time?_of_hasTime {hour minute : Nat} (h : c.HasTime hour minute)
    (hsecond : c.second.getD 0 ≤ 60) :
    c.time? = some (hour * 3600 + minute * 60 + min (c.second.getD 0) 59,
      c.second.getD 0 / 60 * Instant.nanosPerSecond + c.fraction.getD 0) := by
  have hknown : ¬ (c.fraction.isSome ∧ c.second.isNone) := fun hc => by
    have := h.second hc.1
    simp_all
  have hhour : hour / 12 * 12 + hour % 12 = hour := by omega
  simp only [time?, h.halfOfDay, h.hourOfHalf, h.minute, Option.bind_eq_bind, Option.bind_some,
    if_neg hknown, hhour]
  split <;> simp only [Option.some.injEq, Prod.mk.injEq, Instant.nanosPerSecond] <;> omega

/-- Components with day, hour and minute are those of an instant, and zero is what is not known. -/
theorem exists_onClock? {date : Date} {hour minute : Nat} (hdate : c.date? = some date)
    (htime : c.HasTime hour minute) (hhour : hour < 24) (hminute : minute < 60)
    (hsecond : c.second.getD 0 ≤ 60) (hfraction : c.fraction.getD 0 < Instant.nanosPerSecond) :
    ∃ t : Instant, c.onClock? 0 = some t ∧
      t.Shows date hour minute (c.second.getD 0) (c.fraction.getD 0) := by
  obtain ⟨hexists, hfirst, hlast⟩ := exists_of_date? hdate
  obtain ⟨t, hof, hshows⟩ :=
    Instant.exists_shows hexists hfirst hlast hhour hminute hsecond hfraction
  refine ⟨t, ?_, hshows⟩
  rw [onClock?, hdate, time?_of_hasTime htime hsecond, ← hof]
  simp only [Option.bind_eq_bind, Option.bind_some, Int.sub_zero]

/-- Components that are what the clock shows of an instant are read as that instant. -/
theorem onClock?_eq_self {t : Instant} (hdate : c.date? = some t.date)
    (htime : c.HasTime t.hour t.minute) (hsecond : c.second.getD 0 = t.second)
    (hfraction : c.fraction.getD 0 = t.fraction) : c.onClock? 0 = some t := by
  obtain ⟨u, hu, hshows⟩ := exists_onClock? hdate htime t.hour_lt t.minute_lt
    (hsecond ▸ t.second_le) (hfraction ▸ t.fraction_lt)
  rw [hsecond, hfraction] at hshows
  rw [hu, hshows.eq t.shows_self]

theorem exists_midnight? {date : Date} (hdate : c.date? = some date) :
    ∃ t : Instant, c.midnight? = some t ∧ t.Shows date 0 0 0 0 := by
  obtain ⟨hexists, hfirst, hlast⟩ := exists_of_date? hdate
  obtain ⟨t, hof, hshows⟩ := Instant.exists_shows hexists hfirst hlast (show 0 < 24 by decide)
    (show 0 < 60 by decide) (show 0 ≤ 60 by decide) (show 0 < Instant.nanosPerSecond by decide)
  refine ⟨t, ?_, hshows⟩
  rw [midnight?, hdate, ← hof]
  simp

end Components

end Catalogue
