import Catalogue.Time.Instant

/-!
# Components of a date and time

What a reader has found of a date and time so far. A component that is found twice must agree with
itself, and each has its range. `Components.moment?`, `Components.wallClock?` and
`Components.midnight?` put an instant together from components, asking for less each time.
-/

namespace Catalogue

/-- The components of a date and time that are known. -/
structure Components where
  /-- The year. -/
  year : Option Int := none
  /-- The last two digits of the year. -/
  yearOfCentury : Option Nat := none
  /-- The month, from 1 to 12. -/
  month : Option Nat := none
  /-- The day of the month, from 1 to 31. -/
  day : Option Nat := none
  /-- The day of the week, where 0 is Sunday. -/
  weekday : Option Nat := none
  /-- The half of the day: 0 before noon, 1 from noon on. -/
  halfOfDay : Option Nat := none
  /-- The hour in the half of the day, from 0 to 11. -/
  hourOfHalf : Option Nat := none
  /-- The minute, from 0 to 59. -/
  minute : Option Nat := none
  /-- The second, from 0 to 60. -/
  second : Option Nat := none
  /-- The nanoseconds. -/
  fraction : Option Nat := none
  /-- The seconds by which the clock is ahead of universal time. -/
  offset : Option Int := none

namespace Components

/-- A component found again must be what it was. -/
def agree {α : Type} [DecidableEq α] (known : Option α) (found : α) : Option (Option α) :=
  match known with
  | none => some (some found)
  | some value => if value = found then some (some value) else none

/-- A component found again, within its range. -/
def agreeWithin (low high : Nat) (known : Option Nat) (found : Nat) : Option (Option Nat) :=
  if low ≤ found ∧ found ≤ high then agree known found else none

/-- Adds the year. -/
def setYear (c : Components) (n : Int) : Option Components :=
  (agree c.year n).map fun year => { c with year }

/-- Adds the last two digits of the year. -/
def setYearOfCentury (c : Components) (n : Nat) : Option Components :=
  (agreeWithin 0 99 c.yearOfCentury n).map fun yearOfCentury => { c with yearOfCentury }

/-- Adds the month. -/
def setMonth (c : Components) (n : Nat) : Option Components :=
  (agreeWithin 1 12 c.month n).map fun month => { c with month }

/-- Adds the day of the month. -/
def setDay (c : Components) (n : Nat) : Option Components :=
  (agreeWithin 1 31 c.day n).map fun day => { c with day }

/-- Adds the day of the week. -/
def setWeekday (c : Components) (n : Nat) : Option Components :=
  (agreeWithin 0 6 c.weekday n).map fun weekday => { c with weekday }

/-- Adds the half of the day. -/
def setHalfOfDay (c : Components) (n : Nat) : Option Components :=
  (agreeWithin 0 1 c.halfOfDay n).map fun halfOfDay => { c with halfOfDay }

/-- Adds the hour on a clock of twelve hours, where noon and midnight are 12. -/
def setHour12 (c : Components) (n : Nat) : Option Components :=
  if 1 ≤ n ∧ n ≤ 12 then
    (agree c.hourOfHalf (n % 12)).map fun hourOfHalf => { c with hourOfHalf }
  else none

/-- Adds the hour on a clock of twenty-four hours. -/
def setHour24 (c : Components) (n : Nat) : Option Components :=
  if n ≤ 23 then
    (agree c.hourOfHalf (n % 12)).bind fun hourOfHalf =>
      { c with hourOfHalf }.setHalfOfDay (n / 12)
  else none

/-- Adds the minute. -/
def setMinute (c : Components) (n : Nat) : Option Components :=
  (agreeWithin 0 59 c.minute n).map fun minute => { c with minute }

/-- Adds the second. -/
def setSecond (c : Components) (n : Nat) : Option Components :=
  (agreeWithin 0 60 c.second n).map fun second => { c with second }

/-- Adds the nanoseconds. -/
def setFraction (c : Components) (n : Nat) : Option Components :=
  (agreeWithin 0 999999999 c.fraction n).map fun fraction => { c with fraction }

/-- Adds the offset from universal time. -/
def setOffset (c : Components) (n : Int) : Option Components :=
  (agree c.offset n).map fun offset => { c with offset }

/-- The year, from its digits or from the last two of them: those below 70 are of this century.
If both are known they must agree, and then the year is not negative. -/
def fullYear? (c : Components) : Option Int :=
  match c.year, c.yearOfCentury with
  | some year, none => some year
  | some year, some short => if 0 ≤ year ∧ year % 100 = short then some year else none
  | none, some short => some (if short < 70 then 2000 + short else 1900 + short)
  | none, none => none

/-- The day: year, month and day of the month must be known, and a known day of the week must
fit. -/
def date? (c : Components) : Option Date := do
  let date ← Date.of? (← c.fullYear?) (← c.month) (← c.day)
  if c.weekday.all (· == date.weekday) then some date else none

/-- The seconds since midnight and the nanoseconds: hour and minute must be known, and with a
fraction the second. Second 60 is second 59 with `10 ^ 9` more nanoseconds. -/
def time? (c : Components) : Option (Nat × Nat) := do
  let hour := (← c.halfOfDay) * 12 + (← c.hourOfHalf)
  let minute ← c.minute
  if c.fraction.isSome ∧ c.second.isNone then none
  else
    let second := c.second.getD 0
    let fraction := c.fraction.getD 0
    if second = 60 then some (hour * 3600 + minute * 60 + 59, Instant.nanosPerSecond + fraction)
    else some (hour * 3600 + minute * 60 + second, fraction)

/-- The instant at which a clock ahead by `offset` seconds shows the components. -/
def onClock? (c : Components) (offset : Int) : Option Instant := do
  let date ← c.date?
  let (seconds, nanos) ← c.time?
  Instant.of? (date.epochDay * 86400 + seconds - offset) nanos

/-- The instant of date, time and an offset of less than a day. -/
def moment? (c : Components) : Option Instant := do
  let offset ← c.offset
  if offset.natAbs < 86400 then c.onClock? offset else none

/-- The instant of date and time on the clock of universal time. -/
def wallClock? (c : Components) : Option Instant :=
  c.onClock? 0

/-- The start of the day, whatever is known of the time. -/
def midnight? (c : Components) : Option Instant := do
  let date ← c.date?
  Instant.of? (date.epochDay * 86400) 0

end Components

end Catalogue
