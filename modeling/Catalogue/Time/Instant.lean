import Catalogue.Time.Calendar

/-!
# Instants

A point of universal time: seconds since the start of 1970 and nanoseconds. A leap second is
written as more than `10 ^ 9` nanoseconds in the last second of a minute, so the clock shows second
60 there.
-/

namespace Catalogue

namespace Instant

/-- The nanoseconds of a second. -/
abbrev nanosPerSecond : Nat := 1000000000

/-- The nanoseconds of a millisecond. -/
abbrev nanosPerMilli : Nat := 1000000

/-- The nanoseconds of a microsecond. -/
abbrev nanosPerMicro : Nat := 1000

/-- The first second of the calendar. -/
def firstSecond : Int := Date.first.epochDay * 86400

/-- The last second of the calendar. -/
def lastSecond : Int := Date.last.epochDay * 86400 + 86399

/-- What seconds and nanoseconds of an instant satisfy: they lie in the calendar, and only the last
second of a minute is longer than a second. -/
def Valid (seconds : Int) (nanos : Nat) : Prop :=
  firstSecond ≤ seconds ∧ seconds ≤ lastSecond ∧ nanos < 2 * nanosPerSecond ∧
    (nanosPerSecond ≤ nanos → seconds % 60 = 59)

instance (seconds : Int) (nanos : Nat) : Decidable (Valid seconds nanos) :=
  inferInstanceAs (Decidable (_ ∧ _ ∧ _ ∧ _))

end Instant

/-- A point of universal time. -/
structure Instant where
  /-- The seconds since the start of 1970, rounded down. -/
  seconds : Int
  /-- The nanoseconds in that second. -/
  nanos : Nat
  /-- The instant lies in the calendar. -/
  valid : Instant.Valid seconds nanos
deriving DecidableEq

namespace Instant

/-- The instant with these seconds and nanoseconds, if there is one. -/
def of? (seconds : Int) (nanos : Nat) : Option Instant :=
  if h : Valid seconds nanos then some ⟨seconds, nanos, h⟩ else none

/-- The start of 1970. -/
def epoch : Instant := ⟨0, 0, by decide⟩

instance : Inhabited Instant := ⟨epoch⟩

/-- The day. -/
def date (t : Instant) : Date :=
  Date.ofEpochDay (t.seconds / 86400)

/-- The seconds since midnight. -/
def secondOfDay (t : Instant) : Nat :=
  (t.seconds % 86400).toNat

/-- The hour, from 0 to 23. -/
def hour (t : Instant) : Nat :=
  t.secondOfDay / 3600

/-- The minute, from 0 to 59. -/
def minute (t : Instant) : Nat :=
  t.secondOfDay / 60 % 60

/-- The second that the clock shows, from 0 to 60. -/
def second (t : Instant) : Nat :=
  t.secondOfDay % 60 + t.nanos / nanosPerSecond

/-- The nanoseconds in the second that the clock shows. -/
def fraction (t : Instant) : Nat :=
  t.nanos % nanosPerSecond

/-- The milliseconds since the start of 1970; in a leap second they run into the next minute. -/
def epochMillis (t : Instant) : Int :=
  t.seconds * 1000 + t.nanos / nanosPerMilli

/-- The instant that many milliseconds after the start of 1970. -/
def ofEpochMillis? (n : Int) : Option Instant :=
  of? (n / 1000) ((n % 1000).toNat * nanosPerMilli)

/-- The instant that many seconds after the start of 1970. -/
def ofEpochSeconds? (n : Int) : Option Instant :=
  of? n 0

end Instant

end Catalogue
