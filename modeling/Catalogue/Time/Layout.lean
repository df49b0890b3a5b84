import Catalogue.Time.Rfc3339

/-!
# Layouts of dates

A layout is a list of directives and literal characters, written in percent notation: `%Y-%m-%d`.
`Layout.ofPercent?` reads the notation, `Layout.render` writes an instant by a layout and
`Layout.read?` reads the components of a date and time back.
-/

namespace Catalogue

/-- A part of a date that a layout names. -/
inductive Directive where
  /-- The year, at least four digits. -/
  | year
  /-- The last two digits of the year. -/
  | yearOfCentury
  /-- The month in two digits. -/
  | month
  /-- The first three letters of the month. -/
  | monthShort
  /-- The name of the month. -/
  | monthName
  /-- The day of the month in two digits. -/
  | day
  /-- The hour from 00 to 23. -/
  | hour24
  /-- The hour from 01 to 12. -/
  | hour12
  /-- The minute in two digits. -/
  | minute
  /-- The second in two digits. -/
  | second
  /-- The first `3 * groups` digits of the fraction of the second. -/
  | fraction (groups : Nat)
  /-- AM before noon and PM from noon on. -/
  | halfOfDay
  /-- The first three letters of the day of the week. -/
  | weekdayShort
  /-- The name of the day of the week. -/
  | weekdayName
  /-- The offset from universal time, without a colon. -/
  | offset
  /-- The offset from universal time, with a colon. -/
  | offsetColon
deriving DecidableEq, Repr

/-- An item of a layout. -/
inductive LayoutItem where
  /-- A part of the date. -/
  | directive (d : Directive)
  /-- A character that stands for itself. -/
  | literal (c : Char)
deriving DecidableEq, Repr

/-- A way to write dates. -/
abbrev Layout := List LayoutItem

namespace Layout

/-! ## Percent notation -/

/-- The directive after a percent sign and the rest of the text. -/
def directive? : List Char → Option (Directive × List Char)
  | 'Y' :: s => some (.year, s)
  | 'y' :: s => some (.yearOfCentury, s)
  | 'm' :: s => some (.month, s)
  | 'b' :: s => some (.monthShort, s)
  | 'B' :: s => some (.monthName, s)
  | 'd' :: s => some (.day, s)
  | 'H' :: s => some (.hour24, s)
  | 'I' :: s => some (.hour12, s)
  | 'M' :: s => some (.minute, s)
  | 'S' :: s => some (.second, s)
  | '3' :: 'f' :: s => some (.fraction 1, s)
  | '6' :: 'f' :: s => some (.fraction 2, s)
  | '9' :: 'f' :: s => some (.fraction 3, s)
  | 'p' :: s => some (.halfOfDay, s)
  | 'a' :: s => some (.weekdayShort, s)
  | 'A' :: s => some (.weekdayName, s)
  | 'z' :: s => some (.offset, s)
  | ':' :: 'z' :: s => some (.offsetColon, s)
  | _ => none

theorem length_lt_of_directive? {s rest : List Char} {d : Directive}
    (h : directive? s = some (d, rest)) : rest.length < s.length := by
  unfold directive? at h
  split at h <;> simp only [Option.some.injEq, Prod.mk.injEq, reduceCtorEq] at h
  all_goals
    obtain ⟨-, rfl⟩ := h
    simp only [List.length_cons]
    omega

/-- Reads percent notation: two percent signs are one, one before anything else starts a directive,
and a percent sign before no directive is refused. -/
def ofPercent? : List Char → Option Layout
  | [] => some []
  | '%' :: '%' :: s => (ofPercent? s).map (.literal '%' :: ·)
  | '%' :: s =>
    match h : directive? s with
    | some (d, rest) =>
      have : rest.length < s.length := length_lt_of_directive? h
      (ofPercent? rest).map (.directive d :: ·)
    | none => none
  | c :: s => (ofPercent? s).map (.literal c :: ·)
termination_by s => s.length

/-! ## Names -/

/-- The names of the months. -/
def monthNames : List String :=
  ["January", "February", "March", "April", "May", "June", "July", "August", "September",
   "October", "November", "December"]

/-- The names of the days of the week, from Sunday. -/
def weekdayNames : List String :=
  ["Sunday", "Monday", "Tuesday", "Wednesday", "Thursday", "Friday", "Saturday"]

/-- The name at position `n`. -/
def nameAt (names : List String) (n : Nat) : List Char :=
  (names[n]?.getD "").toList

/-- What follows `name` at the start of a text, whatever the case of ASCII letters. -/
def dropName? : List Char → List Char → Option (List Char)
  | [], s => some s
  | _ :: _, [] => none
  | c :: name, d :: s => if c.toLower = d.toLower then dropName? name s else none

/-- The position of the name whose first three letters the text starts with, and the rest of the
text. -/
def shortName? (names : List String) (s : List Char) : Option (Nat × List Char) :=
  (List.range names.length).findSome? fun n =>
    (dropName? ((nameAt names n).take 3) s).map fun rest => (n, rest)

/-- The position of the name that the text starts with, in full or by its first three letters, and
the rest of the text. -/
def fullName? (names : List String) (s : List Char) : Option (Nat × List Char) :=
  (shortName? names s).map fun found =>
    (found.1, (dropName? ((nameAt names found.1).drop 3) found.2).getD found.2)

/-! ## Writing -/

/-- A part of an instant as text. -/
def renderDirective (t : Instant) : Directive → List Char
  | .year => Date.yearText t.date.year
  | .yearOfCentury => Text.padded 2 (t.date.year % 100).toNat
  | .month => Text.padded 2 t.date.month
  | .monthShort => (nameAt monthNames (t.date.month - 1)).take 3
  | .monthName => nameAt monthNames (t.date.month - 1)
  | .day => Text.padded 2 t.date.day
  | .hour24 => Text.padded 2 t.hour
  | .hour12 => Text.padded 2 (if t.hour % 12 = 0 then 12 else t.hour % 12)
  | .minute => Text.padded 2 t.minute
  | .second => Text.padded 2 t.second
  | .fraction groups => (Text.padded 9 t.fraction).take (3 * groups)
  | .halfOfDay => if t.hour < 12 then ['A', 'M'] else ['P', 'M']
  | .weekdayShort => (nameAt weekdayNames t.date.weekday).take 3
  | .weekdayName => nameAt weekdayNames t.date.weekday
  | .offset => ['+', '0', '0', '0', '0']
  | .offsetColon => ['+', '0', '0', ':', '0', '0']

/-- An instant as text. -/
def render (layout : Layout) (t : Instant) : List Char :=
  layout.flatMap fun
    | .directive d => renderDirective t d
    | .literal c => [c]

/-! ## Reading -/

/-- A number of at most two digits after any white space. -/
def twoDigits? (s : List Char) : Option (Nat × List Char) :=
  Scan.number? 1 2 (Text.dropBlanks s)

/-- A year after any white space: at most four digits, or a sign and any number of digits. -/
def year? (s : List Char) : Option (Int × List Char) :=
  match Text.dropBlanks s with
  | '-' :: s => (Scan.number? 1 s.length s).map fun found => (-(found.1 : Int), found.2)
  | '+' :: s => (Scan.number? 1 s.length s).map fun found => (found.1, found.2)
  | s => (Scan.number? 1 4 s).map fun found => (found.1, found.2)

/-- AM or PM, whatever the case. -/
def halfOfDay? (s : List Char) : Option (Nat × List Char) :=
  match dropName? ['a', 'm'] s with
  | some rest => some (0, rest)
  | none => (dropName? ['p', 'm'] s).map fun rest => (1, rest)

/-- Reads a part of a date and adds it to the components. -/
def readDirective? (c : Components) (s : List Char) :
    Directive → Option (Components × List Char)
  | .year => do
    let (n, s) ← year? s
    some (← c.setYear n, s)
  | .yearOfCentury => do
    let (n, s) ← twoDigits? s
    some (← c.setYearOfCentury n, s)
  | .month => do
    let (n, s) ← twoDigits? s
    some (← c.setMonth n, s)
  | .monthShort => do
    let (n, s) ← shortName? monthNames s
    some (← c.setMonth (n + 1), s)
  | .monthName => do
    let (n, s) ← fullName? monthNames s
    some (← c.setMonth (n + 1), s)
  | .day => do
    let (n, s) ← twoDigits? s
    some (← c.setDay n, s)
  | .hour24 => do
    let (n, s) ← twoDigits? s
    some (← c.setHour24 n, s)
  | .hour12 => do
    let (n, s) ← twoDigits? s
    some (← c.setHour12 n, s)
  | .minute => do
    let (n, s) ← twoDigits? s
    some (← c.setMinute n, s)
  | .second => do
    let (n, s) ← twoDigits? s
    some (← c.setSecond n, s)
  | .fraction groups => do
    let (n, s) ← Scan.number? (3 * groups) (3 * groups) s
    some (← c.setFraction (n * Nat.pow 10 (9 - 3 * groups)), s)
  | .halfOfDay => do
    let (n, s) ← halfOfDay? s
    some (← c.setHalfOfDay n, s)
  | .weekdayShort => do
    let (n, s) ← shortName? weekdayNames s
    some (← c.setWeekday n, s)
  | .weekdayName => do
    let (n, s) ← fullName? weekdayNames s
    some (← c.setWeekday n, s)
  | .offset | .offsetColon => do
    let between (s : List Char) := some (s.dropWhile fun c => c == ':' || Text.isBlank c)
    let (n, s) ← Scan.offset? between (Text.dropBlanks s)
    some (← c.setOffset n, s)

/-- Reads the items of a layout one after the other. White space in the layout stands for any white
space or none, and any other literal for itself. -/
def readItems? (c : Components) : Layout → List Char → Option (Components × List Char)
  | [], s => some (c, s)
  | .directive d :: layout, s => do
    let (c, s) ← readDirective? c s d
    readItems? c layout s
  | .literal l :: layout, s =>
    if Text.isBlank l then readItems? c layout (Text.dropBlanks s)
    else do readItems? c layout (← Scan.char? l s)

/-- The components that a text shows by a layout, if the layout takes the whole text. -/
def components? (layout : Layout) (s : List Char) : Option Components := do
  let (c, rest) ← readItems? {} layout s
  if rest = [] then some c else none

/-- The instant that a text shows by a layout: with an offset, else on the clock of universal time,
else the start of the day. -/
def read? (layout : Layout) (s : List Char) : Option Instant := do
  let c ← components? layout s
  c.moment? <|> c.wallClock? <|> c.midnight?

end Layout

end Catalogue
