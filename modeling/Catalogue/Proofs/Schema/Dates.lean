import Catalogue.Proofs.Schema.Chain
import Catalogue.Proofs.Time.Rfc3339

/-!
# Dates of default and epoch formats

A date field writes an instant by the first alternative of its format, and all alternatives are
tried in order when the text is read. So what the first alternative reads from its own text is what
comes back, whatever alternatives follow (`Conversion.readDate_of_writer`).

`Conversion.ofIndex_toIndex_default` : without a format, or with a name for the text by RFC 3339 in
the first place, every instant of the years 0 to 9999 comes back through JSON as it was;
`Conversion.epoch_roundTrip` : a count from the start of 1970 is rounded down, before that start as
well, and is the same count as an integer and as its decimal text.
-/

namespace Catalogue

/-! ## Alternatives -/

namespace DateFormat

/-- The names and patterns of the alternatives of a format, in order. -/
def names (format : Option String) : List String :=
  (format.elim [] fun text =>
    ((Text.split ['|', '|'] text.toList).map Text.trimBlanks).filter (· ≠ [])).map String.ofList

theorem alternatives_eq_map (format : Option String) :
    alternatives format = (names format).map ofName := by
  cases format with
  | none => rfl
  | some text =>
    rw [alternatives, names, List.map_map]
    rfl

/-- The names of the text by RFC 3339. -/
def rfc3339Names : List String :=
  ["date_time", "strict_date_time", "date_optional_time", "strict_date_optional_time"]

theorem ofName_eq_rfc3339 {name : String} (h : name ∈ rfc3339Names) : ofName name = .rfc3339 := by
  simp only [rfc3339Names, List.mem_cons, List.not_mem_nil, or_false] at h
  rcases h with rfl | rfl | rfl | rfl <;> rfl

end DateFormat

namespace Conversion

open DateFormat

/-- The alternative that writes. -/
def writer (format : Option String) : DateFormat :=
  (alternatives format).headD .rfc3339

theorem toIndex_date (format : Option String) (t : Instant) :
    Conversion.date.toIndex format (.date t) = (writer format).write t :=
  rfl

/-- The first name of a format is that of the alternative that writes. -/
theorem writer_of_head? {format : Option String} {name : String}
    (h : (names format).head? = some name) : writer format = ofName name := by
  rw [writer, alternatives_eq_map]
  obtain ⟨rest, hnames⟩ := List.head?_eq_some_iff.mp h
  rw [hnames, List.map_cons, List.headD_cons]

/-- The alternative that writes is the first of those that read. -/
theorem readers_eq_cons (format : Option String) :
    ∃ rest, readers format = writer format :: rest := by
  rw [readers, writer]
  cases alternatives format with
  | nil => exact ⟨[], rfl⟩
  | cons first rest => exact ⟨rest, rfl⟩

theorem readDate_of_writer {format : Option String} {value : Value} {t : Instant}
    (h : (writer format).read? value = some t) : readDate format value = .date t := by
  obtain ⟨rest, hreaders⟩ := readers_eq_cons format
  rw [readDate, hreaders, List.findSome?_cons_of_isSome (by rw [h]; rfl), h]

/-! ## The text by RFC 3339 -/

/-- Without a format, or with the text by RFC 3339 in the first place, an instant of the years 0 to
9999 comes back from JSON as it was. -/
theorem ofIndex_toIndex_default {format : Option String}
    (hfirst : ∀ name ∈ (names format).head?, name ∈ rfc3339Names) {t : Instant}
    (hyear : 0 ≤ t.date.year ∧ t.date.year ≤ 9999) :
    Conversion.date.ofIndex format
      (Value.ofJson (Conversion.date.toIndex format (.date t)).toJson) = .date t := by
  have hwriter : writer format = .rfc3339 := by
    rw [writer, alternatives_eq_map]
    cases hnames : names format with
    | nil => rfl
    | cons name rest => exact ofName_eq_rfc3339 (hfirst name (by rw [hnames]; rfl))
  have hread : DateFormat.rfc3339.read? (.str t.rfc3339) = some t := by
    rw [DateFormat.read?, Instant.rfc3339, String.toList_ofList]
    exact Instant.ofRfc3339?_rfc3339Chars hyear
  rw [toIndex_date, DateFormat.ofJson_write, ofIndex_write, hwriter]
  refine readDate_of_writer ?_
  rw [hwriter]
  exact hread

/-- The leap second at the end of 2016, half a second in, without a format. -/
theorem ofIndex_toIndex_default_leapSecond :
    let t : Instant := ⟨1483228799, 1500000000, by decide⟩
    t.rfc3339 = "2016-12-31T23:59:60.500Z" ∧
      Conversion.date.ofIndex none
        (Value.ofJson (Conversion.date.toIndex none (.date t)).toJson) = .date t := by
  intro t
  have hyear : 0 ≤ t.date.year ∧ t.date.year ≤ 9999 := by decide
  exact ⟨by decide, ofIndex_toIndex_default (by simp [names]) hyear⟩

/-! ## Counts from the start of 1970 -/

/-- The unit of a count from the start of 1970. -/
inductive EpochUnit where
  /-- Seconds. -/
  | second
  /-- Milliseconds. -/
  | milli
deriving DecidableEq

namespace EpochUnit

/-- The name of the format that counts in this unit. -/
def name : EpochUnit → String
  | .second => "epoch_second"
  | .milli => "epoch_millis"

/-- The whole units from the start of 1970 to an instant. A leap second has no seconds of its own,
but its milliseconds run into the next second. -/
def count : EpochUnit → Instant → Int
  | .second, t => t.seconds
  | .milli, t => t.seconds * 1000 + t.nanos / Instant.nanosPerMilli

/-- What is left of an instant `t` when it is rounded down to whole units. -/
def Leaves (unit : EpochUnit) (t r : Instant) : Prop :=
  match unit with
  | .second => r.seconds = t.seconds ∧ r.nanos = 0
  | .milli =>
    if t.nanos < Instant.nanosPerSecond then
      r.seconds = t.seconds ∧ r.nanos = t.nanos / Instant.nanosPerMilli * Instant.nanosPerMilli
    else
      r.seconds = t.seconds + 1 ∧
        r.nanos =
          (t.nanos - Instant.nanosPerSecond) / Instant.nanosPerMilli * Instant.nanosPerMilli

/-- The format that counts in this unit. -/
def format : EpochUnit → DateFormat
  | .second => .epochSecond
  | .milli => .epochMillis

theorem ofName_name (unit : EpochUnit) : ofName unit.name = unit.format := by
  cases unit <;> rfl

theorem seconds_bounds (t : Instant) :
    -8334601228800 ≤ t.seconds ∧ t.seconds ≤ 8210266876799 := by
  obtain ⟨hfirst, hlast, -⟩ := t.valid
  rw [Instant.firstSecond, Date.epochDay_first] at hfirst
  rw [Instant.lastSecond, Date.epochDay_last] at hlast
  omega

/-- A count has a signed form of 64 bits. -/
theorem toInt_ofInt_count (unit : EpochUnit) (t : Instant) :
    (Int64.ofInt (unit.count t)).toInt = unit.count t := by
  have hseconds := seconds_bounds t
  have hnanos := t.valid.2.2.1
  refine Int64.toInt_ofInt_of_le ?_ ?_ <;> cases unit <;>
    simp only [count, Instant.nanosPerMilli, Instant.nanosPerSecond] at * <;> omega

theorem write_eq (unit : EpochUnit) (t : Instant) :
    unit.format.write t = .int (Int64.ofInt (unit.count t)) := by
  cases unit <;> rfl

/-- What is read from a count is what the count leaves of an instant. -/
theorem read?_count_eq_some_iff {unit : EpochUnit} {t r : Instant} :
    unit.format.read? (.int (Int64.ofInt (unit.count t))) = some r ↔ unit.Leaves t r := by
  have hcount := unit.toInt_ofInt_count t
  cases unit with
  | second => rw [EpochUnit.format, DateFormat.read?, hcount, Instant.ofEpochSeconds?,
      Instant.of?_eq_some_iff, count, Leaves]
  | milli =>
    rw [EpochUnit.format, DateFormat.read?, hcount, Instant.ofEpochMillis?, Instant.of?_eq_some_iff]
    have hnanos := t.valid.2.2.1
    simp only [Leaves, count, Instant.nanosPerMilli, Instant.nanosPerSecond] at *
    split <;> omega

/-- What a count leaves of an instant has the same count. -/
theorem count_of_leaves {unit : EpochUnit} {t r : Instant} (h : unit.Leaves t r) :
    unit.count r = unit.count t := by
  have hnanos := t.valid.2.2.1
  cases unit with
  | second => exact h.1
  | milli =>
    simp only [Leaves, count, Instant.nanosPerMilli, Instant.nanosPerSecond] at *
    split at h <;> omega

/-- A count leaves some instant of every other than a leap second. -/
theorem exists_leaves (unit : EpochUnit) {t : Instant}
    (h : unit = .second ∨ t.nanos < Instant.nanosPerSecond) : ∃ r, unit.Leaves t r := by
  obtain ⟨hfirst, hlast, -⟩ := t.valid
  have hvalid (nanos : Nat) (hnanos : nanos < Instant.nanosPerSecond) :
      Instant.Valid t.seconds nanos := by
    simp only [Instant.Valid, Instant.nanosPerSecond] at *
    omega
  cases unit with
  | second => exact ⟨⟨t.seconds, 0, hvalid 0 (by decide)⟩, rfl, rfl⟩
  | milli =>
    have hnanos : t.nanos < Instant.nanosPerSecond := h.resolve_left (by simp)
    refine ⟨⟨t.seconds, t.nanos / Instant.nanosPerMilli * Instant.nanosPerMilli, hvalid _ ?_⟩, ?_⟩
    · exact (Nat.div_mul_le_self _ _).trans_lt hnanos
    · simp only [Leaves, hnanos, if_true, and_self]

/-- A count of milliseconds leaves nothing of the leap second with which the calendar ends. -/
theorem exists_leaves_milli_iff {t : Instant} : (∃ r, EpochUnit.milli.Leaves t r) ↔
    t.nanos < Instant.nanosPerSecond ∨ t.seconds < Instant.lastSecond := by
  by_cases hnanos : t.nanos < Instant.nanosPerSecond
  · exact iff_of_true (exists_leaves .milli (.inr hnanos)) (.inl hnanos)
  · simp only [Leaves, hnanos, if_false, false_or]
    obtain ⟨hfirst, -, hlt, -⟩ := t.valid
    constructor
    · rintro ⟨r, hseconds, -⟩
      have hlast := r.valid.2.1
      omega
    · intro hseconds
      refine ⟨⟨t.seconds + 1, (t.nanos - Instant.nanosPerSecond) / Instant.nanosPerMilli *
        Instant.nanosPerMilli, ?_⟩, rfl, rfl⟩
      simp only [Instant.Valid, Instant.nanosPerSecond, Instant.nanosPerMilli] at *
      omega

theorem count_mono (unit : EpochUnit) {t u : Instant} (ht : t.nanos < Instant.nanosPerSecond)
    (hle : t.seconds < u.seconds ∨ t.seconds = u.seconds ∧ t.nanos ≤ u.nanos) :
    unit.count t ≤ unit.count u := by
  cases unit <;> simp only [count, Instant.nanosPerMilli, Instant.nanosPerSecond] at * <;> omega

/-- The text of a count is read as the count. -/
theorem read?_integer (unit : EpochUnit) (n : Int64) :
    unit.format.read? (.str (String.ofList (Text.integer n.toInt))) =
      unit.format.read? (.int n) := by
  cases unit <;>
    simp [EpochUnit.format, DateFormat.read?, Text.readSigned?_integer]

end EpochUnit

/-- With a count of seconds or milliseconds in the first place, an instant is written as the count
of its whole units, and that number and its decimal text are read as what the count leaves of the
instant, which is some instant unless it is a leap second. A later instant does not have a smaller
count, leap seconds apart, and all steps of counting and reading stay within their words. -/
theorem epoch_roundTrip {format : Option String} {unit : EpochUnit}
    (hfirst : (names format).head? = some unit.name) :
    (∀ t : Instant, ∃ n : Int64,
      Conversion.date.toIndex format (.date t) = .int n ∧ n.toInt = unit.count t ∧
        ∀ r, unit.Leaves t r →
          Conversion.date.ofIndex format (.int n) = .date r ∧
            Conversion.date.ofIndex format (.str (String.ofList (Text.integer n.toInt))) =
              .date r) ∧
      (∀ t : Instant, unit = .second ∨ t.nanos < Instant.nanosPerSecond →
        ∃ r, unit.Leaves t r) ∧
      (∀ t u : Instant, t.nanos < Instant.nanosPerSecond → u.nanos < Instant.nanosPerSecond →
        t.seconds < u.seconds ∨ t.seconds = u.seconds ∧ t.nanos ≤ u.nanos →
          unit.count t ≤ unit.count u) ∧
      (∀ t : Instant, Word.Signed64 t.seconds ∧ Word.Signed64 (t.seconds * 1000) ∧
        Word.Signed64 (t.seconds * 1000 + t.nanos / Instant.nanosPerMilli)) ∧
      ∀ n : Int64, Word.Signed64 (n.toInt / 1000) ∧
        (n.toInt % 1000).toNat * Instant.nanosPerMilli < Word.bound32 := by
  have hwriter : writer format = unit.format := by
    rw [writer, alternatives_eq_map]
    cases hnames : names format with
    | nil => rw [hnames] at hfirst; exact nomatch hfirst
    | cons name rest =>
      rw [hnames, List.head?_cons, Option.some.injEq] at hfirst
      rw [List.map_cons, List.headD_cons, hfirst, EpochUnit.ofName_name]
  refine ⟨fun t => ⟨Int64.ofInt (unit.count t), ?_, unit.toInt_ofInt_count t, fun r hr => ?_⟩,
    fun t ht => ?_, fun t u ht hu hle => ?_, fun t => ?_, fun n => ?_⟩
  · rw [toIndex_date, hwriter, EpochUnit.write_eq]
  · have hread := EpochUnit.read?_count_eq_some_iff.mpr hr
    have htext := (unit.read?_integer _).trans hread
    rw [← hwriter] at hread htext
    exact ⟨readDate_of_writer hread, readDate_of_writer htext⟩
  · exact unit.exists_leaves ht
  · exact unit.count_mono ht hle
  · have hseconds := EpochUnit.seconds_bounds t
    have hnanos := t.valid.2.2.1
    simp only [Word.Signed64, Instant.nanosPerMilli, Instant.nanosPerSecond] at *
    omega
  · have hlow := n.le_toInt
    have hhigh := n.toInt_lt
    simp only [Word.Signed64, Word.bound32, Instant.nanosPerMilli] at *
    omega

/-- A nanosecond before 1970 is counted as the millisecond before it. -/
theorem epoch_roundTrip_before1970 :
    let format := some "epoch_millis||yyyy-MM-dd"
    let t : Instant := ⟨-1, 999999999, by decide⟩
    let r : Instant := ⟨-1, 999000000, by decide⟩
    (names format).head? = some "epoch_millis" ∧ EpochUnit.milli.Leaves t r ∧
      Conversion.date.toIndex format (.date t) = .int (-1) ∧
      Conversion.date.ofIndex format (.int (-1)) = .date r ∧
      Conversion.date.ofIndex format (.str "-1") = .date r := by
  intro format t r
  have hfirst : (names format).head? = some EpochUnit.milli.name := by decide +kernel
  have hleaves : EpochUnit.milli.Leaves t r := by
    have hnanos : t.nanos < Instant.nanosPerSecond := by decide
    simp only [EpochUnit.Leaves, hnanos, if_true]
    exact ⟨rfl, by decide⟩
  obtain ⟨n, hwritten, hn, hread⟩ := (epoch_roundTrip hfirst).1 t
  obtain rfl : n = -1 := Int64.toInt_inj.mp (hn.trans (by decide))
  obtain ⟨hint, htext⟩ := hread r hleaves
  have hnumeral : String.ofList (Text.integer (-1 : Int64).toInt) = "-1" := by decide +kernel
  rw [hnumeral] at htext
  exact ⟨hfirst, hleaves, hwritten, hint, htext⟩

end Conversion

end Catalogue
