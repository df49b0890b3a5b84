import Catalogue.Proofs.Time.Layout

/-!
# Instants read back by the layout that wrote them

What the directives of a layout note of an instant, one after the other, is what they show of it all
together (`Components.shown`), provided that the fractions of the second among them are the same
nanoseconds. From that an instant is put together if the directives show a day
(`Directive.ShowsDay`): a year of two digits is one of 1970 to 2069, and a day of the week must be
that of the day in that year. With a time of day (`Directive.ShowsTime`) it is what the clock shows
then, and without one it is midnight, even if the hour is known.

`Layout.read?_render_eq_some_iff` : the instant that is read back, and when there is one;
`Layout.render_eq_iff` : that instant is written as the other was exactly if the layout shows a time
of day or writes the midnight before in the same way.
-/

namespace Catalogue

/-! ## Years of two digits -/

namespace Date

/-- The day of the years 1970 to 2069 with the same last two digits of the year. -/
def near (d : Date) : Date :=
  { d with year := if d.year % 100 < 70 then 2000 + d.year % 100 else 1900 + d.year % 100 }

theorem year_near_mod (d : Date) : d.near.year % 100 = d.year % 100 := by
  simp only [near]
  split <;> omega

/-- No leap day is lost: of the years that 100 divides, the near one is 2000. -/
theorem isLeapYear_near {d : Date} (h : isLeapYear d.year) : isLeapYear d.near.year := by
  simp only [isLeapYear, near, Bool.and_eq_true, Bool.or_eq_true, beq_iff_eq, bne_iff_ne] at *
  split <;> omega

theorem exists_near {d : Date} (h : d.Exists) : d.near.Exists := by
  have hdays : daysInMonth d.year d.month ≤ daysInMonth d.near.year d.month := by
    unfold daysInMonth
    split <;> try exact Nat.le_refl _
    by_cases hleap : isLeapYear d.year
    · rw [if_pos hleap, if_pos (isLeapYear_near hleap)]
    · rw [if_neg hleap]
      split <;> decide
  exact ⟨h.1, h.2.trans hdays⟩

theorem of?_near {d : Date} (h : d.Exists) :
    of? d.near.year d.near.month d.near.day = some d.near := by
  refine if_pos ⟨?_, ?_, exists_near h⟩ <;>
  · simp only [near, first, last]
    split <;> omega

end Date

/-! ## What directives show -/

theorem Instant.fractionShown_lt (t : Instant) (groups : Nat) :
    t.fractionShown groups < Instant.nanosPerSecond :=
  (Nat.div_mul_le_self _ _).trans_lt t.fraction_lt

/-- All fractions that the directives name are the same nanoseconds. -/
def Directive.FractionsAgree (ds : List Directive) (t : Instant) : Prop :=
  ∀ g h, .fraction g ∈ ds → .fraction h ∈ ds → t.fractionShown g = t.fractionShown h

namespace Components

/-- The components that directives show of an instant. -/
def shown (ds : List Directive) (t : Instant) : Components where
  year := if .year ∈ ds then some t.date.year else none
  yearOfCentury := if .yearOfCentury ∈ ds then some (t.date.year % 100).toNat else none
  month :=
    if .month ∈ ds ∨ .monthShort ∈ ds ∨ .monthName ∈ ds then some t.date.month else none
  day := if .day ∈ ds then some t.date.day else none
  weekday := if .weekdayShort ∈ ds ∨ .weekdayName ∈ ds then some t.date.weekday else none
  halfOfDay := if .hour24 ∈ ds ∨ .halfOfDay ∈ ds then some (t.hour / 12) else none
  hourOfHalf := if .hour24 ∈ ds ∨ .hour12 ∈ ds then some (t.hour % 12) else none
  minute := if .minute ∈ ds then some t.minute else none
  second := if .second ∈ ds then some t.second else none
  fraction := ds.findSome? fun
    | .fraction groups => some (t.fractionShown groups)
    | _ => none
  offset := if .offset ∈ ds ∨ .offsetColon ∈ ds then some 0 else none

end Components

namespace Directive

open Components

variable {ds : List Directive} {t : Instant}

/-- One more directive shows one more component, or the same one again. -/
theorem note?_shown {d : Directive} (ds : List Directive) (t : Instant)
    (hd : ∀ groups, d ≠ .fraction groups) :
    d.note? t (shown ds t) = some (shown (ds ++ [d]) t) := by
  have hmonth := t.exists_date.month_bounds
  have hday := t.exists_date.day_le
  have hhour := t.hour_lt
  have hsecond := t.second_le
  have hweekday := Nat.le_of_lt_succ t.date.weekday_lt
  have h12 : (if t.hour % 12 = 0 then 12 else t.hour % 12) % 12 = t.hour % 12 := by
    split <;> omega
  cases d with
  | year =>
    rw [note?, setYear_eq (by simp [shown])]
    simp [shown]
  | yearOfCentury =>
    rw [note?, setYearOfCentury_eq (by omega) (by simp [shown])]
    simp [shown]
  | month | monthShort | monthName =>
    rw [note?, setMonth_eq hmonth.1 hmonth.2 (by simp [shown])]
    simp [shown]
  | day =>
    rw [note?, setDay_eq t.exists_date.1 hday (by simp [shown])]
    simp [shown]
  | hour24 =>
    rw [note?, setHour24_eq hhour (by simp [shown]) (by simp [shown])]
    simp [shown]
  | hour12 =>
    rw [note?, setHour12_eq (by split <;> omega) (by split <;> omega) (by simp [shown, h12]), h12]
    simp [shown]
  | minute =>
    rw [note?, setMinute_eq t.minute_lt (by simp [shown])]
    simp [shown]
  | second =>
    rw [note?, setSecond_eq hsecond (by simp [shown])]
    simp [shown]
  | fraction groups => exact absurd rfl (hd groups)
  | halfOfDay =>
    rw [note?, setHalfOfDay_eq (by omega) (by simp [shown])]
    simp [shown]
  | weekdayShort | weekdayName =>
    rw [note?, setWeekday_eq hweekday (by simp [shown])]
    simp [shown]
  | offset | offsetColon =>
    rw [note?, setOffset_eq (by simp [shown])]
    simp [shown]

theorem fractionsAgree_append_singleton {ds : List Directive} {d : Directive} {t : Instant}
    (hd : ∀ groups, d ≠ .fraction groups) : FractionsAgree (ds ++ [d]) t ↔ FractionsAgree ds t := by
  have hmem (g : Nat) : .fraction g ∈ ds ++ [d] ↔ .fraction g ∈ ds := by
    rw [List.mem_append, List.mem_singleton, or_iff_left (hd g).symm]
  simp only [FractionsAgree, hmem]

theorem shown_append_fraction (ds : List Directive) (t : Instant) (groups : Nat) :
    shown (ds ++ [.fraction groups]) t =
      { shown ds t with
        fraction := (shown ds t).fraction.or (some (t.fractionShown groups)) } := by
  simp [shown, List.findSome?_append]

theorem fraction_shown_eq_none_iff :
    (shown ds t).fraction = none ↔ ∀ groups, .fraction groups ∉ ds := by
  rw [shown, List.findSome?_eq_none_iff]
  constructor
  · intro h groups hmem
    exact nomatch h _ hmem
  · intro h d hd
    split
    · exact absurd hd (h _)
    · rfl

theorem exists_fraction_of_shown {n : Nat}
    (h : (shown ds t).fraction = some n) :
    ∃ groups, .fraction groups ∈ ds ∧ n = t.fractionShown groups := by
  obtain ⟨d, hd, h⟩ := List.exists_of_findSome?_eq_some h
  split at h
  · exact ⟨_, hd, (Option.some.inj h).symm⟩
  · exact nomatch h

/-- One more fraction is added to what the others show if it agrees with theirs. -/
theorem note?_fraction_shown_eq_some_iff
    (h : FractionsAgree ds t) {groups : Nat} {c : Components} :
    (Directive.fraction groups).note? t (shown ds t) = some c ↔
      FractionsAgree (ds ++ [.fraction groups]) t ∧ c = shown (ds ++ [.fraction groups]) t := by
  have hmem (g : Nat) : .fraction g ∈ ds ++ [.fraction groups] ↔
      .fraction g ∈ ds ∨ g = groups := by
    rw [List.mem_append, List.mem_singleton, Directive.fraction.injEq]
  cases hknown : (shown ds t).fraction with
  | none =>
    have hnone := fraction_shown_eq_none_iff.mp hknown
    have hagree : FractionsAgree (ds ++ [.fraction groups]) t := fun g k hg hk => by
      rw [((hmem g).mp hg).resolve_left (hnone g), ((hmem k).mp hk).resolve_left (hnone k)]
    rw [note?, setFraction_eq (t.fractionShown_lt groups) (by simp [hknown]),
      shown_append_fraction, hknown, and_iff_right hagree, Option.some.injEq, eq_comm]
    rfl
  | some n =>
    obtain ⟨k, hk, rfl⟩ := exists_fraction_of_shown hknown
    by_cases heq : t.fractionShown k = t.fractionShown groups
    · have hsame (g : Nat) (hg : .fraction g ∈ ds ++ [.fraction groups]) :
          t.fractionShown g = t.fractionShown k := by
        rcases (hmem g).mp hg with hg | rfl
        · exact h g k hg hk
        · exact heq.symm
      have hagree : FractionsAgree (ds ++ [.fraction groups]) t := fun g j hg hj =>
        (hsame g hg).trans (hsame j hj).symm
      rw [note?, setFraction_eq (t.fractionShown_lt groups) (by simp [hknown, heq]),
        shown_append_fraction, hknown, and_iff_right hagree, Option.some.injEq, eq_comm, heq]
      rfl
    · have hagree : ¬ FractionsAgree (ds ++ [.fraction groups]) t := fun hagree =>
        heq (hagree k groups ((hmem k).mpr (.inl hk)) ((hmem groups).mpr (.inr rfl)))
      rw [iff_false_right fun h => hagree h.1]
      simp [note?, setFraction, agreeWithin, agree, hknown, heq]

/-- One more directive is added to what the others show if its fraction agrees with theirs. -/
theorem note?_shown_eq_some_iff (h : FractionsAgree ds t)
    (d : Directive) {c : Components} :
    d.note? t (shown ds t) = some c ↔
      FractionsAgree (ds ++ [d]) t ∧ c = shown (ds ++ [d]) t := by
  by_cases hd : ∃ groups, d = .fraction groups
  · obtain ⟨groups, rfl⟩ := hd
    exact note?_fraction_shown_eq_some_iff h
  · have hd' : ∀ groups, d ≠ .fraction groups := fun groups hg => hd ⟨groups, hg⟩
    rw [note?_shown ds t hd', fractionsAgree_append_singleton hd', and_iff_right h,
      Option.some.injEq, eq_comm]

theorem foldlM_note?_eq_some_iff {c : Components} :
    ds.foldlM (note? t) {} = some c ↔ FractionsAgree ds t ∧ c = shown ds t := by
  induction ds using List.reverseRecOn generalizing c with
  | nil =>
    simp [FractionsAgree, shown, eq_comm]
  | append_singleton ds d ih =>
    have hagree : FractionsAgree (ds ++ [d]) t → FractionsAgree ds t := fun h g k hg hk =>
      h g k (List.mem_append_left _ hg) (List.mem_append_left _ hk)
    rw [List.foldlM_append, Option.bind_eq_bind, Option.bind_eq_some_iff]
    simp only [List.foldlM_cons, List.foldlM_nil, ih]
    constructor
    · rintro ⟨_, ⟨h, rfl⟩, hnote⟩
      exact (note?_shown_eq_some_iff h d).mp (by simpa using hnote)
    · intro h
      refine ⟨_, ⟨hagree h.1, rfl⟩, ?_⟩
      simpa using (note?_shown_eq_some_iff (hagree h.1) d).mpr h

/-! ## The day that is read back -/

/-- The day that directives show: with the year in full it is the day itself, and with two digits of
the year the near one. -/
def dayShown (ds : List Directive) (t : Instant) : Date :=
  if .year ∈ ds then t.date else t.date.near

/-- Directives show a day: they name year, month and day of the month, a year that is not negative
if they name it both in full and by two digits, and no day of the week but that of the day
shown. -/
structure ShowsDay (ds : List Directive) (t : Instant) : Prop where
  year : .year ∈ ds ∨ .yearOfCentury ∈ ds
  nonneg : .year ∈ ds → .yearOfCentury ∈ ds → 0 ≤ t.date.year
  month : .month ∈ ds ∨ .monthShort ∈ ds ∨ .monthName ∈ ds
  day : .day ∈ ds
  weekday : .weekdayShort ∈ ds ∨ .weekdayName ∈ ds → (dayShown ds t).weekday = t.date.weekday

theorem of?_dayShown (ds : List Directive) (t : Instant) :
    Date.of? (dayShown ds t).year t.date.month t.date.day = some (dayShown ds t) := by
  rw [dayShown]
  split
  · exact t.of?_date
  · exact Date.of?_near t.exists_date

theorem fullYear?_shown_eq_some_iff {year : Int} :
    (shown ds t).fullYear? = some year ↔
      (.year ∈ ds ∨ .yearOfCentury ∈ ds) ∧
        (.year ∈ ds → .yearOfCentury ∈ ds → 0 ≤ t.date.year) ∧ year = (dayShown ds t).year := by
  have hcentury : ((t.date.year % 100).toNat : Int) = t.date.year % 100 := by omega
  by_cases hyear : .year ∈ ds <;> by_cases hshort : .yearOfCentury ∈ ds
  · simp [fullYear?, shown, dayShown, hyear, hshort, hcentury, eq_comm]
  · simp [fullYear?, shown, dayShown, hyear, hshort, eq_comm]
  · have hlt : (t.date.year % 100).toNat < 70 ↔ t.date.year % 100 < 70 := by omega
    simp [fullYear?, shown, dayShown, hyear, hshort, hcentury, hlt, Date.near, eq_comm]
  · simp [fullYear?, shown, hyear, hshort]

theorem date?_shown_eq_some_iff {d : Date} :
    (shown ds t).date? = some d ↔ ShowsDay ds t ∧ d = dayShown ds t := by
  have hmonth {m : Nat} : (shown ds t).month = some m ↔
      (.month ∈ ds ∨ .monthShort ∈ ds ∨ .monthName ∈ ds) ∧ m = t.date.month := by
    simp [shown, eq_comm]
  have hday {n : Nat} : (shown ds t).day = some n ↔ .day ∈ ds ∧ n = t.date.day := by
    simp [shown, eq_comm]
  have hweekday : (shown ds t).weekday.all (· == (dayShown ds t).weekday) ↔
      (.weekdayShort ∈ ds ∨ .weekdayName ∈ ds → (dayShown ds t).weekday = t.date.weekday) := by
    simp only [shown]
    split
    case isTrue h =>
      rw [Option.all_some, beq_iff_eq]
      exact ⟨fun heq _ => heq.symm, fun heq => (heq h).symm⟩
    case isFalse h => simp [h]
  simp only [date?, Option.bind_eq_bind, Option.bind_eq_some_iff, fullYear?_shown_eq_some_iff,
    hmonth, hday]
  constructor
  · rintro ⟨_, ⟨hyear, hnonneg, rfl⟩, _, ⟨hm, rfl⟩, _, ⟨hd, rfl⟩, _, hof, h⟩
    obtain rfl := Option.some.inj (hof.symm.trans (of?_dayShown ds t))
    split at h
    case isTrue hall => exact ⟨⟨hyear, hnonneg, hm, hd, hweekday.mp hall⟩, (Option.some.inj h).symm⟩
    case isFalse => simp at h
  · rintro ⟨h, rfl⟩
    exact ⟨_, ⟨h.year, h.nonneg, rfl⟩, _, ⟨h.month, rfl⟩, _, ⟨h.day, rfl⟩, _, of?_dayShown ds t,
      if_pos (hweekday.mpr h.weekday)⟩

/-! ## The time that is read back -/

/-- Directives show a time of day: the hour of 24, or of 12 and the half of the day, the minute, and
the second if they name a fraction of it. -/
structure ShowsTime (ds : List Directive) : Prop where
  hour : .hour24 ∈ ds ∨ .hour12 ∈ ds ∧ .halfOfDay ∈ ds
  minute : .minute ∈ ds
  second : (∃ groups, .fraction groups ∈ ds) → .second ∈ ds

theorem isSome_fraction_shown :
    (shown ds t).fraction.isSome ↔ ∃ groups, .fraction groups ∈ ds := by
  rw [← Option.ne_none_iff_isSome, ne_eq, fraction_shown_eq_none_iff, not_forall_not]

theorem isSome_second_shown :
    (shown ds t).second.isSome ↔ .second ∈ ds := by
  simp [shown]

theorem hasTime_shown {ds : List Directive} (t : Instant) (h : ShowsTime ds) :
    (shown ds t).HasTime t.hour t.minute where
  halfOfDay := if_pos (h.hour.imp_right And.right)
  hourOfHalf := if_pos (h.hour.imp_right And.left)
  minute := if_pos h.minute
  second := fun hf => isSome_second_shown.mpr (h.second (isSome_fraction_shown.mp hf))

theorem showsTime_of_time? {time : Nat × Nat}
    (h : (shown ds t).time? = some time) : ShowsTime ds := by
  simp only [time?, Option.bind_eq_bind, Option.bind_eq_some_iff] at h
  obtain ⟨half, hhalf, hour, hhour, minute, hminute, h⟩ := h
  split at h
  case isTrue => simp at h
  case isFalse hsecond =>
    have hhour : (.hour24 ∈ ds ∨ .halfOfDay ∈ ds) ∧ (.hour24 ∈ ds ∨ .hour12 ∈ ds) := by
      simp only [shown, Option.ite_none_right_eq_some] at hhalf hhour
      exact ⟨hhalf.1, hhour.1⟩
    refine ⟨or_and_left.mpr hhour.symm, ?_, fun hf => by_contra fun hs => hsecond ?_⟩
    · simp only [shown, Option.ite_none_right_eq_some] at hminute
      exact hminute.1
    · exact ⟨isSome_fraction_shown.mpr hf, by simp [shown, hs]⟩

/-! ## The instant that is read back -/

theorem secondShown_le (ds : List Directive) (t : Instant) : (shown ds t).second.getD 0 ≤ 60 := by
  simp only [shown]
  split
  · exact t.second_le
  · decide

theorem nanosShown_lt (ds : List Directive) (t : Instant) :
    (shown ds t).fraction.getD 0 < Instant.nanosPerSecond := by
  cases h : (shown ds t).fraction with
  | none => decide
  | some n =>
    obtain ⟨groups, -, rfl⟩ := exists_fraction_of_shown h
    exact t.fractionShown_lt groups

/-- With a day and a time of day the clock of universal time is read. -/
theorem exists_clock_shown (hday : ShowsDay ds t)
    (htime : ShowsTime ds) :
    ∃ u, (shown ds t).onClock? 0 = some u ∧
      u.Shows (dayShown ds t) t.hour t.minute ((shown ds t).second.getD 0)
        ((shown ds t).fraction.getD 0) :=
  exists_onClock? (date?_shown_eq_some_iff.mpr ⟨hday, rfl⟩) (hasTime_shown t htime) t.hour_lt
    t.minute_lt (secondShown_le ds t) (nanosShown_lt ds t)

theorem onClock?_shown_eq_none (h : ¬ ShowsTime ds)
    (offset : Int) : (shown ds t).onClock? offset = none := by
  cases htime : (shown ds t).time? with
  | none => simp [onClock?, htime]
  | some time => exact absurd (showsTime_of_time? htime) h

theorem onClock?_shown_of_not_showsDay (h : ¬ ShowsDay ds t)
    (offset : Int) : (shown ds t).onClock? offset = none ∧ (shown ds t).midnight? = none := by
  have hdate : (shown ds t).date? = none :=
    Option.eq_none_iff_forall_ne_some.mpr fun d hd => h (date?_shown_eq_some_iff.mp hd).1
  simp [onClock?, midnight?, hdate]

/-- An offset that a directive shows is zero, so the clock is that of universal time. -/
theorem moment?_shown (ds : List Directive) (t : Instant) (other : Option Instant) :
    ((shown ds t).moment? <|> (shown ds t).wallClock? <|> other) =
      ((shown ds t).onClock? 0 <|> other) := by
  have hoffset : (shown ds t).offset = none ∨ (shown ds t).offset = some 0 := by
    simp only [shown]
    split
    · exact .inr rfl
    · exact .inl rfl
  rw [wallClock?, moment?]
  rcases hoffset with h | h <;> rw [h]
  · rfl
  · cases hclock : (shown ds t).onClock? 0 <;> simp [hclock]

/-- An instant `u` is what is read back of `t`: it shows the day, and the time of day if there is
one, else midnight. -/
structure ReadsBackAs (ds : List Directive) (t u : Instant) : Prop where
  fractions : FractionsAgree ds t
  day : ShowsDay ds t
  clock : ShowsTime ds →
    u.Shows (dayShown ds t) t.hour t.minute ((shown ds t).second.getD 0)
      ((shown ds t).fraction.getD 0)
  midnight : ¬ ShowsTime ds → u.Shows (dayShown ds t) 0 0 0 0

theorem ReadsBackAs.unique {ds : List Directive} {t u v : Instant} (hu : ReadsBackAs ds t u)
    (hv : ReadsBackAs ds t v) : u = v := by
  by_cases htime : ShowsTime ds
  · exact (hu.clock htime).eq (hv.clock htime)
  · exact (hu.midnight htime).eq (hv.midnight htime)

theorem exists_readsBackAs (hagree : FractionsAgree ds t)
    (hday : ShowsDay ds t) :
    ∃ u, ((shown ds t).onClock? 0 <|> (shown ds t).midnight?) = some u ∧ ReadsBackAs ds t u := by
  by_cases htime : ShowsTime ds
  · obtain ⟨u, hu, hshows⟩ := exists_clock_shown hday htime
    exact ⟨u, by rw [hu]; rfl, hagree, hday, fun _ => hshows, fun h => absurd htime h⟩
  · obtain ⟨u, hu, hshows⟩ := exists_midnight? (date?_shown_eq_some_iff.mpr ⟨hday, rfl⟩)
    exact ⟨u, by rw [onClock?_shown_eq_none htime, hu]; rfl, hagree, hday,
      fun h => absurd h htime, fun _ => hshows⟩

end Directive

namespace Layout

open Directive Components

variable {layout : Layout} {t : Instant}

theorem read?_render_eq (hd : ∀ d ∈ directives layout, d.WellFormed) (h : Legible layout t) :
    read? layout (render layout t) =
      ((directives layout).foldlM (note? t) {}).bind fun c =>
        c.moment? <|> c.wallClock? <|> c.midnight? := by
  rw [read?, components?, readItems?_render hd h (.inl rfl)]
  cases (directives layout).foldlM (note? t) {} <;> rfl

/-- A layout reads back what it wrote exactly if it shows a day and its fractions agree. -/
theorem read?_render_eq_some_iff (hd : ∀ d ∈ directives layout, d.WellFormed)
    (h : Legible layout t) {u : Instant} :
    read? layout (render layout t) = some u ↔ ReadsBackAs (directives layout) t u := by
  rw [read?_render_eq hd h, Option.bind_eq_some_iff]
  simp only [foldlM_note?_eq_some_iff]
  constructor
  · rintro ⟨_, ⟨hagree, rfl⟩, hread⟩
    rw [moment?_shown] at hread
    have hday : ShowsDay (directives layout) t := by_contra fun hday => by
      obtain ⟨hclock, hmidnight⟩ := onClock?_shown_of_not_showsDay hday 0
      rw [hclock, hmidnight] at hread
      exact nomatch hread
    obtain ⟨v, hv, hback⟩ := exists_readsBackAs hagree hday
    obtain rfl := Option.some.inj (hread.symm.trans hv)
    exact hback
  · intro hback
    obtain ⟨v, hv, hv'⟩ := exists_readsBackAs hback.fractions hback.day
    obtain rfl := hback.unique hv'
    exact ⟨_, ⟨hback.fractions, rfl⟩, by rw [moment?_shown, hv]⟩

end Layout

/-! ## The text that is written again -/

namespace Directive

open Components Layout

variable {ds : List Directive} {t : Instant}

/-- A directive writes of what was read what it wrote, if hour and minute are the same, and so are
the second and the fraction where they are named. -/
theorem renderDirective_eq {ds : List Directive} {t u : Instant} (hday : ShowsDay ds t)
    (hdate : u.date = dayShown ds t) (hhour : u.hour = t.hour) (hminute : u.minute = t.minute)
    (hsecond : .second ∈ ds → u.second = t.second)
    (hfraction : ∀ groups, .fraction groups ∈ ds →
      renderDirective u (.fraction groups) = renderDirective t (.fraction groups))
    {d : Directive} (hd : d ∈ ds) : renderDirective u d = renderDirective t d := by
  have hyear : (dayShown ds t).year % 100 = t.date.year % 100 := by
    rw [dayShown]
    split
    · rfl
    · exact Date.year_near_mod t.date
  have hmonth : (dayShown ds t).month = t.date.month := by
    rw [dayShown]
    split <;> rfl
  have hdayOfMonth : (dayShown ds t).day = t.date.day := by
    rw [dayShown]
    split <;> rfl
  cases d with
  | year => rw [renderDirective, hdate, dayShown, if_pos hd, renderDirective]
  | yearOfCentury => rw [renderDirective, hdate, hyear, renderDirective]
  | month | monthShort | monthName => rw [renderDirective, hdate, hmonth, renderDirective]
  | day => rw [renderDirective, hdate, hdayOfMonth, renderDirective]
  | hour24 | hour12 | halfOfDay => rw [renderDirective, hhour, renderDirective]
  | minute => rw [renderDirective, hminute, renderDirective]
  | second => rw [renderDirective, hsecond hd, renderDirective]
  | fraction groups => exact hfraction groups hd
  | weekdayShort => rw [renderDirective, hdate, hday.weekday (.inl hd), renderDirective]
  | weekdayName => rw [renderDirective, hdate, hday.weekday (.inr hd), renderDirective]
  | offset | offsetColon => rfl

/-- The digits of a fraction are those of the nanoseconds that they show. -/
theorem renderDirective_fraction_eq {t u : Instant} {groups : Nat} (h : groups ≤ 3)
    (hu : u.fraction = t.fractionShown groups) :
    renderDirective u (.fraction groups) = renderDirective t (.fraction groups) := by
  rw [renderDirective_fraction u h, renderDirective_fraction t h, hu, Instant.fractionShown,
    Nat.mul_div_cancel _ (show 0 < Nat.pow 10 _ from Nat.pow_pos (by decide))]

end Directive

namespace Layout

open Directive Components

variable {layout : Layout} {t : Instant}

theorem render_eq_of_directives {t u : Instant}
    (h : ∀ d ∈ directives layout, renderDirective u d = renderDirective t d) :
    render layout u = render layout t := by
  refine List.flatMap_congr fun item hitem => ?_
  cases item with
  | literal c => rfl
  | directive d => exact h d (List.mem_filterMap.mpr ⟨_, hitem, rfl⟩)

/-- With a time of day, what is read back is written as it was. -/
theorem render_eq_of_showsTime (hd : ∀ d ∈ directives layout, d.WellFormed) {u : Instant}
    (hback : ReadsBackAs (directives layout) t u) (htime : ShowsTime (directives layout)) :
    render layout u = render layout t := by
  have hshows := hback.clock htime
  refine render_eq_of_directives fun d hmem => renderDirective_eq hback.day hshows.date hshows.hour
    hshows.minute (fun hsecond => ?_) (fun groups hgroups => ?_) hmem
  · rw [hshows.second, shown]
    simp [hsecond]
  · refine renderDirective_fraction_eq (hd _ hgroups groups rfl).2 ?_
    rw [hshows.fraction]
    cases hknown : (shown (directives layout) t).fraction with
    | none => exact absurd hgroups (fraction_shown_eq_none_iff.mp hknown groups)
    | some n =>
      obtain ⟨k, hk, rfl⟩ := exists_fraction_of_shown hknown
      exact hback.fractions k groups hk hgroups

/-- Without a time of day, what is read back is written as midnight was. -/
theorem render_eq_of_not_showsTime {u : Instant} (hback : ReadsBackAs (directives layout) t u)
    (htime : ¬ ShowsTime (directives layout)) : render layout u = render layout t.midnight := by
  have hshows := hback.midnight htime
  have hmidnight := t.shows_midnight
  have hdayShown : dayShown (directives layout) t.midnight = dayShown (directives layout) t := by
    rw [dayShown, dayShown, hmidnight.date]
  have hday : ShowsDay (directives layout) t.midnight := by
    obtain ⟨hyear, hnonneg, hmonth, hday, hweekday⟩ := hback.day
    refine ⟨hyear, ?_, hmonth, hday, ?_⟩
    · rwa [hmidnight.date]
    · rwa [hdayShown, hmidnight.date]
  exact render_eq_of_directives fun d => renderDirective_eq hday (hshows.date.trans hdayShown.symm)
    (hshows.hour.trans hmidnight.hour.symm) (hshows.minute.trans hmidnight.minute.symm)
    (fun _ => hshows.second.trans hmidnight.second.symm)
    (fun groups _ => by rw [renderDirective, renderDirective, hshows.fraction, hmidnight.fraction])

/-- What is read back is written as it was exactly if the layout shows a time of day, or if it
writes the instant as it writes the midnight before it. -/
theorem render_eq_iff (hd : ∀ d ∈ directives layout, d.WellFormed) {u : Instant}
    (hback : ReadsBackAs (directives layout) t u) :
    render layout u = render layout t ↔
      ShowsTime (directives layout) ∨ render layout t.midnight = render layout t := by
  by_cases htime : ShowsTime (directives layout)
  · exact iff_of_true (render_eq_of_showsTime hd hback htime) (.inl htime)
  · rw [render_eq_of_not_showsTime hback htime, or_iff_right htime]

end Layout

end Catalogue
