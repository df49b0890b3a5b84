import Catalogue.Proofs.Schema.DatesRewritten

/-!
# Formats of days

A format that writes year, month and day drops the time. What it wrote is no date with a time, so
the last way to read it is what is left : the start of the day (`Directive.ReadsBackAs.eq_midnight`).
The day itself is never another one, before 1970 and at the end of a leap February as well.

`Conversion.ofIndex_toIndex_day` : with such a format in the first place an instant of the years 0
to 9999 comes back as the midnight of its own day, and two instants are written alike exactly if
they lie on one day.
-/

namespace Catalogue

namespace Directive

variable {ds : List Directive} {t u : Instant}

/-- With the year in full and without a time of day, midnight is read back. -/
theorem ReadsBackAs.eq_midnight (h : ReadsBackAs ds t u) (hyear : .year ∈ ds)
    (htime : ¬ ShowsTime ds) : u = t.midnight := by
  have hshows := h.midnight htime
  rw [dayShown, if_pos hyear] at hshows
  exact hshows.eq t.shows_midnight

/-- Year, month and day are read back as midnight. -/
theorem readsBackAs_midnight (t : Instant) : ReadsBackAs [.year, .month, .day] t t.midnight := by
  have hagree : FractionsAgree [.year, .month, .day] t := by simp [FractionsAgree]
  have hday : ShowsDay [.year, .month, .day] t :=
    ⟨by simp, by simp, by simp, by simp, by simp⟩
  have htime : ¬ ShowsTime [.year, .month, .day] := fun h => by simpa using h.minute
  obtain ⟨u, -, hback⟩ := exists_readsBackAs hagree hday
  rwa [hback.eq_midnight (by simp) htime] at hback

end Directive

/-- An instant is the start of its day if the clock shows midnight. -/
theorem Instant.midnight_eq_self_iff {t : Instant} :
    t.midnight = t ↔ t.Shows t.date 0 0 0 0 := by
  constructor
  · intro h
    have hshows := t.shows_midnight
    rwa [h] at hshows
  · exact t.shows_midnight.eq

/-! ## Formats of days -/

namespace DateFormat

/-- The names and patterns of year, month and day. -/
def dayNames : List String :=
  ["date", "strict_date", "yyyy-MM-dd", "basic_date"]

theorem exists_ofName_eq_percent {name : String} (h : name ∈ dayNames) :
    ∃ text, ofName name = .percent text ∧
      (layout (.percent text)).directives = [.year, .month, .day] := by
  simp only [dayNames, List.mem_cons, List.not_mem_nil, or_false] at h
  rcases h with rfl | rfl | rfl | rfl
  case inr.inr.inr => exact ⟨"%Y%m%d".toList, rfl, by decide +kernel⟩
  all_goals exact ⟨"%Y-%m-%d".toList, by decide +kernel, by decide +kernel⟩

/-- What a format of days wrote, it reads as midnight. -/
theorem read?_write_day {text : List Char}
    (h : (layout (.percent text)).directives = [.year, .month, .day]) {t : Instant}
    (hyear : 0 ≤ t.date.year ∧ t.date.year ≤ 9999) :
    (DateFormat.percent text).read? ((DateFormat.percent text).write t) = some t.midnight := by
  rw [read?_write_percent (.inl hyear), h]
  exact Directive.readsBackAs_midnight t

/-- A format of days writes nothing else of an instant. -/
theorem write_eq_of_date_eq {text : List Char}
    (h : (layout (.percent text)).directives = [.year, .month, .day]) {t u : Instant}
    (hdate : t.date = u.date) :
    (DateFormat.percent text).write t = (DateFormat.percent text).write u := by
  rw [layout] at h
  rw [write, write, Layout.render_eq_of_directives fun d hd => ?_]
  rw [h] at hd
  simp only [List.mem_cons, List.not_mem_nil, or_false] at hd
  rcases hd with rfl | rfl | rfl <;> simp only [Layout.renderDirective, hdate]

end DateFormat

namespace Conversion

open DateFormat

/-- With a format of days in the first place, an instant of the years 0 to 9999 comes back as the
midnight of its own day, which is the instant itself if its clock shows midnight, and what is
written is the same for another such instant exactly if it lies on the same day. -/
theorem ofIndex_toIndex_day {format : Option String} {name : String} (hname : name ∈ dayNames)
    (hfirst : (names format).head? = some name) {t : Instant}
    (hyear : 0 ≤ t.date.year ∧ t.date.year ≤ 9999) :
    let restored := Conversion.date.ofIndex format (Conversion.date.toIndex format (.date t))
    restored = .date t.midnight ∧ t.midnight.Shows t.date 0 0 0 0 ∧
      (restored = .date t ↔ t.Shows t.date 0 0 0 0) ∧
        ∀ u : Instant, 0 ≤ u.date.year ∧ u.date.year ≤ 9999 →
          (Conversion.date.toIndex format (.date t) = Conversion.date.toIndex format (.date u) ↔
            t.date = u.date) := by
  intro restored
  obtain ⟨text, htext, hdirectives⟩ := exists_ofName_eq_percent hname
  have hwriter : writer format = .percent text := (writer_of_head? hfirst).trans htext
  have hwritten (u : Instant) :
      Conversion.date.toIndex format (.date u) = (DateFormat.percent text).write u := by
    rw [toIndex_date, hwriter]
  have hread {u : Instant} (hu : 0 ≤ u.date.year ∧ u.date.year ≤ 9999) :
      Conversion.date.ofIndex format (Conversion.date.toIndex format (.date u)) =
        .date u.midnight := by
    rw [hwritten, ofIndex_write]
    refine readDate_of_writer ?_
    rw [hwriter]
    exact read?_write_day hdirectives hu
  refine ⟨hread hyear, t.shows_midnight, ?_, fun u hu => ⟨fun h => ?_, fun h => ?_⟩⟩
  · rw [show restored = .date t.midnight from hread hyear, Value.date.injEq]
    exact Instant.midnight_eq_self_iff
  · have hmidnight : t.midnight = u.midnight := by
      have hsame := (hread hyear).symm.trans ((congrArg _ h).trans (hread hu))
      exact Value.date.inj hsame
    rw [← t.shows_midnight.date, hmidnight, u.shows_midnight.date]
  · rw [hwritten, hwritten]
    exact write_eq_of_date_eq hdirectives h

/-- The leap second at the end of a leap February before 1970, by digits alone. -/
theorem ofIndex_toIndex_day_leapDay :
    let format := some "basic_date||epoch_millis||yyyy-MM-dd HH:mm:ss"
    let t : Instant := ⟨-57974401, 1500000000, by decide⟩
    let restored := Conversion.date.ofIndex format (Conversion.date.toIndex format (.date t))
    Conversion.date.toIndex format (.date t) = .str "19680229" ∧
      restored = .date ⟨-58060800, 0, by decide⟩ ∧ restored ≠ .date t := by
  intro format t restored
  have hfirst : (names format).head? = some "basic_date" := by decide +kernel
  have hyear : 0 ≤ t.date.year ∧ t.date.year ≤ 9999 := by decide
  have hwritten : Conversion.date.toIndex format (.date t) = .str "19680229" := by
    have hlayout : Layout.ofPercent? "%Y%m%d".toList =
        some [.directive .year, .directive .month, .directive .day] := by decide +kernel
    rw [toIndex_date, writer_of_head? hfirst,
      show ofName "basic_date" = .percent "%Y%m%d".toList from rfl, write, hlayout]
    exact congrArg Value.str (by decide +kernel)
  obtain ⟨hrestored, -, hself, -⟩ := ofIndex_toIndex_day (by decide) hfirst hyear
  refine ⟨hwritten, hrestored, fun h => ?_⟩
  exact absurd (hself.mp h).hour (by decide)

end Conversion

end Catalogue
