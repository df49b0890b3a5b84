import Catalogue.Proofs.Schema.Dates
import Catalogue.Proofs.Time.Rereading

/-!
# Dates written again

A date field that is read from a document and stored again should not change the document. The
alternative that wrote the text is the first to read it. If it can (`DateFormat.ReadsOwn`), what it
writes then is the same text, but for one case: a pattern without a full time of day is read as
midnight, which loses an hour that the text has (`DateFormat.KeepsText`). If it cannot, the text is
left to the other alternatives, and stays as it is when they cannot read it either.

`Conversion.toIndex_ofIndex_toIndex_iff` : the exact condition, for all formats and for all instants
whose years the first alternative writes legibly;
`Conversion.toIndex_ofIndex_toIndex_hour` : a pattern with the hour alone does not meet it.
-/

namespace Catalogue

namespace DateFormat

open Directive Conversion

/-- The layout by which an alternative writes; only patterns have one. -/
def layout : DateFormat → Layout
  | .percent text => (Layout.ofPercent? text).getD []
  | _ => []

/-- An alternative reads what it writes of an instant: RFC 3339 in the years 0 to 9999, a count of
milliseconds unless it runs out of the calendar in its last leap second, and a layout that shows a
day and has fractions that agree. -/
def ReadsOwn (t : Instant) : DateFormat → Prop
  | .rfc3339 => 0 ≤ t.date.year ∧ t.date.year ≤ 9999
  | .epochMillis => t.nanos < Instant.nanosPerSecond ∨ t.seconds < Instant.lastSecond
  | .epochSecond => True
  | .percent text =>
    FractionsAgree (layout (.percent text)).directives t ∧
      ShowsDay (layout (.percent text)).directives t

/-- What an alternative reads of its own text is enough to write that text: of the layouts, those
that show a time of day do so, and others if they write the instant as the midnight before it. -/
def KeepsText (t : Instant) : DateFormat → Prop
  | .percent text =>
    ShowsTime (layout (.percent text)).directives ∨
      (layout (.percent text)).render t.midnight = (layout (.percent text)).render t
  | _ => True

/-! ## What an alternative reads of its own text -/

theorem read?_write_rfc3339 (t u : Instant) :
    DateFormat.rfc3339.read? (DateFormat.rfc3339.write t) = some u ↔
      ReadsOwn t .rfc3339 ∧ u = t := by
  rw [write, read?, Instant.rfc3339, String.toList_ofList, ReadsOwn]
  by_cases h : 0 ≤ t.date.year ∧ t.date.year ≤ 9999
  · rw [Instant.ofRfc3339?_rfc3339Chars h, and_iff_right h, Option.some.injEq, eq_comm]
  · rw [Instant.ofRfc3339?_eq_none h]
    exact iff_of_false (by simp) fun hu => h hu.1

theorem wellFormed_layout (format : DateFormat) :
    ∀ d ∈ format.layout.directives, d.WellFormed := by
  cases format with
  | percent text =>
    rw [layout]
    cases hlayout : Layout.ofPercent? text with
    | none => exact nofun
    | some l => exact Layout.wellFormed_of_ofPercent? hlayout
  | _ => exact nofun

theorem read?_write_percent {text : List Char} {t : Instant}
    (h : (layout (.percent text)).Legible t) {u : Instant} :
    (DateFormat.percent text).read? ((DateFormat.percent text).write t) = some u ↔
      ReadsBackAs (layout (.percent text)).directives t u := by
  rw [write, read?, String.toList_ofList]
  rw [layout] at h ⊢
  cases hlayout : Layout.ofPercent? text with
  | none =>
    refine iff_of_false (by simp) fun hback => ?_
    exact absurd hback.day.day List.not_mem_nil
  | some l =>
    rw [hlayout] at h
    exact Layout.read?_render_eq_some_iff (Layout.wellFormed_of_ofPercent? hlayout) h

theorem read?_write_epoch (unit : EpochUnit) (t u : Instant) :
    unit.format.read? (unit.format.write t) = some u ↔ unit.Leaves t u := by
  rw [unit.write_eq]
  exact EpochUnit.read?_count_eq_some_iff

theorem exists_read?_write_iff {format : DateFormat} {t : Instant} (h : format.layout.Legible t) :
    (∃ u, format.read? (format.write t) = some u) ↔ format.ReadsOwn t := by
  cases format with
  | rfc3339 =>
    simp only [read?_write_rfc3339]
    exact ⟨fun ⟨_, h, _⟩ => h, fun h => ⟨t, h, rfl⟩⟩
  | epochMillis =>
    exact (exists_congr (read?_write_epoch .milli t)).trans EpochUnit.exists_leaves_milli_iff
  | epochSecond =>
    obtain ⟨r, hr⟩ := EpochUnit.exists_leaves .second (t := t) (.inl rfl)
    exact iff_of_true ⟨r, (read?_write_epoch .second t r).mpr hr⟩ trivial
  | percent text =>
    simp only [read?_write_percent h]
    exact ⟨fun ⟨u, hback⟩ => ⟨hback.fractions, hback.day⟩,
      fun ⟨hagree, hday⟩ => (exists_readsBackAs hagree hday).imp fun _ => And.right⟩

theorem write_eq_iff_of_read? {format : DateFormat} {t u : Instant} (h : format.layout.Legible t)
    (hread : format.read? (format.write t) = some u) :
    format.write u = format.write t ↔ format.KeepsText t := by
  cases format with
  | rfc3339 => exact iff_of_true (by rw [((read?_write_rfc3339 t u).mp hread).2]) trivial
  | epochMillis =>
    have hcount := EpochUnit.count_of_leaves ((read?_write_epoch .milli t u).mp hread)
    exact iff_of_true (congrArg (fun n => Value.int (Int64.ofInt n)) hcount) trivial
  | epochSecond =>
    have hcount := EpochUnit.count_of_leaves ((read?_write_epoch .second t u).mp hread)
    exact iff_of_true (congrArg (fun n => Value.int (Int64.ofInt n)) hcount) trivial
  | percent text =>
    have htext (a b : List Char) : Value.str (String.ofList a) = .str (String.ofList b) ↔ a = b :=
      ⟨fun h => by simpa using congrArg String.toList (Value.str.inj h), fun h => by rw [h]⟩
    rw [write, write, htext]
    exact Layout.render_eq_iff (wellFormed_layout _) ((read?_write_percent h).mp hread)

end DateFormat

namespace Conversion

open DateFormat

theorem toIndex_write (format : Option String) (f : DateFormat) (t : Instant) :
    Conversion.date.toIndex format (f.write t) = f.write t := by
  cases f <;> rfl

/-- A date that was written, read and written again is the same text or number exactly if the first
alternative reads its own text and keeps it, or else no other alternative reads a date from that
text that the first alternative writes in another way. -/
theorem toIndex_ofIndex_toIndex_iff {format : Option String} {t : Instant}
    (h : (writer format).layout.Legible t) :
    Conversion.date.toIndex format
        (Conversion.date.ofIndex format (Conversion.date.toIndex format (.date t))) =
      Conversion.date.toIndex format (.date t) ↔
      ((writer format).ReadsOwn t → (writer format).KeepsText t) ∧
        (¬ (writer format).ReadsOwn t → ∀ u,
          (readers format).tail.findSome? (·.read? ((writer format).write t)) = some u →
            (writer format).write u = (writer format).write t) := by
  obtain ⟨rest, hreaders⟩ := readers_eq_cons format
  rw [toIndex_date, ofIndex_write, readDate, hreaders, List.tail_cons,
    List.findSome?_cons]
  cases hread : (writer format).read? ((writer format).write t) with
  | some u =>
    have hown : (writer format).ReadsOwn t := (exists_read?_write_iff h).mp ⟨u, hread⟩
    simp only [toIndex_date]
    rw [write_eq_iff_of_read? h hread, imp_iff_right hown]
    exact ⟨fun hkeeps => ⟨hkeeps, fun hnot => absurd hown hnot⟩, And.left⟩
  | none =>
    have hown : ¬ (writer format).ReadsOwn t := fun hown => by
      obtain ⟨u, hu⟩ := (exists_read?_write_iff h).mpr hown
      simp [hread] at hu
    cases rest.findSome? (·.read? ((writer format).write t)) with
    | none => simp [toIndex_write, hown]
    | some u => simp [toIndex_date, hown]

/-- Hour and minute come back, so the text is the same although the second is lost. -/
theorem toIndex_ofIndex_toIndex_minute :
    let format := some "yyyy-MM-dd HH:mm"
    let t : Instant := ⟨1626251405, 0, by decide⟩
    (writer format).layout.Legible t ∧
      Conversion.date.toIndex format
          (Conversion.date.ofIndex format (Conversion.date.toIndex format (.date t))) =
        Conversion.date.toIndex format (.date t) := by
  intro format t
  have hlegible : (writer format).layout.Legible t := .inl (by decide)
  have hwriter : writer format = .percent "%Y-%m-%d %H:%M".toList := by decide +kernel
  have hdirectives : (layout (.percent "%Y-%m-%d %H:%M".toList)).directives =
      [.year, .month, .day, .hour24, .minute] := by decide +kernel
  refine ⟨hlegible, (toIndex_ofIndex_toIndex_iff hlegible).mpr ⟨fun _ => ?_, fun hown => ?_⟩⟩
  · rw [hwriter, KeepsText, hdirectives]
    exact .inl ⟨by decide, by decide, by simp⟩
  · rw [hwriter, ReadsOwn, hdirectives] at hown
    have hagree : Directive.FractionsAgree [.year, .month, .day, .hour24, .minute] t := by
      simp [Directive.FractionsAgree]
    exact absurd ⟨hagree, by decide, by decide, by decide, by decide, by decide⟩ hown

/-- An hour without a minute is no time of day: eight o'clock is read back as midnight, and midnight
is what is written then. -/
theorem toIndex_ofIndex_toIndex_hour :
    let format := some "yyyy-MM-dd HH"
    let t : Instant := ⟨1626249600, 0, by decide⟩
    let written := Conversion.date.toIndex format (.date t)
    written = .str "2021-07-14 08" ∧
      Conversion.date.toIndex format (Conversion.date.ofIndex format written) =
        .str "2021-07-14 00" ∧
      Conversion.date.toIndex format (Conversion.date.ofIndex format written) ≠ written := by
  intro format t written
  have halternatives : alternatives format = [.percent "%Y-%m-%d %H".toList] := by decide +kernel
  have hlayout : Layout.ofPercent? "%Y-%m-%d %H".toList =
      some [.directive .year, .literal '-', .directive .month, .literal '-', .directive .day,
        .literal ' ', .directive .hour24] := by decide +kernel
  have hwritten : written = .str "2021-07-14 08" := by
    change Conversion.date.toIndex format (.date t) = _
    rw [toIndex, halternatives, List.headD_cons, write, hlayout]
    exact congrArg Value.str (by decide +kernel)
  have hread : Conversion.date.ofIndex format (.str "2021-07-14 08") =
      .date ⟨1626220800, 0, by decide⟩ := by
    rw [ofIndex, readDate, readers, halternatives]
    simp only [List.findSome?_cons, read?, hlayout]
    rfl
  have hagain : Conversion.date.toIndex format (.date ⟨1626220800, 0, by decide⟩) =
      .str "2021-07-14 00" := by
    rw [toIndex, halternatives, List.headD_cons, write, hlayout]
    exact congrArg Value.str (by decide +kernel)
  rw [hwritten, hread, hagain]
  exact ⟨rfl, rfl, by simp⟩

end Conversion

end Catalogue
