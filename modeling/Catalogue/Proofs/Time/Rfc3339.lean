import Catalogue.Proofs.Time.Clock
import Catalogue.Proofs.Time.Scan

/-!
# The text of an instant read back

The text by RFC 3339 has all that a clock shows of an instant, with as many digits of the fraction
as it needs, and a leap second as second 60. A year of four digits is read, one with a sign is not.

`Instant.ofRfc3339?_rfc3339Chars` : an instant of the years 0 to 9999 is read back from its text;
`Instant.ofRfc3339?_eq_none` : no other instant is.
-/

namespace Catalogue

namespace Instant

open Text Scan

/-! ## Parts of the text -/

/-- What is read of a fraction is that fraction, and nothing of one that is zero. -/
theorem readFraction?_fractionText {fraction : Nat} (h : fraction < nanosPerSecond)
    {c : Components} (hc : c.fraction = none) :
    readFraction? c (fractionText fraction ++ ['Z']) =
      some ({ c with fraction := if fraction = 0 then none else some fraction }, ['Z']) := by
  have hend : ¬ StartsWithDigit ['Z'] := by
    rw [startsWithDigit_cons]
    decide
  have hset := Components.setFraction_eq h (c := c) (by simp [hc])
  -- `width` digits after the point, the last of which counts `unit` nanoseconds
  have hread {width unit : Nat} (hpos : 1 ≤ width) (hwidth : width ≤ 9)
      (hunit : Nat.pow 10 (9 - width) = unit) (hsecond : unit * Nat.pow 10 width = nanosPerSecond)
      (hmod : fraction % unit = 0) :
      readFraction? c ('.' :: padded width (fraction / unit) ++ ['Z']) =
        some ({ c with fraction := some fraction }, ['Z']) := by
    have hfits : fraction / unit < Nat.pow 10 width := Nat.div_lt_of_lt_mul (hsecond ▸ h)
    have hnanos : fraction / unit * unit = fraction :=
      Nat.div_mul_cancel (Nat.dvd_of_mod_eq_zero hmod)
    rw [List.cons_append, readFraction?, fraction?_padded hpos hwidth hfits hend, hunit, hnanos]
    exact (Option.bind_of_some rfl).trans (Option.bind_of_some hset)
  rw [fractionText]
  split
  case isTrue => simp [readFraction?, ← hc]
  case isFalse =>
    split
    case isTrue hmilli => exact hread (by decide) (by decide) rfl rfl hmilli
    case isFalse =>
      split
      case isTrue hmicro => exact hread (by decide) (by decide) rfl rfl hmicro
      case isFalse =>
        have hnine := hread (show 1 ≤ 9 by decide) (by decide) rfl rfl (Nat.mod_one fraction)
        rwa [Nat.sub_self, show Nat.pow 10 0 = 1 from rfl, Nat.div_one] at hnine

theorem ofRfc3339?_rfc3339Chars {t : Instant} (h : 0 ≤ t.date.year ∧ t.date.year ≤ 9999) :
    ofRfc3339? t.rfc3339Chars = some t := by
  have hmonth := t.exists_date.month_bounds
  have hday := t.exists_date.day_le
  have hhour := t.hour_lt
  have hminute := t.minute_lt
  have hsecond := t.second_le
  rw [rfc3339Chars, Date.yearText, if_pos h]
  simp only [List.append_assoc, List.cons_append, ofRfc3339?]
  refine (Option.bind_of_some (number?_padded 4 (by decide) (by simp; omega) _)).trans ?_
  refine (Option.bind_of_some (char?_cons _ _)).trans ?_
  refine (Option.bind_of_some (number?_padded 2 (by decide) (by simp; omega) _)).trans ?_
  refine (Option.bind_of_some (char?_cons _ _)).trans ?_
  refine (Option.bind_of_some (number?_padded 2 (by decide) (by simp; omega) _)).trans ?_
  refine (Option.bind_of_some (show separator? ('T' :: _) = some _ from rfl)).trans ?_
  refine (Option.bind_of_some (number?_padded 2 (by decide) (by simp; omega) _)).trans ?_
  refine (Option.bind_of_some (char?_cons _ _)).trans ?_
  refine (Option.bind_of_some (number?_padded 2 (by decide) (by simp; omega) _)).trans ?_
  refine (Option.bind_of_some (char?_cons _ _)).trans ?_
  refine (Option.bind_of_some (number?_padded 2 (by decide) (by simp; omega) _)).trans ?_
  -- the components, each of them new
  refine (Option.bind_of_some (Components.setYear_eq (by simp))).trans ?_
  refine (Option.bind_of_some (Components.setMonth_eq hmonth.1 hmonth.2 (by simp))).trans ?_
  refine (Option.bind_of_some (Components.setDay_eq t.exists_date.1 hday (by simp))).trans ?_
  refine (Option.bind_of_some (Components.setHour24_eq hhour (by simp) (by simp))).trans ?_
  refine (Option.bind_of_some (Components.setMinute_eq hminute (by simp))).trans ?_
  refine (Option.bind_of_some (Components.setSecond_eq hsecond (by simp))).trans ?_
  refine (Option.bind_of_some (readFraction?_fractionText t.fraction_lt rfl)).trans ?_
  refine (Option.bind_of_some (show readOffset? ['Z'] = some 0 from rfl)).trans ?_
  refine (Option.bind_of_some (Components.setOffset_eq (by simp))).trans ?_
  rw [Components.moment?]
  refine (Option.bind_of_some rfl).trans ?_
  rw [if_pos (by decide)]
  have hyear : (t.date.year.toNat : Int) = t.date.year := by omega
  refine Components.onClock?_eq_self ?_ ⟨rfl, rfl, rfl, fun _ => rfl⟩ rfl ?_
  · simp [Components.date?, Components.fullYear?, hyear, t.of?_date]
  · by_cases hfraction : t.fraction = 0 <;> simp [hfraction]

/-- A year with a sign is not read. -/
theorem ofRfc3339?_eq_none {t : Instant} (h : ¬ (0 ≤ t.date.year ∧ t.date.year ≤ 9999)) :
    ofRfc3339? t.rfc3339Chars = none := by
  have hnumber (c : Char) (hc : c.isDigit = false) (s : List Char) :
      number? 4 4 (c :: s) = none := by
    simp [number?, hc]
  rw [rfc3339Chars, Date.yearText, if_neg h]
  simp only [List.append_assoc, List.cons_append]
  rw [ofRfc3339?, hnumber _ (by split <;> rfl)]
  rfl

end Instant

end Catalogue
