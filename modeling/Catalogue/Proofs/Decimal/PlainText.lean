import Catalogue.Json.Text
import Catalogue.Value
import Mathlib.Data.List.Basic

/-!
# The two texts of a floating point number

A floating point number has a text in JSON and a plain text. Both have the fewest digits that
identify the number, but JSON marks a number that is whole, takes an exponent for sizes far from
one, and settles a tie between two shortest decimals the other way.

`Binary64.SameText` : the numbers for which this makes no difference. `Json.floatText_eq_iff` : for
a finite number it is the exact condition.
-/

namespace Catalogue

/-! ## Digits -/

namespace Text

theorem digits_ne_nil (n : Nat) : digits n ≠ [] := by
  rw [digits]
  split <;> simp

theorem exists_digit_of_mem_digits {n : Nat} {c : Char} (h : c ∈ digits n) :
    ∃ d < 10, c = digit d := by
  fun_induction digits n with
  | case1 n hn => exact ⟨n, hn, List.mem_singleton.mp h⟩
  | case2 n hn ih =>
    rcases List.mem_append.mp h with h | h
    · exact ih h
    · exact ⟨n % 10, Nat.mod_lt _ (by omega), List.mem_singleton.mp h⟩

theorem not_mem_digits {n : Nat} {c : Char} (h : digitValue? c = none) : c ∉ digits n := by
  intro hc
  obtain ⟨d, hd, rfl⟩ := exists_digit_of_mem_digits hc
  rw [digitValue?_digit hd] at h
  exact absurd h nofun

theorem getLast?_digits (n : Nat) : (digits n).getLast? = some (digit (n % 10)) := by
  rw [digits]
  split
  case isTrue h => rw [Nat.mod_eq_of_lt h]; rfl
  case isFalse => simp

theorem readDigits_replicate_zero (k : Nat) (s : List Char) :
    readDigits 0 (List.replicate k '0' ++ s) = readDigits 0 s := by
  induction k with
  | zero => rfl
  | succ k ih => exact ih

theorem digit_eq_zero_iff {d : Nat} (h : d < 10) : digit d = '0' ↔ d = 0 := by
  constructor
  · intro hd
    have := digitValue?_digit h
    rw [hd] at this
    exact (Option.some.inj this).symm
  · rintro rfl
    rfl

end Text

/-! ## Layouts -/

namespace Decimal

theorem not_mem_positional {d : Decimal} {c : Char} (hc : Text.digitValue? c = none)
    (hpoint : c ≠ '.') : c ∉ d.positional := by
  have hdigits : c ∉ Text.digits d.digits := Text.not_mem_digits hc
  have hzero : c ≠ '0' := by
    rintro rfl
    exact absurd hc (by decide)
  have htake (n : Nat) : c ∉ (Text.digits d.digits).take n :=
    fun h => hdigits (List.mem_of_mem_take h)
  have hdrop (n : Nat) : c ∉ (Text.digits d.digits).drop n :=
    fun h => hdigits (List.mem_of_mem_drop h)
  unfold positional
  simp only
  split
  · simp [hdigits, hzero]
  · split <;> simp [hdigits, hzero, hpoint, htake, hdrop]

theorem point_not_mem_positional {d : Decimal} (h : 0 ≤ d.exponent) : '.' ∉ d.positional := by
  have hdigits : '.' ∉ Text.digits d.digits := Text.not_mem_digits (by decide)
  rw [positional, if_pos h]
  simp [hdigits]

/-- A decimal with a fraction is cut at its point into two parts that together have its digits, and
the second one has as many as the exponent says. -/
theorem positional_of_neg {d : Decimal} (h : d.exponent < 0) :
    ∃ whole fraction, d.positional = whole ++ '.' :: fraction ∧ '.' ∉ whole ∧
      '.' ∉ fraction ∧ (fraction.length : Int) = -d.exponent ∧
      Text.readDigits 0 (whole ++ fraction) = some d.digits ∧
      fraction.getLast? = some (Text.digit (d.digits % 10)) := by
  have hdigits : '.' ∉ Text.digits d.digits := Text.not_mem_digits (by decide)
  have hlast := Text.getLast?_digits d.digits
  unfold positional
  simp only
  rw [if_neg (by omega)]
  by_cases hp : (-d.exponent).toNat < (Text.digits d.digits).length
  · rw [if_pos hp]
    refine ⟨_, _, rfl, fun hm => hdigits (List.mem_of_mem_take hm),
      fun hm => hdigits (List.mem_of_mem_drop hm), ?_, ?_, ?_⟩
    · rw [List.length_drop]
      omega
    · rw [List.take_append_drop, Text.readDigits_digits]
    · rw [List.getLast?_drop, if_neg (by omega), hlast]
  · rw [if_neg hp]
    refine ⟨['0'], List.replicate _ '0' ++ Text.digits d.digits, rfl, by decide,
      by simp [hdigits], ?_, ?_, ?_⟩
    · rw [List.length_append, List.length_replicate]
      omega
    · exact (Text.readDigits_replicate_zero 1 _).trans
        ((Text.readDigits_replicate_zero _ _).trans (Text.readDigits_digits _))
    · rw [List.getLast?_append, hlast]
      rfl

theorem getLast?_positional {d : Decimal} (h : d.exponent < 0) :
    d.positional.getLast? = some (Text.digit (d.digits % 10)) := by
  obtain ⟨whole, fraction, hp, -, -, -, -, hlast⟩ := positional_of_neg h
  rw [hp, List.getLast?_append, List.getLast?_cons, hlast]
  rfl

theorem positional_ne_nil (d : Decimal) : d.positional ≠ [] := by
  have hdigits := Text.digits_ne_nil d.digits
  unfold positional
  simp only
  split
  · simp [hdigits]
  · split <;> simp

/-- Two decimals with a fraction that look the same are the same. -/
theorem eq_of_positional_eq {d e : Decimal} (hd : d.exponent < 0) (he : e.exponent < 0)
    (h : d.positional = e.positional) : d = e := by
  obtain ⟨whole, fraction, hdp, hwhole, hfraction, hdlen, hdread, -⟩ := positional_of_neg hd
  obtain ⟨whole', fraction', hep, -, -, helen, heread, -⟩ := positional_of_neg he
  rw [hdp, hep] at h
  obtain ⟨rfl, -, rfl⟩ := (List.append_cons_inj_of_notMem hwhole hfraction).mp h
  have hexponent : d.exponent = e.exponent := by omega
  have hdigits : d.digits = e.digits := Option.some.inj (hdread.symm.trans heread)
  cases d
  cases e
  exact congrArg₂ Decimal.mk hdigits hexponent

theorem mod_ten_strip {digits : Nat} (h : digits ≠ 0) (exponent : Int) :
    (strip digits exponent).digits % 10 ≠ 0 := by
  fun_induction strip digits exponent with
  | case1 digits exponent hz ih => exact ih (by omega)
  | case2 digits exponent hz => exact fun hm => hz ⟨h, hm⟩

theorem e_mem_scientific (d : Decimal) : 'e' ∈ d.scientific := by
  simp [scientific]

end Decimal

/-! ## The last digit of a shortest decimal -/

namespace Binary64

theorem readsBack_zero {x : Binary64} (h : x.coefficient ≠ 0) (exponent : Int) :
    x.readsBack 0 exponent = false := by
  have hpow (n k : Nat) (hn : 0 < n) : 0 < Nat.pow n k := Nat.pow_pos hn
  have hlow : 0 < (if x.narrowBelow then 4 * x.coefficient - 1 else 4 * x.coefficient - 2) := by
    split <;> omega
  have hbelow : Decimal.compareBinary 0 exponent
      (if x.narrowBelow then 4 * x.coefficient - 1 else 4 * x.coefficient - 2) (x.scale - 2) =
        .lt := by
    rw [Decimal.compareBinary, Nat.zero_mul, Nat.zero_mul, Nat.compare_eq_lt]
    exact Nat.mul_pos (Nat.mul_pos hlow (hpow 2 _ (by omega))) (hpow 10 _ (by omega))
  unfold readsBack
  simp only
  rw [hbelow]
  simp

theorem mod_ten_onGrid? {x : Binary64} (h : x.coefficient ≠ 0) {tie : Tie} {exponent : Int}
    {d : Decimal} (hd : x.onGrid? tie exponent = some d) : d.digits % 10 ≠ 0 := by
  have hlow : x.readsBack (x.quotient exponent) exponent = true → x.quotient exponent ≠ 0 := by
    intro hr hz
    rw [hz, readsBack_zero h] at hr
    exact absurd hr nofun
  have hhigh : x.quotient exponent + 1 ≠ 0 := by omega
  unfold onGrid? at hd
  simp only at hd
  split at hd
  case h_1 => exact absurd hd nofun
  case h_2 hr _ =>
    obtain rfl := Option.some.inj hd
    exact Decimal.mod_ten_strip (hlow hr) _
  case h_3 =>
    obtain rfl := Option.some.inj hd
    exact Decimal.mod_ten_strip hhigh _
  case h_4 hr _ =>
    have hstrip : d = Decimal.strip (x.quotient exponent) exponent ∨
        d = Decimal.strip (x.quotient exponent + 1) exponent := by
      split at hd
      · exact Or.inl (Option.some.inj hd).symm
      · exact Or.inr (Option.some.inj hd).symm
      · split at hd
        · exact Or.inl (Option.some.inj hd).symm
        · exact Or.inr (Option.some.inj hd).symm
    rcases hstrip with rfl | rfl
    · exact Decimal.mod_ten_strip (hlow hr) _
    · exact Decimal.mod_ten_strip hhigh _

/-- A shortest decimal does not end in zero. -/
theorem mod_ten_shortest {x : Binary64} (h : x.coefficient ≠ 0) (tie : Tie) :
    (x.shortest tie).digits % 10 ≠ 0 := by
  unfold shortest
  simp only
  cases hd : (List.range 17).findSome? fun n : Nat => x.onGrid? tie (x.decimalScale - (n + 1)) with
  | none =>
    refine Decimal.mod_ten_strip ?_ _
    have htwo : Nat.pow 2 x.scale.toNat ≠ 0 := Nat.ne_of_gt (Nat.pow_pos (by decide))
    have hfive : Nat.pow 5 (-x.scale).toNat ≠ 0 := Nat.ne_of_gt (Nat.pow_pos (by decide))
    exact Nat.mul_ne_zero (Nat.mul_ne_zero h htwo) hfive
  | some d =>
    obtain ⟨n, -, hn⟩ := List.exists_of_findSome?_eq_some hd
    exact mod_ten_onGrid? h hn

/-! ## Numbers with one text -/

/-- The number has a fraction, a size for which JSON needs no exponent, and one shortest decimal
that both ways to settle a tie agree on. -/
def SameText (x : Binary64) : Prop :=
  x.coefficient ≠ 0 ∧ (x.shortest .toEven).exponent < 0 ∧
    -5 ≤ (x.shortest .toEven).leadingExponent ∧ (x.shortest .toEven).leadingExponent ≤ 15 ∧
    x.shortest .toEven = x.shortest .away

instance (x : Binary64) : Decidable x.SameText :=
  inferInstanceAs (Decidable (_ ∧ _ ∧ _ ∧ _ ∧ _))

theorem isNaN_of_isFinite {x : Binary64} (h : x.isFinite) : x.isNaN = false := by
  simp only [isFinite, bne_iff_ne] at h
  simp [isNaN, h]

end Binary64

theorem Value.floatText_of_ne_zero {x : Binary64} (h : x.isFinite) (hc : x.coefficient ≠ 0) :
    floatText x = (if x.isNegative then ['-'] else []) ++ (x.shortest .away).positional := by
  simp [floatText, Binary64.isNaN_of_isFinite h, h, hc]

namespace Json

/-- What JSON writes of the decimal of a number. -/
def decimalText (d : Decimal) : List Char :=
  if -5 ≤ d.leadingExponent ∧ d.leadingExponent ≤ 15 then
    d.positional ++ (if 0 ≤ d.exponent then ['.', '0'] else [])
  else d.scientific

/-- What JSON writes of a decimal is a plain layout exactly if the decimal has a fraction and JSON
needs no exponent, and then it is the layout of the same decimal. -/
theorem decimalText_eq_positional_iff (d : Decimal) {e : Decimal} (he : e.digits % 10 ≠ 0) :
    decimalText d = e.positional ↔
      d.exponent < 0 ∧ -5 ≤ d.leadingExponent ∧ d.leadingExponent ≤ 15 ∧ d = e := by
  unfold decimalText
  split
  case isFalse hrange =>
    refine iff_of_false (fun h => ?_) (fun h => hrange ⟨h.2.1, h.2.2.1⟩)
    have hmem := d.e_mem_scientific
    rw [h] at hmem
    exact Decimal.not_mem_positional (by decide) (by decide) hmem
  case isTrue hrange =>
    by_cases hd : d.exponent < 0
    · rw [if_neg (by omega), List.append_nil]
      refine ⟨fun h => ⟨hd, hrange.1, hrange.2, ?_⟩, fun h => congrArg _ h.2.2.2⟩
      refine Decimal.eq_of_positional_eq hd (Int.not_le.mp fun hn => ?_) h
      obtain ⟨whole, fraction, hp, -⟩ := Decimal.positional_of_neg hd
      refine Decimal.point_not_mem_positional hn ?_
      rw [← h, hp]
      simp
    · rw [if_pos (by omega)]
      refine iff_of_false (fun h => ?_) (fun h => hd h.1)
      -- the left text ends in a point and a zero, so the right one would have a zero last
      by_cases hn : 0 ≤ e.exponent
      · refine Decimal.point_not_mem_positional hn ?_
        rw [← h]
        simp
      · have hlast := Decimal.getLast?_positional (Int.not_le.mp hn)
        rw [← h, List.getLast?_append] at hlast
        have hzero : Text.digit (e.digits % 10) = '0' := (Option.some.inj hlast).symm
        exact he ((Text.digit_eq_zero_iff (Nat.mod_lt _ (by omega))).mp hzero)

theorem floatText_of_ne_zero {x : Binary64} (h : x.coefficient ≠ 0) :
    floatText x = (if x.isNegative then ['-'] else []) ++ decimalText (x.shortest .toEven) := by
  unfold floatText decimalText
  simp only [if_neg h]
  split
  · rw [List.append_assoc]
  · rfl

/-- A finite number has one text exactly under the conditions of `Binary64.SameText`. -/
theorem floatText_eq_iff {x : Binary64} (h : x.isFinite) :
    floatText x = Value.floatText x ↔ x.SameText := by
  by_cases hc : x.coefficient = 0
  · have hnan : x.isNaN = false := Binary64.isNaN_of_isFinite h
    refine iff_of_false ?_ (fun hs => hs.1 hc)
    simp [floatText, Value.floatText, hc, hnan, h]
  · rw [floatText_of_ne_zero hc, Value.floatText_of_ne_zero h hc, List.append_right_inj,
      decimalText_eq_positional_iff _ (Binary64.mod_ten_shortest hc .away), Binary64.SameText,
      and_iff_right hc]

end Json

end Catalogue
