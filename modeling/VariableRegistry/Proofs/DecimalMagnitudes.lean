/-
# The magnitude of a decimal

A decimal is read as the magnitude nearest to its value, however it is written: the shortcuts for
very large and very small decimals give what rounding gives. So a decimal that stands for the number
of a word is read as this word, and the shortest decimal of a word is read as the word.
-/
import VariableRegistry.Float.Decimal
import VariableRegistry.Proofs.FloatMagnitudes
import VariableRegistry.Proofs.NearestMagnitudes

namespace VariableRegistry

/-! ## Values -/

namespace Decimal

variable {d d' : Decimal} {l : FloatLayout}

/-- The number that a decimal stands for. -/
def value (d : Decimal) : ℚ := d.digits * 10 ^ d.exponent

theorem denominator_ne_zero (d : Decimal) : d.denominator ≠ 0 :=
  Nat.pos_iff_ne_zero.1 (Nat.pow_pos (by decide))

theorem numerator_div_denominator (d : Decimal) :
    (d.numerator : ℚ) / d.denominator = d.value := by
  rw [numerator, denominator, value, zpow_eq_div (by norm_num)]
  push_cast
  rw [mul_div_assoc]

/-- Zeros at the end of the digits count nothing. -/
theorem value_normalize (d : Decimal) : d.normalize.value = d.value := by
  fun_induction normalize d with
  | case1 d hzero => simp [value, hzero]
  | case2 d hpos hten ih =>
    rw [ih, value, value]
    have hdigits : (d.digits : ℚ) = (d.digits / 10 : Nat) * 10 := by
      exact_mod_cast (Nat.div_mul_cancel (Nat.dvd_of_mod_eq_zero hten)).symm
    rw [hdigits, zpow_add_one₀ (by norm_num)]
    ring
  | case3 d hpos hten => rfl

/-! ## The leading digit -/

theorem digits_lt (d : Decimal) : d.digits < 10 ^ d.length :=
  (Nat.length_toDigits_le_iff (by decide) Nat.length_toDigits_pos).1 le_rfl

theorem pow_le_digits (h : d.digits ≠ 0) : 10 ^ (d.length - 1) ≤ d.digits := by
  rcases Nat.eq_zero_or_pos (d.length - 1) with hone | hpos
  · rw [hone]
    exact Nat.pos_of_ne_zero h
  · by_contra hlt
    have hlength := (Nat.length_toDigits_le_iff (by decide) hpos).2 (Nat.not_le.1 hlt)
    rw [← length] at hlength
    omega

/-- The place of the leading digit tells between which powers of ten a decimal lies. -/
theorem leading_spec (h : d.digits ≠ 0) :
    (10 : ℚ) ^ d.leading ≤ d.value ∧ d.value < 10 ^ (d.leading + 1) := by
  have hten : (10 : ℚ) ≠ 0 := by norm_num
  have hpos : (0 : ℚ) < 10 ^ d.exponent := by positivity
  have hlength : 0 < d.length := Nat.length_toDigits_pos
  constructor
  · have hlow : ((10 ^ (d.length - 1) : Nat) : ℚ) ≤ d.digits := by exact_mod_cast pow_le_digits h
    calc (10 : ℚ) ^ d.leading = (10 ^ (d.length - 1) : Nat) * 10 ^ d.exponent := by
          rw [Nat.cast_pow, Nat.cast_ofNat, ← zpow_natCast, ← zpow_add₀ hten, leading]
          congr 1
          omega
      _ ≤ d.value := mul_le_mul_of_nonneg_right hlow hpos.le
  · have hhigh : (d.digits : ℚ) < (10 ^ d.length : Nat) := by exact_mod_cast d.digits_lt
    calc d.value < (10 ^ d.length : Nat) * 10 ^ d.exponent :=
          mul_lt_mul_of_pos_right hhigh hpos
      _ = 10 ^ (d.leading + 1) := by
          rw [Nat.cast_pow, Nat.cast_ofNat, ← zpow_natCast, ← zpow_add₀ hten, leading]
          congr 1
          omega

/-! ## Rounding -/

variable (hl : l.ReachesWhole)
include hl

/-- **The shortcuts are sound**: whatever its size, a decimal is read as the magnitude to which its
value is rounded. -/
theorem magnitude_eq (d : Decimal) :
    d.magnitude l = l.magnitudeOfRatio d.numerator d.denominator := by
  have hvalue := d.numerator_div_denominator
  have hden := d.denominator_ne_zero
  rw [magnitude]
  by_cases hzero : d.digits = 0
  · rw [if_pos hzero, numerator, hzero, Nat.zero_mul, FloatLayout.magnitudeOfRatio, if_pos rfl]
  rw [if_neg hzero]
  obtain ⟨hlow, hhigh⟩ := leading_spec hzero
  split
  · next hlarge =>
    symm
    apply hl.magnitudeOfRatio_of_le hden
    rw [hvalue]
    have hplace : (l.bias : ℤ) ≤ 3 * d.leading := by
      rw [FloatLayout.bias, Nat.cast_pow]
      exact hlarge.le
    calc (2 : ℚ) ^ l.bias ≤ 2 ^ (3 * d.leading) := by
          rw [← zpow_natCast]
          exact zpow_le_zpow_right₀ one_le_two hplace
      _ = (2 ^ 3) ^ d.leading := by rw [zpow_mul]; rfl
      _ ≤ 10 ^ d.leading := zpow_le_zpow_left₀ (by omega) (by norm_num) (by norm_num)
      _ ≤ d.value := hlow
  · split
    · next hsmall =>
      symm
      apply FloatLayout.magnitudeOfRatio_of_lt hden
      rw [hvalue]
      have hmin : l.minExponent ≤ 0 := by
        rw [FloatLayout.minExponent_eq]
        unfold FloatLayout.ReachesWhole at hl
        omega
      obtain ⟨n, hn⟩ : ∃ n : Nat, d.leading + 1 = -n := ⟨(-(d.leading + 1)).toNat, by omega⟩
      calc d.value < 10 ^ (d.leading + 1) := hhigh
        _ ≤ (2 ^ 3) ^ (d.leading + 1) := by
          rw [hn, zpow_neg, zpow_neg, zpow_natCast, zpow_natCast]
          exact inv_anti₀ (by positivity) (pow_le_pow_left₀ (by norm_num) (by norm_num) n)
        _ = 2 ^ (3 * (d.leading + 1)) := by rw [zpow_mul]; rfl
        _ ≤ 2 ^ (l.minExponent - 1) := zpow_le_zpow_right₀ one_le_two (by omega)
    · rfl

/-- What a decimal is read as depends on its value only. -/
theorem magnitude_congr (h : d.value = d'.value) : d.magnitude l = d'.magnitude l := by
  rw [magnitude_eq hl, magnitude_eq hl, FloatLayout.magnitudeOfRatio_eq_min,
    FloatLayout.magnitudeOfRatio_eq_min]
  congr 1
  apply FloatLayout.nearest_congr d.denominator_ne_zero d'.denominator_ne_zero
  rw [numerator_div_denominator, numerator_div_denominator, h]

/-- A decimal with the value of a number is read as this number. -/
theorem magnitude_of_value {m : Nat} (hm : m < l.infinity) (h : d.value = l.value m) :
    d.magnitude l = m := by
  rw [magnitude_eq hl, FloatLayout.magnitudeOfRatio_eq_min,
    FloatLayout.nearest_of_value d.denominator_ne_zero (d.numerator_div_denominator.trans h)]
  exact Nat.min_eq_right hm.le

end Decimal

/-! ## Words -/

namespace FloatWord

variable {l : FloatLayout} {x : FloatWord l}

/-- A word is finite if it lies below the infinity. -/
def IsFinite (x : FloatWord l) : Prop := x.magnitude < l.infinity

theorem isFinite_iff : x.IsFinite ↔ x.isNaN = false ∧ x.isInfinite = false := by
  simp only [IsFinite, isNaN, isInfinite, decide_eq_false_iff_not]
  omega

theorem denominator_ne_zero (x : FloatWord l) : x.denominator ≠ 0 :=
  Nat.pos_iff_ne_zero.1 (Nat.pow_pos (by decide))

theorem value_magnitude (x : FloatWord l) :
    l.value x.magnitude = x.significand * 2 ^ x.exponent := by
  rw [FloatLayout.value, FloatLayout.units, exponent, zpow_add₀ two_ne_zero, zpow_natCast,
    significand]
  push_cast
  ring

theorem numerator_div_denominator (x : FloatWord l) :
    (x.numerator : ℚ) / x.denominator = l.value x.magnitude := by
  rw [numerator, denominator, value_magnitude, zpow_eq_div two_ne_zero]
  push_cast
  rw [mul_div_assoc]

theorem value_exactDecimal (x : FloatWord l) : x.exactDecimal.value = l.value x.magnitude := by
  rw [value_magnitude, exactDecimal]
  split
  · next h =>
    rw [Decimal.value, zpow_zero, mul_one]
    push_cast
    rw [← zpow_natCast, Int.toNat_of_nonneg h]
  · next h =>
    obtain ⟨n, hn⟩ : ∃ n : Nat, x.exponent = -n := ⟨(-x.exponent).toNat, by omega⟩
    rw [Decimal.value, hn, Int.neg_neg, Int.toNat_natCast, zpow_neg, zpow_neg, zpow_natCast,
      zpow_natCast, show (10 : ℚ) = 2 * 5 by norm_num, mul_pow]
    push_cast
    field_simp

/-- The decimal that is chosen at a place is read as the word. -/
theorem magnitude_of_decimalAt {tie : TieRule} {place : Int} {d : Decimal}
    (h : x.decimalAt tie place = some d) : d.magnitude l = x.magnitude := by
  unfold decimalAt at h
  split at h
  next count num den _ =>
  simp only at h
  split at h
  · next hlow hhigh =>
    -- both neighbours are read as the word, and the tie decides
    rw [decide_eq_true_eq] at hlow hhigh
    cases h
    split <;> assumption
  · next hlow _ =>
    cases h
    exact of_decide_eq_true hlow
  · next _ hhigh =>
    cases h
    exact of_decide_eq_true hhigh
  · cases h

/-- **The shortest decimal of a number is read as the number.** -/
theorem magnitude_shortest (hl : l.ReachesWhole) (tie : TieRule) (hx : x.IsFinite) :
    (x.shortest tie).magnitude l = x.magnitude := by
  rw [shortest, Decimal.magnitude_congr hl (Decimal.value_normalize _)]
  cases hfound : (List.range l.fracBits).findSome? fun n =>
      x.decimalAt tie (x.exactDecimal.leading - (n : Nat)) with
  | some d =>
    obtain ⟨n, -, hd⟩ := List.exists_of_findSome?_eq_some hfound
    exact magnitude_of_decimalAt hd
  | none => exact Decimal.magnitude_of_value hl hx x.value_exactDecimal

end FloatWord

end VariableRegistry
