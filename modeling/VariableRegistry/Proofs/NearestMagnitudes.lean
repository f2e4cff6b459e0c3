/-
# Rounding to the nearest magnitude

A quotient is rounded to the magnitude whose number is nearest to it, as if the exponents went on
beyond the largest number; what lies beyond that number becomes the infinity. So the number of a
magnitude is rounded to this magnitude, and all that counts of a quotient is its value.
-/
import Mathlib.Algebra.Order.Field.Power
import Mathlib.Data.Rat.Floor
import Mathlib.Tactic.FieldSimp
import Mathlib.Tactic.GCongr
import Mathlib.Tactic.Linarith
import Mathlib.Tactic.Positivity
import Mathlib.Tactic.Ring
import VariableRegistry.Float.Rounding

namespace VariableRegistry

/-! ## Rounding to whole numbers -/

/-- A whole number is nearest to `q`, and even where its neighbour is as near. -/
structure RoundsTo (q : ℚ) (n : Nat) : Prop where
  near : |q - n| ≤ 1 / 2
  even : |q - n| = 1 / 2 → n % 2 = 0

section

variable {q q' : ℚ} {n n' : Nat}

/-- A larger number is not rounded to a smaller one. -/
theorem RoundsTo.mono (h : RoundsTo q n) (h' : RoundsTo q' n') (hq : q ≤ q') : n ≤ n' := by
  by_contra hlt
  have hsucc : (n' : ℚ) + 1 ≤ n := by exact_mod_cast Nat.not_le.1 hlt
  obtain ⟨hlow, -⟩ := abs_le.1 h.near
  obtain ⟨-, hhigh'⟩ := abs_le.1 h'.near
  -- both lie halfway between the two, which would have to be even
  have htie : q - n = -(1 / 2) := by linarith
  have htie' : q' - n' = 1 / 2 := by linarith
  have heven := h.even (by rw [htie]; norm_num)
  have heven' := h'.even (by rw [htie']; norm_num)
  have hnext : n = n' + 1 := by
    have : (n : ℚ) = n' + 1 := by linarith
    exact_mod_cast this
  omega

theorem RoundsTo.unique (h : RoundsTo q n) (h' : RoundsTo q n') : n = n' :=
  le_antisymm (h.mono h' le_rfl) (h'.mono h le_rfl)

/-- No whole number is nearer. -/
theorem RoundsTo.nearest (h : RoundsTo q n) (m : Nat) : |q - n| ≤ |q - m| := by
  rcases eq_or_ne m n with rfl | hne
  · exact le_rfl
  · have hone : (1 : ℚ) ≤ |(m : ℚ) - n| := by
      have : (1 : ℤ) ≤ |(m : ℤ) - n| := Int.one_le_abs (by omega)
      exact_mod_cast this
    have htriangle := abs_sub_le (m : ℚ) q n
    rw [abs_sub_comm (m : ℚ) q] at htriangle
    linarith [h.near]

theorem roundsTo_natCast (n : Nat) : RoundsTo n n where
  near := by rw [sub_self, abs_zero]; norm_num
  even := by rw [sub_self, abs_zero]; norm_num

theorem roundsTo_divHalfEven (num : Nat) {den : Nat} (hden : 0 < den) :
    RoundsTo (num / den) (divHalfEven num den) := by
  have hpos : (0 : ℚ) < den := by exact_mod_cast hden
  obtain ⟨part, hpart⟩ : ∃ part : ℚ, (num % den : Nat) / (den : ℚ) = part := ⟨_, rfl⟩
  have hsplit : (num : ℚ) / den = (num / den : Nat) + part := by
    have hnum : (den : ℚ) * (num / den : Nat) + (num % den : Nat) = num := by
      exact_mod_cast Nat.div_add_mod num den
    rw [← hpart, ← hnum]
    field_simp
  have hlow : 0 ≤ part := hpart ▸ by positivity
  have hhigh : part < 1 := by
    rw [← hpart, div_lt_one hpos]
    exact_mod_cast Nat.mod_lt num hden
  have hbelow : 2 * (num % den) < den ↔ part < 1 / 2 := by
    rw [← hpart, div_lt_iff₀ hpos, ← Nat.cast_lt (α := ℚ)]
    push_cast
    constructor <;> intro h <;> linarith
  have habove : den < 2 * (num % den) ↔ 1 / 2 < part := by
    rw [← hpart, lt_div_iff₀ hpos, ← Nat.cast_lt (α := ℚ)]
    push_cast
    constructor <;> intro h <;> linarith
  simp only [divHalfEven, hbelow, habove, hsplit]
  generalize num / den = n
  split
  · next hlt =>
    rw [← abs_of_nonneg hlow] at hlt
    constructor <;> rw [add_sub_cancel_left]
    · exact hlt.le
    · exact fun htie => absurd htie hlt.ne
  · next hge =>
    split
    · next hgt =>
      have hdistance : |(n : ℚ) + part - (n + 1 : Nat)| = 1 - part := by
        rw [abs_sub_comm, abs_of_nonneg] <;> push_cast <;> linarith
      constructor <;> rw [hdistance]
      · linarith
      · exact fun htie => by linarith
    · next hle =>
      -- a half goes to the even one of the two
      obtain rfl : part = 1 / 2 := le_antisymm (not_lt.1 hle) (not_lt.1 hge)
      have hdistance : |(n : ℚ) + 1 / 2 - (n + n % 2 : Nat)| = 1 / 2 := by
        rcases Nat.mod_two_eq_zero_or_one n with hn | hn <;> rw [hn] <;> push_cast <;> norm_num
      exact ⟨hdistance.le, fun _ => by omega⟩

end

/-! ## Powers of two -/

/-- A power with a whole exponent as a quotient of powers with natural ones. -/
theorem zpow_eq_div {b : ℚ} (hb : b ≠ 0) (e : ℤ) : b ^ e = b ^ e.toNat / b ^ (-e).toNat := by
  rw [eq_div_iff (pow_ne_zero _ hb), ← zpow_natCast, ← zpow_natCast, ← zpow_add₀ hb]
  congr 1
  omega

/-- The exponent of a quotient tells between which powers of two it lies. -/
theorem ratioLog2_spec {num den : Nat} (hnum : num ≠ 0) (hden : den ≠ 0) :
    (2 : ℚ) ^ ratioLog2 num den ≤ num / den ∧ (num : ℚ) / den < 2 ^ (ratioLog2 num den + 1) := by
  have hpos : (0 : ℚ) < den := by exact_mod_cast Nat.pos_of_ne_zero hden
  obtain ⟨e, he⟩ : ∃ e : ℤ, (Nat.log2 num : ℤ) - Nat.log2 den = e := ⟨_, rfl⟩
  have hnumLow : (2 : ℚ) ^ num.log2 ≤ num := by exact_mod_cast Nat.log2_self_le hnum
  have hnumHigh : (num : ℚ) < 2 ^ (num.log2 + 1) := by exact_mod_cast Nat.lt_log2_self
  have hdenLow : (2 : ℚ) ^ den.log2 ≤ den := by exact_mod_cast Nat.log2_self_le hden
  have hdenHigh : (den : ℚ) < 2 ^ (den.log2 + 1) := by exact_mod_cast Nat.lt_log2_self
  have hlow : (2 : ℚ) ^ (e - 1) ≤ num / den := by
    rw [le_div_iff₀ hpos]
    calc (2 : ℚ) ^ (e - 1) * den ≤ 2 ^ (e - 1) * 2 ^ (den.log2 + 1) := by gcongr
      _ = 2 ^ num.log2 := by
        rw [← zpow_natCast, ← zpow_natCast, ← zpow_add₀ two_ne_zero]
        congr 1
        push_cast
        omega
      _ ≤ num := hnumLow
  have hhigh : (num : ℚ) / den < 2 ^ (e + 1) := by
    rw [div_lt_iff₀ hpos]
    calc (num : ℚ) < 2 ^ (num.log2 + 1) := hnumHigh
      _ = 2 ^ (e + 1) * 2 ^ den.log2 := by
        rw [← zpow_natCast, ← zpow_natCast, ← zpow_add₀ two_ne_zero]
        congr 1
        push_cast
        omega
      _ ≤ 2 ^ (e + 1) * den := by gcongr
  have hcheck : den * 2 ^ e.toNat ≤ num * 2 ^ (-e).toNat ↔ (2 : ℚ) ^ e ≤ num / den := by
    rw [zpow_eq_div two_ne_zero, div_le_div_iff₀ (by positivity) hpos, mul_comm den]
    exact_mod_cast Iff.rfl
  simp only [ratioLog2, he, hcheck]
  split
  · next h => exact ⟨h, hhigh⟩
  · next h => exact ⟨hlow, by rw [sub_add_cancel]; exact not_le.1 h⟩

namespace FloatLayout

variable (l : FloatLayout)

/-! ## Numbers of magnitudes -/

/-- The number with a magnitude, counted in the smallest positive number. -/
def units (m : Nat) : Nat :=
  (if m < 2 ^ l.fracBits then m else m % 2 ^ l.fracBits + 2 ^ l.fracBits) *
    2 ^ (m / 2 ^ l.fracBits - 1)

/-- The number with a magnitude, were the exponents to go on beyond the largest number. -/
def value (m : Nat) : ℚ := l.units m * 2 ^ l.minExponent

variable {l}

/-- Magnitudes are counted through the places of one exponent after the other. -/
theorem units_place {k n : Nat} (hk : k = 0 ∨ 2 ^ l.fracBits ≤ n) (hn : n ≤ 2 ^ (l.fracBits + 1)) :
    l.units (k * 2 ^ l.fracBits + n) = n * 2 ^ k := by
  have hpos : 0 < 2 ^ l.fracBits := Nat.two_pow_pos _
  rw [Nat.pow_succ] at hn
  rw [units]
  generalize 2 ^ l.fracBits = b at *
  rcases Nat.lt_or_ge n b with hlow | hlow
  · obtain rfl := hk.resolve_right (Nat.not_le.2 hlow)
    rw [Nat.zero_mul, Nat.zero_add, if_pos hlow, Nat.div_eq_of_lt hlow]
  · rw [if_neg (by omega)]
    rcases Nat.lt_or_ge n (2 * b) with hhigh | hhigh
    · have hsplit : k * b + n = (n - b) + b * (k + 1) := by rw [Nat.mul_succ, Nat.mul_comm]; omega
      rw [hsplit, Nat.add_mul_mod_self_left, Nat.add_mul_div_left _ _ hpos,
        Nat.mod_eq_of_lt (by omega), Nat.div_eq_of_lt (by omega)]
      congr 2 <;> omega
    · -- all places of the exponent are taken: this is the first place of the next one
      obtain rfl : n = b * 2 := by omega
      have hsplit : k * b + b * 2 = b * (k + 2) := by rw [Nat.mul_add, Nat.mul_comm]
      rw [hsplit, Nat.mul_mod_right, Nat.mul_div_cancel_left _ hpos, Nat.zero_add,
        show k + 2 - 1 = k + 1 by omega, Nat.pow_succ, Nat.mul_assoc, Nat.mul_comm 2]

/-- Every magnitude is a place of some exponent. -/
theorem exists_place (l : FloatLayout) (m : Nat) :
    ∃ k n, (k = 0 ∨ 2 ^ l.fracBits ≤ n) ∧ n < 2 ^ (l.fracBits + 1) ∧
      m = k * 2 ^ l.fracBits + n := by
  have hpos : 0 < 2 ^ l.fracBits := Nat.two_pow_pos _
  have hsplit := Nat.div_add_mod m (2 ^ l.fracBits)
  have hrest := Nat.mod_lt m hpos
  rw [Nat.pow_succ]
  generalize 2 ^ l.fracBits = b at *
  cases hk : m / b with
  | zero =>
    rw [hk, Nat.mul_zero] at hsplit
    exact ⟨0, m, .inl rfl, by omega, by omega⟩
  | succ k =>
    rw [hk, Nat.mul_succ, Nat.mul_comm] at hsplit
    exact ⟨k, b + m % b, .inr (Nat.le_add_right _ _), by omega, by omega⟩

theorem units_lt_succ (m : Nat) : l.units m < l.units (m + 1) := by
  obtain ⟨k, n, hk, hn, rfl⟩ := l.exists_place m
  rw [Nat.add_assoc, units_place hk hn.le, units_place (hk.imp_right fun h => by omega) hn]
  exact Nat.mul_lt_mul_of_pos_right (Nat.lt_succ_self n) (Nat.two_pow_pos k)

theorem value_strictMono (l : FloatLayout) : StrictMono l.value := by
  refine strictMono_nat_of_lt_succ fun m => ?_
  have hunits : (l.units m : ℚ) < l.units (m + 1) := by exact_mod_cast units_lt_succ m
  exact mul_lt_mul_of_pos_right hunits (by positivity)

@[simp] theorem value_zero : l.value 0 = 0 := by simp [value, units]

theorem value_place {k n : Nat} (hk : k = 0 ∨ 2 ^ l.fracBits ≤ n)
    (hn : n ≤ 2 ^ (l.fracBits + 1)) :
    l.value (k * 2 ^ l.fracBits + n) = n * 2 ^ (l.minExponent + k) := by
  rw [value, units_place hk hn, zpow_add₀ two_ne_zero, zpow_natCast]
  push_cast
  ring

/-! ## The nearest magnitude -/

/-- The exponent of two of the last place of a number that a quotient is rounded to. -/
def lastPlace (l : FloatLayout) (num den : Nat) : Int :=
  max l.minExponent (ratioLog2 num den - l.fracBits)

/-- The magnitude that a quotient is rounded to, were there no largest number. -/
def nearest (l : FloatLayout) (num den : Nat) : Nat :=
  if num = 0 then 0
  else
    (l.lastPlace num den - l.minExponent).toNat * 2 ^ l.fracBits +
      divHalfEven (num * 2 ^ (-l.lastPlace num den).toNat) (den * 2 ^ (l.lastPlace num den).toNat)

theorem magnitudeOfRatio_eq_min (num den : Nat) :
    l.magnitudeOfRatio num den = min l.infinity (l.nearest num den) := by
  simp only [magnitudeOfRatio, nearest, lastPlace]
  split
  · rw [Nat.min_zero]
  · rfl

variable {num den : Nat}

/-- A quotient that is not zero is counted in last places of its exponent, and this count is rounded
to a whole number. -/
theorem nearest_spec (hnum : num ≠ 0) (hden : den ≠ 0) :
    ∃ k n : Nat, ∃ c : ℚ, (num : ℚ) / den = c * 2 ^ (l.minExponent + k) ∧
      (k = 0 ∨ 2 ^ l.fracBits ≤ c) ∧ c < 2 ^ (l.fracBits + 1) ∧ RoundsTo c n ∧
      l.nearest num den = k * 2 ^ l.fracBits + n := by
  obtain ⟨hlow, hhigh⟩ := ratioLog2_spec hnum hden
  obtain ⟨place, hplace⟩ : ∃ place, l.lastPlace num den = place := ⟨_, rfl⟩
  have hpow : (0 : ℚ) < 2 ^ place := by positivity
  have hmin : l.minExponent ≤ place := hplace ▸ le_max_left _ _
  have hexponent : place = l.minExponent ∨ place = ratioLog2 num den - l.fracBits := by
    rw [← hplace, lastPlace]
    exact (max_choice _ _).imp id id
  have hbelow : ratioLog2 num den - l.fracBits ≤ place := hplace ▸ le_max_right _ _
  refine ⟨(place - l.minExponent).toNat, _, num / den / 2 ^ place, ?_, ?_, ?_, ?_,
    by rw [nearest, if_neg hnum, hplace]⟩
  · rw [Int.toNat_of_nonneg (by omega), add_sub_cancel, div_mul_cancel₀ _ hpow.ne']
  · refine hexponent.imp (fun h => by omega) fun h => ?_
    rw [le_div_iff₀ hpow, ← zpow_natCast, ← zpow_add₀ two_ne_zero, h, add_sub_cancel]
    exact hlow
  · rw [div_lt_iff₀ hpow, ← zpow_natCast, ← zpow_add₀ two_ne_zero]
    refine hhigh.trans_le (zpow_le_zpow_right₀ one_le_two ?_)
    push_cast
    omega
  · have hround := roundsTo_divHalfEven (num * 2 ^ (-place).toNat)
      (show 0 < den * 2 ^ place.toNat by positivity)
    rwa [show ((num * 2 ^ (-place).toNat : Nat) : ℚ) / (den * 2 ^ place.toNat : Nat) =
      num / den / 2 ^ place by
        rw [zpow_eq_div two_ne_zero place]
        push_cast
        field_simp] at hround

/-- A number cannot be counted in last places of two exponents. -/
theorem place_le {k k' : Nat} {c c' : ℚ}
    (h : c * 2 ^ (l.minExponent + k) = c' * 2 ^ (l.minExponent + k'))
    (hc : c < 2 ^ (l.fracBits + 1)) (hc' : k' = 0 ∨ 2 ^ l.fracBits ≤ c') : k' ≤ k := by
  by_contra hlt
  have hlow : (2 : ℚ) ^ l.fracBits ≤ c' := hc'.resolve_left (by omega)
  refine absurd h (ne_of_lt ?_)
  calc c * 2 ^ (l.minExponent + k) < 2 ^ (l.fracBits + 1) * 2 ^ (l.minExponent + k) := by gcongr
    _ = 2 ^ l.fracBits * 2 ^ (l.minExponent + k + 1) := by
      rw [zpow_add_one₀ two_ne_zero, pow_succ]
      ring
    _ ≤ c' * 2 ^ (l.minExponent + k') :=
      mul_le_mul hlow (zpow_le_zpow_right₀ one_le_two (by omega)) (by positivity)
        (hlow.trans' (by positivity))

/-- What a quotient is rounded to depends on its value only. -/
theorem nearest_congr {num' den' : Nat} (hden : den ≠ 0) (hden' : den' ≠ 0)
    (h : (num : ℚ) / den = num' / den') : l.nearest num den = l.nearest num' den' := by
  have hzero : num = 0 ↔ num' = 0 := by
    have hq : (num : ℚ) / den = 0 ↔ (num' : ℚ) / den' = 0 := by rw [h]
    simpa [hden, hden'] using hq
  rcases eq_or_ne num 0 with hnum | hnum
  · rw [nearest, nearest, if_pos hnum, if_pos (hzero.1 hnum)]
  obtain ⟨k, n, c, hc, hlow, hhigh, hround, hnearest⟩ := nearest_spec (l := l) hnum hden
  obtain ⟨k', n', c', hc', hlow', hhigh', hround', hnearest'⟩ :=
    nearest_spec (l := l) (mt hzero.2 hnum) hden'
  have hsame : c * 2 ^ (l.minExponent + k) = c' * 2 ^ (l.minExponent + k') := by rw [← hc, h, hc']
  obtain rfl : k = k' := le_antisymm (place_le hsame.symm hhigh' hlow) (place_le hsame hhigh hlow')
  obtain rfl : c = c' := mul_right_cancel₀ (by positivity) hsame
  rw [hnearest, hnearest', hround.unique hround']

/-- What is not farther from `q` than the two magnitudes around it is not farther than any. -/
theorem abs_sub_le_of_neighbours {q x : ℚ} {m : Nat} (hbelow : l.value m ≤ q)
    (habove : q ≤ l.value (m + 1)) (hm : |q - x| ≤ |q - l.value m|)
    (hm' : |q - x| ≤ |q - l.value (m + 1)|) (j : Nat) : |q - x| ≤ |q - l.value j| := by
  rcases Nat.lt_or_ge m j with hj | hj
  · have hvalue := l.value_strictMono.monotone (Nat.succ_le_iff.2 hj)
    exact hm'.trans
      (abs_le_abs_of_nonpos (sub_nonpos.2 habove) (sub_le_sub_left hvalue q))
  · have hvalue := l.value_strictMono.monotone hj
    exact hm.trans
      (abs_le_abs_of_nonneg (sub_nonneg.2 hbelow) (sub_le_sub_left hvalue q))

/-- **The number of the magnitude is nearest to the quotient.** -/
theorem abs_sub_nearest_le (l : FloatLayout) (num : Nat) (hden : den ≠ 0) (j : Nat) :
    |(num : ℚ) / den - l.value (l.nearest num den)| ≤ |(num : ℚ) / den - l.value j| := by
  rcases eq_or_ne num 0 with rfl | hnum
  · simp [nearest]
  obtain ⟨k, n, c, hc, hlow, hhigh, hround, hnearest⟩ := nearest_spec (l := l) hnum hden
  have hpow : (0 : ℚ) < 2 ^ (l.minExponent + k) := by positivity
  have hcount : 0 ≤ c := by
    have hq : 0 ≤ c * 2 ^ (l.minExponent + k) := hc ▸ by positivity
    exact nonneg_of_mul_nonneg_left hq hpow
  have hplace {i : Nat} (hi : k = 0 ∨ 2 ^ l.fracBits ≤ i) (hi' : i ≤ 2 ^ (l.fracBits + 1)) :
      (num : ℚ) / den - l.value (k * 2 ^ l.fracBits + i) = (c - i) * 2 ^ (l.minExponent + k) := by
    rw [value_place hi hi', hc, sub_mul]
  have hn : k = 0 ∨ 2 ^ l.fracBits ≤ n := hlow.imp_right fun h =>
    (roundsTo_natCast (2 ^ l.fracBits)).mono hround (by exact_mod_cast h)
  have hn' : n ≤ 2 ^ (l.fracBits + 1) :=
    hround.mono (roundsTo_natCast (2 ^ (l.fracBits + 1))) (by exact_mod_cast hhigh.le)
  have hnearer (i : Nat) : |(c - n) * 2 ^ (l.minExponent + k)| ≤
      |(c - i) * 2 ^ (l.minExponent + k)| := by
    rw [abs_mul, abs_mul]
    exact mul_le_mul_of_nonneg_right (hround.nearest i) (abs_nonneg _)
  -- the count lies between two whole numbers, and so does the quotient between two magnitudes
  obtain ⟨i, hfloor⟩ : ∃ i, ⌊c⌋₊ = i := ⟨_, rfl⟩
  have hbelow : (i : ℚ) ≤ c := hfloor ▸ Nat.floor_le hcount
  have habove : c ≤ (i + 1 : Nat) := by exact_mod_cast hfloor ▸ (Nat.lt_floor_add_one c).le
  have hi : k = 0 ∨ 2 ^ l.fracBits ≤ i := hlow.imp_right fun h =>
    hfloor ▸ Nat.le_floor (by exact_mod_cast h)
  have hi' : i + 1 ≤ 2 ^ (l.fracBits + 1) :=
    hfloor ▸ (Nat.floor_lt hcount).2 (by exact_mod_cast hhigh)
  have hat := hplace hi (Nat.le_of_succ_le hi')
  have hnext := hplace (hi.imp_right Nat.le_succ_of_le) hi'
  rw [hnearest]
  apply abs_sub_le_of_neighbours (m := k * 2 ^ l.fracBits + i)
  · rw [← sub_nonneg, hat]
    exact mul_nonneg (sub_nonneg.2 hbelow) hpow.le
  · rw [← sub_nonpos, Nat.add_assoc, hnext]
    exact mul_nonpos_of_nonpos_of_nonneg (sub_nonpos.2 habove) hpow.le
  · rw [hplace hn hn', hat]
    exact hnearer i
  · rw [hplace hn hn', Nat.add_assoc, hnext]
    exact hnearer (i + 1)

/-- A quotient that is the number of a magnitude is rounded to this magnitude. -/
theorem nearest_of_value (hden : den ≠ 0) {m : Nat} (h : (num : ℚ) / den = l.value m) :
    l.nearest num den = m := by
  have hle := l.abs_sub_nearest_le num hden m
  rw [h, sub_self, abs_zero, abs_nonpos_iff, sub_eq_zero] at hle
  exact (l.value_strictMono.injective hle).symm

/-! ## Very large and very small quotients -/

/-- The number of positive exponents. -/
def bias (l : FloatLayout) : Nat := 2 ^ (l.expBits - 1)

theorem minExponent_eq : l.minExponent = 2 - l.bias - l.fracBits := by
  rw [minExponent, bias]
  push_cast
  rfl

/-- What is less than half the smallest positive number is rounded to zero. -/
theorem magnitudeOfRatio_of_lt (hden : den ≠ 0) (h : (num : ℚ) / den < 2 ^ (l.minExponent - 1)) :
    l.magnitudeOfRatio num den = 0 := by
  rw [magnitudeOfRatio_eq_min, Nat.min_eq_zero_iff]
  right
  by_contra hpos
  have hvalue := l.value_strictMono.monotone (Nat.one_le_iff_ne_zero.2 hpos)
  have hone : l.value 1 = 2 * 2 ^ (l.minExponent - 1) := by
    rw [← zpow_one_add₀ two_ne_zero, add_sub_cancel]
    simpa using value_place (l := l) (.inl rfl) (Nat.one_le_two_pow (n := l.fracBits + 1))
  have hnearest := l.abs_sub_nearest_le num hden 0
  rw [value_zero, sub_zero, abs_of_nonneg (show (0 : ℚ) ≤ num / den by positivity),
    abs_sub_comm] at hnearest
  linarith [le_abs_self (l.value (l.nearest num den) - num / den)]

/-- The exponents reach so far beyond the fraction that the largest numbers are more than one
apart. -/
def ReachesWhole (l : FloatLayout) : Prop := l.fracBits + 1 < l.bias

theorem single_reachesWhole : single.ReachesWhole := by
  unfold ReachesWhole
  decide

theorem double_reachesWhole : double.ReachesWhole := by
  unfold ReachesWhole
  decide

namespace ReachesWhole

variable (hl : l.ReachesWhole)
include hl

theorem two_pow_expBits : 2 ^ l.expBits = 2 * l.bias := by
  have hpos : l.expBits ≠ 0 := by
    rintro hzero
    rw [ReachesWhole, bias, hzero] at hl
    omega
  rw [bias, ← Nat.pow_succ', Nat.succ_eq_add_one, Nat.sub_add_cancel (Nat.pos_of_ne_zero hpos)]

/-- The infinity is the first place of the exponent behind the last one. -/
theorem infinity_eq : l.infinity = (2 * l.bias - 2) * 2 ^ l.fracBits + 2 ^ l.fracBits := by
  have htwo : 2 ≤ l.bias := by
    unfold ReachesWhole at hl
    omega
  rw [infinity, hl.two_pow_expBits, ← Nat.succ_mul]
  congr 1
  omega

/-- The infinity stands for the first power of two beyond the largest number. -/
theorem value_infinity : l.value l.infinity = 2 ^ l.bias := by
  rw [hl.infinity_eq, value_place (.inr le_rfl) (Nat.pow_le_pow_right two_pos (Nat.le_succ _)),
    Nat.cast_pow, Nat.cast_ofNat, ← zpow_natCast, ← zpow_add₀ two_ne_zero, ← zpow_natCast,
    minExponent_eq]
  unfold ReachesWhole at hl
  congr 1
  omega

/-- The largest number is at least two below the infinity. -/
theorem value_add_two_le {m : Nat} (hm : m < l.infinity) : l.value m + 2 ≤ 2 ^ l.bias := by
  have hpos : 0 < 2 ^ l.fracBits := Nat.two_pow_pos _
  have hdouble : 2 ^ (l.fracBits + 1) = 2 * 2 ^ l.fracBits := Nat.pow_succ'
  have hwide := hl
  unfold ReachesWhole at hwide
  have hlast : m ≤ (2 * l.bias - 3) * 2 ^ l.fracBits + (2 ^ (l.fracBits + 1) - 1) := by
    rw [hl.infinity_eq, show 2 * l.bias - 2 = 2 * l.bias - 3 + 1 by omega, Nat.succ_mul] at hm
    omega
  have hvalue := l.value_strictMono.monotone hlast
  have hgap : (2 : ℚ) ≤ 2 ^ (l.minExponent + (2 * l.bias - 3 : Nat)) := by
    rw [minExponent_eq]
    exact (zpow_one (2 : ℚ)).symm.le.trans (zpow_le_zpow_right₀ one_le_two (by omega))
  have hnext : (2 : ℚ) ^ l.bias =
      2 ^ (l.fracBits + 1) * 2 ^ (l.minExponent + (2 * l.bias - 3 : Nat)) := by
    rw [← zpow_natCast, ← zpow_natCast, ← zpow_add₀ two_ne_zero, minExponent_eq]
    congr 1
    push_cast
    omega
  rw [value_place (.inr (by omega)) (Nat.sub_le _ _), Nat.cast_sub Nat.one_le_two_pow, sub_mul,
    Nat.cast_pow, Nat.cast_ofNat, ← hnext, Nat.cast_one, one_mul] at hvalue
  linarith

/-- What is at least as large as the infinity is rounded to it. -/
theorem magnitudeOfRatio_of_le (hden : den ≠ 0) (h : 2 ^ l.bias ≤ (num : ℚ) / den) :
    l.magnitudeOfRatio num den = l.infinity := by
  rw [magnitudeOfRatio_eq_min, min_eq_left]
  by_contra hlt
  have hvalue := l.value_strictMono (not_le.1 hlt)
  have hnearest := l.abs_sub_nearest_le num hden l.infinity
  rw [hl.value_infinity] at hvalue hnearest
  rw [abs_of_nonneg (by linarith), abs_of_nonneg (by linarith)] at hnearest
  linarith

/-- A quotient near a number is rounded to a number. -/
theorem nearest_lt_infinity (hden : den ≠ 0) {m : Nat} (hm : m < l.infinity)
    (h : |(num : ℚ) / den - l.value m| ≤ 1 / 2) : l.nearest num den < l.infinity := by
  by_contra hlt
  have hvalue := l.value_strictMono.monotone (not_lt.1 hlt)
  have hnearest := l.abs_sub_nearest_le num hden m
  have hlast := hl.value_add_two_le hm
  rw [hl.value_infinity] at hvalue
  obtain ⟨hlow, hhigh⟩ := abs_le.1 h
  obtain ⟨hlow', hhigh'⟩ := abs_le.1 (hnearest.trans h)
  linarith

end ReachesWhole

end FloatLayout

end VariableRegistry
