/-
# Texts with fixed places

A number is written with fixed places as the nearest multiple of the last place. The word nearest to
this multiple is no further from it than the number was, and so it is written as the same multiple,
whether its neighbours are nearer or further apart than the places. Words between the two are
written alike.
-/
import VariableRegistry.Proofs.FloatTexts

namespace VariableRegistry

variable {l : FloatLayout} {n : Nat}

namespace FloatWord

variable {x y b : FloatWord l}

/-! ## Multiples of the last place -/

/-- The multiple of the last of some places as which a number is written. -/
def multiple (n : Nat) (x : FloatWord l) : Nat :=
  divHalfEven (x.numerator * 10 ^ n) x.denominator

theorem roundsTo_multiple (n : Nat) (x : FloatWord l) :
    RoundsTo (l.value x.magnitude * 10 ^ n) (x.multiple n) := by
  have hden := Nat.pos_of_ne_zero x.denominator_ne_zero
  have hround := roundsTo_divHalfEven (x.numerator * 10 ^ n) hden
  rw [← numerator_div_denominator, div_mul_eq_mul_div]
  exact_mod_cast hround

/-- Numbers with one sign that are written as one multiple are written alike. -/
theorem fixedChars_congr (hx : x.IsFinite) (hy : y.IsFinite)
    (hsign : x.isNegative = y.isNegative) (h : x.multiple n = y.multiple n) :
    x.fixedChars n = y.fixedChars n := by
  obtain ⟨hnan, hinfinite⟩ := isFinite_iff.1 hx
  obtain ⟨hnan', hinfinite'⟩ := isFinite_iff.1 hy
  rw [multiple, multiple] at h
  simp only [fixedChars, hnan, hnan', hinfinite, hinfinite', signChars, hsign, h]

/-- A larger number is not written as a smaller multiple. -/
theorem multiple_mono (n : Nat) (h : x.magnitude ≤ y.magnitude) : x.multiple n ≤ y.multiple n := by
  apply (x.roundsTo_multiple n).mono (y.roundsTo_multiple n)
  exact mul_le_mul_of_nonneg_right (l.value_strictMono.monotone h) (by positivity)

/-- The decimal with the places that is written of a number. -/
def fixed (n : Nat) (x : FloatWord l) : Decimal := ⟨x.multiple n, -n⟩

theorem value_fixed (n : Nat) (x : FloatWord l) : (x.fixed n).value = x.multiple n / 10 ^ n := by
  rw [Decimal.value, fixed, zpow_neg, zpow_natCast, div_eq_mul_inv]

/-- The distance between a number and a multiple of the last place, counted in this place. -/
theorem abs_value_sub_fixed (n m : Nat) (x : FloatWord l) :
    |l.value m * 10 ^ n - x.multiple n| = |l.value m - (x.fixed n).value| * 10 ^ n := by
  have hpow : (0 : ℚ) < 10 ^ n := by positivity
  rw [← abs_of_pos hpow, ← abs_mul, abs_of_pos hpow, sub_mul, value_fixed,
    div_mul_cancel₀ _ hpow.ne']

/-! ## The word that is read -/

/-- A number and what is written of it differ by half of the last place at most. -/
theorem abs_fixed_sub_le (n : Nat) (x : FloatWord l) :
    |(x.fixed n).value - l.value x.magnitude| ≤ 1 / 2 := by
  have hnear := (x.roundsTo_multiple n).near
  rw [abs_value_sub_fixed] at hnear
  have hone : (1 : ℚ) ≤ 10 ^ n := one_le_pow₀ (by norm_num)
  rw [abs_sub_comm]
  exact (le_mul_of_one_le_right (abs_nonneg _) hone).trans hnear

/-- What is written of a number is read as a number. -/
theorem magnitude_fixed_lt (hl : l.ReachesWhole) (n : Nat) (hx : x.IsFinite) :
    (x.fixed n).magnitude l < l.infinity := by
  rw [Decimal.magnitude_eq hl, FloatLayout.magnitudeOfRatio_eq_min]
  refine (Nat.min_le_right _ _).trans_lt
    (hl.nearest_lt_infinity (Decimal.denominator_ne_zero _) hx ?_)
  rw [Decimal.numerator_div_denominator]
  exact x.abs_fixed_sub_le n

/-- No number is nearer to what is written of a number than the number that is read of it. -/
theorem abs_value_sub_fixed_le (hl : l.ReachesWhole) (n : Nat) (hx : x.IsFinite) (m : Nat) :
    |l.value ((x.fixed n).magnitude l) - (x.fixed n).value| ≤ |l.value m - (x.fixed n).value| := by
  have hlt := magnitude_fixed_lt hl n hx
  rw [Decimal.magnitude_eq hl, FloatLayout.magnitudeOfRatio_eq_min] at hlt ⊢
  rw [Nat.min_eq_right (by omega), abs_sub_comm, abs_sub_comm (l.value m),
    ← Decimal.numerator_div_denominator]
  exact l.abs_sub_nearest_le _ (Decimal.denominator_ne_zero _) m

/-- The word that is read of what is written of a word with fixed places. -/
def reread (n : Nat) (x : FloatWord l) : FloatWord l :=
  if x.isInfinite then x else (x.fixed n).toWord x.isNegative

variable (hl : l.ReachesWhole) (n) (hx : x.isNaN = false)
include hl hx

theorem reread_eq_or : x.isInfinite = true ∧ x.reread n = x ∨
    x.IsFinite ∧ (x.reread n).IsFinite ∧ (x.reread n).isNegative = x.isNegative ∧
      (x.reread n).magnitude = (x.fixed n).magnitude l := by
  cases hinfinite : x.isInfinite with
  | true => exact .inl ⟨rfl, by rw [reread, if_pos hinfinite]⟩
  | false =>
    right
    have hfinite : x.IsFinite := isFinite_iff.2 ⟨hx, hinfinite⟩
    have hlt := magnitude_fixed_lt hl n hfinite
    have hweight := hlt.trans (infinity_lt_signWeight l)
    have hmagnitude : (x.reread n).magnitude = (x.fixed n).magnitude l := by
      rw [reread, hinfinite, if_neg (by decide), Decimal.toWord, magnitude_ofMagnitude _ hweight]
    have hsign : (x.reread n).isNegative = x.isNegative := by
      rw [reread, hinfinite, if_neg (by decide), Decimal.toWord, isNegative_ofMagnitude _ hweight]
    exact ⟨hfinite, hmagnitude.trans_lt hlt, hsign, hmagnitude⟩

theorem isNegative_reread : (x.reread n).isNegative = x.isNegative := by
  obtain ⟨-, hsame⟩ | ⟨-, -, hsign, -⟩ := reread_eq_or n hl hx
  · rw [hsame]
  · exact hsign

theorem parseFloat_fixedChars :
    NumType.parseFloat (String.ofList (x.fixedChars n)) = .ok (x.reread n) := by
  rw [fixedChars, if_neg (by rw [hx]; decide), reread]
  cases hinfinite : x.isInfinite with
  | true =>
    have hmagnitude : x.magnitude = l.infinity := of_decide_eq_true hinfinite
    rw [if_pos rfl, if_pos rfl, NumType.parseFloat_infinite, infinite, ← hmagnitude,
      ofMagnitude_magnitude]
  | false =>
    have hfinite : x.IsFinite := isFinite_iff.2 ⟨hx, hinfinite⟩
    rw [if_neg (by decide), if_neg (by decide)]
    exact NumType.parseFloat_signed x (Decimal.ofChars?_withPoint _ n)
      (magnitude_fixed_lt hl n hfinite)

/-- The number that is read is written as the same multiple: it is as near as the number that was
written, and if it lies halfway between two multiples, so did that number. -/
theorem multiple_reread (hinfinite : x.isInfinite = false) :
    (x.reread n).multiple n = x.multiple n := by
  obtain ⟨htrue, -⟩ | ⟨hfinite, -, -, hmagnitude⟩ := reread_eq_or n hl hx
  · rw [hinfinite] at htrue
    cases htrue
  have hround := x.roundsTo_multiple n
  have hle : |l.value (x.reread n).magnitude * 10 ^ n - x.multiple n| ≤
      |l.value x.magnitude * 10 ^ n - x.multiple n| := by
    rw [abs_value_sub_fixed, abs_value_sub_fixed, hmagnitude]
    exact mul_le_mul_of_nonneg_right (abs_value_sub_fixed_le hl n hfinite _) (by positivity)
  refine ((x.reread n).roundsTo_multiple n).unique ⟨hle.trans hround.near, fun htie => ?_⟩
  exact hround.even (le_antisymm hround.near (htie ▸ hle))

/-- A zero is read as this zero. -/
theorem magnitude_reread_of_zero (hzero : x.magnitude = 0) : (x.reread n).magnitude = 0 := by
  obtain ⟨-, hsame⟩ | ⟨-, -, -, hmagnitude⟩ := reread_eq_or n hl hx
  · rw [hsame, hzero]
  · have hmultiple : x.multiple n = 0 := by
      have hround := x.roundsTo_multiple n
      rw [hzero, FloatLayout.value_zero, zero_mul] at hround
      exact hround.unique (by simpa using roundsTo_natCast 0)
    rw [hmagnitude, Decimal.magnitude, fixed, if_pos hmultiple]

theorem fixedChars_reread : (x.reread n).fixedChars n = x.fixedChars n := by
  obtain ⟨-, hsame⟩ | ⟨hfinite, hfinite', hsign, -⟩ := reread_eq_or n hl hx
  · rw [hsame]
  · exact fixedChars_congr hfinite' hfinite hsign
      (multiple_reread n hl hx (isFinite_iff.1 hfinite).2)

omit hl hx

/-! ## Words that are written alike -/

/-- A word lies between two others: above one of them or equal to it, and below the other. -/
def Between (b x y : FloatWord l) : Prop :=
  b.lt y = true ∧ b.lt x = false ∨ y.lt b = true ∧ x.lt b = false

/-- What lies between two words of one sign has this sign, unless it is a zero. -/
theorem Between.magnitude_le (h : b.Between x y) (hx : x.isNaN = false)
    (hsign : y.isNegative = x.isNegative) (hzero : x.magnitude = 0 → y.magnitude = 0) :
    b.isNegative = x.isNegative ∧ (x.magnitude ≤ b.magnitude ∧ b.magnitude < y.magnitude ∨
      y.magnitude < b.magnitude ∧ b.magnitude ≤ x.magnitude) := by
  have hkeys : x.orderKey ≤ b.orderKey ∧ b.orderKey < y.orderKey ∨
      y.orderKey < b.orderKey ∧ b.orderKey ≤ x.orderKey := by
    simp only [Between, lt, Bool.and_eq_true, Bool.not_eq_true', decide_eq_true_eq] at h
    obtain ⟨⟨⟨hb, -⟩, hlt⟩, hge⟩ | ⟨⟨⟨-, hb⟩, hlt⟩, hge⟩ := h
    · exact .inl ⟨by simpa [hb, hx] using hge, hlt⟩
    · exact .inr ⟨hlt, by simpa [hb, hx] using hge⟩
  have hnonneg : x.magnitude = 0 ∧ y.magnitude = 0 ∨ 0 < x.magnitude := by
    rcases Nat.eq_zero_or_pos x.magnitude with hx | hx
    · exact .inl ⟨hx, hzero hx⟩
    · exact .inr hx
  simp only [orderKey, hsign] at hkeys
  rcases Bool.eq_false_or_eq_true x.isNegative with hx | hx <;>
    rcases Bool.eq_false_or_eq_true b.isNegative with hb | hb <;>
    simp only [hx, hb, if_true, Bool.false_eq_true, if_false, reduceCtorEq, true_and, false_and]
      at hkeys ⊢ <;>
    omega

/-- Whatever lies between a word and the word that is read of it is written like both. -/
theorem Between.fixedChars_eq (n : Nat) (hl : l.ReachesWhole) (hx : x.isNaN = false)
    (h : b.Between x (x.reread n)) : b.fixedChars n = x.fixedChars n := by
  obtain ⟨hsign, hle⟩ := h.magnitude_le hx (isNegative_reread n hl hx)
    (magnitude_reread_of_zero n hl hx)
  obtain ⟨-, hsame⟩ | ⟨hfinite, hfinite', -, -⟩ := reread_eq_or n hl hx
  · rw [hsame] at hle
    omega
  · have hmultiple := multiple_reread n hl hx (isFinite_iff.1 hfinite).2
    have hb : b.IsFinite := by
      unfold IsFinite at *
      omega
    refine fixedChars_congr hb hfinite hsign ?_
    obtain ⟨hlow, hhigh⟩ | ⟨hlow, hhigh⟩ := hle
    · exact le_antisymm ((multiple_mono n hhigh.le).trans hmultiple.le) (multiple_mono n hlow)
    · exact le_antisymm (multiple_mono n hhigh) (hmultiple.ge.trans (multiple_mono n hlow.le))

end FloatWord

/-! ## Texts that are read and written again -/

namespace NumType

/-- A word is read off the text of another one in a format and is written like that one, and so is
every word between the two. -/
structure Rereads (format : Format) (x y : FloatWord l) : Prop where
  read : parseFloat (renderFloat x format) = .ok y
  same : renderFloat y format = renderFloat x format
  between : ∀ b : FloatWord l, b.Between x y → renderFloat b format = renderFloat x format

/-- **Texts with fixed places are stable**: the text of every word is read, and the word that is
read has the same text. -/
theorem exists_rereads (hl : l.ReachesWhole)
    (hnan : (FloatWord.nan false : FloatWord l).isNaN = true) {format : Format}
    (hformat : format.places? = some n) (x : FloatWord l) :
    ∃ y : FloatWord l, Rereads format x y := by
  have hrender (x : FloatWord l) : renderFloat x format = String.ofList (x.fixedChars n) := by
    simp only [renderFloat, hformat]
  cases hx : x.isNaN with
  | true =>
    have hname {x : FloatWord l} (hx : x.isNaN = true) : x.fixedChars n = ['N', 'a', 'N'] :=
      if_pos hx
    refine ⟨.nan false, ?_, ?_, fun b hb => ?_⟩
    · rw [hrender, hname hx, parseFloat_nan hnan]
    · rw [hrender, hrender, hname hx, hname hnan]
    · -- nothing lies beyond what is no number
      simp [FloatWord.Between, FloatWord.lt, hnan] at hb
  | false =>
    refine ⟨x.reread n, ?_, ?_, fun b hb => ?_⟩
    · rw [hrender, FloatWord.parseFloat_fixedChars n hl hx]
    · rw [hrender, hrender, FloatWord.fixedChars_reread n hl hx]
    · rw [hrender, hrender, hb.fixedChars_eq n hl hx]

end NumType

end VariableRegistry
