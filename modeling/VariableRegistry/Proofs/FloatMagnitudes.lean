/-
# Signs and magnitudes

A floating point word is made of its sign and its magnitude, and it is determined by them.
-/
import VariableRegistry.Float.Layout

namespace VariableRegistry.FloatWord

variable {l : FloatLayout} {x y : FloatWord l}

/-- The sign is the last bit of a word. -/
theorem two_pow_width (l : FloatLayout) : 2 ^ l.width = 2 * l.signWeight := by
  rw [FloatLayout.width, FloatLayout.signWeight, Nat.add_assoc, Nat.pow_add, Nat.pow_one]

theorem toNat_bits_lt (x : FloatWord l) : x.bits.toNat < 2 * l.signWeight := by
  rw [← two_pow_width]
  exact x.bits.isLt

/-- A word is its magnitude and the weight of its sign. -/
theorem toNat_bits (x : FloatWord l) :
    x.bits.toNat = x.magnitude + if x.isNegative then l.signWeight else 0 := by
  have hlt := x.toNat_bits_lt
  by_cases hsign : l.signWeight ≤ x.bits.toNat
  · have hmod : x.bits.toNat % l.signWeight = x.bits.toNat - l.signWeight := by
      rw [Nat.mod_eq_sub_mod hsign, Nat.mod_eq_of_lt (by omega)]
    simp only [magnitude, isNegative, hmod, hsign, decide_true, if_true]
    omega
  · have hmod : x.bits.toNat % l.signWeight = x.bits.toNat := Nat.mod_eq_of_lt (by omega)
    simp [magnitude, isNegative, hmod, hsign]

/-- A word is determined by its sign and its magnitude. -/
theorem ext_magnitude (hsign : x.isNegative = y.isNegative) (h : x.magnitude = y.magnitude) :
    x = y := by
  have hbits : x.bits = y.bits := by
    apply BitVec.eq_of_toNat_eq
    rw [toNat_bits, toNat_bits, hsign, h]
  cases x
  cases y
  exact congrArg mk hbits

theorem infinity_lt_signWeight (l : FloatLayout) : l.infinity < l.signWeight := by
  rw [FloatLayout.infinity, FloatLayout.signWeight, Nat.pow_add]
  exact Nat.mul_lt_mul_of_pos_right (Nat.sub_lt (Nat.two_pow_pos _) Nat.one_pos) (Nat.two_pow_pos _)

theorem magnitude_lt (x : FloatWord l) : x.magnitude < l.signWeight :=
  Nat.mod_lt _ (Nat.two_pow_pos _)

theorem toNat_bits_ofMagnitude (negative : Bool) {m : Nat} (hm : m < l.signWeight) :
    (ofMagnitude negative m : FloatWord l).bits.toNat =
      m + if negative then l.signWeight else 0 := by
  rw [ofMagnitude, BitVec.toNat_ofNat, two_pow_width, Nat.mod_eq_of_lt]
  split <;> omega

@[simp] theorem isNegative_ofMagnitude (negative : Bool) {m : Nat} (hm : m < l.signWeight) :
    (ofMagnitude negative m : FloatWord l).isNegative = negative := by
  rw [isNegative, toNat_bits_ofMagnitude negative hm]
  cases negative
  · simpa using hm
  · simp

@[simp] theorem magnitude_ofMagnitude (negative : Bool) {m : Nat} (hm : m < l.signWeight) :
    (ofMagnitude negative m : FloatWord l).magnitude = m := by
  rw [magnitude, toNat_bits_ofMagnitude negative hm]
  cases negative
  · exact Nat.mod_eq_of_lt hm
  · rw [if_pos rfl, Nat.add_mod_right, Nat.mod_eq_of_lt hm]

/-- A word is made of its sign and its magnitude. -/
theorem ofMagnitude_magnitude (x : FloatWord l) : ofMagnitude x.isNegative x.magnitude = x :=
  ext_magnitude (isNegative_ofMagnitude _ x.magnitude_lt) (magnitude_ofMagnitude _ x.magnitude_lt)

end VariableRegistry.FloatWord
