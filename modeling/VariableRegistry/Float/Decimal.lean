/-
# Decimals and floating point words

A `Decimal` is a whole number of digits scaled by a power of ten. `Decimal.toWord` reads one into
a word, correctly rounded, and `FloatWord.shortest` writes a word as the decimal with the fewest
digits that reads back to it. The search tests each candidate by reading it, so that a text made
from its answer is lossless by construction.
-/
import VariableRegistry.Float.Rounding

namespace VariableRegistry

/-- The number `digits * 10 ^ exponent`. -/
structure Decimal where
  digits : Nat
  exponent : Int
deriving DecidableEq, Repr

namespace Decimal

/-- The number of digits; zero counts as one digit. -/
def length (d : Decimal) : Nat := (Nat.toDigits 10 d.digits).length

/-- The exponent of ten of the leading digit. -/
def leading (d : Decimal) : Int := d.exponent + d.length - 1

/-- The numerator of the exact value. -/
def numerator (d : Decimal) : Nat := d.digits * 10 ^ d.exponent.toNat

/-- The denominator of the exact value, a power of ten. -/
def denominator (d : Decimal) : Nat := 10 ^ (-d.exponent).toNat

/-- Moves zeros at the end of the digits into the exponent; zero itself gets the exponent zero. -/
def normalize (d : Decimal) : Decimal :=
  if d.digits = 0 then ⟨0, 0⟩
  else if d.digits % 10 = 0 then normalize ⟨d.digits / 10, d.exponent + 1⟩
  else d
termination_by d.digits
decreasing_by omega

/-! ## Reading -/

/-- The magnitude nearest to a decimal. A decimal that is plainly past the largest number or
plainly below half the smallest one is settled from the place of its leading digit, before any
power of ten is formed. -/
def magnitude (l : FloatLayout) (d : Decimal) : Nat :=
  if d.digits = 0 then 0
  else if 2 ^ (l.expBits - 1) < 3 * d.leading then l.infinity
  else if 3 * (d.leading + 1) < l.minExponent then 0
  else l.magnitudeOfRatio d.numerator d.denominator

/-- The word nearest to a decimal with the given sign. -/
def toWord {l : FloatLayout} (negative : Bool) (d : Decimal) : FloatWord l :=
  FloatWord.ofMagnitude negative (d.magnitude l)

end Decimal

/-! ## Shortest decimals -/

/-- Which of two equally near decimals is taken. -/
inductive TieRule where
  /-- The larger one. -/
  | up
  /-- The one with an even last digit. -/
  | even
deriving DecidableEq, Repr

namespace FloatWord

variable {l : FloatLayout}

/-- The exact value of a finite word as a decimal. -/
def exactDecimal (x : FloatWord l) : Decimal :=
  if 0 ≤ x.exponent then ⟨x.significand * 2 ^ x.exponent.toNat, 0⟩
  else ⟨x.significand * 5 ^ (-x.exponent).toNat, x.exponent⟩

/-- The largest whole number of units `10 ^ place` in a finite word, and what is left of the word
as a fraction `num / den` of a unit. -/
def countUnits (x : FloatWord l) (place : Int) : Nat × Nat × Nat :=
  let num := x.numerator * 10 ^ (-place).toNat
  let den := x.denominator * 10 ^ place.toNat
  (num / den, num % den, den)

/-- The nearest decimal in units of `10 ^ place` among those that read back to the word. -/
def decimalAt (tie : TieRule) (x : FloatWord l) (place : Int) : Option Decimal :=
  let (count, num, den) := x.countUnits place
  let low : Decimal := ⟨count, place⟩
  let high : Decimal := ⟨count + 1, place⟩
  let preferHigh :=
    den < 2 * num || (den = 2 * num && (tie = .up || count % 2 = 1))
  let readsBack (d : Decimal) : Bool := d.magnitude l = x.magnitude
  match readsBack low, readsBack high with
  | true, true => some (if preferHigh then high else low)
  | true, false => some low
  | false, true => some high
  | false, false => none

/-- The decimal with the fewest digits that reads back to a finite word, the nearest of those; the
exact value serves where none of at most `l.fracBits` digits does. -/
def shortest (tie : TieRule) (x : FloatWord l) : Decimal :=
  let exact := x.exactDecimal
  ((List.range l.fracBits).findSome? fun n => x.decimalAt tie (exact.leading - (n : Nat)))
    |>.getD exact |>.normalize

end FloatWord

end VariableRegistry
