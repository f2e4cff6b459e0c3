/-
# Binary floating point words

A floating point number is held as its word: one sign bit, an exponent field and a fraction field.
A `FloatLayout` says how wide the fields are, and everything here is written once for all layouts.
The word of a number without its sign, its *magnitude*, grows with the number, so order is order
of magnitudes.
-/
import VariableRegistry.Power

namespace VariableRegistry

/-! ## Layouts -/

/-- The widths of the exponent and the fraction field of a word. -/
structure FloatLayout where
  expBits : Nat
  fracBits : Nat
deriving DecidableEq, Repr

namespace FloatLayout

/-- The layout of a `FLOAT`: eight exponent bits and twenty-three fraction bits. -/
def single : FloatLayout := ⟨8, 23⟩

/-- The layout of a `DOUBLE`: eleven exponent bits and fifty-two fraction bits. -/
def double : FloatLayout := ⟨11, 52⟩

/-- The number of bits of a word. -/
def width (l : FloatLayout) : Nat := 1 + l.expBits + l.fracBits

/-- The magnitude of an infinity: a full exponent field over an empty fraction. -/
def infinity (l : FloatLayout) : Nat := (2 ^ l.expBits - 1) * 2 ^ l.fracBits

/-- The weight of the sign bit. -/
def signWeight (l : FloatLayout) : Nat := 2 ^ (l.expBits + l.fracBits)

/-- The exponent of two of the smallest positive number. -/
def minExponent (l : FloatLayout) : Int := 2 - 2 ^ (l.expBits - 1) - l.fracBits

end FloatLayout

/-! ## Words -/

/-- A floating point number of layout `l`, given by its word. -/
structure FloatWord (l : FloatLayout) where
  bits : BitVec l.width
deriving DecidableEq

/-- A number of the `FLOAT` layout. -/
abbrev Single := FloatWord .single

/-- A number of the `DOUBLE` layout. -/
abbrev Double := FloatWord .double

namespace FloatWord

variable {l : FloatLayout}

/-- Whether the sign bit is set. -/
def isNegative (x : FloatWord l) : Bool := l.signWeight ≤ x.bits.toNat

/-- The word without its sign bit. -/
def magnitude (x : FloatWord l) : Nat := x.bits.toNat % l.signWeight

/-- The word with the given sign and magnitude. -/
def ofMagnitude (negative : Bool) (magnitude : Nat) : FloatWord l :=
  ⟨BitVec.ofNat _ (magnitude + if negative then l.signWeight else 0)⟩

/-- Whether the word is no number: its magnitude lies beyond infinity. -/
def isNaN (x : FloatWord l) : Bool := l.infinity < x.magnitude

/-- Whether the word is one of the two infinities. -/
def isInfinite (x : FloatWord l) : Bool := x.magnitude = l.infinity

/-- Whether the word is one of the two zeros. -/
def isZero (x : FloatWord l) : Bool := x.magnitude = 0

/-- The positive or negative zero. -/
def zero (negative : Bool) : FloatWord l := ofMagnitude negative 0

/-- The positive or negative infinity. -/
def infinite (negative : Bool) : FloatWord l := ofMagnitude negative l.infinity

/-- The quiet word that is no number. -/
def nan (negative : Bool) : FloatWord l :=
  ofMagnitude negative (l.infinity + 2 ^ (l.fracBits - 1))

/-- The word with the opposite sign. -/
def neg (x : FloatWord l) : FloatWord l := ofMagnitude (!x.isNegative) x.magnitude

/-- The whole number that the fraction field stands for: below the smallest exponent it counts
from zero, above it a leading one is understood. -/
def significand (x : FloatWord l) : Nat :=
  if x.magnitude < 2 ^ l.fracBits then x.magnitude
  else x.magnitude % 2 ^ l.fracBits + 2 ^ l.fracBits

/-- The exponent of two by which the significand is scaled. -/
def exponent (x : FloatWord l) : Int :=
  l.minExponent + ((x.magnitude / 2 ^ l.fracBits - 1 : Nat) : Int)

/-! ## Order -/

/-- The magnitude, counted downwards for a negative word: a whole number in the order of the
numbers, in which the two zeros coincide. -/
def orderKey (x : FloatWord l) : Int :=
  if x.isNegative then -(x.magnitude : Int) else x.magnitude

/-- Whether `x` is below `y`; a word that is no number is below nothing and above nothing. -/
def lt (x y : FloatWord l) : Bool := !x.isNaN && !y.isNaN && x.orderKey < y.orderKey

/-- Whether two words stand for the same number; a word that is no number equals nothing. -/
def eq (x y : FloatWord l) : Bool := !x.isNaN && !y.isNaN && x.orderKey = y.orderKey

end FloatWord

end VariableRegistry
