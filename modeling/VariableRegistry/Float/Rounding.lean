/-
# Rounding to floating point words

Every number enters a word by one function: `FloatWord.ofRatio` takes a quotient of natural
numbers to the nearest word, a half going to the even neighbour and a number past the largest
finite one to infinity. Conversion between layouts, products and quotients are exact quotients
rounded once.
-/
import VariableRegistry.Float.Layout

namespace VariableRegistry

/-! ## Exact quotients -/

/-- The whole number nearest to `num / den`, a half going to the even neighbour. -/
def divHalfEven (num den : Nat) : Nat :=
  let q := num / den
  let r := num % den
  if 2 * r < den then q
  else if den < 2 * r then q + 1
  else q + q % 2

/-- The largest `e` with `2 ^ e ≤ num / den`, for positive `num` and `den`. -/
def ratioLog2 (num den : Nat) : Int :=
  let e : Int := (Nat.log2 num : Int) - Nat.log2 den
  if den * 2 ^ e.toNat ≤ num * 2 ^ (-e).toNat then e else e - 1

namespace FloatLayout

/-- The magnitude nearest to `num / den`: the quotient is counted in units of the last place of
its own binade, and of the smallest number at least. -/
def magnitudeOfRatio (l : FloatLayout) (num den : Nat) : Nat :=
  if num = 0 then 0
  else
    let unit : Int := max l.minExponent (ratioLog2 num den - l.fracBits)
    let count := divHalfEven (num * 2 ^ (-unit).toNat) (den * 2 ^ unit.toNat)
    min l.infinity ((unit - l.minExponent).toNat * 2 ^ l.fracBits + count)

end FloatLayout

namespace FloatWord

variable {l : FloatLayout}

/-- The word nearest to the quotient `num / den` with the given sign. -/
def ofRatio (negative : Bool) (num den : Nat) : FloatWord l :=
  ofMagnitude negative (l.magnitudeOfRatio num den)

/-- The word nearest to a whole number. -/
def ofInt (n : Int) : FloatWord l := ofRatio (n < 0) n.natAbs 1

/-- The numerator of the exact value of a finite word. -/
def numerator (x : FloatWord l) : Nat := x.significand * 2 ^ x.exponent.toNat

/-- The denominator of the exact value of a finite word, a power of two. -/
def denominator (x : FloatWord l) : Nat := 2 ^ (-x.exponent).toNat

/-! ## Arithmetic -/

/-- The same number in another layout, rounded if it has to be. -/
def convert {m : FloatLayout} (x : FloatWord l) : FloatWord m :=
  if x.isNaN then nan x.isNegative
  else if x.isInfinite then infinite x.isNegative
  else ofRatio x.isNegative x.numerator x.denominator

/-- The rounded product of two finite words. -/
def mulFinite (x y : FloatWord l) : FloatWord l :=
  ofRatio (x.isNegative ^^ y.isNegative) (x.numerator * y.numerator)
    (x.denominator * y.denominator)

/-- The rounded quotient of two finite words, the second of them not zero. -/
def divFinite (x y : FloatWord l) : FloatWord l :=
  ofRatio (x.isNegative ^^ y.isNegative) (x.numerator * y.denominator)
    (x.denominator * y.numerator)

end FloatWord

end VariableRegistry
