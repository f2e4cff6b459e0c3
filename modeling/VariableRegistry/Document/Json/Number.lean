/-
# Numbers in JSON

A number without point and exponent is an integer as long as it fits into sixty-four bits; every
other one is a `DOUBLE`. Reading is quick and not always nearest: digits are collected as long as
they fit into sixty-four bits, and the result is multiplied or divided by a power of ten. Writing
takes the fewest digits.
-/
import VariableRegistry.Document.Basic
import VariableRegistry.Float.Text

namespace VariableRegistry.Json

/-! ## Scaling -/

/-- The greatest exponent of ten that a number is scaled by at once. -/
def maxPower : Nat := 308

/-- A power of ten. -/
def powerOfTen (k : Nat) : Double := FloatWord.ofInt (10 ^ k)

/-- Divides a number by a power of ten in steps, each of them rounded. -/
def divideByPower (x : Double) (k : Nat) : Double :=
  if k ≤ maxPower then x.divFinite (powerOfTen k)
  else if x.isZero then x
  else divideByPower (x.divFinite (powerOfTen maxPower)) (k - maxPower)
termination_by k
decreasing_by
  have : 0 < maxPower := by decide
  omega

/-- Multiplies a number by a power of ten, unless that leads past the largest number. -/
def multiplyByPower? (x : Double) (k : Nat) : Option Double :=
  if k ≤ maxPower then
    let y := x.mulFinite (powerOfTen k)
    if y.isInfinite then none else some y
  else if x.isZero then some x
  else none

/-- The number `significand * 10 ^ exponent`. -/
def scale? (significand : Nat) (exponent : Int) : Option Double :=
  let x : Double := FloatWord.ofInt significand
  if 0 ≤ exponent then multiplyByPower? x exponent.toNat
  else some (divideByPower x (-exponent).toNat)

/-! ## Reading -/

/-- Continues a number by digits as long as it fits into sixty-four bits; returns it with the
digits that were left over. -/
def collect (n : Nat) : List Char → Nat × List Char
  | [] => (n, [])
  | c :: cs =>
    let m := 10 * n + (c.toNat - '0'.toNat)
    if m < 0x10000000000000000 then collect m cs else (n, c :: cs)

/-- The number with some digits before and behind the point and an exponent. -/
def real? (whole fraction : List Char) (exponent : Int) : Option Double :=
  let (n, left) := collect 0 whole
  let (m, lost) := collect n fraction
  scale? m (exponent + left.length - (fraction.length - lost.length : Nat))

/-- Reads an optional part of a number that a mark opens: at least one digit has to follow it. -/
def readDigits (cs : List Char) : Option (List Char × List Char) :=
  let (digits, rest) := Decimal.takeDigits cs
  if digits.isEmpty then none else some (digits, rest)

/-- Reads the digits before the point; a zero stands alone. -/
def readWhole (cs : List Char) : Option (List Char × List Char) :=
  (readDigits cs).filter fun (digits, _) => digits.head? ≠ some '0' || digits.length = 1

/-- Reads a point and the digits behind it, if there is one. -/
def readFraction : List Char → Option (Option (List Char) × List Char)
  | '.' :: cs => (readDigits cs).map fun (digits, rest) => (some digits, rest)
  | cs => some (none, cs)

/-- Reads an exponent, if there is one. -/
def readExponent : List Char → Option (Option Int × List Char)
  | c :: cs =>
    if c = 'e' || c = 'E' then
      let (negative, body) := Decimal.takeSign cs
      (readDigits body).map fun (digits, rest) =>
        let n : Nat := Nat.ofDigitChars 10 digits 0
        (some (if negative then -(n : Int) else n), rest)
    else some (none, c :: cs)
  | [] => some (none, [])

/-- The value of a number from its parts. Minus zero is a `DOUBLE`; a number past the largest one
is a value that no field takes. -/
def valueOf (negative : Bool) (whole : List Char) (fraction : Option (List Char))
    (exponent : Option Int) : Document :=
  let n : Nat := Nat.ofDigitChars 10 whole 0
  let isInteger := fraction.isNone && exponent.isNone
  if isInteger && !negative && n < 0x10000000000000000 then .integer n
  else if isInteger && negative && 0 < n && n ≤ 0x8000000000000000 then .integer (-n)
  else
    match real? whole (fraction.getD []) (exponent.getD 0) with
    | some x => .double (if negative then x.neg else x)
    | none => .other

/-- Reads a number. -/
def readNumber (cs : List Char) : Option (Document × List Char) := do
  let (negative, cs) :=
    match cs with
    | '-' :: cs => (true, cs)
    | cs => (false, cs)
  let (whole, cs) ← readWhole cs
  let (fraction, cs) ← readFraction cs
  let (exponent, cs) ← readExponent cs
  return (valueOf negative whole fraction exponent, cs)

/-! ## Writing -/

/-- A `DOUBLE` has a plain point from `1e-5` to below `1e16`. -/
def doubleStyle : FloatStyle := ⟨fun e => -5 ≤ e && e < 16, true, true, .even, "null"⟩

/-- A `FLOAT` has a plain point from `1e-6` to below `1e13`. -/
def singleStyle : FloatStyle := ⟨fun e => -6 ≤ e && e < 13, true, true, .even, "null"⟩

/-- A floating point number; there is none for an infinity. -/
def writeFloat {l : FloatLayout} (style : FloatStyle) (x : FloatWord l) : List Char :=
  if x.isInfinite then style.nan.toList else x.shortestChars style

end VariableRegistry.Json
