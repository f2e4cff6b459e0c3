/-
# Text of floating point words

A word is written either with the fewest digits that read back to it, laid out as a `FloatStyle`
says, or with a fixed number of places. The reader takes a sign, digits with at most one point and
an exponent, or the names of infinity and of a word that is no number.
-/
import VariableRegistry.Float.Decimal
import VariableRegistry.Numeral

namespace VariableRegistry

/-! ## Styles -/

/-- How the digits of a shortest decimal are laid out. -/
structure FloatStyle where
  /-- The least and the greatest exponent of a leading digit that is written with a plain point;
  all others are written with an exponent. -/
  plain : Int → Bool
  /-- Whether a whole number gets a point and a zero. -/
  pointZero : Bool
  /-- Whether a positive exponent gets a plus sign. -/
  plusSign : Bool
  /-- Which of two equally near decimals is taken. -/
  tie : TieRule
  /-- The name of a word that is no number. -/
  nan : String

namespace FloatStyle

/-- Shortest digits with a plain point at every size. -/
def positional : FloatStyle := ⟨fun _ => true, false, false, .up, "NaN"⟩

/-- Shortest digits with an exponent at every size. -/
def scientific : FloatStyle := ⟨fun _ => false, false, false, .up, "NaN"⟩

/-- Shortest digits for diagnostics: a plain point from `1e-4` up to below `1e16`, and a whole
number shows that it is a floating point number. -/
def diagnostic : FloatStyle := ⟨fun e => -4 ≤ e && e < 16, true, false, .up, "NaN"⟩

end FloatStyle

/-! ## Writing -/

namespace Decimal

/-- The digits, most significant first. -/
def digitChars (d : Decimal) : List Char := Nat.toDigits 10 d.digits

/-- Digits with a point `places` from their end, zeros being added in front as needed. -/
def withPoint (digits : List Char) (places : Nat) : List Char :=
  let padded := List.replicate (places + 1 - digits.length) '0' ++ digits
  let whole := padded.length - places
  padded.take whole ++ (if places = 0 then [] else '.' :: padded.drop whole)

/-- The decimal with a plain point. -/
def positional (pointZero : Bool) (d : Decimal) : List Char :=
  if 0 ≤ d.exponent then
    d.digitChars ++ (if d.digits = 0 then [] else List.replicate d.exponent.toNat '0')
      ++ (if pointZero then ['.', '0'] else [])
  else withPoint d.digitChars (-d.exponent).toNat

/-- The decimal with one digit before the point and an exponent of ten. -/
def scientific (plusSign : Bool) (d : Decimal) : List Char :=
  d.digitChars.take 1 ++ (if d.digitChars.length ≤ 1 then [] else '.' :: d.digitChars.drop 1)
    ++ 'e' :: (if plusSign && 0 ≤ d.leading then ['+'] else []) ++ Numeral.decimal d.leading

/-- The decimal laid out in a style. -/
def chars (style : FloatStyle) (d : Decimal) : List Char :=
  if style.plain d.leading then d.positional style.pointZero else d.scientific style.plusSign

end Decimal

namespace FloatWord

variable {l : FloatLayout}

/-- The minus sign of a word whose sign bit is set. -/
def signChars (x : FloatWord l) : List Char := if x.isNegative then ['-'] else []

/-- A word with the fewest digits that read back to it. -/
def shortestChars (style : FloatStyle) (x : FloatWord l) : List Char :=
  if x.isNaN then style.nan.toList
  else x.signChars ++
    if x.isInfinite then ['i', 'n', 'f'] else (x.shortest style.tie).chars style

/-- A word rounded to a fixed number of places, a half going to the even neighbour. -/
def fixedChars (places : Nat) (x : FloatWord l) : List Char :=
  if x.isNaN then ['N', 'a', 'N']
  else x.signChars ++
    if x.isInfinite then ['i', 'n', 'f']
    else Decimal.withPoint
      (Nat.toDigits 10 (divHalfEven (x.numerator * 10 ^ places) x.denominator)) places

end FloatWord

/-! ## Reading -/

namespace Decimal

/-- The number that digits before a point, digits behind it and an exponent stand for. -/
def ofParts (whole fraction : List Char) (exponent : Int) : Decimal :=
  ⟨Nat.ofDigitChars 10 (whole ++ fraction) 0, exponent - fraction.length⟩

/-- A leading sign, true for a minus, and what follows it. -/
def takeSign : List Char → Bool × List Char
  | '-' :: rest => (true, rest)
  | '+' :: rest => (false, rest)
  | rest => (false, rest)

/-- The digits at the front, and what follows them. -/
def takeDigits (cs : List Char) : List Char × List Char :=
  (cs.takeWhile Char.isDigit, cs.dropWhile Char.isDigit)

/-- Reads what follows the digits of a number: nothing, or an exponent of ten. -/
def exponent? : List Char → Option Int
  | [] => some 0
  | c :: rest =>
    if c = 'e' || c = 'E' then
      let (negative, body) := takeSign rest
      let (digits, left) := takeDigits body
      if digits.isEmpty || !left.isEmpty then none
      else
        let n : Nat := Nat.ofDigitChars 10 digits 0
        some (if negative then -(n : Int) else n)
    else none

/-- Reads digits with at most one point, a digit on one side of it at least, and an optional
exponent. -/
def ofChars? (cs : List Char) : Option Decimal :=
  let (whole, rest) := takeDigits cs
  let (fraction, rest) :=
    match rest with
    | '.' :: more => takeDigits more
    | more => ([], more)
  if whole.isEmpty && fraction.isEmpty then none
  else (exponent? rest).map (ofParts whole fraction)

end Decimal

namespace FloatWord

variable {l : FloatLayout}

/-- Whether letters spell a lower case name in any case. -/
def spells (name : String) (cs : List Char) : Bool := cs.map Char.toLower == name.toList

/-- Whether text names infinity. -/
def namesInfinity (cs : List Char) : Bool := spells "inf" cs || spells "infinity" cs

/-- Reads a word: an optional sign and a decimal, which is rounded to the nearest word, or the
name of infinity or of a word that is no number. -/
def ofChars? (cs : List Char) : Option (FloatWord l) :=
  let (negative, body) := Decimal.takeSign cs
  if namesInfinity body then some (infinite negative)
  else if spells "nan" body then some (nan negative)
  else (Decimal.ofChars? body).map (Decimal.toWord negative)

end FloatWord

end VariableRegistry
