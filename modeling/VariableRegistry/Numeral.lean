/-
# Integer numerals

A numeral is a run of digits whose base its beginning tells: `0x` or `0X` before hexadecimal
digits, a `0` before octal ones, decimal otherwise. One sign may stand in front and blanks around
it. A hexadecimal numeral may also name a negative word by its bits.
-/
import VariableRegistry.Power
import VariableRegistry.Text.Blank

namespace VariableRegistry.Numeral

/-! ## Digits -/

/-- The value of a digit in a base of at most sixteen. -/
def digit? (base : Nat) (c : Char) : Option Nat :=
  let value? : Option Nat :=
    if '0' ≤ c && c ≤ '9' then some (c.toNat - 0x30)
    else if 'a' ≤ c && c ≤ 'f' then some (c.toNat - 0x57)
    else if 'A' ≤ c && c ≤ 'F' then some (c.toNat - 0x37)
    else none
  value?.filter (· < base)

/-- Continues a number by further digits. -/
def extend? (base : Nat) : Nat → List Char → Option Nat
  | n, [] => some n
  | n, c :: cs => (digit? base c).bind fun d => extend? base (n * base + d) cs

/-- The number that a run of at least one digit stands for. -/
def ofDigits? (base : Nat) (cs : List Char) : Option Nat :=
  if cs.isEmpty then none else extend? base 0 cs

/-! ## Numerals of any size -/

/-- The number that an unsigned numeral stands for. -/
def magnitude? : List Char → Option Nat
  | '0' :: 'x' :: cs => ofDigits? 16 cs
  | '0' :: 'X' :: cs => ofDigits? 16 cs
  | '0' :: c :: cs => ofDigits? 8 (c :: cs)
  | cs => ofDigits? 10 cs

/-- The largest number of which a numeral may speak. -/
def limit : Nat := 0x7FFFFFFFFFFFFFFF

/-- The number that a signed numeral stands for. -/
def signed? : List Char → Option Int
  | '-' :: cs => (magnitude? cs).bind fun n => if n ≤ limit then some (-(n : Int)) else none
  | '+' :: cs => (magnitude? cs).bind fun n => if n ≤ limit then some (n : Int) else none
  | cs => (magnitude? cs).bind fun n => if n ≤ limit then some (n : Int) else none

/-- Reads a numeral with blanks around it. -/
def int? (text : String) : Option Int := signed? (Text.trim text.toList)

/-! ## Numerals of a word -/

/-- Whether a numeral is hexadecimal and has no minus sign. -/
def isHex (text : String) : Bool :=
  match (Text.trim text.toList).dropWhile (· = '+') with
  | '0' :: 'x' :: _ => true
  | '0' :: 'X' :: _ => true
  | _ => false

/-- Reads a numeral as a signed number of `bits` bits. A hexadecimal numeral past the largest such
number names the word with those bits. -/
def word? (bits : Nat) (text : String) : Option Int :=
  (int? text).bind fun n =>
    if -(2 ^ (bits - 1)) ≤ n ∧ n < 2 ^ (bits - 1) then some n
    else if 0 ≤ n ∧ n < 2 ^ bits ∧ isHex text then some (n - 2 ^ bits)
    else none

/-! ## Writing -/

/-- Digits with zeros in front up to a length. -/
def padded (length : Nat) (digits : List Char) : List Char :=
  List.replicate (length - digits.length) '0' ++ digits

/-- A hexadecimal numeral of at least `length` digits. -/
def hex (length n : Nat) : List Char := '0' :: 'x' :: padded length (Nat.toDigits 16 n)

/-- A decimal numeral. -/
def decimal (n : Int) : List Char :=
  if n < 0 then '-' :: Nat.toDigits 10 n.natAbs else Nat.toDigits 10 n.natAbs

end VariableRegistry.Numeral
