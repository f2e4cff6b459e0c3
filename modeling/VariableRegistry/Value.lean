/-
# Numbers of the four types

The operations that the accesses need of a number, for all four types: order, equality, the bytes
of the word, least significant first, and the number as a `DOUBLE`. A `NumValue` is a number
together with its type.
-/
import VariableRegistry.Float.Rounding
import VariableRegistry.VarType

namespace VariableRegistry

namespace NumType

/-- The number of bytes of a value. -/
def byteWidth : NumType → Nat
  | int16 => 2
  | int32 => 4
  | float => 4
  | double => 8

/-- Zero. -/
def zero : (t : NumType) → t.Carrier
  | int16 => (0 : Int16)
  | int32 => (0 : Int32)
  | float => FloatWord.zero false
  | double => FloatWord.zero false

/-- Whether a value is no number. -/
def isNaN : (t : NumType) → t.Carrier → Bool
  | int16, _ => false
  | int32, _ => false
  | float, x => FloatWord.isNaN x
  | double, x => FloatWord.isNaN x

/-- Whether the first value is below the second. -/
def lt : (t : NumType) → t.Carrier → t.Carrier → Bool
  | int16, x, y => (x : Int16).toInt < (y : Int16).toInt
  | int32, x, y => (x : Int32).toInt < (y : Int32).toInt
  | float, x, y => FloatWord.lt x y
  | double, x, y => FloatWord.lt x y

/-- Whether two values are the same number. -/
def eq : (t : NumType) → t.Carrier → t.Carrier → Bool
  | int16, x, y => (x : Int16) = y
  | int32, x, y => (x : Int32) = y
  | float, x, y => FloatWord.eq x y
  | double, x, y => FloatWord.eq x y

/-- The word of a value as a natural number. -/
def toWord : (t : NumType) → t.Carrier → Nat
  | int16, x => (x : Int16).toBitVec.toNat
  | int32, x => (x : Int32).toBitVec.toNat
  | float, x => (x : Single).bits.toNat
  | double, x => (x : Double).bits.toNat

/-- The value with a word, the bits beyond its width being dropped. -/
def ofWord : (t : NumType) → Nat → t.Carrier
  | int16, n => Int16.ofBitVec (BitVec.ofNat 16 n)
  | int32, n => Int32.ofBitVec (BitVec.ofNat 32 n)
  | float, n => ⟨BitVec.ofNat _ n⟩
  | double, n => ⟨BitVec.ofNat _ n⟩

/-- The value as a `DOUBLE`, which can hold every number of the four types. -/
def toDouble : (t : NumType) → t.Carrier → Double
  | int16, x => FloatWord.ofInt (x : Int16).toInt
  | int32, x => FloatWord.ofInt (x : Int32).toInt
  | float, x => FloatWord.convert (x : Single)
  | double, x => x

/-! ## Bytes -/

/-- The `width` lowest bytes of a number, the least significant first. -/
def wordBytes : Nat → Nat → List UInt8
  | 0, _ => []
  | width + 1, n => UInt8.ofNat (n % 256) :: wordBytes width (n / 256)

/-- The number with the given bytes, the least significant first. -/
def ofWordBytes : List UInt8 → Nat
  | [] => 0
  | b :: bytes => b.toNat + 256 * ofWordBytes bytes

/-- The bytes of a value. -/
def toBytes (t : NumType) (x : t.Carrier) : List UInt8 := wordBytes t.byteWidth (t.toWord x)

/-- The value whose bytes stand at the front of a buffer. -/
def ofBytes (t : NumType) (bytes : List UInt8) : t.Carrier :=
  t.ofWord (ofWordBytes (bytes.take t.byteWidth))

instance (t : NumType) : DecidableEq t.Carrier :=
  match t with
  | int16 => inferInstanceAs (DecidableEq Int16)
  | int32 => inferInstanceAs (DecidableEq Int32)
  | float => inferInstanceAs (DecidableEq Single)
  | double => inferInstanceAs (DecidableEq Double)

end NumType

/-- A number together with its type. -/
structure NumValue where
  type : NumType
  value : type.Carrier

instance : DecidableEq NumValue := fun ⟨t, x⟩ ⟨u, y⟩ =>
  if h : t = u then
    match t, u, h, x, y with
    | _, _, rfl, x, y =>
      if hxy : x = y then isTrue (by rw [hxy]) else isFalse (by simpa using hxy)
  else isFalse (by simp [h])

/-- The type of a value as the type of a variable. -/
def NumValue.varType (v : NumValue) : VarType := .number v.type

end VariableRegistry
