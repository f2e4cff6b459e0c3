/-
# Storage classes and formats

A variable names the memory that it belongs to, which has no effect, and the format in which its
value is written as text. Both are given in tables by numbers.
-/

namespace VariableRegistry

/-! ## Storage classes -/

/-- The memory that a variable belongs to. -/
inductive Storage where
  | ram
  | eeprom
  | flash
deriving DecidableEq, Repr

namespace Storage

/-- The bits of a word that hold the class. -/
def mask : UInt16 := 0x6000

/-- The word of a class. -/
def bits : Storage → UInt16
  | ram => 0
  | eeprom => 0x2000
  | flash => 0x4000

/-- The class in a word, whatever its other bits. -/
def ofBits? (word : UInt16) : Option Storage :=
  if word &&& mask = 0 then some ram
  else if word &&& mask = 0x2000 then some eeprom
  else if word &&& mask = 0x4000 then some flash
  else none

/-- The name of a class. -/
def name : Storage → String
  | ram => "RAM"
  | eeprom => "EEPROM"
  | flash => "FLASH"

@[simp] theorem ofBits?_bits (s : Storage) : ofBits? s.bits = some s := by cases s <;> rfl

end Storage

/-! ## Formats -/

/-- How the value of a variable is written. -/
inductive Format where
  /-- The plain value. -/
  | default
  /-- At least two hexadecimal digits. -/
  | hex2
  /-- At least four hexadecimal digits. -/
  | hex4
  /-- At least eight hexadecimal digits. -/
  | hex8
  /-- A decimal number. -/
  | dec
  /-- One place behind the point. -/
  | prec1
  /-- Two places behind the point. -/
  | prec2
  /-- Three places behind the point. -/
  | prec3
  /-- Four places behind the point. -/
  | prec4
  /-- One digit before the point and an exponent. -/
  | sci
  /-- Seconds since the beginning of 1970, as the date on which they fall. -/
  | date
deriving DecidableEq, Repr

namespace Format

/-- The number of a format. -/
def code : Format → UInt16
  | default => 0
  | hex2 => 1
  | hex4 => 2
  | hex8 => 3
  | dec => 4
  | prec1 => 5
  | prec2 => 6
  | prec3 => 7
  | prec4 => 8
  | sci => 9
  | date => 10

/-- Every format. -/
def all : List Format := [default, hex2, hex4, hex8, dec, prec1, prec2, prec3, prec4, sci, date]

/-- The format with a number. -/
def ofCode? (n : UInt16) : Option Format := all.find? fun f => f.code = n

/-- The places behind the point, where the format fixes them. -/
def places? : Format → Option Nat
  | prec1 => some 1
  | prec2 => some 2
  | prec3 => some 3
  | prec4 => some 4
  | _ => none

/-- The least number of hexadecimal digits, where the format has any. -/
def hexDigits? : Format → Option Nat
  | hex2 => some 2
  | hex4 => some 4
  | hex8 => some 8
  | _ => none

/-- The name of a format. -/
def name : Format → String
  | default => "DEFAULT"
  | hex2 => "HEX2"
  | hex4 => "HEX4"
  | hex8 => "HEX8"
  | dec => "DEC"
  | prec1 => "PREC1"
  | prec2 => "PREC2"
  | prec3 => "PREC3"
  | prec4 => "PREC4"
  | sci => "SCI"
  | date => "DATE"

@[simp] theorem ofCode?_code (f : Format) : ofCode? f.code = some f := by cases f <;> rfl

end Format

end VariableRegistry
