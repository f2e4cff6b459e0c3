/-
# Values as text

How the text of a value is read and, in the format of its variable, written. Every reader ignores
blanks at both ends. An integer is read as a numeral, an integer of the date format also as a date;
a floating point number as a decimal that is not beyond the largest one, or as the name of infinity
or of what is no number.
-/
import VariableRegistry.Calendar
import VariableRegistry.Error
import VariableRegistry.Float.Text
import VariableRegistry.Format
import VariableRegistry.Value

namespace VariableRegistry

/-! ## Reading -/

namespace NumType

/-- Reads an `INT16`. -/
def parseInt16 (text : String) : Except AccessError Int16 :=
  match Numeral.word? 16 text with
  | some n => .ok (Int16.ofInt n)
  | none => .error .invalidValue

/-- Reads an `INT32`. -/
def parseInt32 (text : String) : Except AccessError Int32 :=
  match Numeral.word? 32 text with
  | some n => .ok (Int32.ofInt n)
  | none => .error .invalidValue

/-- Reads an `INT32` written as a date, which stands for the seconds up to its midnight, or as a
numeral. -/
def parseDate (text : String) : Except AccessError Int32 :=
  match Date.ofChars? (Text.trim text.toList) with
  | some d =>
    if -0x80000000 ≤ d.seconds ∧ d.seconds < 0x80000000 then .ok (Int32.ofInt d.seconds)
    else .error .invalidValue
  | none => parseInt32 text

/-- Reads a floating point number; a decimal that would become infinite is refused. -/
def parseFloat {l : FloatLayout} (text : String) : Except AccessError (FloatWord l) :=
  let chars := Text.trim text.toList
  match (FloatWord.ofChars? chars : Option (FloatWord l)) with
  | some x =>
    if x.isInfinite && !FloatWord.namesInfinity (Decimal.takeSign chars).2 then
      .error .invalidValue
    else .ok x
  | none => .error .invalidValue

/-- Reads a value of a type, in the format of its variable. -/
def parse : (t : NumType) → Format → String → Except AccessError t.Carrier
  | int16, _, text => parseInt16 text
  | int32, .date, text => parseDate text
  | int32, _, text => parseInt32 text
  | float, _, text => parseFloat text
  | double, _, text => parseFloat text

/-! ## Writing -/

/-- Whether an integer is sixteen or thirty-two bits wide. -/
inductive IntWidth where
  | bits16
  | bits32
deriving DecidableEq, Repr

/-- The number of bits. -/
def IntWidth.bits : IntWidth → Nat
  | bits16 => 16
  | bits32 => 32

/-- Writes an integer. Hexadecimal digits show the word, and eight of them a wide word of more than
sixteen bits; a date is written where the calendar reaches. -/
def renderInt (n : Int) (width : IntWidth) (format : Format) : String :=
  String.ofList <|
    match format.hexDigits? with
    | some digits =>
      let word := (n % 2 ^ width.bits).toNat
      Numeral.hex (if width = .bits32 && 0xFFFF < word then 8 else digits) word
    | none =>
      if format = .date && width = .bits32 then
        match Date.ofSeconds? n with
        | some d => d.chars
        | none => Numeral.decimal n
      else Numeral.decimal n

/-- Writes a floating point number: with fixed places, with an exponent, or plainly with the fewest
digits that read back to it. -/
def renderFloat {l : FloatLayout} (x : FloatWord l) (format : Format) : String :=
  String.ofList <|
    match format.places? with
    | some places => x.fixedChars places
    | none =>
      x.shortestChars (if format = .sci then FloatStyle.scientific else FloatStyle.positional)

/-- Writes a value of a type in a format. -/
def render : (t : NumType) → t.Carrier → Format → String
  | int16, x, format => renderInt (x : Int16).toInt .bits16 format
  | int32, x, format => renderInt (x : Int32).toInt .bits32 format
  | float, x, format => renderFloat (x : Single) format
  | double, x, format => renderFloat (x : Double) format

/-- The plain text of a value. -/
def plain (t : NumType) (x : t.Carrier) : String := t.render x .default

/-- The text of a value in diagnostics: a floating point number never looks like an integer. -/
def diagnostic : (t : NumType) → t.Carrier → String
  | int16, x => String.ofList (Numeral.decimal (x : Int16).toInt)
  | int32, x => String.ofList (Numeral.decimal (x : Int32).toInt)
  | float, x => String.ofList (FloatWord.shortestChars .diagnostic (x : Single))
  | double, x => String.ofList (FloatWord.shortestChars .diagnostic (x : Double))

end NumType

end VariableRegistry
