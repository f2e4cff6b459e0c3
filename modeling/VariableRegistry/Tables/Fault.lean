/-
# Faults in tables

What can be wrong with a table set, and the wording of each fault. A `Failure` is whatever stops
work on whole tables: such a fault, a failed access, a file that cannot be read or written, a text
that cannot be parsed, or one of these in a context.
-/
import VariableRegistry.Error
import VariableRegistry.Tables.TableSet
import VariableRegistry.ValueText

namespace VariableRegistry

/-! ## Names of tables -/

namespace NumType

/-- The short name of the table and the array of a number type. -/
def tag : NumType → String
  | int16 => "s16"
  | int32 => "s32"
  | float => "f32"
  | double => "f64"

/-- The name of the template table. -/
def templateTable (t : NumType) : String := "descr_" ++ t.tag

end NumType

namespace DataArray

/-- The short name of an array. -/
def tag : DataArray → String
  | number t => t.tag
  | enums => "enum"
  | strings => "str"

/-- The name of an array. -/
def name (a : DataArray) : String := "data_" ++ a.tag

/-- The name of an array in words. -/
def words : DataArray → String
  | number .int16 => "S16 data array"
  | number .int32 => "S32 data array"
  | number .float => "F32 data array"
  | number .double => "F64 data array"
  | enums => "Enum data array"
  | strings => "Str data array"

end DataArray

/-! ## Faults of one variable -/

/-- A word in four hexadecimal digits. -/
def hexWord (w : UInt16) : String :=
  "0x" ++ String.ofList ((Numeral.padded 4 (Nat.toDigits 16 w.toNat)).map Char.toUpper)

/-- What is wrong with a variable. -/
inductive VariableFault where
  | handle (word : UInt16)
  | unsupportedType (code : UInt16)
  | unknownTypeFlags (word : UInt16)
  | noChannels
  | vectorFlag (channels : UInt16)
  | constFlag
  | unknownRights (word : UInt16)
  | limitAndClip
  | unknownStorage (word : UInt16)
  | unknownFormat (code : UInt16)
  | nameOutside
  | templateOutside (index size : Nat)
  | cellsOutside (first stop : Nat) (array : DataArray) (size : Nat)
  | enumOutside
  | enumEmpty
  | enumDefault (index count : Int)
  | enumTruncated
  | enumHandle (handle : Handle)
  | symbolOutside
  | textOutside
  | textTooLong (bytes : Nat)
  | textNotUtf8
  | textNotAligned (offset : Nat)
  | enumMissing
  | textMissing
  | textBeyondCell
  /-- A fault given in words. -/
  | inWords (words : String)
deriving DecidableEq, Repr

/-- The fault of a variable in words. -/
def VariableFault.message : VariableFault → String
  | handle word => s!"hnd field is {word}"
  | unsupportedType code => s!"unsupported type code {code}"
  | unknownTypeFlags word => "unknown type flags " ++ hexWord word
  | noChannels => "vec_items is 0"
  | vectorFlag channels => s!"VECTOR flag disagrees with vec_items {channels}"
  | constFlag => "CONST flag on a non-string type"
  | unknownRights word => "unknown access bits " ++ hexWord word
  | limitAndClip => "LIMIT and CLIP are both set"
  | unknownStorage word => "unknown storage class " ++ hexWord word
  | unknownFormat code => s!"unknown format {code}"
  | nameOutside => "scpi_idx outside constant blob"
  | templateOutside index size => s!"descr_idx {index} outside template table of {size}"
  | cellsOutside first stop array size =>
    s!"cells {first}..{stop} outside " ++ array.name ++ s!" of {size}"
  | enumOutside => "enum descr_idx outside member table"
  | enumEmpty => "enum has no members"
  | enumDefault index count => s!"default member {index} of {count}"
  | enumTruncated => "enum members run past member table"
  | enumHandle hnd => "enum member names handle " ++ hnd.text
  | symbolOutside => "enum symbol outside constant blob"
  | textOutside => "string descr_idx outside constant blob"
  | textTooLong bytes => s!"default string of {bytes} bytes exceeds a cell"
  | textNotUtf8 => "default string is not UTF-8"
  | textNotAligned offset => s!"string data_idx {offset} is not cell aligned"
  | enumMissing => "missing enum descriptor"
  | textMissing => "missing string default"
  | textBeyondCell => "string default exceeds a cell"
  | inWords words => words

/-! ## Faults of tables -/

/-- A number that tables keep in sixteen bits. -/
inductive IndexKind where
  | handle
  | name
  | template (type : NumType)
  | symbol
  | enumWord
  | text
  | stringByte
  | cell (array : DataArray)
deriving DecidableEq, Repr

/-- The name of an index. -/
def IndexKind.words : IndexKind → String
  | handle => "handle"
  | name => "scpi_idx"
  | template t => t.templateTable
  | symbol => "enum symbol"
  | enumWord => "enum_members"
  | text => "string default"
  | stringByte => "data_str"
  | cell array => array.words

/-- What is wrong with a table set. -/
inductive TableFault where
  /-- A variable is at fault. -/
  | inVariable (index : Nat) (fault : VariableFault)
  /-- There are more variables than handles. -/
  | tooManyVariables (count : Nat)
  /-- The minimum of a template is above its maximum. -/
  | templateBounds (type : NumType) (index : Nat) (min max : type.Carrier)
  /-- A template is missing. -/
  | templateMissing (index : Nat)
  /-- Cells lie outside their array. -/
  | cellsOutside (first stop size : Nat)
  /-- A number does not fit into its sixteen bits. -/
  | overflow (index : IndexKind)
deriving DecidableEq

/-- The fault in words. -/
def TableFault.message : TableFault → String
  | inVariable index fault => s!"variable #{index}: " ++ fault.message
  | tooManyVariables count => s!"{count} variables exceed the handle range"
  | templateBounds t index min max =>
    t.templateTable ++ s!"[{index}]: min " ++ t.diagnostic min ++ " above max " ++ t.diagnostic max
  | templateMissing index => s!"template {index} missing"
  | cellsOutside first stop size => s!"cells {first}..{stop} outside array of {size}"
  | overflow index => index.words ++ " does not fit into a 16-bit table index"

/-! ## Failures -/

/-- What failed about the text of a table set. -/
inductive TextFault where
  | parseJson
  | parseToml
  | serialize
deriving DecidableEq, Repr

/-- The fault in words. -/
def TextFault.message : TextFault → String
  | parseJson => "Failed to parse JSON tables"
  | parseToml => "Failed to parse TOML tables"
  | serialize => "Failed to serialize tables"

/-- Why work on whole tables failed. -/
inductive Failure where
  /-- An access failed. -/
  | access (error : AccessError)
  /-- The tables are at fault. -/
  | table (fault : TableFault)
  /-- A file cannot be read or written. -/
  | io
  /-- A text is at fault. -/
  | text (fault : TextFault)
  /-- Another failure, with what was being done. -/
  | within (context : String) (cause : Failure)
deriving DecidableEq

namespace Failure

/-- The failure in words. -/
def message : Failure → String
  | access error => "Access error: " ++ error.message
  | table fault => "Table error: " ++ fault.message
  | io => "IO error"
  | text fault => "Serialization error: " ++ fault.message
  | within context cause => context ++ ": " ++ cause.message

/-- The failure in a context, in another context, and so on. -/
def inContexts (f : Failure) (contexts : List String) : Failure :=
  contexts.foldl (fun cause context => within context cause) f

/-- The wordings of a failure and of what caused it, the outermost first. -/
def causes : Failure → List String
  | within context cause => (within context cause).message :: cause.causes
  | other => [other.message]

end Failure

end VariableRegistry
