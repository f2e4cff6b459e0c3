/-
# Access errors

An access to a variable fails with one of twelve errors, each of which has a number and a wording
of its own.
-/

namespace VariableRegistry

/-- Why an access to a variable was refused. -/
inductive AccessError where
  /-- A failure without a cause of its own. -/
  | generic
  /-- The value is above the maximum of its channel. -/
  | upperLimit
  /-- The value is below the minimum of its channel. -/
  | lowerLimit
  /-- A channel was named on a variable that has only one. -/
  | notVector
  /-- The channel lies outside the vector. -/
  | invalidChannel
  /-- The requester lacks the rights, or the text is constant. -/
  | accessDenied
  /-- The text is no value of the variable's type, or the value is no number. -/
  | invalidValue
  /-- The variable has another type. -/
  | invalidType
  /-- The value is no member of the enumeration. -/
  | invalidEnum
  /-- The text does not fit into a cell. -/
  | sizeTooBig
  /-- The buffer is empty or too short. -/
  | invalidArgument
  /-- No variable has the handle. -/
  | unknownHandle
deriving DecidableEq, Repr

namespace AccessError

/-- Every access error. -/
def all : List AccessError :=
  [generic, upperLimit, lowerLimit, notVector, invalidChannel, accessDenied, invalidValue,
    invalidType, invalidEnum, sizeTooBig, invalidArgument, unknownHandle]

/-- The number before that of the first error. -/
def codeBase : Int := 0x2000

/-- The number of an error. -/
def code : AccessError → Int
  | generic => -1
  | upperLimit => codeBase + 1
  | lowerLimit => codeBase + 2
  | notVector => codeBase + 3
  | invalidChannel => codeBase + 4
  | accessDenied => codeBase + 5
  | invalidValue => codeBase + 6
  | invalidType => codeBase + 7
  | invalidEnum => codeBase + 8
  | sizeTooBig => codeBase + 9
  | invalidArgument => codeBase + 10
  | unknownHandle => codeBase + 11

/-- The error with a number. -/
def ofCode? (n : Int) : Option AccessError := all.find? fun e => e.code = n

/-- The error in words. -/
def message : AccessError → String
  | generic => "generic failure"
  | upperLimit => "value above upper limit"
  | lowerLimit => "value below lower limit"
  | notVector => "variable is not a vector"
  | invalidChannel => "invalid channel"
  | accessDenied => "access denied"
  | invalidValue => "invalid value"
  | invalidType => "invalid type"
  | invalidEnum => "invalid enum value"
  | sizeTooBig => "size too big"
  | invalidArgument => "invalid argument"
  | unknownHandle => "unknown handle"

@[simp] theorem ofCode?_code (e : AccessError) : ofCode? e.code = some e := by cases e <;> rfl

end AccessError

end VariableRegistry
