/-
# Descriptors

What a registry knows about a variable: the typed form of its raw descriptor. Each kind of variable
carries the places of its own tables and no others.
-/
import VariableRegistry.Format
import VariableRegistry.Handle
import VariableRegistry.Rights
import VariableRegistry.VarType

namespace VariableRegistry

/-! ## Enumerations -/

/-- A member of an enumeration. -/
structure Member where
  /-- The variable that names the member, if any. -/
  handle : Handle
  value : Int16
  symbol : Option String
deriving DecidableEq, Repr

/-- The members of an enumeration and the position of its default. -/
structure Enumeration where
  default : Nat
  members : List Member
deriving DecidableEq, Repr

namespace Enumeration

/-- The value of the default member. -/
def defaultValue (e : Enumeration) : Int16 := ((e.members[e.default]?).map (·.value)).getD 0

/-- Whether some member has a value. -/
def contains (e : Enumeration) (v : Int16) : Bool := e.members.any fun m => m.value = v

/-- The first member with a symbol. -/
def bySymbol? (e : Enumeration) (symbol : String) : Option Member :=
  e.members.find? fun m => m.symbol = some symbol

end Enumeration

/-! ## Descriptors -/

/-- The kind of a variable, with the places that belong to it. -/
inductive VarKind where
  /-- A number: the position of its template and of its first cell. -/
  | number (type : NumType) (template data : Nat)
  /-- An enumeration: the position of its members and of its first cell. -/
  | enumeration (members data : Nat)
  /-- A text in cells: the offset of its default and the position of its first cell. -/
  | string (default data : Nat)
  /-- A constant text: its offset. -/
  | constant (text : Nat)
  | action
deriving DecidableEq, Repr

/-- The type of a kind. -/
def VarKind.varType : VarKind → VarType
  | number t _ _ => .number t
  | enumeration _ _ => .enumeration
  | string _ _ => .string
  | constant _ => .string
  | action => .action

/-- The position of the first cell of a variable declared with a number type. -/
def VarKind.numberCells? (t : NumType) : VarKind → Option Nat
  | number u _ data => if u = t then some data else none
  | _ => none

/-- The number type of a variable that holds a number. -/
def VarKind.numType? : VarKind → Option NumType
  | number t _ _ => some t
  | _ => none

/-- The positions of the members and of the first cell of a variable that is an enumeration. -/
def VarKind.memberCells? : VarKind → Option (Nat × Nat)
  | enumeration members data => some (members, data)
  | _ => none

/-- A kind with all its places, for diagnostics. -/
def VarKind.describe : VarKind → String
  | number t template data =>
    let name :=
      match t with
      | .int16 => "Int16"
      | .int32 => "Int32"
      | .float => "Float"
      | .double => "Double"
    name ++ s!" \x7b template: TemplateSlot({template}), data: DataSlot({data}) \x7d"
  | enumeration members data => s!"Enum \x7b descr: {members}, data: DataSlot({data}) \x7d"
  | string default data =>
    s!"String(Mutable \x7b default: BlobOffset({default}), data: DataSlot({data}) \x7d)"
  | constant text => s!"String(Const \x7b text: BlobOffset({text}) \x7d)"
  | action => "Action"

/-- What is known about a variable. -/
structure Descriptor where
  handle : Handle
  /-- The name, unless the variable is hidden. -/
  name : Option String
  kind : VarKind
  channels : UInt16
  /-- Whether there is more than one channel. -/
  vector : Bool
  rights : Rights
  storage : Storage
  format : Format
deriving DecidableEq, Repr

namespace Descriptor

/-- The type of the variable. -/
def varType (d : Descriptor) : VarType := d.kind.varType

/-- Whether the variable is a constant text. -/
def isConstant (d : Descriptor) : Bool :=
  match d.kind with
  | .constant _ => true
  | _ => false

/-- The type word: the number of the type and the flags. -/
def typeWord (d : Descriptor) : UInt16 :=
  d.varType.code ||| (if d.vector then VarType.vectorFlag else 0) |||
    (if d.isConstant then VarType.constFlag else 0)

/-- The name for diagnostics. -/
def displayName (d : Descriptor) : String := d.name.getD "<hidden>"

end Descriptor

end VariableRegistry
