/-
# Declarations

A declaration says what a variable is before it is given a place in tables. It starts with one
channel, the rights of the program, no special storage and the plain format; modifiers change
these one after another.
-/
import VariableRegistry.Format
import VariableRegistry.Tables.TableSet

namespace VariableRegistry

/-! ## Declarations -/

/-- What kind of variable is declared. -/
inductive DeclaredKind where
  /-- A number with its default and bounds. -/
  | number (type : NumType) (template : Template type.Carrier)
  /-- An enumeration of values with symbols, one of which is the default. -/
  | enumeration (default : UInt16) (members : List (Int16 × String))
  /-- A text that can be written. -/
  | string (default : String)
  /-- A text that stays as it is. -/
  | constant (text : String)
  /-- An action without a value. -/
  | action

/-- A variable before it has a place in tables. -/
structure Declaration where
  /-- The name, unless the variable is hidden. -/
  name : Option String
  kind : DeclaredKind
  channels : UInt16
  rights : Rights
  storage : Storage
  format : Format

namespace Declaration

/-- A declaration as it is before any modifier. -/
def new (name : String) (kind : DeclaredKind) : Declaration where
  name := some name
  kind := kind
  channels := 1
  rights := .program
  storage := .ram
  format := .default

/-! ## Modifiers -/

/-- A change to a declaration. -/
inductive Modifier where
  /-- Sets the number of channels. -/
  | vector (channels : UInt16)
  /-- Sets all rights except what is done with values beyond the bounds. -/
  | access (rights : Rights)
  /-- Lets values beyond the bounds be refused. -/
  | limit
  /-- Lets values beyond the bounds be clipped. -/
  | clip
  /-- Sets the storage class. -/
  | storage (storage : Storage)
  /-- Sets the format. -/
  | format (format : Format)
  /-- Takes the name away. -/
  | hidden
deriving DecidableEq, Repr

/-- The rights after a modifier. -/
def Modifier.rights : Modifier → Rights → Rights
  | access rights, r => ((rights.diff .limit).diff .clip).union (r.inter (Rights.limit.union .clip))
  | limit, r => (r.diff .clip).union .limit
  | clip, r => (r.diff .limit).union .clip
  | _, r => r

/-- The declaration after a modifier. -/
def modify (d : Declaration) (m : Modifier) : Declaration :=
  let d := { d with rights := m.rights d.rights }
  match m with
  | .vector channels => { d with channels }
  | .storage storage => { d with storage }
  | .format format => { d with format }
  | .hidden => { d with name := none }
  | _ => d

/-- The declaration after some modifiers in order. -/
def modifyAll (d : Declaration) (ms : List Modifier) : Declaration := ms.foldl modify d

end Declaration

end VariableRegistry
