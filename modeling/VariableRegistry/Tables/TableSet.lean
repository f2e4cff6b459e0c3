/-
# Table sets

Variables are declared by flat tables of sixteen-bit words: for each number type a table of
templates and a count of cells, the constant text, one list of words for all enumerations, and a
raw descriptor for each variable that points into them.
-/
import VariableRegistry.Handle
import VariableRegistry.Rights
import VariableRegistry.Tables.Blob
import VariableRegistry.Value

namespace VariableRegistry

/-! ## Parts -/

/-- The default of a number and the bounds that it starts with. -/
structure Template (α : Type) where
  default : α
  min : α
  max : α
deriving DecidableEq, Repr

/-- The words that describe one variable. -/
structure RawDescriptor where
  /-- The position of the variable itself. -/
  handle : UInt16
  /-- The offset of the name, or the word for none. -/
  name : UInt16
  /-- The number of the type, with the flags for vectors and constant texts. -/
  type : UInt16
  /-- The number of channels. -/
  channels : UInt16
  /-- The rights word. -/
  rights : UInt16
  /-- The position of the template, of the enumeration words or of the text. -/
  source : UInt16
  /-- The first cell; of a string the offset of its first byte. -/
  data : UInt16
  /-- The word of the storage class. -/
  storage : UInt16
  /-- The number of the format. -/
  format : UInt16
deriving DecidableEq, Repr

/-- The arrays of cells. -/
inductive DataArray where
  | number (type : NumType)
  | enums
  | strings
deriving DecidableEq, Repr

/-- A complete set of tables. -/
structure TableSet where
  /-- The number of cells of each number type. -/
  cells : PerType fun _ => UInt16
  /-- The number of string cells. -/
  stringCells : UInt16
  /-- The number of enumeration cells. -/
  enumCells : UInt16
  /-- The constant text. -/
  blob : Blob
  /-- The words of the enumerations: for each the position of its default, the number of its
  members, and three words a member. -/
  enumWords : Array Int16
  /-- The templates of each number type. -/
  templates : PerType fun t => Array (Template t.Carrier)
  /-- The variables. -/
  vars : Array RawDescriptor
  /-- How capabilities are compared. -/
  policy : AccessPolicy

namespace TableSet

/-- The set without variables. -/
def empty : TableSet where
  cells := PerType.ofFn fun _ => 0
  stringCells := 0
  enumCells := 0
  blob := .empty
  enumWords := #[]
  templates := PerType.ofFn fun _ => #[]
  vars := #[]
  policy := .exact

/-- The number of bytes of a string cell, its end included. -/
def stringCellBytes : Nat := 32

/-- The number of bytes of text that a string cell holds. -/
def maxStringBytes : Nat := stringCellBytes - 1

/-- The number of words before the members of an enumeration. -/
def enumHeaderWords : Nat := 2

/-- The number of words of a member: the handle of the variable that names it, its value and the
offset of its symbol. -/
def enumMemberWords : Nat := 3

/-! ## Equality -/

/-- Whether two templates hold the same numbers. -/
def sameTemplate (t : NumType) (x y : Template t.Carrier) : Bool :=
  t.eq x.default y.default && t.eq x.min y.min && t.eq x.max y.max

/-- Whether two tables of templates hold the same numbers. -/
def sameTemplates (s u : TableSet) (t : NumType) : Bool :=
  let xs := s.templates.get t
  let ys := u.templates.get t
  xs.size = ys.size && (xs.zip ys).all fun (x, y) => sameTemplate t x y

/-- Whether two sets are equal as numbers, texts and words; what is no number equals nothing. -/
def same (s u : TableSet) : Bool :=
  s.cells.int16 = u.cells.int16 && s.cells.int32 = u.cells.int32 &&
    s.cells.float = u.cells.float && s.cells.double = u.cells.double &&
    s.stringCells = u.stringCells && s.enumCells = u.enumCells && s.blob = u.blob &&
    s.enumWords = u.enumWords && s.sameTemplates u .int16 && s.sameTemplates u .int32 &&
    s.sameTemplates u .float && s.sameTemplates u .double && s.vars = u.vars &&
    s.policy = u.policy

end TableSet

end VariableRegistry
