/-
# Building tables

A builder gives each declared variable the next handle, the next cells of its array and the next
places in the tables that it needs. Every place has to fit into sixteen bits and be different from
the word for none; the first that does not is remembered and refuses the whole set.
-/
import VariableRegistry.Tables.Declaration
import VariableRegistry.Tables.Fault

namespace VariableRegistry

/-- Tables under construction. -/
structure Builder where
  tables : TableSet
  /-- The first number that did not fit. -/
  overflow : Option IndexKind

namespace Builder

/-- The builder without variables. -/
def new (policy : AccessPolicy) : Builder := ⟨{ TableSet.empty with policy }, none⟩

/-! ## Places -/

/-- Remembers that a number did not fit, unless another one came first. -/
def noteOverflow (b : Builder) (what : IndexKind) : Builder :=
  { b with overflow := b.overflow.or (some what) }

/-- A number as a word; one that does not fit becomes the word for none. -/
def narrow (b : Builder) (n : Nat) (what : IndexKind) : UInt16 × Builder :=
  if n < 0xFFFF then (UInt16.ofNat n, b) else (0xFFFF, b.noteOverflow what)

/-- Appends a constant text and returns its offset. -/
def pushText (b : Builder) (s : String) (what : IndexKind) : UInt16 × Builder :=
  let offset := b.tables.blob.size
  narrow { b with tables := { b.tables with blob := b.tables.blob.push s } } offset what

/-- The number of cells of an array. -/
def cellCount (b : Builder) : DataArray → UInt16
  | .number t => b.tables.cells.get t
  | .enums => b.tables.enumCells
  | .strings => b.tables.stringCells

/-- Sets the number of cells of an array. -/
def setCellCount (b : Builder) (array : DataArray) (n : UInt16) : Builder :=
  match array with
  | .number t => { b with tables := { b.tables with cells := b.tables.cells.set t n } }
  | .enums => { b with tables := { b.tables with enumCells := n } }
  | .strings => { b with tables := { b.tables with stringCells := n } }

/-- Reserves cells at the end of an array and returns the first of them. -/
def grow (b : Builder) (array : DataArray) (items : UInt16) : UInt16 × Builder :=
  let base := b.cellCount array
  if base.toNat + items.toNat < 0x10000 then (base, b.setCellCount array (base + items))
  else (base, b.noteOverflow (.cell array))

/-- Appends enumeration words. -/
def pushEnumWords (b : Builder) (words : List Int16) : Builder :=
  { b with tables := { b.tables with enumWords := b.tables.enumWords ++ words } }

/-- Appends the three words of a member, which no variable names. -/
def pushMember (b : Builder) (member : Int16 × String) : Builder :=
  let (symbol, b) := b.pushText member.2 .symbol
  b.pushEnumWords [-1, member.1, symbol.toInt16]

/-! ## Variables -/

/-- Places a kind of variable; returns its type word without the vector flag, and the words for
its source and its first cell. -/
def place (b : Builder) (kind : DeclaredKind) (items : UInt16) :
    (UInt16 × UInt16 × UInt16) × Builder :=
  match kind with
  | .number t template =>
    let index := (b.tables.templates.get t).size
    let b :=
      { b with tables :=
        { b.tables with
          templates := b.tables.templates.set t ((b.tables.templates.get t).push template) } }
    let (data, b) := b.grow (.number t) items
    let (source, b) := b.narrow index (.template t)
    (((VarType.number t).code, source, data), b)
  | .enumeration default members =>
    let index := b.tables.enumWords.size
    let b := b.pushEnumWords [default.toInt16, (UInt16.ofNat members.length).toInt16]
    let b := members.foldl pushMember b
    let (data, b) := b.grow .enums items
    let (source, b) := b.narrow index .enumWord
    ((VarType.enumeration.code, source, data), b)
  | .string text =>
    let (source, b) := b.pushText text .text
    let (cell, b) := b.grow .strings items
    let (data, b) := b.narrow (cell.toNat * TableSet.stringCellBytes) .stringByte
    ((VarType.string.code, source, data), b)
  | .constant text =>
    let (source, b) := b.pushText text .text
    ((VarType.string.code ||| VarType.constFlag, source, 0), b)
  | .action => ((VarType.action.code, 0, 0), b)

/-- The offset of a name, or the word for none. -/
def placeName (b : Builder) : Option String → UInt16 × Builder
  | some name => b.pushText name .name
  | none => (Handle.none.word, b)

/-- Declares a variable and returns its handle. -/
def add (b : Builder) (d : Declaration) : Handle × Builder :=
  let (handle, b) := b.narrow b.tables.vars.size .handle
  let items : UInt16 := if d.channels = 0 then 1 else d.channels
  let (name, b) := b.placeName d.name
  let ((type, source, data), b) := b.place d.kind items
  let raw : RawDescriptor :=
    { handle, name, type := if 1 < items then type ||| VarType.vectorFlag else type,
      channels := items, rights := d.rights.bits, source, data, storage := d.storage.bits,
      format := d.format.code }
  (⟨handle⟩, { b with tables := { b.tables with vars := b.tables.vars.push raw } })

/-- Declares variables in order and returns their handles. -/
def addAll (b : Builder) (ds : List Declaration) : List Handle × Builder :=
  let (handles, b) :=
    ds.foldl (fun (handles, b) d => let (h, b) := b.add d; (h :: handles, b)) ([], b)
  (handles.reverse, b)

/-- The finished tables, unless some number did not fit. -/
def build (b : Builder) : Except TableFault TableSet :=
  match b.overflow with
  | some what => .error (.overflow what)
  | none => .ok b.tables

end Builder

end VariableRegistry
