/-
# The data store

The store holds what changes: a cell for each channel of each variable. A number cell has a value
and its own bounds, a string cell a text. Resetting fills the cells of every variable, in order of
declaration, with its default.
-/
import VariableRegistry.Registry.Directory

namespace VariableRegistry

/-! ## Cells -/

/-- The cell of a number: its value and its bounds. -/
structure Cell (α : Type) where
  value : α
  min : α
  max : α
deriving DecidableEq, Repr

/-- The cell as a template describes it. -/
def Template.cell {α : Type} (t : Template α) : Cell α := ⟨t.default, t.min, t.max⟩

/-- The cells of all variables. -/
structure DataStore where
  numbers : PerType fun t => Array (Cell t.Carrier)
  enums : Array Int16
  strings : Array String

namespace DataStore

/-- A store of zeros and empty texts. -/
def ofCounts (c : CellCounts) : DataStore where
  numbers := PerType.ofFn fun t =>
    Array.replicate (c.numbers.get t) ⟨t.zero, t.zero, t.zero⟩
  enums := Array.replicate c.enums 0
  strings := Array.replicate c.strings ""

/-! ## Resetting -/

/-- Puts a value into the cells from `first` up to `first + items`. -/
def fillCells {α : Type} (cells : Array α) (first items : Nat) (x : α) : Array α :=
  items.fold (fun i _ cells => cells.setIfInBounds (first + i) x) cells

/-- Puts a value into cells that all have to be there. -/
def fill {α : Type} (cells : Array α) (first items : Nat) (x : α) :
    Except TableFault (Array α) :=
  if first + items ≤ cells.size then .ok (fillCells cells first items x)
  else .error (.cellsOutside first (first + items) cells.size)

/-- The default text of a string: what stands at an offset, which has to be whole characters and
to fit into a cell. -/
def defaultText (d : Directory) (offset : Nat) : Except VariableFault String := do
  let bytes ← demand (d.blob.bytesAt? offset) .textMissing
  let text ← demand (Utf8.decode? bytes) .textMissing
  require (bytes.length ≤ TableSet.maxStringBytes) .textBeyondCell
  return String.ofList text

/-- Fills the cells of a variable with its default. -/
def resetVariable (d : Directory) (s : DataStore) (v : Descriptor) :
    Except TableFault DataStore :=
  let items := v.channels.toNat
  match v.kind with
  | .number t template data => do
    let x ← demand (d.templates.get t)[template]? (.templateMissing template)
    let cells ← fill (s.numbers.get t) data items x.cell
    return { s with numbers := s.numbers.set t cells }
  | .enumeration members data => do
    let e ← demand d.enums[members]? (.inVariable v.handle.index .enumMissing)
    let cells ← fill s.enums data items e.defaultValue
    return { s with enums := cells }
  | .string default data => do
    let text ← (defaultText d default).mapError (.inVariable v.handle.index)
    let cells ← fill s.strings data items text
    return { s with strings := cells }
  | .constant _ => .ok s
  | .action => .ok s

/-- Fills the cells of all variables with their defaults. -/
def reset (d : Directory) (s : DataStore) : Except TableFault DataStore :=
  d.vars.toList.foldlM (resetVariable d) s

end DataStore

end VariableRegistry
