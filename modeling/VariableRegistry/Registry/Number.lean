/-
# Access to numbers

Numbers of all four types are read and written by one rule: the handle, the type, the rights and
the channel are checked in this order, and a value that is written meets the bounds of its own
cell. Enumerations are reached as `INT16` and take the values of their members only.
-/
import VariableRegistry.Registry.Access

namespace VariableRegistry

/-! ## Requests -/

/-- Who asks for which channel of which variable, and whether to read or to write. -/
structure Request where
  handle : Handle
  direction : Direction
  channel : UInt16
  requester : Rights

/-! ## Values and bounds -/

/-- The value that a write stores: one beyond the bounds of the cell is refused or clipped if the
rights of the variable say so. -/
def boundedValue (t : NumType) (rights : Rights) (cell : Cell t.Carrier) (v : t.Carrier) :
    Except AccessError t.Carrier :=
  if rights.isLimit then
    if t.isNaN v then .error .invalidValue
    else if t.lt cell.max v then .error .upperLimit
    else if t.lt v cell.min then .error .lowerLimit
    else .ok v
  else if rights.isClip then
    if t.isNaN v then .error .invalidValue
    else if t.lt cell.max v then .ok cell.max
    else if t.lt v cell.min then .ok cell.min
    else .ok v
  else .ok v

/-! ## Finding cells -/

/-- The position and the content of the cell of a channel, among cells of which those of the
variable begin at `data`. -/
def cellAt {α : Type} (cells : Array α) (data : Nat) (channel : UInt16) :
    Except AccessError (Nat × α) :=
  (demand cells[data + channel.toNat]? .invalidChannel).map fun cell => (data + channel.toNat, cell)

namespace Registry

/-- The position and the content of the cell of a channel of a variable declared with a number
type, which has to pass a check of its own before the channel is looked at. -/
def numberCell (t : NumType) (r : Registry) (h : Handle) (channel : UInt16)
    (check : Descriptor → Except AccessError Unit) :
    Except AccessError (Descriptor × Nat × Cell t.Carrier) := do
  let var ← r.descriptor h
  let data ← demand (var.kind.numberCells? t) .invalidType
  check var
  var.checkChannel channel
  let (i, cell) ← cellAt (r.store.numbers.get t) data channel
  return (var, i, cell)

/-- The members of a variable declared as an enumeration, with the position and the content of the
cell of a channel. -/
def memberCell (r : Registry) (h : Handle) (channel : UInt16)
    (check : Descriptor → Except AccessError Unit) :
    Except AccessError (Nat × Nat × Int16) := do
  let var ← r.descriptor h
  let (members, data) ← demand var.kind.memberCells? .invalidType
  check var
  var.checkChannel channel
  let (i, current) ← cellAt r.store.enums data channel
  return (members, i, current)

/-- Replaces a cell of a number type. -/
def setCell (r : Registry) (t : NumType) (i : Nat) (cell : Cell t.Carrier) : Registry :=
  let cells := (r.store.numbers.get t).setIfInBounds i cell
  { r with store := { r.store with numbers := r.store.numbers.set t cells } }

/-- Replaces the value of an enumeration cell. -/
def setEnum (r : Registry) (i : Nat) (v : Int16) : Registry :=
  { r with store := { r.store with enums := r.store.enums.setIfInBounds i v } }

/-! ## Access -/

/-- Compares the rights of a variable with those of the requester. -/
def gate (r : Registry) (q : Request) (var : Descriptor) : Except AccessError Unit :=
  checkAccess var.rights q.direction q.requester r.policy

/-- Reads a channel of a variable declared with a number type into the argument, or writes the
argument to it. -/
def number (t : NumType) (q : Request) : Access t.Carrier Unit := do
  let r ← Access.registry
  let (var, i, cell) ← r.numberCell t q.handle q.channel (r.gate q)
  match q.direction with
  | .read => Access.setArgument cell.value
  | .write =>
    let stored ← boundedValue t var.rights cell (← Access.argument)
    Access.setRegistry (r.setCell t i { cell with value := stored })

/-- Reads a channel of an enumeration into the argument, or writes the argument to it. -/
def member (q : Request) : Access Int16 Unit := do
  let r ← Access.registry
  let (members, i, current) ← r.memberCell q.handle q.channel (r.gate q)
  match q.direction with
  | .read => Access.setArgument current
  | .write =>
    let v ← Access.argument
    let e ← r.directory.enumeration members
    require (e.contains v) AccessError.invalidEnum
    Access.setRegistry (r.setEnum i v)

/-- Reads or writes a channel as a number type; as `INT16` also an enumeration. -/
def typed : (t : NumType) → Request → Access t.Carrier Unit
  | .int16, q => do
    match (← (← Access.registry).descriptor q.handle).kind with
    | .enumeration _ _ => member q
    | _ => number .int16 q
  | t, q => number t q

end Registry

end VariableRegistry
