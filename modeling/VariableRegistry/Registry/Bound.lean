/-
# Bounds

Each channel of a number has bounds of its own, which can be read and replaced, as bytes or as a
value with its type. No rights are needed for that.
-/
import VariableRegistry.Registry.Number

namespace VariableRegistry

/-- One of the two bounds of a cell. -/
inductive Bound where
  | min
  | max
deriving DecidableEq, Repr

/-- The bound in a cell. -/
def Bound.get {α : Type} (b : Bound) (c : Cell α) : α :=
  match b with
  | min => c.min
  | max => c.max

/-- The cell with another bound. -/
def Bound.set {α : Type} (b : Bound) (c : Cell α) (x : α) : Cell α :=
  match b with
  | min => { c with min := x }
  | max => { c with max := x }

namespace Registry

/-! ## Bounds as values -/

/-- The bound of a channel. -/
def boundValue (r : Registry) (b : Bound) (h : Handle) (channel : UInt16) :
    Except AccessError NumValue := do
  let t ← demand (← r.descriptor h).kind.numType? .invalidType
  let (_, _, cell) ← r.numberCell t h channel fun _ => .ok ()
  return ⟨t, b.get cell⟩

/-- Replaces the bound of a channel by a value of its type. -/
def setBoundValue (b : Bound) (h : Handle) (v : NumValue) (channel : UInt16) :
    Access Unit Unit := do
  let r ← Access.registry
  let (_, i, cell) ← r.numberCell v.type h channel fun _ => .ok ()
  Access.setRegistry (r.setCell v.type i (b.set cell v.value))

/-! ## Bounds as bytes -/

/-- The number type of a variable whose bound is to be moved through a buffer of some length. -/
def boundType (r : Registry) (h : Handle) (length : Nat) : Except AccessError NumType := do
  let var ← r.descriptor h
  require (length ≠ 0) .invalidArgument
  let t ← demand var.kind.numType? .invalidType
  require (t.byteWidth ≤ length) .invalidArgument
  return t

/-- Copies the bytes of a bound to the front of the argument, a buffer. -/
def getBound (b : Bound) (h : Handle) (channel : UInt16) : Access (List UInt8) Unit := do
  let r ← Access.registry
  let buffer ← Access.argument
  let t ← r.boundType h buffer.length
  let (_, _, cell) ← r.numberCell t h channel fun _ => .ok ()
  Access.setArgument (t.toBytes (b.get cell) ++ buffer.drop t.byteWidth)

/-- Replaces a bound by the value whose bytes stand at the front of a buffer. -/
def setBound (b : Bound) (h : Handle) (bytes : List UInt8) (channel : UInt16) :
    Access Unit Unit := do
  let r ← Access.registry
  let t ← r.boundType h bytes.length
  let (_, i, cell) ← r.numberCell t h channel fun _ => .ok ()
  Access.setRegistry (r.setCell t i (b.set cell (t.ofBytes bytes)))

end Registry

end VariableRegistry
