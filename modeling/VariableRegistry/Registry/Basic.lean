/-
# Registries

A registry is a directory, the store of its data and the policy by which capabilities are compared.
-/
import VariableRegistry.Registry.Gate
import VariableRegistry.Registry.Store

namespace VariableRegistry

/-- Variables with their data. -/
structure Registry where
  directory : Directory
  store : DataStore
  policy : AccessPolicy

namespace Registry

/-- Checks a table set and gives every variable its default. -/
def init (t : TableSet) : Except TableFault Registry := do
  let directory ← t.directory
  let store ← (DataStore.ofCounts directory.counts).reset directory
  return { directory, store, policy := t.policy }

/-- Gives every variable its default. -/
def reset (r : Registry) : Except TableFault Registry := do
  let store ← r.store.reset r.directory
  return { r with store }

/-- Changes how capabilities are compared. -/
def setPolicy (r : Registry) (policy : AccessPolicy) : Registry := { r with policy }

/-! ## What is known about a variable -/

/-- The variable with a handle. -/
def descriptor (r : Registry) (h : Handle) : Except AccessError Descriptor := r.directory.var h

/-- The rights of a variable, which are those of each of its channels. -/
def rights (r : Registry) (h : Handle) (_channel : UInt16) : Except AccessError Rights :=
  (r.descriptor h).map (·.rights)

/-- The type of a variable. -/
def varType (r : Registry) (h : Handle) : Except AccessError VarType :=
  (r.descriptor h).map (·.varType)

/-- The storage class of a variable. -/
def storage (r : Registry) (h : Handle) : Except AccessError Storage :=
  (r.descriptor h).map (·.storage)

/-- The format of a variable. -/
def format (r : Registry) (h : Handle) : Except AccessError Format :=
  (r.descriptor h).map (·.format)

/-- The number of channels of a variable. -/
def channels (r : Registry) (h : Handle) : Except AccessError UInt16 :=
  (r.descriptor h).map (·.channels)

/-- The name of a variable, unless it is hidden or unknown. -/
def name? (r : Registry) (h : Handle) : Option String :=
  match r.descriptor h with
  | .ok d => d.name
  | .error _ => none

/-- The members of a variable that is an enumeration. -/
def enumeration (r : Registry) (h : Handle) : Except AccessError Enumeration := do
  match (← r.descriptor h).kind with
  | .enumeration members _ => r.directory.enumeration members
  | _ => throw .invalidType

/-- The handle of the first variable with a name. -/
def find? (r : Registry) (name : String) : Option Handle :=
  (r.directory.vars.find? fun d => d.name = some name).map (·.handle)

end Registry

end VariableRegistry
