/-
# Shared registries

A registry that several clients use is locked during each call. A client that breaks down inside a
call leaves the lock poisoned, and from then on every call fails without touching the registry.
-/
import VariableRegistry.Registry.Basic

namespace VariableRegistry

/-- A registry behind a lock. -/
structure SharedRegistry where
  registry : Registry
  /-- Whether a client broke down inside a call. -/
  poisoned : Bool

namespace SharedRegistry

/-- A registry that nobody has locked yet. -/
def new (r : Registry) : SharedRegistry := ⟨r, false⟩

/-- Runs a call on the registry; a call that fails may have changed it before. -/
def run {α : Type} (s : SharedRegistry) (call : Registry → Except AccessError α × Registry) :
    Except AccessError α × SharedRegistry :=
  if s.poisoned then (.error .generic, s)
  else
    let (result, registry) := call s.registry
    (result, { s with registry })

/-- A client breaks down inside a call. -/
def poison (s : SharedRegistry) : SharedRegistry := { s with poisoned := true }

end SharedRegistry

end VariableRegistry
