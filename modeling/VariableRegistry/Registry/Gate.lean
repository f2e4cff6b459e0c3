/-
# The gate

Two checks precede every access. The rights of the requester are compared with those of the
variable: a write needs the administrator bit on both sides or on neither, and the capabilities are
compared as the policy says. A channel other than the first has to exist.
-/
import VariableRegistry.Error
import VariableRegistry.Registry.Descriptor

namespace VariableRegistry

/-- Whether capabilities are granted under a policy. -/
def AccessPolicy.grants (p : AccessPolicy) (granted requested : Rights) : Bool :=
  match p with
  | .exact => granted = requested
  | .subset => granted.contains requested

/-- Compares the rights of a variable with those of a requester. -/
def checkAccess (rights : Rights) (direction : Direction) (requester : Rights)
    (policy : AccessPolicy) : Except AccessError Unit :=
  if direction = .write ∧ rights.isAdmin ≠ requester.isAdmin then .error .accessDenied
  else if policy.grants rights.capabilities requester.capabilities then .ok ()
  else .error .accessDenied

namespace Descriptor

/-- Whether a channel of a vector exists. -/
def checkVector (d : Descriptor) (channel : UInt16) : Except AccessError Unit :=
  if !d.vector then .error .notVector
  else if d.channels ≤ channel then .error .invalidChannel
  else .ok ()

/-- Whether a channel exists; the first one always does. -/
def checkChannel (d : Descriptor) (channel : UInt16) : Except AccessError Unit :=
  if 0 < channel then d.checkVector channel else .ok ()

end Descriptor

end VariableRegistry
