/-
# Calls

A call is one use of a registry with all its arguments, and a reply is everything that the caller
sees of it: the result and, where an argument is handed in and out, that argument afterwards.
`Registry.step` answers a call and gives the registry after it.
-/
import VariableRegistry.Registry.Bound
import VariableRegistry.Registry.Dump
import VariableRegistry.Registry.Text

namespace VariableRegistry

/-! ## Calls and replies -/

/-- One use of a registry. -/
inductive Call where
  /-- Access to a channel as a number type, with the value handed in. -/
  | typed (type : NumType) (request : Request) (value : type.Carrier)
  /-- Access to a channel as text, with the text handed in. -/
  | text (request : Request) (text : String)
  /-- Copies a bound into a buffer. -/
  | getBound (bound : Bound) (handle : Handle) (buffer : List UInt8) (channel : UInt16)
  /-- Replaces a bound by bytes. -/
  | setBound (bound : Bound) (handle : Handle) (bytes : List UInt8) (channel : UInt16)
  /-- Asks for a bound. -/
  | boundValue (bound : Bound) (handle : Handle) (channel : UInt16)
  /-- Replaces a bound by a value. -/
  | setBoundValue (bound : Bound) (handle : Handle) (value : NumValue) (channel : UInt16)
  /-- Changes how capabilities are compared. -/
  | setPolicy (policy : AccessPolicy)
  /-- Writes a dump into a buffer. -/
  | dump (handle : Handle) (buffer : List UInt8) (channel : UInt16)
  /-- Gives every variable its default. -/
  | reset

/-- What the caller of a call sees. -/
inductive Reply where
  /-- The result and the value afterwards. -/
  | typed (type : NumType) (result : Except AccessError Unit) (value : type.Carrier)
  /-- The result and the text afterwards. -/
  | text (result : Except AccessError Unit) (text : String)
  /-- The result and the buffer afterwards. -/
  | buffer (result : Except AccessError Unit) (buffer : List UInt8)
  /-- The result alone. -/
  | done (result : Except AccessError Unit)
  /-- A bound or an error. -/
  | bound (result : Except AccessError NumValue)
  /-- The length of a dump and the buffer afterwards. -/
  | dump (length : Nat) (buffer : List UInt8)
  /-- The result of a reset. -/
  | reset (result : Except TableFault Unit)

/-! ## Steps -/

namespace Registry

/-- Answers a call. -/
def step (r : Registry) : Call → Reply × Registry
  | .typed t q v =>
    let (result, v, r) := (typed t q).outcome v r
    (.typed t result v, r)
  | .text q s =>
    let (result, s, r) := (text q).outcome s r
    (.text result s, r)
  | .getBound b h buffer channel =>
    let (result, buffer, r) := (getBound b h channel).outcome buffer r
    (.buffer result buffer, r)
  | .setBound b h bytes channel =>
    let (result, _, r) := (setBound b h bytes channel).outcome () r
    (.done result, r)
  | .boundValue b h channel => (.bound (r.boundValue b h channel), r)
  | .setBoundValue b h v channel =>
    let (result, _, r) := (setBoundValue b h v channel).outcome () r
    (.done result, r)
  | .setPolicy policy => (.done (.ok ()), r.setPolicy policy)
  | .dump h buffer channel =>
    let (n, buffer) := r.dumpInto buffer h channel
    (.dump n buffer, r)
  | .reset =>
    match r.reset with
    | .ok r => (.reset (.ok ()), r)
    | .error e => (.reset (.error e), r)

/-- Answers calls one after another; the replies stand in their order. -/
def run (r : Registry) : List Call → List Reply × Registry
  | [] => ([], r)
  | call :: calls =>
    let (reply, r) := r.step call
    let (replies, r) := run r calls
    (reply :: replies, r)

/-- A registry that calls lead to from the one that a table set begins with. -/
inductive Reachable (t : TableSet) : Registry → Prop where
  | init {r : Registry} : Registry.init t = .ok r → Reachable t r
  | step {r : Registry} (call : Call) : Reachable t r → Reachable t (r.step call).2

end Registry

end VariableRegistry
