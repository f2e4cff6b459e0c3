/-
# Access as text

Every variable with a value can be read and written as text. Numbers and enumerations go through
their text and then take the way of typed access; an enumeration also takes the symbol of a member.
Strings are copied: what a cell cannot hold is refused, and text behind a zero character is never
stored.
-/
import VariableRegistry.Registry.Number

namespace VariableRegistry

namespace Registry

/-- Replaces the text of a string cell. -/
def setString (r : Registry) (i : Nat) (s : String) : Registry :=
  { r with store := { r.store with strings := r.store.strings.setIfInBounds i s } }

/-- The text before the first zero character. -/
def beforeZero (s : String) : String := String.ofList (s.toList.takeWhile (· ≠ '\x00'))

/-- Whether a string cell can hold a text. -/
def fitsCell (s : String) : Bool := Utf8.size s.toList ≤ TableSet.maxStringBytes

/-- The value that a text names in an enumeration: a numeral, or else the symbol of a member. -/
def parseMember (r : Registry) (members : Nat) (text : String) : Except AccessError Int16 :=
  match NumType.parseInt16 text with
  | .ok v => .ok v
  | .error _ => do
    let e ← r.directory.enumeration members
    let m ← demand (e.bySymbol? (String.ofList (Text.trim text.toList))) .invalidValue
    return m.value

/-- Reads a constant text into the argument, as far as a string cell could hold it; a write is
always refused. -/
def constant (q : Request) (var : Descriptor) (offset : Nat) : Access String Unit := do
  let r ← Access.registry
  var.checkChannel q.channel
  match q.direction with
  | .write => throw .accessDenied
  | .read =>
    r.gate q var
    let text ← demand (r.directory.blob.textAt? offset) AccessError.generic
    Access.setArgument (String.ofList (Utf8.take TableSet.maxStringBytes text.toList))

/-- The position and the content of the string cell of a channel; unlike that of a number it is
looked for before the rights are compared. -/
def stringCell (r : Registry) (q : Request) (var : Descriptor) (data : Nat) :
    Except AccessError (Nat × String) := do
  var.checkChannel q.channel
  r.gate q var
  cellAt r.store.strings data q.channel

/-- Reads a string cell into the argument, or writes the argument to it. -/
def string (q : Request) (var : Descriptor) (data : Nat) : Access String Unit := do
  let r ← Access.registry
  let (i, current) ← r.stringCell q var data
  match q.direction with
  | .read => Access.setArgument current
  | .write =>
    let stored := beforeZero (← Access.argument)
    require (fitsCell stored) AccessError.sizeTooBig
    Access.setRegistry (r.setString i stored)

/-- Reads a channel as a number type and the value as text into the argument, or writes the value
of the argument to the channel. -/
def textual (t : NumType) (q : Request) (format : Format)
    (parse : String → Except AccessError t.Carrier) : Access String Unit := do
  match q.direction with
  | .write =>
    let v ← parse (← Access.argument)
    let _ ← Access.withArgument v (typed t q)
  | .read =>
    let v ← Access.withArgument t.zero (typed t q)
    Access.setArgument (t.render v format)

/-- Reads a channel as text into the argument, or writes the argument to it. -/
def text (q : Request) : Access String Unit := do
  let r ← Access.registry
  let var ← r.descriptor q.handle
  match var.kind with
  | .number t _ _ => textual t q var.format (t.parse var.format)
  | .enumeration members _ => textual .int16 q var.format (r.parseMember members)
  | .string _ data => string q var data
  | .constant offset => constant q var offset
  | .action => throw .invalidType

end Registry

end VariableRegistry
