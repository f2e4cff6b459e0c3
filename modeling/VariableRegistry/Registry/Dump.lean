/-
# Dumps

A dump shows a variable with all that is known about it: a line with its descriptor, then a line
for each channel of a number or a string, a line for each member of an enumeration with the
channels that hold its value, or the constant text. A dump is a list of pieces, which are joined to
one text or written to a buffer as far as they fit.
-/
import VariableRegistry.BoundedText
import VariableRegistry.Registry.Basic
import VariableRegistry.Text.Quoted

namespace VariableRegistry

namespace Registry

/-! ## Pieces -/

/-- The places of a kind in tables and arrays. -/
def placesText : VarKind → String
  | .number _ template data => s!" descr={template} data={data}"
  | .enumeration members data => s!" enum={members} data={data}"
  | .string default data => s!" blob={default} data={data}"
  | .constant text => s!" blob={text}"
  | .action => ""

/-- The line with what is known about a variable. -/
def headerLine (d : Descriptor) : String :=
  d.displayName ++ " hnd=" ++ d.handle.text ++ " type=" ++ d.varType.name
    ++ (if d.vector then s!"[{d.channels}]" else "") ++ " storage=" ++ d.storage.name
    ++ " fmt=" ++ d.format.name ++ " acc=" ++ hexWord d.rights.bits ++ placesText d.kind ++ "\n"

/-- The line of a channel of a number. -/
def numberLine (t : NumType) (channel : Nat) (c : Cell t.Carrier) : String :=
  s!"  [{channel}] value=" ++ t.plain c.value ++ " min=" ++ t.plain c.min
    ++ " max=" ++ t.plain c.max ++ "\n"

/-- A text with blanks in front up to a length. -/
def alignRight (length : Nat) (cs : List Char) : List Char :=
  List.replicate (length - cs.length) ' ' ++ cs

/-- The line of a member: its value, its symbol and the channels that hold the value. -/
def memberPieces (m : Member) (holders : List Nat) : List String :=
  ("  " ++ String.ofList (alignRight 6 (Numeral.decimal m.value.toInt)) ++ " "
      ++ m.symbol.getD "-" ++ ":")
    :: holders.map (fun c => s!" {c}") ++ ["\n"]

/-- The lines of the channels of a variable. -/
def channelPieces (r : Registry) (d : Descriptor) (channels : List Nat) : List String :=
  match d.kind with
  | .number t _ data =>
    channels.filterMap fun c => ((r.store.numbers.get t)[data + c]?).map (numberLine t c)
  | .enumeration members data =>
    match r.directory.enums[members]? with
    | none => []
    | some e =>
      e.members.flatMap fun m =>
        memberPieces m (channels.filter fun c => r.store.enums[data + c]? = some m.value)
  | .string _ data =>
    channels.filterMap fun c =>
      (r.store.strings[data + c]?).map fun s => s!"  [{c}] " ++ Text.quote s ++ "\n"
  | .constant offset =>
    ["  " ++ Text.quote ((r.directory.blob.textAt? offset).getD "") ++ "\n"]
  | .action => []

/-- The pieces of the dump of a variable from a channel on. -/
def dumpPieces (r : Registry) (h : Handle) (channel : UInt16) : List String :=
  match r.descriptor h with
  | .error e => ["hnd=" ++ h.text ++ ": " ++ e.message ++ "\n"]
  | .ok d =>
    let count := d.channels.toNat - channel.toNat
    headerLine d ::
      if count = 0 then [s!"  channel {channel} outside {d.channels} channels\n"]
      else r.channelPieces d (List.range' channel.toNat count)

/-! ## Dumps -/

/-- The dump of a variable. -/
def dump (r : Registry) (h : Handle) : String := String.join (r.dumpPieces h 0)

/-- Writes the dump of a variable from a channel on into a buffer, as far as it fits; returns the
length of what was written, and the buffer. -/
def dumpInto (r : Registry) (buffer : List UInt8) (h : Handle) (channel : UInt16) :
    Nat × List UInt8 :=
  ((BoundedText.new buffer).writeAll (r.dumpPieces h channel)).finish

/-- The dumps of some variables one after another. -/
def dumpAll (r : Registry) (hs : List Handle) : String := String.join (hs.map r.dump)

end Registry

end VariableRegistry
