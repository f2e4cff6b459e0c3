/-
# The constant text

All constant texts of a table set stand one after another in a blob, each ended by a zero byte, and
are addressed by the offset of their first byte. An offset may also point into the middle of a
text, so what stands there need not begin with a whole character. As a list of strings the blob
keeps its offsets, since each text is followed by one zero byte in either form.
-/
import VariableRegistry.Text.Utf8

namespace VariableRegistry

/-- Texts, each ended by a zero byte. -/
structure Blob where
  bytes : Array UInt8
deriving DecidableEq, Repr

namespace Blob

/-- The blob without texts. -/
def empty : Blob := ⟨#[]⟩

/-- The number of bytes, which is the offset of the next text. -/
def size (b : Blob) : Nat := b.bytes.size

/-- Appends a text. -/
def push (b : Blob) (s : String) : Blob :=
  ⟨(b.bytes ++ Utf8.encode s.toList).push 0⟩

/-- The first position from `i` on that holds a zero byte. -/
def zeroFrom? (bytes : Array UInt8) (i : Nat) : Option Nat :=
  if h : i < bytes.size then
    if bytes[i] = 0 then some i else zeroFrom? bytes (i + 1)
  else none
termination_by bytes.size - i

/-- The bytes from an offset up to the next zero byte. -/
def bytesAt? (b : Blob) (offset : Nat) : Option (List UInt8) :=
  (zeroFrom? b.bytes offset).map fun stop => (b.bytes.extract offset stop).toList

/-- The text at an offset, a replacement mark standing for every fault. -/
def textAt? (b : Blob) (offset : Nat) : Option String :=
  (b.bytesAt? offset).map fun bytes => String.ofList (Utf8.decodeLossy bytes)

/-- Whether an offset points into the blob at a text that is ended. -/
def resolves (b : Blob) (offset : Nat) : Bool := (zeroFrom? b.bytes offset).isSome

/-! ## The blob as a list of strings -/

/-- Cuts bytes at each zero byte; bytes that no zero byte ends are dropped. -/
def segments (done : List (List UInt8)) (current : List UInt8) : List UInt8 → List (List UInt8)
  | [] => done.reverse
  | b :: bytes =>
    if b = 0 then segments (current.reverse :: done) [] bytes
    else segments done (b :: current) bytes

/-- The texts of the blob in order. -/
def toStrings (b : Blob) : List String :=
  (segments [] [] b.bytes.toList).map fun bytes => String.ofList (Utf8.decodeLossy bytes)

/-- The blob of some texts in order. -/
def ofStrings (texts : List String) : Blob := texts.foldl push empty

end Blob

end VariableRegistry
