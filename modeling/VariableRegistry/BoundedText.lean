/-
# Bounded text

A bounded text writes into a buffer of fixed size. One byte is kept for the zero byte at the end.
A piece that does not fit is cut at its last whole character, and every later piece is refused.
-/
import VariableRegistry.Text.Utf8

namespace VariableRegistry

/-- A buffer that is being written. -/
structure BoundedText where
  buffer : List UInt8
  /-- The number of bytes written. -/
  length : Nat
  /-- Whether a piece did not fit. -/
  truncated : Bool
deriving DecidableEq, Repr

namespace BoundedText

/-- Nothing written into a buffer yet. -/
def new (buffer : List UInt8) : BoundedText := ⟨buffer, 0, false⟩

/-- The number of bytes that can be written. -/
def capacity (w : BoundedText) : Nat := w.buffer.length - 1

/-- Puts bytes into a buffer at a position. -/
def overwrite (buffer : List UInt8) (position : Nat) (bytes : List UInt8) : List UInt8 :=
  buffer.take position ++ bytes ++ buffer.drop (position + bytes.length)

/-- Writes a piece; true if all of it fits. -/
def write (w : BoundedText) (s : String) : Bool × BoundedText :=
  if w.truncated then (false, w)
  else
    let part := Utf8.take (w.capacity - w.length) s.toList
    let bytes := Utf8.encode part
    let whole := part.length = s.toList.length
    (whole, ⟨overwrite w.buffer w.length bytes, w.length + bytes.length, !whole⟩)

/-- Writes pieces until one does not fit. -/
def writeAll (w : BoundedText) : List String → BoundedText
  | [] => w
  | s :: rest =>
    match w.write s with
    | (true, w) => writeAll w rest
    | (false, w) => w

/-- The text written so far. -/
def text (w : BoundedText) : String :=
  String.ofList (((Utf8.decode? (w.buffer.take w.length)).getD []))

/-- Ends the text with a zero byte where there is room; returns its length and the buffer. -/
def finish (w : BoundedText) : Nat × List UInt8 := (w.length, w.buffer.set w.length 0)

end BoundedText

end VariableRegistry
