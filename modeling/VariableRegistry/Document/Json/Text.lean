/-
# Texts in JSON

A text stands between quotes. Quotes, backslashes and control characters are escaped; any
character may be, by the number of its one or two sixteen-bit units. Units that do not form a
character leave a value that is well-formed and yet no text.
-/
import VariableRegistry.Numeral

namespace VariableRegistry.Json

/-! ## Writing -/

/-- The letter that stands behind a backslash for a character. -/
def shortEscape? (c : Char) : Option Char :=
  if c = '"' then some '"'
  else if c = '\\' then some '\\'
  else if c = '\x08' then some 'b'
  else if c = '\x0c' then some 'f'
  else if c = '\n' then some 'n'
  else if c = '\r' then some 'r'
  else if c = '\t' then some 't'
  else none

/-- A character as it stands in a text. -/
def escape (c : Char) : List Char :=
  match shortEscape? c with
  | some e => ['\\', e]
  | none =>
    if c < ' ' then '\\' :: 'u' :: Numeral.padded 4 (Nat.toDigits 16 c.toNat) else [c]

/-- A text between quotes. -/
def writeText (s : String) : List Char := '"' :: s.toList.flatMap escape ++ ['"']

/-! ## Reading -/

/-- A part of a text: a character, or one unit of its encoding in sixteen bits. -/
inductive Piece where
  | char (c : Char)
  | unit (n : Nat)
deriving DecidableEq, Repr

/-- The character for a letter behind a backslash. -/
def shortEscaped? (e : Char) : Option Char :=
  if e = '"' || e = '\\' || e = '/' then some e
  else if e = 'b' then some '\x08'
  else if e = 'f' then some '\x0c'
  else if e = 'n' then some '\n'
  else if e = 'r' then some '\r'
  else if e = 't' then some '\t'
  else none

/-- Reads the pieces of a text up to its closing quote, behind some that were read before, last
one first. -/
def readPieces (read : List Piece) : List Char → Option (List Piece × List Char)
  | [] => none
  | '"' :: cs => some (read.reverse, cs)
  | '\\' :: 'u' :: a :: b :: c :: d :: cs =>
    (Numeral.ofDigits? 16 [a, b, c, d]).bind fun n => readPieces (.unit n :: read) cs
  | '\\' :: e :: cs => (shortEscaped? e).bind fun c => readPieces (.char c :: read) cs
  | c :: cs => if c < ' ' || c = '\\' then none else readPieces (.char c :: read) cs

/-- Joins pieces to characters; two units above the others stand for one character. -/
def joinPieces : List Piece → Option (List Char)
  | [] => some []
  | .char c :: pieces => (joinPieces pieces).map (c :: ·)
  | .unit n :: pieces =>
    if n < 0xD800 || 0xE000 ≤ n then (joinPieces pieces).map (Char.ofNat n :: ·)
    else
      match pieces with
      | .unit m :: pieces =>
        if n < 0xDC00 && 0xDC00 ≤ m && m < 0xE000 then
          (joinPieces pieces).map
            (Char.ofNat (0x10000 + (n - 0xD800) * 0x400 + (m - 0xDC00)) :: ·)
        else none
      | _ => none

/-- Reads a text behind its opening quote: the text, unless its units form none, and what follows
it. -/
def readText (cs : List Char) : Option (Option String × List Char) :=
  (readPieces [] cs).map fun (pieces, rest) => ((joinPieces pieces).map String.ofList, rest)

end VariableRegistry.Json
