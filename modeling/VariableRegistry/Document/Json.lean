/-
# JSON

The reader and the writer of documents in JSON. The reader takes no more than one value with white
space around it. Files are written with every item on a line of its own.
-/
import VariableRegistry.Document.Data
import VariableRegistry.Document.Json.Number
import VariableRegistry.Document.Json.Text

namespace VariableRegistry.Json

/-! ## Reading -/

/-- Whether a character may stand between values. -/
def isSpace (c : Char) : Bool := c = ' ' || c = '\n' || c = '\t' || c = '\r'

/-- The text without the space in front. -/
def skipSpace (cs : List Char) : List Char := cs.dropWhile isSpace

/-- Reads a word of the language. -/
def readName (cs : List Char) : Option (Document × List Char) :=
  if "null".toList.isPrefixOf cs then some (.nothing, cs.drop 4)
  else if "true".toList.isPrefixOf cs then some (.other, cs.drop 4)
  else if "false".toList.isPrefixOf cs then some (.other, cs.drop 5)
  else none

/-- A record of entries, last one first; an entry without a key leaves a value that no field
takes. -/
def recordOf (entries : List (Option String × Document)) : Document :=
  match entries.reverse.mapM fun (key, d) => key.map fun k => (k, d) with
  | some fields => .record fields
  | none => .other

mutual

/-- Reads a value. The first argument bounds the number of steps. -/
def readValue : Nat → List Char → Option (Document × List Char)
  | 0, _ => none
  | fuel + 1, cs =>
    match skipSpace cs with
    | '"' :: cs =>
      (readText cs).map fun (s, cs) => ((s.map Document.text).getD .other, cs)
    | '[' :: cs =>
      match skipSpace cs with
      | ']' :: cs => some (.list [], cs)
      | cs => readItems fuel [] cs
    | '\x7b' :: cs =>
      match skipSpace cs with
      | '\x7d' :: cs => some (.record [], cs)
      | cs => readEntries fuel [] cs
    | c :: cs =>
      if c = '-' || c.isDigit then readNumber (c :: cs) else readName (c :: cs)
    | [] => none

/-- Reads the rest of a list behind some items, last one first. -/
def readItems : Nat → List Document → List Char → Option (Document × List Char)
  | 0, _, _ => none
  | fuel + 1, items, cs =>
    (readValue fuel cs).bind fun (d, cs) =>
      match skipSpace cs with
      | ',' :: cs => readItems fuel (d :: items) cs
      | ']' :: cs => some (.list (d :: items).reverse, cs)
      | _ => none

/-- Reads the rest of a record behind some entries, last one first. -/
def readEntries :
    Nat → List (Option String × Document) → List Char → Option (Document × List Char)
  | 0, _, _ => none
  | fuel + 1, entries, cs =>
    match skipSpace cs with
    | '"' :: cs =>
      (readText cs).bind fun (key, cs) =>
        match skipSpace cs with
        | ':' :: cs =>
          (readValue fuel cs).bind fun (d, cs) =>
            match skipSpace cs with
            | ',' :: cs => readEntries fuel ((key, d) :: entries) cs
            | '\x7d' :: cs => some (recordOf ((key, d) :: entries), cs)
            | _ => none
        | _ => none
    | _ => none

end

/-- Reads a document: one value with white space around it. -/
def read? (cs : List Char) : Option Document :=
  match readValue (2 * cs.length + 2) cs with
  | some (d, rest) => if (skipSpace rest).isEmpty then some d else none
  | none => none

/-- A list that stands for a record has no surplus elements; nothing stands behind the name of a
choice. -/
def rules : Document.Rules where
  surplus := false
  isUnit
    | .nothing => true
    | _ => false

/-! ## Writing -/

/-- What begins a line at some depth: two blanks for each level. -/
def newline (depth : Nat) : List Char := '\n' :: List.replicate (2 * depth) ' '

mutual

/-- Writes a document at some depth. A value that has no form of its own is written as the value
that says that there is none. -/
def write (depth : Nat) : Document → List Char
  | .integer n => Numeral.decimal n
  | .single x => writeFloat singleStyle x
  | .double x => writeFloat doubleStyle x
  | .text s => writeText s
  | .list [] => ['[', ']']
  | .list (d :: items) =>
    '[' :: newline (depth + 1) ++ write (depth + 1) d ++ writeItems depth items
  | .record [] => ['\x7b', '\x7d']
  | .record (f :: fields) =>
    '\x7b' :: newline (depth + 1) ++ writeField (depth + 1) f ++ writeFields depth fields
  | _ => "null".toList

/-- Writes a field of a record. -/
def writeField (depth : Nat) : String × Document → List Char
  | (key, d) => writeText key ++ ':' :: ' ' :: write depth d

/-- Writes the items of a list behind the first one, and the end of the list. -/
def writeItems (depth : Nat) : List Document → List Char
  | [] => newline depth ++ [']']
  | d :: items => ',' :: newline (depth + 1) ++ write (depth + 1) d ++ writeItems depth items

/-- Writes the fields of a record behind the first one, and the end of the record. -/
def writeFields (depth : Nat) : List (String × Document) → List Char
  | [] => newline depth ++ ['\x7d']
  | f :: fields =>
    ',' :: newline (depth + 1) ++ writeField (depth + 1) f ++ writeFields depth fields

end

/-- JSON as a format of files. -/
def format : TextFormat where
  write? s x := some (write 0 (Document.ofValue s x))
  read? s cs := (read? cs).bind (Document.value? rules s)

end VariableRegistry.Json
