/-
# TOML

The reader and the writer of documents in TOML. A file is read line by line: a line assigns a value
to a key of the table that the last header opened, or is itself a header. The writer puts the plain
values of a document first and gives every table a header of its own.
-/
import VariableRegistry.Document.Data
import VariableRegistry.Document.Toml.Value

namespace VariableRegistry.Toml

/-! ## Reading -/

/-- A file that has been read up to some line: its tables and the path of the open one. -/
structure Outline where
  root : Entries
  openPath : List String

namespace Outline

/-- Nothing read yet. -/
def empty : Outline := ⟨[], []⟩

/-- Assigns a value to a key of the open table. -/
def assign? (o : Outline) (path : List String) (key : String) (d : Document) : Option Outline :=
  (descend? false (fun _ entries => insert? path key d entries) o.openPath .header o.root).map
    fun root => { o with root }

/-- Opens a table. -/
def openTable? (o : Outline) (path : List String) (key : String) : Option Outline :=
  (Toml.openTable? path key o.root).map fun root => ⟨root, path ++ [key]⟩

/-- Opens a new table at the end of an array of tables. -/
def addTable? (o : Outline) (path : List String) (key : String) : Option Outline :=
  (Toml.addTable? path key o.root).map fun root => ⟨root, path ++ [key]⟩

/-- The file as a document. -/
def toDocument (o : Outline) : Document := .record (fieldsOf o.root)

end Outline

/-- Reads a path and the brackets behind it. -/
def readHeader (close : List Char) (cs : List Char) :
    Option ((List String × String) × List Char) :=
  (readPath (maxDepth - 1) cs).bind fun (path, cs) =>
    if close.isPrefixOf cs then some (path, cs.drop close.length) else none

/-- Reads a line that is not blank. The first argument bounds the number of steps for a value. -/
def readStatement (fuel : Nat) (o : Outline) (cs : List Char) : Option (Outline × List Char) :=
  match cs with
  | '[' :: '[' :: cs =>
    (readHeader [']', ']'] cs).bind fun ((path, key), cs) =>
      (o.addTable? path key).map fun o => (o, cs)
  | '[' :: cs =>
    (readHeader [']'] cs).bind fun ((path, key), cs) =>
      (o.openTable? path key).map fun o => (o, cs)
  | cs =>
    (readAssigned cs).bind fun ((path, key), cs) =>
    (readValue fuel (maxDepth - 1) cs).bind fun (d, cs) =>
      (o.assign? path key d).map fun o => (o, cs)

/-- Reads lines to the end of a file. The second argument bounds their number. -/
def readStatements (fuel : Nat) : Nat → Outline → List Char → Option Outline
  | 0, _, _ => none
  | lines + 1, o, cs =>
    match skipSpace cs with
    | [] => some o
    | c :: cs =>
      let line? : Option (Outline × List Char) :=
        if c = '#' || c = '\n' || c = '\r' then some (o, c :: cs)
        else readStatement fuel o (c :: cs)
      line?.bind fun (o, cs) => (afterLine? cs).bind fun cs => readStatements fuel lines o cs

/-- The text without the mark of its byte order. -/
def dropByteOrderMark : List Char → List Char
  | c :: cs => if c = '\ufeff' then cs else c :: cs
  | [] => []

/-- Reads a document. -/
def read? (cs : List Char) : Option Document :=
  (readStatements (2 * cs.length + 2) (cs.length + 1) .empty (dropByteOrderMark cs)).map
    Outline.toDocument

/-- A list that stands for a record may have surplus elements; an empty table or list stands behind
the name of a choice. -/
def rules : Document.Rules where
  surplus := true
  isUnit
    | .record [] => true
    | .list [] => true
    | _ => false

/-! ## Writing -/

mutual

/-- Writes a value. A list of several items has a line for each. What has no form of its own is
written as an empty table. -/
def write : Document → List Char
  | .integer n => Numeral.decimal n
  | .single x => writeFloat x.convert
  | .double x => writeFloat x
  | .text s => writeText s
  | .list [] => ['[', ']']
  | .list [d] => '[' :: write d ++ [']']
  | .list items => '[' :: '\n' :: writeItems items ++ [']']
  | .record [] => ['\x7b', '\x7d']
  | .record ((key, d) :: fields) =>
    '\x7b' :: ' ' :: key.toList ++ " = ".toList ++ write d ++ writeFields fields
  | _ => ['\x7b', '\x7d']

/-- Writes items, each on a line of its own. -/
def writeItems : List Document → List Char
  | [] => []
  | d :: items => "    ".toList ++ write d ++ [',', '\n'] ++ writeItems items

/-- Writes the fields of a table between braces behind the first one, and the end of the table. -/
def writeFields : List (String × Document) → List Char
  | [] => [' ', '\x7d']
  | (key, d) :: fields => ", ".toList ++ key.toList ++ " = ".toList ++ write d ++ writeFields fields

end

/-- Whether a document is a record. -/
def isRecord : Document → Bool
  | .record _ => true
  | _ => false

/-- Whether a field gets headers of its own: a record, or a list of records that is not empty. -/
def hasHeader : String × Document → Bool
  | (_, .record _) => true
  | (_, .list items) => !items.isEmpty && items.all isRecord
  | _ => false

/-- Writes fields, each on a line of its own. -/
def writeLines (fields : List (String × Document)) : List Char :=
  fields.flatMap fun (key, d) => key.toList ++ " = ".toList ++ write d ++ ['\n']

/-- The fields of a record. -/
def fieldsIn : Document → List (String × Document)
  | .record fields => fields
  | _ => []

/-- Writes a field under headers of its own. -/
def writeSection : String × Document → List Char
  | (key, .list items) =>
    items.flatMap fun d => "\n[[".toList ++ key.toList ++ "]]\n".toList ++ writeLines (fieldsIn d)
  | (key, d) => "\n[".toList ++ key.toList ++ "]\n".toList ++ writeLines (fieldsIn d)

/-- Writes a document whose fields are given. -/
def writeDocument (fields : List (String × Document)) : List Char :=
  writeLines (fields.filter fun f => !hasHeader f) ++ (fields.filter hasHeader).flatMap writeSection

/-- TOML as a format of files, which hold records. -/
def format : TextFormat where
  write? s x :=
    match Document.ofValue s x with
    | .record fields => some (writeDocument fields)
    | _ => none
  read? s cs := (read? cs).bind (Document.value? rules s)

end VariableRegistry.Toml
