/-
# Keys and values in TOML

A key is a bare name or a text of one line, and a path of keys has points between them. A value is
a text, a list, a table between braces or a scalar. A list may have line ends and comments between
its items, a table between braces may not.
-/
import VariableRegistry.Document.Toml.Scalar
import VariableRegistry.Document.Toml.Text
import VariableRegistry.Document.Toml.Tree

namespace VariableRegistry.Toml

/-! ## Space and comments -/

/-- The text without the space in front. -/
def skipSpace (cs : List Char) : List Char := cs.dropWhile isSpace

/-- The text without space, comments and line ends in front. A comment has to end with its line. -/
def skipLines (comment : Bool) : List Char → Option (List Char)
  | [] => if comment then none else some []
  | [c] =>
    if c = '\n' then some []
    else if comment then none
    else if c = '#' then none
    else if c = '\r' then none
    else if isSpace c then some []
    else some [c]
  | c :: d :: cs =>
    if c = '\n' then skipLines false (d :: cs)
    else if c = '\r' then if d = '\n' then skipLines false cs else none
    else if comment then if isTextChar c then skipLines true (d :: cs) else none
    else if c = '#' then skipLines true (d :: cs)
    else if isSpace c then skipLines false (d :: cs)
    else some (c :: d :: cs)

/-- What follows the end of a line, which may have a comment. -/
def afterLine? (cs : List Char) : Option (List Char) :=
  let cs :=
    match skipSpace cs with
    | '#' :: cs => cs.dropWhile isTextChar
    | cs => cs
  match cs with
  | [] => some []
  | '\n' :: cs => some cs
  | '\r' :: '\n' :: cs => some cs
  | _ => none

/-! ## Keys -/

/-- Whether a character may belong to a bare key. -/
def isBareChar (c : Char) : Bool := c.isAlphanum || c = '_' || c = '-'

/-- Reads a key. -/
def readKey : List Char → Option (String × List Char)
  | '"' :: cs => readLine '"' cs
  | '\'' :: cs => readLine '\'' cs
  | cs =>
    let name := cs.takeWhile isBareChar
    if name.isEmpty then none else some (String.ofList name, cs.dropWhile isBareChar)

/-- Paths have fewer keys than this, and lists and tables between braces fewer levels. -/
def maxDepth : Nat := 80

/-- Reads a path of at most some number of keys: the keys before the last one, and the last one. -/
def readPath : Nat → List Char → Option ((List String × String) × List Char)
  | 0, _ => none
  | limit + 1, cs =>
    (readKey (skipSpace cs)).bind fun (key, cs) =>
      match skipSpace cs with
      | '.' :: cs => (readPath limit cs).map fun ((path, last), cs) => ((key :: path, last), cs)
      | cs => some (([], key), cs)

/-- Reads a path and the equals sign behind it. -/
def readAssigned (cs : List Char) : Option ((List String × String) × List Char) :=
  (readPath (maxDepth - 1) cs).bind fun (path, cs) =>
    match cs with
    | '=' :: cs => some (path, skipSpace cs)
    | _ => none

/-! ## Values -/

mutual

/-- Reads a value with at most some levels below it. The first argument bounds the number of
steps. -/
def readValue : Nat → Nat → List Char → Option (Document × List Char)
  | 0, _, _ => none
  | fuel + 1, levels, cs =>
    match cs with
    | '[' :: cs => if levels = 0 then none else readItems fuel (levels - 1) [] cs
    | '\x7b' :: cs =>
      if levels = 0 then none
      else
        match skipSpace cs with
        | '\x7d' :: cs => some (.record [], cs)
        | cs => readPairs fuel (levels - 1) [] cs
    | c :: cs =>
      if c = '"' || c = '\'' then (readText (c :: cs)).map fun (s, cs) => (.text s, cs)
      else readScalar (c :: cs)
    | [] => none

/-- Reads the rest of a list behind some items, last one first. -/
def readItems : Nat → Nat → List Document → List Char → Option (Document × List Char)
  | 0, _, _, _ => none
  | fuel + 1, levels, items, cs =>
    (skipLines false cs).bind fun
      | ']' :: cs => some (.list items.reverse, cs)
      | cs =>
        (readValue fuel levels cs).bind fun (d, cs) =>
        (skipLines false cs).bind fun
          | ',' :: cs => readItems fuel levels (d :: items) cs
          | ']' :: cs => some (.list (d :: items).reverse, cs)
          | _ => none

/-- Reads the rest of a table between braces behind some entries. -/
def readPairs : Nat → Nat → Entries → List Char → Option (Document × List Char)
  | 0, _, _, _ => none
  | fuel + 1, levels, entries, cs =>
    (readAssigned cs).bind fun ((path, key), cs) =>
    (readValue fuel levels cs).bind fun (d, cs) =>
    (insert? path key d entries).bind fun entries =>
      match skipSpace cs with
      | ',' :: cs => readPairs fuel levels entries cs
      | '\x7d' :: cs => some (.record (fieldsOf entries), cs)
      | _ => none

end

end VariableRegistry.Toml
