/-
# Table files

Table sets are kept in files, as TOML where the name of the file ends so and as JSON otherwise. What
the two formats are is left to whoever keeps the files. Files live in a folder, which is a list of
names with bytes; whatever reads and writes real files goes through the same functions.
-/
import VariableRegistry.Fallible
import VariableRegistry.Tables.Fault
import VariableRegistry.Tables.Record
import VariableRegistry.Text.Quoted

namespace VariableRegistry

/-! ## Paths -/

/-- The name at the end of a path. -/
def fileName? (path : List Char) : Option (List Char) :=
  (path.splitOn '/').filter (fun part => !part.isEmpty && part ≠ ['.']) |>.getLast?
    |>.filter (· ≠ ['.', '.'])

/-- What stands behind the last point of a name that does not begin with it. -/
def extension? (name : List Char) : Option (List Char) :=
  let extension := (name.reverse.takeWhile (· ≠ '.')).reverse
  if extension.length + 1 < name.length then some extension else none

/-! ## Formats -/

/-- How a table set is written as text. -/
inductive TableFormat where
  | json
  | toml
deriving DecidableEq, Repr

namespace TableFormat

/-- The format of the file with a path. -/
def ofPath (path : String) : TableFormat :=
  match (fileName? path.toList).bind extension? with
  | some extension => if extension.map Char.toLower = ['t', 'o', 'm', 'l'] then toml else json
  | none => json

/-- The fault of a text that does not give a table set. -/
def fault : TableFormat → TextFault
  | json => .parseJson
  | toml => .parseToml

end TableFormat

/-- The formats that files are written in and read in. -/
structure Formats where
  json : TextFormat
  toml : TextFormat

namespace Formats

/-- The format that a table set is written in. -/
def get (F : Formats) : TableFormat → TextFormat
  | .json => F.json
  | .toml => F.toml

/-- Reads a table set. -/
def read (F : Formats) (format : TableFormat) (cs : List Char) : Except Failure TableSet :=
  match (F.get format).read? TableSet.shape cs with
  | some x => .ok (.ofRecord x)
  | none => .error (.text format.fault)

/-- Writes a table set. -/
def write (F : Formats) (format : TableFormat) (t : TableSet) : Except Failure (List Char) :=
  demand ((F.get format).write? TableSet.shape t.toRecord) (.text .serialize)

/-! ## Files -/

/-- The table set in the file with a path, given the bytes of the file if it can be read. -/
def ofFile (F : Formats) (path : String) (bytes? : Option (List UInt8)) :
    Except Failure TableSet :=
  match bytes?.bind Utf8.decode? with
  | none => .error (.within ("Failed to read table file " ++ Text.quote path) .io)
  | some cs =>
    (F.read (.ofPath path) cs).mapError (.within ("Failed to load " ++ Text.quote path))

/-- The bytes of the file with a path that holds a table set. -/
def toFile (F : Formats) (t : TableSet) (path : String) : Except Failure (List UInt8) :=
  (F.write (.ofPath path) t).map Utf8.encode

end Formats

/-! ## Folders -/

/-- Files with their names. -/
structure Folder where
  files : List (String × List UInt8)
deriving DecidableEq, Repr

namespace Folder

/-- The folder without files. -/
def empty : Folder := ⟨[]⟩

/-- The most bytes that a file name has. -/
def maxNameBytes : Nat := 255

/-- The most bytes that a path has. -/
def maxPathBytes : Nat := 4095

/-- The path without steps that stay in the folder in front. -/
def stay : List Char → List Char
  | '.' :: '/' :: cs => stay (cs.dropWhile (· = '/'))
  | cs => cs
termination_by cs => cs.length
decreasing_by
  have := (List.dropWhile_sublist (· = '/') (l := cs)).length_le
  simp only [List.length_cons]
  omega

/-- The name of the file in the folder that a path leads to. -/
def resolve? (path : String) : Option String :=
  let name := stay path.toList
  if name.isEmpty || name = ['.'] || name = ['.', '.'] || name.contains '/' || name.contains '\x00'
      || maxNameBytes < Utf8.size name || maxPathBytes < Utf8.size path.toList then none
  else some (String.ofList name)

/-- The bytes of a file. -/
def read? (f : Folder) (path : String) : Option (List UInt8) :=
  (resolve? path).bind fun name => f.files.lookup name

/-- Writes a file. -/
def write? (f : Folder) (path : String) (bytes : List UInt8) : Option Folder :=
  (resolve? path).map fun name => ⟨(name, bytes) :: f.files⟩

/-- Reads a table set from a file. -/
def load (f : Folder) (F : Formats) (path : String) : Except Failure TableSet :=
  F.ofFile path (f.read? path)

/-- Writes a table set to a file. -/
def save (f : Folder) (F : Formats) (t : TableSet) (path : String) : Except Failure Folder := do
  let bytes ← F.toFile t path
  demand (f.write? path bytes) (.within ("Failed to write table file " ++ Text.quote path) .io)

theorem read?_write? {f g : Folder} {path : String} {bytes : List UInt8}
    (h : f.write? path bytes = some g) : g.read? path = some bytes := by
  simp only [write?, Option.map_eq_some_iff] at h
  obtain ⟨name, hname, rfl⟩ := h
  simp [read?, hname]

end Folder

end VariableRegistry
