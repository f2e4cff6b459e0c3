/-
# Tables in TOML

The lines of a file build a tree of tables. A table is opened by a header of its own, or a header
below it implies it, or a dotted key names it; what may be added to it later depends on that. Each
header of an array of tables adds one table, and later lines go to the last one.
-/
import VariableRegistry.Document.Basic

namespace VariableRegistry.Toml

/-! ## Trees -/

/-- How a table came to be. -/
inductive Origin where
  /-- By a header of its own. -/
  | header
  /-- By a header of a table below it. -/
  | implied
  /-- By a dotted key. -/
  | dotted
deriving DecidableEq, Repr

/-- What stands under a key. -/
inductive Node where
  | value (d : Document)
  | table (origin : Origin) (entries : List (String × Node))
  /-- An array of tables, the last one first. -/
  | tables (items : List (List (String × Node)))

/-- The entries of a table in their order. -/
abbrev Entries := List (String × Node)

mutual

/-- A node as a document. -/
def Node.toDocument : Node → Document
  | .value d => d
  | .table _ entries => .record (fieldsOf entries)
  | .tables items => .list (recordsOf items).reverse

/-- The entries of a table as fields. -/
def fieldsOf : List (String × Node) → List (String × Document)
  | [] => []
  | (key, node) :: entries => (key, node.toDocument) :: fieldsOf entries

/-- Tables as records. -/
def recordsOf : List (List (String × Node)) → List Document
  | [] => []
  | entries :: items => .record (fieldsOf entries) :: recordsOf items

end

/-! ## Changes -/

/-- Replaces what stands under a key, or adds it at the end. -/
def alter? (key : String) (change : Option Node → Option Node) : Entries → Option Entries
  | [] => (change none).map fun node => [(key, node)]
  | (k, node) :: entries =>
    if k = key then (change (some node)).map fun node => (key, node) :: entries
    else (alter? key change entries).map fun entries => (k, node) :: entries

/-- Changes the table at the end of a path. Tables on the way that do not exist are created. A
dotted key does not pass a table that has a header of its own, and nothing passes a value. -/
def descend? (dotted : Bool) (change : Origin → Entries → Option Entries) :
    List String → Origin → Entries → Option Entries
  | [], origin, entries => change origin entries
  | key :: path, _, entries =>
    entries |> alter? key fun
      | none =>
        let origin := if dotted then Origin.dotted else .implied
        (descend? dotted change path origin []).map (.table origin)
      | some (.table origin entries) =>
        if dotted && origin = .header then none
        else (descend? dotted change path origin entries).map (.table origin)
      | some (.tables (entries :: before)) =>
        (descend? dotted change path .header entries).map fun entries => .tables (entries :: before)
      | some _ => none

/-- Adds a value under a key that is not in use. -/
def addValue? (key : String) (d : Document) (entries : Entries) : Option Entries :=
  entries |> alter? key fun
    | none => some (.value d)
    | some _ => none

/-- Adds a value under a path of keys. A path of more than one key leads to a table that dotted
keys named and nothing else. -/
def insert? (path : List String) (key : String) (d : Document) (entries : Entries) :
    Option Entries :=
  let change (origin : Origin) (entries : Entries) : Option Entries :=
    if origin = .dotted ↔ path ≠ [] then addValue? key d entries else none
  descend? true change path .header entries

/-- Opens the table of a header. It may have been implied before. -/
def openTable? (path : List String) (key : String) (entries : Entries) : Option Entries :=
  let change (_ : Origin) (entries : Entries) : Option Entries :=
    entries |> alter? key fun
      | none => some (.table .header [])
      | some (.table .implied entries) => some (.table .header entries)
      | some _ => none
  descend? false change path .header entries

/-- Adds a table to an array of tables. -/
def addTable? (path : List String) (key : String) (entries : Entries) : Option Entries :=
  let change (_ : Origin) (entries : Entries) : Option Entries :=
    entries |> alter? key fun
      | none => some (.tables [[]])
      | some (.tables items) => some (.tables ([] :: items))
      | some _ => none
  descend? false change path .header entries

end VariableRegistry.Toml
