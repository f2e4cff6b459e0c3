/-
# Documents

Data is kept in a file as a document: a tree of records and lists over numbers and texts. The tree
is the same for every file format. Documents that are read also hold values that no field takes,
since a file may have more fields than are looked at.
-/
import VariableRegistry.Float.Layout

namespace VariableRegistry

/-- A value in a file. -/
inductive Document where
  | integer (n : Int)
  /-- A number that is written as a `FLOAT`; reading gives `DOUBLE`s only. -/
  | single (x : Single)
  | double (x : Double)
  | text (s : String)
  | list (items : List Document)
  | record (fields : List (String × Document))
  /-- The value that says that there is none. -/
  | nothing
  /-- A date or a time, which reads as a record without any field that is looked at. -/
  | moment
  /-- A value of the right form that no field takes. -/
  | other

end VariableRegistry
