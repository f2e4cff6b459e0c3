/-
# Shapes of data

What a file holds has a shape that is known before the file is read: words, numbers and texts in
lists and records. A record has its fields under names, in an order, and a field that may be left
out has a default. How data of a shape is written as a text and read from one is up to the format of
the file.
-/
import VariableRegistry.Value

namespace VariableRegistry

mutual

/-- The shape of data. -/
inductive Shape where
  /-- A word of sixteen bits. -/
  | word
  | number (t : NumType)
  | text
  /-- One of some names, of which the first is the default. -/
  | choice (first : String) (others : List String)
  | list (item : Shape)
  | record (fields : Layout)

/-- The fields of a record in their order. -/
inductive Layout where
  | nil
  | field (name : String) (optional : Bool) (shape : Shape) (rest : Layout)

end

mutual

/-- The data of a shape. A choice is the position of its name. -/
def Shape.Value : Shape → Type
  | .word => UInt16
  | .number t => t.Carrier
  | .text => String
  | .choice _ others => Fin (others.length + 1)
  | .list item => List item.Value
  | .record fields => fields.Values

/-- The data of the fields of a record. -/
def Layout.Values : Layout → Type
  | .nil => Unit
  | .field _ _ shape rest => shape.Value × rest.Values

end

mutual

/-- What a field of a shape holds if it is left out. -/
def Shape.default : (s : Shape) → s.Value
  | .word => (0 : UInt16)
  | .number t => t.zero
  | .text => ""
  | .choice _ _ => (0 : Fin _)
  | .list _ => []
  | .record fields => fields.defaults

/-- The record without fields. -/
def Layout.defaults : (l : Layout) → l.Values
  | .nil => ()
  | .field _ _ shape rest => (shape.default, rest.defaults)

end

namespace Layout

/-- Puts a field in front that has to be there. -/
@[reducible] def required (name : String) (shape : Shape) (rest : Layout) : Layout :=
  .field name false shape rest

/-- Puts a field in front that may be left out. -/
@[reducible] def optional (name : String) (shape : Shape) (rest : Layout) : Layout :=
  .field name true shape rest

/-- The names of the fields. -/
def names : Layout → List String
  | .nil => []
  | .field name _ _ rest => name :: rest.names

end Layout

/-- A format of files: how data of every shape is written as a text, and how it is read from one.
Either may fail. -/
structure TextFormat where
  write? : (s : Shape) → s.Value → Option (List Char)
  read? : (s : Shape) → List Char → Option s.Value

end VariableRegistry
