/-
# Data as documents

Data of every shape can be given as a document and read from one. A record may also be read from the
list of its fields in their order. Fields that are not known are ignored, and a known one may stand
only once.
-/
import VariableRegistry.Document.Basic
import VariableRegistry.Shape

namespace VariableRegistry.Document

/-! ## Writing -/

/-- A word. -/
def ofWord (w : UInt16) : Document := .integer w.toNat

/-- A number. -/
def ofNumber : (t : NumType) → t.Carrier → Document
  | .int16, x => .integer (x : Int16).toInt
  | .int32, x => .integer (x : Int32).toInt
  | .float, x => .single x
  | .double, x => .double x

mutual

/-- Data as a document. -/
def ofValue : (s : Shape) → s.Value → Document
  | .word, w => ofWord w
  | .number t, x => ofNumber t x
  | .text, x => .text x
  | .choice first others, i => .text ((first :: others).get i)
  | .list item, xs => .list (List.map (ofValue item) xs)
  | .record fields, x => .record (ofValues fields x)

/-- The fields of a record with their names. -/
def ofValues : (l : Layout) → l.Values → List (String × Document)
  | .nil, _ => []
  | .field name _ shape rest, x => (name, ofValue shape x.1) :: ofValues rest x.2

end

/-! ## Reading -/

/-- What file formats disagree on when a document is read. -/
structure Rules where
  /-- Whether a record that is given as a list may have more elements than fields. -/
  surplus : Bool
  /-- Whether a value may stand behind the name of a choice that is given as a field. -/
  isUnit : Document → Bool

/-- The fields of a record with some names. -/
def fields? (r : Rules) (names : List String) : Document → Option (List (String × Document))
  | .record fields =>
    if names.any fun n => 1 < fields.countP fun f => f.1 = n then none else some fields
  | .list items =>
    if names.length < items.length && !r.surplus then none else some (names.zip items)
  | .moment => some []
  | _ => none

/-- An integer between two bounds. -/
def integer? (low high : Int) : Document → Option Int
  | .integer n => if low ≤ n ∧ n ≤ high then some n else none
  | _ => none

/-- A word. -/
def word? (d : Document) : Option UInt16 := (d.integer? 0 0xFFFF).map UInt16.ofInt

/-- A floating point number; an integer and a `DOUBLE` are rounded to it. -/
def float? {l : FloatLayout} : Document → Option (FloatWord l)
  | .integer n => some (FloatWord.ofInt n)
  | .single x => some x.convert
  | .double x => some x.convert
  | _ => none

/-- A number. -/
def number? : (t : NumType) → Document → Option t.Carrier
  | .int16, d => (d.integer? (-0x8000) 0x7FFF).map Int16.ofInt
  | .int32, d => (d.integer? (-0x80000000) 0x7FFFFFFF).map Int32.ofInt
  | .float, d => d.float?
  | .double, d => d.float?

/-- A text. -/
def text? : Document → Option String
  | .text s => some s
  | _ => none

/-- One of some names: the name, or a record whose only field has that name. -/
def choice? (r : Rules) (names : List String) : Document → Option (Fin names.length)
  | .text s => names.finIdxOf? s
  | .record [(s, d)] => if r.isUnit d then names.finIdxOf? s else none
  | _ => none

/-- A list of things of one kind. -/
def list? {α : Type} (read : Document → Option α) : Document → Option (List α)
  | .list items => items.mapM read
  | _ => none

/-- The value of a field, or its default if it is not there and may be left out. -/
def field? {α : Type} (fields : List (String × Document)) (read : Document → Option α)
    (default? : Option α) (name : String) : Option α :=
  match fields.lookup name with
  | none => default?
  | some d => read d

mutual

/-- The data of a shape. -/
def value? (r : Rules) : (s : Shape) → Document → Option s.Value
  | .word, d => word? d
  | .number t, d => number? t d
  | .text, d => text? d
  | .choice first others, d => choice? r (first :: others) d
  | .list item, d => list? (value? r item) d
  | .record fields, d => (d.fields? r fields.names).bind (values? r fields)

/-- The data of the fields of a record. -/
def values? (r : Rules) : (l : Layout) → List (String × Document) → Option l.Values
  | .nil, _ => some ()
  | .field name optional shape rest, fields => do
    let default? := if optional then some shape.default else none
    return (← field? fields (value? r shape) default? name, ← values? r rest fields)

end

end VariableRegistry.Document
