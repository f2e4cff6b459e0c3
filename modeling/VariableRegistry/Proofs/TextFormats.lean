/-
# Formats that read back what they write

What is relied on of a format of files, whatever the format is: data of a tabular shape has a text,
and from this text the same data is read, but for its numbers. Of a number the format has a text of
its own, and what is read in its place is what this text alone is read as.
-/
import Mathlib.Data.List.Forall2
import VariableRegistry.Shape

namespace VariableRegistry

/-! ## Data that is the same but for its numbers -/

mutual

/-- Data of a shape is the same as other data but for its numbers, which are related. -/
def Shape.Agree (R : (t : NumType) → t.Carrier → t.Carrier → Prop) :
    (s : Shape) → s.Value → s.Value → Prop
  | .word, x, y => x = y
  | .number t, x, y => R t x y
  | .text, x, y => x = y
  | .choice _ _, x, y => x = y
  | .list item, xs, ys => List.Forall₂ (Shape.Agree R item) xs ys
  | .record fields, x, y => Layout.Agree R fields x y

/-- The fields of a record are the same as other fields but for their numbers. -/
def Layout.Agree (R : (t : NumType) → t.Carrier → t.Carrier → Prop) :
    (l : Layout) → l.Values → l.Values → Prop
  | .nil, _, _ => True
  | .field _ _ shape rest, x, y => Shape.Agree R shape x.1 y.1 ∧ Layout.Agree R rest x.2 y.2

end

/-- Lists whose items are made from the same things agree if the items do. -/
theorem Shape.agree_list {R : (t : NumType) → t.Carrier → t.Carrier → Prop} {item : Shape}
    {α : Type} {f g : α → item.Value} {xs : List α} (h : ∀ x ∈ xs, item.Agree R (f x) (g x)) :
    (Shape.list item).Agree R (xs.map f) (xs.map g) := by
  show List.Forall₂ (Shape.Agree R item) _ _
  rw [List.forall₂_map_left_iff, List.forall₂_map_right_iff, List.forall₂_same]
  exact h

/-! ## Tabular shapes -/

/-- The fields of a record with their shapes. -/
def Layout.entries : Layout → List (String × Shape)
  | .nil => []
  | .field name _ shape rest => (name, shape) :: rest.entries

namespace Shape

/-- A shape without parts. The names of a choice are all different. -/
def isScalar : Shape → Bool
  | .list _ => false
  | .record _ => false
  | .choice first others => decide (first :: others).Nodup
  | _ => true

/-- A shape without parts, or a list of such. -/
def isPlain : Shape → Bool
  | .list item => item.isScalar
  | s => s.isScalar

end Shape

/-- A name of letters, digits and low lines. -/
def isName (s : String) : Bool :=
  !s.toList.isEmpty && s.toList.all fun c => c.isAlphanum || c = '_'

namespace Layout

/-- The fields have names that are all different. -/
def isNamed (l : Layout) : Bool := decide l.names.Nodup && l.names.all isName

/-- No field holds a record. -/
def isFlat (l : Layout) : Bool := l.isNamed && l.entries.all fun e => e.2.isPlain

end Layout

namespace Shape

/-- A record without records in it, or a list of such. -/
def isTable : Shape → Bool
  | .record fields => fields.isFlat
  | .list (.record fields) => fields.isFlat
  | _ => false

/-- A record whose plain fields stand in front of its tables. Every format of files has room for
such a record. -/
def IsTabular : Shape → Prop
  | .record fields => fields.isNamed = true ∧ ∃ plain tables, fields.entries = plain ++ tables ∧
      (∀ e ∈ plain, e.2.isPlain = true) ∧ ∀ e ∈ tables, e.2.isTable = true
  | _ => False

variable {s : Shape}

/-- A plain shape is one without parts or a list of such. -/
theorem isPlain_cases (h : s.isPlain = true) :
    s.isScalar = true ∨ ∃ item, s = .list item ∧ item.isScalar = true := by
  cases s with
  | list item => exact Or.inr ⟨item, rfl, h⟩
  | _ => exact Or.inl h

/-- A table is one flat record or a list of such. -/
theorem isTable_cases (h : s.isTable = true) :
    ∃ l : Layout, l.isFlat = true ∧ (s = .record l ∨ s = .list (.record l)) := by
  cases s with
  | record l => exact ⟨l, h, Or.inl rfl⟩
  | list item =>
    cases item with
    | record l => exact ⟨l, h, Or.inr rfl⟩
    | _ => cases h
  | _ => cases h

theorem IsTabular.exists_record (h : s.IsTabular) : ∃ l, s = .record l := by
  cases s with
  | record l => exact ⟨l, rfl⟩
  | _ => exact h.elim

end Shape

namespace Layout

variable {l : Layout}

theorem names_eq_map_entries : (l : Layout) → l.names = l.entries.map Prod.fst
  | .nil => rfl
  | .field name _ _ rest => congrArg (name :: ·) rest.names_eq_map_entries

theorem nodup_of_isNamed (h : l.isNamed = true) : l.names.Nodup := by
  rw [isNamed, Bool.and_eq_true] at h
  exact of_decide_eq_true h.1

theorem isName_of_mem_entries (h : l.isNamed = true) {name : String} {s : Shape}
    (hentry : (name, s) ∈ l.entries) : isName name = true := by
  rw [isNamed, Bool.and_eq_true, List.all_eq_true, names_eq_map_entries] at h
  exact h.2 name (List.mem_map_of_mem hentry)

theorem isFlat_iff : l.isFlat = true ↔
    l.isNamed = true ∧ ∀ e ∈ l.entries, e.2.isPlain = true := by
  rw [isFlat, Bool.and_eq_true, List.all_eq_true]

end Layout

/-! ## Numbers -/

/-- How a format writes a number and what number it reads from a text. -/
structure NumberTexts where
  write : (t : NumType) → t.Carrier → List Char
  read? : (t : NumType) → List Char → Option t.Carrier

namespace NumberTexts

/-- The number that the text of a number is read as. -/
def reread? (n : NumberTexts) (t : NumType) (x : t.Carrier) : Option t.Carrier :=
  n.read? t (n.write t x)

/-- The first number is read as the second one. -/
def Rereads (n : NumberTexts) (t : NumType) (x y : t.Carrier) : Prop := n.reread? t x = some y

instance (n : NumberTexts) (t : NumType) (x y : t.Carrier) : Decidable (n.Rereads t x y) :=
  inferInstanceAs (Decidable (n.reread? t x = some y))

/-- Whether a number survives: it is read as a number that equals it. What is no number equals
nothing. -/
def survives (n : NumberTexts) (t : NumType) (x : t.Carrier) : Bool :=
  (n.reread? t x).any fun y => t.eq y x

end NumberTexts

/-! ## Formats -/

/-- What is relied on of a format with some texts of numbers. -/
structure TextFormat.RoundTrips (f : TextFormat) (n : NumberTexts) : Prop where
  /-- Integers are read as themselves. -/
  int16 : ∀ x, n.Rereads .int16 x x
  int32 : ∀ x, n.Rereads .int32 x x
  /-- Tabular data has a text. -/
  writes : ∀ s : Shape, s.IsTabular → ∀ x, ∃ cs, f.write? s x = some cs
  /-- From the text of tabular data the same data is read, with the numbers that the texts of its
  numbers are read as. -/
  reads : ∀ s : Shape, s.IsTabular → ∀ x y cs, s.Agree n.Rereads x y → f.write? s x = some cs →
    f.read? s cs = some y

end VariableRegistry
