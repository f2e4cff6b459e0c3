/-
# The leaves of documents

A document is built of lists and records over leaves: numbers, texts and the few values without
parts. What a file format does to a document it does to its leaves, and lists and records keep their
shape.
-/
import VariableRegistry.Document.Basic

namespace VariableRegistry.Document

mutual

/-- The parts of a document that are neither lists nor records. -/
def leaves : Document → List Document
  | .list items => leavesOfItems items
  | .record fields => leavesOfFields fields
  | d => [d]

/-- The leaves of all items of a list. -/
def leavesOfItems : List Document → List Document
  | [] => []
  | d :: items => leaves d ++ leavesOfItems items

/-- The leaves of all fields of a record. -/
def leavesOfFields : List (String × Document) → List Document
  | [] => []
  | (_, d) :: fields => leaves d ++ leavesOfFields fields

end

mutual

/-- Replaces the leaves of a document. -/
def mapLeaves (f : Document → Document) : Document → Document
  | .list items => .list (mapItems f items)
  | .record fields => .record (mapFields f fields)
  | d => f d

/-- Replaces the leaves of all items of a list. -/
def mapItems (f : Document → Document) : List Document → List Document
  | [] => []
  | d :: items => mapLeaves f d :: mapItems f items

/-- Replaces the leaves of all fields of a record. -/
def mapFields (f : Document → Document) : List (String × Document) → List (String × Document)
  | [] => []
  | (key, d) :: fields => (key, mapLeaves f d) :: mapFields f fields

end

theorem mapItems_eq (f : Document → Document) (items : List Document) :
    mapItems f items = items.map (mapLeaves f) := by
  induction items with
  | nil => rfl
  | cons d items ih => rw [mapItems, ih, List.map_cons]

theorem mapFields_eq (f : Document → Document) (fields : List (String × Document)) :
    mapFields f fields = fields.map fun field => (field.1, mapLeaves f field.2) := by
  induction fields with
  | nil => rfl
  | cons field fields ih => rw [mapFields, ih, List.map_cons]

theorem mapLeaves_list (f : Document → Document) (items : List Document) :
    mapLeaves f (.list items) = .list (items.map (mapLeaves f)) := by
  rw [mapLeaves, mapItems_eq]

theorem mapLeaves_record (f : Document → Document) (fields : List (String × Document)) :
    mapLeaves f (.record fields) =
      .record (fields.map fun field => (field.1, mapLeaves f field.2)) := by
  rw [mapLeaves, mapFields_eq]

/-- The leaves of a list are those of its items. -/
theorem mem_leaves_list {items : List Document} {l : Document} :
    l ∈ (Document.list items).leaves ↔ ∃ d ∈ items, l ∈ d.leaves := by
  have hflat : leavesOfItems items = items.flatMap leaves := by
    induction items with
    | nil => rfl
    | cons d items ih => rw [leavesOfItems, ih, List.flatMap_cons]
  rw [leaves, hflat, List.mem_flatMap]

/-- The leaves of a record are those of its values. -/
theorem mem_leaves_record {fields : List (String × Document)} {l : Document} :
    l ∈ (Document.record fields).leaves ↔ ∃ field ∈ fields, l ∈ field.2.leaves := by
  have hflat : leavesOfFields fields = fields.flatMap fun field => field.2.leaves := by
    induction fields with
    | nil => rfl
    | cons field fields ih => rw [leavesOfFields, ih, List.flatMap_cons]
  rw [leaves, hflat, List.mem_flatMap]

/-- What relates the leaves of a document to what replaces them, and passes from items to lists and
from fields to records, relates the document to the one with its leaves replaced. -/
theorem related_mapLeaves {R : Document → Document → Prop} {f : Document → Document}
    (list : ∀ items : List Document, (∀ d ∈ items, R d (mapLeaves f d)) →
      R (.list items) (.list (items.map (mapLeaves f))))
    (record : ∀ fields : List (String × Document),
      (∀ field ∈ fields, R field.2 (mapLeaves f field.2)) →
      R (.record fields) (.record (fields.map fun field => (field.1, mapLeaves f field.2))))
    (d : Document) (leaf : ∀ l ∈ d.leaves, R l (f l)) : R d (mapLeaves f d) := by
  match d with
  | .list items =>
    rw [mapLeaves_list]
    apply list
    intro d hd
    exact related_mapLeaves list record d fun l hl => leaf l (mem_leaves_list.2 ⟨d, hd, hl⟩)
  | .record fields =>
    rw [mapLeaves_record]
    apply record
    rintro ⟨key, d⟩ hfield
    exact related_mapLeaves list record d fun l hl =>
      leaf l (mem_leaves_record.2 ⟨(key, d), hfield, hl⟩)
  | .integer n => exact leaf _ List.mem_cons_self
  | .single x => exact leaf _ List.mem_cons_self
  | .double x => exact leaf _ List.mem_cons_self
  | .text s => exact leaf _ List.mem_cons_self
  | .nothing => exact leaf _ List.mem_cons_self
  | .moment => exact leaf _ List.mem_cons_self
  | .other => exact leaf _ List.mem_cons_self
termination_by sizeOf d
decreasing_by
  · have := List.sizeOf_lt_of_mem hd
    simp only [Document.list.sizeOf_spec]
    omega
  · have := List.sizeOf_lt_of_mem hfield
    simp only [Prod.mk.sizeOf_spec, Document.record.sizeOf_spec] at *
    omega

end VariableRegistry.Document
