/-
# Writes to single cells

Every access that stores does so by putting one content into one cell of one array. Whatever the
array, the write replaces this cell and nothing else, and to write what a cell holds changes
nothing.
-/
import VariableRegistry.Proofs.Ownership

namespace VariableRegistry

/-! ## Stores -/

namespace DataStore

variable {s : DataStore} {a b : DataArray} {i j : Nat}

/-- Puts a content into a cell. -/
def write (s : DataStore) (a : DataArray) (i : Nat) (x : a.Content) : DataStore :=
  s.setCells a ((s.cells a).setIfInBounds i x)

theorem cells_write_self (s : DataStore) (a : DataArray) (i : Nat) (x : a.Content) :
    (s.write a i x).cells a = (s.cells a).setIfInBounds i x :=
  cells_setCells_self s a _

theorem cells_write_of_ne (s : DataStore) (h : b ≠ a) (i : Nat) (x : a.Content) :
    (s.write a i x).cells b = s.cells b :=
  cells_setCells_of_ne s h _

/-- The cell that was written holds the content. -/
theorem getElem?_write_self (hi : i < (s.cells a).size) (x : a.Content) :
    ((s.write a i x).cells a)[i]? = some x := by
  rw [cells_write_self, Array.getElem?_setIfInBounds_self_of_lt hi]

/-- All other cells hold what they held. -/
theorem getElem?_write_of_ne (s : DataStore) (x : a.Content) (h : b ≠ a ∨ j ≠ i) :
    ((s.write a i x).cells b)[j]? = (s.cells b)[j]? := by
  by_cases hb : b = a
  · subst hb
    have hj : j ≠ i := h.resolve_left fun hne => hne rfl
    rw [cells_write_self, Array.getElem?_setIfInBounds_ne hj.symm]
  · rw [cells_write_of_ne s hb]

/-- What a cell holds after a write follows from what it held before. -/
theorem getElem?_write_congr {s' : DataStore} (x : a.Content)
    (h : (s'.cells b)[j]? = (s.cells b)[j]?) :
    ((s'.write a i x).cells b)[j]? = ((s.write a i x).cells b)[j]? := by
  by_cases hcell : b = a ∧ j = i
  · obtain ⟨rfl, rfl⟩ := hcell
    -- the cell is there in both stores or in none
    have hsize : j < (s'.cells b).size ↔ j < (s.cells b).size := by
      simpa using congrArg (fun content => content.isSome = true) h
    simp only [cells_write_self, Array.getElem?_setIfInBounds_self, hsize]
  · have hother := Decidable.not_and_iff_or_not.1 hcell
    rw [getElem?_write_of_ne s' x hother, getElem?_write_of_ne s x hother, h]

/-- Stores whose cells hold the same are equal. -/
theorem ext_getElem? {s' : DataStore}
    (h : ∀ (b : DataArray) (j : Nat), (s.cells b)[j]? = (s'.cells b)[j]?) : s = s' :=
  ext_cells fun b => Array.ext_getElem? (h b)

/-- To write what a cell holds changes nothing. -/
theorem write_of_getElem? {x : a.Content} (hx : (s.cells a)[i]? = some x) :
    s.write a i x = s := by
  obtain ⟨hi, -⟩ := Array.getElem?_eq_some_iff.1 hx
  apply ext_getElem?
  intro b j
  by_cases h : b = a ∧ j = i
  · obtain ⟨rfl, rfl⟩ := h
    rw [getElem?_write_self hi, hx]
  · exact getElem?_write_of_ne s x (Decidable.not_and_iff_or_not.1 h)

end DataStore

/-! ## Registries -/

namespace Registry

variable {r r' : Registry} {a : DataArray} {i : Nat} {x : a.Content}

/-- Puts a content into a cell. -/
def write (r : Registry) (a : DataArray) (i : Nat) (x : a.Content) : Registry :=
  { r with store := r.store.write a i x }

/-- Of all cells one holds a content, and everything else is as it was. -/
structure Replaced (r : Registry) (a : DataArray) (i : Nat) (x : a.Content) (r' : Registry) :
    Prop where
  directory : r'.directory = r.directory
  policy : r'.policy = r.policy
  cell : (r'.store.cells a)[i]? = some x
  others : ∀ (b : DataArray) (j : Nat), b ≠ a ∨ j ≠ i →
    (r'.store.cells b)[j]? = (r.store.cells b)[j]?

theorem replaced_write (hi : i < (r.store.cells a).size) (x : a.Content) :
    r.Replaced a i x (r.write a i x) where
  directory := rfl
  policy := rfl
  cell := DataStore.getElem?_write_self hi x
  others := fun _ _ h => DataStore.getElem?_write_of_ne r.store x h

theorem write_of_getElem? (hx : (r.store.cells a)[i]? = some x) : r.write a i x = r := by
  rw [write, DataStore.write_of_getElem? hx]

end Registry

end VariableRegistry
