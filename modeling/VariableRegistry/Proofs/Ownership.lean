/-
# Cells and their owners

The six arrays of a store are seen as one family, in which every variable owns a cell for each of
its channels. Two stores are compared by the cells in which they may differ: those of some
variables.
-/
import VariableRegistry.Proofs.Soundness

namespace VariableRegistry

/-! ## The arrays of a store -/

/-- What a cell of an array holds. -/
@[reducible] def DataArray.Content : DataArray → Type
  | .number t => Cell t.Carrier
  | .enums => Int16
  | .strings => String

namespace DataStore

variable {s s' s'' : DataStore}

/-- The cells of an array. -/
def cells (s : DataStore) : (a : DataArray) → Array a.Content
  | .number t => s.numbers.get t
  | .enums => s.enums
  | .strings => s.strings

/-- Replaces the cells of an array. -/
def setCells (s : DataStore) : (a : DataArray) → Array a.Content → DataStore
  | .number t, cells => { s with numbers := s.numbers.set t cells }
  | .enums, cells => { s with enums := cells }
  | .strings, cells => { s with strings := cells }

@[simp] theorem cells_setCells_self (s : DataStore) (a : DataArray) (cells : Array a.Content) :
    (s.setCells a cells).cells a = cells := by
  cases a with
  | number t => exact PerType.get_set_self s.numbers t cells
  | enums => rfl
  | strings => rfl

theorem cells_setCells_of_ne (s : DataStore) {a b : DataArray} (h : b ≠ a)
    (cells : Array a.Content) : (s.setCells a cells).cells b = s.cells b := by
  cases a with
  | number t =>
    cases b with
    | number u =>
      refine PerType.get_set_of_ne s.numbers ?_ cells
      rintro rfl
      exact h rfl
    | enums => rfl
    | strings => rfl
  | enums => cases b <;> first | rfl | exact absurd rfl h
  | strings => cases b <;> first | rfl | exact absurd rfl h

/-- A store is its arrays. -/
theorem ext_cells (h : ∀ a, s.cells a = s'.cells a) : s = s' := by
  obtain ⟨numbers, enums, strings⟩ := s
  obtain ⟨numbers', enums', strings'⟩ := s'
  have hnumbers : numbers = numbers' := PerType.ext_get fun t => h (.number t)
  have henums : enums = enums' := h .enums
  have hstrings : strings = strings' := h .strings
  rw [hnumbers, henums, hstrings]

/-- A store has as many cells in each array as are counted. -/
theorem Sized.cells {c : CellCounts} (h : s.Sized c) (a : DataArray) :
    (s.cells a).size = c.get a := by
  cases a with
  | number t => exact h.numbers t
  | enums => exact h.enums
  | strings => exact h.strings

end DataStore

/-! ## Owners -/

/-- The array in which variables of a kind have their cells, and the position of the first one. -/
def VarKind.cells? : VarKind → Option (DataArray × Nat)
  | .number t _ data => some (.number t, data)
  | .enumeration _ data => some (.enums, data)
  | .string _ data => some (.strings, data)
  | .constant _ => none
  | .action => none

/-- A cell of an array is that of a channel of a variable. -/
def Descriptor.Owns (v : Descriptor) (a : DataArray) (i : Nat) : Prop :=
  ∃ data, v.kind.cells? = some (a, data) ∧ data ≤ i ∧ i < data + v.channels.toNat

/-! ## Stores that are the same but for some cells -/

namespace DataStore

variable {s s' s'' : DataStore} {vars : List Descriptor}

/-- Two stores differ in no cell but those of some variables. -/
def SameBut (vars : List Descriptor) (s s' : DataStore) : Prop :=
  ∀ (a : DataArray) (i : Nat), (∀ v ∈ vars, ¬v.Owns a i) → (s.cells a)[i]? = (s'.cells a)[i]?

theorem SameBut.refl (vars : List Descriptor) (s : DataStore) : SameBut vars s s := by
  intro a i _
  rfl

theorem SameBut.trans (h : SameBut vars s s') (h' : SameBut vars s' s'') :
    SameBut vars s s'' := by
  intro a i hi
  exact (h a i hi).trans (h' a i hi)

/-- Stores that differ in the cells of no variable are equal. -/
theorem SameBut.eq (h : SameBut [] s s') : s = s' := by
  apply ext_cells
  intro a
  apply Array.ext_getElem?
  intro i
  exact h a i (by simp)

/-- Replacing the cells of an array keeps the others, if it keeps those of this array that no
variable owns. -/
theorem sameBut_setCells {a : DataArray} {cells : Array a.Content}
    (h : ∀ i, (∀ v ∈ vars, ¬v.Owns a i) → (s.cells a)[i]? = cells[i]?) :
    SameBut vars s (s.setCells a cells) := by
  intro b i hi
  by_cases hb : b = a
  · subst hb
    rw [cells_setCells_self]
    exact h i hi
  · rw [cells_setCells_of_ne s hb]

/-- Replacing a cell of a variable keeps the cells of all others. -/
theorem sameBut_setIfInBounds {v : Descriptor} (hv : v ∈ vars) {a : DataArray} {i : Nat}
    (hi : v.Owns a i) (x : a.Content) :
    SameBut vars s (s.setCells a ((s.cells a).setIfInBounds i x)) := by
  apply sameBut_setCells
  intro j hj
  have hne : i ≠ j := by
    rintro rfl
    exact hj v hv hi
  rw [Array.getElem?_setIfInBounds_ne hne]

end DataStore

/-! ## Changes -/

namespace Registry

variable {t : TableSet} {r r' : Registry}

/-- A channel that is accepted has a cell of the variable. -/
theorem Belongs.owns (h : r.Belongs t) {handle : Handle} {d : Descriptor}
    (hd : r.descriptor handle = .ok d) {a : DataArray} {data : Nat}
    (hcells : d.kind.cells? = some (a, data)) {channel : UInt16}
    (hchannel : d.checkChannel channel = .ok ()) : d.Owns a (data + channel.toNat) := by
  have hlt := h.channel_lt hd hchannel
  exact ⟨data, hcells, by omega, by omega⟩

theorem mem_vars_of_descriptor {handle : Handle} {d : Descriptor}
    (hd : r.descriptor handle = .ok d) : d ∈ r.directory.vars.toList := by
  rw [descriptor_eq_ok, ← Array.getElem?_toList] at hd
  exact List.mem_of_getElem? hd

end Registry

end VariableRegistry
