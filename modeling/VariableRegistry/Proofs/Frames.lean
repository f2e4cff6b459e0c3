/-
# What a write leaves alone

A write replaces one cell. Everything else stays: all other cells, also those of variables that
share some with the one that is written, and what the registry knows about its variables.
-/
import VariableRegistry.Registry.Number

namespace VariableRegistry.Registry

/-! ## Frames -/

/-- Two registries differ in nothing but the cells of a number type. -/
structure SameButNumbers (t : NumType) (r r' : Registry) : Prop where
  directory : r'.directory = r.directory
  policy : r'.policy = r.policy
  numbers : ∀ u, u ≠ t → r'.store.numbers.get u = r.store.numbers.get u
  enums : r'.store.enums = r.store.enums
  strings : r'.store.strings = r.store.strings

/-- Two registries differ in nothing but the cells of enumerations. -/
structure SameButEnums (r r' : Registry) : Prop where
  directory : r'.directory = r.directory
  policy : r'.policy = r.policy
  numbers : r'.store.numbers = r.store.numbers
  strings : r'.store.strings = r.store.strings

/-- Of all number cells one is what a function makes of it. -/
def NumberReplaced (t : NumType) (r : Registry) (i : Nat) (f : Cell t.Carrier → Cell t.Carrier)
    (r' : Registry) : Prop :=
  r.SameButNumbers t r' ∧
    ∀ j, (r'.store.numbers.get t)[j]? =
      if j = i then ((r.store.numbers.get t)[i]?).map f else (r.store.numbers.get t)[j]?

/-- Of all cells of enumerations one has another value. -/
def MemberReplaced (r : Registry) (i : Nat) (x : Int16) (r' : Registry) : Prop :=
  r.SameButEnums r' ∧
    ∀ j, r'.store.enums[j]? =
      if j = i then (r.store.enums[i]?).map fun _ => x else r.store.enums[j]?

variable {r r' : Registry}

/-! ## Replacing a cell -/

/-- Where one cell of an array is replaced by what a function makes of it, the others stay. -/
theorem getElem?_setIfInBounds_map {α : Type} {cells : Array α} {i : Nat} {c : α}
    (hc : cells[i]? = some c) (f : α → α) (j : Nat) :
    (cells.setIfInBounds i (f c))[j]? = if j = i then (cells[i]?).map f else cells[j]? := by
  obtain ⟨hi, -⟩ := Array.getElem?_eq_some_iff.1 hc
  rw [Array.getElem?_setIfInBounds, hc]
  by_cases hj : j = i
  · subst hj
    simp [hi]
  · rw [if_neg hj, if_neg (Ne.symm hj)]

/-- Replacing a number cell changes this cell and nothing else. -/
theorem numberReplaced_iff {t : NumType} {i : Nat} {c : Cell t.Carrier}
    (hc : (r.store.numbers.get t)[i]? = some c) (f : Cell t.Carrier → Cell t.Carrier) :
    r.NumberReplaced t i f r' ↔ r' = r.setCell t i (f c) := by
  have hcells := getElem?_setIfInBounds_map hc f
  constructor
  · rintro ⟨⟨hdirectory, hpolicy, hnumbers, henums, hstrings⟩, hreplaced⟩
    obtain ⟨directory, ⟨numbers, enums, strings⟩, policy⟩ := r'
    -- the cells of the other types are given as a whole, those of this type one by one
    have hget : numbers =
        r.store.numbers.set t ((r.store.numbers.get t).setIfInBounds i (f c)) := by
      apply PerType.ext_get
      intro u
      by_cases hu : u = t
      · subst hu
        rw [PerType.get_set_self]
        apply Array.ext_getElem?
        intro j
        rw [hcells]
        exact hreplaced j
      · rw [PerType.get_set_of_ne _ hu]
        exact hnumbers u hu
    simp only at hdirectory hpolicy henums hstrings
    subst hdirectory hpolicy henums hstrings hget
    rfl
  · rintro rfl
    refine ⟨⟨rfl, rfl, ?_, rfl, rfl⟩, ?_⟩
    · intro u hu
      exact PerType.get_set_of_ne _ hu _
    · intro j
      show ((r.store.numbers.set t _).get t)[j]? = _
      rw [PerType.get_set_self]
      exact hcells j

/-- A cell that was replaced holds the new content. -/
theorem getElem?_setCell_self {t : NumType} {i : Nat} {c : Cell t.Carrier}
    (hc : (r.store.numbers.get t)[i]? = some c) (c' : Cell t.Carrier) :
    ((r.setCell t i c').store.numbers.get t)[i]? = some c' := by
  obtain ⟨hi, -⟩ := Array.getElem?_eq_some_iff.1 hc
  show ((r.store.numbers.set t _).get t)[i]? = _
  rw [PerType.get_set_self, Array.getElem?_setIfInBounds_self_of_lt hi]

/-- Replacing the value of an enumeration cell changes this value and nothing else. -/
theorem memberReplaced_iff {i : Nat} {c x : Int16} (hc : r.store.enums[i]? = some c) :
    r.MemberReplaced i x r' ↔ r' = r.setEnum i x := by
  have hcells := getElem?_setIfInBounds_map hc fun _ => x
  constructor
  · rintro ⟨⟨hdirectory, hpolicy, hnumbers, hstrings⟩, hreplaced⟩
    obtain ⟨directory, ⟨numbers, enums, strings⟩, policy⟩ := r'
    have hget : enums = r.store.enums.setIfInBounds i x := by
      apply Array.ext_getElem?
      intro j
      rw [hcells]
      exact hreplaced j
    simp only at hdirectory hpolicy hnumbers hstrings
    subst hdirectory hpolicy hnumbers hstrings hget
    rfl
  · rintro rfl
    exact ⟨⟨rfl, rfl, rfl, rfl⟩, hcells⟩

end VariableRegistry.Registry
