/-
# Which table sets are accepted

A table set is turned into a directory exactly if it is well-formed. That descriptors may share
the words of an enumeration makes no difference: words that were read once can be read again.
-/
import VariableRegistry.Proofs.Places

namespace VariableRegistry.TableSet

/-- A table set that describes variables: there are fewer than handles, no template has its
minimum above its maximum, and every descriptor is well-formed where it stands. -/
structure WellFormed (t : TableSet) : Prop where
  size_lt : t.vars.size < 65535
  bounds : ∀ u, ∀ x ∈ t.templates.get u, u.lt x.max x.min = false
  vars : ∀ (i : Nat) (raw : RawDescriptor), t.vars[i]? = some raw → raw.WellFormed t i

variable {t : TableSet}

/-! ## Templates -/

theorem checkTemplates_eq_ok {u : NumType} :
    t.checkTemplates u = .ok () ↔ ∀ x ∈ t.templates.get u, u.lt x.max x.min = false := by
  simp only [checkTemplates]
  rw [← Array.findIdx?_eq_none_iff]
  cases hfound : (t.templates.get u).findIdx? fun x => u.lt x.max x.min with
  | none => simp
  | some i =>
    obtain ⟨hi, -⟩ := Array.findIdx?_eq_some_iff_getElem.1 hfound
    simp [Array.getElem?_eq_getElem hi]

/-! ## Descriptors -/

/-- Descriptors are read one after another if each is well-formed at its position. -/
theorem exists_readDescriptors_iff (hb : t.blob.Built) {pool : EnumPool} (hpool : t.PoolRead pool)
    (raws : List RawDescriptor) (vars : Array Descriptor) :
    (∃ p, t.readDescriptors raws vars pool = .ok p) ↔
      ∀ (k : Nat) (raw : RawDescriptor), raws[k]? = some raw →
        raw.WellFormed t (vars.size + k) := by
  induction raws generalizing vars pool with
  | nil => simp [readDescriptors]
  | cons raw raws ih =>
    rw [readDescriptors]
    have hone : _ ↔ raw.WellFormed t vars.size := exists_readDescriptor_iff hb hpool vars.size
    cases hread : t.readDescriptor pool vars.size raw with
    | error fault =>
      simp only [hread, reduceCtorEq, exists_false, false_iff] at hone ⊢
      intro hall
      exact hone (hall 0 raw rfl)
    | ok p =>
      obtain ⟨var, pool'⟩ := p
      have hraw : raw.WellFormed t vars.size := hone.1 ⟨_, hread⟩
      -- the pool that the descriptor leaves behind is one to read the others with
      have hpool' := (resolves_of_readDescriptor hpool hread vars).1
      simp only [ih hpool', Array.size_push]
      constructor
      · intro hrest k raw' hraw'
        cases k with
        | zero =>
          cases hraw'
          exact hraw
        | succ k =>
          rw [show vars.size + (k + 1) = vars.size + 1 + k by omega]
          exact hrest k raw' hraw'
      · intro hall k raw' hraw'
        rw [show vars.size + 1 + k = vars.size + (k + 1) by omega]
        exact hall (k + 1) raw' hraw'

/-! ## Table sets -/

/-- **A table set is accepted exactly if it is well-formed.** -/
theorem directory_accepts_iff (t : TableSet) (hb : t.blob.Built) :
    (∃ d, t.directory = .ok d) ↔ t.WellFormed := by
  have hvars := exists_readDescriptors_iff hb poolRead_empty t.vars.toList #[]
  simp only [directory_eq_ok, checkTemplates_eq_ok]
  constructor
  · rintro ⟨d, hsize, hbounds, vars, pool, hread, -⟩
    refine ⟨hsize, hbounds, ?_⟩
    intro i raw hraw
    have hi := hvars.1 ⟨_, hread⟩ i raw (by rwa [Array.getElem?_toList])
    rwa [show (#[] : Array Descriptor).size + i = i from Nat.zero_add i] at hi
  · rintro ⟨hsize, hbounds, hwell⟩
    obtain ⟨⟨vars, pool⟩, hread⟩ := hvars.2 fun k raw hraw => by
      rw [Array.getElem?_toList] at hraw
      rw [show (#[] : Array Descriptor).size + k = k from Nat.zero_add k]
      exact hwell k raw hraw
    exact ⟨_, hsize, hbounds, vars, pool, hread, rfl⟩

/-- A table set with a limited vector, an enumeration and a string. -/
def sample : TableSet where
  cells := ⟨2, 0, 0, 0⟩
  stringCells := 1
  enumCells := 1
  blob := .ofStrings ["on"]
  enumWords := #[0, 1, -1, 5, 0]
  templates := ⟨#[⟨0, -5, 5⟩], #[], #[], #[]⟩
  vars := #[
    ⟨0, 0, 0x1001, 2, 0x40FF, 0, 0, 0, 0⟩,
    ⟨1, 0xFFFF, 0x0006, 1, 0x00FF, 0, 0, 0x2000, 4⟩,
    ⟨2, 0xFFFF, 0x0007, 1, 0x00FF, 0, 0, 0x4000, 10⟩]
  policy := .subset

theorem sample_accepted : ∃ d, sample.directory = .ok d :=
  toBool_eq_true.1 (by decide +kernel)

theorem sample_wellFormed : sample.blob.Built ∧ sample.WellFormed :=
  have hb : sample.blob.Built := Blob.built_ofStrings ["on"]
  ⟨hb, (directory_accepts_iff sample hb).1 sample_accepted⟩

end VariableRegistry.TableSet
