/-
# What directories are read as

Every variable of a directory is what the descriptor at its position says, and nothing that was
read later changes it: the position at which the members of an enumeration were put keeps them.
-/
import VariableRegistry.Proofs.Places

namespace VariableRegistry

/-- A kind of variable is what the words of a descriptor say, for a type and with the enumerations
that were read. -/
def RawDescriptor.Means (t : TableSet) (enums : Array Enumeration) (raw : RawDescriptor) :
    VarType → VarKind → Prop
  | .number u, kind => kind = .number u raw.source.toNat raw.data.toNat
  | .enumeration, kind => ∃ position e, kind = .enumeration position raw.data.toNat ∧
      enums[position]? = some e ∧ t.readEnumeration raw.source.toNat = .ok e
  | .string, kind => kind =
      if raw.type &&& 0x2000 = 0 then .string raw.source.toNat (raw.data.toNat / 32)
      else .constant raw.source.toNat
  | .action, kind => kind = .action

namespace TableSet

variable {t : TableSet} {pool pool' : EnumPool} {raw : RawDescriptor}

/-- A kind that was read is what the words of the descriptor say. -/
theorem means_of_readKind (hpool : t.PoolRead pool) {type : VarType} {kind : VarKind}
    (h : t.readKind pool raw type (decide (raw.type &&& 0x2000 ≠ 0)) = .ok (kind, pool')) :
    raw.Means t pool'.enums type kind := by
  rw [readKind_eq_ok] at h
  generalize hflag : decide (raw.type &&& 0x2000 ≠ 0) = constant at h
  cases h with
  | number _ _ => rfl
  | enumeration _ hposition =>
    obtain ⟨-, -, e, he, hread⟩ := poolEnumeration_eq_ok hpool hposition
    exact ⟨_, e, rfl, he, hread⟩
  | constant _ => exact (if_neg (of_decide_eq_true hflag)).symm
  | string _ _ _ _ => exact (if_pos (Decidable.not_not.1 (of_decide_eq_false hflag))).symm
  | action => rfl

/-- What the words mean does not change when enumerations are added. -/
theorem means_of_extends (hext : pool'.Extends pool) {type : VarType} {kind : VarKind}
    (h : raw.Means t pool.enums type kind) : raw.Means t pool'.enums type kind := by
  cases type with
  | enumeration =>
    obtain ⟨position, e, hk, he, hread⟩ := h
    exact ⟨position, e, hk, hext position e he, hread⟩
  | number u => exact h
  | string => exact h
  | action => exact h

/-- A variable is what the words of a descriptor at a position say, with the enumerations that were
read. -/
def ReadFrom (t : TableSet) (enums : Array Enumeration) (index : Nat) (raw : RawDescriptor)
    (var : Descriptor) : Prop :=
  ∃ type pool pool', t.ReadsAs pool index raw type var pool' ∧ raw.Means t enums type var.kind

/-- What is read from a descriptor with enumerations is read from it with more of them. -/
theorem ReadFrom.of_extends (hext : pool'.Extends pool) {index : Nat} {var : Descriptor}
    (h : t.ReadFrom pool.enums index raw var) : t.ReadFrom pool'.enums index raw var := by
  obtain ⟨type, before, behind, hread, hmeans⟩ := h
  exact ⟨type, before, behind, hread, means_of_extends hext hmeans⟩

/-- The variables that were read so far stand where their descriptors do, and each is what its own
descriptor says. -/
def ReadInOrder (t : TableSet) (vars : Array Descriptor) (pool : EnumPool) : Prop :=
  t.PoolRead pool ∧ ∀ (i : Nat) (var : Descriptor), vars[i]? = some var →
    ∃ raw, t.vars[i]? = some raw ∧ t.ReadFrom pool.enums i raw var

theorem readInOrder_empty : t.ReadInOrder #[] ⟨#[], #[]⟩ :=
  ⟨poolRead_empty, by simp⟩

/-- The variable of the next descriptor goes behind those that were read. -/
theorem ReadInOrder.push {vars : Array Descriptor} (hread : t.ReadInOrder vars pool)
    {var : Descriptor} (hraw : t.vars[vars.size]? = some raw)
    (h : t.readDescriptor pool vars.size raw = .ok (var, pool')) :
    t.ReadInOrder (vars.push var) pool' := by
  obtain ⟨hpool', hext, -⟩ := resolves_of_readDescriptor hread.1 h vars
  refine ⟨hpool', ?_⟩
  intro i var' hvar'
  rw [Array.getElem?_push] at hvar'
  by_cases hi : i = vars.size
  · rw [if_pos hi] at hvar'
    cases hvar'
    subst hi
    obtain ⟨type, hone⟩ := readDescriptor_eq_ok.1 h
    exact ⟨raw, hraw, type, pool, pool', hone, means_of_readKind hread.1 hone.kind⟩
  · rw [if_neg hi] at hvar'
    obtain ⟨raw', hraw', hfrom⟩ := hread.2 i var' hvar'
    exact ⟨raw', hraw', hfrom.of_extends hext⟩

/-- **Every variable of a directory is what its descriptor says**, and there are no others. -/
theorem readFrom_of_directory {d : Directory} (h : t.directory = .ok d) :
    d.vars.size = t.vars.size ∧
      ∀ (i : Nat) (raw : RawDescriptor), t.vars[i]? = some raw →
        ∃ var, d.vars[i]? = some var ∧ t.ReadFrom d.enums i raw var := by
  obtain ⟨vars, pool, rfl, hsize, -, hread⟩ :=
    directory_induction readInOrder_empty (fun hread => hread.push) h
  refine ⟨hsize, ?_⟩
  intro i raw hraw
  obtain ⟨hi, -⟩ := Array.getElem?_eq_some_iff.1 hraw
  have hvar : vars[i]? = some vars[i] := Array.getElem?_eq_getElem (hsize ▸ hi)
  obtain ⟨raw', hraw', hfrom⟩ := hread i _ hvar
  obtain rfl := Option.some.inj (hraw.symm.trans hraw')
  exact ⟨_, hvar, hfrom⟩

end TableSet

end VariableRegistry
