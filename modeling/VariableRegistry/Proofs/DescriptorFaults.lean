/-
# Faults of descriptors

With which faults a table set is refused. That values beyond the bounds of a variable are both
refused and clipped is said by one check of its descriptor, and by it only: no other word of a
descriptor, no template and no enumeration can be at fault in this way.
-/
import VariableRegistry.Proofs.DescriptorWords

namespace VariableRegistry

/-- A fault other than that values beyond the bounds are both refused and clipped. -/
def VariableFault.IsElsewhere (fault : VariableFault) : Prop := fault ≠ .limitAndClip

namespace TableSet

variable {t : TableSet} {raw : RawDescriptor}

/-! ## Names and members -/

theorem failsWith_readText {offset : UInt16} {fault : VariableFault} (h : fault.IsElsewhere) :
    FailsWith VariableFault.IsElsewhere (t.readText offset fault) := by
  unfold readText
  refine failsWith_ite (fun _ => failsWith_ok none) fun _ => ?_
  cases t.blob.textAt? offset.toNat with
  | none => exact failsWith_error h
  | some s => exact failsWith_ok (some s)

theorem failsWith_readMember (handle value symbol : Int16) :
    FailsWith VariableFault.IsElsewhere (t.readMember handle value symbol) := by
  unfold readMember
  refine failsWith_bind (failsWith_require (by rintro ⟨⟩)) fun _ _ => ?_
  refine failsWith_bind (failsWith_readText (by rintro ⟨⟩)) fun _ _ => ?_
  exact failsWith_ok _

theorem failsWith_readMembers (words : List Int16) :
    FailsWith VariableFault.IsElsewhere (t.readMembers words) := by
  fun_induction readMembers t words with
  | case1 handle value symbol words ih =>
    refine failsWith_bind (failsWith_readMember handle value symbol) fun _ _ => ?_
    refine failsWith_bind ih fun _ _ => ?_
    exact failsWith_ok _
  | case2 => exact failsWith_ok _

theorem failsWith_readEnumeration (start : Nat) :
    FailsWith VariableFault.IsElsewhere (t.readEnumeration start) := by
  unfold readEnumeration
  -- the words of the header and what they have to be
  refine failsWith_bind (failsWith_demand (by rintro ⟨⟩)) fun default _ => ?_
  refine failsWith_bind (failsWith_demand (by rintro ⟨⟩)) fun count _ => ?_
  refine failsWith_bind (failsWith_require (by rintro ⟨⟩)) fun _ _ => ?_
  refine failsWith_bind (failsWith_require (by rintro ⟨⟩)) fun _ _ => ?_
  refine failsWith_bind (failsWith_require (by rintro ⟨⟩)) fun _ _ => ?_
  refine failsWith_bind (failsWith_readMembers _) fun _ _ => ?_
  exact failsWith_ok _

theorem failsWith_poolEnumeration (pool : EnumPool) (start : UInt16) :
    FailsWith VariableFault.IsElsewhere (t.poolEnumeration pool start) := by
  unfold poolEnumeration
  cases pool.starts.idxOf? start with
  | some position => exact failsWith_ok _
  | none =>
    refine failsWith_bind (failsWith_readEnumeration start.toNat) fun _ _ => ?_
    exact failsWith_ok _

/-! ## Descriptors -/

theorem failsWith_readKind (pool : EnumPool) (raw : RawDescriptor) (type : VarType)
    (constant : Bool) :
    FailsWith VariableFault.IsElsewhere (t.readKind pool raw type constant) := by
  have hcells : ∀ array first,
      FailsWith VariableFault.IsElsewhere (t.checkCells array first raw) :=
    fun _ _ => failsWith_require (by rintro ⟨⟩)
  cases type with
  | number u =>
    simp only [readKind]
    refine failsWith_bind (failsWith_require (by rintro ⟨⟩)) fun _ _ => ?_
    refine failsWith_bind (hcells _ _) fun _ _ => ?_
    exact failsWith_ok _
  | enumeration =>
    simp only [readKind]
    refine failsWith_bind (hcells _ _) fun _ _ => ?_
    refine failsWith_bind (failsWith_poolEnumeration pool raw.source) fun _ _ => ?_
    exact failsWith_ok _
  | string =>
    simp only [readKind]
    refine failsWith_bind (failsWith_demand (by rintro ⟨⟩)) fun text _ => ?_
    refine failsWith_ite (fun _ => failsWith_ok _) fun _ => ?_
    -- a text that can be written has to fit into a cell, and to have one
    refine failsWith_bind (failsWith_require (by rintro ⟨⟩)) fun _ _ => ?_
    refine failsWith_bind (failsWith_require (by rintro ⟨⟩)) fun _ _ => ?_
    refine failsWith_bind (failsWith_require (by rintro ⟨⟩)) fun _ _ => ?_
    refine failsWith_bind (hcells _ _) fun _ _ => ?_
    exact failsWith_ok _
  | action => exact failsWith_ok _

/-- A descriptor is refused for both bits only if its word of rights has both. -/
theorem failsWith_readDescriptor
    (hraw : ¬(raw.rights &&& 0x4000 = 0x4000 ∧ raw.rights &&& 0x2000 = 0x2000))
    (pool : EnumPool) (index : Nat) :
    FailsWith VariableFault.IsElsewhere (t.readDescriptor pool index raw) := by
  unfold readDescriptor
  -- the words that are read before the rights
  refine failsWith_bind (failsWith_require (by rintro ⟨⟩)) fun _ _ => ?_
  refine failsWith_bind (failsWith_demand (by rintro ⟨⟩)) fun type _ => ?_
  refine failsWith_bind (failsWith_require (by rintro ⟨⟩)) fun _ _ => ?_
  refine failsWith_bind (failsWith_require (by rintro ⟨⟩)) fun _ _ => ?_
  refine failsWith_bind (failsWith_require (by rintro ⟨⟩)) fun _ _ => ?_
  refine failsWith_bind (failsWith_require (by rintro ⟨⟩)) fun _ _ => ?_
  refine failsWith_bind (failsWith_demand (by rintro ⟨⟩)) fun rights hrights => ?_
  obtain ⟨-, rfl⟩ := Rights.ofBits?_eq_some_iff.1 (demand_eq_ok.1 hrights)
  -- the one check that could say so is passed
  rw [(Rights.refusesOrClips_iff raw.rights).2 hraw]
  refine failsWith_bind (failsWith_ok ()) fun _ _ => ?_
  refine failsWith_bind (failsWith_require (by rintro ⟨⟩)) fun _ _ => ?_
  refine failsWith_bind (failsWith_demand (by rintro ⟨⟩)) fun storage _ => ?_
  refine failsWith_bind (failsWith_demand (by rintro ⟨⟩)) fun format _ => ?_
  refine failsWith_bind (failsWith_readText (by rintro ⟨⟩)) fun name _ => ?_
  refine failsWith_bind (failsWith_readKind pool raw type _) fun _ _ => ?_
  exact failsWith_ok _

/-- Descriptors are refused with the fault of one of them. -/
theorem failsWith_readDescriptors {P : TableFault → Prop} {raws : List RawDescriptor}
    (h : ∀ raw ∈ raws, ∀ pool index,
      FailsWith (fun fault => P (.inVariable index fault)) (t.readDescriptor pool index raw))
    (vars : Array Descriptor) (pool : EnumPool) :
    FailsWith P (t.readDescriptors raws vars pool) := by
  induction raws generalizing vars pool with
  | nil => exact failsWith_ok _
  | cons raw raws ih =>
    rw [readDescriptors]
    have hraw := h raw List.mem_cons_self pool vars.size
    have hraws := fun raw' hraw' => h raw' (List.mem_cons_of_mem raw hraw')
    cases hread : t.readDescriptor pool vars.size raw with
    | error fault => exact failsWith_error (hraw fault hread)
    | ok p => exact ih hraws _ _

/-! ## Table sets -/

theorem failsWith_checkTemplates {P : TableFault → Prop} (u : NumType)
    (h : ∀ i min max, P (.templateBounds u i min max)) : FailsWith P (t.checkTemplates u) := by
  simp only [checkTemplates]
  split
  · exact failsWith_ok ()
  · split
    · exact failsWith_error (h _ _ _)
    · exact failsWith_ok ()

/-- A table set is refused for both bits only if the word of rights of some descriptor has both. -/
theorem directory_ne_limitAndClip
    (h : ∀ raw ∈ t.vars, ¬(raw.rights &&& 0x4000 = 0x4000 ∧ raw.rights &&& 0x2000 = 0x2000))
    (i : Nat) : t.directory ≠ .error (.inVariable i .limitAndClip) := by
  have htemplates : ∀ u, FailsWith (· ≠ .inVariable i .limitAndClip) (t.checkTemplates u) :=
    fun u => failsWith_checkTemplates u (by rintro _ _ _ ⟨⟩)
  have hfails : FailsWith (· ≠ .inVariable i .limitAndClip) t.directory := by
    unfold directory
    refine failsWith_bind (failsWith_require (by rintro ⟨⟩)) fun _ _ => ?_
    refine failsWith_bind (htemplates .int16) fun _ _ => ?_
    refine failsWith_bind (htemplates .int32) fun _ _ => ?_
    refine failsWith_bind (htemplates .float) fun _ _ => ?_
    refine failsWith_bind (htemplates .double) fun _ _ => ?_
    refine failsWith_bind (failsWith_readDescriptors ?_ _ _) fun _ _ => failsWith_ok _
    intro raw hraw pool index fault hfault heq
    have hboth : fault = .limitAndClip := (TableFault.inVariable.inj heq).2
    exact failsWith_readDescriptor (h raw (Array.mem_toList_iff.1 hraw)) pool index fault hfault
      hboth
  exact fun herror => hfails _ herror rfl

end TableSet

end VariableRegistry
