/-
# The places of variables

Every place that a descriptor of a directory carries is there: its template or its members, its
default text, and a cell for each of its channels. A directory is put together with descriptors
whose places were checked, and enumerations that are added later move no earlier one.
-/
import VariableRegistry.Proofs.DescriptorWords
import VariableRegistry.Registry.Store

namespace VariableRegistry

/-! ## Places that are there -/

/-- A default text stands in the blob and fits into a cell. -/
theorem DataStore.defaultText_eq_ok {d : Directory} {offset : Nat} {text : String} :
    defaultText d offset = .ok text ↔
      d.blob.bytesAt? offset = some (Utf8.encode text.toList) ∧
        Utf8.size text.toList ≤ TableSet.maxStringBytes := by
  simp only [defaultText, bind_eq_ok, demand_eq_ok, require_eq_ok, pure_eq_ok, decide_eq_true_eq]
  constructor
  · rintro ⟨bytes, hbytes, cs, hcs, -, hlength, rfl⟩
    obtain rfl := Utf8.decode?_eq_some_iff.1 hcs
    rw [String.toList_ofList]
    exact ⟨hbytes, hlength⟩
  · rintro ⟨hbytes, hlength⟩
    exact ⟨_, hbytes, _, Utf8.decode?_eq_some_iff.2 rfl, (), hlength, String.ofList_toList⟩

/-- The places of a kind of variable with a number of channels are there. -/
def Directory.HasPlaces (d : Directory) (channels : Nat) : VarKind → Prop
  | .number u template data =>
    template < (d.templates.get u).size ∧ data + channels ≤ d.counts.numbers.get u
  | .enumeration members data =>
    (∃ e, d.enums[members]? = some e ∧ e.default < e.members.length) ∧
      data + channels ≤ d.counts.enums
  | .string default data =>
    (∃ text, DataStore.defaultText d default = .ok text) ∧ data + channels ≤ d.counts.strings
  | .constant text => ∃ bytes, d.blob.bytesAt? text = some bytes
  | .action => True

/-- A variable of a directory has all its places and at least one channel, and it is a vector
exactly if it has more. -/
structure Directory.Resolves (d : Directory) (var : Descriptor) : Prop where
  channels : 0 < var.channels.toNat
  vector : var.vector = true ↔ 1 < var.channels.toNat
  places : d.HasPlaces var.channels.toNat var.kind

/-- Every variable of a directory has its places. -/
def Directory.Sound (d : Directory) : Prop :=
  ∀ (i : Nat) (var : Descriptor), d.vars[i]? = some var → d.Resolves var

namespace TableSet

variable {t : TableSet} {pool pool' : EnumPool}

/-! ## Reading a descriptor -/

/-- The directory of a table set as far as it was read. -/
def directoryOf (t : TableSet) (vars : Array Descriptor) (pool : EnumPool) : Directory where
  vars
  templates := t.templates
  enums := pool.enums
  blob := t.blob
  counts := t.counts

/-- No place is lost when enumerations are added. -/
theorem hasPlaces_of_extends {vars vars' : Array Descriptor} {channels : Nat} {kind : VarKind}
    (hext : pool'.Extends pool) (h : (t.directoryOf vars pool).HasPlaces channels kind) :
    (t.directoryOf vars' pool').HasPlaces channels kind := by
  -- all but the enumerations stay the same
  cases kind with
  | enumeration members data =>
    obtain ⟨⟨e, he, hdefault⟩, hcells⟩ := h
    exact ⟨⟨e, hext members e he, hdefault⟩, hcells⟩
  | number u template data => exact h
  | string default data => exact h
  | constant text => exact h
  | action => exact h

/-- The places of a kind that was read are there. -/
theorem hasPlaces_of_readKind (hpool : t.PoolRead pool) {raw : RawDescriptor} {type : VarType}
    {constant : Bool} {kind : VarKind} (h : t.ReadsKind pool raw type constant kind pool')
    (vars : Array Descriptor) :
    t.PoolRead pool' ∧ pool'.Extends pool ∧
      (t.directoryOf vars pool').HasPlaces raw.channels.toNat kind := by
  cases h with
  | number hsource hcells => exact ⟨hpool, .refl pool, hsource, hcells⟩
  | enumeration hcells hposition =>
    -- whether the members are read now or were read before, their default is one of them
    obtain ⟨hpool', hext, e, he, hread⟩ := poolEnumeration_eq_ok hpool hposition
    exact ⟨hpool', hext, ⟨e, he, default_lt_of_readEnumeration hread⟩, hcells⟩
  | constant htext => exact ⟨hpool, .refl pool, _, htext⟩
  | @string cs htext hlength haligned hcells =>
    refine ⟨hpool, .refl pool, ⟨String.ofList cs, DataStore.defaultText_eq_ok.2 ?_⟩, hcells⟩
    rw [String.toList_ofList]
    exact ⟨htext, hlength⟩
  | action => exact ⟨hpool, .refl pool, trivial⟩

/-- A descriptor that was read has its places. -/
theorem resolves_of_readDescriptor (hpool : t.PoolRead pool) {index : Nat} {raw : RawDescriptor}
    {var : Descriptor} (h : t.readDescriptor pool index raw = .ok (var, pool'))
    (vars : Array Descriptor) :
    t.PoolRead pool' ∧ pool'.Extends pool ∧ (t.directoryOf vars pool').Resolves var := by
  obtain ⟨type, hread⟩ := readDescriptor_eq_ok.1 h
  obtain ⟨hpool', hext, hplaces⟩ := hasPlaces_of_readKind hpool (readKind_eq_ok.1 hread.kind) vars
  refine ⟨hpool', hext, ?_, ?_, ?_⟩
  · have hitems := hread.items
    rw [Ne, ← UInt16.toNat_inj] at hitems
    rw [hread.channels]
    exact Nat.pos_of_ne_zero hitems
  · rw [hread.vector, hread.channels, decide_eq_true_eq, UInt16.lt_iff_toNat_lt]
    rfl
  · rw [hread.channels]
    exact hplaces

/-! ## Reading all descriptors -/

/-- What holds of the variables and the enumerations that were read so far: the enumerations stand
where they were read, and every variable has its places. -/
def ReadSoFar (t : TableSet) (vars : Array Descriptor) (pool : EnumPool) : Prop :=
  t.PoolRead pool ∧ (t.directoryOf vars pool).Sound

theorem readSoFar_empty : t.ReadSoFar #[] ⟨#[], #[]⟩ := by
  refine ⟨poolRead_empty, ?_⟩
  intro i var h
  simp [directoryOf] at h

/-- One more descriptor keeps what was read. -/
theorem ReadSoFar.push {vars : Array Descriptor} (hread : t.ReadSoFar vars pool) {index : Nat}
    {raw : RawDescriptor} {var : Descriptor}
    (h : t.readDescriptor pool index raw = .ok (var, pool')) :
    t.ReadSoFar (vars.push var) pool' := by
  obtain ⟨hpool', hext, hvar⟩ := resolves_of_readDescriptor hread.1 h (vars.push var)
  refine ⟨hpool', ?_⟩
  intro i var' hvar'
  rw [directoryOf, Array.getElem?_push] at hvar'
  by_cases hi : i = vars.size
  · rw [if_pos hi] at hvar'
    cases hvar'
    exact hvar
  · rw [if_neg hi] at hvar'
    obtain ⟨hchannels, hvector, hplaces⟩ := hread.2 i var' hvar'
    exact ⟨hchannels, hvector, hasPlaces_of_extends hext hplaces⟩

/-- The directory of a table set is what its descriptors and their enumerations are read as. -/
theorem directory_eq_ok {d : Directory} :
    t.directory = .ok d ↔
      t.vars.size < 0xFFFF ∧ (∀ u, t.checkTemplates u = .ok ()) ∧
        ∃ vars pool, t.readDescriptors t.vars.toList #[] ⟨#[], #[]⟩ = .ok (vars, pool) ∧
          d = t.directoryOf vars pool := by
  unfold directory
  simp only [bind_eq_ok, pure_eq_ok, require_eq_ok, decide_eq_true_eq, Prod.exists]
  constructor
  · rintro ⟨_, hsize, _, h16, _, h32, _, hsingle, _, hdouble, vars, pool, hvars, rfl⟩
    refine ⟨hsize, ?_, vars, pool, hvars, rfl⟩
    rintro (_ | _ | _ | _)
    · exact h16
    · exact h32
    · exact hsingle
    · exact hdouble
  · rintro ⟨hsize, htemplates, vars, pool, hvars, rfl⟩
    exact ⟨(), hsize, (), htemplates .int16, (), htemplates .int32, (), htemplates .float, (),
      htemplates .double, vars, pool, hvars, rfl⟩

/-- What holds before the first descriptor is read, and is kept when the next one is, holds of the
variables and the enumerations of a directory; each descriptor is one of its variables. -/
theorem directory_induction {P : Array Descriptor → EnumPool → Prop}
    (hempty : P #[] ⟨#[], #[]⟩)
    (hpush : ∀ {vars pool raw var pool'}, P vars pool → t.vars[vars.size]? = some raw →
      t.readDescriptor pool vars.size raw = .ok (var, pool') → P (vars.push var) pool')
    {d : Directory} (h : t.directory = .ok d) :
    ∃ vars pool, d = t.directoryOf vars pool ∧ vars.size = t.vars.size ∧ P vars pool := by
  obtain ⟨-, -, vars', pool', hread, rfl⟩ := directory_eq_ok.1 h
  -- the descriptors that are left are those behind the position of the next variable
  suffices hrun : ∀ (raws : List RawDescriptor) (vars : Array Descriptor) (pool : EnumPool),
      t.vars.toList.drop vars.size = raws → vars.size ≤ t.vars.size → P vars pool →
      t.readDescriptors raws vars pool = .ok (vars', pool') →
      vars'.size = t.vars.size ∧ P vars' pool' from
    ⟨vars', pool', rfl, hrun _ #[] _ rfl (Nat.zero_le _) hempty hread⟩
  intro raws
  induction raws with
  | nil =>
    intro vars pool hleft hle hP h
    cases h
    have hdone := List.drop_eq_nil_iff.1 hleft
    exact ⟨Nat.le_antisymm hle hdone, hP⟩
  | cons raw raws ih =>
    intro vars pool hleft hle hP h
    have hraw : t.vars[vars.size]? = some raw := by
      have hfirst := congrArg (·[0]?) hleft
      simpa using hfirst
    obtain ⟨hlt, -⟩ := Array.getElem?_eq_some_iff.1 hraw
    rw [TableSet.readDescriptors] at h
    cases hone : t.readDescriptor pool vars.size raw with
    | error fault =>
      rw [hone] at h
      cases h
    | ok p =>
      rw [hone] at h
      refine ih (vars.push p.1) p.2 ?_ ?_ (hpush hP hraw hone) h
      · rw [Array.size_push, ← List.drop_drop, hleft, List.drop_one, List.tail_cons]
      · rw [Array.size_push]
        exact hlt

/-- **Every variable of a directory that was read has all its places.** -/
theorem sound_of_directory {d : Directory} (h : t.directory = .ok d) : d.Sound := by
  obtain ⟨vars, pool, rfl, -, hread⟩ :=
    directory_induction readSoFar_empty (fun hread _ hone => hread.push hone) h
  exact hread.2

end TableSet

end VariableRegistry
