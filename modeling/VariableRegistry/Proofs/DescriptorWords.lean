/-
# The words of descriptors

Which words can be read as the descriptor of a variable, said word by word: the codes and bits that
each may hold, and for each type of variable what its places have to be in the tables.
-/
import VariableRegistry.Proofs.EnumerationWords
import VariableRegistry.Proofs.Utf8Codec

namespace VariableRegistry

/-! ## Codes and bits -/

/-- A word without bits beyond a mask is not changed by the mask. -/
theorem and_not_eq_zero_iff (word mask : UInt16) :
    word &&& ~~~mask = 0 ↔ word &&& mask = word := by
  rw [← UInt16.toBitVec_inj, ← UInt16.toBitVec_inj]
  simp only [UInt16.toBitVec_and, UInt16.toBitVec_not, UInt16.toBitVec_zero]
  constructor
  · intro h
    ext i hi
    have hbit := congrArg (fun x : BitVec 16 => x[i]) h
    simp at hbit
    simpa [Bool.and_eq_left_iff_imp] using hbit
  · intro h
    ext i hi
    have hbit := congrArg (fun x : BitVec 16 => x[i]) h
    simpa using hbit

/-- What is left of a type word without its code and its flags. -/
theorem unknownFlags_eq (word : UInt16) :
    (word &&& ~~~VarType.codeMask) &&& ~~~(VarType.vectorFlag ||| VarType.constFlag) =
      word &&& ~~~0x300F := by
  rw [UInt16.and_assoc]
  rfl

theorem vectorFlag_eq (word : UInt16) :
    (word &&& ~~~VarType.codeMask) &&& VarType.vectorFlag = word &&& 0x1000 := by
  rw [UInt16.and_assoc]
  rfl

theorem constFlag_eq (word : UInt16) :
    (word &&& ~~~VarType.codeMask) &&& VarType.constFlag = word &&& 0x2000 := by
  rw [UInt16.and_assoc]
  rfl

namespace VarType

theorem ofCode?_eq_some_iff {n : UInt16} {t : VarType} : ofCode? n = some t ↔ n = t.code := by
  constructor
  · intro h
    have hcode := List.find?_some h
    exact (of_decide_eq_true hcode).symm
  · rintro rfl
    exact ofCode?_code t

theorem code_injective : Function.Injective code := by
  intro t u h
  have ht := ofCode?_code t
  rw [h, ofCode?_code] at ht
  exact (Option.some.inj ht).symm

/-- The codes that have a type. -/
theorem exists_ofCode?_iff (n : UInt16) :
    (∃ t, ofCode? n = some t) ↔ n ∈ [1, 2, 4, 5, 6, 7, 8] := by
  constructor
  · rintro ⟨t, h⟩
    rw [ofCode?_eq_some_iff.1 h]
    rcases t with (_ | _ | _ | _) | _ | _ | _ <;> decide
  · intro h
    simp only [List.mem_cons, List.not_mem_nil, or_false] at h
    rcases h with rfl | rfl | rfl | rfl | rfl | rfl | rfl
    · exact ⟨number .int16, rfl⟩
    · exact ⟨number .int32, rfl⟩
    · exact ⟨number .float, rfl⟩
    · exact ⟨number .double, rfl⟩
    · exact ⟨enumeration, rfl⟩
    · exact ⟨string, rfl⟩
    · exact ⟨action, rfl⟩

end VarType

namespace Format

theorem ofCode?_eq_some_iff {n : UInt16} {f : Format} : ofCode? n = some f ↔ n = f.code := by
  constructor
  · intro h
    have hcode := List.find?_some h
    exact (of_decide_eq_true hcode).symm
  · rintro rfl
    exact ofCode?_code f

/-- The codes that have a format. -/
theorem exists_ofCode?_iff (n : UInt16) : (∃ f, ofCode? n = some f) ↔ n ≤ 10 := by
  constructor
  · rintro ⟨f, h⟩
    rw [ofCode?_eq_some_iff.1 h]
    cases f <;> decide
  · intro h
    have hall : ∀ k : Fin 11, (ofCode? (UInt16.ofNat k)).isSome := by decide
    have hlt : n.toNat < 11 := Nat.lt_succ_of_le (UInt16.le_iff_toNat_le.1 h)
    have hn := hall ⟨n.toNat, hlt⟩
    rw [UInt16.ofNat_toNat] at hn
    exact Option.isSome_iff_exists.1 hn

end Format

namespace Storage

/-- The words that have a storage class and nothing else. -/
theorem exists_ofBits?_iff (word : UInt16) :
    (word &&& ~~~mask = 0 ∧ ∃ s, ofBits? word = some s) ↔
      word = 0 ∨ word = 0x2000 ∨ word = 0x4000 := by
  rw [and_not_eq_zero_iff]
  constructor
  · rintro ⟨hword, s, h⟩
    unfold ofBits? at h
    rw [hword] at h
    -- without other bits the word itself is compared
    by_cases h0 : word = 0
    · exact Or.inl h0
    by_cases h1 : word = 0x2000
    · exact Or.inr (Or.inl h1)
    by_cases h2 : word = 0x4000
    · exact Or.inr (Or.inr h2)
    rw [if_neg h0, if_neg h1, if_neg h2] at h
    cases h
  · rintro (rfl | rfl | rfl)
    · exact ⟨rfl, ram, rfl⟩
    · exact ⟨rfl, eeprom, rfl⟩
    · exact ⟨rfl, flash, rfl⟩

end Storage

namespace Rights

theorem ofBits?_eq_some_iff {bits : UInt16} {r : Rights} :
    ofBits? bits = some r ↔ bits &&& ~~~0xE0FF = 0 ∧ r = ⟨bits⟩ := by
  unfold ofBits? known
  by_cases h : bits &&& ~~~0xE0FF = 0
  · simp [h, eq_comm]
  · simp [h]

/-- A word does not both refuse and clip values. -/
theorem refusesOrClips_iff (bits : UInt16) :
    (!(isLimit ⟨bits⟩ && isClip ⟨bits⟩)) = true ↔
      ¬(bits &&& 0x4000 = 0x4000 ∧ bits &&& 0x2000 = 0x2000) := by
  rw [Bool.not_eq_true', ← Bool.not_eq_true, Bool.and_eq_true]
  exact not_congr (and_congr decide_eq_true_iff decide_eq_true_iff)

end Rights

/-! ## Well-formed descriptors -/

/-- The places that a descriptor names are there, for a variable of a type. -/
def RawDescriptor.Fits (t : TableSet) (raw : RawDescriptor) : VarType → Prop
  | .number u =>
    raw.source.toNat < (t.templates.get u).size ∧
      raw.data.toNat + raw.channels.toNat ≤ (t.cells.get u).toNat
  | .enumeration =>
    raw.data.toNat + raw.channels.toNat ≤ t.enumCells.toNat ∧ t.EnumerationAt raw.source.toNat
  | .string =>
    raw.source.toNat < t.blob.size ∧
      -- the default of a string that can be written is whole characters that fit into a cell,
      -- and the first byte of the string is the first byte of a cell
      (raw.type &&& 0x2000 = 0 →
        (∃ cs, t.blob.bytesAt? raw.source.toNat = some (Utf8.encode cs) ∧
          (Utf8.encode cs).length ≤ 31) ∧
        raw.data.toNat % 32 = 0 ∧
        raw.data.toNat / 32 + raw.channels.toNat ≤ t.stringCells.toNat)
  | .action => True

/-- The words of a descriptor at a position of a table set that are fit to be read. -/
structure RawDescriptor.WellFormed (t : TableSet) (index : Nat) (raw : RawDescriptor) : Prop where
  handle : raw.handle.toNat = index
  type : raw.type &&& 0x000F ∈ [1, 2, 4, 5, 6, 7, 8]
  flags : raw.type &&& ~~~0x300F = 0
  channels : 1 ≤ raw.channels
  /-- The bit for vectors is set exactly where there is more than one channel. -/
  vector : raw.type &&& 0x1000 ≠ 0 ↔ 1 < raw.channels
  /-- The bit for constants is set on strings only. -/
  constant : raw.type &&& 0x2000 ≠ 0 → raw.type &&& 0x000F = 7
  rights : raw.rights &&& ~~~0xE0FF = 0
  /-- Values beyond the bounds are not both refused and clipped. -/
  bounds : ¬(raw.rights &&& 0x4000 = 0x4000 ∧ raw.rights &&& 0x2000 = 0x2000)
  storage : raw.storage = 0 ∨ raw.storage = 0x2000 ∨ raw.storage = 0x4000
  format : raw.format ≤ 10
  name : t.NamesText raw.name
  places : ∀ type : VarType, raw.type &&& 0x000F = type.code → raw.Fits t type

namespace TableSet

variable {t : TableSet} {pool : EnumPool} {raw : RawDescriptor}

/-! ## Reading descriptors -/

theorem checkCells_eq_ok {array : DataArray} {first : Nat} {u : Unit} :
    t.checkCells array first raw = .ok u ↔ first + raw.channels.toNat ≤ t.counts.get array := by
  unfold checkCells
  rw [require_eq_ok, decide_eq_true_eq]

/-- What the places of a descriptor are read as, for each type: the checks that they pass, the kind
of the variable and the pool of enumerations afterwards. -/
inductive ReadsKind (t : TableSet) (pool : EnumPool) (raw : RawDescriptor) :
    VarType → Bool → VarKind → EnumPool → Prop where
  | number {u : NumType} {constant : Bool}
      (hsource : raw.source.toNat < (t.templates.get u).size)
      (hcells : raw.data.toNat + raw.channels.toNat ≤ t.counts.numbers.get u) :
      ReadsKind t pool raw (.number u) constant
        (.number u raw.source.toNat raw.data.toNat) pool
  | enumeration {constant : Bool} {position : Nat} {pool' : EnumPool}
      (hcells : raw.data.toNat + raw.channels.toNat ≤ t.counts.enums)
      (hposition : t.poolEnumeration pool raw.source = .ok (position, pool')) :
      ReadsKind t pool raw .enumeration constant (.enumeration position raw.data.toNat) pool'
  | constant {bytes : List UInt8} (htext : t.blob.bytesAt? raw.source.toNat = some bytes) :
      ReadsKind t pool raw .string true (.constant raw.source.toNat) pool
  | string {cs : List Char} (htext : t.blob.bytesAt? raw.source.toNat = some (Utf8.encode cs))
      (hlength : (Utf8.encode cs).length ≤ maxStringBytes) (haligned : raw.data.toNat % 32 = 0)
      (hcells : raw.data.toNat / 32 + raw.channels.toNat ≤ t.counts.strings) :
      ReadsKind t pool raw .string false (.string raw.source.toNat (raw.data.toNat / 32)) pool
  | action {constant : Bool} : ReadsKind t pool raw .action constant .action pool

/-- What it takes to read the places of a descriptor. -/
theorem readKind_eq_ok {type : VarType} {constant : Bool} {kind : VarKind} {pool' : EnumPool} :
    t.readKind pool raw type constant = .ok (kind, pool') ↔
      t.ReadsKind pool raw type constant kind pool' := by
  constructor
  · intro h
    cases type with
    | number u =>
      simp only [readKind, bind_eq_ok, pure_eq_ok, require_eq_ok, checkCells_eq_ok,
        decide_eq_true_eq] at h
      obtain ⟨_, hsource, _, hcells, hpair⟩ := h
      cases hpair
      exact .number hsource hcells
    | enumeration =>
      simp only [readKind, bind_eq_ok, pure_eq_ok, checkCells_eq_ok, Prod.exists] at h
      obtain ⟨_, hcells, position, _, hposition, hpair⟩ := h
      cases hpair
      exact .enumeration hcells hposition
    | string =>
      cases constant with
      | true =>
        simp only [readKind, bind_eq_ok, pure_eq_ok, demand_eq_ok, if_true] at h
        obtain ⟨bytes, htext, hpair⟩ := h
        cases hpair
        exact .constant htext
      | false =>
        simp only [readKind, bind_eq_ok, pure_eq_ok, demand_eq_ok, require_eq_ok,
          checkCells_eq_ok, Bool.false_eq_true, if_false, decide_eq_true_eq,
          Option.isSome_iff_exists, Utf8.decode?_eq_some_iff] at h
        obtain ⟨_, htext, _, hlength, _, ⟨cs, rfl⟩, _, haligned, _, hcells, hpair⟩ := h
        cases hpair
        exact .string htext hlength haligned hcells
    | action =>
      cases h
      exact .action
  · intro h
    cases h with
    | number hsource hcells =>
      simp only [readKind, bind_eq_ok, pure_eq_ok, require_eq_ok, checkCells_eq_ok,
        decide_eq_true_eq]
      exact ⟨(), hsource, (), hcells, trivial⟩
    | enumeration hcells hposition =>
      simp only [readKind, bind_eq_ok, pure_eq_ok, checkCells_eq_ok]
      exact ⟨(), hcells, _, hposition, rfl⟩
    | constant htext =>
      simp only [readKind, bind_eq_ok, pure_eq_ok, demand_eq_ok, if_true]
      exact ⟨_, htext, trivial⟩
    | @string cs htext hlength haligned hcells =>
      simp only [readKind, bind_eq_ok, pure_eq_ok, demand_eq_ok, require_eq_ok, checkCells_eq_ok,
        Bool.false_eq_true, if_false, decide_eq_true_eq, Option.isSome_iff_exists,
        Utf8.decode?_eq_some_iff]
      exact ⟨_, htext, (), hlength, (), ⟨cs, rfl⟩, (), haligned, (), hcells, rfl⟩
    | action => rfl

/-- The words of a descriptor pass every check as those of a type, and a descriptor is what they
say. -/
structure ReadsAs (t : TableSet) (pool : EnumPool) (index : Nat) (raw : RawDescriptor)
    (type : VarType) (var : Descriptor) (pool' : EnumPool) : Prop where
  position : raw.handle.toNat = index
  code : raw.type &&& 0x000F = type.code
  flags : raw.type &&& ~~~0x300F = 0
  items : raw.channels ≠ 0
  several : raw.type &&& 0x1000 ≠ 0 ↔ 1 < raw.channels
  constant : raw.type &&& 0x2000 ≠ 0 → type = .string
  knownRights : raw.rights &&& ~~~0xE0FF = 0
  bounds : ¬(raw.rights &&& 0x4000 = 0x4000 ∧ raw.rights &&& 0x2000 = 0x2000)
  knownStorage : raw.storage &&& ~~~Storage.mask = 0
  handle : var.handle = ⟨raw.handle⟩
  name : t.readText raw.name .nameOutside = .ok var.name
  kind : t.readKind pool raw type (decide (raw.type &&& 0x2000 ≠ 0)) = .ok (var.kind, pool')
  channels : var.channels = raw.channels
  vector : var.vector = decide (1 < raw.channels)
  rights : var.rights = ⟨raw.rights⟩
  storage : Storage.ofBits? raw.storage = some var.storage
  format : Format.ofCode? raw.format = some var.format

/-- What it takes to read a descriptor. -/
theorem readDescriptor_eq_ok {index : Nat} {var : Descriptor} {pool' : EnumPool} :
    t.readDescriptor pool index raw = .ok (var, pool') ↔
      ∃ type, t.ReadsAs pool index raw type var pool' := by
  have hvector : decide (raw.type &&& 0x1000 ≠ 0) = decide (1 < raw.channels) ↔
      (raw.type &&& 0x1000 ≠ 0 ↔ 1 < raw.channels) := decide_eq_decide
  have hconstant : ∀ type : VarType,
      (!decide (raw.type &&& 0x2000 ≠ 0) || decide (type = .string)) = true ↔
        (raw.type &&& 0x2000 ≠ 0 → type = .string) := by
    intro type
    rw [Bool.or_eq_true, Bool.not_eq_true', decide_eq_false_iff_not, decide_eq_true_eq,
      Decidable.imp_iff_not_or]
  unfold readDescriptor
  -- the checks one after another, each as what it says about the words
  simp only [unknownFlags_eq, vectorFlag_eq, constFlag_eq, bind_eq_ok, pure_eq_ok, require_eq_ok,
    demand_eq_ok, VarType.ofCode?_eq_some_iff, Rights.ofBits?_eq_some_iff, decide_eq_true_eq,
    hvector, hconstant, Prod.exists, Prod.mk.injEq]
  constructor
  · rintro ⟨_, hposition, type, hcode, _, hflags, _, hitems, _, hseveral, _, hconst, rights,
      ⟨hrights, rfl⟩, _, hbounds, _, hmask, storage, hstorage, format, hformat, name, hname, kind,
      _, hkind, rfl, rfl⟩
    exact ⟨type, {
      position := hposition, code := hcode, flags := hflags, items := hitems
      several := hseveral, constant := hconst, knownRights := hrights
      bounds := (Rights.refusesOrClips_iff _).1 hbounds, knownStorage := hmask
      handle := rfl, name := hname, kind := hkind, channels := rfl
      vector := hvector.2 hseveral, rights := rfl, storage := hstorage, format := hformat }⟩
  · rintro ⟨type, h⟩
    refine ⟨(), h.position, type, h.code, (), h.flags, (), h.items, (), h.several, (), h.constant,
      _, ⟨h.knownRights, rfl⟩, (), (Rights.refusesOrClips_iff _).2 h.bounds, (), h.knownStorage,
      var.storage, h.storage, var.format, h.format, var.name, h.name, var.kind, pool', h.kind,
      ?_, rfl⟩
    rw [hvector.2 h.several, ← h.vector, ← h.rights, ← h.channels, ← h.handle]

/-- The kind of a variable is read if its places are there. -/
theorem exists_readKind_iff (hb : t.blob.Built) (hpool : t.PoolRead pool) (type : VarType) :
    (∃ p, t.readKind pool raw type (decide (raw.type &&& 0x2000 ≠ 0)) = .ok p) ↔
      raw.Fits t type := by
  have hnumbers : ∀ u, t.counts.numbers.get u = (t.cells.get u).toNat := PerType.get_ofFn _
  have htext : (∃ bytes, t.blob.bytesAt? raw.source.toNat = some bytes) ↔
      raw.source.toNat < t.blob.size := by
    rw [← hb.isSome_bytesAt?_iff, Option.isSome_iff_exists]
  simp only [Prod.exists, readKind_eq_ok]
  constructor
  · rintro ⟨kind, pool', h⟩
    generalize hflag : decide (raw.type &&& 0x2000 ≠ 0) = constant at h
    cases h with
    | number hsource hcells => exact ⟨hsource, hnumbers _ ▸ hcells⟩
    | enumeration hcells hposition =>
      exact ⟨hcells, (exists_poolEnumeration_iff hb hpool _).1 ⟨_, hposition⟩⟩
    | constant hbytes =>
      exact ⟨htext.1 ⟨_, hbytes⟩, fun h => absurd h (of_decide_eq_true hflag)⟩
    | string hbytes hlength haligned hcells =>
      exact ⟨htext.1 ⟨_, hbytes⟩, fun _ => ⟨⟨_, hbytes, hlength⟩, haligned, hcells⟩⟩
    | action => trivial
  · intro h
    cases type with
    | number u => exact ⟨_, _, .number h.1 ((hnumbers u).symm ▸ h.2)⟩
    | enumeration =>
      obtain ⟨⟨position, pool'⟩, hposition⟩ := (exists_poolEnumeration_iff hb hpool _).2 h.2
      exact ⟨_, pool', .enumeration h.1 hposition⟩
    | string =>
      obtain ⟨hsource, hstring⟩ := h
      -- only a string that can be written has a default and cells to check
      by_cases hflag : raw.type &&& 0x2000 = 0
      · obtain ⟨⟨cs, hbytes, hlength⟩, haligned, hcells⟩ := hstring hflag
        rw [decide_eq_false (not_not_intro hflag)]
        exact ⟨_, _, .string hbytes hlength haligned hcells⟩
      · obtain ⟨bytes, hbytes⟩ := htext.2 hsource
        rw [decide_eq_true hflag]
        exact ⟨_, _, .constant hbytes⟩
    | action => exact ⟨_, _, .action⟩

/-- **A descriptor is read exactly if its words are well-formed.** -/
theorem exists_readDescriptor_iff (hb : t.blob.Built) (hpool : t.PoolRead pool) (index : Nat) :
    (∃ p, t.readDescriptor pool index raw = .ok p) ↔ raw.WellFormed t index := by
  have hchannels : raw.channels ≠ 0 ↔ 1 ≤ raw.channels := by
    rw [UInt16.le_iff_toNat_le, Ne, ← UInt16.toNat_inj]
    show ¬raw.channels.toNat = 0 ↔ 1 ≤ raw.channels.toNat
    omega
  constructor
  · rintro ⟨⟨var, pool'⟩, hread⟩
    obtain ⟨type, h⟩ := readDescriptor_eq_ok.1 hread
    exact {
      handle := h.position
      type := (VarType.exists_ofCode?_iff _).1 ⟨type, VarType.ofCode?_eq_some_iff.2 h.code⟩
      flags := h.flags
      channels := hchannels.1 h.items
      vector := h.several
      constant := by
        intro hflag
        rw [h.code, h.constant hflag]
        rfl
      rights := h.knownRights
      bounds := h.bounds
      storage := (Storage.exists_ofBits?_iff _).1 ⟨h.knownStorage, var.storage, h.storage⟩
      format := (Format.exists_ofCode?_iff _).1 ⟨var.format, h.format⟩
      name := (exists_readText_iff hb _ _).1 ⟨var.name, h.name⟩
      places := by
        intro type' hcode
        obtain rfl : type = type' := VarType.code_injective (h.code.symm.trans hcode)
        exact (exists_readKind_iff hb hpool type).1 ⟨_, h.kind⟩ }
  · intro h
    obtain ⟨type, htype⟩ := (VarType.exists_ofCode?_iff _).2 h.type
    rw [VarType.ofCode?_eq_some_iff] at htype
    obtain ⟨hmask, storage, hstorage⟩ := (Storage.exists_ofBits?_iff _).2 h.storage
    obtain ⟨format, hformat⟩ := (Format.exists_ofCode?_iff _).2 h.format
    obtain ⟨name, hname⟩ := (exists_readText_iff hb _ .nameOutside).2 h.name
    obtain ⟨⟨kind, pool'⟩, hkind⟩ := (exists_readKind_iff hb hpool type).2 (h.places type htype)
    have hconst : raw.type &&& 0x2000 ≠ 0 → type = .string := fun hflag =>
      VarType.code_injective (htype.symm.trans (h.constant hflag))
    -- the words say which descriptor is read
    let var : Descriptor :=
      { handle := ⟨raw.handle⟩, name, kind, channels := raw.channels
        vector := decide (1 < raw.channels), rights := ⟨raw.rights⟩, storage, format }
    exact ⟨(var, pool'), readDescriptor_eq_ok.2 ⟨type, {
      position := h.handle, code := htype, flags := h.flags, items := hchannels.2 h.channels
      several := h.vector, constant := hconst, knownRights := h.rights, bounds := h.bounds
      knownStorage := hmask, handle := rfl, name := hname, kind := hkind, channels := rfl
      vector := rfl, rights := rfl, storage := hstorage, format := hformat }⟩⟩

end TableSet

end VariableRegistry
