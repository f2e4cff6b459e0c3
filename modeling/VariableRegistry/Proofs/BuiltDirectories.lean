/-
# Directories of built tables

What a builder wrote for a declaration is read back as the declaration: each variable of the
directory is what was declared at its position, with its cells behind those of the variables that
were declared before.
-/
import VariableRegistry.Proofs.BuilderLayout
import VariableRegistry.Proofs.DirectoryReading
import VariableRegistry.Proofs.Resetting

namespace VariableRegistry

namespace Directory

/-- A kind of variable holds what was declared, and its cells begin behind those that come before
it in their array. -/
def Holds (dir : Directory) (before : DataArray → Nat) : DeclaredKind → VarKind → Prop
  | .number u x, kind => ∃ template, kind = .number u template (before (.number u)) ∧
      (dir.templates.get u)[template]? = some x
  | .enumeration default members, kind => ∃ position,
      kind = .enumeration position (before .enums) ∧ default.toNat < members.length ∧
        dir.enums[position]? = some ⟨default.toNat, members.map Member.unnamed⟩
  | .string text, kind => ∃ offset, kind = .string offset (before .strings) ∧
      DataStore.defaultText dir offset = .ok (Registry.beforeZero text)
  | .constant text, kind => ∃ offset, kind = .constant offset ∧
      dir.blob.textAt? offset = some (Registry.beforeZero text)
  | .action, kind => kind = .action

/-- A variable is what was declared, the variables before it taking the cells before its own. -/
structure Describes (dir : Directory) (before : List Declaration) (v : Descriptor)
    (d : Declaration) : Prop where
  handle : v.handle.index = before.length
  name : v.name = d.name.map Registry.beforeZero
  channels : v.channels = d.items
  vector : v.vector = decide (1 < d.items)
  rights : v.rights = d.rights
  storage : v.storage = d.storage
  format : v.format = d.format
  kind : dir.Holds (cellsOf before) d.kind v.kind

end Directory

namespace TableSet

variable {t : TableSet} {dir : Directory} {ds before : List Declaration} {d : Declaration}
  {raw : RawDescriptor} {v : Descriptor} {i : Nat}

/-! ## Reading what was written -/

theorem blob_of_directory (h : t.directory = .ok dir) :
    dir.blob = t.blob ∧ dir.templates = t.templates ∧ dir.counts = t.counts := by
  obtain ⟨-, -, vars, pool, -, rfl⟩ := directory_eq_ok.1 h
  exact ⟨rfl, rfl, rfl⟩

/-- The kind that the words of a declaration mean holds what was declared. -/
theorem holds_of_means (hdir : t.directory = .ok dir) (hraw : t.Declares before raw d)
    {kind : VarKind} (hmeans : raw.Means t dir.enums d.kind.varType kind)
    (hplaces : dir.HasPlaces d.items.toNat kind) : dir.Holds (cellsOf before) d.kind kind := by
  obtain ⟨hblob, htemplates, -⟩ := blob_of_directory hdir
  obtain ⟨-, -, -, hconstant⟩ := hraw.typeWord_bits
  have hwritten := hraw.places
  cases hk : d.kind with
  | number u x =>
    rw [hk] at hwritten hmeans
    obtain ⟨hx, hdata⟩ := hwritten
    refine ⟨raw.source.toNat, ?_, by rw [htemplates]; exact hx⟩
    rw [← hdata]
    exact hmeans
  | enumeration default members =>
    rw [hk] at hwritten hmeans
    obtain ⟨hspells, hdata⟩ := hwritten
    obtain ⟨position, e, hkind, he, hread⟩ := hmeans
    obtain ⟨hlt, -, rfl⟩ := hspells.readEnumeration_eq_ok_iff.1 hread
    exact ⟨position, by rw [← hdata]; exact hkind, hlt, he⟩
  | string text =>
    rw [hk] at hwritten hmeans hconstant
    obtain ⟨htext, hdata⟩ := hwritten
    have hflag : raw.type &&& 0x2000 = 0 :=
      Decidable.by_contra fun hflag => Bool.false_ne_true (hconstant.1 hflag)
    have hkind : kind = .string raw.source.toNat (raw.data.toNat / 32) := by
      have hread : kind = if raw.type &&& 0x2000 = 0 then _ else _ := hmeans
      rwa [if_pos hflag] at hread
    rw [hkind] at hplaces
    obtain ⟨⟨stored, hstored⟩, -⟩ := hplaces
    refine ⟨raw.source.toNat, ?_, ?_⟩
    · rw [hkind, hdata, Nat.mul_div_cancel_left _ (by decide)]
    · -- the text is there, so it was short enough
      have hbytes := htext.2
      rw [← hblob] at hbytes
      obtain ⟨hbytes', hsize⟩ := DataStore.defaultText_eq_ok.1 hstored
      rw [hbytes, Option.some.injEq] at hbytes'
      have hsame : Utf8.size (Registry.beforeZero text).toList = Utf8.size stored.toList :=
        congrArg List.length hbytes'
      exact DataStore.defaultText_eq_ok.2 ⟨hbytes, hsame ▸ hsize⟩
  | constant text =>
    rw [hk] at hwritten hmeans hconstant
    have hflag : raw.type &&& 0x2000 ≠ 0 := hconstant.2 rfl
    have hread : kind = if raw.type &&& 0x2000 = 0 then _ else _ := hmeans
    rw [if_neg hflag] at hread
    exact ⟨raw.source.toNat, hread, by rw [hblob]; exact TextAt.textAt? hwritten⟩
  | action =>
    rw [hk] at hmeans
    exact hmeans

/-- **Each variable of the directory of tables that lay out declarations is what was declared.** -/
theorem LaysOut.describes (hlays : t.LaysOut ds) (hdir : t.directory = .ok dir)
    (hd : ds[i]? = some d) :
    ∃ v, dir.vars[i]? = some v ∧ dir.Describes (ds.take i) v d := by
  obtain ⟨raw, hraw, hdeclares⟩ := hlays.declares i d hd
  obtain ⟨v, hv, type, pool, pool', hread, hmeans⟩ := (readFrom_of_directory hdir).2 i raw hraw
  have htype : type = d.kind.varType :=
    VarType.code_injective (hread.code.symm.trans hdeclares.typeWord_bits.1)
  have hchannels : v.channels = d.items := hread.channels.trans hdeclares.channels
  have hplaces := (sound_of_directory hdir i v hv).places
  rw [hchannels] at hplaces
  subst htype
  have hname := hread.name
  rw [hdeclares.name.readText .nameOutside] at hname
  have hstorage := hread.storage
  rw [hdeclares.storage, Storage.ofBits?_bits] at hstorage
  have hformat := hread.format
  rw [hdeclares.format, Format.ofCode?_code] at hformat
  exact ⟨v, hv, {
    handle := by
      rw [hread.handle]
      exact hdeclares.handle
    name := (Except.ok.inj hname).symm
    channels := hchannels
    vector := by rw [hread.vector, hdeclares.channels]
    rights := by rw [hread.rights, hdeclares.rights]
    storage := (Option.some.inj hstorage).symm
    format := (Option.some.inj hformat).symm
    kind := holds_of_means hdir hdeclares hmeans hplaces }⟩

theorem LaysOut.size_vars (hlays : t.LaysOut ds) (hdir : t.directory = .ok dir) :
    dir.vars.size = ds.length :=
  (readFrom_of_directory hdir).1.trans hlays.size

/-- Every variable of the directory was declared. -/
theorem LaysOut.declared (hlays : t.LaysOut ds) (hdir : t.directory = .ok dir)
    (hv : dir.vars[i]? = some v) :
    ∃ d, ds[i]? = some d ∧ dir.Describes (ds.take i) v d := by
  obtain ⟨hi, -⟩ := Array.getElem?_eq_some_iff.1 hv
  rw [hlays.size_vars hdir] at hi
  obtain ⟨v', hv', hdescribes⟩ := hlays.describes hdir (List.getElem?_eq_getElem hi)
  cases hv.symm.trans hv'
  exact ⟨_, List.getElem?_eq_getElem hi, hdescribes⟩

end TableSet

namespace Directory

variable {dir : Directory} {ds before : List Declaration} {d : Declaration} {v : Descriptor}
  {i : Nat} {a : DataArray} {cell : Nat}

/-! ## Kinds and cells -/

/-- What holds a declared kind has its type, and its cells behind those that come before. -/
theorem Holds.shape {before : DataArray → Nat} {declared : DeclaredKind} {kind : VarKind}
    (h : dir.Holds before declared kind) :
    kind.varType = declared.varType ∧
      kind.cells? = declared.array?.map fun a => (a, before a) := by
  cases declared with
  | number u x =>
    obtain ⟨template, rfl, -⟩ := h
    exact ⟨rfl, rfl⟩
  | enumeration default members =>
    obtain ⟨position, rfl, -⟩ := h
    exact ⟨rfl, rfl⟩
  | string text =>
    obtain ⟨offset, rfl, -⟩ := h
    exact ⟨rfl, rfl⟩
  | constant text =>
    obtain ⟨offset, rfl, -⟩ := h
    exact ⟨rfl, rfl⟩
  | action =>
    obtain rfl : kind = .action := h
    exact ⟨rfl, rfl⟩

/-- The cells that a variable owns are those that its declaration takes. -/
theorem Describes.owns_iff (h : dir.Describes (ds.take i) v d) (hd : ds[i]? = some d) :
    v.Owns a cell ↔ TakesCell ds i a cell := by
  unfold Descriptor.Owns TakesCell
  rw [h.kind.shape.2, h.channels]
  constructor
  · rintro ⟨data, hdata, hle, hlt⟩
    obtain ⟨a', ha, heq⟩ := Option.map_eq_some_iff.1 hdata
    cases heq
    exact ⟨d, hd, ha, hle, hlt⟩
  · rintro ⟨d', hd', ha, hle, hlt⟩
    cases hd.symm.trans hd'
    exact ⟨cellsOf (ds.take i) a, by rw [ha]; rfl, hle, hlt⟩

end Directory

end VariableRegistry
