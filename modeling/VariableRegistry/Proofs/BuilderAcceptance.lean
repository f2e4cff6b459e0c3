/-
# Which built tables are accepted

Tables that were built from admissible declarations are accepted unless there are too many of two
things: variables, of which a builder takes one more than a registry, and members of an
enumeration, which are counted by an unsigned word when they are written and by a signed one when
they are read.
-/
import VariableRegistry.Proofs.Acceptance
import VariableRegistry.Proofs.BuilderLayout
import VariableRegistry.Proofs.Soundness

namespace VariableRegistry

/-! ## Rights of declarations -/

/-- A bit of a word is set if masking it out leaves it. -/
theorem and_twoPow_eq_iff (word : UInt16) {i : Nat} (hi : i < 16) :
    word &&& ⟨BitVec.twoPow 16 i⟩ = ⟨BitVec.twoPow 16 i⟩ ↔ word.toBitVec.getLsbD i = true := by
  rw [← UInt16.toBitVec_inj, UInt16.toBitVec_and, BitVec.and_twoPow]
  have hne : (0#16 : BitVec 16) ≠ BitVec.twoPow 16 i := by
    intro h
    have hbit := congrArg (BitVec.getLsbD · i) h
    simp [hi] at hbit
  cases word.toBitVec.getLsbD i <;> simp [hne]

namespace Rights

theorem isLimit_iff (r : Rights) : r.isLimit = true ↔ r.bits.toBitVec.getLsbD 14 = true := by
  rw [← and_twoPow_eq_iff r.bits (by decide : 14 < 16)]
  exact decide_eq_true_iff

theorem isClip_iff (r : Rights) : r.isClip = true ↔ r.bits.toBitVec.getLsbD 13 = true := by
  rw [← and_twoPow_eq_iff r.bits (by decide : 13 < 16)]
  exact decide_eq_true_iff

/-- Values beyond the bounds are not both refused and clipped. -/
def Decided (r : Rights) : Prop := ¬(r.isLimit = true ∧ r.isClip = true)

end Rights

namespace Declaration

/-- No modifier lets values beyond the bounds be both refused and clipped. -/
theorem Modifier.decided {r : Rights} (h : r.Decided) (m : Modifier) : (m.rights r).Decided := by
  unfold Rights.Decided at h ⊢
  rw [Rights.isLimit_iff, Rights.isClip_iff] at h ⊢
  cases m <;> simp_all [Modifier.rights, Rights.union, Rights.diff, Rights.inter, Rights.limit,
    Rights.clip]

theorem rights_modify (d : Declaration) (m : Modifier) :
    (d.modify m).rights = m.rights d.rights := by
  cases m <;> rfl

/-- A declaration that was made with a name and a kind, and modified. -/
def Constructed (d : Declaration) : Prop :=
  ∃ name kind ms, d = (Declaration.new name kind).modifyAll ms

theorem Constructed.decided {d : Declaration} (h : d.Constructed) : d.rights.Decided := by
  obtain ⟨name, kind, ms, rfl⟩ := h
  have hall : ∀ d : Declaration, d.rights.Decided → (d.modifyAll ms).rights.Decided := by
    induction ms with
    | nil => exact fun d hd => hd
    | cons m ms ih =>
      intro d hd
      refine ih (d.modify m) ?_
      rw [rights_modify]
      exact Modifier.decided hd m
  exact hall _ (by decide : ¬(Rights.program.isLimit = true ∧ Rights.program.isClip = true))

/-- A declaration whose number has its minimum not above its maximum, whose enumeration has its
default among its members, whose text fits into a cell, and whose rights all have a meaning. -/
structure Admissible (d : Declaration) : Prop where
  bounds : ∀ u x, d.kind = .number u x → u.lt x.max x.min = false
  default : ∀ default members, d.kind = .enumeration default members →
    default.toNat < members.length
  text : ∀ text, d.kind = .string text → Utf8.size (Registry.beforeZero text).toList ≤ 31
  rights : d.rights.bits &&& ~~~0xE0FF = 0

end Declaration

/-- The members of a declared enumeration. -/
def DeclaredKind.members : DeclaredKind → List (Int16 × String)
  | .enumeration _ members => members
  | _ => []

/-! ## Descriptors of declarations -/

namespace TableSet

variable {t : TableSet} {ds : List Declaration} {i : Nat} {raw : RawDescriptor} {d : Declaration}

/-- The places of a declared variable are there, if its declaration is admissible and has no more
members than a signed word can count. -/
theorem LaysOut.fits (hlays : t.LaysOut ds) (hd : ds[i]? = some d)
    (hraw : t.Declares (ds.take i) raw d) (hadm : d.Admissible)
    (hmembers : d.kind.members.length ≤ 32767) : raw.Fits t d.kind.varType := by
  have hplaces := hraw.places
  have hitems := hraw.channels
  have hconstant := hraw.typeWord_bits.2.2.2
  cases hk : d.kind with
  | number u x =>
    rw [hk] at hplaces
    obtain ⟨hx, hdata⟩ := hplaces
    obtain ⟨hlt, -⟩ := Array.getElem?_eq_some_iff.1 hx
    have hcells := hlays.cells_le hd (a := .number u) (by rw [hk]; rfl)
    have hcount : t.counts.get (.number u) = (t.cells.get u).toNat := PerType.get_ofFn _ u
    refine ⟨hlt, ?_⟩
    rw [hdata, hitems, ← hcount]
    exact hcells
  | enumeration default members =>
    rw [hk] at hplaces hmembers
    obtain ⟨hspells, hdata⟩ := hplaces
    have hcells := hlays.cells_le hd (a := .enums) (by rw [hk]; rfl)
    refine ⟨?_, ?_⟩
    · rw [hdata, hitems]
      exact hcells
    · rw [← exists_readEnumeration_iff hlays.blob]
      have hdefault := hadm.default default members hk
      exact ⟨_, hspells.readEnumeration_eq_ok_iff.2 ⟨hdefault, hmembers, rfl⟩⟩
  | string text =>
    rw [hk] at hplaces
    obtain ⟨htext, hdata⟩ := hplaces
    have hcells := hlays.cells_le hd (a := .strings) (by rw [hk]; rfl)
    refine ⟨htext.lt_size hlays.blob, fun _ => ⟨⟨_, htext.2, hadm.text text hk⟩, ?_, ?_⟩⟩
    · rw [hdata]
      exact Nat.mul_mod_right 32 _
    · rw [hdata, Nat.mul_div_cancel_left _ (by decide), hitems]
      exact hcells
  | constant text =>
    rw [hk] at hplaces hconstant
    refine ⟨TextAt.lt_size hplaces hlays.blob, fun hflag => ?_⟩
    exact absurd hflag (hconstant.2 rfl)
  | action => trivial

/-- The descriptor of a declared variable is well-formed. -/
theorem LaysOut.wellFormed (hlays : t.LaysOut ds) (hd : ds[i]? = some d)
    (hraw : t.Declares (ds.take i) raw d) (hadm : d.Admissible) (hrights : d.rights.Decided)
    (hmembers : d.kind.members.length ≤ 32767) : raw.WellFormed t i := by
  obtain ⟨hcode, hflags, hvector, hconstant⟩ := hraw.typeWord_bits
  obtain ⟨hi, -⟩ := List.getElem?_eq_some_iff.1 hd
  exact {
    handle := by
      rw [hraw.handle, List.length_take]
      omega
    type := (VarType.exists_ofCode?_iff _).1 ⟨_, VarType.ofCode?_eq_some_iff.2 hcode⟩
    flags := hflags
    channels := by
      rw [hraw.channels, UInt16.le_iff_toNat_le, d.toNat_items]
      exact Nat.le_max_left 1 _
    vector := hvector
    constant := by
      intro hflag
      rw [hcode]
      have hconst := hconstant.1 hflag
      cases hk : d.kind <;> rw [hk] at hconst <;> first | rfl | cases hconst
    rights := by
      rw [hraw.rights]
      exact hadm.rights
    bounds := by
      rw [hraw.rights]
      intro hboth
      exact hrights ⟨decide_eq_true hboth.1, decide_eq_true hboth.2⟩
    storage := by
      rw [hraw.storage]
      cases d.storage <;> decide
    format := by
      rw [hraw.format]
      cases d.format <;> decide
    name := hraw.name.namesText hlays.blob
    places := by
      intro type htype
      obtain rfl := VarType.code_injective (hcode.symm.trans htype)
      exact hlays.fits hd hraw hadm hmembers }

/-- The descriptors of declarations are read exactly if no enumeration has more members than a
signed word can count. -/
theorem LaysOut.exists_readDescriptors_iff (hlays : t.LaysOut ds)
    (hds : ∀ d ∈ ds, d.Constructed ∧ d.Admissible) :
    (∃ p, t.readDescriptors t.vars.toList #[] ⟨#[], #[]⟩ = .ok p) ↔
      ∀ d ∈ ds, d.kind.members.length ≤ 32767 := by
  rw [TableSet.exists_readDescriptors_iff hlays.blob poolRead_empty]
  have hzero : ∀ k, (#[] : Array Descriptor).size + k = k := Nat.zero_add
  simp only [hzero, Array.getElem?_toList]
  constructor
  · intro hwell d hd
    obtain ⟨i, hi⟩ := List.mem_iff_getElem?.1 hd
    obtain ⟨raw, hraw, hdeclares⟩ := hlays.declares i d hi
    have hplaces := hdeclares.places
    have hfits := (hwell i raw hraw).places d.kind.varType hdeclares.typeWord_bits.1
    cases hk : d.kind with
    | enumeration default members =>
      rw [hk] at hplaces hfits
      obtain ⟨e, he⟩ := (exists_readEnumeration_iff hlays.blob _).2 hfits.2
      exact (hplaces.1.readEnumeration_eq_ok_iff.1 he).2.1
    | _ => exact Nat.zero_le 32767
  · intro hmembers k raw hraw
    obtain ⟨hk, -⟩ := Array.getElem?_eq_some_iff.1 hraw
    rw [hlays.size] at hk
    obtain ⟨raw', hraw', hdeclares⟩ := hlays.declares k _ (List.getElem?_eq_getElem hk)
    cases hraw.symm.trans hraw'
    have hmem : ds[k] ∈ ds := List.getElem_mem hk
    obtain ⟨hconstructed, hadm⟩ := hds _ hmem
    exact hlays.wellFormed (List.getElem?_eq_getElem hk) hdeclares hadm hconstructed.decided
      (hmembers _ hmem)

end TableSet

/-! ## Built tables -/

namespace Registry

variable {t : TableSet}

/-- A registry begins with every table set that has a directory. -/
theorem exists_init_iff : (∃ r, Registry.init t = .ok r) ↔ ∃ d, t.directory = .ok d := by
  constructor
  · rintro ⟨r, hr⟩
    exact ⟨r.directory, (belongs_of_init hr).directory⟩
  · rintro ⟨d, hd⟩
    obtain ⟨s, hs, -⟩ :=
      DataStore.reset_eq_ok (TableSet.sound_of_directory hd) (DataStore.sized_ofCounts d.counts)
    exact ⟨_, by rw [Registry.init, hd, ok_bind, hs]; rfl⟩

/-- Tables that lay out admissible declarations are accepted if there are not too many variables
and not too many members. -/
theorem exists_init_iff_of_laysOut {ds : List Declaration} (hlays : t.LaysOut ds)
    (hds : ∀ d ∈ ds, d.Constructed ∧ d.Admissible) :
    (∃ r, Registry.init t = .ok r) ↔
      ds.length < 65535 ∧ ∀ d ∈ ds, d.kind.members.length ≤ 32767 := by
  have htemplates : ∀ u, t.checkTemplates u = .ok () := by
    intro u
    rw [TableSet.checkTemplates_eq_ok]
    intro x hx
    obtain ⟨d, hd, hkind⟩ := hlays.templates u x hx
    exact (hds d hd).2.bounds u x hkind
  rw [exists_init_iff, ← hlays.exists_readDescriptors_iff hds, ← hlays.size]
  simp only [TableSet.directory_eq_ok]
  constructor
  · rintro ⟨d, hsize, -, vars, pool, hread, -⟩
    exact ⟨hsize, _, hread⟩
  · rintro ⟨hsize, ⟨vars, pool⟩, hread⟩
    exact ⟨_, hsize, htemplates, vars, pool, hread, rfl⟩

/-- **Which built tables a registry begins with.** Tables that were built from admissible
declarations are accepted if and only if there are fewer variables than the word for none, and no
enumeration has more members than a signed word can count. -/
theorem init_of_built_iff (policy : AccessPolicy) (ds : List Declaration) (t : TableSet)
    (hds : ∀ d ∈ ds, d.Constructed ∧ d.Admissible)
    (hbuild : ((Builder.new policy).addAll ds).2.build = .ok t) :
    (∃ r, Registry.init t = .ok r) ↔
      ds.length < 65535 ∧ ∀ d ∈ ds, d.kind.members.length ≤ 32767 := by
  obtain ⟨hfits, rfl⟩ := Builder.build_eq_ok.1 hbuild
  exact exists_init_iff_of_laysOut (Builder.laysOut_addAll policy ds hfits).2 hds

end Registry

/-- Two channels of a limited number, an enumeration, a text, a constant and a hidden action. -/
def fiveDeclarations : List Declaration := [
  (Declaration.new "N" (.number .int16 ⟨0, -5, 5⟩)).modifyAll [.vector 2, .limit],
  (Declaration.new "E" (.enumeration 1 [(0, "off"), (7, "on")])).modifyAll [.storage .flash],
  (Declaration.new "S" (.string "text")).modifyAll [.access ⟨0x80FF⟩],
  (Declaration.new "C" (.constant "constant")).modifyAll [],
  (Declaration.new "A" .action).modifyAll [.hidden]]

theorem fiveDeclarations_admissible : ∀ d ∈ fiveDeclarations, d.Constructed ∧ d.Admissible := by
  simp only [fiveDeclarations, List.forall_mem_cons, List.not_mem_nil, false_implies, implies_true,
    and_true]
  refine ⟨⟨⟨_, _, _, rfl⟩, ?_⟩, ⟨⟨_, _, _, rfl⟩, ?_⟩, ⟨⟨_, _, _, rfl⟩, ?_⟩, ⟨⟨_, _, _, rfl⟩, ?_⟩,
    ⟨_, _, _, rfl⟩, ?_⟩
  all_goals
    refine ⟨?_, ?_, ?_, by decide⟩
    · rintro u x ⟨⟩ <;> decide
    · rintro default members ⟨⟩ <;> decide
    · rintro text ⟨⟩ <;> decide

namespace Registry

theorem init_of_fiveDeclarations : ∃ t,
    ((Builder.new .subset).addAll fiveDeclarations).2.build = .ok t ∧
      ((∃ r, Registry.init t = .ok r) ↔
        fiveDeclarations.length < 65535 ∧ ∀ d ∈ fiveDeclarations, d.kind.members.length ≤ 32767) ∧
      ∃ r, Registry.init t = .ok r := by
  have hbuilt : ((Builder.new .subset).addAll fiveDeclarations).2.build.toBool = true := by
    decide +kernel
  obtain ⟨t, ht⟩ := toBool_eq_true.1 hbuilt
  have hiff := init_of_built_iff .subset fiveDeclarations t fiveDeclarations_admissible ht
  exact ⟨t, ht, hiff, hiff.2 (by decide)⟩

end Registry

/-! ## Built tables that are refused -/

namespace Builder

variable {b : Builder}

/-- A hidden variable is added if there is a handle left and its places fit. -/
theorem add_hidden_fits {d : Declaration} (hname : d.name = none)
    (hsize : b.tables.vars.size < 0xFFFF) (hplace : (b.place d.kind d.items).2.overflow = none) :
    (b.add d).2.overflow = none := by
  have hnarrow : b.narrow b.tables.vars.size .handle = (UInt16.ofNat b.tables.vars.size, b) :=
    if_pos hsize
  have hnamed : b.placeName d.name = (Handle.none.word, b) := by
    rw [hname]
    rfl
  rcases hplaced : b.place d.kind d.items with ⟨places, b'⟩
  rw [hplaced] at hplace
  rw [add_eq hnarrow hnamed hplaced]
  exact hplace

/-- As many actions as there are handles fit, and all of them are the same. -/
theorem replicate_action_fits (policy : AccessPolicy) {d : Declaration} (hname : d.name = none)
    (hkind : d.kind = .action) {n : Nat} (hn : n ≤ 0xFFFF) :
    ((new policy).addAll (List.replicate n d)).2.overflow = none := by
  induction n with
  | zero => rfl
  | succ n ih =>
    have hfits := ih (Nat.le_of_succ_le hn)
    have hsize := (laysOut_addAll policy _ hfits).2.size
    rw [List.length_replicate] at hsize
    rw [List.replicate_succ', addAll_concat]
    refine add_hidden_fits hname (by omega) ?_
    rw [hkind]
    exact hfits

/-- Members without symbols fit as long as there are offsets for them. -/
theorem replicate_member_fits {n : Nat} {v : Int16} (hb : b.overflow = none)
    (hn : b.tables.blob.size + n ≤ 0xFFFF) :
    ((List.replicate n (v, "")).foldl pushMember b).overflow = none := by
  induction n generalizing b with
  | zero => exact hb
  | succ n ih =>
    have hsize : (b.withText "").tables.blob.size = b.tables.blob.size + 1 :=
      Blob.size_push b.tables.blob ""
    have hnarrow : b.pushText "" .symbol = (UInt16.ofNat b.tables.blob.size, b.withText "") :=
      if_pos (by omega)
    have hpush : b.pushMember (v, "") = (b.withText "").pushEnumWords
        [-1, v, (UInt16.ofNat b.tables.blob.size).toInt16] := by
      rw [pushMember, hnarrow]
    rw [List.replicate_succ, List.foldl_cons, hpush]
    refine ih hb ?_
    show (b.withText "").tables.blob.size + n ≤ 0xFFFF
    omega

/-- An enumeration whose members have no symbols is placed among no other variables. -/
theorem place_members_fits (policy : AccessPolicy) {n : Nat} (hn : n ≤ 0xFFFF) :
    ((new policy).place (.enumeration 0 (List.replicate n (0, ""))) 1).2.overflow = none := by
  let b := (List.replicate n ((0 : Int16), "")).foldl pushMember
    ((new policy).pushEnumWords [(0 : UInt16).toInt16,
      (UInt16.ofNat (List.replicate n ((0 : Int16), "")).length).toInt16])
  have hb : b.overflow = none := by
    refine replicate_member_fits rfl ?_
    show 0 + n ≤ 0xFFFF
    omega
  obtain ⟨-, -, words, heq, -⟩ := foldl_pushMember_of_fits hb
  have hcells : b.cellCount .enums = 0 := congrArg (fun b => b.cellCount .enums) heq
  have hgrow : b.grow .enums 1 =
      (b.cellCount .enums, b.setCellCount .enums (b.cellCount .enums + 1)) := by
    refine if_pos ?_
    rw [hcells]
    decide
  show ((b.grow .enums 1).2.narrow 0 .enumWord).2.overflow = none
  rw [hgrow]
  exact hb

/-- A nameless variable is built alone if its places fit. -/
theorem addAll_hidden_fits (policy : AccessPolicy) {d : Declaration} (hname : d.name = none)
    (hplace : ((new policy).place d.kind d.items).2.overflow = none) :
    ((new policy).addAll [d]).2.overflow = none :=
  add_hidden_fits (b := new policy) hname (Nat.zero_lt_succ _) hplace

end Builder

/-- An action without a name. -/
def hiddenAction : Declaration := (Declaration.new "" .action).modifyAll [.hidden]

/-- A nameless enumeration of members without symbols. -/
def hiddenMembers (n : Nat) : Declaration :=
  (Declaration.new "" (.enumeration 0 (List.replicate n (0, "")))).modifyAll [.hidden]

theorem hiddenAction_admissible : hiddenAction.Constructed ∧ hiddenAction.Admissible :=
  ⟨⟨_, _, _, rfl⟩, by rintro u x ⟨⟩, by rintro default members ⟨⟩, by rintro text ⟨⟩, by decide⟩

theorem hiddenMembers_admissible {n : Nat} (hn : 0 < n) :
    (hiddenMembers n).Constructed ∧ (hiddenMembers n).Admissible := by
  refine ⟨⟨_, _, _, rfl⟩, by rintro u x ⟨⟩, ?_, by rintro text ⟨⟩,
    (by decide : Rights.program.bits &&& ~~~0xE0FF = 0)⟩
  rintro default members ⟨⟩
  rwa [List.length_replicate]

theorem hiddenMembers_fits (policy : AccessPolicy) {n : Nat} (hn : n ≤ 0xFFFF) :
    ((Builder.new policy).addAll [hiddenMembers n]).2.overflow = none :=
  Builder.addAll_hidden_fits policy rfl (Builder.place_members_fits policy hn)

namespace Registry

/-- Built tables that are too large are refused. -/
theorem refused_of_fits {policy : AccessPolicy} {ds : List Declaration}
    (hds : ∀ d ∈ ds, d.Constructed ∧ d.Admissible)
    (hfits : ((Builder.new policy).addAll ds).2.overflow = none)
    (hlarge : ds.length < 65535 → ∃ d ∈ ds, 32767 < d.kind.members.length) :
    ∃ t, ((Builder.new policy).addAll ds).2.build = .ok t ∧ ¬∃ r, Registry.init t = .ok r := by
  refine ⟨_, Builder.build_eq_ok.2 ⟨hfits, rfl⟩, ?_⟩
  rw [exists_init_iff_of_laysOut (Builder.laysOut_addAll policy ds hfits).2 hds]
  rintro ⟨hlength, hmembers⟩
  obtain ⟨d, hd, hlt⟩ := hlarge hlength
  exact absurd (hmembers d hd) (Nat.not_le.2 hlt)

/-- A builder gives out the last handle too, and it takes more members of an enumeration than a
signed word can count. No registry begins with the tables of either. -/
theorem largest_tables_refused :
    ((∀ d ∈ List.replicate 65535 hiddenAction, d.Constructed ∧ d.Admissible) ∧
      ∃ t, ((Builder.new .exact).addAll (List.replicate 65535 hiddenAction)).2.build = .ok t ∧
        ¬∃ r, Registry.init t = .ok r) ∧
    (∀ d ∈ [hiddenMembers 32768], d.Constructed ∧ d.Admissible) ∧
      ∃ t, ((Builder.new .exact).addAll [hiddenMembers 32768]).2.build = .ok t ∧
        ¬∃ r, Registry.init t = .ok r := by
  have hactions : ∀ d ∈ List.replicate 65535 hiddenAction, d.Constructed ∧ d.Admissible := by
    intro d hd
    rw [List.eq_of_mem_replicate hd]
    exact hiddenAction_admissible
  have hmembers : ∀ d ∈ [hiddenMembers 32768], d.Constructed ∧ d.Admissible := by
    intro d hd
    rw [List.mem_singleton.1 hd]
    exact hiddenMembers_admissible (by decide)
  refine ⟨⟨hactions, refused_of_fits hactions ?_ ?_⟩, hmembers, refused_of_fits hmembers ?_ ?_⟩
  · exact Builder.replicate_action_fits .exact rfl rfl (Nat.le_refl 65535)
  · rw [List.length_replicate]
    exact fun hlt => absurd hlt (Nat.lt_irrefl 65535)
  · exact hiddenMembers_fits .exact (by decide)
  · refine fun _ => ⟨_, List.mem_singleton_self _, ?_⟩
    have hlength : (hiddenMembers 32768).kind.members.length = 32768 := List.length_replicate
    rw [hlength]
    decide

end Registry

end VariableRegistry
