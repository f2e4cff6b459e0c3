/-
# Cells of enumerations

A registry of built tables begins with the value of a member in every cell of an enumeration. A
call writes there only what is the value of a member, and since no other variable has the cell, it
stays the value of a member of the same enumeration whatever is called.
-/
import VariableRegistry.Proofs.DividedCells

namespace VariableRegistry.Registry

variable {t : TableSet} {r r' : Registry} {ds : List Declaration} {policy : AccessPolicy}

/-! ## Values of members -/

/-- The cell of each channel of each enumeration holds the value of one of its members. -/
def HoldsMembers (r : Registry) : Prop :=
  ∀ (i : Nat) (v : Descriptor) (members data : Nat), r.directory.vars[i]? = some v →
    v.kind = .enumeration members data →
      ∃ e, r.directory.enums[members]? = some e ∧
        ∀ channel : Nat, channel < v.channels.toNat →
          ∃ m ∈ e.members, r.store.enums[data + channel]? = some m.value

/-- In the beginning every cell of an enumeration holds the value of the default member. -/
theorem BeginsWith.holdsMembers (h : BeginsWith t ds r) : r.HoldsMembers := by
  intro i v members data hv hk
  obtain ⟨d, hd, hdescribes⟩ := h.laysOut.declared h.belongs.directory hv
  have hholds := hdescribes.kind
  rw [hk] at hholds
  -- only an enumeration is read as one
  cases hkind : d.kind with
  | enumeration default declared =>
    obtain ⟨position, data', m, hk', hm, he, hcells⟩ := h.memberCells hv hdescribes hkind
    rw [hk] at hk'
    cases hk'
    refine ⟨_, he, fun channel hchannel => ?_⟩
    rw [hdescribes.channels, d.toNat_items] at hchannel
    refine ⟨Member.unnamed m, ?_, hcells channel hchannel⟩
    exact List.mem_map_of_mem (List.mem_of_getElem? hm)
  | number u x =>
    obtain ⟨_, hother, -⟩ := hkind ▸ hholds
    cases hother
  | string text =>
    obtain ⟨_, hother, -⟩ := hkind ▸ hholds
    cases hother
  | constant text =>
    obtain ⟨_, hother, -⟩ := hkind ▸ hholds
    cases hother
  | action =>
    rw [hkind] at hholds
    cases hholds

/-! ## Calls -/

/-- A registry with the same directory and the same cells of enumerations holds members, too. -/
theorem HoldsMembers.congr (h : r.HoldsMembers) (hdirectory : r'.directory = r.directory)
    (henums : r'.store.enums = r.store.enums) : r'.HoldsMembers := by
  unfold HoldsMembers
  rw [hdirectory, henums]
  exact h

/-- The value of a member of one enumeration leaves the cells of all others alone. -/
theorem HoldsMembers.setEnum (h : r.HoldsMembers) (hdivided : r.directory.Divided)
    (hr : r.Belongs t) {handle : Handle} {d : Descriptor} {members data : Nat} {channel : UInt16}
    {e : Enumeration} {x : Int16} (hd : r.descriptor handle = .ok d)
    (hk : d.kind = .enumeration members data) (hchannel : d.checkChannel channel = .ok ())
    (he : r.directory.enums[members]? = some e) (hx : e.contains x = true) :
    (r.setEnum (data + channel.toNat) x).HoldsMembers := by
  intro i v members' data' hv hk'
  obtain ⟨e', he', hheld⟩ := h i v members' data' hv hk'
  refine ⟨e', he', fun channel' hchannel' => ?_⟩
  obtain ⟨m, hm, hcell⟩ := hheld channel' hchannel'
  show ∃ m ∈ e'.members,
    (r.store.enums.setIfInBounds (data + channel.toNat) x)[data' + channel']? = some m.value
  by_cases hsame : data' + channel' = data + channel.toNat
  · -- the cell belongs to one variable only, so the new value is one of its members
    have howns : d.Owns .enums (data + channel.toNat) := hr.owns hd (by rw [hk]; rfl) hchannel
    have howns' : v.Owns .enums (data + channel.toNat) :=
      hsame ▸ ⟨data', by rw [hk']; rfl, Nat.le_add_right _ _, Nat.add_lt_add_left hchannel' _⟩
    have hd' := descriptor_eq_ok.1 hd
    obtain rfl := hdivided .enums _ i handle.index v d hv hd' howns' howns
    cases hv.symm.trans hd'
    rw [hk] at hk'
    cases hk'
    cases he.symm.trans he'
    obtain ⟨m', hm', rfl⟩ := (contains_iff e x).1 hx
    obtain ⟨hlt, -⟩ := Array.getElem?_eq_some_iff.1 hcell
    exact ⟨m', hm', by rw [hsame] at hlt ⊢; exact Array.getElem?_setIfInBounds_self_of_lt hlt⟩
  · exact ⟨m, hm, by rw [Array.getElem?_setIfInBounds_ne (Ne.symm hsame)]; exact hcell⟩

/-- A change keeps the values of members, a reset by going back to the beginning. -/
theorem HoldsMembers.change (h : r.HoldsMembers)
    (hbuild : ((Builder.new policy).addAll ds).2.build = .ok t) (hreach : Reachable t r)
    (hr : r.Change r') : r'.HoldsMembers := by
  cases hr with
  | value hd hk hchannel hc hx => exact h.congr rfl rfl
  | bound b x hd hk hchannel hc => exact h.congr rfl rfl
  | member hd hk hchannel he hv =>
    exact h.setEnum (hreach.divided hbuild) hreach.belongs hd hk hchannel (demand_eq_ok.1 he) hv
  | text hd hk hchannel hs => exact h.congr rfl rfl
  | policy policy => exact h.congr rfl rfl
  | reset hreset =>
    obtain ⟨r₀, hr₀⟩ := hreach.exists_init
    rw [reset_eq_of_store (hreach.reset_store hr₀)] at hreset
    cases hreset
    have hinit : Reachable t r₀ := .init hr₀
    have hdirectory := hinit.belongs.directory_eq hreach.belongs
    exact (beginsWith_of_built hbuild hr₀).holdsMembers.congr hdirectory rfl

/-- Calls to a registry of built tables keep the values of members. -/
theorem Reachable.holdsMembers (hbuild : ((Builder.new policy).addAll ds).2.build = .ok t)
    (h : Reachable t r) : r.HoldsMembers := by
  induction h with
  | init hr => exact (beginsWith_of_built hbuild hr).holdsMembers
  | step call hreach ih =>
    rcases step_change _ call with heq | hchange
    · rw [heq]
      exact ih
    · exact ih.change hbuild hreach hchange

/-- **The cells of an enumeration always hold members.** In every state to which calls lead from
tables that a builder finished, each channel of each enumeration holds the value of at least one of
the members that the registry gives for the variable. -/
theorem enumeration_cells_hold_members (policy : AccessPolicy) (ds : List Declaration)
    (t : TableSet) (hbuild : ((Builder.new policy).addAll ds).2.build = .ok t) (r : Registry)
    (hreach : Reachable t r) (h : Handle) (d : Descriptor) (members data : Nat)
    (hd : r.descriptor h = .ok d) (hk : d.kind = .enumeration members data) :
    ∃ e, r.enumeration h = .ok e ∧
      ∀ channel : Nat, channel < d.channels.toNat →
        ∃ m ∈ e.members, r.store.enums[data + channel]? = some m.value := by
  obtain ⟨e, he, hheld⟩ :=
    hreach.holdsMembers hbuild h.index d members data (descriptor_eq_ok.1 hd) hk
  refine ⟨e, ?_, hheld⟩
  simp only [Registry.enumeration, hd, ok_bind, hk, Directory.enumeration, he, demand_some]

/-- The last channel of an enumeration was written by the symbol of a member. -/
theorem namesakes_hold_members : ∃ t r d, ((Builder.new .exact).addAll namesakes).2.build = .ok t ∧
    Reachable t r ∧ r.descriptor ⟨1⟩ = .ok d ∧ d.kind = .enumeration 0 0 ∧ d.channels = 3 ∧
    r.store.enums = #[7, 7, 3] ∧
    ∃ e, r.enumeration ⟨1⟩ = .ok e ∧
      ∀ channel : Nat, channel < d.channels.toNat →
        ∃ m ∈ e.members, r.store.enums[0 + channel]? = some m.value := by
  have hwritten : (((Builder.new .exact).addAll namesakes).2.build.toOption.bind fun t =>
      (Registry.init t).toOption.bind fun r₀ =>
        let r := (r₀.step (.text ⟨⟨1⟩, .write, 2, ⟨0x0011⟩⟩ " off ")).2
        (r.descriptor ⟨1⟩).toOption.map fun d => (d.kind, d.channels, r.store.enums)) =
          some (.enumeration 0 0, 3, #[7, 7, 3]) := by
    decide +kernel
  obtain ⟨t, ht, hinit⟩ := Option.bind_eq_some_iff.1 hwritten
  obtain ⟨r₀, hr₀, hd⟩ := Option.bind_eq_some_iff.1 hinit
  obtain ⟨d, hd, heq⟩ := Option.map_eq_some_iff.1 hd
  rw [toOption_eq_some] at ht hr₀ hd
  obtain ⟨hk, hchannels, hcells⟩ : _ ∧ _ ∧ _ := by simpa using heq
  have hreach := Reachable.step (.text ⟨⟨1⟩, .write, 2, ⟨0x0011⟩⟩ " off ") (.init hr₀)
  exact ⟨t, _, d, ht, hreach, hd, hk, hchannels, hcells,
    enumeration_cells_hold_members .exact namesakes t ht _ hreach ⟨1⟩ d 0 0 hd hk⟩

end VariableRegistry.Registry
