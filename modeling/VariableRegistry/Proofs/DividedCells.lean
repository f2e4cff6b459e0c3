/-
# Divided cells

A directory is divided if no two of its variables share a cell. Then the cell of a channel belongs
to this channel of this variable alone, so a write to one channel is not seen in another. The
directories of built tables are divided.
-/
import VariableRegistry.Proofs.BuiltRegistries

namespace VariableRegistry

/-! ## The cell of a channel -/

namespace Directory

/-- No two variables share a cell. -/
def Divided (dir : Directory) : Prop :=
  ∀ (a : DataArray) (cell i j : Nat) (v w : Descriptor), dir.vars[i]? = some v →
    dir.vars[j]? = some w → v.Owns a cell → w.Owns a cell → i = j

/-- A channel of the variable with a handle has its cell at a position of an array. -/
def Locates (dir : Directory) (h : Handle) (channel : UInt16) (a : DataArray) (i : Nat) : Prop :=
  ∃ v data, dir.vars[h.index]? = some v ∧ v.HasChannel channel ∧
    v.kind.cells? = some (a, data) ∧ i = data + channel.toNat

variable {dir : Directory} {h h' : Handle} {channel channel' : UInt16} {a : DataArray} {i : Nat}
  {v : Descriptor}

/-- The channels that a variable with a channel has are below their number. -/
theorem Resolves.channel_lt (hv : dir.Resolves v) (hchannel : v.HasChannel channel) :
    channel.toNat < v.channels.toNat := by
  rcases hchannel with rfl | ⟨-, hlt⟩
  · exact hv.channels
  · exact UInt16.lt_iff_toNat_lt.1 hlt

/-- The cell of a channel is one that the variable owns. -/
theorem Locates.owns (hsound : dir.Sound) (hcell : dir.Locates h channel a i) :
    ∃ v, dir.vars[h.index]? = some v ∧ v.Owns a i := by
  obtain ⟨v, data, hv, hchannel, hcells, rfl⟩ := hcell
  have hlt := (hsound h.index v hv).channel_lt hchannel
  exact ⟨v, hv, data, hcells, by omega, by omega⟩

/-- **In a divided directory a cell is that of one channel of one variable.** -/
theorem Divided.locates_unique (hdivided : dir.Divided) (hsound : dir.Sound)
    (hcell : dir.Locates h channel a i) (hcell' : dir.Locates h' channel' a i) :
    h = h' ∧ channel = channel' := by
  obtain ⟨v, hv, howns⟩ := hcell.owns hsound
  obtain ⟨v', hv', howns'⟩ := hcell'.owns hsound
  obtain rfl : h = h' :=
    Registry.index_injective (hdivided a i h.index h'.index v v' hv hv' howns howns')
  refine ⟨rfl, ?_⟩
  -- within one variable the channels count the cells from the first one on
  obtain ⟨w, data, hw, -, hcells, rfl⟩ := hcell
  obtain ⟨w', data', hw', -, hcells', hi⟩ := hcell'
  cases hw.symm.trans hw'
  cases hcells.symm.trans hcells'
  exact UInt16.toNat_inj.1 (Nat.add_left_cancel hi)

end Directory

/-! ## Built tables -/

namespace Registry

variable {t : TableSet} {r : Registry} {ds : List Declaration} {policy : AccessPolicy}

/-- The directory of a registry that began with declarations is divided. -/
theorem BeginsWith.divided (h : BeginsWith t ds r) : r.directory.Divided := by
  intro a cell i j v w hv hw hvowns hwowns
  exact ((h.owns_iff hv).1 hvowns).unique ((h.owns_iff hw).1 hwowns)

/-- A registry that begins with the tables of a builder begins with the declarations that the
builder was given. -/
theorem beginsWith_of_built (hbuild : ((Builder.new policy).addAll ds).2.build = .ok t)
    (hinit : Registry.init t = .ok r) : BeginsWith t ds r := by
  obtain ⟨hfits, rfl⟩ := Builder.build_eq_ok.1 hbuild
  exact ⟨(Builder.laysOut_addAll policy ds hfits).2, hinit⟩

/-- Calls to a registry of built tables lead to registries with a divided directory. -/
theorem Reachable.divided (hbuild : ((Builder.new policy).addAll ds).2.build = .ok t)
    (h : Reachable t r) : r.directory.Divided := by
  obtain ⟨r₀, hr₀⟩ := h.exists_init
  have hbegins := beginsWith_of_built hbuild hr₀
  rw [hbegins.belongs.directory_eq h.belongs]
  exact hbegins.divided

end Registry

end VariableRegistry
