/-
# Sound states

In every state that calls lead to, the store has as many cells as the directory counts, so each
place of each variable is there. No call changes the number of cells, and resetting never fails.
-/
import VariableRegistry.Proofs.Effects
import VariableRegistry.Proofs.Places

namespace VariableRegistry

/-! ## Numbers of cells -/

/-- A store has as many cells as are counted. -/
structure DataStore.Sized (s : DataStore) (c : CellCounts) : Prop where
  numbers : ∀ t, (s.numbers.get t).size = c.numbers.get t
  enums : s.enums.size = c.enums
  strings : s.strings.size = c.strings

namespace DataStore

variable {s : DataStore} {c : CellCounts}

theorem sized_ofCounts (c : CellCounts) : (ofCounts c).Sized c where
  numbers := by
    intro t
    rw [ofCounts, PerType.get_ofFn, Array.size_replicate]
  enums := Array.size_replicate
  strings := Array.size_replicate

/-- Other cells of one number type, if there are as many, leave the numbers of cells. -/
theorem Sized.setNumbers (h : s.Sized c) {t : NumType} {cells : Array (Cell t.Carrier)}
    (hsize : cells.size = (s.numbers.get t).size) :
    Sized { s with numbers := s.numbers.set t cells } c where
  numbers := by
    intro u
    by_cases hu : u = t
    · subst hu
      rw [PerType.get_set_self, hsize, h.numbers u]
    · rw [PerType.get_set_of_ne _ hu, h.numbers u]
  enums := h.enums
  strings := h.strings

theorem Sized.setEnums (h : s.Sized c) {cells : Array Int16} (hsize : cells.size = s.enums.size) :
    Sized { s with enums := cells } c where
  numbers := h.numbers
  enums := hsize.trans h.enums
  strings := h.strings

theorem Sized.setStrings (h : s.Sized c) {cells : Array String}
    (hsize : cells.size = s.strings.size) : Sized { s with strings := cells } c where
  numbers := h.numbers
  enums := h.enums
  strings := hsize.trans h.strings

/-! ## Resetting -/

theorem size_fillCells {α : Type} (cells : Array α) (first items : Nat) (x : α) :
    (fillCells cells first items x).size = cells.size := by
  unfold fillCells
  induction items with
  | zero => rfl
  | succ items ih => rw [Nat.fold_succ, Array.size_setIfInBounds, ih]

/-- Cells that are there can be filled, and there are as many afterwards. -/
theorem fill_eq_ok {α : Type} {cells : Array α} {first items : Nat} (x : α)
    (h : first + items ≤ cells.size) :
    ∃ cells', fill cells first items x = .ok cells' ∧ cells'.size = cells.size := by
  unfold fill
  rw [if_pos h]
  exact ⟨_, rfl, size_fillCells cells first items x⟩

/-- A variable that has its places can be reset. -/
theorem resetVariable_eq_ok {d : Directory} {v : Descriptor} (hv : d.Resolves v)
    (hs : s.Sized d.counts) :
    ∃ s', resetVariable d s v = .ok s' ∧ s'.Sized d.counts := by
  have hplaces := hv.places
  unfold resetVariable
  cases hk : v.kind with
  | number t template data =>
    rw [hk] at hplaces
    obtain ⟨htemplate, hcells⟩ := hplaces
    rw [← hs.numbers t] at hcells
    obtain ⟨cells, hfill, hsize⟩ :=
      fill_eq_ok ((d.templates.get t)[template]).cell hcells
    refine ⟨{ s with numbers := s.numbers.set t cells }, ?_, hs.setNumbers hsize⟩
    simp only [Array.getElem?_eq_getElem htemplate, demand_some, ok_bind, hfill]
    rfl
  | enumeration members data =>
    rw [hk] at hplaces
    obtain ⟨⟨e, he, -⟩, hcells⟩ := hplaces
    rw [← hs.enums] at hcells
    obtain ⟨cells, hfill, hsize⟩ := fill_eq_ok e.defaultValue hcells
    refine ⟨{ s with enums := cells }, ?_, hs.setEnums hsize⟩
    simp only [he, demand_some, ok_bind, hfill]
    rfl
  | string default data =>
    rw [hk] at hplaces
    obtain ⟨⟨text, htext⟩, hcells⟩ := hplaces
    rw [← hs.strings] at hcells
    obtain ⟨cells, hfill, hsize⟩ := fill_eq_ok text hcells
    refine ⟨{ s with strings := cells }, ?_, hs.setStrings hsize⟩
    simp only [htext, Except.mapError, ok_bind, hfill]
    rfl
  | constant text => exact ⟨s, rfl, hs⟩
  | action => exact ⟨s, rfl, hs⟩

/-- **A store can be reset if the directory is sound.** -/
theorem reset_eq_ok {d : Directory} (hd : d.Sound) (hs : s.Sized d.counts) :
    ∃ s', s.reset d = .ok s' ∧ s'.Sized d.counts := by
  have hvars : ∀ v ∈ d.vars.toList, d.Resolves v := by
    intro v hv
    obtain ⟨i, hi⟩ := List.mem_iff_getElem?.1 hv
    exact hd i v (by rwa [Array.getElem?_toList] at hi)
  unfold reset
  -- each variable finds as many cells as the ones before it did
  generalize d.vars.toList = vars at hvars
  induction vars generalizing s with
  | nil => exact ⟨s, rfl, hs⟩
  | cons v vars ih =>
    obtain ⟨s', hreset, hs'⟩ := resetVariable_eq_ok (hvars v List.mem_cons_self) hs
    obtain ⟨s'', hrest, hs''⟩ := ih hs' fun w hw => hvars w (List.mem_cons_of_mem v hw)
    refine ⟨s'', ?_, hs''⟩
    rw [List.foldlM_cons, hreset]
    exact hrest

end DataStore

namespace Registry

variable {t : TableSet} {r r' : Registry}

/-! ## The invariant -/

/-- A registry of a table set: it has the directory of the set, and its store has as many cells
as the directory counts. -/
structure Belongs (t : TableSet) (r : Registry) : Prop where
  directory : t.directory = .ok r.directory
  sized : r.store.Sized r.directory.counts

theorem Belongs.sound (h : r.Belongs t) : r.directory.Sound :=
  TableSet.sound_of_directory h.directory

theorem belongs_of_init (h : Registry.init t = .ok r) : r.Belongs t := by
  simp only [Registry.init, bind_eq_ok, pure_eq_ok] at h
  obtain ⟨d, hd, s, hs, rfl⟩ := h
  obtain ⟨s', hs', hsized⟩ :=
    DataStore.reset_eq_ok (TableSet.sound_of_directory hd) (DataStore.sized_ofCounts d.counts)
  rw [hs] at hs'
  cases hs'
  exact ⟨hd, hsized⟩

/-- The registry can be reset, and stays one of its table set. -/
theorem Belongs.reset (h : r.Belongs t) : ∃ r', r.reset = .ok r' ∧ r'.Belongs t := by
  obtain ⟨s, hs, hsized⟩ := DataStore.reset_eq_ok h.sound h.sized
  refine ⟨{ r with store := s }, ?_, h.directory, hsized⟩
  rw [Registry.reset, hs]
  rfl

/-- A change keeps the directory and the numbers of cells. -/
theorem Belongs.change (h : r.Belongs t) (hr : r.Change r') : r'.Belongs t := by
  obtain ⟨hdirectory, hsized⟩ := h
  -- a cell is replaced where it is, so no array grows or shrinks
  cases hr with
  | value hd hk hchannel hc hx =>
    exact ⟨hdirectory, hsized.setNumbers Array.size_setIfInBounds⟩
  | bound b x hd hk hchannel hc =>
    exact ⟨hdirectory, hsized.setNumbers Array.size_setIfInBounds⟩
  | member hd hk hchannel he hv =>
    exact ⟨hdirectory, hsized.setEnums Array.size_setIfInBounds⟩
  | text hd hk hchannel hs =>
    exact ⟨hdirectory, hsized.setStrings Array.size_setIfInBounds⟩
  | policy policy => exact ⟨hdirectory, hsized⟩
  | reset hreset =>
    obtain ⟨r'', hr'', hbelongs⟩ := Belongs.reset ⟨hdirectory, hsized⟩
    rw [hreset] at hr''
    cases hr''
    exact hbelongs

/-- One call keeps a registry of a table set one. -/
theorem Belongs.step (h : r.Belongs t) (call : Call) : (r.step call).2.Belongs t := by
  rcases step_change r call with heq | hchange
  · rw [heq]
    exact h
  · exact h.change hchange

/-- **Calls lead to registries of the table set only.** -/
theorem Reachable.belongs (h : Reachable t r) : r.Belongs t := by
  induction h with
  | init hr => exact belongs_of_init hr
  | step call _ ih => exact ih.step call

/-! ## Lookups -/

/-- Everything that a channel of a variable refers to is there: in the tables, among the
enumerations, in the blob and in the cells. -/
def Hits (r : Registry) (d : Descriptor) (channel : Nat) : Prop :=
  match d.kind with
  | .number t template data =>
    (∃ x, (r.directory.templates.get t)[template]? = some x) ∧
      ∃ c, (r.store.numbers.get t)[data + channel]? = some c
  | .enumeration members data =>
    (∃ e m, r.directory.enums[members]? = some e ∧ e.members[e.default]? = some m) ∧
      ∃ x, r.store.enums[data + channel]? = some x
  | .string default data =>
    (∃ text, DataStore.defaultText r.directory default = .ok text) ∧
      ∃ s, r.store.strings[data + channel]? = some s
  | .constant offset => ∃ text, r.directory.blob.textAt? offset = some text
  | .action => True

theorem Belongs.resolves (h : r.Belongs t) {handle : Handle} {d : Descriptor}
    (hd : r.descriptor handle = .ok d) : r.directory.Resolves d :=
  h.sound handle.index d (descriptor_eq_ok.1 hd)

/-- Every channel of a variable refers to what is there. -/
theorem Belongs.hits (h : r.Belongs t) {handle : Handle} {d : Descriptor}
    (hd : r.descriptor handle = .ok d) {channel : Nat} (hchannel : channel < d.channels.toNat) :
    r.Hits d channel := by
  have hplaces := (h.resolves hd).places
  unfold Hits
  cases hk : d.kind with
  | number u template data =>
    rw [hk] at hplaces
    obtain ⟨htemplate, hcells⟩ := hplaces
    have hcell : data + channel < (r.store.numbers.get u).size := by
      rw [h.sized.numbers u]
      omega
    exact ⟨⟨_, Array.getElem?_eq_getElem htemplate⟩, _, Array.getElem?_eq_getElem hcell⟩
  | enumeration members data =>
    rw [hk] at hplaces
    obtain ⟨⟨e, he, hdefault⟩, hcells⟩ := hplaces
    have hcell : data + channel < r.store.enums.size := by
      rw [h.sized.enums]
      omega
    exact ⟨⟨e, _, he, List.getElem?_eq_getElem hdefault⟩, _, Array.getElem?_eq_getElem hcell⟩
  | string default data =>
    rw [hk] at hplaces
    obtain ⟨htext, hcells⟩ := hplaces
    have hcell : data + channel < r.store.strings.size := by
      rw [h.sized.strings]
      omega
    exact ⟨htext, _, Array.getElem?_eq_getElem hcell⟩
  | constant offset =>
    rw [hk] at hplaces
    obtain ⟨bytes, hbytes⟩ := hplaces
    exact ⟨_, by rw [Blob.textAt?, hbytes]; rfl⟩
  | action => trivial

/-- A channel that is accepted is one of the variable. -/
theorem Belongs.channel_lt (h : r.Belongs t) {handle : Handle} {d : Descriptor}
    (hd : r.descriptor handle = .ok d) {channel : UInt16}
    (hchannel : d.checkChannel channel = .ok ()) : channel.toNat < d.channels.toNat := by
  rcases checkChannel_eq_ok.1 hchannel with rfl | ⟨-, hlt⟩
  · exact (h.resolves hd).channels
  · exact UInt16.lt_iff_toNat_lt.1 hlt

section

variable {handle : Handle} {d : Descriptor} {channel : UInt16}

/-- A channel of a number that is accepted has its cell. -/
theorem Belongs.exists_numberCell (h : r.Belongs t) (hd : r.descriptor handle = .ok d)
    {u : NumType} {template data : Nat} (hk : d.kind = .number u template data)
    (hchannel : d.checkChannel channel = .ok ()) :
    ∃ c, (r.store.numbers.get u)[data + channel.toNat]? = some c := by
  have hhits := h.hits hd (h.channel_lt hd hchannel)
  simp only [Hits, hk] at hhits
  exact hhits.2

/-- A channel of an enumeration that is accepted has its cell. -/
theorem Belongs.exists_memberCell (h : r.Belongs t) (hd : r.descriptor handle = .ok d)
    {members data : Nat} (hk : d.kind = .enumeration members data)
    (hchannel : d.checkChannel channel = .ok ()) :
    ∃ x, r.store.enums[data + channel.toNat]? = some x := by
  have hhits := h.hits hd (h.channel_lt hd hchannel)
  simp only [Hits, hk] at hhits
  exact hhits.2

/-- A channel of a string that is accepted has its cell. -/
theorem Belongs.exists_stringCell (h : r.Belongs t) (hd : r.descriptor handle = .ok d)
    {default data : Nat} (hk : d.kind = .string default data)
    (hchannel : d.checkChannel channel = .ok ()) :
    ∃ s, r.store.strings[data + channel.toNat]? = some s := by
  have hhits := h.hits hd (h.channel_lt hd hchannel)
  simp only [Hits, hk] at hhits
  exact hhits.2

/-- A constant has its text. -/
theorem Belongs.exists_text (h : r.Belongs t) (hd : r.descriptor handle = .ok d) {offset : Nat}
    (hk : d.kind = .constant offset) :
    ∃ text, r.directory.blob.textAt? offset = some text := by
  have hhits := h.hits hd (h.resolves hd).channels
  simpa only [Hits, hk] using hhits

/-- An enumeration has its members. -/
theorem Belongs.exists_enumeration (h : r.Belongs t) (hd : r.descriptor handle = .ok d)
    {members data : Nat} (hk : d.kind = .enumeration members data) :
    ∃ e, r.directory.enums[members]? = some e := by
  have hhits := h.hits hd (h.resolves hd).channels
  simp only [Hits, hk] at hhits
  obtain ⟨⟨e, -, he, -⟩, -⟩ := hhits
  exact ⟨e, he⟩

/-- What is computed of a variable of a table set holds of the registry that is created of it. -/
theorem exists_init_of_computed {α : Type} {f : Registry → Descriptor → α} {x : α}
    (h : ((Registry.init t).toOption.bind fun r => (r.descriptor handle).toOption.map (f r)) =
      some x) :
    ∃ r d, Registry.init t = .ok r ∧ r.descriptor handle = .ok d ∧ f r d = x := by
  obtain ⟨r, hr, h⟩ := Option.bind_eq_some_iff.1 h
  obtain ⟨d, hd, h⟩ := Option.map_eq_some_iff.1 h
  exact ⟨r, d, toOption_eq_some.1 hr, toOption_eq_some.1 hd, h⟩

end

end Registry

end VariableRegistry
