/-
# Stores of any size

A store may be made with other numbers of cells than a directory counts. It can be reset exactly if
every variable finds its cells in it; then each cell holds the default of the last variable that
owns it, and a cell without an owner is as it was made. Otherwise the first variable that does not
find its cells is to blame.
-/
import VariableRegistry.Proofs.Resetting

namespace VariableRegistry

/-! ## Defaults and sizes -/

/-- What a cell of an array holds when it is made. -/
def DataArray.zero : (a : DataArray) → a.Content
  | .number t => ⟨t.zero, t.zero, t.zero⟩
  | .enums => (0 : Int16)
  | .strings => ""

/-- The default of a kind of variable, as the tables say it: the numbers of its template, the value
of the default member, or the text that stands in the blob. -/
inductive Directory.Default (d : Directory) : VarKind → (a : DataArray) → a.Content → Prop where
  | number {t : NumType} {template data : Nat} {x : Template t.Carrier}
      (hx : (d.templates.get t)[template]? = some x) :
      d.Default (.number t template data) (.number t) ⟨x.default, x.min, x.max⟩
  | member {members data : Nat} {e : Enumeration} {m : Member}
      (he : d.enums[members]? = some e) (hm : e.members[e.default]? = some m) :
      d.Default (.enumeration members data) .enums m.value
  | text {offset data : Nat} {text : String}
      (htext : d.blob.bytesAt? offset = some (Utf8.encode text.toList)) :
      d.Default (.string offset data) .strings text

/-- A variable finds its cells in arrays of some sizes. -/
def Descriptor.Fits (v : Descriptor) (c : CellCounts) : Prop :=
  ∀ a data, v.kind.cells? = some (a, data) → data + v.channels.toNat ≤ c.get a

/-- The first of some variables that does not find its cells. -/
def FirstMisfit (vars : List Descriptor) (c : CellCounts) (v : Descriptor) : Prop :=
  ∃ before after, vars = before ++ v :: after ∧ (∀ w ∈ before, w.Fits c) ∧ ¬v.Fits c

/-- A store of some sizes holds the defaults of a directory: each cell that of its last owner, and
a cell without an owner what it was made with. -/
structure Directory.FilledIn (d : Directory) (c : CellCounts) (s : DataStore) : Prop where
  sizes : ∀ a, (s.cells a).size = c.get a
  owned : ∀ (a : DataArray) (i : Nat), (∃ v ∈ d.vars.toList, v.Owns a i) →
    ∃ v x, LastOwner d.vars.toList a i v ∧ d.Default v.kind a x ∧ (s.cells a)[i]? = some x
  free : ∀ (a : DataArray) (i : Nat), i < c.get a → (∀ v ∈ d.vars.toList, ¬v.Owns a i) →
    (s.cells a)[i]? = some a.zero

variable {d : Directory} {c : CellCounts} {v : Descriptor} {vs : List Descriptor} {a : DataArray}
  {data i : Nat}

theorem Descriptor.not_fits (h : ¬v.Fits c) :
    ∃ a data, v.kind.cells? = some (a, data) ∧ c.get a < data + v.channels.toNat := by
  obtain ⟨a, h⟩ := Classical.not_forall.1 h
  obtain ⟨data, h⟩ := Classical.not_forall.1 h
  obtain ⟨hcells, h⟩ := Classical.not_imp.1 h
  exact ⟨a, data, hcells, Nat.not_le.1 h⟩

/-- Where some variable does not find its cells, there is a first one. -/
theorem exists_firstMisfit (h : ¬∀ v ∈ vs, v.Fits c) : ∃ v, FirstMisfit vs c v := by
  induction vs with
  | nil => exact absurd (fun v hv => nomatch hv) h
  | cons v vs ih =>
    by_cases hv : v.Fits c
    · have hvs : ¬∀ w ∈ vs, w.Fits c := fun hvs => h (List.forall_mem_cons.2 ⟨hv, hvs⟩)
      obtain ⟨w, before, after, rfl, hbefore, hw⟩ := ih hvs
      exact ⟨w, v :: before, after, rfl, List.forall_mem_cons.2 ⟨hv, hbefore⟩, hw⟩
    · exact ⟨v, [], vs, rfl, by simp, hv⟩

/-- Where some variable owns a cell, there is a last one. -/
theorem exists_lastOwner (h : ∃ v ∈ vs, v.Owns a i) : ∃ v, LastOwner vs a i v := by
  induction vs with
  | nil => simp at h
  | cons v vs ih =>
    by_cases hlater : ∃ w ∈ vs, w.Owns a i
    · obtain ⟨w, before, after, rfl, hw, hafter⟩ := ih hlater
      exact ⟨w, v :: before, after, rfl, hw, hafter⟩
    · obtain ⟨w, hw, howns⟩ := h
      rcases List.mem_cons.1 hw with rfl | hw
      · exact ⟨w, [], vs, rfl, howns, fun u hu huowns => hlater ⟨u, hu, huowns⟩⟩
      · exact absurd ⟨w, hw, howns⟩ hlater

/-- A variable with cells has a default to put there. -/
theorem Directory.Resolves.exists_initial (h : d.Resolves v)
    (hcells : v.kind.cells? = some (a, data)) :
    ∃ x, d.initial? v.kind = some ⟨a, data, x⟩ ∧ d.Default v.kind a x := by
  have hplaces := h.places
  cases hk : v.kind with
  | number t template data' =>
    rw [hk] at hplaces hcells
    cases hcells
    have hx := Array.getElem?_eq_getElem hplaces.1
    exact ⟨_, by rw [Directory.initial?, hx]; rfl, .number hx⟩
  | enumeration members data' =>
    rw [hk] at hplaces hcells
    cases hcells
    obtain ⟨⟨e, he, hdefault⟩, -⟩ := hplaces
    have hm := List.getElem?_eq_getElem hdefault
    have hvalue : e.defaultValue = e.members[e.default].value := by
      rw [Enumeration.defaultValue, hm]
      rfl
    refine ⟨e.defaultValue, by rw [Directory.initial?, he]; rfl, ?_⟩
    rw [hvalue]
    exact .member he hm
  | string default data' =>
    rw [hk] at hplaces hcells
    cases hcells
    obtain ⟨⟨text, htext⟩, -⟩ := hplaces
    exact ⟨text, by rw [Directory.initial?, htext]; rfl,
      .text (DataStore.defaultText_eq_ok.1 htext).1⟩
  | constant text =>
    rw [hk] at hcells
    cases hcells
  | action =>
    rw [hk] at hcells
    cases hcells

namespace DataStore

variable {s s' : DataStore}

theorem Sized.setCells (h : s.Sized c) {cells : Array a.Content}
    (hsize : cells.size = (s.cells a).size) : (s.setCells a cells).Sized c := by
  cases a with
  | number t => exact h.setNumbers hsize
  | enums => exact h.setEnums hsize
  | strings => exact h.setStrings hsize

theorem cells_ofCounts (c : CellCounts) (a : DataArray) :
    (ofCounts c).cells a = Array.replicate (c.get a) a.zero := by
  cases a with
  | number t => exact PerType.get_ofFn _ t
  | enums => rfl
  | strings => rfl

/-! ## One variable -/

theorem resetVariable_of_no_cells (h : v.kind.cells? = none) : resetVariable d s v = .ok s := by
  unfold resetVariable
  cases hk : v.kind with
  | constant text => rfl
  | action => rfl
  | _ =>
    rw [hk] at h
    cases h

/-- Resetting a variable with a default is filling its cells. -/
theorem resetVariable_eq_fill {x : a.Content} (hx : d.initial? v.kind = some ⟨a, data, x⟩) :
    resetVariable d s v = (fill (s.cells a) data v.channels.toNat x).map (s.setCells a) := by
  unfold resetVariable
  unfold Directory.initial? at hx
  cases hk : v.kind with
  | number t template data' =>
    simp only [hk, Option.map_eq_some_iff] at hx
    obtain ⟨y, hy, heq⟩ := hx
    cases heq
    simp only [hy, demand_some, ok_bind]
    rfl
  | enumeration members data' =>
    simp only [hk, Option.map_eq_some_iff] at hx
    obtain ⟨e, he, heq⟩ := hx
    cases heq
    simp only [he, demand_some, ok_bind]
    rfl
  | string default data' =>
    simp only [hk, Option.map_eq_some_iff] at hx
    obtain ⟨text, htext, heq⟩ := hx
    cases heq
    simp only [toOption_eq_some.1 htext, Except.mapError, ok_bind]
    rfl
  | constant text =>
    rw [hk] at hx
    cases hx
  | action =>
    rw [hk] at hx
    cases hx

/-- A variable that finds its cells is reset, and no array becomes longer or shorter. -/
theorem resetVariable_of_fits (hv : d.Resolves v) (hs : s.Sized c) (hfits : v.Fits c) :
    ∃ s', resetVariable d s v = .ok s' ∧ s'.Sized c := by
  cases hcells : v.kind.cells? with
  | none => exact ⟨s, resetVariable_of_no_cells hcells, hs⟩
  | some place =>
    obtain ⟨a, data⟩ := place
    obtain ⟨x, hx, -⟩ := hv.exists_initial hcells
    have hle := hfits a data hcells
    rw [← hs.cells a] at hle
    rw [resetVariable_eq_fill hx, fill, if_pos hle]
    exact ⟨_, rfl, hs.setCells (size_fillCells _ _ _ _)⟩

/-- A variable that does not find its cells is refused, with the range of these cells and the size
of the array. -/
theorem resetVariable_of_not_fits (hv : d.Resolves v) (hs : s.Sized c) (hfits : ¬v.Fits c) :
    ∃ a data, v.kind.cells? = some (a, data) ∧ resetVariable d s v =
      .error (.cellsOutside data (data + v.channels.toNat) (c.get a)) := by
  obtain ⟨a, data, hcells, hlt⟩ := Descriptor.not_fits hfits
  obtain ⟨x, hx, -⟩ := hv.exists_initial hcells
  refine ⟨a, data, hcells, ?_⟩
  rw [← hs.cells a] at hlt ⊢
  rw [resetVariable_eq_fill hx, fill, if_neg (Nat.not_le.2 hlt)]
  rfl

/-! ## All variables -/

/-- Variables that find their cells are reset one after another. -/
theorem foldlM_of_fits (hvs : ∀ v ∈ vs, d.Resolves v) (hs : s.Sized c)
    (hfits : ∀ v ∈ vs, v.Fits c) :
    ∃ s', vs.foldlM (resetVariable d) s = .ok s' ∧ s'.Sized c := by
  induction vs generalizing s with
  | nil => exact ⟨s, rfl, hs⟩
  | cons v vs ih =>
    obtain ⟨hv, hvs⟩ := List.forall_mem_cons.1 hvs
    obtain ⟨hfit, hfits⟩ := List.forall_mem_cons.1 hfits
    obtain ⟨s₁, hone, hs₁⟩ := resetVariable_of_fits hv hs hfit
    obtain ⟨s', hrest, hs'⟩ := ih hvs hs₁ hfits
    exact ⟨s', by rw [List.foldlM_cons, hone, ok_bind, hrest], hs'⟩

/-- The first variable that does not find its cells ends it. -/
theorem foldlM_of_firstMisfit (hvs : ∀ v ∈ vs, d.Resolves v) (hs : s.Sized c)
    (hv : FirstMisfit vs c v) :
    ∃ a data, v.kind.cells? = some (a, data) ∧ vs.foldlM (resetVariable d) s =
      .error (.cellsOutside data (data + v.channels.toNat) (c.get a)) := by
  obtain ⟨before, after, rfl, hbefore, hmisfit⟩ := hv
  obtain ⟨hresolved, hvs⟩ := List.forall_mem_append.1 hvs
  obtain ⟨hv, -⟩ := List.forall_mem_cons.1 hvs
  obtain ⟨s₁, hfront, hs₁⟩ := foldlM_of_fits hresolved hs hbefore
  obtain ⟨a, data, hcells, hone⟩ := resetVariable_of_not_fits hv hs₁ hmisfit
  refine ⟨a, data, hcells, ?_⟩
  rw [List.foldlM_append, hfront, ok_bind, List.foldlM_cons, hone]
  rfl

/-- What a reset makes of a new store. -/
theorem filledIn_of_reset (hd : ∀ v ∈ d.vars.toList, d.Resolves v) (hs : s.Sized c)
    (h : (ofCounts c).reset d = .ok s) : d.FilledIn c s where
  sizes := hs.cells
  owned := by
    intro a i howned
    obtain ⟨v, hlast⟩ := exists_lastOwner howned
    obtain ⟨data, x, hx, hcell⟩ := getElem?_of_lastOwner h hlast
    have hmem : v ∈ d.vars.toList := by
      obtain ⟨before, after, hvars, -⟩ := hlast
      rw [hvars]
      exact List.mem_append_right before List.mem_cons_self
    obtain ⟨x', hx', hdefault⟩ := (hd v hmem).exists_initial (Directory.cells?_of_initial? hx)
    rw [hx] at hx'
    cases hx'
    exact ⟨v, x, hlast, hdefault, hcell⟩
  free := by
    intro a i hlt hfree
    rw [← reset_sameBut h a i hfree, cells_ofCounts, Array.getElem?_replicate, if_pos hlt]

/-- **A store of any size can be reset exactly if every variable finds its cells in it.** The
directory is that of a table set that is accepted, and the sizes of the six arrays may be smaller or
larger than those that it counts. A store that was reset holds in each cell the default of the last
variable that owns it, in the order of declaration, and where no variable owns a cell zeros or an
empty text. Otherwise the fault names the cells of the first variable that does not find them all,
and the size of their array. -/
theorem reset_succeeds_iff_fits (t : TableSet) (d : Directory) (h : t.directory = .ok d)
    (c : CellCounts) :
    ((∃ s, (ofCounts c).reset d = .ok s) ↔ ∀ v ∈ d.vars.toList, v.Fits c) ∧
    (∀ s, (ofCounts c).reset d = .ok s → d.FilledIn c s) ∧
    ∀ fault, (ofCounts c).reset d = .error fault →
      ∃ v a data, FirstMisfit d.vars.toList c v ∧ v.kind.cells? = some (a, data) ∧
        fault = .cellsOutside data (data + v.channels.toNat) (c.get a) ∧
        fault.message = s!"cells {data}..{data + v.channels.toNat} outside array of {c.get a}" := by
  have hresolved : ∀ v ∈ d.vars.toList, d.Resolves v := by
    intro v hv
    obtain ⟨i, hi⟩ := List.mem_iff_getElem?.1 hv
    exact TableSet.sound_of_directory h i v (by rwa [Array.getElem?_toList] at hi)
  have hmade := sized_ofCounts c
  by_cases hfits : ∀ v ∈ d.vars.toList, v.Fits c
  · obtain ⟨s, hs, hsized⟩ := foldlM_of_fits hresolved hmade hfits
    have hreset : (ofCounts c).reset d = .ok s := hs
    refine ⟨iff_of_true ⟨s, hreset⟩ hfits, ?_, ?_⟩
    · intro s' hs'
      obtain rfl := Except.ok.inj (hreset.symm.trans hs')
      exact filledIn_of_reset hresolved hsized hreset
    · intro fault hfault
      rw [hreset] at hfault
      cases hfault
  · obtain ⟨v, hv⟩ := exists_firstMisfit hfits
    obtain ⟨a, data, hcells, hreset⟩ := foldlM_of_firstMisfit hresolved hmade hv
    have hreset : (ofCounts c).reset d = _ := hreset
    refine ⟨iff_of_false ?_ hfits, ?_, ?_⟩
    · rintro ⟨s, hs⟩
      rw [hreset] at hs
      cases hs
    · intro s hs
      rw [hreset] at hs
      cases hs
    · intro fault hfault
      obtain rfl := Except.error.inj (hreset.symm.trans hfault)
      exact ⟨v, a, data, hv, hcells, rfl, rfl⟩

/-- The variables that share a cell are reset in a store without the cell that belongs to none, but
not in one that lacks a cell of the second variable as well. -/
theorem reset_of_three_and_two_cells : ∃ d s, TableSet.overlapping.directory = .ok d ∧
    (ofCounts ⟨⟨3, 0, 0, 0⟩, 0, 0⟩).reset d = .ok s ∧ d.FilledIn ⟨⟨3, 0, 0, 0⟩, 0, 0⟩ s ∧
    (ofCounts ⟨⟨2, 0, 0, 0⟩, 0, 0⟩).reset d = .error (.cellsOutside 1 3 2) ∧
    ∃ v a data, FirstMisfit d.vars.toList ⟨⟨2, 0, 0, 0⟩, 0, 0⟩ v ∧
      v.kind.cells? = some (a, data) ∧
      TableFault.cellsOutside 1 3 2 = .cellsOutside data (data + v.channels.toNat)
        (CellCounts.get ⟨⟨2, 0, 0, 0⟩, 0, 0⟩ a) := by
  have hresets : (TableSet.overlapping.directory.toOption.map fun d =>
      (((ofCounts ⟨⟨3, 0, 0, 0⟩, 0, 0⟩).reset d).toBool,
        match (ofCounts ⟨⟨2, 0, 0, 0⟩, 0, 0⟩).reset d with
        | .ok _ => none
        | .error fault => some fault)) = some (true, some (.cellsOutside 1 3 2)) := by
    decide +kernel
  obtain ⟨d, hd, heq⟩ := Option.map_eq_some_iff.1 hresets
  rw [toOption_eq_some] at hd
  obtain ⟨hthree, htwo⟩ := Prod.mk.inj heq
  obtain ⟨s, hs⟩ := toBool_eq_true.1 hthree
  have hfault : (ofCounts ⟨⟨2, 0, 0, 0⟩, 0, 0⟩).reset d = .error (.cellsOutside 1 3 2) := by
    split at htwo
    · cases htwo
    · next hreset => rw [hreset, Option.some.inj htwo]
  obtain ⟨v, a, data, hv, hcells, hnamed, -⟩ :=
    (reset_succeeds_iff_fits .overlapping d hd ⟨⟨2, 0, 0, 0⟩, 0, 0⟩).2.2 _ hfault
  exact ⟨d, s, hd, hs, (reset_succeeds_iff_fits .overlapping d hd ⟨⟨3, 0, 0, 0⟩, 0, 0⟩).2.1 s hs,
    hfault, v, a, data, hv, hcells, hnamed⟩

end DataStore

end VariableRegistry
