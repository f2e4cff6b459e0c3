/-
# Resetting

A reset fills the cells of one variable after another and touches no other cell, and between two
resets no call touches a cell that belongs to no variable. So whatever happened before, a reset
leads back to the store with which the registry began.
-/
import VariableRegistry.Proofs.Acceptance
import VariableRegistry.Proofs.Ownership

namespace VariableRegistry

/-- What a reset does for a kind of variable: the array in which it fills cells, the position of
the first one, and what it puts there. -/
def Directory.initial? (d : Directory) : VarKind → Option ((a : DataArray) × Nat × a.Content)
  | .number t template data =>
    ((d.templates.get t)[template]?).map fun x => ⟨.number t, data, x.cell⟩
  | .enumeration members data => (d.enums[members]?).map fun e => ⟨.enums, data, e.defaultValue⟩
  | .string default data =>
    (DataStore.defaultText d default).toOption.map fun text => ⟨.strings, data, text⟩
  | .constant _ => none
  | .action => none

theorem Directory.cells?_of_initial? {d : Directory} {kind : VarKind} {a : DataArray} {data : Nat}
    {x : a.Content} (h : d.initial? kind = some ⟨a, data, x⟩) : kind.cells? = some (a, data) := by
  cases kind with
  | number t template data' =>
    obtain ⟨y, -, hy⟩ := Option.map_eq_some_iff.1 h
    cases hy
    rfl
  | enumeration members data' =>
    obtain ⟨e, -, he⟩ := Option.map_eq_some_iff.1 h
    cases he
    rfl
  | string default data' =>
    obtain ⟨text, -, htext⟩ := Option.map_eq_some_iff.1 h
    cases htext
    rfl
  | constant text => cases h
  | action => cases h

/-- The last of some variables that owns a cell. -/
def LastOwner (vars : List Descriptor) (a : DataArray) (i : Nat) (v : Descriptor) : Prop :=
  ∃ before after, vars = before ++ v :: after ∧ v.Owns a i ∧ ∀ w ∈ after, ¬w.Owns a i

namespace DataStore

variable {d : Directory} {s s' u u' : DataStore} {v : Descriptor} {vars : List Descriptor}

/-! ## Filling cells -/

theorem getElem?_fillCells {α : Type} (cells : Array α) (first items : Nat) (x : α) (j : Nat) :
    (fillCells cells first items x)[j]? =
      if first ≤ j ∧ j < first + items then cells[j]?.map fun _ => x else cells[j]? := by
  induction items with
  | zero =>
    rw [if_neg (by omega)]
    rfl
  | succ items ih =>
    have hstep : fillCells cells first (items + 1) x =
        (fillCells cells first items x).setIfInBounds (first + items) x := by
      rw [fillCells, Nat.fold_succ]
      rfl
    rw [hstep, Array.getElem?_setIfInBounds, size_fillCells, ih]
    by_cases hj : first + items = j
    · subst hj
      rw [if_pos rfl]
      by_cases hsize : first + items < cells.size
      · rw [if_pos hsize, if_pos (by omega), Array.getElem?_eq_getElem hsize, Option.map_some]
      · rw [if_neg hsize, if_pos (by omega), Array.getElem?_eq_none (by omega), Option.map_none]
    · rw [if_neg hj]
      by_cases hin : first ≤ j ∧ j < first + items
      · rw [if_pos hin, if_pos (by omega)]
      · rw [if_neg hin, if_neg (by omega)]

theorem fill_eq_ok_iff {α : Type} {cells cells' : Array α} {first items : Nat} {x : α} :
    fill cells first items x = .ok cells' ↔
      first + items ≤ cells.size ∧ cells' = fillCells cells first items x := by
  unfold fill
  by_cases h : first + items ≤ cells.size
  · simp [h, eq_comm]
  · simp [h]

/-! ## Resetting one variable -/

/-- Resetting a variable fills its cells with its default; a variable without cells changes
nothing. -/
theorem resetVariable_cases (h : resetVariable d s v = .ok s') :
    (v.kind.cells? = none ∧ s' = s) ∨
      ∃ (a : DataArray) (data : Nat) (x : a.Content), d.initial? v.kind = some ⟨a, data, x⟩ ∧
        data + v.channels.toNat ≤ (s.cells a).size ∧
        s' = s.setCells a (fillCells (s.cells a) data v.channels.toNat x) := by
  unfold resetVariable at h
  unfold Directory.initial?
  cases hk : v.kind with
  | number t template data =>
    simp only [hk, bind_eq_ok, demand_eq_ok, pure_eq_ok, fill_eq_ok_iff] at h
    obtain ⟨x, hx, _, ⟨hsize, rfl⟩, rfl⟩ := h
    exact Or.inr ⟨.number t, data, x.cell, by simp only [hx, Option.map_some], hsize, rfl⟩
  | enumeration members data =>
    simp only [hk, bind_eq_ok, demand_eq_ok, pure_eq_ok, fill_eq_ok_iff] at h
    obtain ⟨e, he, _, ⟨hsize, rfl⟩, rfl⟩ := h
    exact Or.inr ⟨.enums, data, e.defaultValue, by simp only [he, Option.map_some], hsize, rfl⟩
  | string default data =>
    simp only [hk, bind_eq_ok, mapError_eq_ok, pure_eq_ok, fill_eq_ok_iff] at h
    obtain ⟨text, htext, _, ⟨hsize, rfl⟩, rfl⟩ := h
    have hinitial := toOption_eq_some.2 htext
    exact Or.inr ⟨.strings, data, text, by simp only [hinitial, Option.map_some], hsize, rfl⟩
  | constant text =>
    simp only [hk] at h
    cases h
    exact Or.inl ⟨rfl, rfl⟩
  | action =>
    simp only [hk] at h
    cases h
    exact Or.inl ⟨rfl, rfl⟩

/-- Cell by cell, resetting a variable puts its default where it has a cell and keeps the rest. -/
theorem getElem?_of_resetVariable (h : resetVariable d s v = .ok s') (a : DataArray) (i : Nat) :
    (∃ (data : Nat) (x : a.Content), d.initial? v.kind = some ⟨a, data, x⟩ ∧ v.Owns a i ∧
        (s'.cells a)[i]? = some x) ∨
      ¬v.Owns a i ∧ (s'.cells a)[i]? = (s.cells a)[i]? := by
  obtain ⟨hnone, rfl⟩ | ⟨b, data, x, hx, hsize, rfl⟩ := resetVariable_cases h
  · refine Or.inr ⟨?_, rfl⟩
    rintro ⟨data, hcells, -⟩
    rw [hnone] at hcells
    cases hcells
  · have hcells := Directory.cells?_of_initial? hx
    by_cases hb : a = b
    · subst hb
      rw [cells_setCells_self, getElem?_fillCells]
      by_cases hi : data ≤ i ∧ i < data + v.channels.toNat
      · rw [if_pos hi, Array.getElem?_eq_getElem (by omega)]
        exact Or.inl ⟨data, x, hx, ⟨data, hcells, hi⟩, rfl⟩
      · rw [if_neg hi]
        refine Or.inr ⟨?_, rfl⟩
        rintro ⟨data', hcells', hi'⟩
        rw [hcells] at hcells'
        cases hcells'
        exact hi hi'
    · rw [cells_setCells_of_ne s hb]
      refine Or.inr ⟨?_, rfl⟩
      rintro ⟨data', hcells', -⟩
      rw [hcells] at hcells'
      cases hcells'
      exact hb rfl

/-- Resetting a variable touches its own cells only. -/
theorem resetVariable_sameBut (hv : v ∈ vars) (h : resetVariable d s v = .ok s') :
    SameBut vars s s' := by
  intro a i hi
  obtain ⟨_, _, _, howns, _⟩ | ⟨-, hkept⟩ := getElem?_of_resetVariable h a i
  · exact absurd howns (hi v hv)
  · exact hkept.symm

/-- Stores that may differ in the cells of some variables become the same in those of the first
one when it is reset in both. -/
theorem SameBut.resetVariable (h : SameBut (v :: vars) s u)
    (hs : DataStore.resetVariable d s v = .ok s') (hu : DataStore.resetVariable d u v = .ok u') :
    SameBut vars s' u' := by
  intro a i hi
  obtain ⟨data, x, hx, howns, hfilled⟩ | ⟨hfree, hkept⟩ := getElem?_of_resetVariable hs a i
  · obtain ⟨data', x', hx', -, hfilled'⟩ | ⟨hfree, -⟩ := getElem?_of_resetVariable hu a i
    · -- both are filled with the same default
      rw [hx] at hx'
      cases hx'
      rw [hfilled, hfilled']
    · exact absurd howns hfree
  · obtain ⟨_, _, _, howns, _⟩ | ⟨-, hkept'⟩ := getElem?_of_resetVariable hu a i
    · exact absurd howns hfree
    · rw [hkept, hkept']
      apply h a i
      intro w hw
      rcases List.mem_cons.1 hw with rfl | hw
      · exact hfree
      · exact hi w hw

/-! ## Resetting a store -/

/-- Resetting variables one after another touches their cells only. -/
theorem foldlM_resetVariable_sameBut {vs : List Descriptor} (hvs : ∀ v ∈ vs, v ∈ vars)
    (h : vs.foldlM (resetVariable d) s = .ok s') : SameBut vars s s' := by
  induction vs generalizing s with
  | nil =>
    cases h
    exact .refl vars _
  | cons v vs ih =>
    rw [List.foldlM_cons, bind_eq_ok] at h
    obtain ⟨s₁, hv, hrest⟩ := h
    have hfirst := resetVariable_sameBut (hvs v List.mem_cons_self) hv
    exact hfirst.trans (ih (fun w hw => hvs w (List.mem_cons_of_mem v hw)) hrest)

/-- A reset touches cells of variables only. -/
theorem reset_sameBut (h : s.reset d = .ok s') : SameBut d.vars.toList s s' :=
  foldlM_resetVariable_sameBut (fun _ hv => hv) h

/-- After variables were reset one after another, a cell holds the default of its last owner. -/
theorem getElem?_of_lastOwner {vs : List Descriptor} (h : vs.foldlM (resetVariable d) s = .ok s')
    {a : DataArray} {i : Nat} (hv : LastOwner vs a i v) :
    ∃ (data : Nat) (x : a.Content), d.initial? v.kind = some ⟨a, data, x⟩ ∧
      (s'.cells a)[i]? = some x := by
  obtain ⟨before, after, rfl, howns, hlast⟩ := hv
  rw [List.foldlM_append, bind_eq_ok] at h
  obtain ⟨s₁, -, h⟩ := h
  rw [List.foldlM_cons, bind_eq_ok] at h
  obtain ⟨s₂, hone, hrest⟩ := h
  -- no later variable touches the cell any more
  have hkept := foldlM_resetVariable_sameBut (fun _ hw => hw) hrest a i hlast
  obtain ⟨data, x, hx, -, hcell⟩ | ⟨hfree, -⟩ := getElem?_of_resetVariable hone a i
  · exact ⟨data, x, hx, hkept.symm.trans hcell⟩
  · exact absurd howns hfree

/-- **Resets of stores that differ in cells of variables only give the same store.** -/
theorem SameBut.reset (h : SameBut d.vars.toList s u) (hs : s.reset d = .ok s')
    (hu : u.reset d = .ok u') : s' = u' := by
  unfold DataStore.reset at hs hu
  generalize d.vars.toList = vs at h hs hu
  -- one variable after the other no longer makes a difference
  induction vs generalizing s u with
  | nil =>
    cases hs
    cases hu
    exact h.eq
  | cons v vs ih =>
    rw [List.foldlM_cons, bind_eq_ok] at hs hu
    obtain ⟨s₁, hs₁, hs⟩ := hs
    obtain ⟨u₁, hu₁, hu⟩ := hu
    exact ih (h.resetVariable hs₁ hu₁) hs hu

end DataStore

/-! ## Calls between resets -/

namespace Registry

variable {t : TableSet} {r r' : Registry}

/-- A change touches cells of variables only. -/
theorem Belongs.sameBut_change (h : r.Belongs t) (hr : r.Change r') :
    DataStore.SameBut r.directory.vars.toList r.store r'.store := by
  -- a call that stores does so in the cell of an accepted channel
  cases hr with
  | value hd hk hchannel hc hx =>
    exact DataStore.sameBut_setIfInBounds (a := .number _) (mem_vars_of_descriptor hd)
      (h.owns hd (by rw [hk]; rfl) hchannel) _
  | bound b x hd hk hchannel hc =>
    exact DataStore.sameBut_setIfInBounds (a := .number _) (mem_vars_of_descriptor hd)
      (h.owns hd (by rw [hk]; rfl) hchannel) _
  | member hd hk hchannel he hv =>
    exact DataStore.sameBut_setIfInBounds (a := .enums) (mem_vars_of_descriptor hd)
      (h.owns hd (by rw [hk]; rfl) hchannel) _
  | text hd hk hchannel hs =>
    exact DataStore.sameBut_setIfInBounds (a := .strings) (mem_vars_of_descriptor hd)
      (h.owns hd (by rw [hk]; rfl) hchannel) _
  | policy policy => exact .refl _ _
  | reset hreset =>
    simp only [Registry.reset, bind_eq_ok, pure_eq_ok] at hreset
    obtain ⟨s, hs, rfl⟩ := hreset
    exact DataStore.reset_sameBut hs

/-- All registries of a table set have one directory. -/
theorem Belongs.directory_eq (h : r.Belongs t) (h' : r'.Belongs t) :
    r'.directory = r.directory :=
  Except.ok.inj (h'.directory.symm.trans h.directory)

/-- Calls touch cells of variables only: all others are as they were made. -/
theorem Reachable.sameBut_ofCounts (h : Reachable t r) :
    DataStore.SameBut r.directory.vars.toList (.ofCounts r.directory.counts) r.store := by
  induction h with
  | init hr =>
    simp only [Registry.init, bind_eq_ok, pure_eq_ok] at hr
    obtain ⟨d, -, s, hs, rfl⟩ := hr
    exact DataStore.reset_sameBut hs
  | step call hreach ih =>
    have hbelongs := hreach.belongs
    rcases step_change _ call with heq | hchange
    · rw [heq]
      exact ih
    · rw [hbelongs.directory_eq (hbelongs.step call)]
      exact ih.trans (hbelongs.sameBut_change hchange)

/-- A reachable registry began with some registry. -/
theorem Reachable.exists_init (h : Reachable t r) : ∃ r₀, Registry.init t = .ok r₀ := by
  induction h with
  | init hr => exact ⟨_, hr⟩
  | step call _ ih => exact ih

/-- What a reset makes of the store of a reachable registry is the store it began with. -/
theorem Reachable.reset_store {r₀ : Registry} (h : Reachable t r) (hr₀ : Registry.init t = .ok r₀) :
    r.store.reset r.directory = .ok r₀.store := by
  obtain ⟨s, hs, -⟩ := DataStore.reset_eq_ok h.belongs.sound h.belongs.sized
  have hsame := h.sameBut_ofCounts
  simp only [Registry.init, bind_eq_ok, pure_eq_ok] at hr₀
  obtain ⟨d, hd, s₀, hs₀, rfl⟩ := hr₀
  have hdirectory : r.directory = d := Except.ok.inj (h.belongs.directory.symm.trans hd)
  -- in the beginning an empty store was reset, and the store now differs from it in no other cell
  rw [hdirectory] at hs hsame ⊢
  rw [hs, hsame.reset hs₀ hs]

theorem reset_eq_of_store {s : DataStore} (h : r.store.reset r.directory = .ok s) :
    r.reset = .ok { r with store := s } := by
  rw [Registry.reset, h]
  rfl

/-- **A reset undoes every history.** From every state that calls lead to a reset succeeds and
gives back the store with which the registry began, all six arrays of it; the directory and the
policy stay. Resetting once more changes nothing. -/
theorem reset_of_reachable (t : TableSet) (r : Registry) (h : Reachable t r) :
    ∃ r₀ r', Registry.init t = .ok r₀ ∧ r.reset = .ok r' ∧ r'.store = r₀.store ∧
      r'.directory = r.directory ∧ r'.policy = r.policy ∧ r'.reset = .ok r' := by
  obtain ⟨r₀, hr₀⟩ := h.exists_init
  have hinit : Reachable t r₀ := .init hr₀
  have hagain := hinit.reset_store hr₀
  rw [h.belongs.directory_eq hinit.belongs] at hagain
  exact ⟨r₀, { r with store := r₀.store }, hr₀, reset_eq_of_store (h.reset_store hr₀), rfl, rfl,
    rfl, reset_eq_of_store hagain⟩

end Registry

namespace TableSet

/-- Two variables that share a cell, and a cell that belongs to none. -/
def overlapping : TableSet where
  cells := ⟨4, 0, 0, 0⟩
  stringCells := 0
  enumCells := 0
  blob := .empty
  enumWords := #[]
  templates := ⟨#[⟨0, -5, 5⟩, ⟨1, 0, 9⟩], #[], #[], #[]⟩
  vars := #[
    ⟨0, 0xFFFF, 0x1001, 2, 0x0011, 0, 0, 0, 0⟩,
    ⟨1, 0xFFFF, 0x1001, 2, 0x0011, 1, 1, 0, 0⟩]
  policy := .exact

end TableSet

namespace Registry

/-- The shared cell was written to before the reset. -/
theorem reset_of_overlapping : ∃ r, Reachable .overlapping r ∧
    (r.store.numbers.get .int16)[1]? = some ⟨(7 : Int16), 0, 9⟩ ∧
    ∃ r₀ r', Registry.init .overlapping = .ok r₀ ∧ r.reset = .ok r' ∧ r'.store = r₀.store ∧
      r'.directory = r.directory ∧ r'.policy = r.policy ∧ r'.reset = .ok r' := by
  have hwritten : ((Registry.init .overlapping).toOption.bind fun r =>
      ((r.step (.typed .int16 ⟨⟨0⟩, .write, 1, ⟨0x0011⟩⟩ (7 : Int16))).2.store.numbers.get
        .int16)[1]?) = some ⟨(7 : Int16), 0, 9⟩ := by
    decide +kernel
  obtain ⟨r, hr, hcell⟩ := Option.bind_eq_some_iff.1 hwritten
  have hreach := Reachable.step (.typed .int16 ⟨⟨0⟩, .write, 1, ⟨0x0011⟩⟩ (7 : Int16))
    (.init (toOption_eq_some.1 hr))
  exact ⟨_, hreach, hcell, reset_of_reachable .overlapping _ hreach⟩

end Registry

end VariableRegistry
