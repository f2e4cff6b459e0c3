/-
# The layout of built tables

A builder that everything fits puts the variables into the tables in the order of their
declaration: each has its descriptor at its position, and its cells follow those of the variables
before it. So the cells of an array are divided among the variables without a gap.
-/
import Mathlib.Data.List.Induction
import VariableRegistry.Proofs.BuilderSteps

namespace VariableRegistry

/-! ## Cells of declarations -/

/-- The number of channels that a declared variable gets: there is at least one. -/
def Declaration.items (d : Declaration) : UInt16 := if d.channels = 0 then 1 else d.channels

theorem Declaration.toNat_items (d : Declaration) : d.items.toNat = max 1 d.channels.toNat := by
  unfold items
  by_cases h : d.channels = 0
  · rw [if_pos h, h]
    rfl
  · rw [if_neg h]
    rw [← UInt16.toNat_inj] at h
    have hpos : d.channels.toNat ≠ 0 := h
    omega

/-- The number of cells of an array that declared variables take. -/
def cellsOf : List Declaration → DataArray → Nat
  | [], _ => 0
  | d :: ds, a => d.kind.cellsIn d.items a + cellsOf ds a

variable {ds : List Declaration} {d : Declaration} {a : DataArray} {i j : Nat}

theorem cellsOf_append (ds es : List Declaration) (a : DataArray) :
    cellsOf (ds ++ es) a = cellsOf ds a + cellsOf es a := by
  induction ds with
  | nil => rw [List.nil_append, cellsOf, Nat.zero_add]
  | cons d ds ih => rw [List.cons_append, cellsOf, cellsOf, ih, Nat.add_assoc]

theorem cellsOf_take_succ (h : ds[i]? = some d) (a : DataArray) :
    cellsOf (ds.take (i + 1)) a = cellsOf (ds.take i) a + d.kind.cellsIn d.items a := by
  rw [List.take_add_one, h, cellsOf_append]
  simp [cellsOf]

theorem cellsOf_take_le (ds : List Declaration) (h : i ≤ j) (a : DataArray) :
    cellsOf (ds.take i) a ≤ cellsOf (ds.take j) a := by
  obtain ⟨k, rfl⟩ := Nat.exists_eq_add_of_le h
  rw [List.take_add, cellsOf_append]
  exact Nat.le_add_right _ _

/-- The variable at a position takes a cell: it has its cells in this array, and those of the
variables before it come before it. -/
def TakesCell (ds : List Declaration) (i : Nat) (a : DataArray) (cell : Nat) : Prop :=
  ∃ d, ds[i]? = some d ∧ d.kind.array? = some a ∧ cellsOf (ds.take i) a ≤ cell ∧
    cell < cellsOf (ds.take i) a + d.items.toNat

variable {cell : Nat}

theorem TakesCell.lt_take_succ (h : TakesCell ds i a cell) :
    cell < cellsOf (ds.take (i + 1)) a := by
  obtain ⟨d, hd, ha, -, hlt⟩ := h
  rwa [cellsOf_take_succ hd, DeclaredKind.cellsIn, if_pos ha]

/-- The cells that are taken are cells of the array. -/
theorem TakesCell.lt (h : TakesCell ds i a cell) : cell < cellsOf ds a := by
  have hle := cellsOf_take_le ds (Nat.le_max_left (i + 1) ds.length) a
  rw [List.take_of_length_le (Nat.le_max_right (i + 1) ds.length)] at hle
  exact Nat.lt_of_lt_of_le h.lt_take_succ hle

/-- No two variables take the same cell. -/
theorem TakesCell.unique (hi : TakesCell ds i a cell) (hj : TakesCell ds j a cell) : i = j := by
  have hbefore : ∀ {i j : Nat}, TakesCell ds i a cell → TakesCell ds j a cell → ¬i < j := by
    intro i j hi hj hlt
    -- what comes before the later one includes the cells of the earlier one
    have hle := cellsOf_take_le ds hlt a
    obtain ⟨_, -, -, hfirst, -⟩ := hj
    exact absurd (Nat.lt_of_lt_of_le hi.lt_take_succ hle) (Nat.not_lt.2 hfirst)
  exact Nat.le_antisymm (Nat.not_lt.1 (hbefore hj hi)) (Nat.not_lt.1 (hbefore hi hj))

/-- Every cell of an array is taken. -/
theorem exists_takesCell (h : cell < cellsOf ds a) : ∃ i, TakesCell ds i a cell := by
  have hall : ∀ n, cell < cellsOf (ds.take n) a → ∃ i, TakesCell ds i a cell := by
    intro n
    induction n with
    | zero =>
      intro hlt
      exact absurd hlt (Nat.not_lt_zero cell)
    | succ n ih =>
      intro hlt
      by_cases hbefore : cell < cellsOf (ds.take n) a
      · exact ih hbefore
      · cases hd : ds[n]? with
        | none =>
          rw [List.take_add_one, hd] at hlt
          simp only [Option.toList_none, List.append_nil] at hlt
          exact absurd hlt hbefore
        | some d =>
          rw [cellsOf_take_succ hd, DeclaredKind.cellsIn] at hlt
          by_cases ha : d.kind.array? = some a
          · rw [if_pos ha] at hlt
            exact ⟨n, d, hd, ha, Nat.not_lt.1 hbefore, hlt⟩
          · rw [if_neg ha] at hlt
            exact absurd hlt hbefore
  exact hall ds.length (by rwa [List.take_length])

/-! ## Tables that lay out declarations -/

/-- The words of a declared variable at a position, with those for its name and its places. -/
def Declaration.words (d : Declaration) (handle name : UInt16) (places : UInt16 × UInt16 × UInt16) :
    RawDescriptor where
  handle
  name
  type := if 1 < d.items then places.1 ||| VarType.vectorFlag else places.1
  channels := d.items
  rights := d.rights.bits
  source := places.2.1
  data := places.2.2
  storage := d.storage.bits
  format := d.format.code

namespace TableSet

variable {t t' : TableSet} {before : List Declaration} {raw : RawDescriptor}

/-- The words of a descriptor describe a declared variable, given the ones declared before. -/
structure Declares (t : TableSet) (before : List Declaration) (raw : RawDescriptor)
    (d : Declaration) : Prop where
  handle : raw.handle.toNat = before.length
  name : t.NameAt raw.name d.name
  type : raw.type =
    if 1 < d.items then d.kind.typeWord ||| VarType.vectorFlag else d.kind.typeWord
  channels : raw.channels = d.items
  rights : raw.rights = d.rights.bits
  storage : raw.storage = d.storage.bits
  format : raw.format = d.format.code
  places : t.Places raw.source raw.data (cellsOf before) d.kind

theorem Grows.declares (h : t.Grows t') (hraw : t.Declares before raw d) :
    t'.Declares before raw d :=
  { hraw with name := h.nameAt hraw.name, places := h.places hraw.places }

theorem Declares.typeWord_bits (h : t.Declares before raw d) :
    raw.type &&& 0x000F = d.kind.varType.code ∧ raw.type &&& ~~~0x300F = 0 ∧
      (raw.type &&& 0x1000 ≠ 0 ↔ 1 < raw.channels) ∧
      (raw.type &&& 0x2000 ≠ 0 ↔ d.kind.isConstant = true) := by
  have hbits := d.kind.typeWord_bits (decide (1 < d.items)) 
    (show raw.type = _ by simpa using h.type)
  rwa [decide_eq_true_iff, ← h.channels] at hbits

/-- Tables hold declared variables in order and nothing else. -/
structure LaysOut (t : TableSet) (ds : List Declaration) : Prop where
  size : t.vars.size = ds.length
  counts : ∀ a, t.counts.get a = cellsOf ds a
  declares : ∀ (i : Nat) (d : Declaration), ds[i]? = some d →
    ∃ raw, t.vars[i]? = some raw ∧ t.Declares (ds.take i) raw d
  templates : ∀ u, ∀ x ∈ t.templates.get u, ∃ d ∈ ds, d.kind = .number u x
  blob : t.blob.Built

/-- The cells of a variable lie in their array, behind those of the variables before it. -/
theorem LaysOut.cells_le (h : t.LaysOut ds) (hd : ds[i]? = some d) (ha : d.kind.array? = some a) :
    cellsOf (ds.take i) a + d.items.toNat ≤ t.counts.get a := by
  have hle := cellsOf_take_le ds (Nat.le_max_left (i + 1) ds.length) a
  rw [List.take_of_length_le (Nat.le_max_right (i + 1) ds.length), cellsOf_take_succ hd,
    DeclaredKind.cellsIn, if_pos ha] at hle
  rwa [h.counts a]

theorem laysOut_empty (policy : AccessPolicy) : LaysOut { empty with policy } [] where
  size := rfl
  counts := by
    rintro ((_ | _ | _ | _) | _ | _) <;> rfl
  declares := by
    intro i d hd
    cases hd
  templates := by
    rintro (_ | _ | _ | _) x hx <;> simp [empty, PerType.ofFn, PerType.get] at hx
  blob := .empty

theorem Grows.built (h : t.Grows t') (hb : t.blob.Built) : t'.blob.Built := by
  obtain ⟨texts, ht⟩ := h.blob
  rw [ht]
  exact Blob.built_foldl_push hb texts

end TableSet

namespace Builder

variable {b : Builder}

/-! ## Adding variables -/

/-- The builder with a descriptor appended. -/
def withWords (b : Builder) (raw : RawDescriptor) : Builder :=
  { b with tables := { b.tables with vars := b.tables.vars.push raw } }

theorem grows_withWords (b : Builder) (raw : RawDescriptor) :
    b.tables.Grows (b.withWords raw).tables :=
  ⟨⟨[], rfl⟩, List.prefix_refl _, fun _ => List.prefix_refl _⟩

/-- Adding a variable takes a handle, a name and places, one after the other. -/
theorem add_eq {b₁ b₂ b₃ : Builder} {handle name : UInt16} {places : UInt16 × UInt16 × UInt16}
    (htaken : b.narrow b.tables.vars.size .handle = (handle, b₁))
    (hnamed : b₁.placeName d.name = (name, b₂))
    (hplaced : b₂.place d.kind d.items = (places, b₃)) :
    b.add d = (⟨handle⟩, b₃.withWords (d.words handle name places)) := by
  have hitems : (if d.channels = 0 then 1 else d.channels) = d.items := rfl
  unfold add
  simp only [htaken, hnamed, hitems, hplaced]
  rfl

/-- A variable for which everything fits gets its name, its places and the words that say so. -/
theorem add_of_fits (h : (b.add d).2.overflow = none) :
    b.overflow = none ∧ b.tables.vars.size < 0xFFFF ∧
      ∃ (name : UInt16) (places : UInt16 × UInt16 × UInt16) (b' : Builder),
        (b.withName d.name).tables.NameAt name d.name ∧
        (b.withName d.name).tables.Placed d.kind d.items places b'.tables ∧
        b.add d = (⟨UInt16.ofNat b.tables.vars.size⟩,
          b'.withWords (d.words (UInt16.ofNat b.tables.vars.size) name places)) := by
  rcases htaken : b.narrow b.tables.vars.size .handle with ⟨handle, b₁⟩
  rcases hnamed : b₁.placeName d.name with ⟨name, b₂⟩
  rcases hplaced : b₂.place d.kind d.items with ⟨places, b₃⟩
  rw [add_eq htaken hnamed hplaced] at h ⊢
  -- what fits at the end did so at each step
  have hplace : (b₂.place d.kind d.items).2.overflow = none := by
    rw [hplaced]
    exact h
  obtain ⟨hb₂, hplaces⟩ := place_of_fits hplace
  have hname : (b₁.placeName d.name).2.overflow = none := by
    rw [hnamed]
    exact hb₂
  obtain ⟨hb₁, hwith, hat⟩ := placeName_of_fits hname
  have hhandle : (b.narrow b.tables.vars.size .handle).2.overflow = none := by
    rw [htaken]
    exact hb₁
  obtain ⟨hb, hsize, heq⟩ := narrow_of_fits hhandle
  rw [hplaced] at hplaces
  rw [hnamed] at hwith hat
  cases htaken.symm.trans heq
  cases hwith
  exact ⟨hb, hsize, name, places, b₃, hat, hplaces, rfl⟩

theorem tables_withName (b : Builder) (name : Option String) :
    (b.withName name).tables.vars = b.tables.vars ∧
      (b.withName name).tables.counts = b.tables.counts ∧
      (b.withName name).tables.templates = b.tables.templates := by
  cases name <;> exact ⟨rfl, rfl, rfl⟩

/-- A variable is laid out behind those that were added before. -/
theorem laysOut_add (hlays : b.tables.LaysOut ds) (h : (b.add d).2.overflow = none) :
    (b.add d).1.index = ds.length ∧ (b.add d).2.tables.LaysOut (ds ++ [d]) := by
  obtain ⟨-, hsize, name, places, b', hname, hplaced, hadd⟩ := add_of_fits h
  obtain ⟨hvars, hcounts, htemplates⟩ := b.tables_withName d.name
  have hhandle : (UInt16.ofNat b.tables.vars.size).toNat = ds.length := by
    rw [toNat_ofNat_of_fits hsize, hlays.size]
  rw [hadd]
  refine ⟨hhandle, ?_⟩
  generalize hraw : d.words (UInt16.ofNat b.tables.vars.size) name places = raw
  have hlast := b'.grows_withWords raw
  have hgrows : b.tables.Grows (b'.withWords raw).tables :=
    ((b.grows_withName d.name).trans hplaced.grows).trans hlast
  have hpushed : (b'.withWords raw).tables.vars = b.tables.vars.push raw := by
    rw [← hvars, ← hplaced.vars]
    rfl
  refine ⟨?_, ?_, ?_, ?_, hgrows.built hlays.blob⟩
  · rw [hpushed, Array.size_push, hlays.size, List.length_append]
    rfl
  · intro a
    have hone : cellsOf [d] a = d.kind.cellsIn d.items a := by
      simp [cellsOf]
    rw [cellsOf_append, hone, ← hlays.counts a, ← hcounts]
    exact hplaced.counts a
  · intro i e he
    rw [hpushed, Array.getElem?_push, hlays.size]
    rcases Nat.lt_trichotomy i ds.length with hi | rfl | hi
    · -- an earlier variable is where it was
      rw [List.getElem?_append_left hi] at he
      obtain ⟨rawᵢ, hrawᵢ, hdeclares⟩ := hlays.declares i e he
      rw [if_neg (Nat.ne_of_lt hi), List.take_append_of_le_length (Nat.le_of_lt hi)]
      exact ⟨rawᵢ, hrawᵢ, hgrows.declares hdeclares⟩
    · rw [List.getElem?_append_right (Nat.le_refl _), Nat.sub_self] at he
      cases he
      rw [if_pos rfl, List.take_left' rfl]
      refine ⟨raw, rfl, ?_⟩
      have hbefore : (b.withName d.name).tables.counts.get = cellsOf ds := by
        funext a
        rw [hcounts, hlays.counts a]
      subst hraw
      exact {
        handle := hhandle
        name := (hplaced.grows.trans hlast).nameAt hname
        type := by
          rw [← hplaced.type]
          rfl
        channels := rfl
        rights := rfl
        storage := rfl
        format := rfl
        places := hlast.places (hbefore ▸ hplaced.places) }
    · rw [List.getElem?_eq_none (by rw [List.length_append]; exact hi)] at he
      cases he
  · intro u x hx
    rcases hplaced.templates u x hx with hx | hkind
    · rw [htemplates] at hx
      obtain ⟨e, he, hkind⟩ := hlays.templates u x hx
      exact ⟨e, List.mem_append_left _ he, hkind⟩
    · exact ⟨d, List.mem_append_right _ (List.mem_singleton_self d), hkind⟩

/-! ## Adding all variables -/

theorem addAll_concat (b : Builder) (ds : List Declaration) (d : Declaration) :
    b.addAll (ds ++ [d]) =
      ((b.addAll ds).1 ++ [((b.addAll ds).2.add d).1], ((b.addAll ds).2.add d).2) := by
  simp only [addAll, List.foldl_append, List.foldl_cons, List.foldl_nil, List.reverse_cons]

/-- **Declarations for which everything fits are laid out in order, and their handles count
them.** -/
theorem laysOut_addAll (policy : AccessPolicy) (ds : List Declaration)
    (h : ((new policy).addAll ds).2.overflow = none) :
    ((new policy).addAll ds).1.map Handle.index = List.range ds.length ∧
      ((new policy).addAll ds).2.tables.LaysOut ds := by
  -- one declaration after the other, the last one being added to what the others led to
  induction ds using List.reverseRecOn with
  | nil => exact ⟨rfl, TableSet.laysOut_empty policy⟩
  | append_singleton ds d ih =>
    rw [addAll_concat] at h ⊢
    obtain ⟨hfits, -⟩ := add_of_fits h
    obtain ⟨hhandles, hlays⟩ := ih hfits
    obtain ⟨hhandle, hlays'⟩ := laysOut_add hlays h
    refine ⟨?_, hlays'⟩
    rw [List.map_append, hhandles, List.length_append, List.length_singleton, List.range_succ,
      List.map_singleton, hhandle]

theorem build_eq_ok {t : TableSet} : b.build = .ok t ↔ b.overflow = none ∧ b.tables = t := by
  unfold build
  cases b.overflow <;> simp

end Builder

end VariableRegistry
