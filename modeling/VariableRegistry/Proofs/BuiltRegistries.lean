/-
# Registries of built tables

A registry that begins with built tables says of every variable what was declared, every channel
reads as the default that was declared, and the arrays are divided among the variables: each cell
belongs to exactly one of them.
-/
import VariableRegistry.Proofs.BuiltDirectories
import VariableRegistry.Proofs.TypedContract

namespace VariableRegistry

namespace Registry

/-! ## What is presented -/

/-- A request that asks for a channel is answered with the declared default, and changes
nothing. A constant is cut to what a string cell could hold. -/
def ReadsDefault (r : Registry) (q : Request) : DeclaredKind → Prop
  | .number u x => ∀ v, r.step (.typed u q v) = (.typed u (.ok ()) x.default, r)
  | .enumeration default members => ∃ m, members[default.toNat]? = some m ∧
      ∀ v, r.step (.typed .int16 q v) = (.typed .int16 (.ok ()) m.1, r)
  | .string text => ∀ s, r.step (.text q s) = (.text (.ok ()) (beforeZero text), r)
  | .constant text => ∃ part, Utf8.IsCut 31 (beforeZero text).toList part ∧
      ∀ s, r.step (.text q s) = (.text (.ok ()) (String.ofList part), r)
  | .action => True

/-- What a registry says of the variable with a handle is what was declared. -/
structure Presents (r : Registry) (h : Handle) (d : Declaration) : Prop where
  type : r.varType h = .ok d.kind.varType
  channels : ∃ n, r.channels h = .ok n ∧ n.toNat = max 1 d.channels.toNat
  rights : ∀ channel, r.rights h channel = .ok d.rights
  storage : r.storage h = .ok d.storage
  format : r.format h = .ok d.format
  /-- The name counts up to its first zero character. -/
  name : r.name? h = d.name.map beforeZero
  /-- Each channel of a number has the declared bounds. -/
  bounds : ∀ u x, d.kind = .number u x → ∀ b channel, channel.toNat < max 1 d.channels.toNat →
    r.step (.boundValue b h channel) = (.bound (.ok ⟨u, b.get x.cell⟩), r)
  /-- An enumeration has the declared members in their order. -/
  members : ∀ default members, d.kind = .enumeration default members →
    r.enumeration h = .ok ⟨default.toNat, members.map Member.unnamed⟩
  /-- Each channel reads as the default for everyone whose rights suffice. -/
  defaults : ∀ q : Request, q.handle = h → q.direction = .read →
    q.channel.toNat < max 1 d.channels.toNat →
    checkAccess d.rights .read q.requester r.policy = .ok () → r.ReadsDefault q d.kind

/-- A registry is a faithful image of declarations that were given handles and built into tables. -/
structure Faithful (r : Registry) (t : TableSet) (handles : List Handle) (ds : List Declaration) :
    Prop where
  /-- The handles count the declarations. -/
  inOrder : handles.map Handle.index = List.range ds.length
  /-- There are no variables but those declared. -/
  size : r.directory.vars.size = ds.length
  presents : ∀ (i : Nat) (h : Handle) (d : Declaration), handles[i]? = some h → ds[i]? = some d →
    r.Presents h d
  /-- A name leads to the first declaration that has it. -/
  find : ∀ name, r.find? name =
    (ds.findIdx? fun d => d.name.map beforeZero = some name).bind (handles[·]?)
  /-- Each array has as many cells as the tables count. -/
  counts : ∀ a, (r.store.cells a).size = t.counts.get a
  /-- The cells of each array are those of the variables. -/
  covers : ∀ a cell, cell < t.counts.get a ↔
    ∃ (i : Nat) (v : Descriptor), r.directory.vars[i]? = some v ∧ v.Owns a cell
  /-- No two variables share a cell. -/
  disjoint : ∀ a cell (i j : Nat) (v w : Descriptor), r.directory.vars[i]? = some v →
    r.directory.vars[j]? = some w → v.Owns a cell → w.Owns a cell → i = j

variable {t : TableSet} {r : Registry} {ds : List Declaration} {d : Declaration} {i : Nat}
  {v : Descriptor} {a : DataArray} {cell : Nat}

/-! ## Cells -/

/-- The registry began with tables that lay out declarations. -/
structure BeginsWith (t : TableSet) (ds : List Declaration) (r : Registry) : Prop where
  laysOut : t.LaysOut ds
  init : Registry.init t = .ok r

theorem BeginsWith.belongs (h : BeginsWith t ds r) : r.Belongs t := belongs_of_init h.init

theorem BeginsWith.describes (h : BeginsWith t ds r) (hd : ds[i]? = some d) :
    ∃ v, r.directory.vars[i]? = some v ∧ r.directory.Describes (ds.take i) v d :=
  h.laysOut.describes h.belongs.directory hd

/-- A cell belongs to the variable at a position if its declaration takes the cell. -/
theorem BeginsWith.owns_iff (h : BeginsWith t ds r) (hv : r.directory.vars[i]? = some v) :
    v.Owns a cell ↔ TakesCell ds i a cell := by
  obtain ⟨d, hd, hdescribes⟩ := h.laysOut.declared h.belongs.directory hv
  exact hdescribes.owns_iff hd

theorem BeginsWith.size_cells (h : BeginsWith t ds r) (a : DataArray) :
    (r.store.cells a).size = t.counts.get a := by
  rw [h.belongs.sized.cells a, (TableSet.blob_of_directory h.belongs.directory).2.2]

/-- A variable finds its own default in each of its cells. -/
theorem BeginsWith.getElem?_cells (h : BeginsWith t ds r) (hv : r.directory.vars[i]? = some v)
    {data : Nat} {x : a.Content} (hx : r.directory.initial? v.kind = some ⟨a, data, x⟩)
    {channel : Nat} (hchannel : channel < v.channels.toNat) :
    (r.store.cells a)[data + channel]? = some x := by
  have howns : v.Owns a (data + channel) :=
    ⟨data, Directory.cells?_of_initial? hx, Nat.le_add_right _ _, Nat.add_lt_add_left hchannel data⟩
  have hinit := h.init
  simp only [Registry.init, bind_eq_ok, pure_eq_ok] at hinit
  obtain ⟨dir, -, s, hs, rfl⟩ := hinit
  -- no later variable has the cell
  have hlast : LastOwner dir.vars.toList a (data + channel) v := by
    obtain ⟨hlt, hi⟩ := List.getElem?_eq_some_iff.1 (Array.getElem?_toList ▸ hv)
    refine ⟨dir.vars.toList.take i, dir.vars.toList.drop (i + 1), ?_, howns, ?_⟩
    · rw [← hi, ← List.drop_eq_getElem_cons hlt, List.take_append_drop]
    · intro w hw hwowns
      obtain ⟨j, hj⟩ := List.mem_iff_getElem?.1 hw
      rw [List.getElem?_drop, Array.getElem?_toList] at hj
      have hij : i = i + 1 + j := ((h.owns_iff hv).1 howns).unique ((h.owns_iff hj).1 hwowns)
      omega
  obtain ⟨data', x', hx', hcell⟩ := DataStore.getElem?_of_lastOwner hs hlast
  rw [hx] at hx'
  cases hx'
  exact hcell

/-! ## Reading -/

theorem hasChannel_of_describes {dir : Directory} {before : List Declaration}
    (h : dir.Describes before v d) {channel : UInt16}
    (hchannel : channel.toNat < max 1 d.channels.toNat) : v.HasChannel channel := by
  rw [← d.toNat_items] at hchannel
  by_cases hzero : channel = 0
  · exact Or.inl hzero
  · refine Or.inr ⟨?_, ?_⟩
    · rw [h.vector, decide_eq_true_eq, UInt16.lt_iff_toNat_lt]
      have hpos : 0 < channel.toNat := UInt16.lt_iff_toNat_lt.1 (UInt16.pos_iff_ne_zero.2 hzero)
      exact Nat.lt_of_le_of_lt hpos hchannel
    · rw [h.channels]
      exact UInt16.lt_iff_toNat_lt.2 hchannel

/-- A granted request for a channel of a variable is admitted. -/
theorem admits_of_describes {before : List Declaration} {q : Request}
    (hv : r.directory.vars[q.handle.index]? = some v)
    (hdescribes : r.directory.Describes before v d)
    (hread : q.direction = .read) (hchannel : q.channel.toNat < max 1 d.channels.toNat)
    (hgranted : checkAccess d.rights .read q.requester r.policy = .ok ()) : r.Admits q v where
  known := hv
  grants := by
    apply Classical.byContradiction
    intro hdenied
    have hgate := gate_of_not_grants hdenied
    rw [gate, hdescribes.rights, hread, hgranted] at hgate
    cases hgate
  channel := hasChannel_of_describes hdescribes hchannel

/-! ## What cells hold -/

section

variable (h : BeginsWith t ds r) {before : List Declaration}
  (hv : r.directory.vars[i]? = some v) (hdescribes : r.directory.Describes before v d)

include h hv hdescribes

/-- A declared variable has its default in a cell for each declared channel. -/
theorem BeginsWith.getElem?_declared {data : Nat} {x : a.Content}
    (hx : r.directory.initial? v.kind = some ⟨a, data, x⟩) {channel : Nat}
    (hchannel : channel < max 1 d.channels.toNat) :
    (r.store.cells a)[data + channel]? = some x := by
  rw [← d.toNat_items, ← hdescribes.channels] at hchannel
  exact h.getElem?_cells hv hx hchannel

/-- The cells of a number hold the declared default and bounds. -/
theorem BeginsWith.numberCells {u : NumType} {x : Template u.Carrier} (hk : d.kind = .number u x) :
    ∃ template data, v.kind = .number u template data ∧
      ∀ channel, channel < max 1 d.channels.toNat →
        (r.store.numbers.get u)[data + channel]? = some x.cell := by
  have hholds := hdescribes.kind
  rw [hk] at hholds
  obtain ⟨template, hkind, hx⟩ := hholds
  have hinitial : r.directory.initial? v.kind =
      some ⟨.number u, cellsOf before (.number u), x.cell⟩ := by
    simp only [hkind, Directory.initial?, hx, Option.map_some]
  exact ⟨template, _, hkind, fun _ => h.getElem?_declared (a := .number u) hv hdescribes hinitial⟩

/-- The cells of an enumeration hold the value of the declared default. -/
theorem BeginsWith.memberCells {default : UInt16} {members : List (Int16 × String)}
    (hk : d.kind = .enumeration default members) :
    ∃ position data m, v.kind = .enumeration position data ∧ members[default.toNat]? = some m ∧
      r.directory.enums[position]? = some ⟨default.toNat, members.map Member.unnamed⟩ ∧
      ∀ channel, channel < max 1 d.channels.toNat →
        r.store.enums[data + channel]? = some m.1 := by
  have hholds := hdescribes.kind
  rw [hk] at hholds
  obtain ⟨position, hkind, hlt, he⟩ := hholds
  have hm : members[default.toNat]? = some members[default.toNat] := List.getElem?_eq_getElem hlt
  have hvalue : Enumeration.defaultValue ⟨default.toNat, members.map Member.unnamed⟩ =
      members[default.toNat].1 := by
    simp only [Enumeration.defaultValue, List.getElem?_map, hm]
    rfl
  have hinitial : r.directory.initial? v.kind =
      some ⟨.enums, cellsOf before .enums, members[default.toNat].1⟩ := by
    simp only [hkind, Directory.initial?, he, Option.map_some, hvalue]
  exact ⟨position, _, _, hkind, hm, he,
    fun _ => h.getElem?_declared (a := .enums) hv hdescribes hinitial⟩

/-- The cells of a string hold the declared text up to its first zero character. -/
theorem BeginsWith.stringCells {text : String} (hk : d.kind = .string text) :
    ∃ offset data, v.kind = .string offset data ∧
      ∀ channel, channel < max 1 d.channels.toNat →
        r.store.strings[data + channel]? = some (beforeZero text) := by
  have hholds := hdescribes.kind
  rw [hk] at hholds
  obtain ⟨offset, hkind, htext⟩ := hholds
  have hinitial : r.directory.initial? v.kind =
      some ⟨.strings, cellsOf before .strings, beforeZero text⟩ := by
    simp only [hkind, Directory.initial?, toOption_eq_some.2 htext, Option.map_some]
  exact ⟨offset, _, hkind, fun _ => h.getElem?_declared (a := .strings) hv hdescribes hinitial⟩

end

/-- A granted request that reads a declared variable gets the declared default. -/
theorem BeginsWith.readsDefault (h : BeginsWith t ds r) {before : List Declaration} {q : Request}
    (hv : r.directory.vars[q.handle.index]? = some v)
    (hdescribes : r.directory.Describes before v d) (hread : q.direction = .read)
    (hchannel : q.channel.toNat < max 1 d.channels.toNat)
    (hgranted : checkAccess d.rights .read q.requester r.policy = .ok ()) :
    r.ReadsDefault q d.kind := by
  have hadmits := admits_of_describes hv hdescribes hread hchannel hgranted
  have hgate := gate_of_grants hadmits.grants
  have haccepted := checkChannel_eq_ok.2 hadmits.channel
  have hknown := descriptor_eq_ok.2 hv
  cases hk : d.kind with
  | number u x =>
    obtain ⟨template, data, hkind, hcells⟩ := h.numberCells hv hdescribes hk
    intro value
    have houtcome := hadmits.outcome_number hkind (hcells _ hchannel) value
    simp only [hread] at houtcome
    simp only [step, houtcome]
    rfl
  | enumeration default members =>
    obtain ⟨position, data, m, hkind, hm, he, hcells⟩ := h.memberCells hv hdescribes hk
    refine ⟨m, hm, ?_⟩
    intro value
    have houtcome := hadmits.outcome_member hkind he (hcells _ hchannel) value
    simp only [hread] at houtcome
    simp only [step, houtcome]
  | string text =>
    obtain ⟨offset, data, hkind, hcells⟩ := h.stringCells hv hdescribes hk
    have hcell : r.stringCell q v data = .ok (data + q.channel.toNat, beforeZero text) :=
      stringCell_eq_ok.2 ⟨haccepted, hgate, rfl, hcells _ hchannel⟩
    intro s
    have houtcome : (Registry.text q).outcome s r = (.ok (), beforeZero text, r) := by
      simp only [outcome_text, hknown, hkind, outcome_string, hcell, hread]
    simp only [step, houtcome]
  | constant text =>
    have hholds := hdescribes.kind
    rw [hk] at hholds
    obtain ⟨offset, hkind, htext⟩ := hholds
    refine ⟨_, Utf8.isCut_take 31 (beforeZero text).toList, ?_⟩
    intro s
    have houtcome : (Registry.text q).outcome s r =
        (.ok (), String.ofList (Utf8.take 31 (beforeZero text).toList), r) := by
      simp only [outcome_text, hknown, hkind, outcome_constant, haccepted, hread, hgate, htext]
      rfl
    simp only [step, houtcome]
  | action => trivial

/-- **A declared variable is presented as it was declared.** -/
theorem BeginsWith.presents (h : BeginsWith t ds r) {handle : Handle} (hhandle : handle.index = i)
    (hd : ds[i]? = some d) : r.Presents handle d := by
  subst hhandle
  obtain ⟨v, hv, hdescribes⟩ := h.describes hd
  have hknown := descriptor_eq_ok.2 hv
  exact {
    type := by
      rw [Registry.varType, hknown]
      exact congrArg Except.ok hdescribes.kind.shape.1
    channels := by
      refine ⟨v.channels, by rw [Registry.channels, hknown]; rfl, ?_⟩
      rw [hdescribes.channels, d.toNat_items]
    rights := by
      intro channel
      rw [Registry.rights, hknown]
      exact congrArg Except.ok hdescribes.rights
    storage := by
      rw [Registry.storage, hknown]
      exact congrArg Except.ok hdescribes.storage
    format := by
      rw [Registry.format, hknown]
      exact congrArg Except.ok hdescribes.format
    name := by
      rw [Registry.name?, hknown]
      exact hdescribes.name
    bounds := by
      intro u x hk b channel hchannel
      obtain ⟨template, data, hkind, hcells⟩ := h.numberCells hv hdescribes hk
      have hcell : r.numberCell u handle channel (fun _ => .ok ()) =
          .ok (v, data + channel.toNat, x.cell) :=
        numberCell_eq_ok.2 ⟨hknown, template, data, hkind, rfl,
          checkChannel_eq_ok.2 (hasChannel_of_describes hdescribes hchannel), rfl,
          hcells _ hchannel⟩
      have hvalue : r.boundValue b handle channel = .ok ⟨u, b.get x.cell⟩ := by
        simp only [boundValue, hknown, ok_bind, hkind, VarKind.numType?, demand_some, hcell]
        rfl
      simp only [step, hvalue]
    members := by
      intro default members hk
      obtain ⟨position, data, m, hkind, -, he, -⟩ := h.memberCells hv hdescribes hk
      simp only [Registry.enumeration, hknown, ok_bind, hkind, Directory.enumeration, he,
        demand_some]
    defaults := by
      rintro q rfl hread hchannel hgranted
      exact h.readsDefault hv hdescribes hread hchannel hgranted }

/-! ## Names -/

/-- A name leads to the position of the first declaration that has it. -/
theorem BeginsWith.find (h : BeginsWith t ds r) (name : String) :
    (r.find? name).map Handle.index =
      ds.findIdx? fun d => d.name.map beforeZero = some name := by
  have hdirectory := h.belongs.directory
  rw [Registry.find?, Option.map_map]
  cases hfound : ds.findIdx? fun d => d.name.map beforeZero = some name with
  | none =>
    rw [List.findIdx?_eq_none_iff] at hfound
    rw [Option.map_eq_none_iff, Array.find?_eq_none]
    intro v hv
    obtain ⟨i, hi⟩ := Array.mem_iff_getElem?.1 hv
    obtain ⟨d, hd, hdescribes⟩ := h.laysOut.declared hdirectory hi
    rw [hdescribes.name]
    exact ne_of_eq_of_ne (hfound d (List.mem_of_getElem? hd)) Bool.false_ne_true
  | some i =>
    obtain ⟨hi, hname, hfirst⟩ := List.findIdx?_eq_some_iff_getElem.1 hfound
    obtain ⟨v, hv, hdescribes⟩ := h.describes (List.getElem?_eq_getElem hi)
    obtain ⟨hlt, rfl⟩ := Array.getElem?_eq_some_iff.1 hv
    have hfind : r.directory.vars.find? (fun d => d.name = some name) =
        some r.directory.vars[i] := by
      rw [Array.find?_eq_some_iff_getElem]
      refine ⟨by rw [hdescribes.name]; exact hname, i, hlt, rfl, ?_⟩
      intro j hj
      obtain ⟨w, hw, hdescribes'⟩ := h.describes (List.getElem?_eq_getElem (Nat.lt_trans hj hi))
      obtain ⟨hlt', rfl⟩ := Array.getElem?_eq_some_iff.1 hw
      rw [hdescribes'.name]
      have hother := hfirst j hj
      simpa using hother
    have hposition := hdescribes.handle
    rw [List.length_take, Nat.min_eq_left (Nat.le_of_lt hi)] at hposition
    rw [hfind]
    exact congrArg some hposition

theorem index_injective : Function.Injective Handle.index := by
  rintro ⟨h⟩ ⟨h'⟩ heq
  exact congrArg Handle.mk (UInt16.toNat_inj.1 heq)

/-! ## Faithful registries -/

/-- **Built tables are a faithful image of the declarations.** If a builder that was given
declarations finishes its tables, and a registry begins with them, then the handles count the
declarations, the registry says of each variable what was declared, and the cells of every array
are divided among the variables. -/
theorem faithful_of_built (policy : AccessPolicy) (ds : List Declaration) (t : TableSet)
    (r : Registry) (hbuild : ((Builder.new policy).addAll ds).2.build = .ok t)
    (hinit : Registry.init t = .ok r) :
    r.Faithful t ((Builder.new policy).addAll ds).1 ds := by
  obtain ⟨hfits, rfl⟩ := Builder.build_eq_ok.1 hbuild
  obtain ⟨hhandles, hlays⟩ := Builder.laysOut_addAll policy ds hfits
  have h : BeginsWith ((Builder.new policy).addAll ds).2.tables ds r := ⟨hlays, hinit⟩
  generalize ((Builder.new policy).addAll ds).2.tables = t at h
  generalize ((Builder.new policy).addAll ds).1 = handles at hhandles
  have hhandle : ∀ i : Nat, (handles[i]?).map Handle.index = (List.range ds.length)[i]? := by
    intro i
    rw [← hhandles, List.getElem?_map]
  exact {
    inOrder := hhandles
    size := h.laysOut.size_vars h.belongs.directory
    presents := by
      intro i handle d hi hd
      obtain ⟨hlt, -⟩ := List.getElem?_eq_some_iff.1 hd
      have hindex := hhandle i
      rw [hi, List.getElem?_range hlt] at hindex
      exact h.presents (Option.some.inj hindex) hd
    find := by
      intro name
      apply Option.map_injective index_injective
      rw [h.find name]
      cases hfound : ds.findIdx? fun d => d.name.map beforeZero = some name with
      | none => rfl
      | some i =>
        obtain ⟨hi, -⟩ := List.findIdx?_eq_some_iff_getElem.1 hfound
        exact ((hhandle i).trans (List.getElem?_range hi)).symm
    counts := h.size_cells
    covers := by
      intro a cell
      rw [h.laysOut.counts a]
      constructor
      · intro hlt
        obtain ⟨i, htakes⟩ := exists_takesCell hlt
        obtain ⟨d, hd, -⟩ := id htakes
        obtain ⟨v, hv, hdescribes⟩ := h.describes hd
        exact ⟨i, v, hv, (hdescribes.owns_iff hd).2 htakes⟩
      · rintro ⟨i, v, hv, howns⟩
        exact ((h.owns_iff hv).1 howns).lt
    disjoint := by
      intro a cell i j v w hv hw hvowns hwowns
      exact ((h.owns_iff hv).1 hvowns).unique ((h.owns_iff hw).1 hwowns) }

end Registry

/-- Two texts with the same name, one of them with a zero character in it, behind a nameless
number and an enumeration of several channels. -/
def namesakes : List Declaration := [
  (Declaration.new "N" (.number .int32 ⟨1, 0, 9⟩)).modifyAll [.hidden],
  (Declaration.new "E" (.enumeration 1 [(3, "off"), (7, "on")])).modifyAll [.vector 3],
  (Declaration.new "S" (.string "one\x00two")).modifyAll [.vector 2],
  (Declaration.new "S" (.constant "a constant text of more than thirty-one bytes")).modifyAll []]

namespace Registry

theorem faithful_of_namesakes : ∃ t r,
    ((Builder.new .exact).addAll namesakes).2.build = .ok t ∧ Registry.init t = .ok r ∧
      r.Faithful t ((Builder.new .exact).addAll namesakes).1 namesakes := by
  have hbuilt : (((Builder.new .exact).addAll namesakes).2.build.toOption.bind fun t =>
      (Registry.init t).toOption).isSome = true := by
    decide +kernel
  obtain ⟨r, hr⟩ := Option.isSome_iff_exists.1 hbuilt
  obtain ⟨t, ht, hinit⟩ := Option.bind_eq_some_iff.1 hr
  rw [toOption_eq_some] at ht hinit
  exact ⟨t, r, ht, hinit, faithful_of_built .exact namesakes t r ht hinit⟩

end Registry

end VariableRegistry
