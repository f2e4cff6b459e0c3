/-
# Calls are local

A call about a channel sees, besides what a registry knows of its variables, no more than the cell
of this channel, and writes to no other cell. So what it answers and what it writes are the same in
all registries that agree there, and calls that have no cell in common can change places.
-/
import VariableRegistry.Proofs.AccessErrors
import VariableRegistry.Proofs.CellWrites
import VariableRegistry.Proofs.DividedCells

namespace VariableRegistry

/-! ## What is seen and what is written -/

namespace Registry

/-- Two registries look the same for a channel: they know the same of their variables, compare
capabilities in the same way, and the cell of the channel holds the same. -/
structure SameAt (r : Registry) (h : Handle) (channel : UInt16) (r' : Registry) : Prop where
  directory : r'.directory = r.directory
  policy : r'.policy = r.policy
  cell : ∀ (a : DataArray) (i : Nat), r.directory.Locates h channel a i →
    (r'.store.cells a)[i]? = (r.store.cells a)[i]?

theorem SameAt.refl (r : Registry) (h : Handle) (channel : UInt16) : r.SameAt h channel r :=
  ⟨rfl, rfl, fun _ _ _ => rfl⟩

end Registry

/-- A change that leaves a registry as it is or puts a content into the cell of a channel. -/
inductive Directory.Writes (dir : Directory) (h : Handle) (channel : UInt16) :
    (Registry → Registry) → Prop where
  | nothing : dir.Writes h channel id
  | cell {a : DataArray} {i : Nat} (hcell : dir.Locates h channel a i) (x : a.Content) :
      dir.Writes h channel fun r => r.write a i x

namespace Registry

variable {r r' : Registry} {h : Handle} {channel : UInt16} {q : Request} {d : Descriptor}
  {t : NumType} {α : Type}

/-- An access has the same result and writes the same in all registries that look the same for a
channel, and what it writes is the cell of this channel. -/
def ActsLocally (r : Registry) (h : Handle) (channel : UInt16) (x : Access α Unit) (v : α) :
    Prop :=
  ∃ (result : Except AccessError Unit) (v' : α) (f : Registry → Registry),
    r.directory.Writes h channel f ∧
      ∀ r', r.SameAt h channel r' → x.outcome v r' = (result, v', f r')

/-! ## Changes of one cell -/

variable {dir : Directory} {h' : Handle} {channel' : UInt16} {f : Registry → Registry}

theorem directory_of_writes (hf : dir.Writes h channel f) (r : Registry) :
    (f r).directory = r.directory := by
  cases hf <;> rfl

theorem policy_of_writes (hf : dir.Writes h channel f) (r : Registry) :
    (f r).policy = r.policy := by
  cases hf <;> rfl

/-- All cells but that of the channel hold what they held. -/
theorem getElem?_of_writes (hf : dir.Writes h channel f) {b : DataArray} {j : Nat}
    (hother : ¬dir.Locates h channel b j) (r : Registry) :
    ((f r).store.cells b)[j]? = (r.store.cells b)[j]? := by
  cases hf with
  | nothing => rfl
  | cell hcell x =>
    apply DataStore.getElem?_write_of_ne
    apply Decidable.not_and_iff_or_not.1
    rintro ⟨rfl, rfl⟩
    exact hother hcell

/-- Registries that look the same for a channel look the same after the same change. -/
theorem SameAt.change_both (hs : r.SameAt h channel r') (hf : dir.Writes h' channel' f) :
    (f r).SameAt h channel (f r') where
  directory := by rw [directory_of_writes hf, directory_of_writes hf, hs.directory]
  policy := by rw [policy_of_writes hf, policy_of_writes hf, hs.policy]
  cell := by
    rw [directory_of_writes hf]
    intro b j hcell
    cases hf with
    | nothing => exact hs.cell b j hcell
    | cell _ x => exact DataStore.getElem?_write_congr x (hs.cell b j hcell)

/-- A change for another channel is not seen if no two variables share a cell. -/
theorem SameAt.change_other (hs : r.SameAt h channel r') (hf : r'.directory.Writes h' channel' f)
    (hdivided : r'.directory.Divided) (hsound : r'.directory.Sound)
    (hne : (h, channel) ≠ (h', channel')) : r.SameAt h channel (f r') where
  directory := (directory_of_writes hf r').trans hs.directory
  policy := (policy_of_writes hf r').trans hs.policy
  cell := by
    intro b j hcell
    refine (getElem?_of_writes hf ?_ r').trans (hs.cell b j hcell)
    intro hcell'
    rw [← hs.directory] at hcell
    obtain ⟨rfl, rfl⟩ := hdivided.locates_unique hsound hcell hcell'
    exact hne rfl

/-! ## Finding cells -/

theorem SameAt.descriptor (hs : r.SameAt h channel r') (handle : Handle) :
    r'.descriptor handle = r.descriptor handle := by
  rw [Registry.descriptor, hs.directory]
  rfl

theorem SameAt.gate (hs : r.SameAt h channel r') (q : Request) : r'.gate q = r.gate q := by
  funext d
  rw [Registry.gate, hs.policy]
  rfl

/-- Where the cell of a channel holds the same, the same is found there. -/
theorem SameAt.cellAt (hs : r.SameAt h channel r') (hd : r.descriptor h = .ok d) {a : DataArray}
    {data : Nat} (hcells : d.kind.cells? = some (a, data))
    (hchannel : d.checkChannel channel = .ok ()) :
    VariableRegistry.cellAt (r'.store.cells a) data channel =
      VariableRegistry.cellAt (r.store.cells a) data channel := by
  have hcell := hs.cell a (data + channel.toNat)
    ⟨d, data, descriptor_eq_ok.1 hd, checkChannel_eq_ok.1 hchannel, hcells, rfl⟩
  rw [VariableRegistry.cellAt, hcell]
  rfl

theorem SameAt.numberCell (hs : r.SameAt h channel r') (t : NumType)
    (check : Descriptor → Except AccessError Unit) :
    r'.numberCell t h channel check = r.numberCell t h channel check := by
  unfold Registry.numberCell
  rw [hs.descriptor h]
  -- the checks before the cell are the same, and so is the cell if they are passed
  apply bind_congr_of_ok
  intro d hd
  apply bind_congr_of_ok
  intro data hdata
  apply bind_congr_of_ok
  intro _ _
  apply bind_congr_of_ok
  intro _ hchannel
  obtain ⟨template, hk⟩ := numberCells?_eq_some.1 (demand_eq_ok.1 hdata)
  have hcells : d.kind.cells? = some (.number t, data) := by rw [hk]; rfl
  exact congrArg (· >>= _) (hs.cellAt hd hcells hchannel)

theorem SameAt.memberCell (hs : r.SameAt h channel r')
    (check : Descriptor → Except AccessError Unit) :
    r'.memberCell h channel check = r.memberCell h channel check := by
  unfold Registry.memberCell
  rw [hs.descriptor h]
  apply bind_congr_of_ok
  intro d hd
  apply bind_congr_of_ok
  intro ⟨members, data⟩ hdata
  apply bind_congr_of_ok
  intro _ _
  apply bind_congr_of_ok
  intro _ hchannel
  have hk := memberCells?_eq_some.1 (demand_eq_ok.1 hdata)
  have hcells : d.kind.cells? = some (.enums, data) := by rw [hk]; rfl
  exact congrArg (· >>= _) (hs.cellAt hd hcells hchannel)

theorem SameAt.stringCell (hs : r.SameAt q.handle q.channel r') {default data : Nat}
    (hd : r.descriptor q.handle = .ok d) (hk : d.kind = .string default data) :
    r'.stringCell q d data = r.stringCell q d data := by
  unfold Registry.stringCell
  rw [hs.gate q]
  apply bind_congr_of_ok
  intro _ hchannel
  apply bind_congr_of_ok
  intro _ _
  have hcells : d.kind.cells? = some (.strings, data) := by rw [hk]; rfl
  exact hs.cellAt hd hcells hchannel

/-! ## Accesses -/

/-- An access that fails in the same way wherever it sees the same acts locally. -/
theorem actsLocally_of_unchanged {x : Access α Unit} {v v' : α}
    {result : Except AccessError Unit}
    (hx : ∀ r', r.SameAt h channel r' → x.outcome v r' = (result, v', r')) :
    r.ActsLocally h channel x v :=
  ⟨result, v', id, .nothing, hx⟩

/-- The cell that was found for a number is that of the channel. -/
theorem locates_of_numberCell {check : Descriptor → Except AccessError Unit} {i : Nat}
    {c : Cell t.Carrier} (hcell : r.numberCell t h channel check = .ok (d, i, c)) :
    r.directory.Locates h channel (.number t) i := by
  obtain ⟨hd, template, data, hk, -, hchannel, hi, -⟩ := numberCell_eq_ok.1 hcell
  exact ⟨d, data, descriptor_eq_ok.1 hd, checkChannel_eq_ok.1 hchannel, by rw [hk]; rfl, hi⟩

theorem actsLocally_number (r : Registry) (t : NumType) (q : Request) (v : t.Carrier) :
    r.ActsLocally q.handle q.channel (number t q) v := by
  have hfind : ∀ r', r.SameAt q.handle q.channel r' →
      r'.numberCell t q.handle q.channel (r'.gate q) =
        r.numberCell t q.handle q.channel (r.gate q) := by
    intro r' hs
    rw [hs.gate q, hs.numberCell]
  rcases hcell : r.numberCell t q.handle q.channel (r.gate q) with e | ⟨d, i, c⟩
  · exact actsLocally_of_unchanged fun r' hs => by
      simp only [outcome_number, hfind r' hs, hcell]
      rfl
  · cases hq : q.direction with
    | read =>
      exact actsLocally_of_unchanged fun r' hs => by
        simp only [outcome_number, hfind r' hs, hcell, hq]
        rfl
    | write =>
      cases hx : boundedValue t d.rights c v with
      | error e =>
        exact actsLocally_of_unchanged fun r' hs => by
          simp only [outcome_number, hfind r' hs, hcell, hq, hx]
          rfl
      | ok x =>
        refine ⟨.ok (), v, _, .cell (locates_of_numberCell hcell) { c with value := x }, ?_⟩
        intro r' hs
        simp only [outcome_number, hfind r' hs, hcell, hq, hx]
        rfl

/-- The cell that was found for a member is that of the channel. -/
theorem locates_of_memberCell {check : Descriptor → Except AccessError Unit} {members i : Nat}
    {x : Int16} (hcell : r.memberCell h channel check = .ok (members, i, x)) :
    r.directory.Locates h channel .enums i := by
  obtain ⟨d, data, hd, hk, -, hchannel, hi, -⟩ := memberCell_eq_ok.1 hcell
  exact ⟨d, data, descriptor_eq_ok.1 hd, checkChannel_eq_ok.1 hchannel, by rw [hk]; rfl, hi⟩

theorem actsLocally_member (r : Registry) (q : Request) (v : Int16) :
    r.ActsLocally q.handle q.channel (member q) v := by
  have hfind : ∀ r', r.SameAt q.handle q.channel r' →
      r'.memberCell q.handle q.channel (r'.gate q) =
        r.memberCell q.handle q.channel (r.gate q) := by
    intro r' hs
    rw [hs.gate q, hs.memberCell]
  rcases hcell : r.memberCell q.handle q.channel (r.gate q) with e | ⟨members, i, x⟩
  · exact actsLocally_of_unchanged fun r' hs => by
      simp only [outcome_member, hfind r' hs, hcell]
      rfl
  · cases hq : q.direction with
    | read =>
      exact actsLocally_of_unchanged fun r' hs => by
        simp only [outcome_member, hfind r' hs, hcell, hq]
        rfl
    | write =>
      cases he : r.directory.enumeration members with
      | error e =>
        exact actsLocally_of_unchanged fun r' hs => by
          simp only [outcome_member, hfind r' hs, hcell, hq, hs.directory, he]
          rfl
      | ok m =>
        by_cases hv : m.contains v = true
        · refine ⟨.ok (), v, _, .cell (locates_of_memberCell hcell) v, ?_⟩
          intro r' hs
          simp only [outcome_member, hfind r' hs, hcell, hq, hs.directory, he, hv]
          rfl
        · exact actsLocally_of_unchanged fun r' hs => by
            simp only [outcome_member, hfind r' hs, hcell, hq, hs.directory, he, hv]
            rfl

/-- An access that does the same as another one wherever it sees the same acts locally, too. -/
theorem ActsLocally.congr {x y : Access α Unit} {v : α} (hy : r.ActsLocally h channel y v)
    (hxy : ∀ r', r.SameAt h channel r' → x.outcome v r' = y.outcome v r') :
    r.ActsLocally h channel x v := by
  obtain ⟨result, v', f, hf, houtcome⟩ := hy
  exact ⟨result, v', f, hf, fun r' hs => (hxy r' hs).trans (houtcome r' hs)⟩

theorem actsLocally_typed (r : Registry) (t : NumType) (q : Request) (v : t.Carrier) :
    r.ActsLocally q.handle q.channel (typed t q) v := by
  by_cases hmember : t = .int16 ∧ ∃ d members data, r.descriptor q.handle = .ok d ∧
      d.kind = .enumeration members data
  · obtain ⟨rfl, d, members, data, hd, hk⟩ := hmember
    refine (actsLocally_member r q v).congr fun r' hs => ?_
    exact outcome_typed_member ((hs.descriptor q.handle).trans hd) hk
  · refine (actsLocally_number r t q v).congr fun r' hs => outcome_typed_number ?_
    intro ht d members data hd hk
    exact hmember ⟨ht, d, members, data, (hs.descriptor q.handle).symm.trans hd, hk⟩

/-! ## Accesses as text -/

theorem actsLocally_textual (r : Registry) (t : NumType) (q : Request) (format : Format)
    (parse : String → Except AccessError t.Carrier) (s : String) :
    r.ActsLocally q.handle q.channel (textual t q format parse) s := by
  cases hq : q.direction with
  | write =>
    cases hv : parse s with
    | error e =>
      exact actsLocally_of_unchanged fun r' hs => by
        simp only [outcome_textual, hq, hv]
        rfl
    | ok v =>
      obtain ⟨result, v', f, hf, houtcome⟩ := actsLocally_typed r t q v
      refine ⟨result, s, f, hf, fun r' hs => ?_⟩
      simp only [outcome_textual, hq, hv, houtcome r' hs]
  | read =>
    obtain ⟨result, v', f, hf, houtcome⟩ := actsLocally_typed r t q t.zero
    cases result with
    | error e =>
      refine ⟨.error e, s, f, hf, fun r' hs => ?_⟩
      simp only [outcome_textual, hq, houtcome r' hs]
    | ok _ =>
      refine ⟨.ok (), t.render v' format, f, hf, fun r' hs => ?_⟩
      simp only [outcome_textual, hq, houtcome r' hs]

theorem actsLocally_string (q : Request) {default data : Nat}
    (hd : r.descriptor q.handle = .ok d) (hk : d.kind = .string default data) (s : String) :
    r.ActsLocally q.handle q.channel (string q d data) s := by
  rcases hcell : r.stringCell q d data with e | ⟨i, current⟩
  · exact actsLocally_of_unchanged fun r' hs => by
      simp only [outcome_string, hs.stringCell hd hk, hcell]
      rfl
  · cases hq : q.direction with
    | read =>
      exact actsLocally_of_unchanged fun r' hs => by
        simp only [outcome_string, hs.stringCell hd hk, hcell, hq]
        rfl
    | write =>
      by_cases hfits : fitsCell (beforeZero s) = true
      · obtain ⟨hchannel, -, hi, -⟩ := stringCell_eq_ok.1 hcell
        have hlocates : r.directory.Locates q.handle q.channel .strings i :=
          ⟨d, data, descriptor_eq_ok.1 hd, checkChannel_eq_ok.1 hchannel, by rw [hk]; rfl, hi⟩
        refine ⟨.ok (), s, _, .cell hlocates (beforeZero s), fun r' hs => ?_⟩
        simp only [outcome_string, hs.stringCell hd hk, hcell, hq, hfits]
        rfl
      · exact actsLocally_of_unchanged fun r' hs => by
          simp only [outcome_string, hs.stringCell hd hk, hcell, hq, hfits]
          rfl

/-- A constant text is among what a registry knows of its variables. -/
theorem actsLocally_constant (r : Registry) (q : Request) (d : Descriptor) (offset : Nat)
    (s : String) : r.ActsLocally q.handle q.channel (constant q d offset) s := by
  refine ⟨((constant q d offset).outcome s r).1, ((constant q d offset).outcome s r).2.1, id,
    .nothing, fun r' hs => ?_⟩
  simp only [outcome_constant, hs.directory, hs.gate q]
  cases d.checkChannel q.channel with
  | error e => rfl
  | ok _ =>
    cases q.direction with
    | write => rfl
    | read =>
      cases r.gate q d with
      | error e => rfl
      | ok _ => cases r.directory.blob.textAt? offset <;> rfl

/-- What a text names in an enumeration is among what a registry knows of its variables. -/
theorem SameAt.parseMember (hs : r.SameAt h channel r') (members : Nat) :
    r'.parseMember members = r.parseMember members := by
  funext s
  unfold Registry.parseMember
  rw [hs.directory]

theorem actsLocally_text (r : Registry) (q : Request) (s : String) :
    r.ActsLocally q.handle q.channel (text q) s := by
  cases hd : r.descriptor q.handle with
  | error e =>
    exact actsLocally_of_unchanged fun r' hs => by
      simp only [outcome_text, hs.descriptor, hd]
      rfl
  | ok d =>
    have hkind : ∀ r', r.SameAt q.handle q.channel r' → r'.descriptor q.handle = .ok d :=
      fun r' hs => (hs.descriptor q.handle).trans hd
    cases hk : d.kind with
    | number t template data =>
      refine (actsLocally_textual r t q d.format (t.parse d.format) s).congr fun r' hs => ?_
      simp only [outcome_text, hkind r' hs, hk]
    | enumeration members data =>
      refine (actsLocally_textual r .int16 q d.format (r.parseMember members) s).congr
        fun r' hs => ?_
      simp only [outcome_text, hkind r' hs, hk, hs.parseMember members]
    | string default data =>
      refine (actsLocally_string q hd hk s).congr fun r' hs => ?_
      simp only [outcome_text, hkind r' hs, hk]
    | constant offset =>
      refine (actsLocally_constant r q d offset s).congr fun r' hs => ?_
      simp only [outcome_text, hkind r' hs, hk]
    | action =>
      exact actsLocally_of_unchanged fun r' hs => by
        simp only [outcome_text, hkind r' hs, hk]
        rfl

/-! ## Accesses to bounds -/

theorem SameAt.boundType (hs : r.SameAt h channel r') (length : Nat) :
    r'.boundType h length = r.boundType h length := by
  unfold Registry.boundType
  rw [hs.descriptor h]

theorem SameAt.boundValue (hs : r.SameAt h channel r') (b : Bound) :
    r'.boundValue b h channel = r.boundValue b h channel := by
  unfold Registry.boundValue
  simp only [hs.descriptor h, hs.numberCell]

theorem actsLocally_getBound (r : Registry) (b : Bound) (h : Handle) (channel : UInt16)
    (buffer : List UInt8) : r.ActsLocally h channel (getBound b h channel) buffer := by
  refine ⟨((getBound b h channel).outcome buffer r).1,
    ((getBound b h channel).outcome buffer r).2.1, id, .nothing, fun r' hs => ?_⟩
  simp only [outcome_getBound, hs.boundType, hs.numberCell]
  cases r.boundType h buffer.length with
  | error e => rfl
  | ok t =>
    simp only
    rcases r.numberCell t h channel fun _ => .ok () with e | ⟨d, i, c⟩ <;> rfl

theorem actsLocally_setBound (r : Registry) (b : Bound) (h : Handle) (bytes : List UInt8)
    (channel : UInt16) : r.ActsLocally h channel (setBound b h bytes channel) () := by
  cases ht : r.boundType h bytes.length with
  | error e =>
    exact actsLocally_of_unchanged fun r' hs => by
      simp only [outcome_setBound, hs.boundType, ht]
      rfl
  | ok t =>
    rcases hcell : r.numberCell t h channel fun _ => .ok () with e | ⟨d, i, c⟩
    · exact actsLocally_of_unchanged fun r' hs => by
        simp only [outcome_setBound, hs.boundType, ht, hs.numberCell, hcell]
        rfl
    · refine ⟨.ok (), (), _, .cell (locates_of_numberCell hcell) (b.set c (t.ofBytes bytes)), ?_⟩
      intro r' hs
      simp only [outcome_setBound, hs.boundType, ht, hs.numberCell, hcell]
      rfl

theorem actsLocally_setBoundValue (r : Registry) (b : Bound) (h : Handle) (v : NumValue)
    (channel : UInt16) : r.ActsLocally h channel (setBoundValue b h v channel) () := by
  rcases hcell : r.numberCell v.type h channel fun _ => .ok () with e | ⟨d, i, c⟩
  · exact actsLocally_of_unchanged fun r' hs => by
      simp only [outcome_setBoundValue, hs.numberCell, hcell]
      rfl
  · refine ⟨.ok (), (), _, .cell (locates_of_numberCell hcell) (b.set c v.value), fun r' hs => ?_⟩
    simp only [outcome_setBoundValue, hs.numberCell, hcell]
    rfl

/-! ## Calls -/

/-- **A call about a channel is local.** It answers and writes the same in all registries that look
the same for the channel, and what it writes is the cell of this channel. -/
theorem step_local (r : Registry) {call : Call} (htarget : call.target? = some (h, channel)) :
    ∃ reply f, r.directory.Writes h channel f ∧
      ∀ r', r.SameAt h channel r' → r'.step call = (reply, f r') := by
  cases call with
  | typed t q v =>
    cases htarget
    obtain ⟨result, v', f, hf, houtcome⟩ := actsLocally_typed r t q v
    exact ⟨.typed t result v', f, hf, fun r' hs => by simp only [step, houtcome r' hs]⟩
  | text q s =>
    cases htarget
    obtain ⟨result, s', f, hf, houtcome⟩ := actsLocally_text r q s
    exact ⟨.text result s', f, hf, fun r' hs => by simp only [step, houtcome r' hs]⟩
  | getBound b h buffer channel =>
    cases htarget
    obtain ⟨result, buffer', f, hf, houtcome⟩ := actsLocally_getBound r b h channel buffer
    exact ⟨.buffer result buffer', f, hf, fun r' hs => by simp only [step, houtcome r' hs]⟩
  | setBound b h bytes channel =>
    cases htarget
    obtain ⟨result, _, f, hf, houtcome⟩ := actsLocally_setBound r b h bytes channel
    exact ⟨.done result, f, hf, fun r' hs => by simp only [step, houtcome r' hs]⟩
  | boundValue b h channel =>
    cases htarget
    refine ⟨.bound (r.boundValue b h channel), id, .nothing, fun r' hs => ?_⟩
    simp only [step, hs.boundValue]
    rfl
  | setBoundValue b h v channel =>
    cases htarget
    obtain ⟨result, _, f, hf, houtcome⟩ := actsLocally_setBoundValue r b h v channel
    exact ⟨.done result, f, hf, fun r' hs => by simp only [step, houtcome r' hs]⟩
  | setPolicy policy => cases htarget
  | dump h buffer channel => cases htarget
  | reset => cases htarget

end Registry

end VariableRegistry
