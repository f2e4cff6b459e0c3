/-
# Finding the cell of a channel

Every access first finds the cell that it is about. What it takes to find one is stated here once
for each way of looking, and so is the frame of the three updates: all but one cell stay.
-/
import VariableRegistry.Registry.Bound
import VariableRegistry.Registry.Text

namespace VariableRegistry

/-! ## Handles and channels -/

theorem descriptor_eq_ok {r : Registry} {h : Handle} {d : Descriptor} :
    r.descriptor h = .ok d ↔ r.directory.vars[h.index]? = some d := by
  unfold Registry.descriptor Directory.var
  exact demand_eq_ok

theorem numberCells?_eq_some {t : NumType} {kind : VarKind} {data : Nat} :
    kind.numberCells? t = some data ↔ ∃ template, kind = .number t template data := by
  cases kind with
  | number u template data' =>
    by_cases h : u = t
    · subst h
      simp [VarKind.numberCells?]
    · simp [VarKind.numberCells?, h]
  | _ => simp [VarKind.numberCells?]

theorem memberCells?_eq_some {kind : VarKind} {members data : Nat} :
    kind.memberCells? = some (members, data) ↔ kind = .enumeration members data := by
  cases kind <;> simp [VarKind.memberCells?]

theorem numType?_eq_some {kind : VarKind} {t : NumType} :
    kind.numType? = some t ↔ ∃ template data, kind = .number t template data := by
  cases kind <;> simp [VarKind.numType?]

theorem cellAt_eq_ok {α : Type} {cells : Array α} {data : Nat} {channel : UInt16} {i : Nat}
    {c : α} :
    cellAt cells data channel = .ok (i, c) ↔
      i = data + channel.toNat ∧ cells[data + channel.toNat]? = some c := by
  unfold cellAt
  cases cells[data + channel.toNat]? <;> simp [demand, Except.map, eq_comm]

/-- A variable has a channel: the first one, or any channel of a vector below their number. -/
def Descriptor.HasChannel (d : Descriptor) (channel : UInt16) : Prop :=
  channel = 0 ∨ d.vector = true ∧ channel < d.channels

/-- The channels that are accepted are those that the variable has. -/
theorem checkChannel_eq_ok {d : Descriptor} {channel : UInt16} :
    d.checkChannel channel = .ok () ↔ d.HasChannel channel := by
  unfold Descriptor.checkChannel Descriptor.checkVector Descriptor.HasChannel
  by_cases h0 : channel = 0
  · simp [h0]
  · have hpos : 0 < channel := UInt16.pos_iff_ne_zero.2 h0
    cases hv : d.vector <;> by_cases hc : d.channels ≤ channel <;>
      simp [hpos, h0, hc, UInt16.not_le.1, UInt16.not_lt.2]

/-! ## Cells -/

theorem numberCell_eq_ok {t : NumType} {r : Registry} {h : Handle} {channel : UInt16}
    {check : Descriptor → Except AccessError Unit} {d : Descriptor} {i : Nat}
    {c : Cell t.Carrier} :
    r.numberCell t h channel check = .ok (d, i, c) ↔
      r.descriptor h = .ok d ∧ ∃ template data, d.kind = .number t template data ∧
        check d = .ok () ∧ d.checkChannel channel = .ok () ∧ i = data + channel.toNat ∧
        (r.store.numbers.get t)[data + channel.toNat]? = some c := by
  simp only [Registry.numberCell, bind_eq_ok, demand_eq_ok, numberCells?_eq_some, pure_eq_ok]
  constructor
  · rintro ⟨d', hd, data, ⟨template, hk⟩, _, hcheck, _, hchannel, ⟨i', c'⟩, hcell, heq⟩
    cases heq
    exact ⟨hd, template, data, hk, hcheck, hchannel, cellAt_eq_ok.1 hcell⟩
  · rintro ⟨hd, template, data, hk, hcheck, hchannel, hcell⟩
    exact ⟨d, hd, data, ⟨template, hk⟩, (), hcheck, (), hchannel, (i, c),
      cellAt_eq_ok.2 hcell, rfl⟩

theorem memberCell_eq_ok {r : Registry} {h : Handle} {channel : UInt16}
    {check : Descriptor → Except AccessError Unit} {members i : Nat} {x : Int16} :
    r.memberCell h channel check = .ok (members, i, x) ↔
      ∃ d data, r.descriptor h = .ok d ∧ d.kind = .enumeration members data ∧
        check d = .ok () ∧ d.checkChannel channel = .ok () ∧ i = data + channel.toNat ∧
        r.store.enums[data + channel.toNat]? = some x := by
  simp only [Registry.memberCell, bind_eq_ok, demand_eq_ok, pure_eq_ok]
  constructor
  · rintro ⟨d, hd, ⟨members', data⟩, hk, _, hcheck, _, hchannel, ⟨i', x'⟩, hcell, heq⟩
    cases heq
    exact ⟨d, data, hd, memberCells?_eq_some.1 hk, hcheck, hchannel, cellAt_eq_ok.1 hcell⟩
  · rintro ⟨d, data, hd, hk, hcheck, hchannel, hcell⟩
    exact ⟨d, hd, (members, data), memberCells?_eq_some.2 hk, (), hcheck, (), hchannel, (i, x),
      cellAt_eq_ok.2 hcell, rfl⟩

theorem stringCell_eq_ok {r : Registry} {q : Request} {d : Descriptor} {data i : Nat}
    {s : String} :
    r.stringCell q d data = .ok (i, s) ↔
      d.checkChannel q.channel = .ok () ∧ r.gate q d = .ok () ∧ i = data + q.channel.toNat ∧
        r.store.strings[data + q.channel.toNat]? = some s := by
  simp only [Registry.stringCell, bind_eq_ok, cellAt_eq_ok]
  constructor
  · rintro ⟨_, hchannel, _, hgate, hcell⟩
    exact ⟨hchannel, hgate, hcell⟩
  · rintro ⟨hchannel, hgate, hcell⟩
    exact ⟨(), hchannel, (), hgate, hcell⟩

end VariableRegistry
