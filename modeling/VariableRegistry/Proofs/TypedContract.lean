/-
# The contract of typed access

What a typed access answers and what it leaves behind, rule by rule: one rule for each check that
may fail, in the order of the checks, and one for each way to read and to write. In the states that
calls lead to, exactly one rule applies, and the access does what it says.
-/
import VariableRegistry.Proofs.Acceptance
import VariableRegistry.Proofs.Frames
import VariableRegistry.Proofs.Gating
import VariableRegistry.Proofs.NoEffect
import VariableRegistry.Proofs.Soundness

namespace VariableRegistry

/-! ## What is checked -/

/-- A variable can be reached as a number type: it is declared with it, or it is an enumeration and
is reached as `INT16`. -/
def Descriptor.DeclaredAs (d : Descriptor) (t : NumType) : Prop :=
  d.varType = .number t ∨ t = .int16 ∧ d.varType = .enumeration

namespace Registry

/-! ## The rules -/

/-- All checks that come before the cells are passed. -/
structure Admits (r : Registry) (q : Request) (d : Descriptor) : Prop where
  known : r.directory.vars[q.handle.index]? = some d
  grants : r.Grants d q
  channel : d.HasChannel q.channel

/-- A value is not to be written: it is no number where there are bounds to meet, or it is above
the maximum or below the minimum where it must not be. -/
def Refuses {t : NumType} (rights : Rights) (c : Cell t.Carrier) (v : t.Carrier) : Prop :=
  (rights.isLimit = true ∨ rights.isClip = true) ∧ t.isNaN v = true ∨
    rights.isLimit = true ∧ (t.lt c.max v = true ∨ t.lt v c.min = true)

/-- What a write leaves in a cell: the value, or the bound that it is beyond if it is clipped. -/
def clipped {t : NumType} (rights : Rights) (c : Cell t.Carrier) (v : t.Carrier) : t.Carrier :=
  if rights.isClip = true ∧ t.lt c.max v = true then c.max
  else if rights.isClip = true ∧ t.lt v c.min = true then c.min
  else v

/-- **The contract of typed access**: the result, the value that the caller gets back and the
registry afterwards, for a request and the value that the caller hands in. -/
inductive TypedContract (r : Registry) (q : Request) :
    (t : NumType) → t.Carrier → Except AccessError Unit → t.Carrier → Registry → Prop where
  | unknownHandle {t : NumType} {v : t.Carrier} (h : r.directory.vars[q.handle.index]? = none) :
      TypedContract r q t v (.error .unknownHandle) v r
  | invalidType {t : NumType} {v : t.Carrier} {d : Descriptor}
      (hd : r.directory.vars[q.handle.index]? = some d) (ht : ¬d.DeclaredAs t) :
      TypedContract r q t v (.error .invalidType) v r
  | accessDenied {t : NumType} {v : t.Carrier} {d : Descriptor}
      (hd : r.directory.vars[q.handle.index]? = some d) (ht : d.DeclaredAs t)
      (hg : ¬r.Grants d q) : TypedContract r q t v (.error .accessDenied) v r
  | notVector {t : NumType} {v : t.Carrier} {d : Descriptor}
      (hd : r.directory.vars[q.handle.index]? = some d) (ht : d.DeclaredAs t) (hg : r.Grants d q)
      (hpos : 0 < q.channel) (hv : d.vector = false) :
      TypedContract r q t v (.error .notVector) v r
  | invalidChannel {t : NumType} {v : t.Carrier} {d : Descriptor}
      (hd : r.directory.vars[q.handle.index]? = some d) (ht : d.DeclaredAs t) (hg : r.Grants d q)
      (hpos : 0 < q.channel) (hv : d.vector = true) (hlast : d.channels ≤ q.channel) :
      TypedContract r q t v (.error .invalidChannel) v r
  | readNumber {t : NumType} {v : t.Carrier} {d : Descriptor} {template data : Nat}
      {c : Cell t.Carrier} (h : r.Admits q d) (hk : d.kind = .number t template data)
      (hq : q.direction = .read)
      (hc : (r.store.numbers.get t)[data + q.channel.toNat]? = some c) :
      TypedContract r q t v (.ok ()) c.value r
  | noNumber {t : NumType} {v : t.Carrier} {d : Descriptor} {template data : Nat}
      (h : r.Admits q d) (hk : d.kind = .number t template data) (hq : q.direction = .write)
      (hbounds : d.rights.isLimit = true ∨ d.rights.isClip = true) (hv : t.isNaN v = true) :
      TypedContract r q t v (.error .invalidValue) v r
  | upperLimit {t : NumType} {v : t.Carrier} {d : Descriptor} {template data : Nat}
      {c : Cell t.Carrier} (h : r.Admits q d) (hk : d.kind = .number t template data)
      (hq : q.direction = .write)
      (hc : (r.store.numbers.get t)[data + q.channel.toNat]? = some c)
      (hlimit : d.rights.isLimit = true) (hnumber : t.isNaN v = false)
      (hmax : t.lt c.max v = true) : TypedContract r q t v (.error .upperLimit) v r
  | lowerLimit {t : NumType} {v : t.Carrier} {d : Descriptor} {template data : Nat}
      {c : Cell t.Carrier} (h : r.Admits q d) (hk : d.kind = .number t template data)
      (hq : q.direction = .write)
      (hc : (r.store.numbers.get t)[data + q.channel.toNat]? = some c)
      (hlimit : d.rights.isLimit = true) (hnumber : t.isNaN v = false)
      (hmax : t.lt c.max v = false) (hmin : t.lt v c.min = true) :
      TypedContract r q t v (.error .lowerLimit) v r
  | writeNumber {t : NumType} {v : t.Carrier} {d : Descriptor} {template data : Nat}
      {c : Cell t.Carrier} {r' : Registry} (h : r.Admits q d)
      (hk : d.kind = .number t template data) (hq : q.direction = .write)
      (hc : (r.store.numbers.get t)[data + q.channel.toNat]? = some c)
      (hv : ¬Refuses d.rights c v)
      (hr : r.NumberReplaced t (data + q.channel.toNat)
        (fun c => { c with value := clipped d.rights c v }) r') :
      TypedContract r q t v (.ok ()) v r'
  | readMember {v : Int16} {d : Descriptor} {members data : Nat} {x : Int16} (h : r.Admits q d)
      (hk : d.kind = .enumeration members data) (hq : q.direction = .read)
      (hc : r.store.enums[data + q.channel.toNat]? = some x) :
      TypedContract r q .int16 v (.ok ()) x r
  | invalidEnum {v : Int16} {d : Descriptor} {members data : Nat} {e : Enumeration}
      (h : r.Admits q d) (hk : d.kind = .enumeration members data) (hq : q.direction = .write)
      (he : r.directory.enums[members]? = some e) (hv : ∀ m ∈ e.members, m.value ≠ v) :
      TypedContract r q .int16 v (.error .invalidEnum) v r
  | writeMember {v : Int16} {d : Descriptor} {members data : Nat} {e : Enumeration}
      {r' : Registry} (h : r.Admits q d) (hk : d.kind = .enumeration members data)
      (hq : q.direction = .write) (he : r.directory.enums[members]? = some e)
      (hv : ∃ m ∈ e.members, m.value = v)
      (hr : r.MemberReplaced (data + q.channel.toNat) v r') :
      TypedContract r q .int16 v (.ok ()) v r'

variable {r r' : Registry} {q : Request} {d : Descriptor} {tables : TableSet}

/-! ## Checks before the cells -/

/-- A variable that is reached as a number type is a number of this type or an enumeration. -/
theorem declaredAs_cases {t : NumType} (h : d.DeclaredAs t) :
    (∃ template data, d.kind = .number t template data) ∨
      t = .int16 ∧ ∃ members data, d.kind = .enumeration members data := by
  unfold Descriptor.DeclaredAs Descriptor.varType at h
  cases hk : d.kind <;> simp_all [VarKind.varType]

/-- Access to a number goes the way of numbers. -/
theorem outcome_typed_of_number {t : NumType} {template data : Nat}
    (hd : r.directory.vars[q.handle.index]? = some d) (hk : d.kind = .number t template data)
    (v : t.Carrier) : (typed t q).outcome v r = (number t q).outcome v r := by
  refine outcome_typed_number fun _ d' members data' hd' hk' => ?_
  rw [descriptor_eq_ok, hd] at hd'
  cases hd'
  rw [hk] at hk'
  cases hk'

/-- A check that fails before the cells ends typed access. -/
theorem outcome_typed_of_check {t : NumType} {e : AccessError}
    (hd : r.directory.vars[q.handle.index]? = some d) (ht : d.DeclaredAs t)
    (hcheck : (r.gate q d >>= fun _ => d.checkChannel q.channel) = .error e) (v : t.Carrier) :
    (typed t q).outcome v r = (.error e, v, r) := by
  have hknown := descriptor_eq_ok.2 hd
  rcases declaredAs_cases ht with ⟨template, data, hk⟩ | ⟨rfl, members, data, hk⟩
  · have hcell : r.numberCell t q.handle q.channel (r.gate q) = .error e := by
      unfold numberCell
      rw [hknown, ok_bind, numberCells?_eq_some.2 ⟨template, hk⟩, demand_some, ok_bind]
      exact bind_eq_error hcheck
    rw [outcome_typed_of_number hd hk, outcome_number, hcell]
  · have hcell : r.memberCell q.handle q.channel (r.gate q) = .error e := by
      unfold memberCell
      rw [hknown, ok_bind, memberCells?_eq_some.2 hk, demand_some, ok_bind]
      exact bind_eq_error hcheck
    rw [outcome_typed_member hknown hk, outcome_member, hcell]

theorem check_of_not_grants (hg : ¬r.Grants d q) :
    (r.gate q d >>= fun _ => d.checkChannel q.channel) = .error .accessDenied := by
  rw [gate_of_not_grants hg]
  rfl

theorem check_of_checkChannel {e : AccessError} (hg : r.Grants d q)
    (hchannel : d.checkChannel q.channel = .error e) :
    (r.gate q d >>= fun _ => d.checkChannel q.channel) = .error e := by
  rw [gate_of_grants hg]
  exact hchannel

/-- Without a variable typed access fails at once. -/
theorem outcome_unknown {t : NumType} (h : r.directory.vars[q.handle.index]? = none)
    (v : t.Carrier) : (typed t q).outcome v r = (.error .unknownHandle, v, r) := by
  have hunknown : r.descriptor q.handle = .error .unknownHandle := by
    unfold descriptor Directory.var
    rw [h]
    rfl
  have hcell : r.numberCell t q.handle q.channel (r.gate q) = .error .unknownHandle := by
    unfold numberCell
    rw [hunknown]
    rfl
  rw [outcome_typed_number, outcome_number, hcell]
  intro _ d members data hd
  rw [hunknown] at hd
  cases hd

/-- A variable of another type is not reached. -/
theorem outcome_of_other_type {t : NumType} (hd : r.directory.vars[q.handle.index]? = some d)
    (ht : ¬d.DeclaredAs t) (v : t.Carrier) :
    (typed t q).outcome v r = (.error .invalidType, v, r) := by
  have hnone : d.kind.numberCells? t = none := by
    cases hdata : d.kind.numberCells? t with
    | none => rfl
    | some data =>
      obtain ⟨template, hk⟩ := numberCells?_eq_some.1 hdata
      exact absurd (Or.inl (by rw [Descriptor.varType, hk]; rfl)) ht
  -- an enumeration would be reached as `INT16`, so what is left is access to a number
  have hcell : r.numberCell t q.handle q.channel (r.gate q) = .error .invalidType := by
    unfold numberCell
    rw [descriptor_eq_ok.2 hd, ok_bind, hnone]
    rfl
  rw [outcome_typed_number, outcome_number, hcell]
  rintro rfl d' members data hd' hk
  rw [descriptor_eq_ok, hd] at hd'
  cases hd'
  exact ht (Or.inr ⟨rfl, by rw [Descriptor.varType, hk]; rfl⟩)

/-! ## Requests that are admitted -/

/-- A channel of a number that a request was admitted to has its cell. -/
theorem Admits.number_cell (h : r.Admits q d) (hr : r.Belongs tables) {t : NumType}
    {template data : Nat} (hk : d.kind = .number t template data) :
    ∃ c, (r.store.numbers.get t)[data + q.channel.toNat]? = some c :=
  hr.exists_numberCell (descriptor_eq_ok.2 h.known) hk (checkChannel_eq_ok.2 h.channel)

/-- A channel of an enumeration that a request was admitted to has its cell. -/
theorem Admits.member_cell (h : r.Admits q d) (hr : r.Belongs tables) {members data : Nat}
    (hk : d.kind = .enumeration members data) :
    ∃ x, r.store.enums[data + q.channel.toNat]? = some x :=
  hr.exists_memberCell (descriptor_eq_ok.2 h.known) hk (checkChannel_eq_ok.2 h.channel)

/-- What an admitted request does to a number. -/
theorem Admits.outcome_number (h : r.Admits q d) {t : NumType} {template data : Nat}
    {c : Cell t.Carrier} (hk : d.kind = .number t template data)
    (hc : (r.store.numbers.get t)[data + q.channel.toNat]? = some c) (v : t.Carrier) :
    (typed t q).outcome v r =
      match q.direction with
      | .read => (.ok (), c.value, r)
      | .write =>
        match boundedValue t d.rights c v with
        | .error e => (.error e, v, r)
        | .ok x => (.ok (), v, r.setCell t (data + q.channel.toNat) { c with value := x }) := by
  have hcell : r.numberCell t q.handle q.channel (r.gate q) =
      .ok (d, data + q.channel.toNat, c) :=
    numberCell_eq_ok.2 ⟨descriptor_eq_ok.2 h.known, template, data, hk, gate_of_grants h.grants,
      checkChannel_eq_ok.2 h.channel, rfl, hc⟩
  rw [outcome_typed_of_number h.known hk, Registry.outcome_number]
  cases q.direction with
  | read => simp only [hcell]
  | write => cases hx : boundedValue t d.rights c v <;> simp only [hcell, hx]

/-- What an admitted request does to an enumeration. -/
theorem Admits.outcome_member (h : r.Admits q d) {members data : Nat} {x : Int16}
    {e : Enumeration} (hk : d.kind = .enumeration members data)
    (he : r.directory.enums[members]? = some e)
    (hc : r.store.enums[data + q.channel.toNat]? = some x) (v : Int16) :
    (typed .int16 q).outcome v r =
      match q.direction with
      | .read => (.ok (), x, r)
      | .write =>
        if e.contains v then (.ok (), v, r.setEnum (data + q.channel.toNat) v)
        else (.error .invalidEnum, v, r) := by
  have hcell : r.memberCell q.handle q.channel (r.gate q) =
      .ok (members, data + q.channel.toNat, x) :=
    memberCell_eq_ok.2 ⟨d, data, descriptor_eq_ok.2 h.known, hk, gate_of_grants h.grants,
      checkChannel_eq_ok.2 h.channel, rfl, hc⟩
  rw [outcome_typed_member (descriptor_eq_ok.2 h.known) hk, Registry.outcome_member]
  cases q.direction <;> simp only [hcell, Directory.enumeration, he, demand_some]

/-! ## Values -/

/-- A value that is not refused is stored, clipped where the rights say so. -/
theorem boundedValue_of_not_refuses {t : NumType} {rights : Rights} {c : Cell t.Carrier}
    {v : t.Carrier} (h : ¬Refuses rights c v) :
    boundedValue t rights c v = .ok (clipped rights c v) := by
  obtain ⟨hnumber, hlimits⟩ := not_or.1 h
  unfold boundedValue clipped
  cases hlimit : rights.isLimit with
  | true =>
    -- the value is within both bounds, so clipping has nothing to do
    obtain ⟨hmax, hmin⟩ := not_or.1 fun hbeyond => hlimits ⟨hlimit, hbeyond⟩
    have hnan : ¬t.isNaN v = true := fun hv => hnumber ⟨Or.inl hlimit, hv⟩
    simp [hnan, hmax, hmin]
  | false =>
    cases hclip : rights.isClip with
    | true =>
      have hnan : ¬t.isNaN v = true := fun hv => hnumber ⟨Or.inr hclip, hv⟩
      by_cases hmax : t.lt c.max v = true <;> by_cases hmin : t.lt v c.min = true <;>
        simp [hnan, hmax, hmin]
    | false => simp

/-- Whether a value is that of a member. -/
theorem contains_iff (e : Enumeration) (v : Int16) :
    e.contains v = true ↔ ∃ m ∈ e.members, m.value = v := by
  rw [Enumeration.contains, List.any_eq_true]
  simp only [decide_eq_true_eq]

/-! ## One rule applies -/

/-- Typed access does what a rule says that applies. -/
theorem outcome_of_rule (hr : r.Belongs tables) {t : NumType} {v v' : t.Carrier}
    {o : Except AccessError Unit} (h : TypedContract r q t v o v' r') :
    (typed t q).outcome v r = (o, v', r') := by
  cases h with
  | unknownHandle h => exact outcome_unknown h v
  | invalidType hd ht => exact outcome_of_other_type hd ht v
  | accessDenied hd ht hg => exact outcome_typed_of_check hd ht (check_of_not_grants hg) v
  | notVector hd ht hg hpos hv =>
    exact outcome_typed_of_check hd ht
      (check_of_checkChannel hg (checkChannel_of_scalar hpos hv)) v
  | invalidChannel hd ht hg hpos hv hlast =>
    exact outcome_typed_of_check hd ht
      (check_of_checkChannel hg (checkChannel_of_last hpos hv hlast)) v
  | readNumber h hk hq hc =>
    rw [h.outcome_number hk hc, hq]
  | noNumber h hk hq hbounds hv =>
    obtain ⟨c, hc⟩ := h.number_cell hr hk
    rw [h.outcome_number hk hc, hq]
    rcases hbounds with hlimit | hclip
    · simp [boundedValue, hlimit, hv]
    · simp [boundedValue, hclip, hv]
  | upperLimit h hk hq hc hlimit hnumber hmax =>
    rw [h.outcome_number hk hc, hq]
    simp [boundedValue, hlimit, hnumber, hmax]
  | lowerLimit h hk hq hc hlimit hnumber hmax hmin =>
    rw [h.outcome_number hk hc, hq]
    simp [boundedValue, hlimit, hnumber, hmax, hmin]
  | writeNumber h hk hq hc hv hr' =>
    rw [numberReplaced_iff hc] at hr'
    rw [h.outcome_number hk hc, hq, hr']
    simp only [boundedValue_of_not_refuses hv]
  | readMember h hk hq hc =>
    obtain ⟨e, he⟩ := hr.exists_enumeration (descriptor_eq_ok.2 h.known) hk
    rw [h.outcome_member hk he hc, hq]
  | invalidEnum h hk hq he hv =>
    obtain ⟨x, hc⟩ := h.member_cell hr hk
    have hother := mt (contains_iff _ _).1 fun ⟨m, hm, hvalue⟩ => hv m hm hvalue
    rw [h.outcome_member hk he hc, hq]
    exact if_neg hother
  | writeMember h hk hq he hv hr' =>
    obtain ⟨x, hc⟩ := h.member_cell hr hk
    rw [memberReplaced_iff hc] at hr'
    rw [h.outcome_member hk he hc, hq, hr']
    exact if_pos ((contains_iff _ _).2 hv)

/-- To a request for a number that is admitted some rule applies. -/
theorem exists_rule_of_number (hr : r.Belongs tables) (h : r.Admits q d) {t : NumType}
    {template data : Nat} (hk : d.kind = .number t template data) (v : t.Carrier) :
    ∃ o v' r', TypedContract r q t v o v' r' := by
  obtain ⟨c, hc⟩ := h.number_cell hr hk
  cases hq : q.direction with
  | read => exact ⟨_, _, _, .readNumber h hk hq hc⟩
  | write =>
    by_cases hv : Refuses d.rights c v
    · rcases hv with ⟨hbounds, hnan⟩ | ⟨hlimit, hbeyond⟩
      · exact ⟨_, _, _, .noNumber h hk hq hbounds hnan⟩
      · -- beyond both bounds it is above the maximum first
        cases hnan : t.isNaN v with
        | true => exact ⟨_, _, _, .noNumber h hk hq (Or.inl hlimit) hnan⟩
        | false =>
          cases hmax : t.lt c.max v with
          | true => exact ⟨_, _, _, .upperLimit h hk hq hc hlimit hnan hmax⟩
          | false =>
            have hmin : t.lt v c.min = true := hbeyond.resolve_left (by rw [hmax]; decide)
            exact ⟨_, _, _, .lowerLimit h hk hq hc hlimit hnan hmax hmin⟩
    · exact ⟨_, _, _, .writeNumber h hk hq hc hv ((numberReplaced_iff hc _).2 rfl)⟩

/-- To a request for an enumeration that is admitted some rule applies. -/
theorem exists_rule_of_member (hr : r.Belongs tables) (h : r.Admits q d) {members data : Nat}
    (hk : d.kind = .enumeration members data) (v : Int16) :
    ∃ o v' r', TypedContract r q .int16 v o v' r' := by
  obtain ⟨e, he⟩ := hr.exists_enumeration (descriptor_eq_ok.2 h.known) hk
  obtain ⟨x, hc⟩ := h.member_cell hr hk
  cases hq : q.direction with
  | read => exact ⟨_, _, _, .readMember h hk hq hc⟩
  | write =>
    by_cases hv : ∃ m ∈ e.members, m.value = v
    · exact ⟨_, _, _, .writeMember h hk hq he hv ((memberReplaced_iff hc).2 rfl)⟩
    · exact ⟨_, _, _, .invalidEnum h hk hq he fun m hm hmv => hv ⟨m, hm, hmv⟩⟩

/-- In a registry of a table set some rule applies to every request. -/
theorem exists_rule (hr : r.Belongs tables) (q : Request) (t : NumType) (v : t.Carrier) :
    ∃ o v' r', TypedContract r q t v o v' r' := by
  cases hd : r.directory.vars[q.handle.index]? with
  | none => exact ⟨_, _, _, .unknownHandle hd⟩
  | some d =>
    by_cases ht : d.DeclaredAs t
    · by_cases hg : r.Grants d q
      · rcases hasChannel_or d q.channel with hchannel | ⟨hpos, hv⟩ | ⟨hpos, hv, hlast⟩
        · have h : r.Admits q d := ⟨hd, hg, hchannel⟩
          rcases declaredAs_cases ht with ⟨template, data, hk⟩ | ⟨rfl, members, data, hk⟩
          · exact exists_rule_of_number hr h hk v
          · exact exists_rule_of_member hr h hk v
        · exact ⟨_, _, _, .notVector hd ht hg hpos hv⟩
        · exact ⟨_, _, _, .invalidChannel hd ht hg hpos hv hlast⟩
      · exact ⟨_, _, _, .accessDenied hd ht hg⟩
    · exact ⟨_, _, _, .invalidType hd ht⟩

/-- **Typed access keeps its contract.** In every state that calls lead to, a typed access gives
the answer, hands back the value and leaves the registry that its contract says, and no other. -/
theorem typed_step_iff_contract (tables : TableSet) (r : Registry) (hreach : Reachable tables r)
    (q : Request) (t : NumType) (v v' : t.Carrier) (o : Except AccessError Unit)
    (r' : Registry) :
    r.step (.typed t q v) = (.typed t o v', r') ↔ TypedContract r q t v o v' r' := by
  have hr : r.Belongs tables := hreach.belongs
  have hstep : r.step (.typed t q v) = (.typed t o v', r') ↔
      (typed t q).outcome v r = (o, v', r') := by
    simp only [step, Prod.ext_iff, Reply.typed.injEq, true_and, heq_eq_eq, and_assoc]
  rw [hstep]
  constructor
  · intro h
    -- some rule applies, and the access does what that rule says
    obtain ⟨o₁, v₁, r₁, hrule⟩ := exists_rule hr q t v
    rw [outcome_of_rule hr hrule] at h
    cases h
    exact hrule
  · exact outcome_of_rule hr

/-- A value above the maximum of a limited channel is refused. -/
theorem sample_upperLimit : ∃ r, Registry.init TableSet.sample = .ok r ∧
    TypedContract r ⟨⟨0⟩, .write, 1, ⟨0x00FF⟩⟩ .int16 (6 : Int16) (.error .upperLimit)
      (6 : Int16) r := by
  have hrefused : ((Registry.init TableSet.sample).toOption.bind fun r =>
      (r.step (.typed .int16 ⟨⟨0⟩, .write, 1, ⟨0x00FF⟩⟩ (6 : Int16))).1.error?) =
        some .upperLimit := by
    decide +kernel
  obtain ⟨r, hr, he⟩ := Option.bind_eq_some_iff.1 hrefused
  have hinit : Registry.init TableSet.sample = .ok r := toOption_eq_some.1 hr
  obtain ⟨hv, hr'⟩ := (effect_typed .int16 _ _ r).of_error he
  have ho : ((typed .int16 ⟨⟨0⟩, .write, 1, ⟨0x00FF⟩⟩).outcome (6 : Int16) r).1 =
      .error .upperLimit := errorOf_eq_some.1 he
  refine ⟨r, hinit, (typed_step_iff_contract _ r (.init hinit) _ _ _ _ _ _).1 ?_⟩
  simp only [step, ho, hv, hr']

end Registry

end VariableRegistry
