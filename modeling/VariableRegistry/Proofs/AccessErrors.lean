/-
# Errors of accesses

In a state that calls lead to, no access ends with the error that has no cause of its own, and a
channel is called invalid only if it lies outside a vector. Each check is followed with the errors
that it may give; looking up what the checked places refer to gives none.
-/
import VariableRegistry.Proofs.Acceptance
import VariableRegistry.Proofs.Gating
import VariableRegistry.Proofs.NoEffect
import VariableRegistry.Proofs.Soundness
import VariableRegistry.Proofs.ValueTexts

namespace VariableRegistry

/-! ## Errors that are allowed -/

/-- An error with which access to a channel may end: one with a cause, and that of an invalid
channel only where the channel lies outside a vector. -/
def Registry.Allows (r : Registry) (h : Handle) (channel : UInt16) (e : AccessError) : Prop :=
  e ≠ .generic ∧
    (e = .invalidChannel →
      ∃ d, r.descriptor h = .ok d ∧ d.vector = true ∧ 0 < channel ∧ d.channels ≤ channel)

/-- The channel of a variable that a call is about. -/
def Call.target? : Call → Option (Handle × UInt16)
  | typed _ q _ => some (q.handle, q.channel)
  | text q _ => some (q.handle, q.channel)
  | getBound _ h _ channel => some (h, channel)
  | setBound _ h _ channel => some (h, channel)
  | boundValue _ h channel => some (h, channel)
  | setBoundValue _ h _ channel => some (h, channel)
  | _ => none

namespace Registry

variable {t : TableSet} {r : Registry} {h : Handle} {channel : UInt16} {d : Descriptor}

theorem failsWith_cause {α : Type} {e : AccessError} (he : e ≠ .generic ∧ e ≠ .invalidChannel) :
    FailsWith (r.Allows h channel) (.error e : Except AccessError α) :=
  failsWith_error ⟨he.1, fun h => absurd h he.2⟩

theorem failsWith_demand_cause {α : Type} {e : AccessError}
    (he : e ≠ .generic ∧ e ≠ .invalidChannel) (value : Option α) :
    FailsWith (r.Allows h channel) (demand value e) :=
  failsWith_demand ⟨he.1, fun h => absurd h he.2⟩

theorem failsWith_require_cause {e : AccessError}
    (he : e ≠ .generic ∧ e ≠ .invalidChannel) (condition : Bool) :
    FailsWith (r.Allows h channel) (require condition e) :=
  failsWith_require ⟨he.1, fun h => absurd h he.2⟩

/-! ## Checks -/

theorem failsWith_descriptor : FailsWith (r.Allows h channel) (r.descriptor h) :=
  failsWith_demand_cause (by decide) _

theorem failsWith_gate (q : Request) : FailsWith (r.Allows h channel) (r.gate q d) := by
  unfold gate checkAccess
  apply failsWith_ite
  · intro _
    exact failsWith_cause (by decide)
  · intro _
    apply failsWith_ite
    · intro _
      exact failsWith_ok ()
    · intro _
      exact failsWith_cause (by decide)

/-- The channel check calls a channel invalid only outside a vector. -/
theorem failsWith_checkChannel (hd : r.descriptor h = .ok d) :
    FailsWith (r.Allows h channel) (d.checkChannel channel) := by
  rcases hasChannel_or d channel with hchannel | ⟨hpos, hv⟩ | ⟨hpos, hv, hlast⟩
  · rw [checkChannel_eq_ok.2 hchannel]
    exact failsWith_ok ()
  · rw [checkChannel_of_scalar hpos hv]
    exact failsWith_cause (by decide)
  · rw [checkChannel_of_last hpos hv hlast]
    exact failsWith_error ⟨by decide, fun _ => ⟨d, hd, hv, hpos, hlast⟩⟩

/-- A value is refused for a reason. -/
theorem failsWith_boundedValue {u : NumType} {rights : Rights} {c : Cell u.Carrier}
    {v : u.Carrier} : FailsWith (r.Allows h channel) (boundedValue u rights c v) := by
  unfold boundedValue
  refine failsWith_ite (fun _ => ?_) fun _ => failsWith_ite (fun _ => ?_) fun _ => failsWith_ok v
  · -- refused where it is no number, or beyond a bound
    refine failsWith_ite (fun _ => failsWith_cause (by decide)) fun _ => ?_
    refine failsWith_ite (fun _ => failsWith_cause (by decide)) fun _ => ?_
    exact failsWith_ite (fun _ => failsWith_cause (by decide)) fun _ => failsWith_ok v
  · -- clipped, unless it is no number
    refine failsWith_ite (fun _ => failsWith_cause (by decide)) fun _ => ?_
    refine failsWith_ite (fun _ => failsWith_ok _) fun _ => ?_
    exact failsWith_ite (fun _ => failsWith_ok _) fun _ => failsWith_ok v

/-! ## Cells and members that are there -/

/-- A cell that is there is found. -/
theorem failsWith_cellAt {α : Type} {P : AccessError → Prop} {cells : Array α} {data : Nat}
    (hcell : ∃ c, cells[data + channel.toNat]? = some c) :
    FailsWith P (cellAt cells data channel) := by
  obtain ⟨c, hc⟩ := hcell
  rw [cellAt_eq_ok.2 ⟨rfl, hc⟩]
  exact failsWith_ok _

/-- The members of an enumeration of the registry are found. -/
theorem failsWith_enumeration {P : AccessError → Prop} (hr : r.Belongs t)
    (hd : r.descriptor h = .ok d) {members data : Nat} (hk : d.kind = .enumeration members data) :
    FailsWith P (r.directory.enumeration members) := by
  obtain ⟨e, he⟩ := hr.exists_enumeration hd hk
  rw [Directory.enumeration, he]
  exact failsWith_ok e

/-- A text that names no member is an invalid value and nothing else. -/
theorem failsWith_parseMember {P : AccessError → Prop} (hP : P .invalidValue) (hr : r.Belongs t)
    (hd : r.descriptor h = .ok d) {members data : Nat} (hk : d.kind = .enumeration members data)
    (s : String) : FailsWith P (r.parseMember members s) := by
  unfold parseMember
  cases NumType.parseInt16 s with
  | ok v => exact failsWith_ok v
  | error _ =>
    refine failsWith_bind (failsWith_enumeration hr hd hk) ?_
    intro e _
    apply failsWith_bind (failsWith_demand hP)
    intro m _
    exact failsWith_ok m.value

variable {check : Descriptor → Except AccessError Unit}

theorem failsWith_numberCell (hr : r.Belongs t) (u : NumType)
    (hcheck : ∀ d, FailsWith (r.Allows h channel) (check d)) :
    FailsWith (r.Allows h channel) (r.numberCell u h channel check) := by
  unfold numberCell
  apply failsWith_bind failsWith_descriptor
  intro d hd
  apply failsWith_bind (failsWith_demand_cause (by decide) _)
  intro data hdata
  apply failsWith_bind (hcheck d)
  intro _ _
  apply failsWith_bind (failsWith_checkChannel hd)
  intro _ hchannel
  obtain ⟨template, hk⟩ := numberCells?_eq_some.1 (demand_eq_ok.1 hdata)
  refine failsWith_bind (failsWith_cellAt (hr.exists_numberCell hd hk hchannel)) ?_
  intro _ _
  exact failsWith_ok _

theorem failsWith_memberCell (hr : r.Belongs t)
    (hcheck : ∀ d, FailsWith (r.Allows h channel) (check d)) :
    FailsWith (r.Allows h channel) (r.memberCell h channel check) := by
  unfold memberCell
  apply failsWith_bind failsWith_descriptor
  intro d hd
  apply failsWith_bind (failsWith_demand_cause (by decide) _)
  intro places hplaces
  apply failsWith_bind (hcheck d)
  intro _ _
  apply failsWith_bind (failsWith_checkChannel hd)
  intro _ hchannel
  have hk := memberCells?_eq_some.1 (demand_eq_ok.1 hplaces)
  refine failsWith_bind (failsWith_cellAt (hr.exists_memberCell hd hk hchannel)) ?_
  intro _ _
  exact failsWith_ok _

theorem failsWith_boundType (length : Nat) :
    FailsWith (r.Allows h channel) (r.boundType h length) := by
  unfold boundType
  apply failsWith_bind failsWith_descriptor
  intro d _
  apply failsWith_bind (failsWith_require_cause (by decide) _)
  intro _ _
  apply failsWith_bind (failsWith_demand_cause (by decide) _)
  intro u _
  apply failsWith_bind (failsWith_require_cause (by decide) _)
  intro _ _
  exact failsWith_ok u

theorem failsWith_stringCell (hr : r.Belongs t) {q : Request} {default data : Nat}
    (hd : r.descriptor q.handle = .ok d) (hk : d.kind = .string default data) :
    FailsWith (r.Allows q.handle q.channel) (r.stringCell q d data) := by
  unfold stringCell
  apply failsWith_bind (failsWith_checkChannel hd)
  intro _ hchannel
  apply failsWith_bind (failsWith_gate q)
  intro _ _
  exact failsWith_cellAt (hr.exists_stringCell hd hk hchannel)

/-! ## Accesses -/

theorem failsWith_number (hr : r.Belongs t) (u : NumType) (q : Request) (v : u.Carrier) :
    FailsWith (r.Allows q.handle q.channel) ((number u q).outcome v r).1 := by
  rw [outcome_number]
  cases hcell : r.numberCell u q.handle q.channel (r.gate q) with
  | error e =>
    exact failsWith_error (failsWith_numberCell hr u (fun d => failsWith_gate q) e hcell)
  | ok found =>
    obtain ⟨d, i, c⟩ := found
    cases q.direction with
    | read => exact failsWith_ok ()
    | write =>
      simp only
      cases hx : boundedValue u d.rights c v with
      | error e => exact failsWith_error (failsWith_boundedValue e hx)
      | ok x => exact failsWith_ok ()

theorem failsWith_member (hr : r.Belongs t) (q : Request) (v : Int16) :
    FailsWith (r.Allows q.handle q.channel) ((member q).outcome v r).1 := by
  rw [outcome_member]
  cases hcell : r.memberCell q.handle q.channel (r.gate q) with
  | error e => exact failsWith_error (failsWith_memberCell hr (fun d => failsWith_gate q) e hcell)
  | ok found =>
    obtain ⟨members, i, x⟩ := found
    obtain ⟨d, data, hd, hk, -⟩ := memberCell_eq_ok.1 hcell
    cases q.direction with
    | read => exact failsWith_ok ()
    | write =>
      simp only
      cases he : r.directory.enumeration members with
      | error e => exact failsWith_error (failsWith_enumeration hr hd hk e he)
      | ok m =>
        by_cases hv : m.contains v = true
        · simp only [hv, if_true]
          exact failsWith_ok ()
        · simp only [hv]
          exact failsWith_cause (by decide)

theorem failsWith_typed (hr : r.Belongs t) (u : NumType) (q : Request) (v : u.Carrier) :
    FailsWith (r.Allows q.handle q.channel) ((typed u q).outcome v r).1 :=
  typed_cases (motive := fun _ _ o => FailsWith (r.Allows q.handle q.channel) o.1)
    (failsWith_number hr · q ·) (failsWith_member hr q) u v

theorem failsWith_textual (hr : r.Belongs t) (u : NumType) (q : Request) (format : Format)
    {parse : String → Except AccessError u.Carrier}
    (hparse : ∀ s, FailsWith (r.Allows q.handle q.channel) (parse s)) (s : String) :
    FailsWith (r.Allows q.handle q.channel) ((textual u q format parse).outcome s r).1 := by
  rw [outcome_textual]
  cases q.direction with
  | write =>
    simp only
    cases hv : parse s with
    | error e => exact failsWith_error (hparse s e hv)
    | ok v => exact failsWith_typed hr u q v
  | read =>
    have htyped := failsWith_typed hr u q u.zero
    simp only
    rcases hread : (typed u q).outcome u.zero r with ⟨e | _, v, r'⟩
    · exact failsWith_error (htyped e (by rw [hread]))
    · exact failsWith_ok ()

theorem failsWith_string (hr : r.Belongs t) (q : Request) {default data : Nat}
    (hd : r.descriptor q.handle = .ok d) (hk : d.kind = .string default data) (s : String) :
    FailsWith (r.Allows q.handle q.channel) ((string q d data).outcome s r).1 := by
  rw [outcome_string]
  cases hcell : r.stringCell q d data with
  | error e => exact failsWith_error (failsWith_stringCell hr hd hk e hcell)
  | ok found =>
    cases q.direction with
    | read => exact failsWith_ok ()
    | write =>
      simp only
      cases fitsCell (beforeZero s) with
      | true => exact failsWith_ok ()
      | false => exact failsWith_cause (by decide)

theorem failsWith_constant (hr : r.Belongs t) (q : Request) {offset : Nat}
    (hd : r.descriptor q.handle = .ok d) (hk : d.kind = .constant offset) (s : String) :
    FailsWith (r.Allows q.handle q.channel) ((constant q d offset).outcome s r).1 := by
  obtain ⟨text, htext⟩ := hr.exists_text hd hk
  rw [outcome_constant, htext]
  cases hchannel : d.checkChannel q.channel with
  | error e => exact failsWith_error (failsWith_checkChannel hd e hchannel)
  | ok _ =>
    cases q.direction with
    | write => exact failsWith_cause (by decide)
    | read =>
      simp only
      cases hgate : r.gate q d with
      | error e => exact failsWith_error (failsWith_gate q e hgate)
      | ok _ => exact failsWith_ok ()

theorem failsWith_text (hr : r.Belongs t) (q : Request) (s : String) :
    FailsWith (r.Allows q.handle q.channel) ((text q).outcome s r).1 := by
  rw [outcome_text]
  cases hd : r.descriptor q.handle with
  | error e => exact failsWith_error (failsWith_descriptor e hd)
  | ok d =>
    have hinvalid : r.Allows q.handle q.channel .invalidValue :=
      ⟨by decide, fun h => absurd h (by decide)⟩
    simp only
    cases hk : d.kind with
    | number u template data =>
      exact failsWith_textual hr u q d.format (NumType.failsWith_parse hinvalid u d.format) s
    | enumeration members data =>
      exact failsWith_textual hr .int16 q d.format (failsWith_parseMember hinvalid hr hd hk) s
    | string default data => exact failsWith_string hr q hd hk s
    | constant offset => exact failsWith_constant hr q hd hk s
    | action => exact failsWith_cause (by decide)

/-! ## Access to bounds -/

/-- What is not checked gives no error. -/
theorem failsWith_unchecked (d : Descriptor) :
    FailsWith (r.Allows h channel) ((fun _ => .ok () : Descriptor → Except AccessError Unit) d) :=
  failsWith_ok ()

theorem failsWith_getBound (hr : r.Belongs t) (b : Bound) (buffer : List UInt8) :
    FailsWith (r.Allows h channel) ((getBound b h channel).outcome buffer r).1 := by
  rw [outcome_getBound]
  cases htype : r.boundType h buffer.length with
  | error e => exact failsWith_error (failsWith_boundType _ e htype)
  | ok u =>
    simp only
    cases hcell : r.numberCell u h channel fun _ => .ok () with
    | error e => exact failsWith_error (failsWith_numberCell hr u failsWith_unchecked e hcell)
    | ok found => exact failsWith_ok ()

theorem failsWith_setBound (hr : r.Belongs t) (b : Bound) (bytes : List UInt8) :
    FailsWith (r.Allows h channel) ((setBound b h bytes channel).outcome () r).1 := by
  rw [outcome_setBound]
  cases htype : r.boundType h bytes.length with
  | error e => exact failsWith_error (failsWith_boundType _ e htype)
  | ok u =>
    simp only
    cases hcell : r.numberCell u h channel fun _ => .ok () with
    | error e => exact failsWith_error (failsWith_numberCell hr u failsWith_unchecked e hcell)
    | ok found => exact failsWith_ok ()

theorem failsWith_boundValue (hr : r.Belongs t) (b : Bound) :
    FailsWith (r.Allows h channel) (r.boundValue b h channel) := by
  unfold boundValue
  apply failsWith_bind failsWith_descriptor
  intro d _
  apply failsWith_bind (failsWith_demand_cause (by decide) _)
  intro u _
  apply failsWith_bind (failsWith_numberCell hr u failsWith_unchecked)
  intro _ _
  exact failsWith_ok _

theorem failsWith_setBoundValue (hr : r.Belongs t) (b : Bound) (v : NumValue) :
    FailsWith (r.Allows h channel) ((setBoundValue b h v channel).outcome () r).1 := by
  rw [outcome_setBoundValue]
  cases hcell : r.numberCell v.type h channel fun _ => .ok () with
  | error e => exact failsWith_error (failsWith_numberCell hr v.type failsWith_unchecked e hcell)
  | ok found => exact failsWith_ok ()

/-! ## Calls -/

/-- The error of an answer is allowed for the channel that the call is about. -/
theorem allows_of_step (hr : r.Belongs t) {call : Call} {e : AccessError}
    (he : (r.step call).1.error? = some e) :
    ∃ h channel, call.target? = some (h, channel) ∧ r.Allows h channel e := by
  cases call with
  | typed u q v => exact ⟨_, _, rfl, failsWith_typed hr u q v e (errorOf_eq_some.1 he)⟩
  | text q s => exact ⟨_, _, rfl, failsWith_text hr q s e (errorOf_eq_some.1 he)⟩
  | getBound b h buffer channel =>
    exact ⟨_, _, rfl, failsWith_getBound hr b buffer e (errorOf_eq_some.1 he)⟩
  | setBound b h bytes channel =>
    exact ⟨_, _, rfl, failsWith_setBound hr b bytes e (errorOf_eq_some.1 he)⟩
  | boundValue b h channel =>
    exact ⟨_, _, rfl, failsWith_boundValue hr b e (errorOf_eq_some.1 he)⟩
  | setBoundValue b h v channel =>
    exact ⟨_, _, rfl, failsWith_setBoundValue hr b v e (errorOf_eq_some.1 he)⟩
  | setPolicy policy => cases he
  | dump h buffer channel => cases he
  | reset =>
    cases hreset : r.reset with
    | ok r' => simp [step, hreset, Reply.error?] at he
    | error f => simp [step, hreset, Reply.error?] at he

/-- **What is looked up is there.** In every state that calls lead to, each channel of each
variable refers to what is there, and the channel check lets no other channel pass. A reset
succeeds, no call ends with the error without a cause, and a channel is called invalid only if it
lies outside a vector. -/
theorem reachable_lookups_hit (t : TableSet) (r : Registry) (hreach : Reachable t r) :
    (∀ h d, r.descriptor h = .ok d →
      (∀ channel : Nat, channel < d.channels.toNat → r.Hits d channel) ∧
      ∀ channel : UInt16, d.checkChannel channel = .ok () → channel.toNat < d.channels.toNat) ∧
    (∃ r', r.step .reset = (.reset (.ok ()), r')) ∧
    ∀ call e, (r.step call).1.error? = some e →
      e ≠ .generic ∧
      (e = .invalidChannel →
        ∃ h channel d, call.target? = some (h, channel) ∧ r.descriptor h = .ok d ∧
          d.vector = true ∧ 0 < channel ∧ d.channels ≤ channel) := by
  have hr : r.Belongs t := hreach.belongs
  refine ⟨?_, ?_, ?_⟩
  · intro h d hd
    exact ⟨fun channel hchannel => hr.hits hd hchannel, fun channel => hr.channel_lt hd⟩
  · obtain ⟨r', hreset, -⟩ := hr.reset
    exact ⟨r', by simp only [step, hreset]⟩
  · intro call e he
    obtain ⟨h, channel, htarget, hgeneric, hinvalid⟩ := allows_of_step hr he
    refine ⟨hgeneric, fun hchannel => ?_⟩
    obtain ⟨d, hd⟩ := hinvalid hchannel
    exact ⟨h, channel, d, htarget, hd⟩

/-- After any call to a registry of the sample it can be reset. -/
theorem sample_lookups_hit : ∃ r, Registry.init TableSet.sample = .ok r ∧
    ∀ call, ∃ r', (r.step call).2.step .reset = (.reset (.ok ()), r') := by
  obtain ⟨r, hr⟩ : ∃ r, Registry.init TableSet.sample = .ok r :=
    toBool_eq_true.1 (by decide +kernel)
  refine ⟨r, hr, fun call => ?_⟩
  exact (reachable_lookups_hit TableSet.sample _ (.step call (.init hr))).2.1

end Registry

end VariableRegistry
