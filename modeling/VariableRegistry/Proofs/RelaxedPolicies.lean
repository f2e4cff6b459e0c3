/-
# Policies and requesters

Who asks and how capabilities are compared matters at the gate alone. So a request that is granted
in more cases has the same outcome as before wherever it was not denied before, and bits of the
requester that the gate does not look at make no difference at all.
-/
import VariableRegistry.Proofs.Acceptance
import VariableRegistry.Proofs.Gating
import VariableRegistry.Proofs.NoEffect

namespace VariableRegistry

variable {α β γ : Type}

/-! ## Results that stay -/

/-- A result stays the same unless it was a denial. -/
def StaysUnlessDenied (x y : Except AccessError β) : Prop := x = .error .accessDenied ∨ y = x

/-- A step in common leaves it to the next ones whether a result stays. -/
theorem staysUnlessDenied_bind {x : Except AccessError γ} {f g : γ → Except AccessError β}
    (h : ∀ a, x = .ok a → StaysUnlessDenied (f a) (g a)) :
    StaysUnlessDenied (x >>= f) (x >>= g) := by
  cases x with
  | error e => exact Or.inr rfl
  | ok a => exact h a rfl

/-! ## Requests by others -/

namespace Request

/-- The same request by another requester. -/
def withRights (q : Request) (requester : Rights) : Request := { q with requester }

@[simp] theorem handle_withRights (q : Request) (w : Rights) :
    (q.withRights w).handle = q.handle := rfl

@[simp] theorem direction_withRights (q : Request) (w : Rights) :
    (q.withRights w).direction = q.direction := rfl

@[simp] theorem channel_withRights (q : Request) (w : Rights) :
    (q.withRights w).channel = q.channel := rfl

end Request

namespace Registry

variable {r : Registry} {q : Request} {d : Descriptor} {p : AccessPolicy} {w : Rights}

/-- Whatever a request is granted, another requester is granted it under another policy. -/
def Relaxes (r : Registry) (q : Request) (p : AccessPolicy) (w : Rights) : Prop :=
  ∀ d, r.Grants d q → (r.setPolicy p).Grants d (q.withRights w)

/-! ## Finding cells -/

/-- Behind the gate nothing tells the two requests apart. -/
theorem Relaxes.gate (h : r.Relaxes q p w) (d : Descriptor) (f : Unit → Except AccessError β) :
    StaysUnlessDenied (r.gate q d >>= f) ((r.setPolicy p).gate (q.withRights w) d >>= f) := by
  by_cases hg : r.Grants d q
  · rw [gate_of_grants hg, gate_of_grants (h d hg)]
    exact Or.inr rfl
  · rw [gate_of_not_grants hg]
    exact Or.inl rfl

theorem Relaxes.numberCell (h : r.Relaxes q p w) (t : NumType) :
    StaysUnlessDenied (r.numberCell t q.handle q.channel (r.gate q))
      ((r.setPolicy p).numberCell t q.handle q.channel ((r.setPolicy p).gate (q.withRights w))) :=
  staysUnlessDenied_bind (x := r.descriptor q.handle) fun d _ =>
    staysUnlessDenied_bind (x := demand (d.kind.numberCells? t) .invalidType) fun _ _ =>
      h.gate d _

theorem Relaxes.memberCell (h : r.Relaxes q p w) :
    StaysUnlessDenied (r.memberCell q.handle q.channel (r.gate q))
      ((r.setPolicy p).memberCell q.handle q.channel ((r.setPolicy p).gate (q.withRights w))) :=
  staysUnlessDenied_bind (x := r.descriptor q.handle) fun d _ =>
    staysUnlessDenied_bind (x := demand d.kind.memberCells? .invalidType) fun _ _ =>
      h.gate d _

theorem Relaxes.stringCell (h : r.Relaxes q p w) (d : Descriptor) (data : Nat) :
    StaysUnlessDenied (r.stringCell q d data)
      ((r.setPolicy p).stringCell (q.withRights w) d data) :=
  staysUnlessDenied_bind (x := d.checkChannel q.channel) fun _ _ => h.gate d _

/-! ## Accesses -/

/-- An outcome with another policy in its registry. -/
def underPolicy (p : AccessPolicy) :
    Except AccessError Unit × α × Registry → Except AccessError Unit × α × Registry
  | (result, v, r) => (result, v, r.setPolicy p)

/-- An access was denied and changed nothing, or another one under another policy has the same
outcome: the same result, the same argument and, but for the policy, the same registry. -/
def Keeps (r : Registry) (p : AccessPolicy) (x y : Access α Unit) (v : α) : Prop :=
  x.outcome v r = (.error .accessDenied, v, r) ∨
    y.outcome v (r.setPolicy p) = underPolicy p (x.outcome v r)

theorem Relaxes.number (h : r.Relaxes q p w) (t : NumType) (v : t.Carrier) :
    r.Keeps p (Registry.number t q) (Registry.number t (q.withRights w)) v := by
  unfold Keeps
  simp only [outcome_number, Request.handle_withRights, Request.channel_withRights,
    Request.direction_withRights]
  rcases h.numberCell t with hdenied | hsame
  · rw [hdenied]
    exact Or.inl rfl
  · refine Or.inr ?_
    rw [hsame]
    rcases r.numberCell t q.handle q.channel (r.gate q) with e | ⟨d, i, c⟩
    · rfl
    · cases q.direction with
      | read => rfl
      | write =>
        -- the bounds of the cell do not ask who writes
        simp only
        cases boundedValue t d.rights c v <;> rfl

theorem Relaxes.member (h : r.Relaxes q p w) (v : Int16) :
    r.Keeps p (Registry.member q) (Registry.member (q.withRights w)) v := by
  unfold Keeps
  simp only [outcome_member, Request.handle_withRights, Request.channel_withRights,
    Request.direction_withRights]
  rcases h.memberCell with hdenied | hsame
  · rw [hdenied]
    exact Or.inl rfl
  · refine Or.inr ?_
    rw [hsame]
    rcases r.memberCell q.handle q.channel (r.gate q) with e | ⟨members, i, x⟩
    · rfl
    · cases q.direction with
      | read => rfl
      | write =>
        have hmembers : (r.setPolicy p).directory.enumeration members =
            r.directory.enumeration members := rfl
        simp only [hmembers]
        cases r.directory.enumeration members with
        | error e => rfl
        | ok e =>
          simp only
          cases e.contains v <;> rfl

theorem Relaxes.typed (h : r.Relaxes q p w) (t : NumType) (v : t.Carrier) :
    r.Keeps p (Registry.typed t q) (Registry.typed t (q.withRights w)) v := by
  unfold Keeps
  by_cases hmember : ∃ d members data, r.descriptor q.handle = .ok d ∧
      d.kind = .enumeration members data
  · obtain ⟨d, members, data, hd, hk⟩ := hmember
    have hd' : (r.setPolicy p).descriptor (q.withRights w).handle = .ok d := hd
    cases t with
    | int16 =>
      rw [outcome_typed_member hd hk, outcome_typed_member hd' hk]
      exact h.member v
    | _ => exact h.number _ v
  · have hother : ∀ d members data, r.descriptor q.handle = .ok d →
        d.kind ≠ .enumeration members data :=
      fun d members data hd hk => hmember ⟨d, members, data, hd, hk⟩
    have hother' : ∀ d members data, (r.setPolicy p).descriptor (q.withRights w).handle = .ok d →
        d.kind ≠ .enumeration members data := hother
    rw [outcome_typed_number fun _ => hother, outcome_typed_number fun _ => hother']
    exact h.number t v

/-- Who asks makes no difference to the reading of the text. -/
theorem Relaxes.textual (h : r.Relaxes q p w) (t : NumType) (format : Format)
    (parse : String → Except AccessError t.Carrier) (s : String) :
    r.Keeps p (Registry.textual t q format parse)
      (Registry.textual t (q.withRights w) format parse) s := by
  unfold Keeps
  simp only [outcome_textual, Request.direction_withRights]
  cases q.direction with
  | write =>
    simp only
    cases parse s with
    | error e => exact Or.inr rfl
    | ok v =>
      simp only
      rcases h.typed t v with hdenied | hsame
      · rw [hdenied]
        exact Or.inl rfl
      · rw [hsame]
        exact Or.inr rfl
  | read =>
    simp only
    rcases h.typed t t.zero with hdenied | hsame
    · rw [hdenied]
      exact Or.inl rfl
    · rw [hsame]
      rcases (Registry.typed t q).outcome t.zero r with ⟨_ | _, _, _⟩ <;> exact Or.inr rfl

theorem Relaxes.string (h : r.Relaxes q p w) (d : Descriptor) (data : Nat) (s : String) :
    r.Keeps p (Registry.string q d data) (Registry.string (q.withRights w) d data) s := by
  unfold Keeps
  simp only [outcome_string, Request.direction_withRights]
  rcases h.stringCell d data with hdenied | hsame
  · rw [hdenied]
    exact Or.inl rfl
  · refine Or.inr ?_
    rw [hsame]
    rcases r.stringCell q d data with e | ⟨i, current⟩
    · rfl
    · cases q.direction with
      | read => rfl
      | write => cases hfits : fitsCell (beforeZero s) <;> rfl

theorem Relaxes.constant (h : r.Relaxes q p w) (d : Descriptor) (offset : Nat) (s : String) :
    r.Keeps p (Registry.constant q d offset) (Registry.constant (q.withRights w) d offset) s := by
  unfold Keeps
  simp only [outcome_constant, Request.direction_withRights, Request.channel_withRights]
  cases d.checkChannel q.channel with
  | error e => exact Or.inr rfl
  | ok _ =>
    cases q.direction with
    | write => exact Or.inl rfl
    | read =>
      by_cases hg : r.Grants d q
      · have htext : (r.setPolicy p).directory.blob.textAt? offset =
            r.directory.blob.textAt? offset := rfl
        simp only [gate_of_grants hg, gate_of_grants (h d hg), htext]
        cases r.directory.blob.textAt? offset <;> exact Or.inr rfl
      · rw [gate_of_not_grants hg]
        exact Or.inl rfl

theorem Relaxes.text (h : r.Relaxes q p w) (s : String) :
    r.Keeps p (Registry.text q) (Registry.text (q.withRights w)) s := by
  unfold Keeps
  have hdescriptor : (r.setPolicy p).descriptor (q.withRights w).handle =
      r.descriptor q.handle := rfl
  simp only [outcome_text, hdescriptor]
  cases r.descriptor q.handle with
  | error e => exact Or.inr rfl
  | ok d =>
    simp only
    cases d.kind with
    | number t template data => exact h.textual t d.format (t.parse d.format) s
    | enumeration members data => exact h.textual .int16 d.format (r.parseMember members) s
    | string default data => exact h.string d data s
    | constant offset => exact h.constant d offset s
    | action => exact Or.inr rfl

/-! ## Calls -/

/-- What a caller hands in for access to a channel: a value of a number type or a text. -/
inductive Payload where
  | typed (type : NumType) (value : type.Carrier)
  | text (text : String)

namespace Payload

/-- The access to a channel that a request asks for. -/
def call : Payload → Request → Call
  | typed t v, q => .typed t q v
  | text s, q => .text q s

/-- The reply to an access that is denied, with what was handed in. -/
def denied : Payload → Reply
  | typed t v => .typed t (.error .accessDenied) v
  | text s => .text (.error .accessDenied) s

@[simp] theorem error?_denied (x : Payload) : x.denied.error? = some .accessDenied := by
  cases x <;> rfl

end Payload

theorem Relaxes.step (h : r.Relaxes q p w) (x : Payload) :
    r.step (x.call q) = (x.denied, r) ∨
      (r.setPolicy p).step (x.call (q.withRights w)) =
        ((r.step (x.call q)).1, (r.step (x.call q)).2.setPolicy p) := by
  cases x with
  | typed t v =>
    rcases h.typed t v with hdenied | hsame
    · exact Or.inl (by simp only [Payload.call, Payload.denied, Registry.step, hdenied])
    · exact Or.inr (by simp only [Payload.call, Registry.step, hsame, underPolicy])
  | text s =>
    rcases h.text s with hdenied | hsame
    · exact Or.inl (by simp only [Payload.call, Payload.denied, Registry.step, hdenied])
    · exact Or.inr (by simp only [Payload.call, Registry.step, hsame, underPolicy])

/-- No access replaces the policy. -/
theorem setPolicy_step (r : Registry) (q : Request) (x : Payload) :
    (r.step (x.call q)).2.setPolicy r.policy = (r.step (x.call q)).2 := by
  have hrefl : r.Relaxes q r.policy q.requester := fun _ hg => hg
  rcases hrefl.step x with hdenied | hsame
  · rw [hdenied]
    rfl
  · exact (congrArg Prod.snd hsame).symm

/-- Requests that are granted in the same cases are answered alike. -/
theorem step_withRights (h : ∀ d, r.Grants d (q.withRights w) ↔ r.Grants d q) (x : Payload) :
    r.step (x.call (q.withRights w)) = r.step (x.call q) := by
  have hthere : r.Relaxes q r.policy w := fun d => (h d).2
  have hback : r.Relaxes (q.withRights w) r.policy q.requester := fun d => (h d).1
  rcases hthere.step x with hdenied | hsame
  · -- what is denied to one requester is denied to the other
    rcases hback.step x with hdenied' | hsame'
    · exact hdenied'.trans hdenied.symm
    · rw [setPolicy_step] at hsame'
      exact hsame'.symm
  · rw [setPolicy_step] at hsame
    exact hsame

/-! ## Words of rights -/

/-- Only the capabilities of a requester and, for a write, the administrator bit are compared. -/
theorem grants_withRights_iff (hcapabilities : w.bits &&& 0x00FF = q.requester.bits &&& 0x00FF)
    (hadmin : q.direction = .write → w.bits &&& 0x8000 = q.requester.bits &&& 0x8000)
    (d : Descriptor) : r.Grants d (q.withRights w) ↔ r.Grants d q := by
  unfold Grants
  simp only [Request.withRights, hcapabilities]
  refine and_congr_left fun _ => forall_congr' fun hwrite => ?_
  rw [hadmin hwrite]

/-- Capabilities that are the same are among each other. -/
theorem relaxes_subset (r : Registry) (q : Request) :
    (r.setPolicy .exact).Relaxes q .subset q.requester := by
  rintro d ⟨hadmin, hsame⟩
  refine ⟨hadmin, ?_⟩
  have hsame' : d.rights.bits &&& 0x00FF = q.requester.bits &&& 0x00FF := hsame
  change (d.rights.bits &&& 0x00FF) &&& (q.requester.bits &&& 0x00FF) =
    q.requester.bits &&& 0x00FF
  rw [hsame', UInt16.and_self]

/-- **A relaxed policy takes away denials only, and of a requester few bits matter.** Whatever the
state: an access that is not denied where capabilities have to be the same has the same outcome
where those of the requester only have to be among those of the variable. It is answered with the
same result and the same argument, and leaves behind the same registry, each with its own policy.
Under every policy, an access by a requester with only the bits `0x80FF` has the same outcome as
with all of them, and so has a reading access without the administrator bit. -/
theorem relaxed_policy_removes_denials_only (r : Registry) (q : Request) (x : Payload) :
    ((Registry.step { r with policy := .exact } (x.call q)).1.error? ≠ some .accessDenied →
      ∃ (reply : Reply) (r' : Registry),
        Registry.step { r with policy := .exact } (x.call q) =
          (reply, { r' with policy := .exact }) ∧
        Registry.step { r with policy := .subset } (x.call q) =
          (reply, { r' with policy := .subset })) ∧
    ∀ policy,
      Registry.step { r with policy } (x.call (q.withRights ⟨q.requester.bits &&& 0x80FF⟩)) =
          Registry.step { r with policy } (x.call q) ∧
        (q.direction = .read →
          Registry.step { r with policy }
              (x.call (q.withRights ⟨q.requester.bits &&& ~~~0x8000⟩)) =
            Registry.step { r with policy } (x.call q)) := by
  refine ⟨fun hgranted => ?_, fun policy => ⟨?_, fun hread => ?_⟩⟩
  · rcases (relaxes_subset r q).step x with hdenied | hsame
    · have herror : ((r.setPolicy .exact).step (x.call q)).1.error? = some .accessDenied := by
        rw [hdenied, x.error?_denied]
      exact absurd herror hgranted
    · have hkept := setPolicy_step (r.setPolicy .exact) q x
      exact ⟨_, _, Prod.ext rfl hkept.symm, hsame⟩
  · apply step_withRights
    apply grants_withRights_iff
    · exact UInt16.and_assoc q.requester.bits 0x80FF 0x00FF
    · intro _
      exact UInt16.and_assoc q.requester.bits 0x80FF 0x8000
  · apply step_withRights
    apply grants_withRights_iff
    · exact UInt16.and_assoc q.requester.bits (~~~0x8000) 0x00FF
    · intro hwrite
      rw [hread] at hwrite
      cases hwrite

/-- A requester with the capabilities of the limited vector, with the bit that refuses values and
with bits that have no meaning writes to the second channel, under both policies. -/
theorem sample_relaxed : ∃ r, Reachable .sample r ∧
    (Registry.step { r with policy := .exact }
      (.typed .int16 ⟨⟨0⟩, .write, 1, ⟨0x5FFF⟩⟩ (3 : Int16))).1.error? ≠ some .accessDenied ∧
    ∃ (reply : Reply) (r' : Registry),
      Registry.step { r with policy := .exact }
          (.typed .int16 ⟨⟨0⟩, .write, 1, ⟨0x5FFF⟩⟩ (3 : Int16)) =
        (reply, { r' with policy := .exact }) ∧
      Registry.step { r with policy := .subset }
          (.typed .int16 ⟨⟨0⟩, .write, 1, ⟨0x5FFF⟩⟩ (3 : Int16)) =
        (reply, { r' with policy := .subset }) := by
  have hwritten : ((Registry.init .sample).toOption.map fun r =>
      (Registry.step { r with policy := .exact }
        (.typed .int16 ⟨⟨0⟩, .write, 1, ⟨0x5FFF⟩⟩ (3 : Int16))).1.error?) = some none := by
    decide +kernel
  obtain ⟨r, hr, hnone⟩ := Option.map_eq_some_iff.1 hwritten
  have hgranted : (Registry.step { r with policy := .exact }
      (.typed .int16 ⟨⟨0⟩, .write, 1, ⟨0x5FFF⟩⟩ (3 : Int16))).1.error? ≠ some .accessDenied := by
    rw [hnone]
    exact (Option.some_ne_none _).symm
  exact ⟨r, .init (toOption_eq_some.1 hr), hgranted,
    (relaxed_policy_removes_denials_only r ⟨⟨0⟩, .write, 1, ⟨0x5FFF⟩⟩ (.typed .int16 (3 : Int16))).1
      hgranted⟩

end Registry

end VariableRegistry
