/-
# What the gate withholds

A requester to whom an access is not granted learns nothing about the data: the access fails with an
error that is settled before any cell is looked at, so registries that differ in their data alone
answer it alike, and nothing changes.
-/
import VariableRegistry.Proofs.Acceptance
import VariableRegistry.Proofs.Gating
import VariableRegistry.Proofs.Outcomes

namespace VariableRegistry

variable {α β γ : Type}

/-! ## Searches that fail unseen -/

/-- A search that may look at the data fails with the same error whatever they are. -/
def FailsUnseen (f : DataStore → Except AccessError β) : Prop := ∃ e, ∀ s, f s = .error e

/-- A step that does not look at the data fails by itself or leaves it to the next one. -/
theorem failsUnseen_bind {x : Except AccessError γ} {f : DataStore → γ → Except AccessError β}
    (h : ∀ a, x = .ok a → FailsUnseen fun s => f s a) : FailsUnseen fun s => x >>= f s := by
  cases x with
  | error e => exact ⟨e, fun _ => rfl⟩
  | ok a => exact h a rfl

namespace Registry

variable {r : Registry} {q : Request} {d : Descriptor}

/-- No variable grants a request: its handle is unknown, or the rights of the requester do not
suffice. -/
def Denies (r : Registry) (q : Request) : Prop :=
  ∀ d, r.descriptor q.handle = .ok d → ¬r.Grants d q

/-- Nothing is looked at behind a gate that is closed. -/
theorem failsUnseen_gate (hdenied : ¬r.Grants d q) (f : DataStore → Unit → Except AccessError β) :
    FailsUnseen fun s => r.gate q d >>= f s := by
  rw [gate_of_not_grants hdenied]
  exact ⟨.accessDenied, fun _ => rfl⟩

theorem failsUnseen_numberCell (hdenied : r.Denies q) (t : NumType) :
    FailsUnseen fun s => { r with store := s }.numberCell t q.handle q.channel (r.gate q) :=
  failsUnseen_bind (x := r.descriptor q.handle) fun d hd =>
    failsUnseen_bind (x := demand (d.kind.numberCells? t) .invalidType) fun _ _ =>
      failsUnseen_gate (hdenied d hd) _

theorem failsUnseen_memberCell (hdenied : r.Denies q) :
    FailsUnseen fun s => { r with store := s }.memberCell q.handle q.channel (r.gate q) :=
  failsUnseen_bind (x := r.descriptor q.handle) fun d hd =>
    failsUnseen_bind (x := demand d.kind.memberCells? .invalidType) fun _ _ =>
      failsUnseen_gate (hdenied d hd) _

theorem failsUnseen_stringCell (hdenied : ¬r.Grants d q) (data : Nat) :
    FailsUnseen fun s => { r with store := s }.stringCell q d data :=
  failsUnseen_bind (x := d.checkChannel q.channel) fun _ _ => failsUnseen_gate hdenied _

/-! ## Accesses that fail unseen -/

/-- An access fails with the same error whatever the data are, and changes nothing. -/
def RefusesUnseen (r : Registry) (x : Access α Unit) (v : α) : Prop :=
  ∃ e, ∀ s : DataStore, x.outcome v { r with store := s } = (.error e, v, { r with store := s })

/-- Two accesses with the same outcomes are refused alike. -/
theorem RefusesUnseen.congr {x y : Access α Unit} {v : α} (h : r.RefusesUnseen y v)
    (hxy : ∀ s : DataStore, x.outcome v { r with store := s } = y.outcome v { r with store := s }) :
    r.RefusesUnseen x v := by
  obtain ⟨e, he⟩ := h
  exact ⟨e, fun s => (hxy s).trans (he s)⟩

theorem refusesUnseen_number (hdenied : r.Denies q) (t : NumType) (v : t.Carrier) :
    r.RefusesUnseen (number t q) v := by
  obtain ⟨e, hcell⟩ := failsUnseen_numberCell hdenied t
  refine ⟨e, fun s => ?_⟩
  have hcell' : { r with store := s }.numberCell t q.handle q.channel
      ({ r with store := s }.gate q) = .error e := hcell s
  rw [outcome_number, hcell']

theorem refusesUnseen_member (hdenied : r.Denies q) (v : Int16) :
    r.RefusesUnseen (member q) v := by
  obtain ⟨e, hcell⟩ := failsUnseen_memberCell hdenied
  refine ⟨e, fun s => ?_⟩
  have hcell' : { r with store := s }.memberCell q.handle q.channel
      ({ r with store := s }.gate q) = .error e := hcell s
  rw [outcome_member, hcell']

/-- Whether typed access takes the way of numbers or that of members does not depend on the data. -/
theorem refusesUnseen_typed (hdenied : r.Denies q) (t : NumType) (v : t.Carrier) :
    r.RefusesUnseen (typed t q) v := by
  by_cases hmember : ∃ d members data, r.descriptor q.handle = .ok d ∧
      d.kind = .enumeration members data
  · obtain ⟨d, members, data, hd, hk⟩ := hmember
    cases t with
    | int16 => exact (refusesUnseen_member hdenied v).congr fun _ => outcome_typed_member hd hk
    | _ => exact refusesUnseen_number hdenied _ v
  · refine (refusesUnseen_number hdenied t v).congr fun s => outcome_typed_number ?_
    intro _ d members data hd hk
    exact hmember ⟨d, members, data, hd, hk⟩

/-- A text is read before anything else is done, and this takes no look at the data. -/
theorem refusesUnseen_textual (hdenied : r.Denies q) (t : NumType) (format : Format)
    (parse : String → Except AccessError t.Carrier) (text : String) :
    r.RefusesUnseen (textual t q format parse) text := by
  cases hq : q.direction with
  | write =>
    cases hv : parse text with
    | error e =>
      refine ⟨e, fun s => ?_⟩
      simp only [outcome_textual, hq, hv]
    | ok v =>
      obtain ⟨e, he⟩ := refusesUnseen_typed hdenied t v
      refine ⟨e, fun s => ?_⟩
      simp only [outcome_textual, hq, hv, he s]
  | read =>
    obtain ⟨e, he⟩ := refusesUnseen_typed hdenied t t.zero
    refine ⟨e, fun s => ?_⟩
    simp only [outcome_textual, hq, he s]

theorem refusesUnseen_string (hdenied : ¬r.Grants d q) (data : Nat) (text : String) :
    r.RefusesUnseen (string q d data) text := by
  obtain ⟨e, hcell⟩ := failsUnseen_stringCell hdenied data
  refine ⟨e, fun s => ?_⟩
  have hcell' : { r with store := s }.stringCell q d data = .error e := hcell s
  rw [outcome_string, hcell']

/-- The text of a constant is no part of the data, but it is not given away either. -/
theorem refusesUnseen_constant (hdenied : ¬r.Grants d q) (offset : Nat) (text : String) :
    r.RefusesUnseen (constant q d offset) text := by
  have hgate : ∀ s : DataStore, { r with store := s }.gate q d = .error .accessDenied :=
    fun _ => gate_of_not_grants hdenied
  cases hchannel : d.checkChannel q.channel with
  | error e =>
    refine ⟨e, fun s => ?_⟩
    simp only [outcome_constant, hchannel]
  | ok _ =>
    refine ⟨.accessDenied, fun s => ?_⟩
    cases hq : q.direction with
    | write => simp only [outcome_constant, hchannel, hq]
    | read => simp only [outcome_constant, hchannel, hq, hgate s]

/-- What a text names in an enumeration stands in the directory. -/
theorem parseMember_of_store (r : Registry) (members : Nat) (s : DataStore) :
    { r with store := s }.parseMember members = r.parseMember members := rfl

theorem refusesUnseen_text (hdenied : r.Denies q) (text : String) :
    r.RefusesUnseen (Registry.text q) text := by
  cases hd : r.descriptor q.handle with
  | error e =>
    refine ⟨e, fun s => ?_⟩
    have hd' : { r with store := s }.descriptor q.handle = .error e := hd
    rw [outcome_text, hd']
  | ok d =>
    have hd' : ∀ s : DataStore, { r with store := s }.descriptor q.handle = .ok d := fun _ => hd
    -- the kind of the variable settles which access this is
    cases hk : d.kind with
    | number t template data =>
      apply (refusesUnseen_textual hdenied t d.format (t.parse d.format) text).congr
      intro s
      simp only [outcome_text, hd' s, hk]
    | enumeration members data =>
      apply (refusesUnseen_textual hdenied .int16 d.format (r.parseMember members) text).congr
      intro s
      simp only [outcome_text, hd' s, hk, parseMember_of_store]
    | string default data =>
      apply (refusesUnseen_string (hdenied d hd) data text).congr
      intro s
      simp only [outcome_text, hd' s, hk]
    | constant offset =>
      apply (refusesUnseen_constant (hdenied d hd) offset text).congr
      intro s
      simp only [outcome_text, hd' s, hk]
    | action =>
      refine ⟨.invalidType, fun s => ?_⟩
      simp only [outcome_text, hd' s, hk]

/-! ## Two registries -/

/-- **A denied requester learns nothing about the data.** Two registries that know the same of their
variables and compare capabilities in the same way may hold any data: to a request that is not
granted they answer with the same error, the argument comes back as it was handed in, and neither
registry changes. -/
theorem denied_request_sees_no_data (r r' : Registry) (hdirectory : r'.directory = r.directory)
    (hpolicy : r'.policy = r.policy) (q : Request) (hdenied : r.Denies q) :
    (∀ (t : NumType) (v : t.Carrier), ∃ e,
      r.step (.typed t q v) = (.typed t (.error e) v, r) ∧
        r'.step (.typed t q v) = (.typed t (.error e) v, r')) ∧
    ∀ s : String, ∃ e,
      r.step (.text q s) = (.text (.error e) s, r) ∧
        r'.step (.text q s) = (.text (.error e) s, r') := by
  have hdata : r' = { r with store := r'.store } := by
    rw [← hdirectory, ← hpolicy]
  constructor
  · intro t v
    obtain ⟨e, he⟩ := refusesUnseen_typed hdenied t v
    have here : (typed t q).outcome v r = (.error e, v, r) := he r.store
    have there : (typed t q).outcome v r' = (.error e, v, r') := by
      rw [hdata]
      exact he r'.store
    exact ⟨e, by simp only [step, here], by simp only [step, there]⟩
  · intro s
    obtain ⟨e, he⟩ := refusesUnseen_text hdenied s
    have here : (text q).outcome s r = (.error e, s, r) := he r.store
    have there : (text q).outcome s r' = (.error e, s, r') := by
      rw [hdata]
      exact he r'.store
    exact ⟨e, by simp only [step, here], by simp only [step, there]⟩

/-- An administrator, whom the limited vector of the sample does not expect, writes to it before and
after another value was stored there. -/
theorem sample_denied_request : ∃ r r' : Registry, r'.directory = r.directory ∧
    r'.policy = r.policy ∧ r.store.numbers.int16.toList = [⟨0, -5, 5⟩, ⟨0, -5, 5⟩] ∧
    r'.store.numbers.int16.toList = [⟨3, -5, 5⟩, ⟨0, -5, 5⟩] ∧
    r.Denies ⟨⟨0⟩, .write, 0, ⟨0x8011⟩⟩ ∧
    ∃ e, r.step (.typed .int16 ⟨⟨0⟩, .write, 0, ⟨0x8011⟩⟩ (9 : Int16)) =
        (.typed .int16 (.error e) (9 : Int16), r) ∧
      r'.step (.typed .int16 ⟨⟨0⟩, .write, 0, ⟨0x8011⟩⟩ (9 : Int16)) =
        (.typed .int16 (.error e) (9 : Int16), r') := by
  have hsample : ((Registry.init TableSet.sample).toOption.bind fun r =>
      (r.descriptor ⟨0⟩).toOption.map fun d => (d.rights, r.store.numbers.int16.toList)) =
      some (⟨0x40FF⟩, [⟨0, -5, 5⟩, ⟨0, -5, 5⟩]) := by
    decide +kernel
  obtain ⟨r, -, hd⟩ := Option.bind_eq_some_iff.1 hsample
  obtain ⟨d, hd, heq⟩ := Option.map_eq_some_iff.1 hd
  obtain ⟨hrights, hcells⟩ := Prod.mk.inj heq
  have hdenied : r.Denies ⟨⟨0⟩, .write, 0, ⟨0x8011⟩⟩ := by
    intro d' hd' hgrants
    obtain rfl : d = d' := Except.ok.inj ((toOption_eq_some.1 hd).symm.trans hd')
    have hadmin := hgrants.1 rfl
    rw [hrights] at hadmin
    exact absurd hadmin (by decide)
  refine ⟨r, r.setCell .int16 0 ⟨(3 : Int16), -5, 5⟩, rfl, rfl, hcells, ?_, hdenied, ?_⟩
  · have hset : (r.setCell .int16 0 ⟨(3 : Int16), -5, 5⟩).store.numbers.int16.toList =
        r.store.numbers.int16.toList.set 0 ⟨3, -5, 5⟩ := Array.toList_setIfInBounds
    rw [hset, hcells]
    rfl
  · exact (denied_request_sees_no_data r (r.setCell .int16 0 ⟨(3 : Int16), -5, 5⟩) rfl rfl
      ⟨⟨0⟩, .write, 0, ⟨0x8011⟩⟩ hdenied).1 .int16 (9 : Int16)

end Registry

end VariableRegistry
