/-
# The order of checks

An access is refused by the first check that objects to it. One order is meant for all of them: the
handle, the type, the rights of the requester, the channel and at last what the variable itself
refuses. Typed access keeps to it. A string looks for the channel before the rights, and this shows:
a requester who lacks the rights is told which channels there are.
-/
import VariableRegistry.Proofs.Constants
import VariableRegistry.Proofs.TypedContract

namespace VariableRegistry

/-! ## Checks in an order -/

/-- What an access is checked for. -/
inductive Check where
  /-- That a variable has the handle. -/
  | handle
  /-- That the variable can be reached in this way. -/
  | type
  /-- That the rights of the requester suffice. -/
  | rights
  /-- That the variable has the channel. -/
  | channel
  /-- That the variable takes what is written. -/
  | policy

namespace Check

/-- The order that is meant for every access. -/
def documented : List Check := [handle, type, rights, channel, policy]

/-- The order in which a string is checked. -/
def ofStrings : List Check := [handle, type, channel, rights, policy]

end Check

/-- The error that checks in an order end with: that of the first one that objects, if any does. -/
inductive FirstError (objects : Check → AccessError → Prop) :
    List Check → Option AccessError → Prop where
  | passed : FirstError objects [] none
  | here {c : Check} {cs : List Check} {e : AccessError} (h : objects c e) :
      FirstError objects (c :: cs) (some e)
  | later {c : Check} {cs : List Check} {e? : Option AccessError} (h : ∀ e, ¬objects c e)
      (hrest : FirstError objects cs e?) : FirstError objects (c :: cs) e?

section

variable {objects : Check → AccessError → Prop} {c : Check} {cs : List Check} {e : AccessError}
  {e? : Option AccessError}

/-- A check that does not object leaves it to the next ones. -/
theorem firstError_cons_of_passed (h : ∀ e, ¬objects c e) :
    FirstError objects (c :: cs) e? ↔ FirstError objects cs e? := by
  constructor
  · intro hfirst
    rcases hfirst with _ | hobjects | ⟨-, hrest⟩
    · exact absurd hobjects (h _)
    · exact hrest
  · exact .later h

/-- A check that objects with one error decides. -/
theorem firstError_cons_of_objects (h : ∀ e', objects c e' ↔ e' = e) :
    FirstError objects (c :: cs) e? ↔ e? = some e := by
  constructor
  · intro hfirst
    rcases hfirst with _ | hobjects | ⟨hnone, -⟩
    · rw [(h _).1 hobjects]
    · exact absurd ((h e).2 rfl) (hnone e)
  · rintro rfl
    exact .here ((h e).2 rfl)

/-- The last check settles whether there is an error at all. -/
theorem firstError_last (h : ∀ e, objects c e ↔ e? = some e) : FirstError objects [c] e? := by
  rcases e? with _ | e
  · exact .later (fun e he => nomatch (h e).1 he) .passed
  · exact .here ((h e).2 rfl)

end

namespace Registry

variable {t : TableSet} {r : Registry} {q : Request} {d : Descriptor}

/-! ## Objections -/

/-- A check objects to a request with an error. Which variables are taken, and what they refuse
where their channel is there, depends on the access. -/
inductive Objects (r : Registry) (q : Request) (takes : Descriptor → Prop)
    (refuses : Descriptor → AccessError → Prop) : Check → AccessError → Prop where
  | unknown (h : ∀ d, r.descriptor q.handle ≠ .ok d) :
      Objects r q takes refuses .handle .unknownHandle
  | otherType {d : Descriptor} (hd : r.descriptor q.handle = .ok d) (h : ¬takes d) :
      Objects r q takes refuses .type .invalidType
  | denied {d : Descriptor} (hd : r.descriptor q.handle = .ok d) (h : ¬r.Grants d q) :
      Objects r q takes refuses .rights .accessDenied
  | scalar {d : Descriptor} (hd : r.descriptor q.handle = .ok d) (hpos : 0 < q.channel)
      (hv : d.vector = false) : Objects r q takes refuses .channel .notVector
  | outside {d : Descriptor} (hd : r.descriptor q.handle = .ok d) (hpos : 0 < q.channel)
      (hv : d.vector = true) (hlast : d.channels ≤ q.channel) :
      Objects r q takes refuses .channel .invalidChannel
  | refused {d : Descriptor} {e : AccessError} (hd : r.descriptor q.handle = .ok d)
      (h : refuses d e) : Objects r q takes refuses .policy e

section

variable {takes : Descriptor → Prop} {refuses : Descriptor → AccessError → Prop}
  {cs : List Check} {e? : Option AccessError}

theorem objects_channel_iff (hd : r.descriptor q.handle = .ok d) {e : AccessError} :
    r.Objects q takes refuses .channel e ↔ d.checkChannel q.channel = .error e := by
  constructor
  · intro h
    rcases h with _ | _ | _ | ⟨hd', hpos, hv⟩ | ⟨hd', hpos, hv, hlast⟩
    · cases hd.symm.trans hd'
      exact checkChannel_of_scalar hpos hv
    · cases hd.symm.trans hd'
      exact checkChannel_of_last hpos hv hlast
  · intro h
    rcases hasChannel_or d q.channel with hchannel | ⟨hpos, hv⟩ | ⟨hpos, hv, hlast⟩
    · rw [checkChannel_eq_ok.2 hchannel] at h
      cases h
    · rw [checkChannel_of_scalar hpos hv] at h
      cases h
      exact .scalar hd hpos hv
    · rw [checkChannel_of_last hpos hv hlast] at h
      cases h
      exact .outside hd hpos hv hlast

/-- A variable that is there and taken is checked further. -/
theorem firstError_of_taken (hd : r.descriptor q.handle = .ok d) (ht : takes d) :
    FirstError (r.Objects q takes refuses) (.handle :: .type :: cs) e? ↔
      FirstError (r.Objects q takes refuses) cs e? := by
  have hhandle : ∀ e, ¬r.Objects q takes refuses .handle e := by
    rintro _ ⟨hnone⟩
    exact hnone d hd
  have htype : ∀ e, ¬r.Objects q takes refuses .type e := by
    rintro _ (_ | ⟨hd', hnot⟩)
    cases hd.symm.trans hd'
    exact hnot ht
  rw [firstError_cons_of_passed hhandle, firstError_cons_of_passed htype]

theorem firstError_of_grants (hd : r.descriptor q.handle = .ok d) (hg : r.Grants d q) :
    FirstError (r.Objects q takes refuses) (.rights :: cs) e? ↔
      FirstError (r.Objects q takes refuses) cs e? := by
  apply firstError_cons_of_passed
  rintro _ (_ | _ | ⟨hd', hnot⟩)
  cases hd.symm.trans hd'
  exact hnot hg

theorem firstError_of_not_grants (hd : r.descriptor q.handle = .ok d) (hg : ¬r.Grants d q) :
    FirstError (r.Objects q takes refuses) (.rights :: cs) e? ↔ e? = some .accessDenied := by
  apply firstError_cons_of_objects
  intro e
  constructor
  · rintro (_ | _ | _)
    rfl
  · rintro rfl
    exact .denied hd hg

theorem firstError_of_hasChannel (hd : r.descriptor q.handle = .ok d)
    (hchannel : d.HasChannel q.channel) :
    FirstError (r.Objects q takes refuses) (.channel :: cs) e? ↔
      FirstError (r.Objects q takes refuses) cs e? := by
  apply firstError_cons_of_passed
  intro e he
  rw [objects_channel_iff hd, checkChannel_eq_ok.2 hchannel] at he
  cases he

theorem firstError_of_not_hasChannel (hd : r.descriptor q.handle = .ok d)
    (hchannel : ¬d.HasChannel q.channel) :
    FirstError (r.Objects q takes refuses) (.channel :: cs) e? ↔
      e? = some (if d.vector then .invalidChannel else .notVector) := by
  apply firstError_cons_of_objects
  intro e
  rw [objects_channel_iff hd, checkChannel_of_not_hasChannel hchannel, Except.error.injEq, eq_comm]

/-- What a variable refuses is the error where all other checks were passed. -/
theorem firstError_refused (hd : r.descriptor q.handle = .ok d)
    (h : ∀ e, refuses d e ↔ e? = some e) :
    FirstError (r.Objects q takes refuses) [.policy] e? := by
  apply firstError_last
  intro e
  rw [← h]
  constructor
  · rintro (_ | _ | _ | _ | _ | ⟨hd', he⟩)
    cases hd.symm.trans hd'
    exact he
  · exact .refused hd

end

/-! ## Typed access -/

/-- A variable refuses to take a value: a number one that its bounds exclude, an enumeration one
that no member has. -/
inductive RefusesValue (r : Registry) (q : Request) :
    (u : NumType) → u.Carrier → Descriptor → AccessError → Prop where
  | number {u : NumType} {v : u.Carrier} {d : Descriptor} {template data : Nat}
      {c : Cell u.Carrier} {e : AccessError} (hk : d.kind = .number u template data)
      (hq : q.direction = .write)
      (hc : (r.store.numbers.get u)[data + q.channel.toNat]? = some c)
      (he : boundedValue u d.rights c v = .error e) : RefusesValue r q u v d e
  | member {v : Int16} {d : Descriptor} {members data : Nat} {e : Enumeration}
      (hk : d.kind = .enumeration members data) (hq : q.direction = .write)
      (he : r.directory.enums[members]? = some e) (hv : ∀ m ∈ e.members, m.value ≠ v) :
      RefusesValue r q .int16 v d .invalidEnum

/-- An admitted write fails with what the variable refuses, and an admitted read does not fail. -/
theorem Admits.refusesValue_iff (hr : r.Belongs t) (h : r.Admits q d) {u : NumType}
    (hu : d.DeclaredAs u) (v : u.Carrier) (e : AccessError) :
    r.RefusesValue q u v d e ↔ (r.step (.typed u q v)).1.error? = some e := by
  rcases declaredAs_cases hu with ⟨template, data, hk⟩ | ⟨rfl, members, data, hk⟩
  · obtain ⟨c, hc⟩ := h.number_cell hr hk
    have hrefuses : r.RefusesValue q u v d e ↔
        q.direction = .write ∧ boundedValue u d.rights c v = .error e := by
      constructor
      · rintro (⟨hk', hq, hc', he⟩ | ⟨hk', -, -, -⟩)
        · cases hk.symm.trans hk'
          cases hc.symm.trans hc'
          exact ⟨hq, he⟩
        · cases hk.symm.trans hk'
      · rintro ⟨hq, he⟩
        exact .number hk hq hc he
    rw [hrefuses]
    simp only [step, h.outcome_number hk hc, Reply.error?]
    cases q.direction with
    | read => simp [errorOf]
    | write => cases hx : boundedValue u d.rights c v <;> simp [errorOf]
  · obtain ⟨m, hm⟩ := hr.exists_enumeration (descriptor_eq_ok.2 h.known) hk
    obtain ⟨x, hx⟩ := h.member_cell hr hk
    have hrefuses : r.RefusesValue q .int16 v d e ↔
        q.direction = .write ∧ m.contains v = false ∧ e = .invalidEnum := by
      rw [← Bool.not_eq_true, contains_iff]
      constructor
      · rintro (⟨hk', -, -, -⟩ | ⟨hk', hq, hm', hv⟩)
        · cases hk.symm.trans hk'
        · cases hk.symm.trans hk'
          cases hm.symm.trans hm'
          refine ⟨hq, ?_, rfl⟩
          rintro ⟨x, hx, hxv⟩
          exact hv x hx hxv
      · rintro ⟨hq, hv, rfl⟩
        exact .member hk hq hm fun x hx hxv => hv ⟨x, hx, hxv⟩
    rw [hrefuses]
    simp only [step, h.outcome_member hk hm hx, Reply.error?]
    cases q.direction with
    | read => simp [errorOf]
    | write => cases hv : m.contains v <;> simp [errorOf, eq_comm]

/-- **Typed access is checked in the order that is meant for it.** -/
theorem typed_errors_in_documented_order (t : TableSet) (r : Registry) (hreach : Reachable t r)
    (q : Request) (u : NumType) (v : u.Carrier) :
    FirstError (r.Objects q (·.DeclaredAs u) (r.RefusesValue q u v)) Check.documented
      (r.step (.typed u q v)).1.error? := by
  have hr : r.Belongs t := hreach.belongs
  cases hd : r.descriptor q.handle with
  | error e =>
    have hknown : r.directory.vars[q.handle.index]? = none := by
      rw [Option.eq_none_iff_forall_not_mem]
      intro d hd'
      rw [descriptor_eq_ok.2 hd'] at hd
      cases hd
    simp only [step, outcome_unknown hknown, Reply.error?]
    exact .here (.unknown fun d hd' => by cases hd.symm.trans hd')
  | ok d =>
    have hknown := descriptor_eq_ok.1 hd
    by_cases hu : d.DeclaredAs u
    · rw [Check.documented, firstError_of_taken hd hu]
      by_cases hg : r.Grants d q
      · rw [firstError_of_grants hd hg]
        by_cases hchannel : d.HasChannel q.channel
        · rw [firstError_of_hasChannel hd hchannel]
          exact firstError_refused hd (Admits.refusesValue_iff hr ⟨hknown, hg, hchannel⟩ hu v)
        · have hcheck := check_of_checkChannel hg (checkChannel_of_not_hasChannel hchannel)
          rw [firstError_of_not_hasChannel hd hchannel]
          simp only [step, outcome_typed_of_check hknown hu hcheck, Reply.error?, errorOf]
      · rw [firstError_of_not_grants hd hg]
        simp only [step, outcome_typed_of_check hknown hu (check_of_not_grants hg), Reply.error?,
          errorOf]
    · simp only [step, outcome_of_other_type hknown hu, Reply.error?, errorOf]
      refine .later ?_ (.here (.otherType hd hu))
      rintro _ ⟨hnone⟩
      exact hnone d hd

/-! ## Access to strings as text -/

/-- A variable refuses to take a text: a constant takes none, and a string cell none that is too
long for it. -/
inductive RefusesText (q : Request) (s : String) (d : Descriptor) : AccessError → Prop where
  | constant {offset : Nat} (hk : d.kind = .constant offset) (hq : q.direction = .write) :
      RefusesText q s d .accessDenied
  | long {default data : Nat} (hk : d.kind = .string default data) (hq : q.direction = .write)
      (hlong : 31 < Utf8.size (beforeZero s).toList) : RefusesText q s d .sizeTooBig

/-- A check objects to access as text; every variable but an action has a text. -/
def ObjectsToText (r : Registry) (q : Request) (s : String) : Check → AccessError → Prop :=
  r.Objects q (·.varType ≠ .action) (RefusesText q s)

section

variable {s : String} (hd : r.descriptor q.handle = .ok d) (hs : d.varType = .string)

include hd hs

/-- A channel that a string does not have is called so whoever asks. -/
theorem stringError_of_not_hasChannel (hchannel : ¬d.HasChannel q.channel) :
    (r.step (.text q s)).1.error? = some (if d.vector then .invalidChannel else .notVector) := by
  have hcheck := checkChannel_of_not_hasChannel hchannel
  rcases kind_of_string hs with ⟨default, data, hk⟩ | ⟨offset, hk⟩
  · have hcell : r.stringCell q d data =
        .error (if d.vector then .invalidChannel else .notVector) := by
      unfold stringCell
      rw [hcheck]
      rfl
    simp only [step, outcome_text_string hd hk, outcome_string, hcell, Reply.error?, errorOf]
  · simp only [step, outcome_text_constant hd hk, outcome_constant, hcheck, Reply.error?, errorOf]

theorem stringError_of_not_grants (hchannel : d.HasChannel q.channel) (hg : ¬r.Grants d q) :
    (r.step (.text q s)).1.error? = some .accessDenied := by
  have hcheck := checkChannel_eq_ok.2 hchannel
  have hgate := gate_of_not_grants hg
  rcases kind_of_string hs with ⟨default, data, hk⟩ | ⟨offset, hk⟩
  · have hcell : r.stringCell q d data = .error .accessDenied := by
      unfold stringCell
      rw [hcheck, ok_bind, hgate]
      rfl
    simp only [step, outcome_text_string hd hk, outcome_string, hcell, Reply.error?, errorOf]
  · -- a constant does not look at the rights of who writes, but denies the write anyway
    simp only [step, outcome_text_constant hd hk, outcome_constant, hcheck, hgate, Reply.error?]
    cases q.direction <;> rfl

/-- An admitted access to a string fails with what the string refuses and with nothing else. -/
theorem refusesText_iff (hr : r.Belongs t) (hchannel : d.HasChannel q.channel)
    (hg : r.Grants d q) (e : AccessError) :
    RefusesText q s d e ↔ (r.step (.text q s)).1.error? = some e := by
  rcases kind_of_string hs with ⟨default, data, hk⟩ | ⟨offset, hk⟩
  · have hrefuses : RefusesText q s d e ↔
        q.direction = .write ∧ fitsCell (beforeZero s) = false ∧ e = .sizeTooBig := by
      rw [fitsCell, decide_eq_false_iff_not, Nat.not_le]
      constructor
      · rintro (⟨hk', -⟩ | ⟨-, hq, hlong⟩)
        · cases hk.symm.trans hk'
        · exact ⟨hq, hlong, rfl⟩
      · rintro ⟨hq, hlong, rfl⟩
        exact .long hk hq hlong
    obtain ⟨current, hcell⟩ := hr.exists_stringCell hd hk (checkChannel_eq_ok.2 hchannel)
    rw [hrefuses, step_string hd hk hchannel hg hcell]
    cases q.direction with
    | read => simp [Reply.error?, errorOf]
    | write => cases fitsCell (beforeZero s) <;> simp [Reply.error?, errorOf, eq_comm]
  · have hrefuses : RefusesText q s d e ↔ q.direction = .write ∧ e = .accessDenied := by
      constructor
      · rintro (⟨-, hq⟩ | ⟨hk', -, -⟩)
        · exact ⟨hq, rfl⟩
        · cases hk.symm.trans hk'
      · rintro ⟨hq, rfl⟩
        exact .constant hk hq
    rw [hrefuses]
    cases hq : q.direction with
    | read =>
      obtain ⟨text, htext⟩ := hr.exists_text hd hk
      simp [step_read_constant hd hk hq hchannel hg htext, Reply.error?, errorOf]
    | write =>
      simp [step_write_constant hd hk hq, checkChannel_eq_ok.2 hchannel, Reply.error?, errorOf,
        eq_comm]

end

/-- What a requester without the rights to a string of two channels is told of its third channel and
of its first one. -/
theorem exists_init_texts : ∃ r d, Registry.init .texts = .ok r ∧ r.descriptor ⟨0⟩ = .ok d ∧
    d.varType = .string ∧ ¬r.Grants d ⟨⟨0⟩, .read, 2, ⟨0x0022⟩⟩ ∧ ¬d.HasChannel 2 ∧
    (r.step (.text ⟨⟨0⟩, .read, 2, ⟨0x0022⟩⟩ "")).1.error? = some .invalidChannel ∧
    (r.step (.text ⟨⟨0⟩, .read, 0, ⟨0x0022⟩⟩ "")).1.error? = some .accessDenied := by
  have hread : ((Registry.init .texts).toOption.bind fun r =>
      (r.descriptor ⟨0⟩).toOption.map fun d => (d, r.policy,
        (r.step (.text ⟨⟨0⟩, .read, 2, ⟨0x0022⟩⟩ "")).1.error?,
        (r.step (.text ⟨⟨0⟩, .read, 0, ⟨0x0022⟩⟩ "")).1.error?)) =
      some (⟨⟨0⟩, none, .string 5 0, 2, true, ⟨0x0011⟩, .ram, .default⟩, .exact,
        some .invalidChannel, some .accessDenied) := by
    decide +kernel
  obtain ⟨r, hr, hd⟩ := Option.bind_eq_some_iff.1 hread
  obtain ⟨d, hd, heq⟩ := Option.map_eq_some_iff.1 hd
  simp only [Prod.mk.injEq] at heq
  obtain ⟨rfl, hpolicy, hthird, hfirst⟩ := heq
  rw [toOption_eq_some] at hr hd
  refine ⟨r, _, hr, hd, rfl, ?_, ?_, hthird, hfirst⟩
  · unfold Grants
    rw [hpolicy]
    decide
  · unfold Descriptor.HasChannel
    decide

/-- **A string looks for the channel before the rights.** In every state that calls lead to, access
to a string, constant or not, ends with the error of the first check that objects in this order; it
is the error of the order that is meant for every access exactly if the requester has the rights or
the string has the channel. -/
theorem string_errors_in_documented_order_iff (t : TableSet) (r : Registry)
    (hreach : Reachable t r) (q : Request) (d : Descriptor) (s : String)
    (hd : r.descriptor q.handle = .ok d) (hs : d.varType = .string) :
    FirstError (r.ObjectsToText q s) Check.ofStrings (r.step (.text q s)).1.error? ∧
    (FirstError (r.ObjectsToText q s) Check.documented (r.step (.text q s)).1.error? ↔
      r.Grants d q ∨ d.HasChannel q.channel) := by
  have htaken : d.varType ≠ .action := by
    rw [hs]
    nofun
  unfold ObjectsToText Check.ofStrings Check.documented
  rw [firstError_of_taken hd htaken, firstError_of_taken hd htaken]
  by_cases hchannel : d.HasChannel q.channel
  · rw [firstError_of_hasChannel hd hchannel]
    by_cases hg : r.Grants d q
    · -- admitted, so that both orders come to what the string refuses
      have hrefused : FirstError (r.Objects q (·.varType ≠ .action) (RefusesText q s)) [.policy]
          (r.step (.text q s)).1.error? :=
        firstError_refused hd (refusesText_iff hd hs hreach.belongs hchannel hg)
      rw [firstError_of_grants hd hg, firstError_of_grants hd hg,
        firstError_of_hasChannel hd hchannel]
      exact ⟨hrefused, iff_of_true hrefused (.inl hg)⟩
    · have herror := stringError_of_not_grants (s := s) hd hs hchannel hg
      rw [firstError_of_not_grants hd hg, firstError_of_not_grants hd hg]
      exact ⟨herror, iff_of_true herror (.inr hchannel)⟩
  · have herror := stringError_of_not_hasChannel (s := s) hd hs hchannel
    rw [firstError_of_not_hasChannel hd hchannel]
    refine ⟨herror, ?_⟩
    by_cases hg : r.Grants d q
    · rw [firstError_of_grants hd hg, firstError_of_not_hasChannel hd hchannel]
      exact iff_of_true herror (.inl hg)
    · -- the error of the channel is not the denial, which would have come first
      rw [firstError_of_not_grants hd hg, herror]
      refine iff_of_false ?_ (not_or.2 ⟨hg, hchannel⟩)
      cases d.vector <;> simp

/-- The third channel of a string of two is called invalid to a requester without the rights, who
would be denied in the order that is meant; the first one is denied in either order. -/
theorem texts_errors_in_order : ∃ r d, Reachable .texts r ∧ r.descriptor ⟨0⟩ = .ok d ∧
    d.varType = .string ∧ ¬r.Grants d ⟨⟨0⟩, .read, 2, ⟨0x0022⟩⟩ ∧
    FirstError (r.ObjectsToText ⟨⟨0⟩, .read, 2, ⟨0x0022⟩⟩ "") Check.ofStrings
      (some .invalidChannel) ∧
    ¬FirstError (r.ObjectsToText ⟨⟨0⟩, .read, 2, ⟨0x0022⟩⟩ "") Check.documented
      (some .invalidChannel) ∧
    FirstError (r.ObjectsToText ⟨⟨0⟩, .read, 0, ⟨0x0022⟩⟩ "") Check.documented
      (some .accessDenied) := by
  obtain ⟨r, d, hr, hd, hs, hdenied, hnone, hthird, hfirst⟩ := exists_init_texts
  obtain ⟨hstrings, hthird'⟩ := string_errors_in_documented_order_iff .texts r (.init hr)
    ⟨⟨0⟩, .read, 2, ⟨0x0022⟩⟩ d "" hd hs
  obtain ⟨-, hfirst'⟩ := string_errors_in_documented_order_iff .texts r (.init hr)
    ⟨⟨0⟩, .read, 0, ⟨0x0022⟩⟩ d "" hd hs
  rw [hthird] at hstrings hthird'
  rw [hfirst] at hfirst'
  refine ⟨r, d, .init hr, hd, hs, hdenied, hstrings, ?_, hfirst'.2 (.inr (.inl rfl))⟩
  intro hdocumented
  rcases hthird'.1 hdocumented with hgrants | hchannel
  · exact hdenied hgrants
  · exact hnone hchannel

/-- Access to a string does not always end with the error of the order that is meant for it: a
channel that is not there is named to a requester without the rights. -/
theorem string_channel_before_rights :
    ¬∀ (t : TableSet) (r : Registry) (q : Request) (d : Descriptor) (s : String), Reachable t r →
      r.descriptor q.handle = .ok d → d.varType = .string →
        FirstError (r.ObjectsToText q s) Check.documented (r.step (.text q s)).1.error? := by
  intro hall
  obtain ⟨r, d, hr, hd, hs, hdenied, -, hthird, -⟩ := exists_init_texts
  have hfirst := hall .texts r ⟨⟨0⟩, .read, 2, ⟨0x0022⟩⟩ d "" (.init hr) hd hs
  have htaken : d.varType ≠ .action := by
    rw [hs]
    nofun
  unfold ObjectsToText Check.documented at hfirst
  rw [firstError_of_taken hd htaken, firstError_of_not_grants hd hdenied, hthird] at hfirst
  cases hfirst

end Registry

end VariableRegistry
