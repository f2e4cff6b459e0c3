/-
# Calls without effect

A call that fails leaves no trace: neither in the registry nor in the argument that the caller
handed in. A call that only asks leaves the registry as it is, and a call that stores leaves the
argument as it is.
-/
import VariableRegistry.Proofs.Effects

namespace VariableRegistry

/-! ## Arguments and errors of calls -/

/-- What a caller hands in and gets back. -/
inductive Argument where
  | nothing
  | value (type : NumType) (value : type.Carrier)
  | text (text : String)
  | buffer (buffer : List UInt8)

/-- The argument that a call hands in. -/
def Call.argument : Call → Argument
  | typed t _ v => .value t v
  | text _ s => .text s
  | getBound _ _ buffer _ => .buffer buffer
  | dump _ buffer _ => .buffer buffer
  | _ => .nothing

/-- The argument as the caller gets it back. -/
def Reply.argument : Reply → Argument
  | typed t _ v => .value t v
  | text _ s => .text s
  | buffer _ bytes => .buffer bytes
  | dump _ bytes => .buffer bytes
  | _ => .nothing

/-- The error of a result. -/
def errorOf {α : Type} : Except AccessError α → Option AccessError
  | .ok _ => none
  | .error e => some e

theorem errorOf_eq_some {α : Type} {x : Except AccessError α} {e : AccessError} :
    errorOf x = some e ↔ x = .error e := by
  cases x <;> simp [errorOf]

theorem errorOf_eq_none {x : Except AccessError Unit} : errorOf x = none ↔ x = .ok () := by
  cases x <;> simp [errorOf]

/-- The error with which an access answers. -/
def Reply.error? : Reply → Option AccessError
  | typed _ result _ => errorOf result
  | text result _ => errorOf result
  | buffer result _ => errorOf result
  | done result => errorOf result
  | bound result => errorOf result
  | _ => none

/-- Whether a call only asks: it reads a channel or a bound. -/
def Call.Asks : Call → Prop
  | typed _ q _ => q.direction = .read
  | text q _ => q.direction = .read
  | getBound _ _ _ _ => True
  | boundValue _ _ _ => True
  | _ => False

/-- Whether a call stores: it writes to a channel or replaces a bound. -/
def Call.Stores : Call → Prop
  | typed _ q _ => q.direction = .write
  | text q _ => q.direction = .write
  | setBound _ _ _ _ => True
  | setBoundValue _ _ _ _ => True
  | _ => False

namespace Registry

/-! ## Effects of the three classes -/

variable {α : Type} {direction : Direction} {v : α} {r : Registry}
  {o : Except AccessError Unit × α × Registry}

theorem Effect.of_error (h : Effect direction v r o) {e : AccessError}
    (he : errorOf o.1 = some e) : o.2.1 = v ∧ o.2.2 = r := by
  cases h with
  | failed e' => exact ⟨rfl, rfl⟩
  | read _ x => cases he
  | written _ hr => cases he

theorem Effect.of_read (h : Effect direction v r o) (hd : direction = .read) : o.2.2 = r := by
  cases h with
  | failed e => rfl
  | read _ x => rfl
  | written hw hr => exact absurd (hd.symm.trans hw) (by decide)

theorem Effect.of_write (h : Effect direction v r o) (hd : direction = .write) : o.2.1 = v := by
  cases h with
  | failed e => rfl
  | read hr x => exact absurd (hd.symm.trans hr) (by decide)
  | written _ hr => rfl

/-! ## Calls -/

theorem step_of_error {call : Call} {e : AccessError} (he : (r.step call).1.error? = some e) :
    (r.step call).2 = r ∧ (r.step call).1.argument = call.argument := by
  cases call with
  | typed t q v =>
    obtain ⟨hv, hr⟩ := (effect_typed t q v r).of_error he
    exact ⟨hr, congrArg (Argument.value t) hv⟩
  | text q s =>
    obtain ⟨hs, hr⟩ := (effect_text q s r).of_error he
    exact ⟨hr, congrArg Argument.text hs⟩
  | getBound b h buffer channel =>
    obtain ⟨hb, hr⟩ := (effect_getBound b h channel buffer r).of_error he
    exact ⟨hr, congrArg Argument.buffer hb⟩
  | setBound b h bytes channel =>
    exact ⟨((effect_setBound b h bytes channel r).of_error he).2, rfl⟩
  | boundValue b h channel => exact ⟨rfl, rfl⟩
  | setBoundValue b h v channel =>
    exact ⟨((effect_setBoundValue b h v channel r).of_error he).2, rfl⟩
  | setPolicy policy => cases he
  | dump h buffer channel => cases he
  | reset =>
    -- a reset answers with no error of an access
    cases hr : r.reset with
    | ok r' => simp [step, hr, Reply.error?] at he
    | error f => simp [step, hr, Reply.error?] at he

theorem step_of_asks {call : Call} (hasks : call.Asks) : (r.step call).2 = r := by
  cases call with
  | typed t q v => exact (effect_typed t q v r).of_read hasks
  | text q s => exact (effect_text q s r).of_read hasks
  | getBound b h buffer channel => exact (effect_getBound b h channel buffer r).of_read rfl
  | boundValue b h channel => rfl
  | _ => exact hasks.elim

theorem step_of_stores {call : Call} (hstores : call.Stores) :
    (r.step call).1.argument = call.argument := by
  cases call with
  | typed t q v => exact congrArg (Argument.value t) ((effect_typed t q v r).of_write hstores)
  | text q s => exact congrArg Argument.text ((effect_text q s r).of_write hstores)
  | setBound b h bytes channel => rfl
  | setBoundValue b h v channel => rfl
  | _ => exact hstores.elim

/-! ## Buffers -/

theorem length_wordBytes (width n : Nat) : (NumType.wordBytes width n).length = width := by
  induction width generalizing n with
  | zero => rfl
  | succ width ih => simp [NumType.wordBytes, ih]

theorem length_toBytes (t : NumType) (x : t.Carrier) : (t.toBytes x).length = t.byteWidth :=
  length_wordBytes t.byteWidth (t.toWord x)

theorem boundType_eq_ok {h : Handle} {length : Nat} {t : NumType} :
    r.boundType h length = .ok t ↔
      ∃ d template data, r.descriptor h = .ok d ∧ length ≠ 0 ∧
        d.kind = .number t template data ∧ t.byteWidth ≤ length := by
  simp only [boundType, bind_eq_ok, require_eq_ok, demand_eq_ok, numType?_eq_some, pure_eq_ok]
  constructor
  · rintro ⟨d, hd, _, hlength, t', ⟨template, data, hk⟩, _, hwidth, rfl⟩
    exact ⟨d, template, data, hd, by simpa using hlength, hk, by simpa using hwidth⟩
  · rintro ⟨d, template, data, hd, hlength, hk, hwidth⟩
    exact ⟨d, hd, (), by simpa using hlength, t, ⟨template, data, hk⟩, (), by simpa using hwidth,
      rfl⟩

/-- A bound that was got stands in the first bytes of the buffer; the others stay. -/
theorem step_getBound_of_ok {b : Bound} {h : Handle} {buffer buffer' : List UInt8}
    {channel : UInt16}
    (ho : (r.step (.getBound b h buffer channel)).1 = .buffer (.ok ()) buffer') :
    ∃ d t template data, r.descriptor h = .ok d ∧ d.kind = .number t template data ∧
      t.byteWidth ≤ buffer.length ∧ buffer'.length = buffer.length ∧
      buffer'.drop t.byteWidth = buffer.drop t.byteWidth := by
  simp only [step, outcome_getBound] at ho
  cases ht : r.boundType h buffer.length with
  | error e => simp [ht] at ho
  | ok t =>
    obtain ⟨d, template, data, hd, -, hk, hwidth⟩ := boundType_eq_ok.1 ht
    simp only [ht] at ho
    rcases hcell : r.numberCell t h channel fun _ => .ok () with e | ⟨d', i, c⟩
    · simp [hcell] at ho
    · simp only [hcell, Reply.buffer.injEq, true_and] at ho
      subst ho
      have hlength := length_toBytes t (b.get c)
      refine ⟨d, t, template, data, hd, hk, hwidth, ?_, ?_⟩
      · rw [List.length_append, List.length_drop, hlength]
        omega
      · rw [← hlength, List.drop_left]

/-- **Failed calls and questions have no effect.** A call that fails leaves the registry, with its
data, its directory and its policy, and the argument of the caller as they were. A call that asks
leaves the registry as it is, and where it gets a bound it writes to no more than the first bytes
of the buffer, as many as a value of the variable's type has. A call that stores never changes the
argument. -/
theorem failed_or_asking_step_no_effect (r : Registry) (call : Call) :
    (∀ e, (r.step call).1.error? = some e →
      (r.step call).2 = r ∧ (r.step call).1.argument = call.argument) ∧
    (call.Asks → (r.step call).2 = r) ∧
    (∀ b h buffer channel buffer', call = .getBound b h buffer channel →
      (r.step call).1 = .buffer (.ok ()) buffer' →
      ∃ d t template data, r.descriptor h = .ok d ∧ d.kind = .number t template data ∧
        t.byteWidth ≤ buffer.length ∧ buffer'.length = buffer.length ∧
        buffer'.drop t.byteWidth = buffer.drop t.byteWidth) ∧
    (call.Stores → (r.step call).1.argument = call.argument) := by
  refine ⟨fun e he => step_of_error he, step_of_asks, ?_, step_of_stores⟩
  rintro b h buffer channel buffer' rfl ho
  exact step_getBound_of_ok ho

end Registry

end VariableRegistry
