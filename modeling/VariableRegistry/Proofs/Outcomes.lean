/-
# Outcomes of accesses

What each access does, all at once: its result, the argument and the registry after it. Every
access first finds out, without changing anything, whether it can succeed; that is why a failure
leaves argument and registry as they were.
-/
import VariableRegistry.Proofs.Addressing
import VariableRegistry.Registry.Call

namespace VariableRegistry.Registry

open Access (outcome_bind)

/-! ## Typed access -/

theorem outcome_number (t : NumType) (q : Request) (v : t.Carrier) (r : Registry) :
    (number t q).outcome v r =
      match r.numberCell t q.handle q.channel (r.gate q) with
      | .error e => (.error e, v, r)
      | .ok (d, i, c) =>
        match q.direction with
        | .read => (.ok (), c.value, r)
        | .write =>
          match boundedValue t d.rights c v with
          | .error e => (.error e, v, r)
          | .ok x => (.ok (), v, r.setCell t i { c with value := x }) := by
  simp only [number, outcome_bind, Access.outcome_registry, Access.outcome_liftM]
  -- finding the cell has changed nothing so far, whether it succeeds or not
  rcases r.numberCell t q.handle q.channel (r.gate q) with e | ⟨d, i, c⟩
  · rfl
  · cases q.direction with
    | read => rfl
    | write =>
      -- the bounds are met before the cell is replaced
      simp only [outcome_bind, Access.outcome_argument, Access.outcome_liftM]
      cases boundedValue t d.rights c v <;> rfl

theorem outcome_member (q : Request) (v : Int16) (r : Registry) :
    (member q).outcome v r =
      match r.memberCell q.handle q.channel (r.gate q) with
      | .error e => (.error e, v, r)
      | .ok (members, i, x) =>
        match q.direction with
        | .read => (.ok (), x, r)
        | .write =>
          match r.directory.enumeration members with
          | .error e => (.error e, v, r)
          | .ok m =>
            if m.contains v then (.ok (), v, r.setEnum i v) else (.error .invalidEnum, v, r) := by
  simp only [member, outcome_bind, Access.outcome_registry, Access.outcome_liftM]
  rcases r.memberCell q.handle q.channel (r.gate q) with e | ⟨members, i, x⟩
  · rfl
  · cases q.direction with
    | read => rfl
    | write =>
      simp only [outcome_bind, Access.outcome_argument, Access.outcome_liftM]
      cases r.directory.enumeration members with
      | error e => rfl
      | ok m => cases h : m.contains v <;> simp [require, h]

/-- Typed access to an enumeration is access to its members. -/
theorem outcome_typed_member {q : Request} {v : Int16} {r : Registry} {d : Descriptor}
    {members data : Nat} (hd : r.descriptor q.handle = .ok d)
    (hk : d.kind = .enumeration members data) :
    (typed .int16 q).outcome v r = (member q).outcome v r := by
  simp only [typed, outcome_bind, Access.outcome_registry, Access.outcome_liftM, hd, hk]

/-- Typed access to anything else is access to a number. -/
theorem outcome_typed_number {t : NumType} {q : Request} {v : t.Carrier} {r : Registry}
    (h : t = .int16 → ∀ d members data, r.descriptor q.handle = .ok d →
      d.kind ≠ .enumeration members data) :
    (typed t q).outcome v r = (number t q).outcome v r := by
  cases t with
  | int16 =>
    simp only [typed, outcome_bind, Access.outcome_registry, Access.outcome_liftM]
    cases hd : r.descriptor q.handle with
    | error e =>
      have hcell : r.numberCell .int16 q.handle q.channel (r.gate q) = .error e := by
        simp only [numberCell, hd]
        rfl
      rw [outcome_number, hcell]
    | ok d =>
      simp only
      -- every kind but one is sent the way of numbers
      cases hk : d.kind with
      | enumeration members data => exact absurd hk (h rfl d members data hd)
      | _ => rfl
  | _ => rfl

/-- What holds of access to numbers and, as `INT16`, of access to members holds of typed access. -/
theorem typed_cases {q : Request} {r : Registry}
    {motive : (t : NumType) → t.Carrier → Except AccessError Unit × t.Carrier × Registry → Prop}
    (hnumber : ∀ t v, motive t v ((number t q).outcome v r))
    (hmember : ∀ v, motive .int16 v ((member q).outcome v r)) (t : NumType) (v : t.Carrier) :
    motive t v ((typed t q).outcome v r) := by
  by_cases h : ∃ d members data, r.descriptor q.handle = .ok d ∧
      d.kind = .enumeration members data
  · obtain ⟨d, members, data, hd, hk⟩ := h
    cases t with
    | int16 =>
      rw [outcome_typed_member hd hk]
      exact hmember v
    | _ => exact hnumber _ v
  · rw [outcome_typed_number fun _ d members data hd hk => h ⟨d, members, data, hd, hk⟩]
    exact hnumber t v

/-! ## Access as text -/

theorem outcome_constant (q : Request) (d : Descriptor) (offset : Nat) (s : String)
    (r : Registry) :
    (constant q d offset).outcome s r =
      match d.checkChannel q.channel, q.direction with
      | .error e, _ => (.error e, s, r)
      | .ok (), .write => (.error .accessDenied, s, r)
      | .ok (), .read =>
        match r.gate q d, r.directory.blob.textAt? offset with
        | .error e, _ => (.error e, s, r)
        | .ok (), none => (.error .generic, s, r)
        | .ok (), some text =>
          (.ok (), String.ofList (Utf8.take TableSet.maxStringBytes text.toList), r) := by
  simp only [constant, outcome_bind, Access.outcome_registry, Access.outcome_liftM]
  cases d.checkChannel q.channel with
  | error e => rfl
  | ok _ =>
    cases q.direction with
    | write => rfl
    | read =>
      simp only [outcome_bind, Access.outcome_liftM]
      cases r.gate q d with
      | error e => rfl
      | ok _ => cases r.directory.blob.textAt? offset <;> rfl

theorem outcome_string (q : Request) (d : Descriptor) (data : Nat) (s : String) (r : Registry) :
    (string q d data).outcome s r =
      match r.stringCell q d data with
      | .error e => (.error e, s, r)
      | .ok (i, current) =>
        match q.direction with
        | .read => (.ok (), current, r)
        | .write =>
          if fitsCell (beforeZero s) then (.ok (), s, r.setString i (beforeZero s))
          else (.error .sizeTooBig, s, r) := by
  simp only [string, outcome_bind, Access.outcome_registry, Access.outcome_liftM]
  rcases r.stringCell q d data with e | ⟨i, current⟩
  · rfl
  · cases q.direction with
    | read => rfl
    | write =>
      simp only [outcome_bind, Access.outcome_argument, Access.outcome_liftM]
      cases fitsCell (beforeZero s) <;> simp [require]

theorem outcome_textual (t : NumType) (q : Request) (format : Format)
    (parse : String → Except AccessError t.Carrier) (s : String) (r : Registry) :
    (textual t q format parse).outcome s r =
      match q.direction with
      | .write =>
        match parse s with
        | .error e => (.error e, s, r)
        | .ok v => (((typed t q).outcome v r).1, s, ((typed t q).outcome v r).2.2)
      | .read =>
        match (typed t q).outcome t.zero r with
        | (.ok (), v, r') => (.ok (), t.render v format, r')
        | (.error e, _, r') => (.error e, s, r') := by
  unfold textual
  -- typed access works on a value of its own, so the text is not touched before it succeeds
  cases q.direction with
  | write =>
    simp only [outcome_bind, Access.outcome_argument, Access.outcome_liftM,
      Access.outcome_withArgument]
    cases parse s with
    | error e => rfl
    | ok v =>
      simp only
      rcases (typed t q).outcome v r with ⟨_ | _, _, _⟩ <;> rfl
  | read =>
    simp only [outcome_bind, Access.outcome_withArgument]
    rcases (typed t q).outcome t.zero r with ⟨_ | _, _, _⟩ <;> rfl

theorem outcome_text (q : Request) (s : String) (r : Registry) :
    (text q).outcome s r =
      match r.descriptor q.handle with
      | .error e => (.error e, s, r)
      | .ok d =>
        match d.kind with
        | .number t _ _ => (textual t q d.format (t.parse d.format)).outcome s r
        | .enumeration members _ =>
          (textual .int16 q d.format (r.parseMember members)).outcome s r
        | .string _ data => (string q d data).outcome s r
        | .constant offset => (constant q d offset).outcome s r
        | .action => (.error .invalidType, s, r) := by
  simp only [text, outcome_bind, Access.outcome_registry, Access.outcome_liftM]
  cases r.descriptor q.handle with
  | error e => rfl
  | ok d =>
    simp only
    cases d.kind <;> rfl

/-- Access as text to a number is typed access behind the reader of its type. -/
theorem outcome_text_number {r : Registry} {q : Request} {d : Descriptor} {t : NumType}
    {template data : Nat} (hd : r.descriptor q.handle = .ok d)
    (hk : d.kind = .number t template data) (s : String) :
    (text q).outcome s r = (textual t q d.format (t.parse d.format)).outcome s r := by
  simp only [outcome_text, hd, hk]

/-! ## Access to bounds -/

theorem outcome_getBound (b : Bound) (h : Handle) (channel : UInt16) (buffer : List UInt8)
    (r : Registry) :
    (getBound b h channel).outcome buffer r =
      match r.boundType h buffer.length with
      | .error e => (.error e, buffer, r)
      | .ok t =>
        match r.numberCell t h channel fun _ => .ok () with
        | .error e => (.error e, buffer, r)
        | .ok (_, _, c) => (.ok (), t.toBytes (b.get c) ++ buffer.drop t.byteWidth, r) := by
  simp only [getBound, outcome_bind, Access.outcome_registry, Access.outcome_argument,
    Access.outcome_liftM]
  cases r.boundType h buffer.length with
  | error e => rfl
  | ok t =>
    simp only
    rcases r.numberCell t h channel fun _ => .ok () with e | ⟨d, i, c⟩ <;> rfl

theorem outcome_setBound (b : Bound) (h : Handle) (bytes : List UInt8) (channel : UInt16)
    (u : Unit) (r : Registry) :
    (setBound b h bytes channel).outcome u r =
      match r.boundType h bytes.length with
      | .error e => (.error e, u, r)
      | .ok t =>
        match r.numberCell t h channel fun _ => .ok () with
        | .error e => (.error e, u, r)
        | .ok (_, i, c) => (.ok (), u, r.setCell t i (b.set c (t.ofBytes bytes))) := by
  simp only [setBound, outcome_bind, Access.outcome_registry, Access.outcome_liftM]
  cases r.boundType h bytes.length with
  | error e => rfl
  | ok t =>
    simp only
    rcases r.numberCell t h channel fun _ => .ok () with e | ⟨d, i, c⟩ <;> rfl

theorem outcome_setBoundValue (b : Bound) (h : Handle) (v : NumValue) (channel : UInt16)
    (u : Unit) (r : Registry) :
    (setBoundValue b h v channel).outcome u r =
      match r.numberCell v.type h channel fun _ => .ok () with
      | .error e => (.error e, u, r)
      | .ok (_, i, c) => (.ok (), u, r.setCell v.type i (b.set c v.value)) := by
  simp only [setBoundValue, outcome_bind, Access.outcome_registry, Access.outcome_liftM]
  rcases r.numberCell v.type h channel fun _ => .ok () with e | ⟨d, i, c⟩ <;> rfl

end VariableRegistry.Registry
