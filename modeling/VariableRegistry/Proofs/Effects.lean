/-
# What accesses change

An access fails and changes nothing, or it reads and changes the argument alone, or it writes and
changes one cell alone. `Change` lists every way in which a call can change a registry, with all
that was checked before it; `Effect` puts an access into one of its three classes.
-/
import VariableRegistry.Proofs.Outcomes

namespace VariableRegistry.Registry

/-- One registry becomes another one by a call. -/
inductive Change (r : Registry) : Registry → Prop where
  /-- The value of a number cell is replaced as its bounds allow. -/
  | value {h : Handle} {d : Descriptor} {t : NumType} {template data : Nat} {channel : UInt16}
      {c : Cell t.Carrier} {v x : t.Carrier} (hd : r.descriptor h = .ok d)
      (hk : d.kind = .number t template data) (hchannel : d.checkChannel channel = .ok ())
      (hc : (r.store.numbers.get t)[data + channel.toNat]? = some c)
      (hx : boundedValue t d.rights c v = .ok x) :
      Change r (r.setCell t (data + channel.toNat) { c with value := x })
  /-- A bound of a number cell is replaced. -/
  | bound {h : Handle} {d : Descriptor} {t : NumType} {template data : Nat} {channel : UInt16}
      {c : Cell t.Carrier} (b : Bound) (x : t.Carrier) (hd : r.descriptor h = .ok d)
      (hk : d.kind = .number t template data) (hchannel : d.checkChannel channel = .ok ())
      (hc : (r.store.numbers.get t)[data + channel.toNat]? = some c) :
      Change r (r.setCell t (data + channel.toNat) (b.set c x))
  /-- An enumeration cell takes the value of a member. -/
  | member {h : Handle} {d : Descriptor} {members data : Nat} {channel : UInt16}
      {e : Enumeration} {v : Int16} (hd : r.descriptor h = .ok d)
      (hk : d.kind = .enumeration members data) (hchannel : d.checkChannel channel = .ok ())
      (he : r.directory.enumeration members = .ok e) (hv : e.contains v = true) :
      Change r (r.setEnum (data + channel.toNat) v)
  /-- A string cell takes a text that fits. -/
  | text {h : Handle} {d : Descriptor} {default data : Nat} {channel : UInt16} {s : String}
      (hd : r.descriptor h = .ok d) (hk : d.kind = .string default data)
      (hchannel : d.checkChannel channel = .ok ()) (hs : fitsCell (beforeZero s) = true) :
      Change r (r.setString (data + channel.toNat) (beforeZero s))
  /-- The way in which capabilities are compared is replaced. -/
  | policy (policy : AccessPolicy) : Change r (r.setPolicy policy)
  /-- Every variable takes its default. -/
  | reset {r' : Registry} (h : r.reset = .ok r') : Change r r'

/-- The three classes of accesses, by what they leave behind. -/
inductive Effect {α : Type} (direction : Direction) (v : α) (r : Registry) :
    Except AccessError Unit × α × Registry → Prop where
  | failed (e : AccessError) : Effect direction v r (.error e, v, r)
  | read (h : direction = .read) (x : α) : Effect direction v r (.ok (), x, r)
  | written (h : direction = .write) {r' : Registry} (hr : r.Change r') :
      Effect direction v r (.ok (), v, r')

/-! ## Typed access -/

theorem effect_number (t : NumType) (q : Request) (v : t.Carrier) (r : Registry) :
    Effect q.direction v r ((number t q).outcome v r) := by
  rw [outcome_number]
  rcases hcell : r.numberCell t q.handle q.channel (r.gate q) with e | ⟨d, i, c⟩
  · exact .failed e
  · obtain ⟨hd, template, data, hk, -, hchannel, rfl, hc⟩ := numberCell_eq_ok.1 hcell
    cases hq : q.direction with
    | read => exact .read rfl c.value
    | write =>
      simp only
      cases hx : boundedValue t d.rights c v with
      | error e => exact .failed e
      | ok x => exact .written rfl (.value hd hk hchannel hc hx)

theorem effect_member (q : Request) (v : Int16) (r : Registry) :
    Effect q.direction v r ((member q).outcome v r) := by
  rw [outcome_member]
  rcases hcell : r.memberCell q.handle q.channel (r.gate q) with e | ⟨members, i, x⟩
  · exact .failed e
  · obtain ⟨d, data, hd, hk, -, hchannel, rfl, hc⟩ := memberCell_eq_ok.1 hcell
    cases hq : q.direction with
    | read => exact .read rfl x
    | write =>
      simp only
      cases he : r.directory.enumeration members with
      | error e => exact .failed e
      | ok m =>
        by_cases hv : m.contains v = true
        · simp only [hv, if_true]
          exact .written rfl (.member hd hk hchannel he hv)
        · simp only [hv]
          exact .failed .invalidEnum

theorem effect_typed (t : NumType) (q : Request) (v : t.Carrier) (r : Registry) :
    Effect q.direction v r ((typed t q).outcome v r) :=
  typed_cases (motive := fun _ v o => Effect q.direction v r o)
    (fun t v => effect_number t q v r) (fun v => effect_member q v r) t v

/-! ## Access as text -/

theorem effect_string (q : Request) (d : Descriptor) (data : Nat) (s : String) (r : Registry)
    {default : Nat} (hd : r.descriptor q.handle = .ok d) (hk : d.kind = .string default data) :
    Effect q.direction s r ((string q d data).outcome s r) := by
  rw [outcome_string]
  rcases hcell : r.stringCell q d data with e | ⟨i, current⟩
  · exact .failed e
  · obtain ⟨hchannel, -, rfl, -⟩ := stringCell_eq_ok.1 hcell
    cases hq : q.direction with
    | read => exact .read rfl current
    | write =>
      by_cases hs : fitsCell (beforeZero s) = true
      · simp only [hs, if_true]
        exact .written rfl (.text hd hk hchannel hs)
      · simp only [hs]
        exact .failed .sizeTooBig

theorem effect_constant (q : Request) (d : Descriptor) (offset : Nat) (s : String)
    (r : Registry) : Effect q.direction s r ((constant q d offset).outcome s r) := by
  rw [outcome_constant]
  cases d.checkChannel q.channel with
  | error e => exact .failed e
  | ok _ =>
    cases hq : q.direction with
    | write => exact .failed .accessDenied
    | read =>
      cases r.gate q d with
      | error e => exact .failed e
      | ok _ =>
        cases r.directory.blob.textAt? offset with
        | none => exact .failed .generic
        | some text => exact .read rfl _

/-- Access through text has the effect of the typed access behind it. -/
theorem effect_textual (t : NumType) (q : Request) (format : Format)
    (parse : String → Except AccessError t.Carrier) (s : String) (r : Registry) :
    Effect q.direction s r ((textual t q format parse).outcome s r) := by
  rw [outcome_textual]
  cases hq : q.direction with
  | write =>
    cases parse s with
    | error e => exact .failed e
    | ok v =>
      simp only
      -- what a write through text leaves behind is what the write of the value left behind
      have h := effect_typed t q v r
      generalize (typed t q).outcome v r = o at h ⊢
      cases h with
      | failed e => exact .failed e
      | read hread x => exact absurd (hq.symm.trans hread) (by decide)
      | written _ hr => exact .written rfl hr
  | read =>
    simp only
    have h := effect_typed t q t.zero r
    generalize (typed t q).outcome t.zero r = o at h ⊢
    cases h with
    | failed e => exact .failed e
    | read _ x => exact .read rfl _
    | written hwrite _ => exact absurd (hq.symm.trans hwrite) (by decide)

theorem effect_text (q : Request) (s : String) (r : Registry) :
    Effect q.direction s r ((text q).outcome s r) := by
  rw [outcome_text]
  cases hd : r.descriptor q.handle with
  | error e => exact .failed e
  | ok d =>
    cases hk : d.kind with
    | number t _ _ => simpa only [hk] using effect_textual t q d.format _ s r
    | enumeration members _ => simpa only [hk] using effect_textual .int16 q d.format _ s r
    | string _ data => simpa only [hk] using effect_string q d data s r hd hk
    | constant offset => simpa only [hk] using effect_constant q d offset s r
    | action => simpa only [hk] using Effect.failed .invalidType

/-! ## Access to bounds -/

theorem effect_getBound (b : Bound) (h : Handle) (channel : UInt16) (buffer : List UInt8)
    (r : Registry) : Effect .read buffer r ((getBound b h channel).outcome buffer r) := by
  rw [outcome_getBound]
  cases r.boundType h buffer.length with
  | error e => exact .failed e
  | ok t =>
    simp only
    rcases r.numberCell t h channel fun _ => .ok () with e | ⟨d, i, c⟩
    · exact .failed e
    · exact .read rfl _

theorem effect_setBound (b : Bound) (h : Handle) (bytes : List UInt8) (channel : UInt16)
    (r : Registry) : Effect .write () r ((setBound b h bytes channel).outcome () r) := by
  rw [outcome_setBound]
  cases r.boundType h bytes.length with
  | error e => exact .failed e
  | ok t =>
    simp only
    rcases hcell : r.numberCell t h channel fun _ => .ok () with e | ⟨d, i, c⟩
    · exact .failed e
    · obtain ⟨hd, template, data, hk, -, hchannel, rfl, hc⟩ := numberCell_eq_ok.1 hcell
      exact .written rfl (.bound b _ hd hk hchannel hc)

theorem effect_setBoundValue (b : Bound) (h : Handle) (v : NumValue) (channel : UInt16)
    (r : Registry) : Effect .write () r ((setBoundValue b h v channel).outcome () r) := by
  rw [outcome_setBoundValue]
  rcases hcell : r.numberCell v.type h channel fun _ => .ok () with e | ⟨d, i, c⟩
  · exact .failed e
  · obtain ⟨hd, template, data, hk, -, hchannel, rfl, hc⟩ := numberCell_eq_ok.1 hcell
    exact .written rfl (.bound b _ hd hk hchannel hc)

/-! ## Calls -/

/-- The registry after an access is the one before it or a change of that one. -/
theorem Effect.registry {α : Type} {direction : Direction} {v : α} {r : Registry}
    {o : Except AccessError Unit × α × Registry} (h : Effect direction v r o) :
    o.2.2 = r ∨ r.Change o.2.2 := by
  cases h with
  | failed e => exact Or.inl rfl
  | read _ x => exact Or.inl rfl
  | written _ hr => exact Or.inr hr

/-- A call leaves the registry as it is or makes one of the listed changes. -/
theorem step_change (r : Registry) (call : Call) :
    (r.step call).2 = r ∨ r.Change (r.step call).2 := by
  cases call with
  | typed t q v => exact (effect_typed t q v r).registry
  | text q s => exact (effect_text q s r).registry
  | getBound b h buffer channel => exact (effect_getBound b h channel buffer r).registry
  | setBound b h bytes channel => exact (effect_setBound b h bytes channel r).registry
  | boundValue b h channel => exact Or.inl rfl
  | setBoundValue b h v channel => exact (effect_setBoundValue b h v channel r).registry
  | setPolicy policy => exact Or.inr (.policy policy)
  | dump h buffer channel => exact Or.inl rfl
  | reset =>
    cases h : r.reset with
    | ok r' =>
      right
      simpa only [step, h] using Change.reset h
    | error e =>
      left
      simp only [step, h]

end VariableRegistry.Registry
