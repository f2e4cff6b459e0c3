/-
# Bounds as bytes and as values

Access to a bound through a buffer is access to it as a value: the value that the bytes at the front
of the buffer stand for is stored, and its bytes are what is read back. Both ways fail with the same
errors, but a buffer that is too short for a number is refused before the channel is looked at.
-/
import VariableRegistry.Proofs.BoundedWrites
import VariableRegistry.Proofs.Frames
import VariableRegistry.Proofs.Soundness

namespace VariableRegistry

/-! ## Bytes of values -/

namespace NumType

theorem ofWordBytes_lt (bytes : List UInt8) : ofWordBytes bytes < 256 ^ bytes.length := by
  induction bytes with
  | nil => exact Nat.one_pos
  | cons b bytes ih =>
    have hb : b.toNat < 256 := b.toNat_lt
    rw [ofWordBytes, List.length_cons, Nat.pow_succ]
    omega

/-- The bytes of the number with some bytes are these bytes. -/
theorem wordBytes_ofWordBytes (bytes : List UInt8) :
    wordBytes bytes.length (ofWordBytes bytes) = bytes := by
  induction bytes with
  | nil => rfl
  | cons b bytes ih =>
    have hb : b.toNat < 256 := b.toNat_lt
    have hlow : (b.toNat + 256 * ofWordBytes bytes) % 256 = b.toNat := by omega
    have hhigh : (b.toNat + 256 * ofWordBytes bytes) / 256 = ofWordBytes bytes := by omega
    rw [List.length_cons, wordBytes, ofWordBytes, hlow, hhigh, ih, UInt8.ofNat_toNat]

/-- A word that fits is the word of the value with it. -/
theorem toWord_ofWord (t : NumType) {n : Nat} (hn : n < 256 ^ t.byteWidth) :
    t.toWord (t.ofWord n) = n := by
  cases t <;> exact Nat.mod_eq_of_lt hn

/-- The bytes of the value at the front of a buffer are the bytes at the front of the buffer. -/
theorem toBytes_ofBytes (t : NumType) {bytes : List UInt8} (h : t.byteWidth ≤ bytes.length) :
    t.toBytes (t.ofBytes bytes) = bytes.take t.byteWidth := by
  have hlength : (bytes.take t.byteWidth).length = t.byteWidth := List.length_take_of_le h
  have hword := ofWordBytes_lt (bytes.take t.byteWidth)
  have hbytes := wordBytes_ofWordBytes (bytes.take t.byteWidth)
  rw [hlength] at hword hbytes
  rw [toBytes, ofBytes, toWord_ofWord t hword, hbytes]

end NumType

/-! ## Fields of a cell -/

namespace Bound

variable {α : Type}

/-- The other bound of a cell. -/
def opposite : Bound → Bound
  | min => max
  | max => min

@[simp] theorem get_set (b : Bound) (c : Cell α) (x : α) : b.get (b.set c x) = x := by
  cases b <;> rfl

@[simp] theorem get_opposite_set (b : Bound) (c : Cell α) (x : α) :
    b.opposite.get (b.set c x) = b.opposite.get c := by
  cases b <;> rfl

@[simp] theorem value_set (b : Bound) (c : Cell α) (x : α) : (b.set c x).value = c.value := by
  cases b <;> rfl

end Bound

namespace Registry

variable {t : TableSet} {r r' : Registry} {b : Bound} {h : Handle} {d : Descriptor} {u : NumType}
  {template data : Nat} {channel : UInt16} {c : Cell u.Carrier} {bytes : List UInt8}

/-! ## One bound is replaced -/

/-- Of everything in a registry, one bound of one cell has another value. -/
structure BoundReplaced (u : NumType) (r : Registry) (i : Nat) (b : Bound) (x : u.Carrier)
    (r' : Registry) : Prop where
  others : r.SameButNumbers u r'
  elsewhere : ∀ j, j ≠ i → (r'.store.numbers.get u)[j]? = (r.store.numbers.get u)[j]?
  here : ∃ c c' : Cell u.Carrier, (r.store.numbers.get u)[i]? = some c ∧
    (r'.store.numbers.get u)[i]? = some c' ∧
    b.get c' = x ∧ b.opposite.get c' = b.opposite.get c ∧ c'.value = c.value

theorem boundReplaced_setCell {i : Nat} (hc : (r.store.numbers.get u)[i]? = some c) (b : Bound)
    (x : u.Carrier) : r.BoundReplaced u i b x (r.setCell u i (b.set c x)) := by
  obtain ⟨hothers, hcells⟩ := (numberReplaced_iff hc fun c => b.set c x).2 rfl
  exact ⟨hothers, fun j hj => by rw [hcells, if_neg hj], c, _, hc, getElem?_setCell_self hc _,
    b.get_set c x, b.get_opposite_set c x, b.value_set c x⟩

/-- A channel of a number is found with its cell. -/
theorem numberCell_of_channel (hd : r.descriptor h = .ok d)
    (hk : d.kind = .number u template data) (hchannel : d.HasChannel channel)
    (hc : (r.store.numbers.get u)[data + channel.toNat]? = some c) :
    r.numberCell u h channel (fun _ => .ok ()) = .ok (d, data + channel.toNat, c) :=
  numberCell_eq_ok.2 ⟨hd, template, data, hk, rfl, checkChannel_eq_ok.2 hchannel, rfl, hc⟩

theorem boundType_of_number (hd : r.descriptor h = .ok d) (hk : d.kind = .number u template data)
    (hlength : u.byteWidth ≤ bytes.length) : r.boundType h bytes.length = .ok u := by
  have hpos : 0 < u.byteWidth := by cases u <;> decide
  exact boundType_eq_ok.2 ⟨d, template, data, hd, by omega, hk, hlength⟩

/-- What the four ways to a bound do where the channel is found. -/
theorem step_bound_of_cell (hd : r.descriptor h = .ok d) (hk : d.kind = .number u template data)
    (hchannel : d.HasChannel channel)
    (hc : (r.store.numbers.get u)[data + channel.toNat]? = some c)
    (hlength : u.byteWidth ≤ bytes.length) (x : u.Carrier) :
    r.step (.setBound b h bytes channel) =
        (.done (.ok ()), r.setCell u (data + channel.toNat) (b.set c (u.ofBytes bytes))) ∧
      r.step (.setBoundValue b h ⟨u, x⟩ channel) =
        (.done (.ok ()), r.setCell u (data + channel.toNat) (b.set c x)) ∧
      r.step (.getBound b h bytes channel) =
        (.buffer (.ok ()) (u.toBytes (b.get c) ++ bytes.drop u.byteWidth), r) ∧
      r.step (.boundValue b h channel) = (.bound (.ok ⟨u, b.get c⟩), r) := by
  have hcell := numberCell_of_channel hd hk hchannel hc
  have htype := boundType_of_number hd hk hlength
  have hnumber : d.kind.numType? = some u := numType?_eq_some.2 ⟨template, data, hk⟩
  refine ⟨?_, ?_, ?_, ?_⟩
  · simp only [step, outcome_setBound, htype, hcell]
  · simp only [step, outcome_setBoundValue, hcell]
  · simp only [step, outcome_getBound, htype, hcell]
  · simp only [step, boundValue, hd, ok_bind, hnumber, demand_some, hcell]
    rfl

/-! ## Errors -/

/-- A value has the type of a variable, if this is a number. -/
def TagMatches (r : Registry) (h : Handle) (v : NumValue) : Prop :=
  ∀ d u, r.descriptor h = .ok d → d.kind.numType? = some u → v.type = u

/-- A buffer is too short for the type of a variable. -/
def TooShort (r : Registry) (h : Handle) (bytes : List UInt8) : Prop :=
  ∃ d u, r.descriptor h = .ok d ∧ d.kind.numType? = some u ∧ bytes.length < u.byteWidth

theorem numberCell_of_unknown {e : AccessError} (hd : r.descriptor h = .error e) (u : NumType) :
    r.numberCell u h channel (fun _ => .ok ()) = .error e := by
  rw [numberCell, hd]
  rfl

theorem numberCell_of_no_number (hd : r.descriptor h = .ok d) (hk : d.kind.numType? = none)
    (u : NumType) : r.numberCell u h channel (fun _ => .ok ()) = .error .invalidType := by
  have hcells : d.kind.numberCells? u = none := by
    cases hcells : d.kind.numberCells? u with
    | none => rfl
    | some data =>
      obtain ⟨template, hnumber⟩ := numberCells?_eq_some.1 hcells
      rw [numType?_eq_some.2 ⟨template, data, hnumber⟩] at hk
      cases hk
  rw [numberCell, hd, ok_bind, hcells]
  rfl

/-- The error with which a channel is looked for as the type of a number, if there is this type. -/
def cellError? (r : Registry) (h : Handle) (channel : UInt16) (type : Except AccessError NumType) :
    Option AccessError :=
  match type with
  | .error e => some e
  | .ok u => errorOf (r.numberCell u h channel fun _ => .ok ())

/-- The type of a variable that is a number. -/
def numTypeOf (r : Registry) (h : Handle) : Except AccessError NumType :=
  r.descriptor h >>= fun d => demand d.kind.numType? .invalidType

theorem error?_boundValue :
    (r.step (.boundValue b h channel)).1.error? = r.cellError? h channel (r.numTypeOf h) := by
  simp only [step, Reply.error?, boundValue, numTypeOf]
  cases r.descriptor h with
  | error e => rfl
  | ok d =>
    rw [ok_bind, ok_bind]
    cases d.kind.numType? with
    | none => rfl
    | some u =>
      rw [demand_some, ok_bind, cellError?]
      rcases r.numberCell u h channel fun _ => .ok () with e | ⟨d, i, c⟩ <;> rfl

theorem error?_getBound : (r.step (.getBound b h bytes channel)).1.error? =
    r.cellError? h channel (r.boundType h bytes.length) := by
  simp only [step, outcome_getBound, Reply.error?]
  cases r.boundType h bytes.length with
  | error e => rfl
  | ok u =>
    simp only [cellError?]
    rcases r.numberCell u h channel fun _ => .ok () with e | ⟨d, i, c⟩ <;> rfl

theorem error?_setBound : (r.step (.setBound b h bytes channel)).1.error? =
    r.cellError? h channel (r.boundType h bytes.length) := by
  simp only [step, outcome_setBound, Reply.error?]
  cases r.boundType h bytes.length with
  | error e => rfl
  | ok u =>
    simp only [cellError?]
    rcases r.numberCell u h channel fun _ => .ok () with e | ⟨d, i, c⟩ <;> rfl

/-- A value with the right tag is refused as the bound would be that it replaces. -/
theorem error?_setBoundValue {v : NumValue} (hv : r.TagMatches h v) :
    (r.step (.setBoundValue b h v channel)).1.error? =
      r.cellError? h channel (r.numTypeOf h) := by
  have hcell : (r.step (.setBoundValue b h v channel)).1.error? =
      errorOf (r.numberCell v.type h channel fun _ => .ok ()) := by
    simp only [step, outcome_setBoundValue, Reply.error?]
    rcases r.numberCell v.type h channel fun _ => .ok () with e | ⟨d, i, c⟩ <;> rfl
  rw [hcell, numTypeOf]
  cases hd : r.descriptor h with
  | error e =>
    rw [numberCell_of_unknown hd]
    rfl
  | ok d =>
    rw [ok_bind]
    cases hk : d.kind.numType? with
    | none =>
      rw [numberCell_of_no_number hd hk]
      rfl
    | some u =>
      obtain rfl := hv d u hd hk
      rfl

/-- A buffer with a byte in it that is too short is refused before the channel is looked at. -/
theorem boundType_of_tooShort (hbytes : bytes ≠ []) (hshort : r.TooShort h bytes) :
    r.boundType h bytes.length = .error .invalidArgument := by
  obtain ⟨d, u, hd, hk, hlt⟩ := hshort
  rw [boundType, hd]
  simp [require, demand, hk, hbytes, Nat.not_le.2 hlt, bind, Except.bind]

/-- A buffer with a byte in it that is not too short is refused as the handle and the type are. -/
theorem boundType_of_not_tooShort (hbytes : bytes ≠ []) (hlong : ¬r.TooShort h bytes) :
    r.boundType h bytes.length = r.numTypeOf h := by
  have hsome : require (decide (bytes.length ≠ 0)) AccessError.invalidArgument = .ok () := by
    simpa [require] using hbytes
  refine bind_congr_of_ok fun d hd => ?_
  rw [hsome, ok_bind]
  cases hk : d.kind.numType? with
  | none => rfl
  | some u =>
    have hwidth : decide (u.byteWidth ≤ bytes.length) = true :=
      decide_eq_true (Nat.not_lt.1 fun hlt => hlong ⟨d, u, hd, hk, hlt⟩)
    rw [demand_some, ok_bind, hwidth]
    rfl

/-! ## One semantics -/

/-- **Bounds as bytes and as values are one.** In every state that calls lead to, bytes that are
stored as a bound of a channel of a number leave exactly what the value leaves that they stand for:
this bound of this cell is this value, and everything else is as before. It is the value that is
got afterwards, and its bytes stand at the front of every buffer that can hold them, the rest of the
buffer being left alone. A buffer that is too short is refused. With any other buffer that is not
empty both ways fail with the same errors. -/
theorem bounds_as_bytes_and_values (t : TableSet) (r : Registry) (hreach : Reachable t r) :
    (∀ (b : Bound) (h : Handle) (d : Descriptor) (u : NumType) (template data : Nat)
      (channel : UInt16) (bytes : List UInt8), r.descriptor h = .ok d →
      d.kind = .number u template data → d.HasChannel channel → u.byteWidth ≤ bytes.length →
      ∃ r', r.step (.setBound b h bytes channel) = (.done (.ok ()), r') ∧
        r.step (.setBoundValue b h ⟨u, u.ofBytes bytes⟩ channel) = (.done (.ok ()), r') ∧
        r.BoundReplaced u (data + channel.toNat) b (u.ofBytes bytes) r' ∧
        r'.step (.boundValue b h channel) = (.bound (.ok ⟨u, u.ofBytes bytes⟩), r') ∧
        ∀ buffer : List UInt8, u.byteWidth ≤ buffer.length →
          r'.step (.getBound b h buffer channel) =
            (.buffer (.ok ()) (bytes.take u.byteWidth ++ buffer.drop u.byteWidth), r')) ∧
    ∀ (b : Bound) (h : Handle) (channel : UInt16) (bytes : List UInt8) (v : NumValue),
      bytes ≠ [] → r.TagMatches h v →
      (r.TooShort h bytes →
        (r.step (.getBound b h bytes channel)).1.error? = some .invalidArgument ∧
          (r.step (.setBound b h bytes channel)).1.error? = some .invalidArgument) ∧
      (¬r.TooShort h bytes →
        (r.step (.getBound b h bytes channel)).1.error? =
            (r.step (.boundValue b h channel)).1.error? ∧
          (r.step (.setBound b h bytes channel)).1.error? =
            (r.step (.setBoundValue b h v channel)).1.error?) := by
  constructor
  · intro b h d u template data channel bytes hd hk hchannel hlength
    obtain ⟨c, hc⟩ := hreach.belongs.exists_numberCell hd hk (checkChannel_eq_ok.2 hchannel)
    obtain ⟨hraw, htyped, -, -⟩ :=
      step_bound_of_cell (b := b) hd hk hchannel hc hlength (u.ofBytes bytes)
    have hself := getElem?_setCell_self hc (b.set c (u.ofBytes bytes))
    refine ⟨_, hraw, htyped, boundReplaced_setCell hc b _, ?_, fun buffer hbuffer => ?_⟩
    · -- the variable and its channels are the same afterwards
      obtain ⟨-, -, -, hget⟩ :=
        step_bound_of_cell (b := b) (r := r.setCell u _ _) hd hk hchannel hself hlength u.zero
      rw [hget, Bound.get_set]
    · obtain ⟨-, -, hget, -⟩ :=
        step_bound_of_cell (b := b) (r := r.setCell u _ _) hd hk hchannel hself hbuffer u.zero
      rw [hget, Bound.get_set, u.toBytes_ofBytes hlength]
  · intro b h channel bytes v hbytes hv
    rw [error?_getBound, error?_setBound, error?_boundValue, error?_setBoundValue hv]
    refine ⟨fun hshort => ?_, fun hlong => ?_⟩
    · rw [boundType_of_tooShort hbytes hshort]
      exact ⟨rfl, rfl⟩
    · rw [boundType_of_not_tooShort hbytes hlong]
      exact ⟨rfl, rfl⟩

/-- Three bytes are stored as the minimum of the second channel of a vector, of which two count; one
byte is too short for it, and the channel behind the last one is refused in both ways. -/
theorem three_bytes_stored : ∃ r r', Reachable .clipping r ∧
    r.step (.setBound .min ⟨0⟩ [10, 0, 7] 1) = (.done (.ok ()), r') ∧
    r'.step (.boundValue .min ⟨0⟩ 1) = (.bound (.ok ⟨.int16, (10 : Int16)⟩), r') ∧
    r'.step (.getBound .min ⟨0⟩ [1, 2, 3, 4] 1) = (.buffer (.ok ()) [10, 0, 3, 4], r') ∧
    (r.step (.setBound .min ⟨0⟩ [1] 2)).1.error? = some .invalidArgument ∧
    (r.step (.setBound .min ⟨0⟩ [1, 2] 2)).1.error? =
      (r.step (.setBoundValue .min ⟨0⟩ ⟨.int16, (1 : Int16)⟩ 2)).1.error? := by
  have hinit : ((Registry.init .clipping).toOption.bind fun r => (r.descriptor ⟨0⟩).toOption.map
      fun d => (d.kind, d.vector, d.channels)) = some (.number .int16 0 0, true, 2) := by
    decide +kernel
  obtain ⟨r, d, hr, hd, heq⟩ := exists_init_of_computed hinit
  simp only [Prod.mk.injEq] at heq
  obtain ⟨hk, hvector, hchannels⟩ := heq
  have hreach : Reachable .clipping r := .init hr
  have hnumber : d.kind.numType? = some .int16 := numType?_eq_some.2 ⟨0, 0, hk⟩
  have hchannel : d.HasChannel 1 := .inr ⟨hvector, hchannels ▸ by decide⟩
  have hvalue : NumType.ofBytes .int16 [10, 0, 7] = (10 : Int16) := by decide
  obtain ⟨hstore, herrors⟩ := bounds_as_bytes_and_values .clipping r hreach
  obtain ⟨r', hset, -, -, hvalue', hget⟩ :=
    hstore .min ⟨0⟩ d .int16 0 0 1 [10, 0, 7] hd hk hchannel (by decide)
  rw [hvalue] at hvalue'
  have htag : r.TagMatches ⟨0⟩ ⟨.int16, (1 : Int16)⟩ := by
    intro d' u hd' hu
    obtain rfl := Except.ok.inj (hd.symm.trans hd')
    exact Option.some.inj (hnumber.symm.trans hu)
  have hlong : ¬r.TooShort ⟨0⟩ [1, 2] := by
    rintro ⟨d', u, hd', hu, hlt⟩
    obtain rfl := Except.ok.inj (hd.symm.trans hd')
    obtain rfl := Option.some.inj (hnumber.symm.trans hu)
    exact absurd hlt (by decide)
  exact ⟨r, r', hreach, hset, hvalue', hget [1, 2, 3, 4] (by decide),
    ((herrors .min ⟨0⟩ 2 [1] _ (by decide) htag).1 ⟨d, .int16, hd, hnumber, by decide⟩).2,
    ((herrors .min ⟨0⟩ 2 [1, 2] _ (by decide) htag).2 hlong).2⟩

end Registry

end VariableRegistry
