/-
# Writes within bounds

A variable that refuses or clips values beyond its bounds holds a value between them after every
write that succeeds, provided that the bounds are in order. Since bounds are replaced one at a
time and are not compared with each other, they can be crossed; then no value lies between them,
and a clipped write leaves one of the two.
-/
import VariableRegistry.Proofs.Acceptance
import VariableRegistry.Proofs.NoEffect

namespace VariableRegistry

/-! ## The order of numbers -/

namespace NumType

/-- Whether the first value is at most the second; what is no number never is. -/
def le (t : NumType) (x y : t.Carrier) : Bool := t.lt x y || t.eq x y

/-- A whole number in the order of the numbers of a type. -/
def orderKey : (t : NumType) → t.Carrier → Int
  | int16, x => (x : Int16).toInt
  | int32, x => (x : Int32).toInt
  | float, x => FloatWord.orderKey x
  | double, x => FloatWord.orderKey x

variable {t : NumType} {x y z : t.Carrier}

theorem lt_iff : t.lt x y = true ↔
    t.isNaN x = false ∧ t.isNaN y = false ∧ t.orderKey x < t.orderKey y := by
  cases t <;> simp [lt, isNaN, orderKey, FloatWord.lt, and_assoc]

theorem le_iff : t.le x y = true ↔
    t.isNaN x = false ∧ t.isNaN y = false ∧ t.orderKey x ≤ t.orderKey y := by
  have heq : t.eq x y = true ↔
      t.isNaN x = false ∧ t.isNaN y = false ∧ t.orderKey x = t.orderKey y := by
    cases t with
    | int16 => simp [eq, isNaN, orderKey, Int16.toInt_inj]
    | int32 => simp [eq, isNaN, orderKey, Int32.toInt_inj]
    | float => simp [eq, isNaN, orderKey, FloatWord.eq, and_assoc]
    | double => simp [eq, isNaN, orderKey, FloatWord.eq, and_assoc]
  rw [le, Bool.or_eq_true, lt_iff, heq, Int.le_iff_lt_or_eq, ← and_or_left, ← and_or_left]

theorem le_trans (hxy : t.le x y = true) (hyz : t.le y z = true) : t.le x z = true := by
  rw [le_iff] at *
  obtain ⟨hx, -, hxy⟩ := hxy
  obtain ⟨-, hz, hyz⟩ := hyz
  exact ⟨hx, hz, by omega⟩

/-- Of two numbers the one that is not above the other is at most the other. -/
theorem le_of_not_lt (hx : t.isNaN x = false) (hy : t.isNaN y = false) (h : ¬t.lt y x = true) :
    t.le x y = true := by
  rw [lt_iff] at h
  exact le_iff.2 ⟨hx, hy, Int.not_lt.1 fun hlt => h ⟨hy, hx, hlt⟩⟩

theorem le_refl (hx : t.isNaN x = false) : t.le x x = true :=
  le_iff.2 ⟨hx, hx, Int.le_refl _⟩

end NumType

/-! ## Values between bounds -/

/-- The value of a cell lies between its bounds. -/
def NumType.Within (t : NumType) (c : Cell t.Carrier) : Prop :=
  t.le c.min c.value = true ∧ t.le c.value c.max = true

namespace Registry

variable {t : NumType} {rights : Rights} {c : Cell t.Carrier} {v x : t.Carrier}

/-- A value that was refused or clipped where it was beyond the bounds lies between them exactly
if they are in order. -/
theorem within_iff_of_boundedValue (hrights : rights.isLimit = true ∨ rights.isClip = true)
    (hx : boundedValue t rights c v = .ok x) :
    t.Within { c with value := x } ↔ t.le c.min c.max = true := by
  constructor
  · rintro ⟨hmin, hmax⟩
    exact NumType.le_trans hmin hmax
  intro hordered
  obtain ⟨hmin, hmax, -⟩ := NumType.le_iff.1 hordered
  unfold boundedValue at hx
  cases hlimit : rights.isLimit with
  | true =>
    -- whatever is beyond the bounds was refused
    rw [hlimit, if_pos rfl] at hx
    split_ifs at hx with hnan habove hbelow
    cases hx
    have hv : t.isNaN v = false := by simpa using hnan
    exact ⟨NumType.le_of_not_lt hmin hv hbelow, NumType.le_of_not_lt hv hmax habove⟩
  | false =>
    have hclip : rights.isClip = true := hrights.resolve_left (by rw [hlimit]; decide)
    rw [hlimit, hclip, if_neg (by decide), if_pos rfl] at hx
    split_ifs at hx with hnan habove hbelow
    · -- clipped to the maximum
      cases hx
      exact ⟨hordered, NumType.le_refl hmax⟩
    · -- clipped to the minimum
      cases hx
      exact ⟨NumType.le_refl hmin, hordered⟩
    · cases hx
      have hv : t.isNaN v = false := by simpa using hnan
      exact ⟨NumType.le_of_not_lt hmin hv hbelow, NumType.le_of_not_lt hv hmax habove⟩

end Registry

/-! ## Writes to a channel -/

/-- A call writes to a channel of a variable, a value or a text. -/
def Call.WritesTo (h : Handle) (channel : UInt16) : Call → Prop
  | typed _ q _ => q.direction = .write ∧ q.handle = h ∧ q.channel = channel
  | text q _ => q.direction = .write ∧ q.handle = h ∧ q.channel = channel
  | _ => False

namespace Registry

variable {r : Registry} {q : Request} {d : Descriptor} {t : NumType} {template data : Nat}

/-- A registry has stored a value in the cell of a channel as the bounds of the cell allow. -/
def Stored (r : Registry) (d : Descriptor) (t : NumType) (i : Nat) (r' : Registry) : Prop :=
  ∃ (c : Cell t.Carrier) (v x : t.Carrier), (r.store.numbers.get t)[i]? = some c ∧
    boundedValue t d.rights c v = .ok x ∧ r' = r.setCell t i { c with value := x }

/-- A value that was written is stored as the bounds of its cell allow. -/
theorem stored_of_typed (hd : r.descriptor q.handle = .ok d) (hk : d.kind = .number t template data)
    (hq : q.direction = .write) {u : NumType} {v : u.Carrier}
    (hok : ((typed u q).outcome v r).1 = .ok ()) :
    r.Stored d t (data + q.channel.toNat) ((typed u q).outcome v r).2.2 := by
  have hnumber : (typed u q).outcome v r = (number u q).outcome v r := by
    refine outcome_typed_number fun _ d' members data' hd' hk' => ?_
    rw [hd] at hd'
    cases hd'
    rw [hk] at hk'
    cases hk'
  rw [hnumber, outcome_number, hq] at hok ⊢
  rcases hcell : r.numberCell u q.handle q.channel (r.gate q) with e | ⟨d', i, c⟩
  · simp only [hcell] at hok
    cases hok
  · -- the cell that was found is that of the variable, so the types are the same
    obtain ⟨hd', template', data', hk', -, -, rfl, hc⟩ := numberCell_eq_ok.1 hcell
    rw [hd] at hd'
    cases hd'
    rw [hk] at hk'
    cases hk'
    simp only [hcell] at hok ⊢
    cases hx : boundedValue t d.rights c v with
    | error e =>
      simp only [hx] at hok
      cases hok
    | ok x => exact ⟨c, v, x, hc, hx, rfl⟩

/-- A text that was written is stored like the value that it stands for. -/
theorem stored_of_text (hd : r.descriptor q.handle = .ok d) (hk : d.kind = .number t template data)
    (hq : q.direction = .write) {s : String} (hok : ((text q).outcome s r).1 = .ok ()) :
    r.Stored d t (data + q.channel.toNat) ((text q).outcome s r).2.2 := by
  rw [outcome_text_number hd hk, outcome_textual, hq] at hok ⊢
  cases hparse : t.parse d.format s with
  | error e =>
    simp only [hparse] at hok
    cases hok
  | ok v =>
    simp only [hparse] at hok ⊢
    exact stored_of_typed hd hk hq hok

/-- A call that writes to a channel of a number and succeeds stores a value in its cell. -/
theorem stored_of_step {h : Handle} {channel : UInt16} (hd : r.descriptor h = .ok d)
    (hk : d.kind = .number t template data) {call : Call} (hcall : call.WritesTo h channel)
    (hok : (r.step call).1.error? = none) :
    r.Stored d t (data + channel.toNat) (r.step call).2 := by
  cases call with
  | typed u q v =>
    obtain ⟨hq, rfl, rfl⟩ := hcall
    exact stored_of_typed hd hk hq (errorOf_eq_none.1 hok)
  | text q s =>
    obtain ⟨hq, rfl, rfl⟩ := hcall
    exact stored_of_text hd hk hq (errorOf_eq_none.1 hok)
  | _ => exact hcall.elim

/-- **A successful write is within bounds that are in order.** Whenever a value or a text is
written to a channel of a number that refuses or clips values beyond its bounds, and the write
succeeds, the value that the cell of the channel then holds lies between the minimum and the maximum
of this cell exactly if the minimum is at most the maximum. -/
theorem write_within_iff_ordered (r : Registry) (h : Handle) (d : Descriptor) (t : NumType)
    (template data : Nat) (channel : UInt16) (call : Call) (hd : r.descriptor h = .ok d)
    (hk : d.kind = .number t template data)
    (hrights : d.rights.isLimit = true ∨ d.rights.isClip = true)
    (hcall : call.WritesTo h channel) (hok : (r.step call).1.error? = none) :
    ∃ c, ((r.step call).2.store.numbers.get t)[data + channel.toNat]? = some c ∧
      (t.Within c ↔ t.le c.min c.max = true) := by
  obtain ⟨c, v, x, hc, hx, hr'⟩ := stored_of_step hd hk hcall hok
  refine ⟨{ c with value := x }, ?_, within_iff_of_boundedValue hrights hx⟩
  obtain ⟨hi, -⟩ := Array.getElem?_eq_some_iff.1 hc
  rw [hr']
  show ((r.store.numbers.set t _).get t)[data + channel.toNat]? = _
  rw [PerType.get_set_self, Array.getElem?_setIfInBounds_self_of_lt hi]

end Registry

namespace TableSet

/-- A table set with a vector that is clipped. -/
def clipping : TableSet where
  cells := ⟨2, 0, 0, 0⟩
  stringCells := 0
  enumCells := 0
  blob := .empty
  enumWords := #[]
  templates := ⟨#[⟨0, -5, 5⟩], #[], #[], #[]⟩
  vars := #[⟨0, 0xFFFF, 0x1001, 2, 0x2011, 0, 0, 0, 0⟩]
  policy := .exact

end TableSet

namespace Registry

/-- A text beyond the maximum of the second channel is written, and the bounds are in order. -/
theorem clipped_write_within : ∃ r d, Reachable .clipping r ∧ r.descriptor ⟨0⟩ = .ok d ∧
    d.kind = .number .int16 0 0 ∧ (d.rights.isLimit = true ∨ d.rights.isClip = true) ∧
    (r.step (.text ⟨⟨0⟩, .write, 1, ⟨0x0011⟩⟩ "9")).1.error? = none ∧
    ∃ c, ((r.step (.text ⟨⟨0⟩, .write, 1, ⟨0x0011⟩⟩ "9")).2.store.numbers.get .int16)[1]? =
        some c ∧ (NumType.int16.Within c ↔ NumType.int16.le c.min c.max = true) := by
  have hwritten : ((Registry.init .clipping).toOption.bind fun r =>
      (r.descriptor ⟨0⟩).toOption.map fun d => (d.kind, d.rights,
        (r.step (.text ⟨⟨0⟩, .write, 1, ⟨0x0011⟩⟩ "9")).1.error?)) =
          some (.number .int16 0 0, ⟨0x2011⟩, none) := by
    decide +kernel
  obtain ⟨r, hr, hd⟩ := Option.bind_eq_some_iff.1 hwritten
  obtain ⟨d, hd, heq⟩ := Option.map_eq_some_iff.1 hd
  obtain ⟨hk, hrights, hok⟩ : _ ∧ d.rights = ⟨0x2011⟩ ∧ _ := by simpa using heq
  have hclip : d.rights.isLimit = true ∨ d.rights.isClip = true := by
    rw [hrights]
    decide
  have hdescriptor := toOption_eq_some.1 hd
  exact ⟨r, d, .init (toOption_eq_some.1 hr), hdescriptor, hk, hclip, hok,
    write_within_iff_ordered r ⟨0⟩ d .int16 0 0 1 _ hdescriptor hk hclip ⟨rfl, rfl, rfl⟩ hok⟩

/-- Where the minimum was set above the maximum, a write that is clipped succeeds, and the value
that it stores is below the minimum. -/
theorem crossed_bounds_write_outside : ∃ r d c, Reachable .clipping r ∧
    r.descriptor ⟨0⟩ = .ok d ∧ d.kind = .number .int16 0 0 ∧ d.rights.isClip = true ∧
    (r.step (.typed .int16 ⟨⟨0⟩, .write, 1, ⟨0x0011⟩⟩ (7 : Int16))).1.error? = none ∧
    ((r.step (.typed .int16 ⟨⟨0⟩, .write, 1, ⟨0x0011⟩⟩ (7 : Int16))).2.store.numbers.get
      .int16)[1]? = some c ∧ ¬NumType.int16.Within c := by
  have hwritten : ((Registry.init .clipping).toOption.bind fun r₀ =>
      let r := (r₀.step (.setBoundValue .min ⟨0⟩ ⟨.int16, (10 : Int16)⟩ 1)).2
      (r.descriptor ⟨0⟩).toOption.map fun d => (d.kind, d.rights,
        (r.step (.typed .int16 ⟨⟨0⟩, .write, 1, ⟨0x0011⟩⟩ (7 : Int16))).1.error?,
        ((r.step (.typed .int16 ⟨⟨0⟩, .write, 1, ⟨0x0011⟩⟩ (7 : Int16))).2.store.numbers.get
          .int16)[1]?)) =
      some (.number .int16 0 0, ⟨0x2011⟩, none, some ⟨(5 : Int16), 10, 5⟩) := by
    decide +kernel
  obtain ⟨r₀, hr₀, hd⟩ := Option.bind_eq_some_iff.1 hwritten
  obtain ⟨d, hd, heq⟩ := Option.map_eq_some_iff.1 hd
  obtain ⟨hk, hrights, hok, hcell⟩ : _ ∧ d.rights = ⟨0x2011⟩ ∧ _ ∧ _ := by simpa using heq
  refine ⟨_, d, _, .step _ (.init (toOption_eq_some.1 hr₀)), toOption_eq_some.1 hd, hk, ?_, hok,
    hcell, ?_⟩
  · rw [hrights]
    decide
  · rintro ⟨hmin, -⟩
    exact absurd hmin (by decide)

end Registry

end VariableRegistry
