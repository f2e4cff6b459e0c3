/-
# Access to numbers with fixed places as text

A number that is written with fixed places is read off its text as a word that is written alike. So
to write back the text that was read of a variable does not change its text, whatever becomes of the
value: it is refused, or stored, or clipped to a bound that lies between the two words. Only where a
variable that clips holds a value beyond a bound, which no write leaves there but a default or a
bound that was moved, is it the text of this bound that may be read afterwards.
-/
import VariableRegistry.Proofs.DateAccess
import VariableRegistry.Proofs.FixedTexts

namespace VariableRegistry

namespace NumType

variable {u : NumType} {format : Format}

/-- A value is read off the text of another one in a format and is written like that one, and so is
every value that lies between the two. -/
structure WrittenBack (u : NumType) (format : Format) (v w : u.Carrier) : Prop where
  parse : u.parse format (u.render v format) = .ok w
  render : u.render w format = u.render v format
  above : ∀ x, u.lt x w = true → u.lt x v = false → u.render x format = u.render v format
  below : ∀ x, u.lt w x = true → u.lt v x = false → u.render x format = u.render v format

/-- The formats with places are those of one to four places. -/
theorem exists_places (hformat : format ∈ [Format.prec1, .prec2, .prec3, .prec4]) :
    ∃ n, format.places? = some n := by
  revert hformat
  cases format <;> simp [Format.places?]

theorem exists_rereads_single (hformat : format ∈ [Format.prec1, .prec2, .prec3, .prec4])
    (x : Single) : ∃ y, Rereads format x y := by
  obtain ⟨n, hn⟩ := exists_places hformat
  exact exists_rereads FloatLayout.single_reachesWhole (by decide) hn x

theorem exists_rereads_double (hformat : format ∈ [Format.prec1, .prec2, .prec3, .prec4])
    (x : Double) : ∃ y, Rereads format x y := by
  obtain ⟨n, hn⟩ := exists_places hformat
  exact exists_rereads FloatLayout.double_reachesWhole (by decide) hn x

/-- Every value of a floating point type is read off its text with fixed places. -/
theorem exists_writtenBack (hu : u = .float ∨ u = .double)
    (hformat : format ∈ [Format.prec1, .prec2, .prec3, .prec4]) (v : u.Carrier) :
    ∃ w, u.WrittenBack format v w := by
  obtain rfl | rfl := hu
  · obtain ⟨w, hw⟩ := exists_rereads_single hformat v
    exact ⟨w, hw.read, hw.same, fun x hx hv => hw.between x (.inl ⟨hx, hv⟩),
      fun x hx hv => hw.between x (.inr ⟨hx, hv⟩)⟩
  · obtain ⟨w, hw⟩ := exists_rereads_double hformat v
    exact ⟨w, hw.read, hw.same, fun x hx hv => hw.between x (.inl ⟨hx, hv⟩),
      fun x hx hv => hw.between x (.inr ⟨hx, hv⟩)⟩

end NumType

namespace Registry

variable {r : Registry} {q q' : Request} {d : Descriptor} {u : NumType} {template data : Nat}
  {c : Cell u.Carrier} {v w : u.Carrier} {s : String}

/-! ## Writing a text -/

/-- What a write stores is the value, or a bound that it is beyond and is clipped to. -/
theorem eq_or_clipped_of_boundedValue {rights : Rights} {x : u.Carrier}
    (hx : boundedValue u rights c v = .ok x) :
    x = v ∨ rights.isClip = true ∧
      (u.lt c.max v = true ∧ x = c.max ∨ u.lt v c.min = true ∧ x = c.min) := by
  unfold boundedValue at hx
  split_ifs at hx with hlimit hnan hmax hmin hclip hnan hmax hmin <;> cases hx <;> simp [*]

/-- Who succeeds with writing a text that is read as a value was admitted to it. -/
theorem admits_of_text_write (hd : r.descriptor q.handle = .ok d)
    (hk : d.kind = .number u template data) (hq : q.direction = .write)
    (hs : u.parse d.format s = .ok v) (hok : (r.step (.text q s)).1.error? = none) :
    r.Admits q d := by
  apply admits_of_ok hd hk (v := v)
  simpa only [step, outcome_text_number hd hk, outcome_textual, hq, hs, Reply.error?,
    errorOf_eq_none] using hok

/-- An admitted write of a text stores the value that is read of it as far as the bounds allow. -/
theorem Admits.step_text_write_bounded (h : r.Admits q d) (hk : d.kind = .number u template data)
    (hq : q.direction = .write)
    (hc : (r.store.numbers.get u)[data + q.channel.toNat]? = some c)
    (hs : u.parse d.format s = .ok v) :
    r.step (.text q s) =
      match boundedValue u d.rights c v with
      | .ok x => (.text (.ok ()) s, r.setCell u (data + q.channel.toNat) { c with value := x })
      | .error e => (.text (.error e) s, r) := by
  have hwrite := h.outcome_number hk hc v
  rw [hq] at hwrite
  simp only [step, outcome_text_number (descriptor_eq_ok.2 h.known) hk, outcome_textual, hq, hs,
    hwrite]
  cases boundedValue u d.rights c v <;> rfl

/-! ## Reading and writing back -/

/-- A variable is a `FLOAT` or a `DOUBLE` that is written with fixed places. -/
structure HasPlaces (d : Descriptor) (u : NumType) (data : Nat) : Prop where
  kind : ∃ template, d.kind = .number u template data
  type : u = .float ∨ u = .double
  format : d.format ∈ [Format.prec1, .prec2, .prec3, .prec4]

/-- The text of a value, or, where a value beyond a bound is clipped, the text of this bound. -/
def KeptText (d : Descriptor) (c : Cell u.Carrier) (s : String) : Prop :=
  s = u.render c.value d.format ∨ d.rights.isClip = true ∧
    (u.lt c.max c.value = true ∧ s = u.render c.max d.format ∨
      u.lt c.value c.min = true ∧ s = u.render c.min d.format)

/-- What is stored when the text of a cell is written back is written as this text, or is the bound
beyond which the cell was. -/
theorem keptText_of_boundedValue (hw : u.WrittenBack d.format c.value w) {x : u.Carrier}
    (hx : boundedValue u d.rights c w = .ok x) : KeptText d c (u.render x d.format) := by
  obtain rfl | ⟨hclip, ⟨hmax, rfl⟩ | ⟨hmin, rfl⟩⟩ := eq_or_clipped_of_boundedValue hx
  · exact .inl hw.render
  · cases hbeyond : u.lt c.max c.value with
    | true => exact .inr ⟨hclip, .inl ⟨hbeyond, rfl⟩⟩
    | false => exact .inl (hw.above _ hmax hbeyond)
  · cases hbeyond : u.lt c.value c.min with
    | true => exact .inr ⟨hclip, .inr ⟨hbeyond, rfl⟩⟩
    | false => exact .inl (hw.below _ hmin hbeyond)

/-- Whatever becomes of a text that is written back, what is read afterwards is this text, or that
of a bound beyond which the cell was. -/
theorem Admits.read_after_write_back (h : r.Admits q d) (hk : d.kind = .number u template data)
    (hq : q.direction = .read) (hq' : q'.direction = .write) (hhandle : q'.handle = q.handle)
    (hchannel : q'.channel = q.channel)
    (hc : (r.store.numbers.get u)[data + q.channel.toNat]? = some c)
    (hw : u.WrittenBack d.format c.value w) :
    ∃ s', (∀ s₁, ((r.step (.text q' (u.render c.value d.format))).2.step (.text q s₁)).1 =
      .text (.ok ()) s') ∧ KeptText d c s' := by
  have hd : r.descriptor q'.handle = .ok d := hhandle ▸ descriptor_eq_ok.2 h.known
  cases he : (r.step (.text q' (u.render c.value d.format))).1.error? with
  | some e =>
    refine ⟨_, fun s₁ => ?_, .inl rfl⟩
    rw [(step_of_error he).1, h.step_text_read hk hq hc]
  | none =>
    have h' := admits_of_text_write hd hk hq' hw.parse he
    have hc' : (r.store.numbers.get u)[data + q'.channel.toNat]? = some c := by rwa [hchannel]
    have hwrite := h'.step_text_write_bounded hk hq' hc' hw.parse
    cases hx : boundedValue u d.rights c w with
    | error e =>
      rw [hwrite, hx] at he
      cases he
    | ok x =>
      refine ⟨_, fun s₁ => ?_, keptText_of_boundedValue hw hx⟩
      rw [hwrite, hx, hchannel, (h.setCell _ _).step_text_read hk hq (getElem?_setCell_self hc _)]

/-- **Texts with fixed places are written back.** In the formats of one to four places the text of
every `FLOAT` and `DOUBLE` is read as a word that has the same text. So in every state that calls
lead to, whoever reads a channel of such a variable as text, writes this text back and reads again
reads the same text, whether the write was accepted or not. Only where the variable clips and held a
value beyond a bound it may be the text of this bound. Where no bounds matter, the text is accepted
from whoever may write. -/
theorem fixed_texts_written_back :
    (∀ format ∈ [Format.prec1, .prec2, .prec3, .prec4],
      (∀ x : Single, ∃ y : Single,
        NumType.parseFloat (NumType.renderFloat x format) = .ok y ∧
          NumType.renderFloat y format = NumType.renderFloat x format) ∧
      ∀ x : Double, ∃ y : Double,
        NumType.parseFloat (NumType.renderFloat x format) = .ok y ∧
          NumType.renderFloat y format = NumType.renderFloat x format) ∧
    ∀ (t : TableSet) (r : Registry) (q q' : Request) (d : Descriptor) (u : NumType) (data : Nat)
      (s₀ s : String), Reachable t r → r.descriptor q.handle = .ok d → HasPlaces d u data →
      q.direction = .read → q'.direction = .write → q'.handle = q.handle →
      q'.channel = q.channel → (r.step (.text q s₀)).1 = .text (.ok ()) s →
      ∃ (c : Cell u.Carrier) (s' : String),
        (r.store.numbers.get u)[data + q.channel.toNat]? = some c ∧
        (∀ s₁, ((r.step (.text q' s)).2.step (.text q s₁)).1 = .text (.ok ()) s') ∧
        (s' = s ∨ d.rights.isClip = true ∧
          (u.lt c.max c.value = true ∧ s' = u.render c.max d.format ∨
            u.lt c.value c.min = true ∧ s' = u.render c.min d.format)) ∧
        (d.rights.isLimit = false → d.rights.isClip = false → r.Grants d q' →
          (r.step (.text q' s)).1 = .text (.ok ()) s) := by
  refine ⟨fun format hformat => ⟨fun x => ?_, fun x => ?_⟩, ?_⟩
  · obtain ⟨y, hy⟩ := NumType.exists_rereads_single hformat x
    exact ⟨y, hy.read, hy.same⟩
  · obtain ⟨y, hy⟩ := NumType.exists_rereads_double hformat x
    exact ⟨y, hy.read, hy.same⟩
  intro t r q q' d u data s₀ s hreach hd hplaces hq hq' hhandle hchannel hread
  obtain ⟨template, hk⟩ := hplaces.kind
  have hadmits : r.Admits q d := admits_of_text_read hd hk hq hread
  obtain ⟨c, hc⟩ := hadmits.number_cell hreach.belongs hk
  -- the text that was read is that of the cell
  obtain rfl : u.render c.value d.format = s := by
    simpa [hadmits.step_text_read hk hq hc] using hread
  obtain ⟨w, hw⟩ := NumType.exists_writtenBack hplaces.type hplaces.format c.value
  obtain ⟨s', hagain, hkept⟩ := hadmits.read_after_write_back hk hq hq' hhandle hchannel hc hw
  refine ⟨c, s', hc, hagain, hkept, fun hlimit hclip hg => ?_⟩
  have hadmits' : r.Admits q' d := ⟨hhandle ▸ hadmits.known, hg, hchannel ▸ hadmits.channel⟩
  rw [← hchannel] at hc
  rw [hadmits'.step_text_write hk hq' hlimit hclip hc hw.parse]

end Registry

namespace TableSet

/-- A table set with a number of one place that is clipped, and begins above its maximum. -/
def clippedPlace : TableSet where
  cells := ⟨0, 0, 1, 0⟩
  stringCells := 0
  enumCells := 0
  blob := .empty
  enumWords := #[]
  templates := ⟨#[], #[], #[⟨⟨0x40A00000⟩, ⟨0⟩, ⟨0x40400000⟩⟩], #[]⟩
  vars := #[⟨0, 0xFFFF, 4, 1, 0x2011, 0, 0, 0, 5⟩]
  policy := .exact

end TableSet

namespace Registry

/-- The number of one place. -/
def place : Descriptor := ⟨⟨0⟩, none, .number .float 0 0, 1, false, ⟨0x2011⟩, .ram, .prec1⟩

/-- A request for the number of one place. -/
def placeRequest (direction : Direction) : Request := ⟨⟨0⟩, direction, 0, ⟨0x0011⟩⟩

/-- The number of one place begins with five, which is above its maximum of three. -/
theorem exists_clippedPlace : ∃ r, Reachable .clippedPlace r ∧
    (∀ direction, r.Admits (placeRequest direction) place) ∧
    (r.store.numbers.get .float)[0]? =
      some (⟨⟨0x40A00000⟩, ⟨0⟩, ⟨0x40400000⟩⟩ : Cell Single) := by
  have hinit : ((Registry.init .clippedPlace).toOption.bind fun r =>
      (r.descriptor ⟨0⟩).toOption.map fun d => (d, r.policy, (r.store.numbers.get .float)[0]?)) =
      some (place, .exact, some (⟨⟨0x40A00000⟩, ⟨0⟩, ⟨0x40400000⟩⟩ : Cell Single)) := by
    decide +kernel
  obtain ⟨r, d, hr, hd, heq⟩ := exists_init_of_computed hinit
  simp only [Prod.mk.injEq] at heq
  obtain ⟨rfl, hpolicy, hcell⟩ := heq
  refine ⟨r, .init hr, fun direction => ⟨descriptor_eq_ok.1 hd, ?_, .inl rfl⟩, hcell⟩
  rw [Grants, hpolicy]
  cases direction <;> exact ⟨fun _ => Iff.rfl, rfl⟩

theorem hasPlaces_place : HasPlaces place .float 0 := ⟨⟨0, rfl⟩, .inl rfl, by decide⟩

/-- The text of five is written back to the number of one place and clipped to three. -/
theorem step_write_five {r : Registry} (h : r.Admits (placeRequest .write) place)
    (hc : (r.store.numbers.get .float)[0]? =
      some (⟨⟨0x40A00000⟩, ⟨0⟩, ⟨0x40400000⟩⟩ : Cell Single)) :
    r.step (.text (placeRequest .write) "5.0") =
      (.text (.ok ()) "5.0", r.setCell .float 0 ⟨⟨0x40400000⟩, ⟨0⟩, ⟨0x40400000⟩⟩) := by
  have hparse : NumType.parse .float .prec1 "5.0" = .ok (⟨0x40A00000⟩ : Single) := by
    decide +kernel
  exact h.step_text_write_bounded rfl rfl hc hparse

/-- The number that was clipped to three is read, and its text is written back without a change. -/
theorem three_written_back : ∃ r, Reachable .clippedPlace r ∧
    (r.step (.text (placeRequest .read) "")).1 = .text (.ok ()) "3.0" ∧
    ∀ s₁, ((r.step (.text (placeRequest .write) "3.0")).2.step
      (.text (placeRequest .read) s₁)).1 = .text (.ok ()) "3.0" := by
  obtain ⟨r₀, hreach, hadmits, hcell⟩ := exists_clippedPlace
  have hwrite := step_write_five (hadmits .write) hcell
  have hself := getElem?_setCell_self hcell ⟨⟨0x40400000⟩, ⟨0⟩, ⟨0x40400000⟩⟩
  have hreach' := hreach.step (.text (placeRequest .write) "5.0")
  rw [hwrite] at hreach'
  have hadmits' := (hadmits .read).setCell (u := .float) 0 ⟨⟨0x40400000⟩, ⟨0⟩, ⟨0x40400000⟩⟩
  have hrender : NumType.render .float (⟨0x40400000⟩ : Single) .prec1 = "3.0" := by decide +kernel
  have hread := hadmits'.step_text_read rfl rfl hself ""
  obtain ⟨c, s', hc, hagain, hkept, -⟩ := fixed_texts_written_back.2 .clippedPlace _
    (placeRequest .read) (placeRequest .write) place .float 0 "" "3.0" hreach'
    (descriptor_eq_ok.2 hadmits'.known) hasPlaces_place rfl rfl rfl rfl
    (by rw [hread, ← hrender]; rfl)
  obtain rfl := Option.some.inj (hself.symm.trans hc)
  obtain rfl : s' = "3.0" := by
    refine hkept.resolve_right ?_
    -- three is neither above the maximum nor below the minimum
    rintro ⟨-, ⟨hmax, -⟩ | ⟨hmin, -⟩⟩
    · exact absurd hmax (by decide)
    · exact absurd hmin (by decide)
  exact ⟨_, hreach', by rw [hread, ← hrender]; rfl, hagain⟩

/-- The text of a number that is clipped and begins above its maximum is written back, and another
text is read afterwards. -/
theorem five_not_written_back : ∃ r r', Reachable .clippedPlace r ∧
    r.descriptor ⟨0⟩ = .ok place ∧ HasPlaces place .float 0 ∧
    r.step (.text (placeRequest .read) "") = (.text (.ok ()) "5.0", r) ∧
    r.step (.text (placeRequest .write) "5.0") = (.text (.ok ()) "5.0", r') ∧
    r'.step (.text (placeRequest .read) "") = (.text (.ok ()) "3.0", r') := by
  obtain ⟨r, hreach, hadmits, hcell⟩ := exists_clippedPlace
  have hself := getElem?_setCell_self hcell ⟨⟨0x40400000⟩, ⟨0⟩, ⟨0x40400000⟩⟩
  have hadmits' := (hadmits .read).setCell (u := .float) 0 ⟨⟨0x40400000⟩, ⟨0⟩, ⟨0x40400000⟩⟩
  have hfive : NumType.render .float (⟨0x40A00000⟩ : Single) .prec1 = "5.0" := by decide +kernel
  have hthree : NumType.render .float (⟨0x40400000⟩ : Single) .prec1 = "3.0" := by decide +kernel
  have hread := (hadmits .read).step_text_read rfl rfl hcell ""
  have hread' := hadmits'.step_text_read rfl rfl hself ""
  exact ⟨r, _, hreach, descriptor_eq_ok.2 (hadmits .read).known, hasPlaces_place,
    by rw [hread, ← hfive]; rfl, step_write_five (hadmits .write) hcell,
    by rw [hread', ← hthree]; rfl⟩

end Registry

end VariableRegistry
