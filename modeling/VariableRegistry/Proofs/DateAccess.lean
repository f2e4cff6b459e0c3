/-
# Access to dates as text

What is written of an `INT32` in the format of dates is the date on which its moment lies, and this
text is read as the midnight on which the date begins. So to write back the text that was read of a
variable sets it back to midnight and does not change its text. On the first date that an `INT32`
reaches there is no such midnight, since this date begins too early: its text cannot be written
back.
-/
import VariableRegistry.Proofs.DateTexts
import VariableRegistry.Proofs.TypedContract

namespace VariableRegistry

/-! ## Texts of moments -/

namespace NumType

open Numeral (IsWord)

/-- The first midnight that an `INT32` holds, 24855 days before 1970. -/
def firstMidnight : Int := -2147472000

/-- The midnight before a moment. -/
def midnight (v : Int32) : Int32 := Int32.ofInt (86400 * (v.toInt / 86400))

theorem toInt_midnight {v : Int32} (h : firstMidnight ≤ v.toInt) :
    (midnight v).toInt = 86400 * (v.toInt / 86400) := by
  have hlow : firstMidnight = 86400 * -24855 := rfl
  have hhigh : v.toInt < 2147483648 := v.toInt_lt
  exact Int32.toInt_ofInt_of_le (by omega) (by omega)

/-- Every moment that an `INT32` holds lies on a date whose year has four digits. -/
theorem exists_date_of_isWord {moment : Int} (h : IsWord 32 moment) : ∃ d : Date, d.OnCalendar ∧
    0 ≤ d.year ∧ d.year ≤ 9999 ∧ d.dayNumber = moment / Date.secondsPerDay := by
  obtain ⟨hcalendar, hday⟩ := Date.ofDayNumber_spec (moment / Date.secondsPerDay)
  obtain ⟨hlow, hhigh⟩ := h
  have hdays : -24856 ≤ moment / Date.secondsPerDay ∧ moment / Date.secondsPerDay ≤ 24855 := by
    simp only [Date.secondsPerDay]
    omega
  obtain ⟨hfrom, huntil⟩ := Date.dayNumber_bounds hcalendar
  rw [hday] at hfrom huntil
  have hepoch : Date.epoch = 719528 := rfl
  refine ⟨_, hcalendar, ?_, ?_, hday⟩
  · by_contra hyear
    have hbefore := Date.daysBeforeYear_mono
      (show (Date.ofDayNumber (moment / Date.secondsPerDay)).year + 1 ≤ 0 by omega)
    have hzero : Date.daysBeforeYear 0 = 0 := by decide
    omega
  · by_contra hyear
    have hafter := Date.daysBeforeYear_mono
      (show 10000 ≤ (Date.ofDayNumber (moment / Date.secondsPerDay)).year by omega)
    have hlast : Date.daysBeforeYear 10000 = 3652425 := by decide
    omega

/-- What is written of a moment is read as the midnight before it, if an `INT32` holds this. -/
theorem parseDate_renderInt (v : Int32) :
    parseDate (renderInt v.toInt .bits32 .date) =
      if firstMidnight ≤ v.toInt then .ok (midnight v) else .error .invalidValue := by
  have hword : IsWord 32 v.toInt := ⟨v.le_toInt, v.toInt_lt⟩
  obtain ⟨d, hcalendar, hmin, hmax, hday⟩ := exists_date_of_isWord hword
  have hspelled : d.SpelledBy (renderInt v.toInt .bits32 .date).toList := by
    rw [renderInt_date hcalendar hmin hmax hday.symm, String.toList_ofList]
    exact Date.spelledBy_chars hmin hmax (Nat.le_trans hcalendar.le.1 (by decide))
      (Nat.le_trans hcalendar.le.2 (by decide))
  have hseconds : d.seconds = 86400 * (v.toInt / 86400) := by rw [Date.seconds, hday]; rfl
  have hfits : d.OnCalendar ∧ -0x80000000 ≤ d.seconds ∧ d.seconds < 0x80000000 ↔
      firstMidnight ≤ v.toInt := by
    have hlow : -2147483648 ≤ v.toInt := v.le_toInt
    have hhigh : v.toInt < 2147483648 := v.toInt_lt
    simp only [hcalendar, true_and, hseconds, firstMidnight]
    omega
  simp only [parseDate_of_spelledBy hspelled, hfits]
  rw [midnight, hseconds]

/-- A moment and the midnight before it are written alike. -/
theorem renderInt_midnight {v : Int32} (h : firstMidnight ≤ v.toInt) :
    renderInt (midnight v).toInt .bits32 .date = renderInt v.toInt .bits32 .date := by
  obtain ⟨d, hcalendar, hmin, hmax, hday⟩ := exists_date_of_isWord ⟨v.le_toInt, v.toInt_lt⟩
  have hmidnight : (midnight v).toInt / Date.secondsPerDay = d.dayNumber := by
    rw [toInt_midnight h, hday]
    exact Int.mul_ediv_cancel_left _ (by decide)
  rw [renderInt_date hcalendar hmin hmax hmidnight, renderInt_date hcalendar hmin hmax hday.symm]

end NumType

/-! ## Reading and writing back -/

namespace Registry

variable {t : TableSet} {r : Registry} {q q' : Request} {d : Descriptor} {u : NumType}
  {template data : Nat} {c : Cell u.Carrier}

/-- Who succeeds with typed access was admitted to it. -/
theorem admits_of_ok (hd : r.descriptor q.handle = .ok d) (hk : d.kind = .number u template data)
    {v : u.Carrier} (hok : ((typed u q).outcome v r).1 = .ok ()) : r.Admits q d := by
  have hknown := descriptor_eq_ok.1 hd
  have hdeclared : d.DeclaredAs u := Or.inl (by rw [Descriptor.varType, hk]; rfl)
  have hcheck : (r.gate q d >>= fun _ => d.checkChannel q.channel) = .ok () := by
    cases hcheck : r.gate q d >>= fun _ => d.checkChannel q.channel with
    | ok _ => rfl
    | error e =>
      rw [outcome_typed_of_check hknown hdeclared hcheck] at hok
      cases hok
  obtain ⟨_, hgate, hchannel⟩ := bind_eq_ok.1 hcheck
  refine ⟨hknown, ?_, checkChannel_eq_ok.1 hchannel⟩
  by_contra hg
  rw [gate_of_not_grants hg] at hgate
  cases hgate

/-- Who succeeds with reading a number as text was admitted to it. -/
theorem admits_of_text_read (hd : r.descriptor q.handle = .ok d)
    (hk : d.kind = .number u template data) (hq : q.direction = .read) {s s' : String}
    (hread : (r.step (.text q s)).1 = .text (.ok ()) s') : r.Admits q d := by
  apply admits_of_ok hd hk (v := u.zero)
  simp only [step, outcome_text_number hd hk, outcome_textual, hq] at hread
  split at hread
  · next heq => rw [heq]
  · simp at hread

/-- An admitted read as text gives the value of the cell in the format of the variable. -/
theorem Admits.step_text_read (h : r.Admits q d) (hk : d.kind = .number u template data)
    (hq : q.direction = .read)
    (hc : (r.store.numbers.get u)[data + q.channel.toNat]? = some c) (s : String) :
    r.step (.text q s) = (.text (.ok ()) (u.render c.value d.format), r) := by
  have hread := h.outcome_number hk hc u.zero
  rw [hq] at hread
  simp only [step, outcome_text_number (descriptor_eq_ok.2 h.known) hk, outcome_textual, hq, hread]

/-- An admitted write of a text stores the value that is read of it, where no bounds matter. -/
theorem Admits.step_text_write (h : r.Admits q d) (hk : d.kind = .number u template data)
    (hq : q.direction = .write) (hlimit : d.rights.isLimit = false)
    (hclip : d.rights.isClip = false)
    (hc : (r.store.numbers.get u)[data + q.channel.toNat]? = some c) {s : String} {v : u.Carrier}
    (hs : u.parse d.format s = .ok v) :
    r.step (.text q s) =
      (.text (.ok ()) s, r.setCell u (data + q.channel.toNat) { c with value := v }) := by
  have hbounded : boundedValue u d.rights c v = .ok v := by simp [boundedValue, hlimit, hclip]
  have hwrite := h.outcome_number hk hc v
  rw [hq, hbounded] at hwrite
  simp only [step, outcome_text_number (descriptor_eq_ok.2 h.known) hk, outcome_textual, hq, hs,
    hwrite]

/-- The write of a text that cannot be read fails as the reader does, and changes nothing. -/
theorem step_text_write_invalid (hd : r.descriptor q.handle = .ok d)
    (hk : d.kind = .number u template data) (hq : q.direction = .write) {s : String}
    {e : AccessError} (hs : u.parse d.format s = .error e) :
    r.step (.text q s) = (.text (.error e) s, r) := by
  simp only [step, outcome_text_number hd hk, outcome_textual, hq, hs]

/-- Whoever was admitted before a cell was replaced is admitted afterwards. -/
theorem Admits.setCell (h : r.Admits q d) (i : Nat) (c : Cell u.Carrier) :
    (r.setCell u i c).Admits q d :=
  ⟨h.known, h.grants, h.channel⟩

/-! ## Dates -/

/-- A variable is an `INT32` in the format of dates, and values are stored as they are written. -/
structure IsFreeDate (d : Descriptor) (data : Nat) : Prop where
  kind : ∃ template, d.kind = .number .int32 template data
  format : d.format = .date
  limit : d.rights.isLimit = false
  clip : d.rights.isClip = false

/-- The text of a date is read as the midnight on which the date begins. -/
theorem IsFreeDate.parse_render (hd : IsFreeDate d data) (v : Int32) :
    NumType.parse .int32 d.format (NumType.render .int32 v d.format) =
      if NumType.firstMidnight ≤ v.toInt then .ok (NumType.midnight v)
      else .error .invalidValue := by
  rw [hd.format]
  exact NumType.parseDate_renderInt v

/-- To write back the text of a date sets the cell to midnight, and the text that is read stays. -/
theorem IsFreeDate.write_back (hd : IsFreeDate d data) (h : r.Admits q d) (h' : r.Admits q' d)
    (hq : q.direction = .read) (hq' : q'.direction = .write) (hchannel : q'.channel = q.channel)
    {c : Cell Int32} (hc : (r.store.numbers.get .int32)[data + q.channel.toNat]? = some c)
    (hv : NumType.firstMidnight ≤ c.value.toInt) :
    let s := NumType.render .int32 c.value d.format
    let r' :=
      r.setCell .int32 (data + q.channel.toNat) { c with value := NumType.midnight c.value }
    r.step (.text q' s) = (.text (.ok ()) s, r') ∧
      ∀ s₁, r'.step (.text q s₁) = (.text (.ok ()) s, r') := by
  obtain ⟨template, hk⟩ := hd.kind
  have hparse := hd.parse_render c.value
  rw [if_pos hv] at hparse
  have hsame : NumType.render .int32 (NumType.midnight c.value) d.format =
      NumType.render .int32 c.value d.format := by
    rw [hd.format]
    exact NumType.renderInt_midnight hv
  refine ⟨?_, fun s₁ => ?_⟩
  · rw [← hchannel] at hc ⊢
    exact h'.step_text_write hk hq' hd.limit hd.clip hc hparse
  · rw [(h.setCell _ _).step_text_read hk hq (getElem?_setCell_self hc _) s₁, hsame]

/-- **Texts of dates are written back.** What is written of an `INT32` as a date is read as the
midnight before it, unless the `INT32` lies before the first midnight that an `INT32` holds; then it
is an invalid value. So in every state that calls lead to, the text that was read of a channel of
such a variable is accepted from whoever may write to it, sets the channel to this midnight and is
what is read afterwards; on the first date everybody is refused, and nothing changes. -/
theorem dates_written_back :
    (∀ v : Int32, NumType.firstMidnight ≤ v.toInt →
      ∃ w, NumType.parseDate (NumType.renderInt v.toInt .bits32 .date) = .ok w ∧
        w.toInt = 86400 * (v.toInt / 86400)) ∧
    (∀ v : Int32, v.toInt < NumType.firstMidnight →
      NumType.parseDate (NumType.renderInt v.toInt .bits32 .date) = .error .invalidValue) ∧
    ∀ (t : TableSet) (r : Registry) (q q' : Request) (d : Descriptor) (data : Nat) (s₀ s : String),
      Reachable t r → r.descriptor q.handle = .ok d → IsFreeDate d data →
      q.direction = .read → q'.direction = .write → q'.handle = q.handle →
      q'.channel = q.channel → (r.step (.text q s₀)).1 = .text (.ok ()) s →
      ∃ c : Cell Int32, r.store.numbers.int32[data + q.channel.toNat]? = some c ∧
        (NumType.firstMidnight ≤ c.value.toInt → r.Grants d q' → ∃ r' w,
          r.step (.text q' s) = (.text (.ok ()) s, r') ∧ w.toInt = 86400 * (c.value.toInt / 86400) ∧
          r.NumberReplaced .int32 (data + q.channel.toNat) (fun c => { c with value := w }) r' ∧
          ∀ s₁, r'.step (.text q s₁) = (.text (.ok ()) s, r')) ∧
        (c.value.toInt < NumType.firstMidnight →
          r.step (.text q' s) = (.text (.error .invalidValue) s, r)) := by
  refine ⟨fun v hv => ⟨NumType.midnight v, ?_, NumType.toInt_midnight hv⟩, fun v hv => ?_, ?_⟩
  · rw [NumType.parseDate_renderInt, if_pos hv]
  · rw [NumType.parseDate_renderInt, if_neg (Int.not_le.2 hv)]
  intro t r q q' d data s₀ s hreach hd hfree hq hq' hhandle hchannel hread
  obtain ⟨template, hk⟩ := hfree.kind
  have hadmits : r.Admits q d := admits_of_text_read hd hk hq hread
  obtain ⟨c, hc⟩ := hadmits.number_cell hreach.belongs hk
  -- the text that was read is that of the cell
  obtain rfl : NumType.render .int32 c.value d.format = s := by
    simpa [hadmits.step_text_read hk hq hc] using hread
  refine ⟨c, hc, fun hv hg => ?_, fun hv => ?_⟩
  · have hadmits' : r.Admits q' d := ⟨hhandle ▸ hadmits.known, hg, hchannel ▸ hadmits.channel⟩
    obtain ⟨hwrite, hagain⟩ := hfree.write_back hadmits hadmits' hq hq' hchannel hc hv
    exact ⟨_, _, hwrite, NumType.toInt_midnight hv, (numberReplaced_iff hc _).2 rfl, hagain⟩
  · have hparse := hfree.parse_render c.value
    rw [if_neg (Int.not_le.2 hv)] at hparse
    exact step_text_write_invalid (hhandle ▸ hd) hk hq' hparse

end Registry

namespace TableSet

/-- A table set with a date that is a second before 1970. -/
def dated : TableSet where
  cells := ⟨0, 1, 0, 0⟩
  stringCells := 0
  enumCells := 0
  blob := .empty
  enumWords := #[]
  templates := ⟨#[], #[⟨-1, -2147483648, 2147483647⟩], #[], #[]⟩
  vars := #[⟨0, 0xFFFF, 2, 1, 0x0011, 0, 0, 0, 10⟩]
  policy := .exact

end TableSet

namespace Registry

/-- A second before 1970 is set back by almost a day when its text is written back; the text of the
first moment that an `INT32` holds is refused. -/
theorem second_before_epoch_written_back :
    (∃ r r', Reachable .dated r ∧
      r.step (.text ⟨⟨0⟩, .write, 0, ⟨0x0011⟩⟩ "1969-12-31") =
        (.text (.ok ()) "1969-12-31", r') ∧
      r'.store.numbers.int32[0]? = some ⟨-86400, -2147483648, 2147483647⟩ ∧
      r'.step (.text ⟨⟨0⟩, .read, 0, ⟨0x0011⟩⟩ "") = (.text (.ok ()) "1969-12-31", r')) ∧
    NumType.parseDate (NumType.renderInt (-2147483648 : Int32).toInt .bits32 .date) =
      .error .invalidValue := by
  refine ⟨?_, dates_written_back.2.1 (-2147483648) (by decide)⟩
  have hinit : ((Registry.init .dated).toOption.bind fun r =>
      (r.descriptor ⟨0⟩).toOption.map fun d => (d, r.policy, (r.store.numbers.get .int32)[0]?)) =
      some (⟨⟨0⟩, none, .number .int32 0 0, 1, false, ⟨0x0011⟩, .ram, .date⟩, .exact,
        some ⟨(-1 : Int32), -2147483648, 2147483647⟩) := by
    decide +kernel
  obtain ⟨r, hr, hd⟩ := Option.bind_eq_some_iff.1 hinit
  obtain ⟨d, hd, heq⟩ := Option.map_eq_some_iff.1 hd
  simp only [Prod.mk.injEq] at heq
  obtain ⟨rfl, hpolicy, hcell⟩ := heq
  rw [toOption_eq_some] at hr hd
  have hgrants : ∀ direction : Direction,
      r.Grants ⟨⟨0⟩, none, .number .int32 0 0, 1, false, ⟨0x0011⟩, .ram, .date⟩
        ⟨⟨0⟩, direction, 0, ⟨0x0011⟩⟩ := by
    intro direction
    rw [Grants, hpolicy]
    exact ⟨fun _ => Iff.rfl, rfl⟩
  have hadmits : r.Admits ⟨⟨0⟩, .read, 0, ⟨0x0011⟩⟩ _ :=
    ⟨descriptor_eq_ok.1 hd, hgrants .read, .inl rfl⟩
  have hread := hadmits.step_text_read rfl rfl hcell ""
  have hrender : NumType.render .int32 (-1 : Int32) .date = "1969-12-31" := by decide +kernel
  obtain ⟨c, hc, hback, -⟩ := dates_written_back.2.2 .dated r ⟨⟨0⟩, .read, 0, ⟨0x0011⟩⟩
    ⟨⟨0⟩, .write, 0, ⟨0x0011⟩⟩ _ 0 "" "1969-12-31" (.init hr) hd ⟨⟨0, rfl⟩, rfl, rfl, rfl⟩ rfl rfl
    rfl rfl (by rw [hread, ← hrender])
  obtain rfl := Option.some.inj (hcell.symm.trans hc)
  obtain ⟨r', w, hwrite, hw, ⟨-, hreplaced⟩, hagain⟩ := hback (by decide) (hgrants .write)
  obtain rfl : w = -86400 := Int32.toInt_inj.1 hw
  have hafter := (hreplaced 0).trans ((if_pos rfl).trans (congrArg (Option.map _) hcell))
  exact ⟨r, r', .init hr, hwrite, hafter, hagain ""⟩

/-- On the first date that an `INT32` reaches it holds moments, but not the midnight. -/
theorem first_date_not_read :
    ¬∀ v : Int32, ∃ w, NumType.parseDate (NumType.renderInt v.toInt .bits32 .date) = .ok w ∧
      w.toInt = 86400 * (v.toInt / 86400) := by
  intro hall
  obtain ⟨w, hw, -⟩ := hall (-2147483648)
  rw [NumType.parseDate_renderInt, if_neg (by decide)] at hw
  cases hw

end Registry

end VariableRegistry
