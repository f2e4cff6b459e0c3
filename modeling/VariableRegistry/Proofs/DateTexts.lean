/-
# Texts of dates

A date is spelled by four digits of the year, two of the month and two of the day with hyphens
between them. Such a text is read as the midnight on which the date begins, if the calendar has the
date and an `INT32` can hold the midnight, and as nothing else; a midnight is written as this text
again. What is a numeral is never taken for a date.
-/
import Mathlib.Data.List.Induction
import VariableRegistry.Proofs.CalendarDays
import VariableRegistry.Proofs.NumeralGrammar

namespace VariableRegistry

/-! ## Decimal digits -/

namespace Numeral

variable {bits base n : Nat} {i : Int} {c : Char} {cs cs' : List Char}

/-- A decimal digit is written in one way. -/
theorem IsDigit.eq_digitChar {d : Nat} (h : IsDigit 10 c d) : c = d.digitChar := by
  have hupper : ∀ d < 10, d.digitChar.toUpper = d.digitChar := by decide
  obtain ⟨hd, hc⟩ := h
  rwa [hupper d hd, or_self] at hc

/-- A run of decimal digits is written with the digit of each of its values. -/
theorem Spells.exists_map (h : Spells 10 cs n) : ∃ ds : List Nat, (∀ d ∈ ds, d < 10) ∧
    cs = ds.map Nat.digitChar ∧ n = Nat.ofDigits 10 ds.reverse := by
  obtain ⟨-, ds, hds, hn⟩ := h
  suffices hmap : (∀ d ∈ ds, d < 10) ∧ cs = ds.map Nat.digitChar from ⟨ds, hmap.1, hmap.2, hn⟩
  clear hn
  induction hds with
  | nil => exact ⟨by simp, rfl⟩
  | @cons c d cs ds hc _ ih =>
    exact ⟨List.forall_mem_cons.2 ⟨hc.1, ih.1⟩, by rw [hc.eq_digitChar, ih.2, List.map_cons]⟩

/-- As many digits that spell the same number are the same. -/
theorem Spells.eq_of_length (h : Spells 10 cs n) (h' : Spells 10 cs' n)
    (hlength : cs.length = cs'.length) : cs = cs' := by
  obtain ⟨ds, hds, rfl, hn⟩ := h.exists_map
  obtain ⟨ds', hds', rfl, hn'⟩ := h'.exists_map
  rw [List.length_map, List.length_map] at hlength
  have hsame : ds.reverse = ds'.reverse :=
    Nat.ofDigits_inj_of_len_eq (by decide) (by simpa using hlength)
      (fun d hd => hds d (List.mem_reverse.1 hd)) (fun d hd => hds' d (List.mem_reverse.1 hd))
      (hn.symm.trans hn')
  rw [List.reverse_injective hsame]

/-- So many digits spell a smaller number than the next power of ten. -/
theorem Spells.lt_pow (h : Spells 10 cs n) : n < 10 ^ cs.length := by
  obtain ⟨ds, hds, rfl, rfl⟩ := h.exists_map
  have hlt := Nat.ofDigits_lt_base_pow_length (b := 10) (l := ds.reverse) (by decide)
    fun d hd => hds d (List.mem_reverse.1 hd)
  rw [List.length_map]
  rwa [List.length_reverse] at hlt

/-- Digits are counted in the same way from either end. -/
theorem ofDigitChars_map {ds : List Nat} (hds : ∀ d ∈ ds, d < 10) :
    Nat.ofDigitChars 10 (ds.map Nat.digitChar) 0 = Nat.ofDigits 10 ds.reverse := by
  induction ds using List.reverseRecOn with
  | nil => rfl
  | append_singleton ds d ih =>
    rw [List.forall_mem_append, List.forall_mem_singleton] at hds
    rw [List.map_append, Nat.ofDigitChars_append, ih hds.1, List.map_singleton,
      Nat.ofDigitChars_cons_digitChar_of_lt_ten hds.2, Nat.ofDigitChars_nil, List.reverse_append,
      List.reverse_singleton, List.singleton_append, Nat.ofDigits_cons, Nat.add_comm]

theorem Spells.ofDigitChars (h : Spells 10 cs n) : Nat.ofDigitChars 10 cs 0 = n := by
  obtain ⟨ds, hds, rfl, rfl⟩ := h.exists_map
  exact ofDigitChars_map hds

/-- What holds of the ten digits holds of every character of a run of them. -/
theorem Spells.forall_mem {p : Char → Prop} (h : Spells 10 cs n) (hp : ∀ d < 10, p d.digitChar) :
    ∀ c ∈ cs, p c := by
  intro c hc
  obtain ⟨d, hd⟩ := h.exists_of_mem hc
  rw [hd.eq_digitChar]
  exact hp d hd.1

theorem Spells.isDigit (h : Spells 10 cs n) : ∀ c ∈ cs, c.isDigit = true :=
  h.forall_mem (by decide)

theorem Spells.not_blank (h : Spells 10 cs n) : ∀ c ∈ cs, Text.isBlank c = false :=
  h.forall_mem (by decide)

/-- A number is spelled by its digits with zeros in front. -/
theorem spells_padded (length n : Nat) : Spells 10 (padded length (Nat.toDigits 10 n)) n :=
  (ofDigits?_eq_some_iff (by decide)).1 (ofDigits?_padded (by decide) (by decide) length n)

theorem length_padded {length : Nat} (hpos : 0 < length) (h : n < 10 ^ length) :
    (padded length (Nat.toDigits 10 n)).length = length := by
  have hle : (Nat.toDigits 10 n).length ≤ length :=
    (Nat.length_toDigits_le_iff (by decide) hpos).2 h
  rw [padded, List.length_append, List.length_replicate]
  omega

/-! ## Hyphens in numerals -/

/-- No hyphen stands among digits. -/
theorem Spells.hyphen_not_mem (h : Spells base cs n) (hbase : base ≤ 16) : '-' ∉ cs := by
  intro hmem
  obtain ⟨d, hd, hc⟩ := h.exists_of_mem hmem
  have hdigit : IsDigit 16 '-' d := ⟨by omega, hc⟩
  exact hdigit.ne rfl rfl

theorem Unsigned.hyphen_not_mem (h : Unsigned base cs n) : '-' ∉ cs := by
  cases h with
  | hexadecimal hx h => rcases hx with rfl | rfl <;> simp [h.hyphen_not_mem (Nat.le_refl 16)]
  | octal h => simp [h.hyphen_not_mem (by decide)]
  | zero => decide
  | decimal _ h => exact h.hyphen_not_mem (by decide)

theorem Signed.hyphen_not_mem_tail {negative : Bool} (h : Signed base negative cs i) :
    '-' ∉ cs.tail := by
  cases h with
  | bare h => exact fun hmem => h.hyphen_not_mem (List.mem_of_mem_tail hmem)
  | plus h => exact h.hyphen_not_mem
  | minus h => exact h.hyphen_not_mem

/-- A hyphen in a numeral is its sign. -/
theorem Names.hyphen_not_mem_tail (h : Names bits cs i) : '-' ∉ cs.tail := by
  cases h with
  | number h _ => exact h.hyphen_not_mem_tail
  | word h _ _ => exact h.hyphen_not_mem_tail

end Numeral

/-! ## Reading dates -/

namespace Date

open Numeral (Spells)

variable {d : Date} {n : Nat} {cs rest : List Char}

/-- A text spells a date: four digits of the year, two of the month and two of the day, with
hyphens between them. -/
def SpelledBy (d : Date) (cs : List Char) : Prop :=
  ∃ (ys ms ds : List Char) (year : Nat), cs = ys ++ '-' :: (ms ++ '-' :: ds) ∧
    ys.length = 4 ∧ ms.length = 2 ∧ ds.length = 2 ∧ d.year = year ∧
    Spells 10 ys year ∧ Spells 10 ms d.month ∧ Spells 10 ds d.day

/-- A run of digits is read as the number that it spells, whatever follows. -/
theorem takeNumber_append (h : Spells 10 cs n) (rest : List Char) :
    takeNumber cs.length (cs ++ rest) = some (n, rest) := by
  have hne : ¬cs.isEmpty = true := by simpa using h.1
  simp only [takeNumber, List.take_left', List.takeWhile_eq_self_iff.2 h.isDigit, h.ofDigitChars,
    List.drop_left']
  exact if_neg hne

theorem trimStart_append (h : Spells 10 cs n) (rest : List Char) :
    Text.trimStart (cs ++ rest) = cs ++ rest := by
  obtain ⟨c, cs, rfl⟩ := List.exists_cons_of_ne_nil h.1
  rw [Text.trimStart, List.cons_append, List.dropWhile_cons, h.not_blank c List.mem_cons_self]
  rfl

theorem takeYear_append (h : Spells 10 cs n) (hlength : cs.length = 4) (rest : List Char) :
    takeYear (cs ++ rest) = some ((n : Int), rest) := by
  have hsign : ∀ c ∈ cs, c ≠ '-' ∧ c ≠ '+' := h.forall_mem (by decide)
  have hread := takeNumber_append h rest
  rw [hlength] at hread
  rw [takeYear, trimStart_append h]
  obtain ⟨c, cs, rfl⟩ := List.exists_cons_of_ne_nil h.1
  obtain ⟨hminus, hplus⟩ := hsign c List.mem_cons_self
  -- the year has no sign
  split
  · next heq => exact absurd (List.cons.inj heq).1 hminus
  · next heq => exact absurd (List.cons.inj heq).1 hplus
  · rw [hread]
    rfl

theorem takePart_append (h : Spells 10 cs n) (hlength : cs.length = 2) (rest : List Char) :
    takePart ('-' :: (cs ++ rest)) = some (n, rest) := by
  rw [takePart, trimStart_append h, ← hlength]
  exact takeNumber_append h rest

theorem SpelledBy.year_bounds (h : d.SpelledBy cs) : 0 ≤ d.year ∧ d.year ≤ 9999 := by
  obtain ⟨ys, _, _, year, -, hlength, -, -, hyear, hys, -⟩ := h
  have hlt := hys.lt_pow
  rw [hlength] at hlt
  omega

/-- In the years that four digits spell every date of the calendar is read. -/
theorem isValid_iff (hmin : 0 ≤ d.year) (hmax : d.year ≤ 9999) :
    d.isValid = true ↔ d.OnCalendar := by
  have hlow : minYear ≤ d.year := Int.le_trans (by decide) hmin
  have hhigh : d.year ≤ maxYear := Int.le_trans hmax (by decide)
  simp only [isValid, onCalendar_iff, Bool.and_eq_true, decide_eq_true_eq, and_assoc]
  simp only [hlow, hhigh, true_and]

/-- A text that spells a date is read as this date, if the calendar has it. -/
theorem SpelledBy.ofChars?_eq (h : d.SpelledBy cs) :
    ofChars? cs = if d.OnCalendar then some d else none := by
  have hvalid := isValid_iff h.year_bounds.1 h.year_bounds.2
  obtain ⟨ys, ms, ds, year, rfl, hy, hm, hd, hyear, hys, hms, hds⟩ := h
  have hday := takePart_append hds hd []
  rw [List.append_nil] at hday
  simp only [ofChars?, takeYear_append hys hy, takePart_append hms hm, hday, Option.bind_some,
    ← hyear, List.isEmpty_nil, Bool.true_and, hvalid]

/-- A hyphen stands behind the year. -/
theorem SpelledBy.hyphen_mem_tail (h : d.SpelledBy cs) : '-' ∈ cs.tail := by
  obtain ⟨ys, ms, ds, _, rfl, hlength, -⟩ := h
  obtain ⟨c, ys, rfl⟩ := List.exists_cons_of_length_eq_add_one hlength
  exact List.mem_append_right _ List.mem_cons_self

/-- A text that spells a date has no blanks. -/
theorem SpelledBy.trim_eq (h : d.SpelledBy cs) : Text.trim cs = cs := by
  obtain ⟨ys, ms, ds, _, rfl, -, -, -, -, hys, hms, hds⟩ := h
  apply Text.trim_of_not_blank
  simp only [List.forall_mem_append, List.forall_mem_cons]
  exact ⟨hys.not_blank, by decide, hms.not_blank, by decide, hds.not_blank⟩

/-- What is written of a date spells it, if its year has four digits at most. -/
theorem spelledBy_chars (hmin : 0 ≤ d.year) (hmax : d.year ≤ 9999) (hmonth : d.month ≤ 99)
    (hday : d.day ≤ 99) : d.SpelledBy d.chars := by
  have hyear : yearChars d.year = Numeral.padded 4 (Nat.toDigits 10 d.year.natAbs) := by
    rw [yearChars, if_neg (by omega), if_neg (by omega)]
  refine ⟨_, _, _, d.year.natAbs, ?_, Numeral.length_padded (by decide) ?_,
    Numeral.length_padded (by decide) ?_, Numeral.length_padded (by decide) ?_, ?_,
    Numeral.spells_padded 4 _, Numeral.spells_padded 2 _, Numeral.spells_padded 2 _⟩
  · rw [chars, hyear, List.append_assoc, List.cons_append]
  all_goals omega

/-- Only what is written of a date spells it. -/
theorem SpelledBy.eq_chars (h : d.SpelledBy cs) : cs = d.chars := by
  have hbounds := h.year_bounds
  obtain ⟨ys, ms, ds, year, rfl, hy, hm, hd, hyear, hys, hms, hds⟩ := h
  have hmonth := hms.lt_pow
  have hday := hds.lt_pow
  rw [hm] at hmonth
  rw [hd] at hday
  obtain ⟨ys', ms', ds', year', hcs', hy', hm', hd', hyear', hys', hms', hds'⟩ :=
    spelledBy_chars hbounds.1 hbounds.2 (by omega) (by omega)
  obtain rfl : year = year' := by omega
  rw [hcs', hys.eq_of_length hys' (by omega), hms.eq_of_length hms' (by omega),
    hds.eq_of_length hds' (by omega)]

/-! ## Texts without hyphens -/

/-- What is left of a text behind a number stands behind its first character. -/
theorem mem_tail_of_takeNumber {width : Nat} (h : takeNumber width cs = some (n, rest)) :
    ∀ c ∈ rest, c ∈ cs.tail := by
  simp only [takeNumber] at h
  split_ifs at h with hnone
  obtain ⟨-, rfl⟩ := Prod.mk.inj (Option.some.inj h)
  obtain ⟨digit, digits, hdigits⟩ := List.exists_cons_of_ne_nil (mt List.isEmpty_iff.2 hnone)
  intro c hc
  rw [hdigits, List.length_cons, ← List.drop_tail] at hc
  exact List.mem_of_mem_drop hc

/-- Blanks in front do not matter for what stands behind the first character. -/
theorem mem_tail_of_trimStart (cs : List Char) : ∀ c ∈ (Text.trimStart cs).tail, c ∈ cs.tail := by
  obtain ⟨front, hfront⟩ := List.dropWhile_suffix (l := cs) Text.isBlank
  intro c hc
  rw [← hfront]
  cases front with
  | nil => exact hc
  | cons b front => exact List.mem_append_right front (List.mem_of_mem_tail hc)

theorem mem_tail_of_map_takeNumber {width : Nat} {year : Int} (sign : Nat → Int)
    (h : (takeNumber width cs).map (fun (n, left) => (sign n, left)) = some (year, rest)) :
    ∀ c ∈ rest, c ∈ cs.tail := by
  obtain ⟨⟨n, left⟩, hread, heq⟩ := Option.map_eq_some_iff.1 h
  obtain ⟨-, rfl⟩ := Prod.mk.inj heq
  exact mem_tail_of_takeNumber hread

theorem mem_tail_of_takeYear {year : Int} (h : takeYear cs = some (year, rest)) :
    ∀ c ∈ rest, c ∈ cs.tail := by
  intro c hc
  apply mem_tail_of_trimStart
  unfold takeYear at h
  split at h
  · next hsign =>
    rw [hsign]
    exact List.mem_of_mem_tail (mem_tail_of_map_takeNumber (-·) h c hc)
  · next hsign =>
    rw [hsign]
    exact List.mem_of_mem_tail (mem_tail_of_map_takeNumber (·) h c hc)
  · exact mem_tail_of_map_takeNumber (·) h c hc

/-- Without a hyphen behind the first character no date is read. -/
theorem ofChars?_eq_none (h : '-' ∉ cs.tail) : ofChars? cs = none := by
  rw [ofChars?, Option.bind_eq_none_iff]
  rintro ⟨year, rest⟩ hyear
  have hrest : '-' ∉ rest := fun hmem => h (mem_tail_of_takeYear hyear _ hmem)
  have hpart : takePart rest = none := by
    unfold takePart
    split
    · exact absurd List.mem_cons_self hrest
    · rfl
  dsimp only
  rw [hpart]
  rfl

/-! ## Writing dates -/

/-- The date of a number of days is written for every moment of it. -/
theorem ofSeconds?_of_dayNumber (h : d.OnCalendar) (hmin : 0 ≤ d.year) (hmax : d.year ≤ 9999)
    {moment : Int} (hmoment : moment / secondsPerDay = d.dayNumber) :
    ofSeconds? moment = some d := by
  have hlow : minYear ≤ d.year := Int.le_trans (by decide) hmin
  have hhigh : d.year ≤ maxYear := Int.le_trans hmax (by decide)
  simp only [ofSeconds?, hmoment, ofDayNumber_dayNumber h]
  exact if_pos ⟨hlow, hhigh⟩

end Date

/-! ## Dates as `INT32` -/

namespace NumType

open Numeral (IsWord Names)

variable {text : String} {d : Date} {v : Int32}

theorem parseInt32_eq_ok_iff : parseInt32 text = .ok v ↔
    Names 32 (Text.trim text.toList) v.toInt := by
  obtain ⟨cs, hcs, hok, -⟩ := followsGrammar_parseInt32 text
  rw [hcs.eq_trim]
  exact hok v

/-- A numeral is no date. -/
theorem parseDate_of_parseInt32 (h : parseInt32 text = .ok v) : parseDate text = .ok v := by
  rw [parseDate, Date.ofChars?_eq_none (parseInt32_eq_ok_iff.1 h).hyphen_not_mem_tail]
  exact h

/-- A text that spells a date is no numeral. -/
theorem parseInt32_of_spelledBy (h : d.SpelledBy text.toList) :
    parseInt32 text = .error .invalidValue := by
  cases hread : parseInt32 text with
  | ok v =>
    have hnames := parseInt32_eq_ok_iff.1 hread
    rw [h.trim_eq] at hnames
    exact absurd h.hyphen_mem_tail hnames.hyphen_not_mem_tail
  | error e =>
    have hinvalid : e = .invalidValue :=
      failsWith_parseInt32 (P := (· = .invalidValue)) rfl text e hread
    rw [hinvalid]

/-- A text that spells a date is read as the midnight on which the date begins, if the calendar has
the date and an `INT32` can hold the midnight, and is an invalid value otherwise. -/
theorem parseDate_of_spelledBy (h : d.SpelledBy text.toList) :
    parseDate text =
      if d.OnCalendar ∧ -0x80000000 ≤ d.seconds ∧ d.seconds < 0x80000000 then
        .ok (Int32.ofInt d.seconds)
      else .error .invalidValue := by
  rw [parseDate, h.trim_eq, h.ofChars?_eq]
  by_cases hcalendar : d.OnCalendar
  · simp only [hcalendar, if_true, true_and]
  · simp only [hcalendar, if_false, false_and]
    exact parseInt32_of_spelledBy h

/-- Every moment of a date whose year has four digits is written as the text that spells it. -/
theorem renderInt_date (h : d.OnCalendar) (hmin : 0 ≤ d.year) (hmax : d.year ≤ 9999) {moment : Int}
    (hmoment : moment / Date.secondsPerDay = d.dayNumber) :
    renderInt moment .bits32 .date = String.ofList d.chars := by
  have hdate := Date.ofSeconds?_of_dayNumber h hmin hmax hmoment
  simp only [renderInt, Format.hexDigits?, hdate]
  rfl

/-- A text that spells a date is read as the midnight on which the date begins, and the midnight is
written as this text again; there is one such midnight for every date of the calendar. A text with a
date that the calendar does not have, or with a midnight that no `INT32` holds, is an invalid value.
A numeral is read as the number that it names. -/
theorem dates_as_midnights :
    (∀ (text : String) (d : Date), d.SpelledBy text.toList →
      (d.OnCalendar → ∃! n, d.HasDayNumber n) ∧
      (∀ n, d.OnCalendar → d.HasDayNumber n → IsWord 32 (86400 * n) →
        ∃ v : Int32, parseDate text = .ok v ∧ v.toInt = 86400 * n ∧
          renderInt v.toInt .bits32 .date = text) ∧
      (∀ n, d.OnCalendar → d.HasDayNumber n → ¬IsWord 32 (86400 * n) →
        parseDate text = .error .invalidValue) ∧
      (¬d.OnCalendar → parseDate text = .error .invalidValue)) ∧
    ∀ (text : String) (v : Int32), parseInt32 text = .ok v → parseDate text = .ok v := by
  refine ⟨fun text d h => ⟨?unique, ?fits, ?beyond, ?missing⟩,
    fun text v => parseDate_of_parseInt32⟩
  case unique =>
    intro hcalendar
    simp only [Date.hasDayNumber_iff hcalendar, existsUnique_eq]
  case fits =>
    intro n hcalendar hday hword
    obtain rfl := (Date.hasDayNumber_iff hcalendar).1 hday
    have hvalue : (Int32.ofInt d.seconds).toInt = 86400 * d.dayNumber :=
      Int32.toInt_ofInt_of_le hword.1 hword.2
    refine ⟨Int32.ofInt d.seconds, ?_, hvalue, ?_⟩
    · rw [parseDate_of_spelledBy h, if_pos ⟨hcalendar, hword.1, hword.2⟩]
    · have hmoment : 86400 * d.dayNumber / Date.secondsPerDay = d.dayNumber :=
        Int.mul_ediv_cancel_left _ (by decide)
      rw [hvalue, renderInt_date hcalendar h.year_bounds.1 h.year_bounds.2 hmoment, ← h.eq_chars,
        String.ofList_toList]
  case beyond =>
    intro n hcalendar hday hword
    obtain rfl := (Date.hasDayNumber_iff hcalendar).1 hday
    rw [parseDate_of_spelledBy h, if_neg fun hfits => hword hfits.2]
  case missing =>
    intro hcalendar
    rw [parseDate_of_spelledBy h, if_neg fun hfits => hcalendar hfits.1]

/-- The leap day of 2024, that of 1900, which the calendar does not have, the day after the last
one that begins in time, and a numeral. -/
theorem leap_days_and_last_day :
    (∃ v : Int32, parseDate "2024-02-29" = .ok v ∧ v.toInt = 86400 * 19782 ∧
      renderInt v.toInt .bits32 .date = "2024-02-29") ∧
    parseDate "1900-02-29" = .error .invalidValue ∧
    parseDate "2038-01-20" = .error .invalidValue ∧
    parseDate "-86400" = .ok (-86400) := by
  have hleap : (⟨2024, 2, 29⟩ : Date).OnCalendar := by decide
  have hlast : (⟨2038, 1, 20⟩ : Date).OnCalendar := by decide
  have hspelled : ∀ d : Date, 0 ≤ d.year ∧ d.year ≤ 9999 ∧ d.month ≤ 99 ∧ d.day ≤ 99 →
      d.SpelledBy d.chars := fun d h => Date.spelledBy_chars h.1 h.2.1 h.2.2.1 h.2.2.2
  refine ⟨?_, ?_, ?_, dates_as_midnights.2 "-86400" (-86400) (by decide +kernel)⟩
  · exact (dates_as_midnights.1 "2024-02-29" ⟨2024, 2, 29⟩ (hspelled _ (by decide))).2.1 19782
      hleap ((Date.hasDayNumber_iff hleap).2 (by decide)) (by decide)
  · exact (dates_as_midnights.1 "1900-02-29" ⟨1900, 2, 29⟩ (hspelled _ (by decide))).2.2.2
      (by decide)
  · exact (dates_as_midnights.1 "2038-01-20" ⟨2038, 1, 20⟩ (hspelled _ (by decide))).2.2.1 24856
      hlast ((Date.hasDayNumber_iff hlast).2 (by decide)) (by decide)

end NumType

end VariableRegistry
