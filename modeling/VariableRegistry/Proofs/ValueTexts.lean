/-
# Texts of values

A text that names no value of a type is refused with one error, whatever is wrong with it. The text
of an integer is a numeral without blanks, whose beginning tells its base: the digits behind it are
never taken for octal ones, and hexadecimal digits that show the word of a negative integer name it
again. So in every format but that of dates an integer is read back as it was written.
-/
import VariableRegistry.Fallible
import VariableRegistry.ValueText

namespace VariableRegistry

/-! ## Refused texts -/

namespace NumType

variable {P : AccessError → Prop}

theorem failsWith_parseInt16 (hP : P .invalidValue) (s : String) :
    FailsWith P (parseInt16 s) := by
  unfold parseInt16
  cases Numeral.word? 16 s with
  | some n => exact failsWith_ok _
  | none => exact failsWith_error hP

theorem failsWith_parseInt32 (hP : P .invalidValue) (s : String) :
    FailsWith P (parseInt32 s) := by
  unfold parseInt32
  cases Numeral.word? 32 s with
  | some n => exact failsWith_ok _
  | none => exact failsWith_error hP

theorem failsWith_parseDate (hP : P .invalidValue) (s : String) : FailsWith P (parseDate s) := by
  unfold parseDate
  cases Date.ofChars? (Text.trim s.toList) with
  | some d => exact failsWith_ite (fun _ => failsWith_ok _) fun _ => failsWith_error hP
  | none => exact failsWith_parseInt32 hP s

theorem failsWith_parseFloat {l : FloatLayout} (hP : P .invalidValue) (s : String) :
    FailsWith P (parseFloat s : Except AccessError (FloatWord l)) := by
  simp only [parseFloat]
  cases (FloatWord.ofChars? (Text.trim s.toList) : Option (FloatWord l)) with
  | some x => exact failsWith_ite (fun _ => failsWith_error hP) fun _ => failsWith_ok x
  | none => exact failsWith_error hP

/-- A text that names no value is an invalid value and nothing else. -/
theorem failsWith_parse (hP : P .invalidValue) (u : NumType) (format : Format) (s : String) :
    FailsWith P (u.parse format s) := by
  cases u with
  | int16 => exact failsWith_parseInt16 hP s
  | int32 =>
    cases format with
    | date => exact failsWith_parseDate hP s
    | _ => exact failsWith_parseInt32 hP s
  | float => exact failsWith_parseFloat hP s
  | double => exact failsWith_parseFloat hP s

end NumType

/-! ## Blanks -/

/-- A text without blanks stays as it is. -/
theorem Text.trim_of_not_blank {cs : List Char} (h : ∀ c ∈ cs, isBlank c = false) :
    trim cs = cs := by
  have hstay : ∀ cs : List Char, (∀ c ∈ cs, isBlank c = false) → cs.dropWhile isBlank = cs := by
    intro cs h
    cases cs with
    | nil => rfl
    | cons c cs => rw [List.dropWhile_cons, h c List.mem_cons_self]; rfl
  have hend : cs.reverse.dropWhile isBlank = cs.reverse :=
    hstay cs.reverse fun c hc => h c (List.mem_reverse.1 hc)
  rw [trim, trimEnd, trimStart, hstay cs h, hend, List.reverse_reverse]

namespace Numeral

variable {base n d : Nat} {cs : List Char}

/-! ## Digits -/

/-- A digit that was written is read. -/
theorem digit?_digitChar (hbase : base ≤ 16) (hd : d < base) :
    digit? base d.digitChar = some d := by
  have hvalue : ∀ d < 16, digit? 16 d.digitChar = some d := by decide
  have hsixteen := hvalue d (Nat.lt_of_lt_of_le hd hbase)
  -- the base only bounds the value
  unfold digit? at hsixteen ⊢
  rw [Option.filter_eq_some_iff] at hsixteen ⊢
  exact ⟨hsixteen.1, decide_eq_true hd⟩

theorem extend?_append (base n : Nat) (cs cs' : List Char) :
    extend? base n (cs ++ cs') = (extend? base n cs).bind fun m => extend? base m cs' := by
  induction cs generalizing n with
  | nil => rfl
  | cons c cs ih =>
    simp only [List.cons_append, extend?]
    cases digit? base c with
    | none => rfl
    | some d => exact ih (n * base + d)

/-- Zeros in front do not count. -/
theorem extend?_replicate (hbase : 0 < base) (zeros : Nat) :
    extend? base 0 (List.replicate zeros '0') = some 0 := by
  induction zeros with
  | zero => rfl
  | succ zeros ih =>
    have hzero : digit? base '0' = some 0 := by
      simp [digit?, Option.filter_eq_some_iff, hbase]
    rw [List.replicate_succ, extend?, hzero]
    simpa using ih

/-- The digits of a number are read as this number. -/
theorem extend?_toDigits (hone : 1 < base) (hbase : base ≤ 16) (n : Nat) :
    extend? base 0 (Nat.toDigits base n) = some n := by
  induction n using Nat.strongRecOn with
  | ind n ih =>
    rw [Nat.toDigits_eq_if hone]
    by_cases hn : n < base
    · rw [if_pos hn, extend?, digit?_digitChar hbase hn]
      simp [extend?]
    · have hlast : n % base < base := Nat.mod_lt n (Nat.zero_lt_of_lt hone)
      have hless : n / base < n := Nat.div_lt_self (by omega) hone
      rw [if_neg hn, extend?_append, ih (n / base) hless]
      simp only [Option.bind_some, extend?, digit?_digitChar hbase hlast]
      rw [Nat.div_add_mod']

theorem ofDigits?_padded (hone : 1 < base) (hbase : base ≤ 16) (length n : Nat) :
    ofDigits? base (padded length (Nat.toDigits base n)) = some n := by
  have hne : padded length (Nat.toDigits base n) ≠ [] := by
    simp [padded, Nat.toDigits_ne_nil]
  rw [ofDigits?, if_neg (by simpa using hne), padded, extend?_append,
    extend?_replicate (by omega)]
  exact extend?_toDigits hone hbase n

theorem ofDigits?_toDigits (hone : 1 < base) (hbase : base ≤ 16) (n : Nat) :
    ofDigits? base (Nat.toDigits base n) = some n := by
  rw [ofDigits?, if_neg (by simp [Nat.toDigits_ne_nil])]
  exact extend?_toDigits hone hbase n

/-- What was written are digits. -/
theorem exists_digit_of_mem (hone : 1 < base) {c : Char} (hc : c ∈ Nat.toDigits base n) :
    ∃ d < base, c = d.digitChar := by
  induction n using Nat.strongRecOn with
  | ind n ih =>
    rw [Nat.toDigits_eq_if hone] at hc
    by_cases hn : n < base
    · rw [if_pos hn, List.mem_singleton] at hc
      exact ⟨n, hn, hc⟩
    · rw [if_neg hn, List.mem_append, List.mem_singleton] at hc
      rcases hc with hc | rfl
      · exact ih (n / base) (Nat.div_lt_self (by omega) hone) hc
      · exact ⟨n % base, Nat.mod_lt n (Nat.zero_lt_of_lt hone), rfl⟩

/-- No zero stands in front of a number that is not zero. -/
theorem exists_toDigits_eq_cons (hone : 1 < base) (hn : 0 < n) :
    ∃ d ds, 0 < d ∧ d < base ∧ Nat.toDigits base n = d.digitChar :: ds := by
  induction n using Nat.strongRecOn with
  | ind n ih =>
    rw [Nat.toDigits_eq_if hone]
    by_cases hlt : n < base
    · exact ⟨n, [], hn, hlt, if_pos hlt⟩
    · have hpos : 0 < n / base := Nat.div_pos (Nat.not_lt.1 hlt) (Nat.zero_lt_of_lt hone)
      obtain ⟨d, ds, hd, hbase, hds⟩ := ih (n / base) (Nat.div_lt_self hn hone) hpos
      refine ⟨d, ds ++ [(n % base).digitChar], hd, hbase, ?_⟩
      rw [if_neg hlt, hds, List.cons_append]

theorem isBlank_digitChar (hd : d < 16) : Text.isBlank d.digitChar = false := by
  have hall : ∀ d < 16, Text.isBlank d.digitChar = false := by decide
  exact hall d hd

/-! ## Numerals -/

/-- A numeral that does not begin with a zero is decimal. -/
theorem magnitude?_cons {c : Char} (hc : c ≠ '0') (cs : List Char) :
    magnitude? (c :: cs) = ofDigits? 10 (c :: cs) := by
  unfold magnitude?
  split
  · next h => exact absurd (List.cons.inj h).1 hc
  · next h => exact absurd (List.cons.inj h).1 hc
  · next h => exact absurd (List.cons.inj h).1 hc
  · rfl

/-- A numeral without a sign. -/
theorem signed?_cons {c : Char} (hminus : c ≠ '-') (hplus : c ≠ '+') (cs : List Char) :
    signed? (c :: cs) =
      (magnitude? (c :: cs)).bind fun n => if n ≤ limit then some (n : Int) else none := by
  unfold signed?
  split
  · next h => exact absurd (List.cons.inj h).1 hminus
  · next h => exact absurd (List.cons.inj h).1 hplus
  · rfl

/-- Decimal digits are read as decimal ones: a zero in front stands alone. -/
theorem magnitude?_toDigits (n : Nat) : magnitude? (Nat.toDigits 10 n) = some n := by
  rcases Nat.eq_zero_or_pos n with rfl | hn
  · rfl
  · obtain ⟨d, ds, hd, hten, hds⟩ := exists_toDigits_eq_cons (show 1 < 10 by decide) hn
    have hne : ∀ d < 10, 0 < d → d.digitChar ≠ '0' := by decide
    rw [hds, magnitude?_cons (hne d hten hd), ← hds, ofDigits?_toDigits (by decide) (by decide)]

/-- Decimal digits have no sign. -/
theorem signed?_toDigits (hn : n ≤ limit) : signed? (Nat.toDigits 10 n) = some (n : Int) := by
  obtain ⟨c, cs, hcs⟩ := List.exists_cons_of_ne_nil (Nat.toDigits_ne_nil (n := n) (b := 10))
  have hc : c ∈ Nat.toDigits 10 n := hcs ▸ List.mem_cons_self
  obtain ⟨d, hd, rfl⟩ := exists_digit_of_mem (by decide) hc
  have hsign : ∀ d < 10, d.digitChar ≠ '-' ∧ d.digitChar ≠ '+' := by decide
  rw [hcs, signed?_cons (hsign d hd).1 (hsign d hd).2, ← hcs, magnitude?_toDigits]
  exact if_pos hn

theorem signed?_decimal {n : Int} (hn : n.natAbs ≤ limit) : signed? (decimal n) = some n := by
  unfold decimal
  by_cases hneg : n < 0
  · have hdigits : signed? ('-' :: Nat.toDigits 10 n.natAbs) =
        (magnitude? (Nat.toDigits 10 n.natAbs)).bind fun m =>
          if m ≤ limit then some (-(m : Int)) else none := rfl
    rw [if_pos hneg, hdigits, magnitude?_toDigits, Option.bind_some, if_pos hn]
    exact congrArg some (by omega)
  · rw [if_neg hneg, signed?_toDigits hn]
    exact congrArg some (by omega)

theorem signed?_hex (length : Nat) (hn : n ≤ limit) : signed? (hex length n) = some (n : Int) := by
  have hdigits : magnitude? (hex length n) = some n :=
    ofDigits?_padded (show 1 < 16 by decide) (by decide) length n
  rw [hex, signed?_cons (by decide) (by decide), ← hex, hdigits]
  exact if_pos hn

/-! ## Texts -/

theorem trim_decimal (n : Int) : Text.trim (decimal n) = decimal n := by
  have hdigits : ∀ c ∈ Nat.toDigits 10 n.natAbs, Text.isBlank c = false := by
    intro c hc
    obtain ⟨d, hd, rfl⟩ := exists_digit_of_mem (by decide) hc
    exact isBlank_digitChar (by omega)
  apply Text.trim_of_not_blank
  unfold decimal
  by_cases hneg : n < 0
  · rw [if_pos hneg]
    exact List.forall_mem_cons.2 ⟨by decide, hdigits⟩
  · rw [if_neg hneg]
    exact hdigits

theorem trim_hex (length n : Nat) : Text.trim (hex length n) = hex length n := by
  apply Text.trim_of_not_blank
  unfold hex padded
  simp only [List.forall_mem_cons, List.forall_mem_append]
  refine ⟨by decide, by decide, ?_, ?_⟩
  · intro c hc
    rw [List.eq_of_mem_replicate hc]
    decide
  · intro c hc
    obtain ⟨d, hd, rfl⟩ := exists_digit_of_mem (by decide) hc
    exact isBlank_digitChar hd

theorem int?_decimal {n : Int} (hn : n.natAbs ≤ limit) :
    int? (String.ofList (decimal n)) = some n := by
  rw [int?, String.toList_ofList, trim_decimal, signed?_decimal hn]

theorem int?_hex (length : Nat) (hn : n ≤ limit) :
    int? (String.ofList (hex length n)) = some (n : Int) := by
  rw [int?, String.toList_ofList, trim_hex, signed?_hex length hn]

theorem isHex_hex (length n : Nat) : isHex (String.ofList (hex length n)) = true := by
  rw [isHex, String.toList_ofList, trim_hex]
  rfl

/-! ## Words -/

/-- Whether an integer is that of a word of some bits. -/
def IsWord (bits : Nat) (n : Int) : Prop := -(2 ^ (bits - 1)) ≤ n ∧ n < 2 ^ (bits - 1)

instance (bits : Nat) (n : Int) : Decidable (IsWord bits n) := inferInstanceAs (Decidable (_ ∧ _))

/-- No word is beyond what a numeral may speak of. -/
theorem pow_le_limit {bits : Nat} (hbits : bits < 64) : 2 ^ bits ≤ limit + 1 :=
  Nat.pow_le_pow_right (by decide) (Nat.le_of_lt_succ hbits)

variable {bits : Nat} {i : Int}

/-- A numeral may speak of the integer of every word. -/
theorem IsWord.natAbs_le (hbits : bits < 64) (hi : IsWord bits i) : i.natAbs ≤ limit := by
  have hpow : 2 ^ (bits - 1) ≤ 2 ^ 62 := Nat.pow_le_pow_right (by decide) (by omega)
  have hcast : ((2 ^ (bits - 1) : Nat) : Int) = 2 ^ (bits - 1) := Int.natCast_pow 2 (bits - 1)
  obtain ⟨hlow, hhigh⟩ := hi
  rw [← hcast] at hlow hhigh
  have h62 : (2 : Nat) ^ 62 ≤ limit := by decide
  omega

theorem word?_decimal (hbits : bits < 64) (hi : IsWord bits i) :
    word? bits (String.ofList (decimal i)) = some i := by
  rw [word?, int?_decimal (hi.natAbs_le hbits)]
  exact if_pos hi

/-- The hexadecimal digits of a word name its integer, also where it is negative. -/
theorem word?_hex (hpos : 0 < bits) (hbits : bits < 64) (hi : IsWord bits i) (length : Nat) :
    word? bits (String.ofList (hex length (i % 2 ^ bits).toNat)) = some i := by
  have hdouble : (2 : Int) ^ bits = 2 * 2 ^ (bits - 1) := by
    obtain ⟨k, rfl⟩ := Nat.exists_eq_succ_of_ne_zero (Nat.pos_iff_ne_zero.1 hpos)
    exact Int.pow_succ' 2 k
  have hfull : (2 : Int) ^ bits ≤ limit + 1 := by
    have hcast : ((2 ^ bits : Nat) : Int) = 2 ^ bits := Int.natCast_pow 2 bits
    have hpow := pow_le_limit hbits
    omega
  obtain ⟨hlow, hhigh⟩ := hi
  rw [word?]
  generalize (2 : Int) ^ (bits - 1) = half at hdouble hlow hhigh ⊢
  generalize (2 : Int) ^ bits = full at hdouble hfull ⊢
  have hword : ((i % full).toNat : Int) = i % full :=
    Int.toNat_of_nonneg (Int.emod_nonneg i (by omega))
  have hlt : i % full < full := Int.emod_lt_of_pos i (by omega)
  rw [int?_hex length (by omega), isHex_hex, hword, Option.bind_some]
  by_cases hneg : 0 ≤ i
  · -- the word of an integer that is not negative is the integer
    rw [Int.emod_eq_of_lt hneg (by omega)]
    exact if_pos ⟨hlow, hhigh⟩
  · have hwrapped : i % full = i + full := by
      rw [← Int.add_emod_right, Int.emod_eq_of_lt (by omega) (by omega)]
    rw [hwrapped, if_neg (by omega), if_pos ⟨by omega, by omega, rfl⟩]
    exact congrArg some (by omega)

end Numeral

/-! ## Formats -/

namespace NumType

open Numeral (IsWord word?)

/-- **Every format but that of dates keeps an integer.** What is written of the integer of a word
names the same word again. -/
theorem word?_renderInt {width : IntWidth} {format : Format} {i : Int}
    (hi : IsWord width.bits i) (hformat : width = .bits16 ∨ format ≠ .date) :
    word? width.bits (renderInt i width format) = some i := by
  have hpos : 0 < width.bits := by cases width <;> decide
  have hbits : width.bits < 64 := by cases width <;> decide
  unfold renderInt
  cases format.hexDigits? with
  | some digits => exact Numeral.word?_hex hpos hbits hi _
  | none =>
    have hdate : ¬(format = .date && width = .bits32) = true := by
      rcases hformat with rfl | hne <;> simp_all
    simp only [hdate]
    exact Numeral.word?_decimal hbits hi

theorem parseInt16_renderInt (x : Int16) (format : Format) :
    parseInt16 (renderInt x.toInt .bits16 format) = .ok x := by
  have hx : IsWord IntWidth.bits16.bits x.toInt := ⟨x.le_toInt, x.toInt_lt⟩
  have hread : word? 16 (renderInt x.toInt .bits16 format) = some x.toInt :=
    word?_renderInt hx (.inl rfl)
  simp only [parseInt16, hread, Int16.ofInt_toInt]

/-- Only in the format of dates an `INT32` is read as one. -/
theorem parse_int32_of_ne_date {format : Format} (hformat : format ≠ .date) (s : String) :
    int32.parse format s = parseInt32 s := by
  cases format <;> first | rfl | exact absurd rfl hformat

theorem parseInt32_renderInt (x : Int32) {format : Format} (hformat : format ≠ .date) :
    parseInt32 (renderInt x.toInt .bits32 format) = .ok x := by
  have hx : IsWord IntWidth.bits32.bits x.toInt := ⟨x.le_toInt, x.toInt_lt⟩
  have hread : word? 32 (renderInt x.toInt .bits32 format) = some x.toInt :=
    word?_renderInt hx (.inr hformat)
  simp only [parseInt32, hread, Int32.ofInt_toInt]

end NumType

end VariableRegistry
