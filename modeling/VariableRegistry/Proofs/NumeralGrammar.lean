/-
# The grammar of integer texts

Which texts name integers, and which ones, is said here by a grammar: a sign, a beginning that tells
the base, and digits that are counted in this base. The readers of integers accept exactly the texts
of this grammar whose integer their word can hold, and refuse every other text, however long, as an
invalid value.
-/
import Mathlib.Data.List.Forall2
import Mathlib.Data.Nat.Digits.Defs
import VariableRegistry.Proofs.Runs
import VariableRegistry.Proofs.ValueTexts

namespace VariableRegistry

/-! ## Stripped texts -/

namespace Text

/-- What is left of a text without the blanks at both ends. -/
structure IsStripped (cs s : List Char) : Prop where
  around : ∃ front back, cs = front ++ s ++ back ∧
    (∀ c ∈ front, isBlank c = true) ∧ ∀ c ∈ back, isBlank c = true
  first : Stops isBlank s
  last : Stops isBlank s.reverse

variable {cs s : List Char}

theorem isStripped_trim (cs : List Char) : IsStripped cs (trim cs) where
  around := by
    refine ⟨cs.takeWhile isBlank, ((trimStart cs).reverse.takeWhile isBlank).reverse, ?_, ?_, ?_⟩
    · have hend : trim cs ++ ((trimStart cs).reverse.takeWhile isBlank).reverse = trimStart cs := by
        rw [trim, trimEnd, ← List.reverse_append, List.takeWhile_append_dropWhile,
          List.reverse_reverse]
      rw [List.append_assoc, hend, trimStart, List.takeWhile_append_dropWhile]
    · exact fun c hc => List.mem_takeWhile_imp hc
    · exact fun c hc => List.mem_takeWhile_imp (List.mem_reverse.1 hc)
  first := by
    -- blanks at the end do not stand in front of what begins with none
    intro c hc
    have hbegins : trim cs <+: trimStart cs := by
      rw [trim, trimEnd, ← List.reverse_suffix, List.reverse_reverse]
      exact List.dropWhile_suffix isBlank
    obtain ⟨back, hback⟩ := hbegins
    refine stops_dropWhile isBlank cs c ?_
    rw [← trimStart, ← hback, List.head?_append, Option.mem_def.1 hc]
    rfl
  last := by
    rw [trim, trimEnd, List.reverse_reverse]
    exact stops_dropWhile isBlank _

/-- A text is stripped in one way only. -/
theorem IsStripped.eq_trim (h : IsStripped cs s) : trim cs = s := by
  obtain ⟨front, back, rfl, hfront, hback⟩ := h.around
  have hlast : ∀ c ∈ back.reverse, isBlank c = true := fun c hc => hback c (List.mem_reverse.1 hc)
  rw [trim, trimStart, List.append_assoc, List.dropWhile_append_of_pos hfront]
  rcases s with _ | ⟨c, s⟩
  · -- nothing but blanks
    rw [List.nil_append, List.dropWhile_eq_nil_iff.2 hback]
    rfl
  · have hstart : Stops isBlank (c :: s ++ back) := stops_cons.2 (stops_cons.1 h.first)
    rw [dropWhile_of_stops hstart, trimEnd, List.reverse_append, dropWhile_run hlast h.last,
      List.reverse_reverse]

end Text

namespace Numeral

/-! ## The grammar -/

/-- A character is a digit of a base and has a value: `0` to `9`, then letters of either case. -/
def IsDigit (base : Nat) (c : Char) (d : Nat) : Prop :=
  d < base ∧ (c = d.digitChar ∨ c = d.digitChar.toUpper)

/-- At least one digit, and the number that the digits stand for, the last one counting least. -/
def Spells (base : Nat) (cs : List Char) (n : Nat) : Prop :=
  cs ≠ [] ∧ ∃ ds, List.Forall₂ (IsDigit base) cs ds ∧ n = Nat.ofDigits base ds.reverse

/-- A numeral without a sign, with its base and its number. -/
inductive Unsigned : Nat → List Char → Nat → Prop where
  | hexadecimal {x : Char} {cs : List Char} {n : Nat} (hx : x = 'x' ∨ x = 'X')
      (h : Spells 16 cs n) : Unsigned 16 ('0' :: x :: cs) n
  | octal {cs : List Char} {n : Nat} (h : Spells 8 cs n) : Unsigned 8 ('0' :: cs) n
  | zero : Unsigned 10 ['0'] 0
  | decimal {c : Char} {cs : List Char} {n : Nat} (hc : c ≠ '0') (h : Spells 10 (c :: cs) n) :
      Unsigned 10 (c :: cs) n

/-- A numeral with at most one sign, with its base, whether the sign is a minus, and its integer. -/
inductive Signed : Nat → Bool → List Char → Int → Prop where
  | bare {base : Nat} {cs : List Char} {n : Nat} (h : Unsigned base cs n) :
      Signed base false cs n
  | plus {base : Nat} {cs : List Char} {n : Nat} (h : Unsigned base cs n) :
      Signed base false ('+' :: cs) n
  | minus {base : Nat} {cs : List Char} {n : Nat} (h : Unsigned base cs n) :
      Signed base true ('-' :: cs) (-n)

/-- A stripped text names the integer of a word: it is a numeral of this integer, or a hexadecimal
one without a minus of the bits of a negative integer. -/
inductive Names (bits : Nat) (cs : List Char) : Int → Prop where
  | number {base : Nat} {negative : Bool} {i : Int} (h : Signed base negative cs i)
      (hi : IsWord bits i) : Names bits cs i
  | word {n : Int} (h : Signed 16 false cs n) (hlow : 2 ^ (bits - 1) ≤ n) (hhigh : n < 2 ^ bits) :
      Names bits cs (n - 2 ^ bits)

variable {base n bits : Nat} {c : Char} {cs : List Char} {i : Int}

/-! ## Digits -/

/-- Only the first characters are digits. -/
theorem toNat_lt_of_digit? {d : Nat} (h : digit? base c = some d) : c.toNat < 128 := by
  by_contra hc
  have hbeyond : ∀ x : Char, x.toNat < 128 → ¬c ≤ x := by
    intro x hx hle
    have hval : c.toNat ≤ x.toNat := UInt32.le_iff_toNat_le.1 (Char.le_def.1 hle)
    omega
  simp [digit?, hbeyond] at h

/-- The digits of a base are read as their values. -/
theorem digit?_eq_some_iff (hbase : base ≤ 16) {d : Nat} :
    digit? base c = some d ↔ IsDigit base c d := by
  have hread : ∀ d < 16, digit? 16 d.digitChar = some d ∧
      digit? 16 d.digitChar.toUpper = some d := by
    decide
  have hdigit : ∀ n < 128, ∀ d < 16, digit? 16 (Char.ofNat n) = some d →
      Char.ofNat n = d.digitChar ∨ Char.ofNat n = d.digitChar.toUpper := by
    decide +kernel
  -- the base only bounds the value
  have hfilter : digit? base c = some d ↔ d < base ∧ digit? 16 c = some d := by
    unfold digit?
    rw [Option.filter_eq_some_iff, Option.filter_eq_some_iff]
    simp only [decide_eq_true_eq]
    constructor
    · exact fun ⟨hc, hd⟩ => ⟨hd, hc, by omega⟩
    · exact fun ⟨hd, hc, _⟩ => ⟨hc, hd⟩
  rw [hfilter, IsDigit]
  refine and_congr_right fun hd => ⟨fun hc => ?_, ?_⟩
  · have hchar := hdigit c.toNat (toNat_lt_of_digit? hc) d (by omega)
    rw [Char.ofNat_toNat] at hchar
    exact hchar hc
  · rintro (rfl | rfl)
    · exact (hread d (by omega)).1
    · exact (hread d (by omega)).2

/-- A digit is no character that is not read as one. -/
theorem IsDigit.ne {d : Nat} (h : IsDigit 16 c d) {x : Char} (hx : digit? 16 x = none) : c ≠ x := by
  rintro rfl
  rw [(digit?_eq_some_iff (Nat.le_refl 16)).2 h] at hx
  cases hx

/-- A digit in front counts most. -/
theorem ofDigits_reverse_cons (base d : Nat) (ds : List Nat) :
    Nat.ofDigits base (d :: ds).reverse =
      d * base ^ ds.length + Nat.ofDigits base ds.reverse := by
  rw [List.reverse_cons, Nat.ofDigits_append, Nat.ofDigits_singleton, List.length_reverse,
    Nat.mul_comm, Nat.add_comm]

/-- Digits are read as the number that they continue. -/
theorem extend?_eq_some_iff (hbase : base ≤ 16) {m : Nat} :
    extend? base n cs = some m ↔
      ∃ ds, List.Forall₂ (IsDigit base) cs ds ∧
        m = n * base ^ ds.length + Nat.ofDigits base ds.reverse := by
  induction cs generalizing n with
  | nil => simp [extend?, eq_comm]
  | cons c cs ih =>
    have hcons : ∀ d (ds : List Nat), (n * base + d) * base ^ ds.length +
        Nat.ofDigits base ds.reverse =
          n * base ^ (d :: ds).length + Nat.ofDigits base (d :: ds).reverse := by
      intro d ds
      rw [ofDigits_reverse_cons, List.length_cons]
      ring
    rw [extend?, Option.bind_eq_some_iff]
    simp only [digit?_eq_some_iff hbase, ih, List.forall₂_cons_left_iff]
    constructor
    · rintro ⟨d, hd, ds, hds, rfl⟩
      exact ⟨d :: ds, ⟨d, ds, hd, hds, rfl⟩, hcons d ds⟩
    · rintro ⟨_, ⟨d, ds, hd, hds, rfl⟩, rfl⟩
      exact ⟨d, hd, ds, hds, (hcons d ds).symm⟩

/-- A run of at least one digit is read as the number that it spells. -/
theorem ofDigits?_eq_some_iff (hbase : base ≤ 16) :
    ofDigits? base cs = some n ↔ Spells base cs n := by
  rw [ofDigits?, Spells]
  rcases cs with _ | ⟨c, cs⟩
  · simp
  · rw [if_neg (by simp), extend?_eq_some_iff hbase]
    simp

/-- Every character of a run of digits is a digit. -/
theorem Spells.exists_of_mem (h : Spells base cs n) (hc : c ∈ cs) : ∃ d, IsDigit base c d := by
  obtain ⟨-, ds, hds, -⟩ := h
  induction hds with
  | nil => cases hc
  | cons hd _ ih =>
    rcases List.mem_cons.1 hc with rfl | hc
    · exact ⟨_, hd⟩
    · exact ih hc

theorem Spells.exists_digit (h : Spells base (c :: cs) n) (hbase : base ≤ 16) :
    ∃ d, IsDigit 16 c d := by
  obtain ⟨d, hd⟩ := h.exists_of_mem List.mem_cons_self
  exact ⟨d, Nat.lt_of_lt_of_le hd.1 hbase, hd.2⟩

/-! ## Numerals -/

/-- An unsigned numeral begins with a digit. -/
theorem Unsigned.exists_digit (h : Unsigned base cs n) :
    ∃ c rest d, cs = c :: rest ∧ IsDigit 16 c d := by
  have hzero : IsDigit 16 '0' 0 := ⟨by decide, .inl rfl⟩
  cases h with
  | hexadecimal _ _ => exact ⟨_, _, 0, rfl, hzero⟩
  | octal _ => exact ⟨_, _, 0, rfl, hzero⟩
  | zero => exact ⟨_, _, 0, rfl, hzero⟩
  | decimal _ h =>
    obtain ⟨d, hd⟩ := h.exists_digit (by decide)
    exact ⟨_, _, d, rfl, hd⟩

/-- A zero in front of anything but an `x` tells that the digits behind it are octal. -/
theorem magnitude?_zero_cons (hx : c ≠ 'x') (hX : c ≠ 'X') (cs : List Char) :
    magnitude? ('0' :: c :: cs) = ofDigits? 8 (c :: cs) := by
  unfold magnitude?
  split
  · next h => exact absurd (List.cons.inj (List.cons.inj h).2).1 hx
  · next h => exact absurd (List.cons.inj (List.cons.inj h).2).1 hX
  · next h => rw [(List.cons.inj h).2]
  · next h => exact absurd rfl (h c cs)

/-- What is read without a sign are the unsigned numerals. -/
theorem magnitude?_eq_some_iff : magnitude? cs = some n ↔ ∃ base, Unsigned base cs n := by
  constructor
  · intro h
    unfold magnitude? at h
    split at h
    · exact ⟨16, .hexadecimal (.inl rfl) ((ofDigits?_eq_some_iff (by decide)).1 h)⟩
    · exact ⟨16, .hexadecimal (.inr rfl) ((ofDigits?_eq_some_iff (by decide)).1 h)⟩
    · exact ⟨8, .octal ((ofDigits?_eq_some_iff (by decide)).1 h)⟩
    · next hx hX hoctal =>
      rcases cs with _ | ⟨c, cs⟩
      · cases h
      · by_cases hc : c = '0'
        · -- a zero that nothing follows
          subst hc
          rcases cs with _ | ⟨c, cs⟩
          · cases h
            exact ⟨10, .zero⟩
          · exact absurd rfl (hoctal c cs)
        · exact ⟨10, .decimal hc ((ofDigits?_eq_some_iff (by decide)).1 h)⟩
  · rintro ⟨base, h⟩
    cases h with
    | hexadecimal hx h =>
      have hdigits := (ofDigits?_eq_some_iff (by decide)).2 h
      rcases hx with rfl | rfl
      · exact hdigits
      · exact hdigits
    | @octal cs n h =>
      rcases cs with _ | ⟨c, cs⟩
      · exact absurd rfl h.1
      · obtain ⟨d, hd⟩ := h.exists_digit (by decide)
        rw [magnitude?_zero_cons (hd.ne rfl) (hd.ne rfl), (ofDigits?_eq_some_iff (by decide)).2 h]
    | zero => rfl
    | decimal hc h => rw [magnitude?_cons hc, (ofDigits?_eq_some_iff (by decide)).2 h]

/-- What is read with at most one sign are the numerals that speak of no number beyond the limit. -/
theorem signed?_eq_some_iff :
    signed? cs = some i ↔ i.natAbs ≤ limit ∧ ∃ base negative, Signed base negative cs i := by
  constructor
  · intro h
    unfold signed? at h
    split at h
    all_goals
      obtain ⟨n, hn, h⟩ := Option.bind_eq_some_iff.1 h
      obtain ⟨base, hn⟩ := magnitude?_eq_some_iff.1 hn
      split_ifs at h with hlimit
      cases h
    · exact ⟨by omega, base, true, .minus hn⟩
    · exact ⟨by omega, base, false, .plus hn⟩
    · exact ⟨by omega, base, false, .bare hn⟩
  · rintro ⟨hlimit, base, negative, h⟩
    cases h with
    | bare h =>
      obtain ⟨c, rest, d, rfl, hd⟩ := h.exists_digit
      rw [signed?_cons (hd.ne rfl) (hd.ne rfl), magnitude?_eq_some_iff.2 ⟨base, h⟩]
      exact if_pos (by omega)
    | plus h =>
      show (magnitude? _).bind _ = _
      rw [magnitude?_eq_some_iff.2 ⟨base, h⟩]
      exact if_pos (by omega)
    | minus h =>
      show (magnitude? _).bind _ = _
      rw [magnitude?_eq_some_iff.2 ⟨base, h⟩]
      exact if_pos (by omega)

/-! ## Hexadecimal numerals -/

/-- The beginning of a hexadecimal numeral. -/
def BeginsHex (cs : List Char) : Prop := ∃ x rest, (x = 'x' ∨ x = 'X') ∧ cs = '0' :: x :: rest

theorem isHex_eq_true_iff {text : String} :
    isHex text = true ↔ BeginsHex ((Text.trim text.toList).dropWhile (· = '+')) := by
  unfold isHex BeginsHex
  split
  · next rest heq => simp [heq]
  · next rest heq => simp [heq]
  · next hx hX =>
    simp only [Bool.false_eq_true, false_iff]
    rintro ⟨x, rest, rfl | rfl, heq⟩
    · exact hx rest heq
    · exact hX rest heq

/-- The numerals that begin as hexadecimal ones are those of base sixteen. -/
theorem Unsigned.beginsHex_iff (h : Unsigned base cs n) : BeginsHex cs ↔ base = 16 := by
  constructor
  · rintro ⟨x, rest, hx, rfl⟩
    cases h with
    | hexadecimal _ _ => rfl
    | octal h =>
      obtain ⟨d, hd⟩ := h.exists_digit (by decide)
      rcases hx with rfl | rfl
      · exact absurd rfl (hd.ne (x := 'x') rfl)
      · exact absurd rfl (hd.ne (x := 'X') rfl)
    | decimal hc _ => exact absurd rfl hc
  · rintro rfl
    cases h with
    | hexadecimal hx _ => exact ⟨_, _, hx, rfl⟩

/-- Of the numerals those are called hexadecimal that have base sixteen and no minus. -/
theorem Signed.isHex_iff {text : String} {negative : Bool}
    (h : Signed base negative (Text.trim text.toList) i) :
    isHex text = true ↔ base = 16 ∧ negative = false := by
  have hstops : ∀ {cs n}, Unsigned base cs n → Stops (fun c : Char => c = '+') cs := by
    intro cs n h
    obtain ⟨c, rest, d, rfl, hd⟩ := h.exists_digit
    exact stops_cons.2 (decide_eq_false (hd.ne rfl))
  rw [isHex_eq_true_iff]
  generalize Text.trim text.toList = cs at h
  cases h with
  | bare h => rw [dropWhile_of_stops (hstops h), h.beginsHex_iff, and_iff_left rfl]
  | plus h =>
    rw [List.dropWhile_cons_of_pos (by rfl), dropWhile_of_stops (hstops h), h.beginsHex_iff,
      and_iff_left rfl]
  | minus h =>
    rw [List.dropWhile_cons_of_neg (by decide)]
    simp [BeginsHex]

/-! ## Words -/

/-- **What is read as an integer of a word are the texts that name one.** -/
theorem word?_eq_some_iff {text : String} (hbits : bits < 64) :
    word? bits text = some i ↔ Names bits (Text.trim text.toList) i := by
  have hfull : (2 : Int) ^ bits ≤ limit + 1 := by
    have hcast : ((2 ^ bits : Nat) : Int) = 2 ^ bits := Int.natCast_pow 2 bits
    have hpow := pow_le_limit hbits
    omega
  have hhalf : (0 : Int) ≤ 2 ^ (bits - 1) ∧ (2 : Int) ^ (bits - 1) ≤ 2 ^ bits :=
    ⟨by positivity, pow_le_pow_right₀ (by decide) (Nat.sub_le bits 1)⟩
  rw [word?, Option.bind_eq_some_iff]
  constructor
  · rintro ⟨n, hn, h⟩
    obtain ⟨-, base, negative, hsigned⟩ := signed?_eq_some_iff.1 hn
    split_ifs at h with hword hwrapped
    · cases h
      exact .number hsigned hword
    · cases h
      obtain ⟨hpos, hlt, hhex⟩ := hwrapped
      obtain ⟨rfl, rfl⟩ := hsigned.isHex_iff.1 hhex
      exact .word hsigned (by omega) hlt
  · intro h
    cases h with
    | number hsigned hi =>
      exact ⟨i, signed?_eq_some_iff.2 ⟨hi.natAbs_le hbits, _, _, hsigned⟩, if_pos hi⟩
    | @word n hsigned hlow hhigh =>
      refine ⟨n, signed?_eq_some_iff.2 ⟨by omega, _, _, hsigned⟩, ?_⟩
      rw [if_neg (by omega), if_pos ⟨by omega, hhigh, hsigned.isHex_iff.2 ⟨rfl, rfl⟩⟩]

/-- What a text names is the integer of a word. -/
theorem Names.isWord (h : Names bits cs i) (hpos : 0 < bits) : IsWord bits i := by
  have hdouble : (2 : Int) * 2 ^ (bits - 1) = 2 ^ bits :=
    mul_pow_sub_one (Nat.pos_iff_ne_zero.1 hpos) 2
  cases h with
  | number _ hi => exact hi
  | word _ hlow hhigh => exact ⟨by omega, by omega⟩

end Numeral

/-! ## Readers of integers -/

namespace NumType

open Numeral (IsWord Names word? word?_eq_some_iff)

/-- A reader accepts exactly the texts that name an integer of its word, as this integer, and
refuses every other one as an invalid value. -/
def FollowsGrammar {α : Type} (bits : Nat) (toInt : α → Int)
    (parse : String → Except AccessError α) : Prop :=
  ∀ text : String, ∃ s, Text.IsStripped text.toList s ∧
    (∀ v, parse text = .ok v ↔ Names bits s (toInt v)) ∧
    ∀ e, parse text = .error e ↔ e = .invalidValue ∧ ∀ i, ¬Names bits s i

/-- A reader of words follows the grammar if its values are the integers of its words. -/
theorem followsGrammar_of_word? {α : Type} {bits : Nat} (hpos : 0 < bits) (hbits : bits < 64)
    (toInt : α → Int) (ofInt : Int → α) (hof : ∀ i, IsWord bits i → toInt (ofInt i) = i)
    (hto : ∀ v, ofInt (toInt v) = v) {parse : String → Except AccessError α}
    (hparse : ∀ text, parse text = match word? bits text with
      | some i => .ok (ofInt i)
      | none => .error .invalidValue) : FollowsGrammar bits toInt parse := by
  intro text
  have hnames : ∀ i, word? bits text = some i ↔ Names bits (Text.trim text.toList) i := fun i =>
    word?_eq_some_iff hbits
  refine ⟨Text.trim text.toList, Text.isStripped_trim text.toList, ?_⟩
  rw [hparse]
  cases hword : word? bits text with
  | some i =>
    rw [hword] at hnames
    have hi : IsWord bits i := ((hnames i).1 rfl).isWord hpos
    constructor
    · intro v
      rw [← hnames, Option.some.injEq, Except.ok.injEq]
      constructor
      · rintro rfl
        exact (hof i hi).symm
      · rintro rfl
        exact hto v
    · intro e
      simp only [reduceCtorEq, false_iff, not_and, not_forall, not_not]
      exact fun _ => ⟨i, (hnames i).1 rfl⟩
  | none =>
    rw [hword] at hnames
    have hnone : ∀ i, ¬Names bits (Text.trim text.toList) i := fun i hi => by
      cases (hnames i).2 hi
    simp [hnone, eq_comm]

theorem followsGrammar_parseInt16 : FollowsGrammar 16 Int16.toInt parseInt16 := by
  refine followsGrammar_of_word? (by decide) (by decide) Int16.toInt Int16.ofInt ?_
    (fun v => Int16.ofInt_toInt v) fun text => rfl
  rintro i ⟨hlow, hhigh⟩
  exact Int16.toInt_ofInt_of_le hlow hhigh

theorem followsGrammar_parseInt32 : FollowsGrammar 32 Int32.toInt parseInt32 := by
  refine followsGrammar_of_word? (by decide) (by decide) Int32.toInt Int32.ofInt ?_
    (fun v => Int32.ofInt_toInt v) fun text => rfl
  rintro i ⟨hlow, hhigh⟩
  exact Int32.toInt_ofInt_of_le hlow hhigh

/-- **The readers of integers follow the grammar.** An `INT16` and an `INT32` are read from exactly
the texts that are, without the blanks at both ends, numerals of an integer of the word, or
hexadecimal numerals without a minus of the bits of a negative one. Every other text, with however
many digits, is an invalid value. -/
theorem integer_readers_follow_grammar :
    FollowsGrammar 16 Int16.toInt parseInt16 ∧ FollowsGrammar 32 Int32.toInt parseInt32 :=
  ⟨followsGrammar_parseInt16, followsGrammar_parseInt32⟩

end NumType

end VariableRegistry
