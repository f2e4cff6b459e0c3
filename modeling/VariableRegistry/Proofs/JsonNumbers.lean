/-
# Numbers in JSON are read back

A number that is read is read as the same value in front of anything that does not go on with it.
An integer that fits into sixty-four bits is written in a form that is read as this integer.
-/
import VariableRegistry.Document.Json.Number
import VariableRegistry.Proofs.Runs
import VariableRegistry.Proofs.ValueTexts

namespace VariableRegistry.Json

variable {cs left rest digits : List Char} {d : Document}

/-! ## What follows a number -/

/-- Whether a character can go on with a number. -/
def goesOn (c : Char) : Bool := c.isDigit || c = '.' || c = 'e' || c = 'E'

theorem readDigits_eq_some : readDigits cs = some (digits, left) ↔
    digits ≠ [] ∧ cs.takeWhile Char.isDigit = digits ∧ cs.dropWhile Char.isDigit = left := by
  rw [readDigits, Decimal.takeDigits]
  by_cases hnone : (cs.takeWhile Char.isDigit).isEmpty = true
  · simp only [hnone, if_true, reduceCtorEq, false_iff]
    rintro ⟨hne, rfl, -⟩
    exact hne (List.isEmpty_iff.1 hnone)
  · simp only [hnone, if_false, Option.some.injEq, Prod.mk.injEq, Bool.false_eq_true]
    constructor
    · rintro ⟨rfl, rfl⟩
      exact ⟨fun h => hnone (List.isEmpty_iff.2 h), rfl, rfl⟩
    · exact And.right

theorem readDigits_append (h : readDigits cs = some (digits, left)) (hrest : Stops goesOn rest) :
    readDigits (cs ++ rest) = some (digits, left ++ rest) := by
  have hdigit : Stops Char.isDigit rest := hrest.mono fun c hc => by simp [goesOn, hc]
  obtain ⟨hne, htake, hdrop⟩ := readDigits_eq_some.1 h
  rw [readDigits_eq_some, takeWhile_append_of_stops hdigit, dropWhile_append_of_stops hdigit, hdrop]
  exact ⟨hne, htake, rfl⟩

theorem readWhole_append (h : readWhole cs = some (digits, left)) (hrest : Stops goesOn rest) :
    readWhole (cs ++ rest) = some (digits, left ++ rest) := by
  rw [readWhole, Option.filter_eq_some_iff] at h ⊢
  exact ⟨readDigits_append h.1 hrest, h.2⟩

/-- There is no fraction where no point is. -/
theorem readFraction_of_stops (h : Stops (· = '.') cs) : readFraction cs = some (none, cs) := by
  unfold readFraction
  split
  · exact absurd (stops_cons.1 h) (by decide)
  · rfl

theorem readFraction_append {fraction : Option (List Char)}
    (h : readFraction cs = some (fraction, left)) (hrest : Stops goesOn rest) :
    readFraction (cs ++ rest) = some (fraction, left ++ rest) := by
  have hpoint : Stops (· = '.') rest := hrest.mono fun c hc => by simp_all [goesOn]
  unfold readFraction at h
  split at h
  · next cs =>
    rw [Option.map_eq_some_iff] at h
    obtain ⟨⟨digits, left⟩, hdigits, hsame⟩ := h
    cases hsame
    rw [List.cons_append, readFraction, readDigits_append hdigits hrest]
    rfl
  · next hother =>
    cases h
    apply readFraction_of_stops
    cases cs with
    | nil => exact hpoint
    | cons c cs =>
      rw [List.cons_append, stops_cons, decide_eq_false_iff_not]
      rintro rfl
      exact hother cs rfl

/-- There is no exponent where its letter is not. -/
theorem readExponent_of_stops (h : Stops (fun c => c = 'e' || c = 'E') cs) :
    readExponent cs = some (none, cs) := by
  cases cs with
  | nil => rfl
  | cons c cs => rw [readExponent, if_neg (Bool.eq_false_iff.1 (stops_cons.1 h))]

/-- Nothing is read as digits behind a sign unless there is something. -/
theorem takeSign_append {c : Char} (cs rest : List Char) :
    Decimal.takeSign (c :: cs ++ rest) =
      ((Decimal.takeSign (c :: cs)).1, (Decimal.takeSign (c :: cs)).2 ++ rest) := by
  by_cases hminus : c = '-'
  · subst hminus
    rfl
  · by_cases hplus : c = '+'
    · subst hplus
      rfl
    · simp [Decimal.takeSign, hminus, hplus]

theorem readExponent_append {exponent : Option Int}
    (h : readExponent cs = some (exponent, left)) (hrest : Stops goesOn rest) :
    readExponent (cs ++ rest) = some (exponent, left ++ rest) := by
  cases cs with
  | nil =>
    cases h
    refine readExponent_of_stops (hrest.mono fun c hc => ?_)
    rw [goesOn, Bool.or_assoc, hc, Bool.or_true]
  | cons c cs =>
    rw [List.cons_append]
    by_cases hmark : (c = 'e' || c = 'E') = true
    · simp only [readExponent, if_pos hmark, Option.map_eq_some_iff] at h ⊢
      obtain ⟨⟨digits, after⟩, hdigits, hsame⟩ := h
      cases hsame
      cases cs with
      | nil => cases hdigits
      | cons c' cs =>
        rw [takeSign_append]
        exact ⟨_, readDigits_append hdigits hrest, rfl⟩
    · rw [readExponent, if_neg hmark] at h ⊢
      cases h
      rfl

/-! ## Numbers -/

/-- Reads a number behind its sign. -/
def readUnsigned (negative : Bool) (cs : List Char) : Option (Document × List Char) :=
  (readWhole cs).bind fun (whole, cs) =>
  (readFraction cs).bind fun (fraction, cs) =>
  (readExponent cs).bind fun (exponent, cs) => some (valueOf negative whole fraction exponent, cs)

theorem readNumber_minus (cs : List Char) : readNumber ('-' :: cs) = readUnsigned true cs := rfl

theorem readNumber_of_stops (h : Stops (· = '-') cs) : readNumber cs = readUnsigned false cs := by
  rw [readNumber]
  · rfl
  · rintro tail rfl
    exact absurd (stops_cons.1 h) (by decide)

theorem readUnsigned_append {negative : Bool} (h : readUnsigned negative cs = some (d, left))
    (hrest : Stops goesOn rest) : readUnsigned negative (cs ++ rest) = some (d, left ++ rest) := by
  simp only [readUnsigned, Option.bind_eq_some_iff] at h ⊢
  obtain ⟨⟨whole, cs₁⟩, hwhole, ⟨fraction, cs₂⟩, hfraction, ⟨exponent, cs₃⟩, hexponent, hsame⟩ := h
  cases hsame
  exact ⟨_, readWhole_append hwhole hrest, _, readFraction_append hfraction hrest, _,
    readExponent_append hexponent hrest, rfl⟩

/-- A number without a minus sign begins with a digit. -/
theorem exists_digit_of_readUnsigned {negative : Bool}
    (h : readUnsigned negative cs = some (d, left)) :
    ∃ c tail, cs = c :: tail ∧ c.isDigit = true := by
  simp only [readUnsigned, Option.bind_eq_some_iff] at h
  obtain ⟨⟨whole, after⟩, hwhole, -⟩ := h
  rw [readWhole, Option.filter_eq_some_iff, readDigits_eq_some] at hwhole
  obtain ⟨⟨hne, htake, -⟩, -⟩ := hwhole
  cases cs with
  | nil => exact absurd htake.symm hne
  | cons c tail =>
    refine ⟨c, tail, rfl, ?_⟩
    by_contra hdigit
    rw [List.takeWhile_cons, if_neg hdigit] at htake
    exact hne htake.symm

/-- Whether a number may begin with a character. -/
def begins (c : Char) : Bool := c = '-' || c.isDigit

/-- A number begins with a minus sign or a digit. -/
theorem exists_begins_of_readNumber (h : readNumber cs = some (d, left)) :
    ∃ c tail, cs = c :: tail ∧ begins c = true := by
  by_cases hminus : Stops (· = '-') cs
  · rw [readNumber_of_stops hminus] at h
    obtain ⟨c, tail, rfl, hdigit⟩ := exists_digit_of_readUnsigned h
    exact ⟨c, tail, rfl, by rw [begins, hdigit, Bool.or_true]⟩
  · simp only [Stops, not_forall] at hminus
    obtain ⟨c, hc, hminus⟩ := hminus
    obtain ⟨tail, rfl⟩ := List.head?_eq_some_iff.1 hc
    exact ⟨c, tail, rfl, by simp_all [begins]⟩

/-- **What follows a number does not change it**, as long as it does not go on with it. -/
theorem readNumber_append (h : readNumber cs = some (d, left)) (hrest : Stops goesOn rest) :
    readNumber (cs ++ rest) = some (d, left ++ rest) := by
  obtain ⟨c, tail, rfl, -⟩ := exists_begins_of_readNumber h
  by_cases hminus : c = '-'
  · subst hminus
    exact readUnsigned_append h hrest
  · have hstops (tail : List Char) : Stops (· = '-') (c :: tail) :=
      stops_cons.2 (decide_eq_false hminus)
    rw [List.cons_append, readNumber_of_stops (hstops _)]
    rw [readNumber_of_stops (hstops _)] at h
    exact readUnsigned_append h hrest

/-! ## Integers -/

/-- The digits of a number stand before a point, and nothing follows them. -/
theorem readWhole_toDigits (n : Nat) :
    readWhole (Nat.toDigits 10 n) = some (Nat.toDigits 10 n, []) := by
  have hdigits : ∀ c ∈ Nat.toDigits 10 n, c.isDigit = true := fun c hc =>
    Nat.isDigit_of_mem_toDigits (by decide) (by decide) hc
  rw [readWhole, Option.filter_eq_some_iff, readDigits_eq_some]
  refine ⟨⟨Nat.toDigits_ne_nil, List.takeWhile_eq_self_iff.2 hdigits,
    List.dropWhile_eq_nil_iff.2 hdigits⟩, ?_⟩
  rcases Nat.eq_zero_or_pos n with rfl | hn
  · decide
  · obtain ⟨d, ds, hd, hten, hds⟩ := Numeral.exists_toDigits_eq_cons (show 1 < 10 by decide) hn
    have hne : ∀ d < 10, 0 < d → d.digitChar ≠ '0' := by decide
    simp [hds, hne d hten hd]

theorem readUnsigned_toDigits (negative : Bool) (n : Nat) :
    readUnsigned negative (Nat.toDigits 10 n) =
      some (valueOf negative (Nat.toDigits 10 n) none none, []) := by
  rw [readUnsigned, readWhole_toDigits]
  rfl

/-- **An integer of sixty-four bits, with or without a sign, is read as it is written.** -/
theorem readNumber_decimal {n : Int} (hlow : -0x8000000000000000 ≤ n)
    (hhigh : n < 0x10000000000000000) : readNumber (Numeral.decimal n) = some (.integer n, []) := by
  have hvalue : Nat.ofDigitChars 10 (Nat.toDigits 10 n.natAbs) 0 = n.natAbs :=
    Nat.ofDigitChars_toDigits (by decide) (by decide)
  by_cases hn : n < 0
  · have hpos : 0 < n.natAbs ∧ n.natAbs ≤ 0x8000000000000000 := by omega
    have hsame : -(n.natAbs : Int) = n := by omega
    have hinteger : valueOf true (Nat.toDigits 10 n.natAbs) none none =
        .integer (-(n.natAbs : Int)) := by
      simp [valueOf, hvalue, hpos]
    rw [Numeral.decimal, if_pos hn, readNumber_minus, readUnsigned_toDigits, hinteger, hsame]
  · have hlt : n.natAbs < 0x10000000000000000 := by omega
    have hsame : (n.natAbs : Int) = n := by omega
    have hstops : Stops (· = '-') (Nat.toDigits 10 n.natAbs) := by
      intro c hc
      have hdigit := Nat.isDigit_of_mem_toDigits (by decide) (by decide)
        (List.mem_of_mem_head? hc)
      rw [decide_eq_false_iff_not]
      rintro rfl
      exact absurd hdigit (by decide)
    have hinteger : valueOf false (Nat.toDigits 10 n.natAbs) none none =
        .integer (n.natAbs : Int) := by
      simp [valueOf, hvalue, hlt]
    rw [Numeral.decimal, if_neg hn, readNumber_of_stops hstops, readUnsigned_toDigits, hinteger,
      hsame]

end VariableRegistry.Json
