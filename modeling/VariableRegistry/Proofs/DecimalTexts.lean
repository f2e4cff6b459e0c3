/-
# Texts of decimals are read back

Digits with at most one point and an exponent are read as the decimal that they stand for. So every
layout in which a decimal is written is read as a decimal with the same digits and places, and what
is read at all begins with a digit or a point and has no blank in it.
-/
import VariableRegistry.Float.Text
import VariableRegistry.Proofs.Runs

namespace VariableRegistry.Decimal

variable {cs whole fraction tail : List Char} {d : Decimal} {e : Int}

/-! ## Digits -/

/-- What holds of the ten digits holds of every character that is one. -/
theorem of_isDigit {p : Char → Prop} (hp : ∀ n < 10, p n.digitChar) {c : Char}
    (hc : c.isDigit = true) : p c := by
  obtain ⟨hlow, hhigh⟩ := Char.isDigit_iff_toNat.1 hc
  have hzero : '0'.toNat = 48 := rfl
  have hnine : '9'.toNat = 57 := rfl
  obtain ⟨n, hn⟩ : ∃ n, c.toNat = 48 + n := ⟨c.toNat - 48, by omega⟩
  have hten : n < 10 := by omega
  obtain rfl : n.digitChar = c :=
    Char.toNat_inj.1 ((Nat.toNat_digitChar_of_lt_ten hten).trans hn.symm)
  exact hp n hten

theorem isDigit_of_mem_toDigits {n : Nat} : ∀ c ∈ Nat.toDigits 10 n, c.isDigit = true :=
  fun _ hc => Nat.isDigit_of_mem_toDigits (by decide) (by decide) hc

/-- Zeros behind digits count tens. -/
theorem ofDigitChars_append_zeros (n k : Nat) :
    Nat.ofDigitChars 10 (Nat.toDigits 10 n ++ List.replicate k '0') 0 = n * 10 ^ k := by
  rw [Nat.ofDigitChars_append, Nat.ofDigitChars_ten_toDigits, Nat.ofDigitChars_replicate_zero,
    Nat.mul_comm]

/-- Zeros in front of digits count nothing. -/
theorem ofDigitChars_zeros_append (n k : Nat) :
    Nat.ofDigitChars 10 (List.replicate k '0' ++ Nat.toDigits 10 n) 0 = n := by
  rw [Nat.ofDigitChars_append, Nat.ofDigitChars_replicate_zero, Nat.mul_zero,
    Nat.ofDigitChars_ten_toDigits]

theorem takeDigits_append (hcs : ∀ c ∈ cs, c.isDigit = true) (htail : Stops Char.isDigit tail) :
    takeDigits (cs ++ tail) = (cs, tail) := by
  rw [takeDigits, takeWhile_run hcs htail, dropWhile_run hcs htail]

theorem takeDigits_of_digits (hcs : ∀ c ∈ cs, c.isDigit = true) : takeDigits cs = (cs, []) := by
  have h := takeDigits_append hcs (stops_nil Char.isDigit)
  rwa [List.append_nil] at h

/-- Whether a character is a sign. -/
def isSign (c : Char) : Bool := c = '-' || c = '+'

/-- A sign is taken from a text that begins with one. -/
theorem takeSign_of_stops (hcs : Stops isSign cs) : takeSign cs = (false, cs) := by
  cases cs with
  | nil => rfl
  | cons c cs =>
    have hc := stops_cons.1 hcs
    have hminus := ne_of_kind (show isSign '-' = true from rfl) hc
    have hplus := ne_of_kind (show isSign '+' = true from rfl) hc
    simp [takeSign, hminus.symm, hplus.symm]

theorem isSign_of_isDigit {c : Char} (hc : c.isDigit = true) : isSign c = false :=
  of_isDigit (p := fun c => isSign c = false) (by decide) hc

/-- Digits have no sign in front. -/
theorem takeSign_of_digits (hcs : ∀ c ∈ cs, c.isDigit = true) : takeSign cs = (false, cs) :=
  takeSign_of_stops fun c hc => isSign_of_isDigit (hcs c (List.mem_of_mem_head? hc))

/-! ## Parts -/

/-- Digits with a point before the last of them, if any stand behind it. -/
def pointed (whole fraction : List Char) : List Char :=
  whole ++ if fraction = [] then [] else '.' :: fraction

/-- The parts of a decimal are read one after the other. -/
theorem ofChars?_pointed (fraction : List Char) (hne : whole ≠ [])
    (hwhole : ∀ c ∈ whole, c.isDigit = true) (hfraction : ∀ c ∈ fraction, c.isDigit = true)
    (htail : Stops (fun c => c.isDigit || c = '.') tail) (he : exponent? tail = some e) :
    ofChars? (pointed whole fraction ++ tail) = some (ofParts whole fraction e) := by
  have hdigit : Stops Char.isDigit tail := htail.mono fun c hc => by rw [hc, Bool.true_or]
  have hsome : whole.isEmpty = false := by rwa [List.isEmpty_eq_false_iff]
  by_cases hnone : fraction = []
  · subst hnone
    rw [pointed, if_pos rfl, List.append_nil, ofChars?, takeDigits_append hwhole hdigit]
    cases tail with
    | nil => simp [hsome, he]
    | cons c tail =>
      have hc : c ≠ '.' := by
        rintro rfl
        exact absurd (stops_cons.1 htail) (by decide)
      simp [hc, hsome, he]
  · have hpoint : Stops Char.isDigit ('.' :: fraction ++ tail) := stops_cons.2 (by decide)
    rw [pointed, if_neg hnone, List.append_assoc, ofChars?, takeDigits_append hwhole hpoint]
    simp only [List.cons_append, takeDigits_append hfraction hdigit, hsome, Bool.false_and, he]
    rfl

/-- An exponent is read as it is written, with or without a plus sign. -/
theorem exponent?_decimal (plusSign : Bool) (n : Int) :
    exponent? ('e' :: ((if plusSign && 0 ≤ n then ['+'] else []) ++ Numeral.decimal n)) =
      some n := by
  have hdigits : ∀ c ∈ Nat.toDigits 10 n.natAbs, c.isDigit = true := isDigit_of_mem_toDigits
  have hsign : takeSign ((if plusSign && 0 ≤ n then ['+'] else []) ++ Numeral.decimal n) =
      (decide (n < 0), Nat.toDigits 10 n.natAbs) := by
    rw [Numeral.decimal]
    by_cases hn : n < 0
    · simp [hn, Int.not_le.2 hn, takeSign]
    · cases plusSign with
      | true => simp [hn, Int.not_lt.1 hn, takeSign]
      | false => simpa [hn] using takeSign_of_digits hdigits
  have hvalue : (if decide (n < 0) then -(n.natAbs : Int) else n.natAbs) = n := by
    simp only [decide_eq_true_eq]
    split <;> omega
  rw [exponent?, if_pos (by decide)]
  simp only [hsign, takeDigits_of_digits hdigits, Nat.ofDigitChars_ten_toDigits, hvalue]
  rw [List.isEmpty_eq_false_iff.2 Nat.toDigits_ne_nil]
  rfl

/-! ## Layouts -/

/-- Digits with a point some places from their end are read with these places. -/
theorem ofChars?_withPoint (n places : Nat) :
    ofChars? (withPoint (Nat.toDigits 10 n) places) = some ⟨n, -places⟩ := by
  obtain ⟨padded, hpadded⟩ : ∃ padded,
      List.replicate (places + 1 - (Nat.toDigits 10 n).length) '0' ++ Nat.toDigits 10 n = padded :=
    ⟨_, rfl⟩
  have hvalue : Nat.ofDigitChars 10 padded 0 = n := hpadded ▸ ofDigitChars_zeros_append n _
  have hlength : places + 1 ≤ padded.length := by
    rw [← hpadded, List.length_append, List.length_replicate]
    omega
  have hdigits : ∀ c ∈ padded, c.isDigit = true := by
    rw [← hpadded, List.forall_mem_append]
    refine ⟨fun c hc => ?_, isDigit_of_mem_toDigits⟩
    rw [List.eq_of_mem_replicate hc]
    rfl
  have hparts : withPoint (Nat.toDigits 10 n) places =
      pointed (padded.take (padded.length - places)) (padded.drop (padded.length - places)) ++
        [] := by
    have hnone : padded.drop (padded.length - places) = [] ↔ places = 0 := by
      rw [List.drop_eq_nil_iff]
      omega
    simp only [withPoint, hpadded, pointed, List.append_nil, hnone]
  rw [hparts, ofChars?_pointed _ _ (fun c hc => hdigits c (List.mem_of_mem_take hc))
    (fun c hc => hdigits c (List.mem_of_mem_drop hc)) (stops_nil _) rfl, ofParts,
    List.take_append_drop, hvalue, List.length_drop]
  · congr 2
    omega
  · rw [ne_eq, List.take_eq_nil_iff]
    rintro (hwhole | rfl)
    · omega
    · exact absurd hlength (by simp)

/-- A plain point is read where it stands; zeros that stand before it are digits. -/
theorem ofChars?_positional (pointZero : Bool) (d : Decimal) :
    ofChars? (d.positional pointZero) =
      some (if d.exponent < 0 then d
        else if pointZero then ⟨d.digits * 10 ^ (d.exponent.toNat + 1), -1⟩
        else ⟨d.digits * 10 ^ d.exponent.toNat, 0⟩) := by
  by_cases hneg : d.exponent < 0
  · rw [positional, if_neg (Int.not_le.2 hneg), digitChars, ofChars?_withPoint, if_pos hneg,
      Int.toNat_of_nonneg (by omega), Int.neg_neg]
  · obtain ⟨whole, hwhole⟩ : ∃ whole, d.digitChars ++
        (if d.digits = 0 then [] else List.replicate d.exponent.toNat '0') = whole := ⟨_, rfl⟩
    have hvalue : Nat.ofDigitChars 10 whole 0 = d.digits * 10 ^ d.exponent.toNat := by
      rw [← hwhole, digitChars]
      split
      · next hzero =>
        rw [List.append_nil, Nat.ofDigitChars_ten_toDigits, hzero, Nat.zero_mul]
      · exact ofDigitChars_append_zeros _ _
    have hne : whole ≠ [] := by
      rw [← hwhole]
      exact List.append_ne_nil_of_left_ne_nil Nat.toDigits_ne_nil _
    have hdigits : ∀ c ∈ whole, c.isDigit = true := by
      rw [← hwhole, List.forall_mem_append]
      refine ⟨isDigit_of_mem_toDigits, ?_⟩
      split
      · exact List.forall_mem_nil _
      · intro c hc
        rw [List.eq_of_mem_replicate hc]
        rfl
    rw [positional, if_pos (Int.not_lt.1 hneg), hwhole, if_neg hneg]
    cases pointZero with
    | true =>
      have hread := ofChars?_pointed ['0'] hne hdigits (List.forall_mem_singleton.2 rfl)
        (stops_nil _) (show exponent? [] = some 0 from rfl)
      rw [List.append_nil] at hread
      rw [if_pos rfl, if_pos rfl, show whole ++ ['.', '0'] = pointed whole ['0'] from rfl, hread,
        ofParts, Nat.ofDigitChars_append, hvalue, show ['0'] = List.replicate 1 '0' from rfl,
        Nat.ofDigitChars_replicate_zero, Nat.pow_succ, Nat.mul_comm, Nat.mul_assoc]
      rfl
    | false =>
      have hread := ofChars?_pointed [] hne hdigits (List.forall_mem_nil _) (stops_nil _)
        (show exponent? [] = some 0 from rfl)
      rw [pointed, if_pos rfl, List.append_nil, List.append_nil] at hread
      rw [if_neg (by decide), if_neg (by decide), List.append_nil, hread, ofParts, List.append_nil,
        hvalue]
      rfl

/-- An exponent brings the point back to its place. -/
theorem ofChars?_scientific (plusSign : Bool) (d : Decimal) :
    ofChars? (d.scientific plusSign) = some d := by
  have hlength : 0 < d.digitChars.length := Nat.length_toDigits_pos
  have hdigits : ∀ c ∈ d.digitChars, c.isDigit = true := isDigit_of_mem_toDigits
  have hnone : d.digitChars.drop 1 = [] ↔ d.digitChars.length ≤ 1 := List.drop_eq_nil_iff
  have hparts : d.scientific plusSign =
      pointed (d.digitChars.take 1) (d.digitChars.drop 1) ++
        'e' :: (if plusSign && 0 ≤ d.leading then ['+'] else []) ++ Numeral.decimal d.leading := by
    simp only [scientific, pointed, hnone]
  rw [hparts, List.append_assoc, List.cons_append, ofChars?_pointed _ _
    (fun c hc => hdigits c (List.mem_of_mem_take hc))
    (fun c hc => hdigits c (List.mem_of_mem_drop hc)) (stops_cons.2 rfl)
    (exponent?_decimal plusSign d.leading), ofParts, List.take_append_drop, digitChars,
    Nat.ofDigitChars_ten_toDigits, List.length_drop, leading, length]
  · rw [digitChars] at hlength
    congr 2
    omega
  · rw [ne_eq, List.take_eq_nil_iff]
    rintro (hone | hnil)
    · omega
    · exact Nat.toDigits_ne_nil hnil

/-! ## What is read -/

/-- Whether a character may stand in a decimal. -/
def isPart (c : Char) : Bool :=
  c.isDigit || c = '.' || c = 'e' || c = 'E' || isSign c

theorem isPart_of_isDigit {c : Char} (h : c.isDigit = true) : isPart c = true := by
  simp [isPart, h]

theorem isDigit_of_mem_takeDigits : ∀ c ∈ (takeDigits cs).1, c.isDigit = true :=
  fun _ hc => List.mem_takeWhile_imp hc

/-- A text is the digits at its front and what is left. -/
theorem takeDigits_append_left : (takeDigits cs).1 ++ (takeDigits cs).2 = cs :=
  List.takeWhile_append_dropWhile

theorem mem_of_takeSign : ∀ c ∈ cs, c ∈ (takeSign cs).2 ∨ c = '-' ∨ c = '+' := by
  unfold takeSign
  split <;> simp +contextual

theorem mem_of_exponent? (h : exponent? cs = some e) : ∀ c ∈ cs, isPart c = true := by
  cases cs with
  | nil => exact List.forall_mem_nil _
  | cons mark cs =>
    rw [exponent?] at h
    split at h
    · next hmark =>
      dsimp only at h
      split at h
      · cases h
      · next hleft =>
        have hnil : (takeDigits (takeSign cs).2).2 = [] := by simp_all
        have hbody : (takeDigits (takeSign cs).2).1 = (takeSign cs).2 := by
          rw [← List.append_nil (takeDigits _).1, ← hnil, takeDigits_append_left]
        refine List.forall_mem_cons.2 ⟨?_, fun c hc => ?_⟩
        · rw [Bool.or_eq_true, decide_eq_true_iff, decide_eq_true_iff] at hmark
          rcases hmark with rfl | rfl <;> rfl
        · obtain hc | rfl | rfl := mem_of_takeSign c hc
          · exact isPart_of_isDigit (isDigit_of_mem_takeDigits c (hbody ▸ hc))
          · rfl
          · rfl
    · cases h

/-- What is read consists of digits, a point with digits behind it and an exponent. -/
theorem exists_parts_of_ofChars? (h : ofChars? cs = some d) :
    ∃ whole behind tail, cs = whole ++ (behind ++ tail) ∧ (∀ c ∈ whole, c.isDigit = true) ∧
      (behind = [] ∧ whole ≠ [] ∨ ∃ fraction, behind = '.' :: fraction ∧
        ∀ c ∈ fraction, c.isDigit = true) ∧ ∃ e, exponent? tail = some e := by
  have hcs : cs = (takeDigits cs).1 ++ (takeDigits cs).2 := takeDigits_append_left.symm
  have hwhole : ∀ c ∈ (takeDigits cs).1, c.isDigit = true := isDigit_of_mem_takeDigits
  rw [ofChars?] at h
  dsimp only at h
  generalize (takeDigits cs).1 = whole at *
  generalize (takeDigits cs).2 = rest at *
  split at h
  · next more =>
    obtain ⟨e, he, -⟩ := Option.map_eq_some_iff.1 (Option.ite_none_left_eq_some.1 h).2
    refine ⟨whole, '.' :: (takeDigits more).1, (takeDigits more).2, ?_, hwhole,
      .inr ⟨_, rfl, isDigit_of_mem_takeDigits⟩, e, he⟩
    rw [List.cons_append, takeDigits_append_left, hcs]
  · obtain ⟨hsome, hmap⟩ := Option.ite_none_left_eq_some.1 h
    obtain ⟨e, he, -⟩ := Option.map_eq_some_iff.1 hmap
    exact ⟨whole, [], rest, hcs, hwhole, .inl ⟨rfl, by simpa using hsome⟩, e, he⟩

/-- A decimal is read off a text that begins with a digit or a point. -/
theorem exists_first_of_ofChars? (h : ofChars? cs = some d) :
    ∃ c rest, cs = c :: rest ∧ (c.isDigit = true ∨ c = '.') := by
  obtain ⟨whole, behind, tail, rfl, hwhole, hbehind, -⟩ := exists_parts_of_ofChars? h
  cases whole with
  | cons c whole => exact ⟨c, _, rfl, .inl (hwhole c List.mem_cons_self)⟩
  | nil =>
    obtain ⟨-, hne⟩ | ⟨fraction, rfl, -⟩ := hbehind
    · exact absurd rfl hne
    · exact ⟨'.', _, rfl, .inr rfl⟩

theorem mem_of_ofChars? (h : ofChars? cs = some d) : ∀ c ∈ cs, isPart c = true := by
  obtain ⟨whole, behind, tail, rfl, hwhole, hbehind, e, he⟩ := exists_parts_of_ofChars? h
  rw [List.forall_mem_append, List.forall_mem_append]
  refine ⟨fun c hc => isPart_of_isDigit (hwhole c hc), ?_, mem_of_exponent? he⟩
  obtain ⟨rfl, -⟩ | ⟨fraction, rfl, hfraction⟩ := hbehind
  · exact List.forall_mem_nil _
  · exact List.forall_mem_cons.2 ⟨by decide, fun c hc => isPart_of_isDigit (hfraction c hc)⟩

end VariableRegistry.Decimal
