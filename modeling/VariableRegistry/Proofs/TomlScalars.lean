/-
# Numbers in TOML are read back

A scalar is one run of characters, so that it is read in the same way in front of anything that does
not go on with it. Digits are neither a date nor a time nor a floating point number, and so an
integer that fits into sixty-four bits is written in a form that is read as this integer.
-/
import VariableRegistry.Document.Toml.Scalar
import VariableRegistry.Proofs.DecimalTexts
import VariableRegistry.Proofs.Runs
import VariableRegistry.Proofs.ValueTexts

namespace VariableRegistry.Toml

variable {c : Char} {cs rest : List Char} {d : Document}

/-! ## What follows a scalar -/

/-- Whether a character could go on with a value: it belongs to a scalar, stands between a date and
a time, or opens a text. -/
def goesOn (c : Char) : Bool := isScalarChar c || c = ' ' || c = '"' || c = '\''

theorem cutScalar_append (hcs : ∀ c ∈ cs, isScalarChar c = true) (hrest : Stops goesOn rest) :
    cutScalar (cs ++ rest) = (cs, rest) := by
  have hstops : Stops isScalarChar rest := hrest.mono fun c hc => by simp [goesOn, hc]
  rw [cutScalar, takeWhile_run hcs hstops, dropWhile_run hcs hstops]
  split
  · exact absurd (stops_cons.1 hrest) (by decide)
  · rfl

theorem readScalar_append (hcs : ∀ c ∈ cs, isScalarChar c = true) (hrest : Stops goesOn rest) :
    readScalar (cs ++ rest) = (scalar? cs).map fun d => (d, rest) := by
  rw [readScalar, cutScalar_append hcs hrest]

/-- What is read of a run alone is read of it in front of what does not go on with it. -/
theorem readScalar_append_of_nil (hcs : ∀ c ∈ cs, isScalarChar c = true)
    (h : readScalar cs = some (d, [])) (hrest : Stops goesOn rest) :
    readScalar (cs ++ rest) = some (d, rest) := by
  have hscalar : (scalar? cs).map (fun d => (d, ([] : List Char))) = some (d, []) := by
    rw [← readScalar_append hcs (stops_nil goesOn), List.append_nil, h]
  obtain ⟨e, he, hsame⟩ := Option.map_eq_some_iff.1 hscalar
  obtain rfl := (Prod.mk.inj hsame).1
  rw [readScalar_append hcs hrest, he, Option.map_some]

/-! ## Digits -/

/-- Digits are not grouped. -/
theorem ungroup_of_digits (hne : cs ≠ []) (hcs : ∀ c ∈ cs, c.isDigit = true) :
    ungroup cs = some cs := by
  have hline (c : Char) (hc : c.isDigit = true) : c ≠ '_' := ne_of_kind hc (by decide)
  induction cs with
  | nil => exact absurd rfl hne
  | cons c cs ih =>
    obtain ⟨hc, hcs⟩ := List.forall_mem_cons.1 hcs
    cases cs with
    | nil => rw [ungroup, if_neg (hline c hc)]
    | cons d cs =>
      have hd := hcs d List.mem_cons_self
      rw [ungroup, if_neg (hline c hc), if_neg (hline d hd), ih (List.cons_ne_nil d cs) hcs,
        Option.map_some]

/-- A mark is not read off digits. -/
theorem after?_of_digits {mark : Char} (hmark : mark.isDigit = false)
    (hcs : ∀ c ∈ cs, c.isDigit = true) : after? mark cs = none := by
  cases cs with
  | nil => rfl
  | cons c cs => rw [after?, if_neg (ne_of_kind (hcs c List.mem_cons_self) hmark)]

theorem isMoment_of_none (hdate : afterDate? cs = none) (htime : afterTime? cs = none) :
    isMoment cs = false := by
  rw [isMoment, hdate, htime]
  rfl

/-- Digits are neither a date nor a time: the mark behind the first ones is missing. -/
theorem isMoment_of_digits (hcs : ∀ c ∈ cs, c.isDigit = true) : isMoment cs = false := by
  apply isMoment_of_none
  · have hmark : after? '-' (cs.drop 4) = none :=
      after?_of_digits (by decide) fun c hc => hcs c (List.mem_of_mem_drop hc)
    rw [afterDate?, hmark]
    cases Numeral.ofDigits? 10 (cs.take 4) with
    | none => rfl
    | some year => rw [Option.bind_some, Option.bind_none, ite_self]
  · match cs with
    | [] => rfl
    | [a] => rfl
    | a :: b :: cs =>
      have hmark : after? ':' cs = none :=
        after?_of_digits (by decide) fun c hc => hcs c (.tail _ (.tail _ hc))
      rw [afterTime?, pair?]
      cases Numeral.ofDigits? 10 [a, b] with
      | none => rfl
      | some n =>
        rw [Option.bind_some]
        split
        · show (after? ':' cs).bind _ = none
          rw [hmark, Option.bind_none]
        · rfl

/-- Neither a date nor a time has a sign. -/
theorem isMoment_minus (cs : List Char) : isMoment ('-' :: cs) = false := by
  have hminus (cs : List Char) : Numeral.ofDigits? 10 ('-' :: cs) = none := rfl
  apply isMoment_of_none
  · rw [afterDate?, List.take_succ_cons, hminus, Option.bind_none]
  · cases cs with
    | nil => rfl
    | cons c cs => rw [afterTime?, pair?, hminus, Option.bind_none, Option.bind_none]

/-! ## Integers -/

/-- Digits alone are no floating point number: there is neither a point nor an exponent. -/
theorem decimal?_of_digits (hcs : ∀ c ∈ cs, c.isDigit = true) : decimal? cs = none := by
  have hgrouped : cs.dropWhile isGrouped = [] :=
    List.dropWhile_eq_nil_iff.2 fun c hc => by rw [isGrouped, hcs c hc, Bool.true_or]
  simp [decimal?, hgrouped]

theorem float?_of_digits {negative : Bool} {body : List Char}
    (hsign : Decimal.takeSign cs = (negative, body)) (hbody : ∀ c ∈ body, c.isDigit = true) :
    float? cs = none := by
  have hinfinite : body ≠ ['i', 'n', 'f'] := ne_of_mem_kind hbody List.mem_cons_self (by decide)
  have hnone : body ≠ ['n', 'a', 'n'] := ne_of_mem_kind hbody List.mem_cons_self (by decide)
  rw [float?, hsign]
  simp only
  rw [if_neg hinfinite, if_neg hnone, decimal?_of_digits hbody, Option.bind_none]

/-- The digits of a number stand for it. -/
theorem wholeNumber?_toDigits (n : Nat) : wholeNumber? (Nat.toDigits 10 n) = some n := by
  have hdigits : ∀ c ∈ Nat.toDigits 10 n, c.isDigit = true := fun c hc =>
    Nat.isDigit_of_mem_toDigits (by decide) (by decide) hc
  have hzero : hasLeadingZero (Nat.toDigits 10 n) = false := by
    rcases Nat.eq_zero_or_pos n with rfl | hn
    · rfl
    · obtain ⟨d, ds, hd, hten, hds⟩ := Numeral.exists_toDigits_eq_cons (show 1 < 10 by decide) hn
      have hne : ∀ d < 10, 0 < d → d.digitChar ≠ '0' := by decide
      rw [hds]
      unfold hasLeadingZero
      split
      · next h => exact absurd (List.cons.inj h).1 (hne d hten hd)
      · rfl
  rw [wholeNumber?, hzero, digits?, ungroup_of_digits Nat.toDigits_ne_nil hdigits,
    Option.bind_some, Numeral.ofDigits?_toDigits (by decide) (by decide)]
  rfl

section Signed

/-! A numeral behind a sign that may be missing. -/

variable {negative : Bool} {n : Nat} {m : Int}

/-- A numeral that tells no base is decimal. -/
theorem integer?_of_digits (hcs : ∀ c ∈ cs.tail, c.isDigit = true)
    (hsign : Decimal.takeSign cs = (negative, Nat.toDigits 10 n))
    (hm : m = if negative then -(n : Int) else n) (hlow : -0x8000000000000000 ≤ m)
    (hhigh : m < 0x8000000000000000) : integer? cs = some m := by
  have hbase (s : Char) (hs : s.isDigit = false) (tail : List Char) : cs ≠ '0' :: s :: tail := by
    rintro rfl
    exact ne_of_kind (hcs s List.mem_cons_self) hs rfl
  have hvalue : ((wholeNumber? (Nat.toDigits 10 n)).bind fun n => some (n : Int)).map
      (fun n => if negative then -n else n) = some m := by
    rw [wholeNumber?_toDigits, Option.bind_some, Option.map_some, hm]
  unfold integer?
  rw [Option.filter_eq_some_iff]
  constructor
  · split
    · exact absurd rfl (hbase 'x' (by decide) _)
    · exact absurd rfl (hbase 'o' (by decide) _)
    · exact absurd rfl (hbase 'b' (by decide) _)
    · rw [hsign]
      exact hvalue
  · simp [hlow, hhigh]

theorem scalar?_of_digits (hcs : ∀ c ∈ cs.tail, c.isDigit = true)
    (hsign : Decimal.takeSign cs = (negative, Nat.toDigits 10 n)) (hmoment : isMoment cs = false)
    (hm : m = if negative then -(n : Int) else n) (hlow : -0x8000000000000000 ≤ m)
    (hhigh : m < 0x8000000000000000) : scalar? cs = some (.integer m) := by
  have hdigits : ∀ c ∈ Nat.toDigits 10 n, c.isDigit = true := fun c hc =>
    Nat.isDigit_of_mem_toDigits (by decide) (by decide) hc
  have hfloat : float? cs = none := float?_of_digits hsign hdigits
  have hname : ¬(cs = "true".toList || cs = "false".toList) = true := by
    rw [Bool.or_eq_true, decide_eq_true_eq, decide_eq_true_eq]
    rintro (rfl | rfl)
    · exact ne_of_kind (hcs 'r' (by decide)) (by decide) rfl
    · exact ne_of_kind (hcs 'a' (by decide)) (by decide) rfl
  rw [scalar?, if_neg hname, hmoment, hfloat, integer?_of_digits hcs hsign hm hlow hhigh]
  rfl

end Signed

/-- **An integer of sixty-four bits is read as it is written.** -/
theorem scalar?_decimal {n : Int} (hlow : -0x8000000000000000 ≤ n)
    (hhigh : n < 0x8000000000000000) :
    scalar? (Numeral.decimal n) = some (.integer n) := by
  have hdigits : ∀ c ∈ Nat.toDigits 10 n.natAbs, c.isDigit = true := fun c hc =>
    Nat.isDigit_of_mem_toDigits (by decide) (by decide) hc
  by_cases hn : n < 0
  · have hsign : Decimal.takeSign ('-' :: Nat.toDigits 10 n.natAbs) =
        (true, Nat.toDigits 10 n.natAbs) := rfl
    rw [Numeral.decimal, if_pos hn]
    exact scalar?_of_digits hdigits hsign (isMoment_minus _)
      (show n = -(n.natAbs : Int) by omega) hlow hhigh
  · rw [Numeral.decimal, if_neg hn]
    exact scalar?_of_digits (fun c hc => hdigits c (List.mem_of_mem_tail hc))
      (Decimal.takeSign_of_digits hdigits) (isMoment_of_digits hdigits)
      (show n = (n.natAbs : Int) by omega) hlow hhigh

/-! ## Characters of numbers -/

theorem isScalarChar_of_isDigit (h : c.isDigit = true) : isScalarChar c = true := by
  simp [isScalarChar, Char.isAlphanum, h]

theorem isScalarChar_decimal (n : Int) : ∀ c ∈ Numeral.decimal n, isScalarChar c = true := by
  have hdigits : ∀ c ∈ Nat.toDigits 10 n.natAbs, isScalarChar c = true := fun c hc =>
    isScalarChar_of_isDigit (Nat.isDigit_of_mem_toDigits (by decide) (by decide) hc)
  rw [Numeral.decimal]
  split
  · exact List.forall_mem_cons.2 ⟨by decide, hdigits⟩
  · exact hdigits

theorem isScalarChar_positional (d : Decimal) (pointZero : Bool) :
    ∀ c ∈ d.positional pointZero, isScalarChar c = true := by
  have hdigits : ∀ c ∈ d.digitChars, isScalarChar c = true := fun c hc =>
    isScalarChar_of_isDigit (Nat.isDigit_of_mem_toDigits (by decide) (by decide) hc)
  have hzeros (k : Nat) : ∀ c ∈ List.replicate k '0', isScalarChar c = true := by
    intro c hc
    rw [List.eq_of_mem_replicate hc]
    decide
  have hpadded (k : Nat) : ∀ c ∈ List.replicate k '0' ++ d.digitChars, isScalarChar c = true :=
    List.forall_mem_append.2 ⟨hzeros k, hdigits⟩
  rw [Decimal.positional]
  split
  · simp only [List.forall_mem_append]
    refine ⟨⟨hdigits, ?_⟩, ?_⟩
    · split
      · exact List.forall_mem_nil _
      · exact hzeros _
    · cases pointZero
      · exact List.forall_mem_nil _
      · exact List.all_eq_true.1 rfl
  · rw [Decimal.withPoint, List.forall_mem_append]
    refine ⟨fun c hc => hpadded _ c (List.mem_of_mem_take hc), ?_⟩
    split
    · exact List.forall_mem_nil _
    · exact List.forall_mem_cons.2 ⟨by decide, fun c hc => hpadded _ c (List.mem_of_mem_drop hc)⟩

/-- A floating point number consists of a sign, digits and a point, or of the letters of a name. -/
theorem isScalarChar_writeFloat (x : Double) : ∀ c ∈ writeFloat x, isScalarChar c = true := by
  rw [writeFloat, FloatWord.shortestChars]
  split
  · exact List.all_eq_true.1 rfl
  · rw [List.forall_mem_append]
    constructor
    · rw [FloatWord.signChars]
      split
      · exact List.all_eq_true.1 rfl
      · exact List.forall_mem_nil _
    · split
      · exact List.all_eq_true.1 rfl
      · exact isScalarChar_positional _ _

end VariableRegistry.Toml
