/-
# Quoted texts are told apart

A character between quotes is read off the front of a text whatever follows it, and so is a quoted
text: where two texts begin with quoted ones, these are the same and so is what follows them, or the
texts differ.
-/
import VariableRegistry.Proofs.Runs
import VariableRegistry.Proofs.ValueTexts
import VariableRegistry.Text.Quoted

namespace VariableRegistry.Text

variable {c : Char} {cs ds rest rest' : List Char}

/-! ## Characters -/

/-- Reads what stands behind a backslash. -/
def readEscape : List Char → Option (Char × List Char)
  | '"' :: cs => some ('"', cs)
  | '\\' :: cs => some ('\\', cs)
  | 'n' :: cs => some ('\n', cs)
  | 'r' :: cs => some ('\r', cs)
  | 't' :: cs => some ('\t', cs)
  | '0' :: cs => some ('\x00', cs)
  | 'u' :: '\x7b' :: cs =>
    (Numeral.ofDigits? 16 (cs.takeWhile (· ≠ '\x7d'))).map fun n =>
      (Char.ofNat n, (cs.dropWhile (· ≠ '\x7d')).drop 1)
  | _ => none

/-- Reads a character as it stands between quotes. -/
def readQuoted : List Char → Option (Char × List Char)
  | [] => none
  | c :: cs => if c = '\\' then readEscape cs else some (c, cs)

/-- The digits of a number in front of a brace are read. -/
theorem readEscape_digits (n : Nat) (rest : List Char) :
    readEscape ('u' :: '\x7b' :: (Nat.toDigits 16 n ++ '\x7d' :: rest)) =
      some (Char.ofNat n, rest) := by
  have hdigits : ∀ c ∈ Nat.toDigits 16 n, decide (c ≠ '\x7d') = true := by
    intro c hc
    obtain ⟨k, hk, rfl⟩ := Numeral.exists_digit_of_mem (by decide) hc
    exact (by decide : ∀ k < 16, decide (k.digitChar ≠ '\x7d') = true) k hk
  have hstops : Stops (fun c => decide (c ≠ '\x7d')) ('\x7d' :: rest) := stops_cons.2 (by decide)
  have hnumber : Numeral.ofDigits? 16 (Nat.toDigits 16 n) = some n :=
    Numeral.ofDigits?_toDigits (by decide) (by decide) n
  simp only [readEscape, takeWhile_run hdigits hstops, dropWhile_run hdigits hstops, hnumber]
  rfl

/-- **Every character is read as it stands between quotes**, whatever follows it. -/
theorem readQuoted_quoteChar (c : Char) (rest : List Char) :
    readQuoted (quoteChar c ++ rest) = some (c, rest) := by
  unfold quoteChar
  split_ifs with hquote hback hline hreturn htab hzero hmark
  · rw [hquote]; rfl
  · rw [hback]; rfl
  · rw [hline]; rfl
  · rw [hreturn]; rfl
  · rw [htab]; rfl
  · rw [hzero]; rfl
  · have hread := readEscape_digits c.toNat rest
    rw [Char.ofNat_toNat] at hread
    simpa [readQuoted] using hread
  · simp [readQuoted, hback]

/-- A quote that ends a text is not taken for a character. -/
theorem quoteChar_ne_quote (c : Char) : quoteChar c ++ rest ≠ '"' :: rest' := by
  unfold quoteChar
  split_ifs with hquote <;> simp [*]

/-! ## Texts -/

/-- Quoted characters in front of a quote are told apart. -/
theorem flatMap_quoteChar_inj :
    cs.flatMap quoteChar ++ '"' :: rest = ds.flatMap quoteChar ++ '"' :: rest' ↔
      cs = ds ∧ rest = rest' := by
  induction cs generalizing ds with
  | nil =>
    cases ds with
    | nil => simp
    | cons d ds => simpa using (quoteChar_ne_quote d).symm
  | cons c cs ih =>
    cases ds with
    | nil => simpa using quoteChar_ne_quote c
    | cons d ds =>
      rw [List.flatMap_cons, List.flatMap_cons, List.append_assoc, List.append_assoc,
        List.cons.injEq, and_assoc, ← ih]
      constructor
      · intro h
        have hread := congrArg readQuoted h
        rw [readQuoted_quoteChar, readQuoted_quoteChar] at hread
        simpa using hread
      · rintro ⟨rfl, h⟩
        rw [h]

/-- **Quoted texts are told apart** at the front of any text. -/
theorem quote_append_inj {s s' : String} :
    (quote s).toList ++ rest = (quote s').toList ++ rest' ↔ s = s' ∧ rest = rest' := by
  simp only [quote, String.toList_ofList, List.cons_append, List.append_assoc, List.cons.injEq,
    true_and, List.nil_append, flatMap_quoteChar_inj, String.toList_inj]

end VariableRegistry.Text
