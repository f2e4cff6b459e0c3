/-
# Texts in JSON are read back

Each character of a text is written as one piece, and the pieces join to the characters again:
a control character is far below the units that stand for half a character.
-/
import VariableRegistry.Document.Json.Text
import VariableRegistry.Proofs.ValueTexts

namespace VariableRegistry.Json

variable {c : Char}

/-! ## Pieces -/

/-- The piece that a character is written as. -/
def pieceOf (c : Char) : Piece :=
  if (shortEscape? c).isNone && c < ' ' then .unit c.toNat else .char c

/-- A short escape is read as the character that it was written for. -/
theorem shortEscaped?_of_shortEscape? {e : Char} (h : shortEscape? c = some e) :
    shortEscaped? e = some c ∧ e ≠ 'u' := by
  unfold shortEscape? at h
  repeat' split at h
  all_goals cases h
  all_goals subst c
  all_goals decide

/-- A number of a control character has four digits. -/
theorem exists_four_digits {n : Nat} (hn : n < 32) :
    ∃ a b c d, Numeral.padded 4 (Nat.toDigits 16 n) = [a, b, c, d] := by
  have hlength : ∀ n < 32, (Numeral.padded 4 (Nat.toDigits 16 n)).length = 4 := by decide
  match Numeral.padded 4 (Nat.toDigits 16 n), hlength n hn with
  | [a, b, c, d], _ => exact ⟨a, b, c, d, rfl⟩

/-- Nothing but quotes and backslashes is special where a character stands for itself. -/
theorem readPieces_plain (hshort : shortEscape? c = none) (hcontrol : ¬ c < ' ')
    (read : List Piece) (cs : List Char) :
    readPieces read (c :: cs) = readPieces (.char c :: read) cs := by
  have hquote : c ≠ '"' := by
    rintro rfl
    exact absurd hshort (by decide)
  have hslash : c ≠ '\\' := by
    rintro rfl
    exact absurd hshort (by decide)
  rw [readPieces]
  · simp [hcontrol, hslash]
  all_goals simp [hquote, hslash]

theorem readPieces_escape (c : Char) (read : List Piece) (cs : List Char) :
    readPieces read (escape c ++ cs) = readPieces (pieceOf c :: read) cs := by
  cases hshort : shortEscape? c with
  | some e =>
    obtain ⟨hread, hu⟩ := shortEscaped?_of_shortEscape? hshort
    have hpiece : pieceOf c = .char c := by simp [pieceOf, hshort]
    rw [escape, hshort, hpiece, List.cons_append, List.cons_append, List.nil_append, readPieces,
      hread]
    · rfl
    · simp [hu]
  | none =>
    by_cases hcontrol : c < ' '
    · have hn : c.toNat < 32 := hcontrol
      obtain ⟨x, y, z, w, hdigits⟩ := exists_four_digits hn
      have hread : Numeral.ofDigits? 16 [x, y, z, w] = some c.toNat := by
        rw [← hdigits, Numeral.ofDigits?_padded (by decide) (by decide)]
      have hpiece : pieceOf c = .unit c.toNat := by simp [pieceOf, hshort, hcontrol]
      simp only [escape, hshort, if_pos hcontrol, hdigits, hpiece, List.cons_append,
        List.nil_append, readPieces, hread, Option.bind_some]
    · have hpiece : pieceOf c = .char c := by simp [pieceOf, hcontrol]
      simp only [escape, hshort, if_neg hcontrol, hpiece, List.cons_append, List.nil_append]
      exact readPieces_plain hshort hcontrol read cs

theorem readPieces_text (cs : List Char) (read : List Piece) (rest : List Char) :
    readPieces read (cs.flatMap escape ++ '"' :: rest) =
      some (read.reverse ++ cs.map pieceOf, rest) := by
  induction cs generalizing read with
  | nil => rw [List.flatMap_nil, List.nil_append, readPieces, List.map_nil, List.append_nil]
  | cons c cs ih =>
    rw [List.flatMap_cons, List.append_assoc, readPieces_escape, ih, List.reverse_cons,
      List.map_cons, List.append_assoc, List.singleton_append]

/-! ## Characters -/

/-- The piece of a character stands for this character, whatever follows. -/
theorem joinPieces_pieceOf (c : Char) (pieces : List Piece) :
    joinPieces (pieceOf c :: pieces) = (joinPieces pieces).map (c :: ·) := by
  by_cases hunit : ((shortEscape? c).isNone && c < ' ') = true
  · have hlow : c.toNat < 0xD800 := by
      have hn : c.toNat < 32 := of_decide_eq_true (Bool.and_eq_true_iff.1 hunit).2
      omega
    rw [pieceOf, if_pos hunit, joinPieces.eq_def]
    simp [hlow]
  · rw [pieceOf, if_neg hunit, joinPieces]

theorem joinPieces_text (cs : List Char) : joinPieces (cs.map pieceOf) = some cs := by
  induction cs with
  | nil => rfl
  | cons c cs ih => rw [List.map_cons, joinPieces_pieceOf, ih, Option.map_some]

/-- **A text is read as it was written**, and what follows it is left over. -/
theorem readText_flatMap_escape (s : String) (rest : List Char) :
    readText (s.toList.flatMap escape ++ '"' :: rest) = some (some s, rest) := by
  simp only [readText, readPieces_text, Option.map_some, List.reverse_nil, List.nil_append,
    joinPieces_text, String.ofList_toList]

end VariableRegistry.Json
