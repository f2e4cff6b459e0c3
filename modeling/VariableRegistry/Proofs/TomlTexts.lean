/-
# Texts in TOML are read back

A text ends at its first mark that is not escaped, or at the first three of them if it may have
several lines. Whatever form the writer chooses, what it puts between the marks never has more marks
in a row than the form allows, and is read as the text. A mark that follows would be taken into the
text, and so must not.
-/
import VariableRegistry.Document.Toml.Text
import VariableRegistry.Proofs.Runs
import VariableRegistry.Proofs.ValueTexts

namespace VariableRegistry.Toml

variable {mark c : Char} {escapes lines : Bool} {limit run : Nat} {cs body rest : List Char}

/-! ## Finding the end -/

/-- Behind some marks in a row that are not escaped, a body never makes more of them than a limit
stand in a row. -/
inductive ShortRuns (mark : Char) (escapes : Bool) (limit : Nat) : Nat → List Char → Prop
  | nil {run : Nat} (hrun : run ≤ limit) : ShortRuns mark escapes limit run []
  | mark {run : Nat} {cs : List Char} (h : ShortRuns mark escapes limit (run + 1) cs) :
      ShortRuns mark escapes limit run (mark :: cs)
  | char {run : Nat} {c : Char} {cs : List Char} (hrun : run ≤ limit) (hmark : c ≠ mark)
      (hslash : (escapes && c = '\\') = false) (h : ShortRuns mark escapes limit 0 cs) :
      ShortRuns mark escapes limit run (c :: cs)
  | escaped {run : Nat} {c : Char} {cs : List Char} (hrun : run ≤ limit) (hescapes : escapes = true)
      (h : ShortRuns mark escapes limit 0 cs) : ShortRuns mark escapes limit run ('\\' :: c :: cs)

theorem ShortRuns.run_le (h : ShortRuns mark escapes limit run body) : run ≤ limit := by
  induction h with
  | nil hrun => exact hrun
  | mark _ ih => omega
  | char hrun => exact hrun
  | escaped hrun => exact hrun

theorem cut_char (hmark : c ≠ mark) (hslash : (escapes && c = '\\') = false) (read : List Char)
    (d : Char) (cs : List Char) :
    cut mark escapes read (c :: d :: cs) = cut mark escapes (c :: read) (d :: cs) := by
  rw [cut, if_neg hmark, if_neg (Bool.eq_false_iff.1 hslash)]

theorem cut_escaped (hmark : mark ≠ '\\') (read : List Char) (d : Char) (cs : List Char) :
    cut mark true read ('\\' :: d :: cs) = cut mark true (d :: '\\' :: read) cs := by
  rw [cut, if_neg hmark.symm, if_pos (by simp)]

theorem cut_mark (read rest : List Char) :
    cut mark escapes read (mark :: rest) = some (read.reverse, rest) := by
  cases rest with
  | nil => rw [cut, if_pos rfl]
  | cons d rest => rw [cut, if_pos rfl]

/-- A body without marks is cut off at the first one. -/
theorem cut_append (hmark : mark ≠ '\\') (h : ShortRuns mark escapes 0 run body)
    (read rest : List Char) :
    cut mark escapes read (body ++ mark :: rest) = some (read.reverse ++ body, rest) := by
  induction h generalizing read with
  | nil => rw [List.nil_append, cut_mark, List.append_nil]
  | mark h => exact absurd h.run_le (by omega)
  | @char run c cs hrun hc hslash h ih =>
    obtain ⟨d, tail, htail⟩ := List.exists_cons_of_ne_nil (l := cs ++ mark :: rest) (by simp)
    rw [List.cons_append, htail, cut_char hc hslash, ← htail, ih, List.reverse_cons]
    simp
  | escaped hrun hescapes h ih =>
    subst hescapes
    rw [List.cons_append, List.cons_append, cut_escaped hmark, ih]
    simp

theorem closeLines_of_stops (hrest : Stops (· = mark) rest) (read : List Char) :
    closeLines mark read rest = (read.reverse, rest) := by
  match rest with
  | [] => rfl
  | [c] =>
    have hc : c ≠ mark := of_decide_eq_false (stops_cons.1 hrest)
    rw [closeLines, if_neg hc]
  | c :: d :: cs =>
    have hc : c ≠ mark := of_decide_eq_false (stops_cons.1 hrest)
    rw [closeLines, if_neg hc]

/-- Up to two marks in front of the last three belong to the text. -/
theorem closeLines_append (hrest : Stops (· = mark) rest) (hrun : run ≤ 2) (read : List Char) :
    closeLines mark read (List.replicate run mark ++ rest) =
      (read.reverse ++ List.replicate run mark, rest) := by
  match run with
  | 0 => simpa using closeLines_of_stops hrest read
  | 1 =>
    show closeLines mark read (mark :: rest) = _
    cases rest with
    | nil => simp [closeLines]
    | cons d rest =>
      have hd : d ≠ mark := of_decide_eq_false (stops_cons.1 hrest)
      rw [closeLines, if_pos rfl, if_neg hd]
      simp
  | 2 =>
    show closeLines mark read (mark :: mark :: rest) = _
    rw [closeLines, if_pos rfl, if_pos rfl]
    simp

theorem cutLines_char {a b : Char} (hmarks : ¬(a = mark ∧ b = mark ∧ c = mark))
    (hslash : (escapes && a = '\\') = false) (read cs : List Char) :
    cutLines mark escapes read (a :: b :: c :: cs) =
      cutLines mark escapes (a :: read) (b :: c :: cs) := by
  rw [cutLines, if_neg (by simpa [and_assoc] using hmarks), if_neg (Bool.eq_false_iff.1 hslash)]

theorem cutLines_escaped (hmark : mark ≠ '\\') (read : List Char) (b c : Char) (cs : List Char) :
    cutLines mark true read ('\\' :: b :: c :: cs) =
      cutLines mark true (b :: '\\' :: read) (c :: cs) := by
  rw [cutLines, if_neg (by simp [hmark.symm]), if_pos (by simp)]

theorem cutLines_marks (read rest : List Char) :
    cutLines mark escapes read (mark :: mark :: mark :: rest) =
      some (closeLines mark read rest) := by
  rw [cutLines, if_pos (by simp)]

/-- Up to two marks in a row do not end a text of several lines. -/
theorem cutLines_run (hmark : mark ≠ '\\') (hrun : run ≤ 2) (hc : c ≠ mark) (read : List Char)
    (d e : Char) (cs : List Char) :
    cutLines mark escapes read (List.replicate run mark ++ c :: d :: e :: cs) =
      cutLines mark escapes (List.replicate run mark ++ read) (c :: d :: e :: cs) := by
  have hslash : (escapes && mark = '\\') = false := by simp [hmark]
  match run with
  | 0 => rfl
  | 1 => exact cutLines_char (fun h => hc h.2.1) hslash read _
  | 2 =>
    show cutLines mark escapes read (mark :: mark :: c :: d :: e :: cs) = _
    rw [cutLines_char (fun h => hc h.2.2) hslash, cutLines_char (fun h => hc h.2.1) hslash]
    rfl

/-- A body without three marks in a row is cut off at three marks, in front of anything else than a
mark. -/
theorem cutLines_append (hmark : mark ≠ '\\') (h : ShortRuns mark escapes 2 run body)
    (hrest : Stops (· = mark) rest) (read : List Char) :
    cutLines mark escapes read
        (List.replicate run mark ++ (body ++ mark :: mark :: mark :: rest)) =
      some (read.reverse ++ List.replicate run mark ++ body, rest) := by
  induction h generalizing read with
  | @nil run hrun =>
    have hlast : List.replicate run mark ++ mark :: mark :: mark :: rest =
        mark :: mark :: mark :: (List.replicate run mark ++ rest) := by
      match run with
      | 0 => rfl
      | 1 => rfl
      | 2 => rfl
    rw [List.nil_append, hlast, cutLines_marks, closeLines_append hrest hrun, List.append_nil]
  | @mark run cs h ih =>
    have hnext := ih read
    rw [List.replicate_succ'] at hnext
    simpa using hnext
  | @char run c cs hrun hc hslash h ih =>
    obtain ⟨d, e, tail, htail⟩ :
        ∃ d e tail, cs ++ mark :: mark :: mark :: rest = d :: e :: tail := by
      match cs with
      | [] => exact ⟨_, _, _, rfl⟩
      | [d] => exact ⟨_, _, _, rfl⟩
      | d :: e :: cs => exact ⟨_, _, _, rfl⟩
    rw [List.cons_append, htail, cutLines_run hmark hrun hc,
      cutLines_char (fun h => hc h.1) hslash, ← htail]
    have hnext := ih (c :: (List.replicate run mark ++ read))
    simpa using hnext
  | @escaped run c cs hrun hescapes h ih =>
    subst hescapes
    obtain ⟨d, tail, htail⟩ := List.exists_cons_of_ne_nil (l := cs ++ mark :: mark :: mark :: rest)
      (by simp)
    rw [List.cons_append, List.cons_append, htail, cutLines_run hmark hrun hmark.symm,
      cutLines_escaped hmark, ← htail]
    have hnext := ih (c :: '\\' :: (List.replicate run mark ++ read))
    simpa using hnext

/-! ## Escapes -/

/-- The most marks that may stand in a row. -/
def runLimit (lines : Bool) : Nat := if lines then 2 else 0

/-- A capital hexadecimal digit. -/
def capitalDigit (d : Nat) : Char := d.digitChar.toUpper

/-- A control character is escaped by four digits, of which the first two are zeros. -/
theorem padded_control {n : Nat} (hn : n < 128) :
    (Numeral.padded 4 (Nat.toDigits 16 n)).map Char.toUpper =
      ['0', '0', capitalDigit (n / 16), capitalDigit (n % 16)] := by
  have hall : ∀ n < 128, (Numeral.padded 4 (Nat.toDigits 16 n)).map Char.toUpper =
      ['0', '0', capitalDigit (n / 16), capitalDigit (n % 16)] := by
    decide
  exact hall n hn

theorem digit?_capitalDigit {d : Nat} (hd : d < 16) :
    Numeral.digit? 16 (capitalDigit d) = some d := by
  have hall : ∀ d < 16, Numeral.digit? 16 (capitalDigit d) = some d := by decide
  exact hall d hd

/-- How a character other than a quotation mark stands in a text with escapes: as it is, behind a
backslash as a letter, or behind a backslash as a number. -/
inductive Written (lines : Bool) (c : Char) : List Char → Prop
  | plain (hslash : c ≠ '\\') (htext : (isTextChar c || (lines && c = '\n')) = true) :
      Written lines c [c]
  | short {e : Char} (hread : shortEscaped? e = some c) : Written lines c ['\\', e]
  | number (hc : c.toNat < 128) : Written lines c
      ['\\', 'u', '0', '0', capitalDigit (c.toNat / 16), capitalDigit (c.toNat % 16)]

/-- What cannot stand in a text as it is has a small number. -/
theorem toNat_lt_of_not_isTextChar (h : isTextChar c = false) : c.toNat < 128 := by
  have hcases : c.toNat < 32 ∨ c = '\x7f' := by
    simp only [isTextChar, Bool.or_eq_false_iff, Bool.and_eq_false_iff, decide_eq_false_iff_not,
      not_not] at h
    rcases h.2 with hlow | hdel
    · exact .inl (Char.not_le.1 hlow)
    · exact .inr hdel
  rcases hcases with hlow | rfl
  · omega
  · decide

theorem written_escape (lines : Bool) (c : Char) : Written lines c (escape lines c) := by
  unfold escape
  split
  · next h =>
    subst h
    exact .short rfl
  split
  · next h =>
    subst h
    exact .short rfl
  split
  · next h =>
    subst h
    cases lines with
    | false => exact .short rfl
    | true => exact .plain (by decide) (by decide)
  split
  · next h =>
    subst h
    exact .short rfl
  split
  · next h =>
    subst h
    exact .short rfl
  split
  · next h =>
    subst h
    exact .short rfl
  next hslash =>
    by_cases htext : isTextChar c = true
    · rw [if_pos htext]
      exact .plain hslash (by rw [htext, Bool.true_or])
    · have hc := toNat_lt_of_not_isTextChar (Bool.eq_false_iff.2 htext)
      rw [if_neg htext, padded_control hc]
      exact .number hc

/-- A mark of a text with escapes is the quotation mark. -/
theorem Written.shortRuns {word : List Char} (h : Written lines c word) (hquote : c ≠ '"')
    (hrun : run ≤ limit) (hcs : ShortRuns '"' true limit 0 cs) :
    ShortRuns '"' true limit run (word ++ cs) := by
  cases h with
  | plain hslash => exact .char hrun hquote (by simp [hslash]) hcs
  | short => exact .escaped hrun rfl hcs
  | number hc =>
    have hdigit : ∀ d < 16, capitalDigit d ≠ '"' ∧ (true && capitalDigit d = '\\') = false := by
      decide
    obtain ⟨hquote₁, hslash₁⟩ := hdigit (c.toNat / 16) (by omega)
    obtain ⟨hquote₂, hslash₂⟩ := hdigit (c.toNat % 16) (by omega)
    have hzero : 0 ≤ limit := Nat.zero_le limit
    refine .escaped hrun rfl (.char hzero (by decide) (by decide) ?_)
    refine .char hzero (by decide) (by decide) ?_
    exact .char hzero hquote₁ hslash₁ (.char hzero hquote₂ hslash₂ hcs)

/-- What the writer puts between quotation marks does not end the text. -/
theorem shortRuns_escapeFrom (hrun : run ≤ runLimit lines) (cs : List Char) :
    ShortRuns '"' true (runLimit lines) run (escapeFrom lines run cs) := by
  induction cs generalizing run with
  | nil => exact .nil hrun
  | cons c cs ih =>
    rw [escapeFrom]
    by_cases hquote : c = '"'
    · rw [if_pos hquote]
      by_cases hfew : (lines && run < 2) = true
      · have hnext : run + 1 ≤ runLimit lines := by
          rw [Bool.and_eq_true, decide_eq_true_eq] at hfew
          rw [runLimit, if_pos hfew.1]
          omega
        rw [if_pos hfew]
        exact .mark (ih hnext)
      · rw [if_neg hfew]
        exact .escaped hrun rfl (ih (Nat.zero_le _))
    · rw [if_neg hquote]
      exact (written_escape lines c).shortRuns hquote hrun (ih (Nat.zero_le _))

/-- A letter behind a backslash is read as its character. -/
theorem unescape_short {e : Char} (h : shortEscaped? e = some c) (cs : List Char) :
    unescape lines .escaped (e :: cs) = (unescape lines .plain cs).map (c :: ·) := by
  have hne (d : Char) (hd : shortEscaped? d = none) : e ≠ d := by
    rintro rfl
    cases hd.symm.trans h
  have hspace : (lines && isSpace e) = false := by
    simp [isSpace, hne ' ' (by decide), hne '\t' (by decide)]
  have hline : (lines && e = '\n') = false := by simp [hne '\n' (by decide)]
  rw [unescape, if_neg (hne 'u' (by decide)), if_neg (hne 'U' (by decide)),
    if_neg (Bool.eq_false_iff.1 hspace), if_neg (Bool.eq_false_iff.1 hline), h, Option.bind_some]

theorem unescape_digit {e : Char} {d left n : Nat} (hd : Numeral.digit? 16 e = some d)
    (hleft : 1 < left) (cs : List Char) :
    unescape lines (.number left n) (e :: cs) =
      unescape lines (.number (left - 1) (n * 16 + d)) cs := by
  rw [unescape, hd, Option.bind_some, if_pos hleft]

theorem unescape_lastDigit {e : Char} {d n : Nat} (hd : Numeral.digit? 16 e = some d)
    (hn : n * 16 + d = c.toNat) (cs : List Char) :
    unescape lines (.number 1 n) (e :: cs) = (unescape lines .plain cs).map (c :: ·) := by
  have hchar : charOfNat? c.toNat = some c := by
    rw [charOfNat?, if_pos (show c.toNat.isValidChar from c.valid), Char.ofNat_toNat]
  rw [unescape, hd, Option.bind_some, if_neg (by decide), hn, hchar, Option.bind_some]

/-- What stands for a character is read as this character. -/
theorem Written.unescape_append {word : List Char} (h : Written lines c word) (cs : List Char) :
    unescape lines .plain (word ++ cs) = (unescape lines .plain cs).map (c :: ·) := by
  have hzero : Numeral.digit? 16 '0' = some 0 := by decide
  cases h with
  | plain hslash htext => rw [List.singleton_append, unescape, if_neg hslash, if_pos htext]
  | short hread =>
    rw [List.cons_append, List.singleton_append, unescape, if_pos rfl, unescape_short hread]
  | number hc =>
    have hhigh := digit?_capitalDigit (show c.toNat / 16 < 16 by omega)
    have hlow := digit?_capitalDigit (show c.toNat % 16 < 16 by omega)
    simp only [List.cons_append, List.nil_append]
    rw [unescape, if_pos rfl, unescape, if_pos rfl, unescape_digit hzero (by decide),
      unescape_digit hzero (by decide), unescape_digit hhigh (by decide),
      unescape_lastDigit (c := c) hlow (by omega)]

/-- What the writer puts between quotation marks is read as the text. -/
theorem unescape_escapeFrom (lines : Bool) (run : Nat) (cs : List Char) :
    unescape lines .plain (escapeFrom lines run cs) = some cs := by
  induction cs generalizing run with
  | nil => rfl
  | cons c cs ih =>
    rw [escapeFrom]
    by_cases hquote : c = '"'
    · subst hquote
      rw [if_pos rfl]
      by_cases hfew : (lines && run < 2) = true
      · have htext : (isTextChar '"' || (lines && '"' = '\n')) = true := by simp; decide
        rw [if_pos hfew, unescape, if_neg (by decide), if_pos htext, ih, Option.map_some]
      · rw [if_neg hfew, unescape, if_pos rfl, unescape_short rfl, ih, Option.map_some]
    · rw [if_neg hquote, (written_escape lines c).unescape_append, ih, Option.map_some]

/-! ## Forms -/

/-- What stands between the marks of a form for a text. -/
structure Shows (mark : Char) (lines : Bool) (cs body : List Char) : Prop where
  /-- It does not end the text. -/
  runs : ShortRuns mark (mark = '"') (runLimit lines) 0 body
  /-- It is read as the text. -/
  read : (if mark = '"' then unescape lines .plain body else verbatim lines body) = some cs
  /-- It has no line ends but the one that is a single character. -/
  plain : '\r' ∉ body
  /-- It begins with a line end only if the text does. -/
  stops : '\n' ∉ cs → Stops (· = '\n') body

theorem Written.return_not_mem {word : List Char} (h : Written lines c word) : '\r' ∉ word := by
  have hdigit : ∀ d < 16, '\r' ≠ capitalDigit d := by decide
  cases h with
  | plain _ htext =>
    rw [List.mem_singleton]
    rintro rfl
    cases lines <;> exact absurd htext (by decide)
  | @short e hread =>
    have he : '\r' ≠ e := by
      rintro rfl
      cases hread
    simp [he]
  | number hc =>
    have hhigh := hdigit (c.toNat / 16) (by omega)
    have hlow := hdigit (c.toNat % 16) (by omega)
    simp [hhigh, hlow]

theorem return_not_mem_escapeFrom (lines : Bool) (run : Nat) (cs : List Char) :
    '\r' ∉ escapeFrom lines run cs := by
  induction cs generalizing run with
  | nil => exact List.not_mem_nil
  | cons c cs ih =>
    rw [escapeFrom]
    split
    · split
      · simpa using ih (run + 1)
      · simpa using ih 0
    · rw [List.mem_append, not_or]
      exact ⟨(written_escape lines c).return_not_mem, ih 0⟩

theorem Written.stops {word : List Char} (h : Written lines c word) (hc : c ≠ '\n')
    (cs : List Char) : Stops (· = '\n') (word ++ cs) := by
  cases h with
  | plain => exact stops_cons.2 (decide_eq_false hc)
  | short => exact stops_cons.2 (by decide)
  | number => exact stops_cons.2 (by decide)

theorem stops_escapeFrom (h : '\n' ∉ cs) (lines : Bool) (run : Nat) :
    Stops (· = '\n') (escapeFrom lines run cs) := by
  cases cs with
  | nil => exact stops_nil _
  | cons c cs =>
    rw [List.mem_cons, not_or] at h
    rw [escapeFrom]
    split
    · split <;> exact stops_cons.2 (by decide)
    · exact (written_escape lines c).stops (Ne.symm h.1) _

/-- Between quotation marks every text can be shown. -/
theorem shows_escapeFrom (lines : Bool) (cs : List Char) :
    Shows '"' lines cs (escapeFrom lines 0 cs) where
  runs := shortRuns_escapeFrom (Nat.zero_le _) cs
  read := unescape_escapeFrom lines 0 cs
  plain := return_not_mem_escapeFrom lines 0 cs
  stops h := stops_escapeFrom h lines 0

theorem shortRuns_of_longestRun (h : longestRun mark run cs ≤ limit) :
    ShortRuns mark false limit run cs := by
  induction cs generalizing run with
  | nil => exact .nil h
  | cons c cs ih =>
    rw [longestRun] at h
    split at h
    · next hc =>
      subst hc
      exact .mark (ih h)
    · next hc =>
      rw [Nat.max_le] at h
      exact .char h.1 hc rfl (ih h.2)

/-- Between apostrophes a text can be shown if it can be shown as it is. -/
theorem shows_plainly (h : TextForm.showsPlainly ⟨'\'', lines⟩ cs = true) :
    Shows '\'' lines cs cs := by
  simp only [TextForm.showsPlainly, Bool.and_eq_true, Bool.or_eq_true, Bool.not_eq_true',
    decide_eq_true_eq, List.any_eq_false, List.contains_eq_mem, decide_eq_false_iff_not] at h
  obtain ⟨⟨⟨hescape, -⟩, hline⟩, hlong⟩ := h
  have htext (c : Char) (hc : c ∈ cs) : (isTextChar c || (lines && c = '\n')) = true := by
    by_cases hchar : isTextChar c = true
    · rw [hchar, Bool.true_or]
    · obtain rfl : c = '\n' := by simpa [needsEscape, hchar] using hescape c hc
      rcases hline with hlines | hnone
      · simp [hlines]
      · exact absurd hc hnone
  have hall : cs.all (fun c => isTextChar c || (lines && c = '\n')) = true :=
    List.all_eq_true.2 htext
  refine ⟨shortRuns_of_longestRun hlong, ?_, ?_, ?_⟩
  · rw [if_neg (by decide), verbatim, if_pos hall]
  · intro hreturn
    exact hescape '\r' hreturn (by decide)
  · intro hnone c hc
    rw [decide_eq_false_iff_not]
    rintro rfl
    exact hnone (List.mem_of_mem_head? hc)

/-- Whether a character opens a text. -/
def isMark (c : Char) : Bool := c = '"' || c = '\''

/-- The form that is chosen shows the text. -/
theorem shows_form (cs : List Char) :
    isMark (TextForm.of cs).mark = true ∧
      Shows (TextForm.of cs).mark (TextForm.of cs).lines cs
        (if (TextForm.of cs).mark = '"' then escapeFrom (TextForm.of cs).lines 0 cs else cs) := by
  by_cases hmark : (TextForm.of cs).mark = '"'
  · rw [if_pos hmark, hmark]
    exact ⟨rfl, shows_escapeFrom _ cs⟩
  · rw [if_neg hmark]
    cases hfind : TextForm.all.find? fun form => form.showsPlainly cs with
    | none =>
      rw [TextForm.of, hfind] at hmark
      exact absurd rfl hmark
    | some form =>
      have hform : TextForm.of cs = form := by rw [TextForm.of, hfind, Option.getD_some]
      have hplain : form.showsPlainly cs = true := by
        have hsome := List.find?_some hfind
        exact hsome
      have hmarks : ∀ form ∈ TextForm.all, form.mark = '"' ∨ form.mark = '\'' := by decide
      rw [hform] at hmark ⊢
      obtain ⟨mark, lines⟩ := form
      obtain rfl : mark = '\'' := (hmarks _ (List.mem_of_find?_eq_some hfind)).resolve_left hmark
      exact ⟨rfl, shows_plainly hplain⟩

/-! ## Reading -/

theorem unifyLineEnds_of_not_mem (h : '\r' ∉ cs) : unifyLineEnds cs = cs := by
  induction cs with
  | nil => rfl
  | cons c cs ih =>
    rw [List.mem_cons, not_or] at h
    have htail := ih h.2
    cases cs with
    | nil => rfl
    | cons d cs => rw [unifyLineEnds, if_neg (by simp [Ne.symm h.1]), htail]

theorem dropLineEnd_of_stops (h : Stops (· = '\n') cs) : dropLineEnd cs = cs := by
  unfold dropLineEnd
  split
  · exact absurd (stops_cons.1 h) (by decide)
  · rfl

/-- A body without marks does not begin with one. -/
theorem ShortRuns.stops (hmark : mark ≠ '\\') (h : ShortRuns mark escapes 0 run body) :
    Stops (· = mark) body := by
  cases h with
  | nil => exact stops_nil _
  | mark h => exact absurd h.run_le (by omega)
  | char _ hc => exact stops_cons.2 (decide_eq_false hc)
  | escaped => exact stops_cons.2 (decide_eq_false hmark.symm)

/-- One mark opens a text of one line unless two others follow it. -/
theorem readText_mark (hmark : isMark mark = true) (h : ∀ tail, cs ≠ mark :: mark :: tail) :
    readText (mark :: cs) = readLine mark cs := by
  simp only [isMark, Bool.or_eq_true, decide_eq_true_eq] at hmark
  rcases hmark with rfl | rfl
  · rw [readText]
    exact h
  · rw [readText]
    exact h

theorem readText_marks (hmark : isMark mark = true) (cs : List Char) :
    readText (mark :: mark :: mark :: cs) = readLines mark cs := by
  simp only [isMark, Bool.or_eq_true, decide_eq_true_eq] at hmark
  rcases hmark with rfl | rfl <;> rw [readText]

/-- A text of one line is read up to its mark. -/
theorem readText_line (hmark : isMark mark = true) (h : Shows mark false cs body)
    (hrest : Stops isMark rest) :
    readText (mark :: (body ++ mark :: rest)) = some (String.ofList cs, rest) := by
  have hruns : ShortRuns mark (mark = '"') 0 0 body := h.runs
  have hshort (tail : List Char) : body ++ mark :: rest ≠ mark :: mark :: tail := by
    cases hbody : body with
    | nil =>
      intro hsame
      rw [(List.cons.inj hsame).2, stops_cons, hmark] at hrest
      cases hrest
    | cons c body =>
      intro hsame
      have hstops := hruns.stops (ne_of_kind hmark (by decide))
      rw [hbody, stops_cons] at hstops
      exact of_decide_eq_false hstops (List.cons.inj hsame).1
  rw [readText_mark hmark hshort, readLine, cut_append (ne_of_kind hmark (by decide)) hruns,
    Option.bind_some, List.reverse_nil, List.nil_append]
  simp only [h.read, Option.map_some]

/-- A text of several lines is read up to its last mark, without the line end in front of it. -/
theorem readText_lines (hmark : isMark mark = true) (h : Shows mark true cs body)
    (hrest : Stops isMark rest) :
    readText (mark :: mark :: mark :: ((if cs.contains '\n' then ['\n'] else []) ++ body ++
      mark :: mark :: mark :: rest)) = some (String.ofList cs, rest) := by
  have hslash : mark ≠ '\\' := ne_of_kind hmark (by decide)
  have hafter : Stops (· = mark) rest := hrest.mono fun c hc => (of_decide_eq_true hc) ▸ hmark
  obtain ⟨opened, hopened, hruns, hinside⟩ : ∃ opened,
      (if cs.contains '\n' then ['\n'] else []) ++ body = opened ∧
        ShortRuns mark (mark = '"') 2 0 opened ∧ dropLineEnd (unifyLineEnds opened) = body := by
    refine ⟨_, rfl, ?_, ?_⟩
    · split
      · have hline : '\n' ≠ mark := by
          rintro rfl
          exact absurd hmark (by decide)
        exact .char (Nat.zero_le 2) hline (by simp) h.runs
      · exact h.runs
    · split
      · rw [unifyLineEnds_of_not_mem (by simpa using h.plain)]
        rfl
      · next hnone =>
        rw [List.nil_append, unifyLineEnds_of_not_mem h.plain]
        exact dropLineEnd_of_stops (h.stops (by simpa using hnone))
  have hcut := cutLines_append hslash hruns hafter []
  rw [List.replicate_zero, List.nil_append, List.reverse_nil, List.nil_append,
    List.nil_append] at hcut
  rw [hopened, readText_marks hmark, readLines, hcut, Option.bind_some]
  simp only [hinside, h.read, Option.map_some]

/-- A text begins with a mark. -/
theorem exists_mark_of_writeText (s : String) :
    ∃ c tail, writeText s = c :: tail ∧ isMark c = true := by
  have hmark := (shows_form s.toList).1
  simp only [writeText]
  split
  · exact ⟨_, _, rfl, hmark⟩
  · exact ⟨_, _, rfl, hmark⟩

/-- **A text is read as it was written** in front of anything else than a mark, and what follows it
is left over. -/
theorem readText_writeText (s : String) (hrest : Stops isMark rest) :
    readText (writeText s ++ rest) = some (s, rest) := by
  obtain ⟨hmark, hshows⟩ := shows_form s.toList
  cases hlines : (TextForm.of s.toList).lines with
  | false =>
    rw [hlines] at hshows
    have hread := readText_line hmark hshows hrest
    rw [String.ofList_toList] at hread
    rw [← hread]
    simp only [writeText, hlines, Bool.false_eq_true, if_false, Bool.false_and,
      List.replicate_one, List.cons_append, List.nil_append, List.append_assoc]
  | true =>
    rw [hlines] at hshows
    have hread := readText_lines hmark hshows hrest
    rw [String.ofList_toList] at hread
    rw [← hread]
    simp only [writeText, hlines, if_true, Bool.true_and, List.replicate_succ, List.replicate_zero,
      List.cons_append, List.nil_append, List.append_assoc]

end VariableRegistry.Toml
