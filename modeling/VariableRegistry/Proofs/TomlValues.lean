/-
# Values in TOML are read back

Numbers, texts and lists are read as they were written, in front of anything that does not go on
with them. A list of several items has a line for each and a comma behind the last one.
-/
import VariableRegistry.Document.Toml
import VariableRegistry.Proofs.TomlScalars
import VariableRegistry.Proofs.TomlTexts

namespace VariableRegistry.Toml

variable {c : Char} {cs rest : List Char} {d e : Document} {fuel levels depth : Nat}

/-! ## Between items -/

theorem skipLines_newline (cs : List Char) : skipLines false ('\n' :: cs) = skipLines false cs := by
  cases cs with
  | nil => rfl
  | cons c cs => rw [skipLines, if_pos rfl]

theorem skipLines_space (cs : List Char) : skipLines false (' ' :: cs) = skipLines false cs := by
  cases cs with
  | nil => rfl
  | cons c cs => rfl

theorem skipLines_indent (cs : List Char) :
    skipLines false ("    ".toList ++ cs) = skipLines false cs := by
  show skipLines false (' ' :: ' ' :: ' ' :: ' ' :: cs) = _
  rw [skipLines_space, skipLines_space, skipLines_space, skipLines_space]

/-- Whether something other than space, a comment or a line end begins with a character. -/
def isSolid (c : Char) : Bool := !isSpace c && c ≠ '#' && c ≠ '\n' && c ≠ '\r'

theorem isSolid_of_kind {p : Char → Bool} (hp : [' ', '\t', '#', '\n', '\r'].any p = false)
    (hc : p c = true) : isSolid c = true := by
  have hne : ∀ s ∈ [' ', '\t', '#', '\n', '\r'], c ≠ s := fun s hs =>
    ne_of_kind hc (Bool.eq_false_iff.2 (List.any_eq_false.1 hp s hs))
  simp only [List.forall_mem_cons] at hne
  obtain ⟨hspace, htab, hcomment, hnewline, hreturn, -⟩ := hne
  simp [isSolid, isSpace, hspace, htab, hcomment, hnewline, hreturn]

theorem skipLines_solid (hc : isSolid c = true) (cs : List Char) :
    skipLines false (c :: cs) = some (c :: cs) := by
  simp only [isSolid, Bool.and_eq_true, Bool.not_eq_true', decide_eq_true_eq] at hc
  obtain ⟨⟨⟨hspace, hcomment⟩, hnewline⟩, hreturn⟩ := hc
  have hspace' : ¬isSpace c = true := Bool.eq_false_iff.1 hspace
  cases cs with
  | nil => simp [skipLines, hspace', hcomment, hnewline, hreturn]
  | cons d cs => simp [skipLines, hspace', hcomment, hnewline, hreturn]

theorem skipSpace_solid (hc : isSolid c = true) (cs : List Char) :
    skipSpace (c :: cs) = c :: cs := by
  apply dropWhile_of_stops
  rw [stops_cons]
  simp only [isSolid, Bool.and_eq_true, Bool.not_eq_true'] at hc
  exact hc.1.1.1

/-! ## Values -/

/-- Whether a value other than a table may begin with a character. -/
def begins (c : Char) : Bool := isScalarChar c || isMark c || c = '['

/-- What is written of a document is read as another one, in front of everything that does not go on
with it, where lists may have enough levels. One step for each character is enough. -/
structure ReadsAs (depth : Nat) (d e : Document) : Prop where
  begins : ∃ c tail, write d = c :: tail ∧ begins c = true
  read : ∀ levels rest fuel, depth ≤ levels → Stops goesOn rest → (write d).length ≤ fuel →
    readValue fuel levels (write d ++ rest) = some (e, rest)

theorem isSolid_of_begins (hc : Toml.begins c = true) : isSolid c = true :=
  isSolid_of_kind (by decide) hc

/-! ## Leaves -/

theorem readValue_mark (hc : isMark c = true) (fuel levels : Nat) (cs : List Char) :
    readValue (fuel + 1) levels (c :: cs) = (readText (c :: cs)).map fun p => (.text p.1, p.2) := by
  have hlist : c ≠ '[' := ne_of_kind hc (by decide)
  have htable : c ≠ '\x7b' := ne_of_kind hc (by decide)
  rw [readValue]
  · exact if_pos hc
  · simp [hlist]
  · simp [htable]

theorem readValue_scalar (hc : isScalarChar c = true) (fuel levels : Nat) (cs : List Char) :
    readValue (fuel + 1) levels (c :: cs) = readScalar (c :: cs) := by
  have hne (s : Char) (hs : isScalarChar s = false) : c ≠ s := ne_of_kind hc hs
  have hmark : (c = '"' || c = '\'') = false := by
    simp [hne '"' (by decide), hne '\'' (by decide)]
  rw [readValue]
  · exact if_neg (Bool.eq_false_iff.1 hmark)
  · simp [hne '[' (by decide)]
  · simp [hne '\x7b' (by decide)]

theorem readsAs_text (s : String) : ReadsAs 0 (.text s) (.text s) := by
  obtain ⟨c, tail, hwrite, hc⟩ := exists_mark_of_writeText s
  refine ⟨⟨c, tail, hwrite, by simp [Toml.begins, hc]⟩, ?_⟩
  intro levels rest fuel _ hrest hfuel
  have hmarks : Stops isMark rest := hrest.mono fun c hc => by
    rw [goesOn, Bool.or_assoc]
    exact Bool.or_eq_true_iff.2 (.inr hc)
  have hread := readText_writeText s hmarks
  rw [write, hwrite] at hfuel ⊢
  obtain ⟨fuel, rfl⟩ := Nat.exists_eq_add_of_le' (show 1 ≤ fuel from Nat.le_of_add_left_le hfuel)
  rw [hwrite] at hread
  rw [List.cons_append] at hread ⊢
  rw [readValue_mark hc, hread, Option.map_some]

theorem readsAs_of_scalar (hwrite : write d = cs) (hcs : ∀ c ∈ cs, isScalarChar c = true)
    (h : readScalar cs = some (e, [])) : ReadsAs 0 d e := by
  cases cs with
  | nil => cases h
  | cons c tail =>
    have hc := hcs c List.mem_cons_self
    refine ⟨⟨c, tail, hwrite, by simp [Toml.begins, hc]⟩, ?_⟩
    intro levels rest fuel _ hrest hfuel
    have hread := readScalar_append_of_nil hcs h hrest
    rw [hwrite] at hfuel ⊢
    obtain ⟨fuel, rfl⟩ := Nat.exists_eq_add_of_le' (show 1 ≤ fuel from Nat.le_of_add_left_le hfuel)
    rw [List.cons_append] at hread ⊢
    rw [readValue_scalar hc, hread]

/-- What the text of a leaf is read as: a floating point number as the number that its digits are
taken for. -/
def readBack : Document → Document
  | .single x => ((readScalar (writeFloat x.convert)).map Prod.fst).getD .nothing
  | .double x => ((readScalar (writeFloat x)).map Prod.fst).getD .nothing
  | d => d

/-- Whether the text of a leaf is a value: an integer has sixty-four bits at most, a floating point
number can be read. -/
def HasText : Document → Prop
  | .integer n => -0x8000000000000000 ≤ n ∧ n < 0x8000000000000000
  | .single x => ∃ d, readScalar (writeFloat x.convert) = some (d, [])
  | .double x => ∃ d, readScalar (writeFloat x) = some (d, [])
  | .text _ => True
  | _ => False

/-- An integer is read from its digits. -/
theorem readScalar_decimal {n : Int} (hlow : -0x8000000000000000 ≤ n)
    (hhigh : n < 0x8000000000000000) : readScalar (Numeral.decimal n) = some (.integer n, []) := by
  have happend := readScalar_append (isScalarChar_decimal n) (stops_nil goesOn)
  rwa [List.append_nil, scalar?_decimal hlow hhigh, Option.map_some] at happend

/-- A leaf is read as what its text stands for. -/
theorem readsAs_readBack (h : HasText d) : ReadsAs 0 d (readBack d) := by
  cases d with
  | integer n =>
    exact readsAs_of_scalar rfl (isScalarChar_decimal n) (readScalar_decimal h.1 h.2)
  | single x =>
    obtain ⟨d, hd⟩ := h
    rw [readBack, hd]
    exact readsAs_of_scalar rfl (isScalarChar_writeFloat _) hd
  | double x =>
    obtain ⟨d, hd⟩ := h
    rw [readBack, hd]
    exact readsAs_of_scalar rfl (isScalarChar_writeFloat _) hd
  | text s => exact readsAs_text s
  | _ => exact h.elim

/-! ## Lists -/

/-- Reads on behind an item of a list. -/
def readOn (fuel levels : Nat) (items : List Document) (cs : List Char) :
    Option (Document × List Char) :=
  (skipLines false cs).bind fun
    | ',' :: cs => readItems fuel levels items cs
    | ']' :: cs => some (.list items.reverse, cs)
    | _ => none

/-- What is written of an item follows what is passed over in front of it. -/
theorem ReadsAs.skipLines_write (hd : ReadsAs depth d e) (rest : List Char) :
    skipLines false (write d ++ rest) = some (write d ++ rest) := by
  obtain ⟨c, tail, hwrite, hc⟩ := hd.begins
  rw [hwrite]
  exact skipLines_solid (isSolid_of_begins hc) _

/-- An item is read up to its end. -/
theorem ReadsAs.readItems_item (hd : ReadsAs depth d e) (hdepth : depth ≤ levels)
    (hrest : Stops goesOn rest) (hfuel : (write d).length ≤ fuel) (items : List Document)
    (hskip : skipLines false cs = some (write d ++ rest)) :
    readItems (fuel + 1) levels items cs = readOn fuel levels (e :: items) rest := by
  have hread := hd.read levels rest fuel hdepth hrest hfuel
  obtain ⟨c, tail, hwrite, hc⟩ := hd.begins
  rw [hwrite] at hskip hread
  rw [readItems, hskip, Option.bind_some]
  split
  · next hclose => exact absurd (List.cons.inj hclose).1 (ne_of_kind hc (by decide))
  · rw [hread]
    rfl

theorem readOn_close (hclose : skipLines false cs = some (']' :: rest)) (items : List Document) :
    readOn fuel levels items cs = some (.list items.reverse, rest) := by
  rw [readOn, hclose]
  rfl

theorem readOn_comma (items : List Document) (cs : List Char) :
    readOn fuel levels items (',' :: cs) = readItems fuel levels items cs := by
  rw [readOn, skipLines_solid (by decide)]
  rfl

/-- Items that stand each on a line of its own are read one by one, behind those that were read
before. -/
theorem readItems_write {f : Document → Document} {items : List Document}
    (hitems : ∀ d ∈ items, ReadsAs depth d (f d)) (hdepth : depth ≤ levels) (done : List Document)
    (hfuel : (writeItems items).length < fuel) :
    readItems fuel levels done.reverse ('\n' :: (writeItems items ++ ']' :: rest)) =
      some (.list (done ++ items.map f), rest) := by
  induction items generalizing done fuel with
  | nil =>
    obtain ⟨fuel, rfl⟩ := Nat.exists_eq_add_of_le' (show 1 ≤ fuel by omega)
    have hskip : skipLines false ('\n' :: (writeItems [] ++ ']' :: rest)) = some (']' :: rest) := by
      rw [skipLines_newline]
      exact skipLines_solid (by decide) rest
    rw [readItems, hskip, Option.bind_some]
    show some (Document.list done.reverse.reverse, rest) = _
    rw [List.reverse_reverse, List.map_nil, List.append_nil]
  | cons d items ih =>
    obtain ⟨hd, hitems⟩ := List.forall_mem_cons.1 hitems
    simp only [writeItems, List.length_append] at hfuel
    have hblanks : "    ".toList.length = 4 := rfl
    obtain ⟨fuel, rfl⟩ := Nat.exists_eq_add_of_le' (show 1 ≤ fuel by omega)
    have hskip : skipLines false ('\n' :: (writeItems (d :: items) ++ ']' :: rest)) =
        some (write d ++ (',' :: '\n' :: (writeItems items ++ ']' :: rest))) := by
      rw [skipLines_newline, writeItems, List.append_assoc, List.append_assoc, List.append_assoc,
        skipLines_indent]
      exact hd.skipLines_write _
    have hnext := ih hitems (done ++ [f d]) (show (writeItems items).length < fuel by omega)
    rw [hd.readItems_item hdepth (stops_cons.2 (by decide)) (by omega) _ hskip, readOn_comma]
    rw [List.reverse_append, List.reverse_singleton, List.singleton_append] at hnext
    rw [hnext, List.append_assoc, List.singleton_append, List.map_cons]

theorem readValue_list (hlevels : levels ≠ 0) (fuel : Nat) (cs : List Char) :
    readValue (fuel + 1) levels ('[' :: cs) = readItems fuel (levels - 1) [] cs := by
  rw [readValue]
  exact if_neg hlevels

/-- **A list is read as the list of what its items are read as.** -/
theorem readsAs_list {f : Document → Document} {items : List Document}
    (hitems : ∀ d ∈ items, ReadsAs depth d (f d)) :
    ReadsAs (depth + 1) (.list items) (.list (items.map f)) := by
  constructor
  · match items with
    | [] => exact ⟨_, _, rfl, rfl⟩
    | [d] => exact ⟨_, _, rfl, rfl⟩
    | d :: e :: items => exact ⟨_, _, rfl, rfl⟩
  · intro levels rest fuel hlevels hrest hfuel
    have hdepth : depth ≤ levels - 1 := by omega
    have hsome : levels ≠ 0 := by omega
    match items with
    | [] =>
      have hlength : (write (.list [])).length = 2 := rfl
      obtain ⟨fuel, rfl⟩ := Nat.exists_eq_add_of_le' (show 2 ≤ fuel by omega)
      show readValue (fuel + 1 + 1) levels ('[' :: ']' :: rest) = _
      rw [readValue_list hsome, readItems, skipLines_solid (by decide)]
      rfl
    | [d] =>
      have hd := hitems d List.mem_cons_self
      have hwrite : write (.list [d]) ++ rest = '[' :: (write d ++ ']' :: rest) := by
        simp [write]
      have hlength : (write (.list [d])).length = (write d).length + 2 := by simp [write]
      obtain ⟨fuel, rfl⟩ := Nat.exists_eq_add_of_le' (show 2 ≤ fuel by omega)
      rw [hwrite, readValue_list hsome, hd.readItems_item hdepth (stops_cons.2 (by decide))
        (by omega) [] (hd.skipLines_write _), readOn_close (skipLines_solid (by decide) rest)]
      rfl
    | d :: e :: items =>
      have hwrite : write (.list (d :: e :: items)) ++ rest =
          '[' :: '\n' :: (writeItems (d :: e :: items) ++ ']' :: rest) := by
        simp [write]
      have hlength : (write (.list (d :: e :: items))).length =
          (writeItems (d :: e :: items)).length + 3 := by
        simp [write]
      obtain ⟨fuel, rfl⟩ := Nat.exists_eq_add_of_le' (show 1 ≤ fuel by omega)
      rw [hwrite, readValue_list hsome]
      exact readItems_write hitems hdepth [] (by omega)

end VariableRegistry.Toml
