/-
# Documents in JSON are read back

A document is read as it was written, but for its floating point numbers: each of them is read as
what its text is read as. Lists and records are read item by item; what is written of a value ends
where something follows that does not go on with a number.
-/
import VariableRegistry.Document.Json
import VariableRegistry.Proofs.DocumentLeaves
import VariableRegistry.Proofs.JsonNumbers
import VariableRegistry.Proofs.JsonTexts

namespace VariableRegistry.Json

variable {c : Char} {cs blank rest : List Char} {d e : Document} {fuel depth : Nat}

/-! ## White space -/

/-- A new line is nothing but space. -/
theorem isSpace_of_mem_newline (depth : Nat) : ∀ c ∈ newline depth, isSpace c = true := by
  intro c hc
  rcases List.mem_cons.1 hc with rfl | hc
  · decide
  · rw [List.eq_of_mem_replicate hc]
    decide

theorem skipSpace_blank (hblank : ∀ c ∈ blank, isSpace c = true) (cs : List Char) :
    skipSpace (blank ++ cs) = skipSpace cs :=
  List.dropWhile_append_of_pos hblank

theorem skipSpace_of_not_space (hc : isSpace c = false) : skipSpace (c :: cs) = c :: cs :=
  dropWhile_of_stops (stops_cons.2 hc)

@[simp] theorem skipSpace_skipSpace (cs : List Char) : skipSpace (skipSpace cs) = skipSpace cs :=
  dropWhile_of_stops (stops_dropWhile isSpace cs)

/-- Space does not go on with a number. -/
theorem goesOn_of_isSpace (h : isSpace c = true) : goesOn c = false := by
  simp only [isSpace, Bool.or_eq_true, decide_eq_true_eq] at h
  rcases h with ((rfl | rfl) | rfl) | rfl <;> decide

theorem stops_goesOn_blank (hblank : ∀ c ∈ blank, isSpace c = true) (hrest : Stops goesOn rest) :
    Stops goesOn (blank ++ rest) := by
  cases blank with
  | nil => exact hrest
  | cons c blank => exact stops_cons.2 (goesOn_of_isSpace (hblank c List.mem_cons_self))

/-! ## Space in front of what is read -/

theorem readValue_skipSpace (fuel : Nat) (cs : List Char) :
    readValue fuel (skipSpace cs) = readValue fuel cs := by
  cases fuel with
  | zero => rfl
  | succ fuel => rw [readValue, readValue, skipSpace_skipSpace]

theorem readItems_skipSpace (fuel : Nat) (items : List Document) (cs : List Char) :
    readItems fuel items (skipSpace cs) = readItems fuel items cs := by
  cases fuel with
  | zero => rfl
  | succ fuel => rw [readItems, readItems, readValue_skipSpace]

theorem readEntries_skipSpace (fuel : Nat) (entries : List (Option String × Document))
    (cs : List Char) : readEntries fuel entries (skipSpace cs) = readEntries fuel entries cs := by
  cases fuel with
  | zero => rfl
  | succ fuel => rw [readEntries, readEntries, skipSpace_skipSpace]

theorem readValue_blank (hblank : ∀ c ∈ blank, isSpace c = true) (fuel : Nat) (cs : List Char) :
    readValue fuel (blank ++ cs) = readValue fuel cs := by
  rw [← readValue_skipSpace, skipSpace_blank hblank, readValue_skipSpace]

theorem readValue_space (fuel : Nat) (cs : List Char) :
    readValue fuel (' ' :: cs) = readValue fuel cs :=
  readValue_blank (List.forall_mem_singleton.2 (by decide)) fuel cs

/-! ## Leaves -/

theorem readValue_text (s : String) (fuel : Nat) (rest : List Char) :
    readValue (fuel + 1) (writeText s ++ rest) = some (.text s, rest) := by
  have hspace : isSpace '"' = false := by decide
  rw [writeText, List.cons_append, List.cons_append, List.append_assoc, List.singleton_append,
    readValue, skipSpace_of_not_space hspace]
  simp only [readText_flatMap_escape, Option.map_some, Option.getD_some]

theorem readValue_of_begins (hc : begins c = true) (fuel : Nat) (cs : List Char) :
    readValue (fuel + 1) (c :: cs) = readNumber (c :: cs) := by
  have hne (s : Char) (hs : begins s = false) : c ≠ s := ne_of_kind hc hs
  have hspace : isSpace c = false := by
    simp [isSpace, hne ' ' (by decide), hne '\n' (by decide), hne '\t' (by decide),
      hne '\r' (by decide)]
  rw [readValue, skipSpace_of_not_space hspace]
  split
  · next h => exact absurd (List.cons.inj h).1 (hne '"' (by decide))
  · next h => exact absurd (List.cons.inj h).1 (hne '[' (by decide))
  · next h => exact absurd (List.cons.inj h).1 (hne '\x7b' (by decide))
  · next h =>
    obtain ⟨rfl, rfl⟩ := List.cons.inj h
    exact if_pos hc
  · next h => cases h

/-- A number is read in front of what does not go on with it. -/
theorem readValue_number (h : readNumber cs = some (d, [])) (hrest : Stops goesOn rest)
    (fuel : Nat) : readValue (fuel + 1) (cs ++ rest) = some (d, rest) := by
  obtain ⟨c, tail, rfl, hc⟩ := exists_begins_of_readNumber h
  have hread := readNumber_append h hrest
  rw [List.cons_append] at hread ⊢
  rw [readValue_of_begins hc, hread, List.nil_append]

theorem readValue_null (fuel : Nat) (rest : List Char) :
    readValue (fuel + 1) ("null".toList ++ rest) = some (.nothing, rest) := rfl

/-! ## Values -/

/-- What is written of a document is read as another one, at every depth and in front of everything
that does not go on with a number. One step for each character is enough. -/
def ReadsAs (d e : Document) : Prop :=
  ∀ depth rest fuel, Stops goesOn rest → (write depth d).length ≤ fuel →
    readValue fuel (write depth d ++ rest) = some (e, rest)

/-! ## Lists -/

/-- The end of a list is not read as a value. -/
theorem skipSpace_ne_close (h : readValue fuel cs = some (d, rest)) (tail : List Char) :
    skipSpace cs ≠ ']' :: tail := by
  intro hclose
  cases fuel with
  | zero => cases h
  | succ fuel =>
    rw [readValue, hclose] at h
    cases h

/-- A list in which a value stands is read by its items. -/
theorem readValue_list {n : Nat} (h : readValue n cs = some (d, rest)) (fuel : Nat) :
    readValue (fuel + 1) ('[' :: cs) = readItems fuel [] cs := by
  rw [readValue, skipSpace_of_not_space (by decide)]
  simp only
  split
  · next hclose => exact absurd hclose (skipSpace_ne_close h _)
  · exact readItems_skipSpace fuel [] cs

theorem stops_writeItems (depth : Nat) (items : List Document) (rest : List Char) :
    Stops goesOn (writeItems depth items ++ rest) := by
  cases items with
  | nil =>
    rw [writeItems, List.append_assoc]
    exact stops_goesOn_blank (isSpace_of_mem_newline depth) (stops_cons.2 (by decide))
  | cons d items => exact stops_cons.2 (by decide)

/-- The items of a list are read one by one, behind those that were read before. -/
theorem readItems_write {f : Document → Document} {items : List Document}
    (hitems : ∀ d ∈ items, ReadsAs d (f d)) (hd : ReadsAs d e) (done : List Document)
    (hfuel : (write (depth + 1) d ++ writeItems depth items).length ≤ fuel) :
    readItems fuel done.reverse
        (newline (depth + 1) ++ write (depth + 1) d ++ writeItems depth items ++ rest) =
      some (.list (done ++ e :: items.map f), rest) := by
  induction items generalizing d e done fuel with
  | nil =>
    simp only [writeItems, List.length_append, List.length_singleton] at hfuel
    obtain ⟨fuel, rfl⟩ := Nat.exists_eq_add_of_le' (show 1 ≤ fuel by omega)
    rw [readItems, List.append_assoc, List.append_assoc,
      readValue_blank (isSpace_of_mem_newline _),
      hd _ _ fuel (stops_writeItems depth [] rest) (by omega), Option.bind_some]
    have hclose : skipSpace (writeItems depth [] ++ rest) = ']' :: rest := by
      rw [writeItems, List.append_assoc, skipSpace_blank (isSpace_of_mem_newline depth)]
      exact skipSpace_of_not_space (by decide)
    simp only [hclose, List.reverse_cons, List.reverse_reverse, List.map_nil]
  | cons d' items ih =>
    obtain ⟨hd', hitems⟩ := List.forall_mem_cons.1 hitems
    simp only [writeItems, List.length_append, List.length_cons] at hfuel
    obtain ⟨fuel, rfl⟩ := Nat.exists_eq_add_of_le' (show 1 ≤ fuel by omega)
    have hshort : (write (depth + 1) d' ++ writeItems depth items).length ≤ fuel := by
      rw [List.length_append]
      omega
    have hnext := ih hitems hd' (done ++ [e]) hshort
    have hcomma : skipSpace (writeItems depth (d' :: items) ++ rest) =
        ',' :: (newline (depth + 1) ++ write (depth + 1) d' ++ writeItems depth items ++ rest) := by
      rw [writeItems]
      exact skipSpace_of_not_space (c := ',') (by decide)
    rw [readItems, List.append_assoc, List.append_assoc,
      readValue_blank (isSpace_of_mem_newline _),
      hd _ _ fuel (stops_writeItems depth _ rest) (by omega), Option.bind_some]
    simp only [hcomma]
    rw [List.reverse_append, List.reverse_singleton, List.singleton_append] at hnext
    rw [hnext, List.append_assoc, List.singleton_append, List.map_cons]

/-- **A list is read as the list of what its items are read as.** -/
theorem readsAs_list {f : Document → Document} {items : List Document}
    (hitems : ∀ d ∈ items, ReadsAs d (f d)) : ReadsAs (.list items) (.list (items.map f)) := by
  intro depth rest fuel hrest hfuel
  cases items with
  | nil =>
    obtain ⟨fuel, rfl⟩ := Nat.exists_eq_add_of_le' (show 1 ≤ fuel from Nat.le_of_succ_le hfuel)
    rfl
  | cons d items =>
    obtain ⟨hd, hitems⟩ := List.forall_mem_cons.1 hitems
    simp only [write, List.length_append, List.length_cons] at hfuel
    obtain ⟨fuel, rfl⟩ := Nat.exists_eq_add_of_le' (show 1 ≤ fuel by omega)
    have hshort : (write (depth + 1) d ++ writeItems depth items).length ≤ fuel := by
      rw [List.length_append]
      omega
    have hfirst : readValue fuel
        (newline (depth + 1) ++ write (depth + 1) d ++ writeItems depth items ++ rest) =
          some (f d, writeItems depth items ++ rest) := by
      rw [List.append_assoc, List.append_assoc, readValue_blank (isSpace_of_mem_newline _),
        hd _ _ fuel (stops_writeItems depth _ rest) (by omega)]
    rw [write, List.cons_append, List.cons_append, List.cons_append, readValue_list hfirst]
    exact readItems_write hitems hd [] hshort

/-! ## Records -/

/-- A record of entries that all have a key. -/
theorem recordOf_keys (fields : List (String × Document)) :
    recordOf (fields.map fun field => (some field.1, field.2)).reverse = .record fields := by
  have hkeys : (fields.map fun field => (some field.1, field.2)).mapM
      (fun entry => entry.1.map fun k => (k, entry.2)) = some fields := by
    rw [List.mapM_map]
    exact (List.mapM_pure (f := id)).trans (congrArg some (List.map_id fields))
  unfold recordOf
  rw [List.reverse_reverse]
  exact hkeys ▸ rfl

/-- A record in which a key stands is read by its fields. -/
theorem readValue_record {tail : List Char} (h : skipSpace cs = '"' :: tail) (fuel : Nat) :
    readValue (fuel + 1) ('\x7b' :: cs) = readEntries fuel [] cs := by
  have hopen : readEntries fuel [] ('"' :: tail) = readEntries fuel [] cs := by
    rw [← h, readEntries_skipSpace]
  rw [readValue, skipSpace_of_not_space (by decide)]
  simp only [h]
  exact hopen

theorem stops_writeFields (depth : Nat) (fields : List (String × Document)) (rest : List Char) :
    Stops goesOn (writeFields depth fields ++ rest) := by
  cases fields with
  | nil =>
    rw [writeFields, List.append_assoc]
    exact stops_goesOn_blank (isSpace_of_mem_newline depth) (stops_cons.2 (by decide))
  | cons field fields => exact stops_cons.2 (by decide)

/-- A field begins with the quote of its key. -/
theorem skipSpace_writeField (hblank : ∀ c ∈ blank, isSpace c = true) (depth : Nat)
    (key : String) (d : Document) (rest : List Char) :
    skipSpace (blank ++ writeField depth (key, d) ++ rest) =
      '"' :: (key.toList.flatMap escape ++ '"' :: ':' :: ' ' :: (write depth d ++ rest)) := by
  rw [List.append_assoc, skipSpace_blank hblank, writeField, writeText]
  simp only [List.cons_append, List.append_assoc, List.nil_append]
  exact skipSpace_of_not_space (by decide)

/-- Reads on behind a field of a record. -/
def readOn (fuel : Nat) (entries : List (Option String × Document)) (cs : List Char) :
    Option (Document × List Char) :=
  match skipSpace cs with
  | ',' :: cs => readEntries fuel entries cs
  | '\x7d' :: cs => some (recordOf entries, cs)
  | _ => none

/-- A field is read up to its end: the key, the colon and the value. -/
theorem readEntries_field (entries : List (Option String × Document)) (key : String)
    (hd : ReadsAs d e) (hfuel : (write depth d).length ≤ fuel) (hrest : Stops goesOn rest)
    (hblank : ∀ c ∈ blank, isSpace c = true) :
    readEntries (fuel + 1) entries (blank ++ writeField depth (key, d) ++ rest) =
      readOn fuel ((some key, e) :: entries) rest := by
  have hcolon (cs : List Char) : skipSpace (':' :: cs) = ':' :: cs :=
    skipSpace_of_not_space (by decide)
  rw [readEntries, skipSpace_writeField hblank]
  simp only [readText_flatMap_escape, Option.bind_some, hcolon, readValue_space,
    hd depth rest fuel hrest hfuel]
  rfl

/-- The fields of a record are read one by one, behind those that were read before. -/
theorem readEntries_write {f : Document → Document}
    {fields : List (String × Document)} (hfields : ∀ field ∈ fields, ReadsAs field.2 (f field.2))
    (key : String) (hd : ReadsAs d e) (done : List (String × Document))
    (hfuel : (writeField (depth + 1) (key, d) ++ writeFields depth fields).length ≤ fuel) :
    readEntries fuel (done.map fun field => (some field.1, field.2)).reverse
        (newline (depth + 1) ++ writeField (depth + 1) (key, d) ++ writeFields depth fields ++
          rest) =
      some (.record (done ++ (key, e) :: fields.map fun field => (field.1, f field.2)), rest) := by
  induction fields generalizing d e key done fuel with
  | nil =>
    have hlong : (write (depth + 1) d).length < fuel := by
      simp only [writeField, writeFields, List.length_append, List.length_cons,
        List.length_nil] at hfuel
      omega
    obtain ⟨fuel, rfl⟩ := Nat.exists_eq_add_of_le' (show 1 ≤ fuel by omega)
    have hclose : skipSpace (writeFields depth [] ++ rest) = '\x7d' :: rest := by
      rw [writeFields, List.append_assoc, skipSpace_blank (isSpace_of_mem_newline depth)]
      exact skipSpace_of_not_space (by decide)
    have hdone := recordOf_keys (done ++ [(key, e)])
    rw [List.map_append, List.reverse_append] at hdone
    rw [List.append_assoc, readEntries_field _ key hd (by omega)
      (stops_writeFields depth [] rest) (isSpace_of_mem_newline _), readOn, hclose]
    exact congrArg (fun r => some (r, rest)) hdone
  | cons field fields ih =>
    obtain ⟨key', d'⟩ := field
    obtain ⟨hd', hfields⟩ := List.forall_mem_cons.1 hfields
    have hlong : (write (depth + 1) d).length + 1 +
        (writeField (depth + 1) (key', d') ++ writeFields depth fields).length ≤ fuel := by
      simp only [writeField, writeFields, List.length_append, List.length_cons] at hfuel ⊢
      omega
    obtain ⟨fuel, rfl⟩ := Nat.exists_eq_add_of_le' (show 1 ≤ fuel by omega)
    have hnext := ih hfields key' hd' (done ++ [(key, e)])
      (show (writeField (depth + 1) (key', d') ++ writeFields depth fields).length ≤ fuel by
        omega)
    have hcomma : skipSpace (writeFields depth ((key', d') :: fields) ++ rest) =
        ',' :: (newline (depth + 1) ++ writeField (depth + 1) (key', d') ++
          writeFields depth fields ++ rest) := by
      rw [writeFields]
      exact skipSpace_of_not_space (c := ',') (by decide)
    rw [List.append_assoc, readEntries_field _ key hd (by omega)
      (stops_writeFields depth _ rest) (isSpace_of_mem_newline _), readOn, hcomma]
    rw [List.map_append, List.reverse_append] at hnext
    rw [List.map_cons, List.append_cons]
    exact hnext

/-- **A record is read as the record of what its values are read as.** -/
theorem readsAs_record {f : Document → Document} {fields : List (String × Document)}
    (hfields : ∀ field ∈ fields, ReadsAs field.2 (f field.2)) :
    ReadsAs (.record fields) (.record (fields.map fun field => (field.1, f field.2))) := by
  intro depth rest fuel hrest hfuel
  cases fields with
  | nil =>
    obtain ⟨fuel, rfl⟩ := Nat.exists_eq_add_of_le' (show 1 ≤ fuel from Nat.le_of_succ_le hfuel)
    rfl
  | cons field fields =>
    obtain ⟨key, d⟩ := field
    obtain ⟨hd, hfields⟩ := List.forall_mem_cons.1 hfields
    simp only [write, List.length_append, List.length_cons] at hfuel
    obtain ⟨fuel, rfl⟩ := Nat.exists_eq_add_of_le' (show 1 ≤ fuel by omega)
    have hshort : (writeField (depth + 1) (key, d) ++ writeFields depth fields).length ≤ fuel := by
      rw [List.length_append]
      omega
    have hopen := skipSpace_writeField (isSpace_of_mem_newline (depth + 1)) (depth + 1) key d
      (writeFields depth fields ++ rest)
    rw [← List.append_assoc] at hopen
    rw [write, List.cons_append, List.cons_append, List.cons_append, readValue_record hopen]
    exact readEntries_write hfields key hd [] hshort

/-! ## Documents -/

/-- What the text of a leaf is read as: a floating point number as the number that its digits are
taken for, what has no form of its own as nothing. -/
def readBack : Document → Document
  | .single x => ((readNumber (writeFloat singleStyle x)).map Prod.fst).getD .nothing
  | .double x => ((readNumber (writeFloat doubleStyle x)).map Prod.fst).getD .nothing
  | .moment => .nothing
  | .other => .nothing
  | d => d

/-- Whether the text of a leaf is a value: an integer has sixty-four bits at most, a floating point
number is a number. -/
def HasText : Document → Prop
  | .integer n => -0x8000000000000000 ≤ n ∧ n < 0x10000000000000000
  | .single x => ∃ d, readNumber (writeFloat singleStyle x) = some (d, [])
  | .double x => ∃ d, readNumber (writeFloat doubleStyle x) = some (d, [])
  | .list _ => False
  | .record _ => False
  | _ => True

/-- One step is enough for a leaf. -/
theorem readsAs_of_leaf (hne : ∀ depth, write depth d ≠ [])
    (h : ∀ depth fuel rest, Stops goesOn rest →
      readValue (fuel + 1) (write depth d ++ rest) = some (e, rest)) : ReadsAs d e := by
  intro depth rest fuel hrest hfuel
  have hpos := List.length_pos_iff.2 (hne depth)
  obtain ⟨fuel, rfl⟩ := Nat.exists_eq_add_of_le' (show 1 ≤ fuel by omega)
  exact h depth fuel rest hrest

theorem readsAs_of_number {cs : List Char} (hwrite : ∀ depth, write depth d = cs)
    (h : readNumber cs = some (e, [])) : ReadsAs d e := by
  apply readsAs_of_leaf
  · intro depth
    obtain ⟨c, tail, rfl, -⟩ := exists_begins_of_readNumber h
    rw [hwrite]
    exact List.cons_ne_nil c tail
  · intro depth fuel rest hrest
    rw [hwrite]
    exact readValue_number h hrest fuel

theorem readsAs_of_null (hwrite : ∀ depth, write depth d = "null".toList) :
    ReadsAs d .nothing := by
  apply readsAs_of_leaf
  · intro depth
    rw [hwrite]
    decide
  · intro depth fuel rest _
    rw [hwrite]
    exact readValue_null fuel rest

/-- A leaf is read as what its text stands for. -/
theorem readsAs_readBack (h : HasText d) : ReadsAs d (readBack d) := by
  cases d with
  | integer n => exact readsAs_of_number (fun _ => rfl) (readNumber_decimal h.1 h.2)
  | single x =>
    obtain ⟨d, hd⟩ := h
    rw [readBack, hd]
    exact readsAs_of_number (fun _ => rfl) hd
  | double x =>
    obtain ⟨d, hd⟩ := h
    rw [readBack, hd]
    exact readsAs_of_number (fun _ => rfl) hd
  | text s =>
    exact readsAs_of_leaf (fun _ => List.cons_ne_nil _ _) fun _ fuel rest _ =>
      readValue_text s fuel rest
  | list items => exact h.elim
  | record fields => exact h.elim
  | nothing => exact readsAs_of_null fun _ => rfl
  | moment => exact readsAs_of_null fun _ => rfl
  | other => exact readsAs_of_null fun _ => rfl

/-- **A document is read as it was written**, but for the leaves that are read as other ones. -/
theorem read?_write (d : Document) (h : ∀ l ∈ d.leaves, HasText l) :
    read? (write 0 d) = some (d.mapLeaves readBack) := by
  have hread : ReadsAs d (d.mapLeaves readBack) :=
    Document.related_mapLeaves (fun _ => readsAs_list) (fun _ => readsAs_record) d
      fun l hl => readsAs_readBack (h l hl)
  have hvalue := hread 0 [] (2 * (write 0 d).length + 2) (stops_nil _) (by omega)
  rw [List.append_nil] at hvalue
  rw [read?, hvalue]
  rfl

end VariableRegistry.Json
