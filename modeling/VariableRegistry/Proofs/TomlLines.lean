/-
# Lines in TOML are read back

A line that assigns a value to a bare key adds the value to the open table, and a header opens a
table. Reading a file goes on line by line, and no line is empty of characters, so that the length
of the text bounds the number of lines.
-/
import VariableRegistry.Proofs.TomlValues

namespace VariableRegistry.Toml

variable {c : Char} {cs rest : List Char} {d e : Document} {fuel depth : Nat} {key : String}
  {o o' : Outline}

/-! ## Keys -/

/-- Whether a key stands for itself: it has characters, and no quotes are needed for any of them. -/
structure IsBare (key : String) : Prop where
  ne_nil : key.toList ≠ []
  bare : ∀ c ∈ key.toList, isBareChar c = true

theorem isSolid_of_isBareChar (hc : isBareChar c = true) : isSolid c = true :=
  isSolid_of_kind (by decide) hc

theorem IsBare.exists_cons (hkey : IsBare key) :
    ∃ c tail, key.toList = c :: tail ∧ isBareChar c = true := by
  obtain ⟨c, tail, hcs⟩ := List.exists_cons_of_ne_nil hkey.ne_nil
  exact ⟨c, tail, hcs, hkey.bare c (hcs ▸ List.mem_cons_self)⟩

theorem readKey_bare (hkey : IsBare key) (hrest : Stops isBareChar rest) :
    readKey (key.toList ++ rest) = some (key, rest) := by
  obtain ⟨c, tail, hcs, hc⟩ := hkey.exists_cons
  have htake := takeWhile_run hkey.bare hrest
  have hdrop := dropWhile_run hkey.bare hrest
  have hsome : key.toList.isEmpty = false := by rw [hcs]; rfl
  unfold readKey
  split
  · next h =>
    rw [hcs] at h
    exact absurd (List.cons.inj h).1 (ne_of_kind hc (by decide))
  · next h =>
    rw [hcs] at h
    exact absurd (List.cons.inj h).1 (ne_of_kind hc (by decide))
  · simp only [htake, hdrop, hsome, String.ofList_toList]
    rfl

theorem skipSpace_key (hkey : IsBare key) (rest : List Char) :
    skipSpace (key.toList ++ rest) = key.toList ++ rest := by
  obtain ⟨c, tail, hcs, hc⟩ := hkey.exists_cons
  rw [hcs]
  exact skipSpace_solid (isSolid_of_isBareChar hc) _

/-- A path of one bare key ends where no point follows. -/
theorem readPath_bare (hkey : IsBare key) (hrest : Stops isBareChar rest)
    (hpoint : Stops (· = '.') (skipSpace rest)) (limit : Nat) :
    readPath (limit + 1) (key.toList ++ rest) = some (([], key), skipSpace rest) := by
  rw [readPath, skipSpace_key hkey, readKey_bare hkey hrest, Option.bind_some]
  simp only
  split
  · next h =>
    rw [h, stops_cons] at hpoint
    exact absurd hpoint (by decide)
  · rfl

/-! ## Statements -/

/-- Reads an assignment to a bare key up to its value. -/
theorem readAssigned_bare (hkey : IsBare key) (hvalue : skipSpace cs = cs) :
    readAssigned (key.toList ++ " = ".toList ++ cs) = some (([], key), cs) := by
  have hpath : readPath (maxDepth - 1) (key.toList ++ (" = ".toList ++ cs)) =
      some (([], key), '=' :: ' ' :: cs) :=
    readPath_bare hkey (stops_cons.2 (by decide)) (stops_cons.2 (by decide)) (maxDepth - 2)
  have hspace : skipSpace (' ' :: cs) = cs := hvalue
  rw [readAssigned, List.append_assoc, hpath, Option.bind_some]
  simp only [hspace]

/-- The text of a line that assigns a value. -/
def lineOf (key : String) (d : Document) : List Char := key.toList ++ " = ".toList ++ write d

theorem readStatement_line (hkey : IsBare key) (hd : ReadsAs depth d e)
    (hdepth : depth ≤ maxDepth - 1) (hfuel : (write d).length ≤ fuel)
    (hassign : o.assign? [] key e = some o') (rest : List Char) :
    readStatement fuel o (lineOf key d ++ '\n' :: rest) = some (o', '\n' :: rest) := by
  obtain ⟨c, tail, hcs, hc⟩ := hkey.exists_cons
  have hvalue : skipSpace (write d ++ '\n' :: rest) = write d ++ '\n' :: rest := by
    obtain ⟨c, tail, hwrite, hc⟩ := hd.begins
    rw [hwrite]
    exact skipSpace_solid (isSolid_of_begins hc) _
  have hline : lineOf key d ++ '\n' :: rest =
      key.toList ++ " = ".toList ++ (write d ++ '\n' :: rest) := by
    simp only [lineOf, List.append_assoc]
  have hread := hd.read (maxDepth - 1) ('\n' :: rest) fuel hdepth (stops_cons.2 (by decide)) hfuel
  have hassigned := readAssigned_bare hkey hvalue
  rw [hline]
  unfold readStatement
  split
  · next h =>
    rw [hcs] at h
    exact absurd (List.cons.inj h).1 (ne_of_kind hc (by decide))
  · next h =>
    rw [hcs] at h
    exact absurd (List.cons.inj h).1 (ne_of_kind hc (by decide))
  · rw [hassigned, Option.bind_some]
    simp only [hread, hassign, Option.bind_some, Option.map_some]

/-! ## Headers -/

/-- A header is read up to the brackets behind its key. -/
theorem readHeader_bare (hkey : IsBare key) (brackets rest : List Char) :
    readHeader (']' :: brackets) (key.toList ++ (']' :: brackets ++ rest)) =
      some (([], key), rest) := by
  have hpath : readPath (maxDepth - 1) (key.toList ++ (']' :: brackets ++ rest)) =
      some (([], key), ']' :: brackets ++ rest) :=
    readPath_bare hkey (stops_cons.2 (by decide)) (stops_cons.2 (by decide)) (maxDepth - 2)
  have hbegins : (']' :: brackets).isPrefixOf (']' :: brackets ++ rest) = true :=
    List.isPrefixOf_iff_prefix.2 (List.prefix_append _ _)
  rw [readHeader, hpath, Option.bind_some]
  simp only [hbegins, if_true, List.drop_left]

theorem readStatement_addTable (hkey : IsBare key) (h : o.addTable? [] key = some o')
    (rest : List Char) :
    readStatement fuel o ("[[".toList ++ key.toList ++ "]]".toList ++ rest) = some (o', rest) := by
  have hheader : readHeader [']', ']'] (key.toList ++ ("]]".toList ++ rest)) =
      some (([], key), rest) := readHeader_bare hkey [']'] rest
  show readStatement fuel o ('[' :: '[' :: (key.toList ++ "]]".toList ++ rest)) = _
  rw [List.append_assoc, readStatement, hheader, Option.bind_some]
  simp only [h, Option.map_some]

theorem readStatement_openTable (hkey : IsBare key) (h : o.openTable? [] key = some o')
    (rest : List Char) :
    readStatement fuel o ("[".toList ++ key.toList ++ "]".toList ++ rest) = some (o', rest) := by
  obtain ⟨c, tail, hcs, hc⟩ := hkey.exists_cons
  have hheader : readHeader [']'] (key.toList ++ ("]".toList ++ rest)) =
      some (([], key), rest) := readHeader_bare hkey [] rest
  have hone (tail' : List Char) : key.toList ++ ("]".toList ++ rest) ≠ '[' :: tail' := by
    intro hsame
    rw [hcs] at hsame
    exact absurd (List.cons.inj hsame).1 (ne_of_kind hc (by decide))
  show readStatement fuel o ('[' :: (key.toList ++ "]".toList ++ rest)) = _
  rw [List.append_assoc, readStatement]
  · rw [hheader, Option.bind_some]
    simp only [h, Option.map_some]
  · exact fun tail' => hone tail'

/-! ## Reading line by line -/

theorem afterLine?_newline (cs : List Char) : afterLine? ('\n' :: cs) = some cs := rfl

theorem readStatements_blank (fuel lines : Nat) (o : Outline) (cs : List Char) :
    readStatements fuel (lines + 1) o ('\n' :: cs) = readStatements fuel lines o cs := rfl

/-- A statement is read with the end of its line. -/
theorem readStatements_statement (hc : isSolid c = true)
    (h : readStatement fuel o (c :: cs) = some (o', '\n' :: rest)) (lines : Nat) :
    readStatements fuel (lines + 1) o (c :: cs) = readStatements fuel lines o' rest := by
  have hspecial : (c = '#' || c = '\n' || c = '\r') = false := by
    simp only [isSolid, Bool.and_eq_true, decide_eq_true_eq] at hc
    simp [hc]
  rw [readStatements, skipSpace_solid hc]
  simp only [hspecial, h, Bool.false_eq_true, if_false, Option.bind_some, afterLine?_newline]

/-- Reading a file comes from one outline with one text to others, and each line that was read had
a character. -/
def Advances (fuel : Nat) (o : Outline) (cs : List Char) (o' : Outline) (cs' : List Char) : Prop :=
  ∃ lines, lines + cs'.length ≤ cs.length ∧
    ∀ n, readStatements fuel (n + lines) o cs = readStatements fuel n o' cs'

theorem Advances.refl (fuel : Nat) (o : Outline) (cs : List Char) : Advances fuel o cs o cs :=
  ⟨0, by omega, fun _ => rfl⟩

theorem Advances.trans {o'' : Outline} {cs' cs'' : List Char} (h : Advances fuel o cs o' cs')
    (h' : Advances fuel o' cs' o'' cs'') : Advances fuel o cs o'' cs'' := by
  obtain ⟨lines, hlength, hread⟩ := h
  obtain ⟨lines', hlength', hread'⟩ := h'
  refine ⟨lines' + lines, by omega, fun n => ?_⟩
  rw [← Nat.add_assoc, hread, hread']

theorem advances_blank (fuel : Nat) (o : Outline) (cs : List Char) :
    Advances fuel o ('\n' :: cs) o cs :=
  ⟨1, by rw [List.length_cons]; omega, fun n => readStatements_blank fuel n o cs⟩

theorem advances_statement (hc : isSolid c = true)
    (h : readStatement fuel o (c :: cs ++ '\n' :: rest) = some (o', '\n' :: rest)) :
    Advances fuel o (c :: cs ++ '\n' :: rest) o' rest := by
  refine ⟨1, ?_, fun n => readStatements_statement hc h n⟩
  simp only [List.length_append, List.length_cons]
  omega

/-- A header stands behind an empty line. -/
theorem advances_header {header : List Char}
    (h : readStatement fuel o ('[' :: header ++ '\n' :: rest) = some (o', '\n' :: rest)) :
    Advances fuel o ('\n' :: ('[' :: header ++ '\n' :: rest)) o' rest :=
  (advances_blank fuel o _).trans (advances_statement (by decide) h)

/-- A line with a new key of the open table. -/
theorem advances_line (hkey : IsBare key) (hd : ReadsAs depth d e) (hdepth : depth ≤ maxDepth - 1)
    (hfuel : (write d).length ≤ fuel) (hassign : o.assign? [] key e = some o')
    (rest : List Char) : Advances fuel o (lineOf key d ++ '\n' :: rest) o' rest := by
  have hread := readStatement_line hkey hd hdepth hfuel hassign rest
  obtain ⟨c, tail, hcs, hc⟩ := hkey.exists_cons
  have hline : lineOf key d = c :: (tail ++ " = ".toList ++ write d) := by
    rw [lineOf, hcs, List.cons_append, List.cons_append]
  rw [hline] at hread ⊢
  exact advances_statement (isSolid_of_isBareChar hc) hread

/-- A file that was read to its end gives the outline that was come to. -/
theorem Advances.readStatements (h : Advances fuel o cs o' []) :
    readStatements fuel (cs.length + 1) o cs = some o' := by
  obtain ⟨lines, hlength, hread⟩ := h
  obtain ⟨n, hn⟩ := Nat.exists_eq_add_of_le (show lines + 1 ≤ cs.length + 1 from
    Nat.succ_le_succ hlength)
  rw [hn, show lines + 1 + n = (n + 1) + lines by omega, hread]
  rfl

end VariableRegistry.Toml
