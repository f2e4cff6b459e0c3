/-
# Documents in TOML are read back

The plain values of a document are lines of the table that is open at first; every other field is a
section of its own, one table for a record and one table for each record of a list. What was read
so far stays in front of the table that is open, so that each section adds one entry behind the
others.
-/
import Mathlib.Data.List.Nodup
import VariableRegistry.Proofs.DocumentLeaves
import VariableRegistry.Proofs.TomlLines

namespace VariableRegistry.Toml

variable {rest : List Char} {fuel : Nat} {key : String} {pre entries : Entries}
  {fields : List (String × Document)} {f : Document → Document}

/-! ## Trees -/

/-- A key that stands behind other ones is looked for there. -/
theorem alter?_append (hkey : key ∉ pre.map Prod.fst) (change : Option Node → Option Node)
    (entries : Entries) :
    alter? key change (pre ++ entries) = (alter? key change entries).map (pre ++ ·) := by
  induction pre with
  | nil => exact Option.map_id'.symm
  | cons entry pre ih =>
    obtain ⟨k, node⟩ := entry
    rw [List.map_cons, List.mem_cons, not_or] at hkey
    rw [List.cons_append, alter?, if_neg (Ne.symm hkey.1), ih hkey.2, Option.map_map]
    rfl

theorem alter?_fresh (hkey : key ∉ pre.map Prod.fst) (change : Option Node → Option Node) :
    alter? key change pre = (change none).map fun node => pre ++ [(key, node)] := by
  have happend := alter?_append hkey change []
  rwa [List.append_nil, alter?, Option.map_map] at happend

theorem alter?_last (hkey : key ∉ pre.map Prod.fst) (change : Option Node → Option Node)
    (node : Node) :
    alter? key change (pre ++ [(key, node)]) =
      (change (some node)).map fun node => pre ++ [(key, node)] := by
  rw [alter?_append hkey, alter?, if_pos rfl, Option.map_map]
  rfl

theorem fieldsOf_append (pre entries : Entries) :
    fieldsOf (pre ++ entries) = fieldsOf pre ++ fieldsOf entries := by
  induction pre with
  | nil => rfl
  | cons entry pre ih =>
    obtain ⟨k, node⟩ := entry
    rw [List.cons_append, fieldsOf, fieldsOf, ih, List.cons_append]

/-- Where keys are all different, the next ones are new behind an entry with the first one. -/
theorem not_mem_keys_append {field : String × Document}
    (hnodup : ((field :: fields).map Prod.fst).Nodup)
    (hnew : ∀ other ∈ field :: fields, other.1 ∉ pre.map Prod.fst) (node : Node) :
    ∀ other ∈ fields, other.1 ∉ (pre ++ [(field.1, node)]).map Prod.fst := by
  intro other hother
  have hold := hnew other (List.mem_cons_of_mem _ hother)
  have hne : other.1 ≠ field.1 := by
    intro hsame
    exact (List.nodup_cons.1 hnodup).1 (List.mem_map.2 ⟨other, hother, hsame⟩)
  simp [hold, hne]

/-- The entries that lines with some values leave. -/
def valuesOf (fields : List (String × Document)) : Entries :=
  fields.map fun field => (field.1, .value field.2)

theorem fieldsOf_valuesOf (fields : List (String × Document)) :
    fieldsOf (valuesOf fields) = fields := by
  induction fields with
  | nil => rfl
  | cons field fields ih =>
    show (field.1, field.2) :: fieldsOf (valuesOf fields) = field :: fields
    rw [ih]

/-! ## Open tables -/

/-- An outline as a function of the entries of its open table: a line with a new key adds an entry
to the table and changes nothing else. -/
def Opens (table : Entries → Outline) : Prop :=
  ∀ (entries : Entries) (key : String) (d : Document), key ∉ entries.map Prod.fst →
    (table entries).assign? [] key d = some (table (entries ++ [(key, .value d)]))

theorem insert?_fresh (hkey : key ∉ entries.map Prod.fst) (d : Document) :
    insert? [] key d entries = some (entries ++ [(key, .value d)]) := by
  have hadd : addValue? key d entries = some (entries ++ [(key, .value d)]) := by
    rw [addValue?, alter?_fresh hkey, Option.map_some]
  have horigin : (Origin.header = .dotted ↔ ([] : List String) ≠ []) := by simp
  rw [insert?, descend?, if_pos horigin, hadd]

theorem opens_root : Opens fun entries => ⟨entries, []⟩ := by
  intro entries key d hkey
  rw [Outline.assign?, descend?, insert?_fresh hkey, Option.map_some]

/-- The last table of an array is open. -/
theorem opens_tables (hkey : key ∉ pre.map Prod.fst) (before : List Entries) :
    Opens fun entries => ⟨pre ++ [(key, .tables (entries :: before))], [key]⟩ := by
  intro entries k d hk
  rw [Outline.assign?, descend?, alter?_last hkey]
  simp only [descend?, insert?_fresh hk, Option.map_some]

/-- The table of a header is open. -/
theorem opens_table (hkey : key ∉ pre.map Prod.fst) :
    Opens fun entries => ⟨pre ++ [(key, .table .header entries)], [key]⟩ := by
  intro entries k d hk
  rw [Outline.assign?, descend?, alter?_last hkey]
  simp only [descend?, insert?_fresh hk, Option.map_some, Bool.false_and, Bool.false_eq_true,
    if_false]

/-! ## Lines -/

/-- Fields that are written as lines: their keys are bare and all different, and their values are
read as others. -/
structure AreLines (f : Document → Document) (fields : List (String × Document)) : Prop where
  bare : ∀ field ∈ fields, IsBare field.1
  nodup : (fields.map Prod.fst).Nodup
  reads : ∀ field ∈ fields, ∃ depth ≤ maxDepth - 1, ReadsAs depth field.2 (f field.2)

theorem AreLines.tail {field : String × Document} (h : AreLines f (field :: fields)) :
    AreLines f fields where
  bare field hfield := h.bare field (List.mem_cons_of_mem _ hfield)
  nodup := (List.nodup_cons.1 h.nodup).2
  reads field hfield := h.reads field (List.mem_cons_of_mem _ hfield)

/-- Fields with their values replaced. -/
def mapValues (f : Document → Document) (fields : List (String × Document)) :
    List (String × Document) :=
  fields.map fun field => (field.1, f field.2)

theorem writeLines_cons (key : String) (d : Document) (fields : List (String × Document))
    (rest : List Char) :
    writeLines ((key, d) :: fields) ++ rest =
      lineOf key d ++ '\n' :: (writeLines fields ++ rest) := by
  simp [writeLines, lineOf]

/-- Lines add their values to the open table one by one. -/
theorem advances_writeLines {table : Entries → Outline} (htable : Opens table)
    (hfields : AreLines f fields) (hnew : ∀ field ∈ fields, field.1 ∉ entries.map Prod.fst)
    (hfuel : (writeLines fields).length ≤ fuel) :
    Advances fuel (table entries) (writeLines fields ++ rest)
      (table (entries ++ valuesOf (mapValues f fields))) rest := by
  induction fields generalizing entries with
  | nil =>
    show Advances fuel (table entries) rest (table (entries ++ [])) rest
    rw [List.append_nil]
    exact Advances.refl fuel _ rest
  | cons field fields ih =>
    obtain ⟨key, d⟩ := field
    obtain ⟨depth, hdepth, hd⟩ : ∃ depth ≤ maxDepth - 1, ReadsAs depth d (f d) :=
      hfields.reads (key, d) List.mem_cons_self
    have hkey : key ∉ entries.map Prod.fst := hnew (key, d) List.mem_cons_self
    have hlength : (write d).length + (writeLines fields).length ≤ fuel := by
      have hcons := congrArg List.length (writeLines_cons key d fields [])
      simp only [List.length_append, List.length_cons, List.length_nil, lineOf] at hcons
      omega
    have hline := advances_line (hfields.bare (key, d) List.mem_cons_self) hd hdepth
      (show (write d).length ≤ fuel by omega)
      (htable entries key (f d) hkey) (writeLines fields ++ rest)
    rw [writeLines_cons]
    refine hline.trans ?_
    have hnext := not_mem_keys_append hfields.nodup hnew (.value (f d))
    have htail := ih hfields.tail hnext (by omega)
    rw [List.append_assoc] at htail
    exact htail

/-! ## Sections -/

/-- Entries with an array of tables behind them, unless there is no table yet; the last one comes
first. -/
def withTables (pre : Entries) (key : String) : List Entries → Entries
  | [] => pre
  | done => pre ++ [(key, .tables done)]

theorem withTables_of_ne_nil {done : List Entries} (hdone : done ≠ []) :
    withTables pre key done = pre ++ [(key, .tables done)] := by
  obtain ⟨entries, done, rfl⟩ := List.exists_cons_of_ne_nil hdone
  rfl

theorem addTable?_withTables (hkey : key ∉ pre.map Prod.fst) (done : List Entries) :
    addTable? [] key (withTables pre key done) = some (pre ++ [(key, .tables ([] :: done))]) := by
  cases done with
  | nil => rw [addTable?, descend?, withTables, alter?_fresh hkey, Option.map_some]
  | cons entries done =>
    have hlast : withTables pre key (entries :: done) =
        pre ++ [(key, .tables (entries :: done))] := rfl
    rw [addTable?, descend?, hlast, alter?_last hkey, Option.map_some]

theorem openTable?_fresh (hkey : key ∉ pre.map Prod.fst) :
    openTable? [] key pre = some (pre ++ [(key, .table .header [])]) := by
  rw [openTable?, descend?, alter?_fresh hkey, Option.map_some]

/-- The entries that the lines of a record leave. -/
def entriesIn (f : Document → Document) (d : Document) : Entries :=
  valuesOf (mapValues f (fieldsIn d))

/-- The text of a record of a list. -/
def writeItem (key : String) (d : Document) : List Char :=
  "\n[[".toList ++ key.toList ++ "]]\n".toList ++ writeLines (fieldsIn d)

variable {path : List String} {d : Document}

/-- A record of a list adds a table to the array. -/
theorem advances_writeItem (hbare : IsBare key) (hkey : key ∉ pre.map Prod.fst)
    (hlines : AreLines f (fieldsIn d)) (hfuel : (writeItem key d).length ≤ fuel)
    (done : List Entries) :
    Advances fuel ⟨withTables pre key done, path⟩ (writeItem key d ++ rest)
      ⟨withTables pre key (entriesIn f d :: done), [key]⟩ rest := by
  have hadd : Outline.addTable? ⟨withTables pre key done, path⟩ [] key =
      some ⟨pre ++ [(key, .tables ([] :: done))], [key]⟩ := by
    rw [Outline.addTable?, addTable?_withTables hkey, Option.map_some]
    rfl
  have hheader : readStatement fuel _ _ = some (_, '\n' :: (writeLines (fieldsIn d) ++ rest)) :=
    readStatement_addTable hbare hadd _
  have hshort : (writeLines (fieldsIn d)).length ≤ fuel := by
    simp only [writeItem, List.length_append] at hfuel
    omega
  have hread : Advances fuel ⟨pre ++ [(key, .tables ([] :: done))], [key]⟩
      (writeLines (fieldsIn d) ++ rest)
      ⟨withTables pre key (entriesIn f d :: done), [key]⟩ rest :=
    advances_writeLines (opens_tables hkey done) hlines (fun _ _ => List.not_mem_nil) hshort
  have htext : writeItem key d ++ rest = '\n' :: ('[' :: ('[' :: key.toList ++ "]]".toList) ++
      '\n' :: (writeLines (fieldsIn d) ++ rest)) := by
    simp [writeItem]
  rw [htext]
  exact (advances_header hheader).trans hread

/-- The records of a list add their tables to the array one by one. -/
theorem advances_writeItems (hbare : IsBare key) (hkey : key ∉ pre.map Prod.fst)
    {items : List Document} (hitems : ∀ d ∈ items, AreLines f (fieldsIn d))
    (hfuel : (items.flatMap (writeItem key)).length ≤ fuel) (done : List Entries)
    (path : List String) (rest : List Char) :
    ∃ path', Advances fuel ⟨withTables pre key done, path⟩ (items.flatMap (writeItem key) ++ rest)
      ⟨withTables pre key ((items.map (entriesIn f)).reverse ++ done), path'⟩ rest := by
  induction items generalizing done path with
  | nil => exact ⟨path, Advances.refl fuel _ rest⟩
  | cons d items ih =>
    obtain ⟨hd, hitems⟩ := List.forall_mem_cons.1 hitems
    rw [List.flatMap_cons, List.length_append] at hfuel
    obtain ⟨path', hnext⟩ := ih hitems (by omega) (entriesIn f d :: done) [key]
    refine ⟨path', ?_⟩
    rw [List.flatMap_cons, List.append_assoc, List.map_cons, List.reverse_cons, List.append_assoc]
    exact (advances_writeItem hbare hkey hd (by omega) done).trans hnext

theorem recordsOf_eq (items : List Entries) :
    recordsOf items = items.map fun entries => .record (fieldsOf entries) := by
  induction items with
  | nil => rfl
  | cons entries items ih => rw [recordsOf, ih, List.map_cons]

/-- What is written as a section: a record of lines, or a list of such records with at least one. -/
inductive IsSection (f : Document → Document) : Document → Prop
  | record {fields : List (String × Document)} (h : AreLines (Document.mapLeaves f) fields) :
      IsSection f (.record fields)
  | list {items : List Document} (hne : items ≠ [])
      (hrecords : ∀ d ∈ items, isRecord d = true)
      (h : ∀ d ∈ items, AreLines (Document.mapLeaves f) (fieldsIn d)) : IsSection f (.list items)

/-- A record opens a table for its lines. -/
theorem advances_writeRecord (hbare : IsBare key) (hkey : key ∉ pre.map Prod.fst)
    (hlines : AreLines f fields) (hfuel : (writeSection (key, .record fields)).length ≤ fuel) :
    Advances fuel ⟨pre, path⟩ (writeSection (key, .record fields) ++ rest)
      ⟨pre ++ [(key, .table .header (valuesOf (mapValues f fields)))], [key]⟩ rest := by
  have hopen : Outline.openTable? ⟨pre, path⟩ [] key =
      some ⟨pre ++ [(key, .table .header [])], [key]⟩ := by
    rw [Outline.openTable?, openTable?_fresh hkey, Option.map_some]
    rfl
  have hheader : readStatement fuel _ _ = some (_, '\n' :: (writeLines fields ++ rest)) :=
    readStatement_openTable hbare hopen _
  have hshort : (writeLines fields).length ≤ fuel := by
    simp only [writeSection, fieldsIn, List.length_append] at hfuel
    omega
  have hread : Advances fuel ⟨pre ++ [(key, .table .header [])], [key]⟩
      (writeLines fields ++ rest)
      ⟨pre ++ [(key, .table .header (valuesOf (mapValues f fields)))], [key]⟩ rest :=
    advances_writeLines (opens_table hkey) hlines (fun _ _ => List.not_mem_nil) hshort
  have htext : writeSection (key, .record fields) ++ rest =
      '\n' :: ('[' :: (key.toList ++ "]".toList) ++ '\n' :: (writeLines fields ++ rest)) := by
    simp [writeSection, fieldsIn]
  rw [htext]
  exact (advances_header hheader).trans hread

theorem mapLeaves_of_isRecord {d : Document} (hd : isRecord d = true) :
    d.mapLeaves f = .record (mapValues (Document.mapLeaves f) (fieldsIn d)) := by
  cases d with
  | record fields => exact Document.mapLeaves_record f fields
  | _ => cases hd

/-- A section adds one entry, which stands for what its value is read as. -/
theorem advances_writeSection (hbare : IsBare key) (hkey : key ∉ pre.map Prod.fst)
    (hd : IsSection f d) (hfuel : (writeSection (key, d)).length ≤ fuel) (path : List String)
    (rest : List Char) :
    ∃ path' node, Advances fuel ⟨pre, path⟩ (writeSection (key, d) ++ rest)
      ⟨pre ++ [(key, node)], path'⟩ rest ∧ node.toDocument = d.mapLeaves f := by
  cases hd with
  | @record fields h =>
    refine ⟨_, _, advances_writeRecord hbare hkey h hfuel, ?_⟩
    rw [Node.toDocument, fieldsOf_valuesOf, Document.mapLeaves_record]
    rfl
  | @list items hne hrecords h =>
    obtain ⟨path', hread⟩ := advances_writeItems hbare hkey h hfuel [] path rest
    have hsome : (items.map (entriesIn (Document.mapLeaves f))).reverse ≠ [] := by simpa using hne
    rw [List.append_nil, withTables_of_ne_nil hsome] at hread
    refine ⟨path', _, hread, ?_⟩
    rw [Node.toDocument, recordsOf_eq, List.map_reverse, List.reverse_reverse, List.map_map,
      Document.mapLeaves_list]
    refine congrArg Document.list (List.map_congr_left fun d hd => ?_)
    rw [mapLeaves_of_isRecord (hrecords d hd), Function.comp_apply, entriesIn, fieldsOf_valuesOf]

/-! ## Documents -/

/-- Sections add their entries one by one behind those of the lines. -/
theorem advances_writeSections (hbare : ∀ field ∈ fields, IsBare field.1)
    (hnodup : (fields.map Prod.fst).Nodup) (hnew : ∀ field ∈ fields, field.1 ∉ pre.map Prod.fst)
    (hsections : ∀ field ∈ fields, IsSection f field.2)
    (hfuel : (fields.flatMap writeSection).length ≤ fuel) (path : List String)
    (rest : List Char) :
    ∃ path' added, Advances fuel ⟨pre, path⟩ (fields.flatMap writeSection ++ rest)
      ⟨pre ++ added, path'⟩ rest ∧ fieldsOf added = mapValues (Document.mapLeaves f) fields := by
  induction fields generalizing pre path with
  | nil =>
    refine ⟨path, [], ?_, rfl⟩
    rw [List.append_nil]
    exact Advances.refl fuel _ rest
  | cons field fields ih =>
    obtain ⟨key, d⟩ := field
    rw [List.flatMap_cons, List.length_append] at hfuel
    have hkey : key ∉ pre.map Prod.fst := hnew (key, d) List.mem_cons_self
    have hbare' : IsBare key := hbare (key, d) List.mem_cons_self
    have hsection : IsSection f d := hsections (key, d) List.mem_cons_self
    obtain ⟨path₁, node, hread, hnode⟩ := advances_writeSection hbare' hkey hsection
      (show (writeSection (key, d)).length ≤ fuel by omega) path
      (fields.flatMap writeSection ++ rest)
    obtain ⟨path₂, added, htail, hadded⟩ := ih
      (fun field hfield => hbare field (List.mem_cons_of_mem _ hfield)) (List.nodup_cons.1 hnodup).2
      (not_mem_keys_append hnodup hnew node)
      (fun field hfield => hsections field (List.mem_cons_of_mem _ hfield)) (by omega) path₁
    refine ⟨path₂, (key, node) :: added, ?_, ?_⟩
    · rw [List.flatMap_cons, List.append_assoc]
      rw [List.append_assoc] at htail
      exact hread.trans htail
    · rw [fieldsOf, hnode, hadded]
      rfl

/-- What begins with no mark of a byte order is read whole. -/
theorem dropByteOrderMark_of_stops {cs : List Char} (h : Stops (· = '\ufeff') cs) :
    dropByteOrderMark cs = cs := by
  cases cs with
  | nil => rfl
  | cons c cs => rw [dropByteOrderMark, if_neg (of_decide_eq_false (stops_cons.1 h))]

/-- A document begins with the first character of a key or with an empty line. -/
theorem stops_writeLines_writeSections {plain headed : List (String × Document)}
    (hbare : ∀ field ∈ plain, IsBare field.1) (hsections : ∀ field ∈ headed, IsSection f field.2) :
    Stops (· = '\ufeff') (writeLines plain ++ headed.flatMap writeSection) := by
  rcases plain with - | ⟨⟨key, d⟩, plain⟩
  · rcases headed with - | ⟨⟨key, d⟩, headed⟩
    · exact stops_nil _
    · have hsection : IsSection f d := hsections (key, d) List.mem_cons_self
      cases hsection with
      | record => exact stops_cons.2 (by decide)
      | @list items hne =>
        obtain ⟨item, items, rfl⟩ := List.exists_cons_of_ne_nil hne
        exact stops_cons.2 (by decide)
  · obtain ⟨c, tail, hcs, hc⟩ := (hbare (key, d) List.mem_cons_self).exists_cons
    rw [writeLines_cons, lineOf, hcs]
    exact stops_cons.2 (decide_eq_false (ne_of_kind hc (by decide)))

/-- Lines with sections behind them are read as the record of both. -/
theorem read?_lines_sections {plain headed : List (String × Document)}
    (hlines : AreLines (Document.mapLeaves f) plain) (hbare : ∀ field ∈ headed, IsBare field.1)
    (hnodup : (headed.map Prod.fst).Nodup) (hnew : ∀ field ∈ headed, field.1 ∉ plain.map Prod.fst)
    (hsections : ∀ field ∈ headed, IsSection f field.2) :
    read? (writeLines plain ++ headed.flatMap writeSection) =
      some (.record (mapValues (Document.mapLeaves f) (plain ++ headed))) := by
  set text := writeLines plain ++ headed.flatMap writeSection with htext
  set entries := valuesOf (mapValues (Document.mapLeaves f) plain) with hentries
  have hmark : dropByteOrderMark text = text :=
    dropByteOrderMark_of_stops (stops_writeLines_writeSections hlines.bare hsections)
  have hlength : text.length =
      (writeLines plain).length + (headed.flatMap writeSection).length := by
    rw [htext, List.length_append]
  have hfirst : Advances (2 * text.length + 2) .empty text ⟨entries, []⟩
      (headed.flatMap writeSection) :=
    advances_writeLines opens_root hlines (fun _ _ => List.not_mem_nil) (by omega)
  have hkeys : entries.map Prod.fst = plain.map Prod.fst := by
    simp [hentries, valuesOf, mapValues, Function.comp_def]
  obtain ⟨path, added, hsecond, hadded⟩ := advances_writeSections hbare hnodup (hkeys ▸ hnew)
    hsections (show _ ≤ 2 * text.length + 2 by omega) [] []
  rw [List.append_nil] at hsecond
  rw [read?, hmark, (hfirst.trans hsecond).readStatements, Option.map_some, Outline.toDocument,
    fieldsOf_append, hentries, fieldsOf_valuesOf, hadded, mapValues, mapValues, mapValues,
    List.map_append]

/-- A line and a section with one key would be the same field. -/
theorem not_mem_keys_of_hasHeader (hnodup : (fields.map Prod.fst).Nodup) :
    ∀ field ∈ fields.filter hasHeader,
      field.1 ∉ (fields.filter fun field => !hasHeader field).map Prod.fst := by
  intro field hfield hmem
  obtain ⟨other, hother, hsame⟩ := List.mem_map.1 hmem
  obtain ⟨hfield, hheader⟩ := List.mem_filter.1 hfield
  obtain ⟨hother, hline⟩ := List.mem_filter.1 hother
  rw [List.inj_on_of_nodup_map hnodup hother hfield hsame, hheader] at hline
  cases hline

/-- A field that can be written: as a line, or as a section if it has headers of its own. -/
structure IsEntry (f : Document → Document) (field : String × Document) : Prop where
  bare : IsBare field.1
  line : hasHeader field = false →
    ∃ depth ≤ maxDepth - 1, ReadsAs depth field.2 (field.2.mapLeaves f)
  headed : hasHeader field = true → IsSection f field.2

/-- **A document is read as the one that has its leaves read**, with its lines in front of its
sections. -/
theorem read?_writeDocument (hnodup : (fields.map Prod.fst).Nodup)
    (hentries : ∀ field ∈ fields, IsEntry f field) :
    read? (writeDocument fields) = some (.record (mapValues (Document.mapLeaves f)
      (fields.filter (fun field => !hasHeader field) ++ fields.filter hasHeader))) := by
  have hkeys (p : String × Document → Bool) : ((fields.filter p).map Prod.fst).Nodup :=
    (List.filter_sublist.map Prod.fst).nodup hnodup
  have hplain : AreLines (Document.mapLeaves f) (fields.filter fun field => !hasHeader field) := by
    refine ⟨fun field hfield => (hentries field (List.mem_filter.1 hfield).1).bare, hkeys _, ?_⟩
    intro field hfield
    obtain ⟨hmem, hline⟩ := List.mem_filter.1 hfield
    exact (hentries field hmem).line (by simpa using hline)
  have hheaded : ∀ field ∈ fields.filter hasHeader, IsBare field.1 ∧ IsSection f field.2 := by
    intro field hfield
    obtain ⟨hmem, hheader⟩ := List.mem_filter.1 hfield
    exact ⟨(hentries field hmem).bare, (hentries field hmem).headed hheader⟩
  exact read?_lines_sections hplain (fun field hfield => (hheaded field hfield).1) (hkeys _)
    (not_mem_keys_of_hasHeader hnodup) (fun field hfield => (hheaded field hfield).2)

end VariableRegistry.Toml
