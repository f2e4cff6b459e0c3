/-
# Table sets in TOML are read back

Whatever is used as TOML: if it reads back what it writes of tabular data, a table set whose blob
was put together text by text is saved and loaded again without any change, as long as the numbers
of its templates survive their texts. The TOML of this library reads back tabular data, its plain
fields as lines and its tables as sections.
-/
import VariableRegistry.Document.Formats
import VariableRegistry.Proofs.DataDocuments
import VariableRegistry.Proofs.TableFiles
import VariableRegistry.Proofs.TomlDocuments

namespace VariableRegistry

namespace Toml

variable {s : Shape} {l : Layout} {d : Document} {key : String}

/-! ## Leaves -/

/-- The texts of numbers. A `FLOAT` is written as a `DOUBLE`. -/
def numberTexts : NumberTexts := Document.numberTexts write readScalar

theorem readsLeaves : Document.ReadsLeaves write readScalar readBack where
  digits n hlow hhigh := readScalar_decimal (by omega) (by omega)
  integer _ := rfl
  text _ := rfl
  single x d hd := by
    have hread : readScalar (writeFloat x.convert) = some (d, []) := hd
    rw [readBack, hread]
    rfl
  double x d hd := by
    have hread : readScalar (writeFloat x) = some (d, []) := hd
    rw [readBack, hread]
    rfl

/-- Every leaf of data whose numbers have texts has a text. -/
theorem hasText_of_isLeaf (hd : Document.IsLeaf numberTexts.Rereads d) : HasText d := by
  cases hd with
  | integer hlow hhigh => exact ⟨by omega, by omega⟩
  | text x => trivial
  | single h =>
    obtain ⟨d, hd, -⟩ := Document.rereads_iff.1 h
    exact ⟨d, hd⟩
  | double h =>
    obtain ⟨d, hd, -⟩ := Document.rereads_iff.1 h
    exact ⟨d, hd⟩

theorem HasText.mapLeaves (hd : HasText d) (f : Document → Document) : d.mapLeaves f = f d := by
  cases d with
  | list items => exact hd.elim
  | record fields => exact hd.elim
  | _ => rfl

theorem HasText.isRecord_eq_false (hd : HasText d) : isRecord d = false := by
  cases d with
  | record fields => exact hd.elim
  | _ => rfl

theorem HasText.readsAs (hd : HasText d) : ReadsAs 0 d (d.mapLeaves readBack) := by
  rw [hd.mapLeaves]
  exact readsAs_readBack hd

theorem HasText.hasHeader_eq_false (hd : HasText d) (key : String) :
    hasHeader (key, d) = false := by
  cases d with
  | list items => exact hd.elim
  | record fields => exact hd.elim
  | _ => rfl

/-! ## Plain data -/

/-- Data of a shape without parts has a text. -/
theorem hasText_of_isScalar (hs : s.isScalar = true) {x y : s.Value}
    (h : s.Agree numberTexts.Rereads x y) : HasText (Document.ofValue s x) := by
  have hleaves : (Document.ofValue s x).leaves = [Document.ofValue s x] := by
    cases s with
    | list item => cases hs
    | record fields => cases hs
    | number t => exact Document.leaves_ofNumber t x
    | _ => rfl
  apply hasText_of_isLeaf
  apply Document.isLeaf_ofValue s x y h
  rw [hleaves]
  exact List.mem_cons_self

/-- A list of data without parts consists of leaves. -/
theorem hasText_of_mem_items {item : Shape} (hs : item.isScalar = true) {xs ys : List item.Value}
    (h : List.Forall₂ (item.Agree numberTexts.Rereads) xs ys) :
    ∀ d ∈ xs.map (Document.ofValue item), HasText d :=
  List.forall_mem_map.2 <| Document.forall_mem_of_forall₂ h fun _ _ hxy =>
    hasText_of_isScalar hs hxy

/-- Plain data is a value of a line. -/
theorem readsAs_of_isPlain (hs : s.isPlain = true) {x y : s.Value}
    (h : s.Agree numberTexts.Rereads x y) : ∃ depth ≤ maxDepth - 1,
      ReadsAs depth (Document.ofValue s x) ((Document.ofValue s x).mapLeaves readBack) := by
  rcases Shape.isPlain_cases hs with hscalar | ⟨item, rfl, hscalar⟩
  · exact ⟨0, Nat.zero_le _, (hasText_of_isScalar hscalar h).readsAs⟩
  · refine ⟨0 + 1, by decide, ?_⟩
    rw [Document.ofValue, Document.mapLeaves_list]
    exact readsAs_list fun d hd => (hasText_of_mem_items hscalar h d hd).readsAs

theorem hasHeader_of_isPlain (hs : s.isPlain = true) {x y : s.Value}
    (h : s.Agree numberTexts.Rereads x y) (key : String) :
    hasHeader (key, Document.ofValue s x) = false := by
  rcases Shape.isPlain_cases hs with hscalar | ⟨item, rfl, hscalar⟩
  · exact (hasText_of_isScalar hscalar h).hasHeader_eq_false key
  · have hitems := hasText_of_mem_items hscalar h
    rw [Document.ofValue]
    cases hcases : List.map (Document.ofValue item) x with
    | nil => rfl
    | cons d items =>
      have hfirst : isRecord d = false :=
        (hitems d (hcases ▸ List.mem_cons_self)).isRecord_eq_false
      simp [hasHeader, hfirst]

/-! ## Tables -/

theorem isBare_of_isName (h : isName key = true) : IsBare key := by
  rw [isName, Bool.and_eq_true, List.all_eq_true] at h
  refine ⟨by simpa using h.1, fun c hc => ?_⟩
  rw [isBareChar, h.2 c hc, Bool.true_or]

/-- The fields of a flat record are lines. -/
theorem areLines_of_isFlat (hl : l.isFlat = true) {x y : l.Values}
    (h : l.Agree numberTexts.Rereads x y) :
    AreLines (Document.mapLeaves readBack) (Document.ofValues l x) where
  bare field hfield := by
    obtain ⟨s, -, -, hentry, -, -⟩ := Document.exists_of_mem_ofValues l x y h field hfield
    exact isBare_of_isName (Layout.isName_of_mem_entries (Layout.isFlat_iff.1 hl).1 hentry)
  nodup := by
    rw [Document.keys_ofValues]
    exact Layout.nodup_of_isNamed (Layout.isFlat_iff.1 hl).1
  reads field hfield := by
    obtain ⟨s, a, b, hentry, hvalue, hagree⟩ :=
      Document.exists_of_mem_ofValues l x y h field hfield
    rw [hvalue]
    exact readsAs_of_isPlain ((Layout.isFlat_iff.1 hl).2 _ hentry) hagree

/-- A record of lines is a section. -/
theorem isEntry_record (hkey : IsBare key) {fields : List (String × Document)}
    (hfields : AreLines (Document.mapLeaves readBack) fields) :
    IsEntry readBack (key, .record fields) where
  bare := hkey
  line hline := by cases hline
  headed _ := .record hfields

/-- A list of records of lines is a section, or a line if it is empty. -/
theorem isEntry_records (hkey : IsBare key) {items : List Document}
    (hrecords : ∀ d ∈ items, isRecord d = true)
    (hitems : ∀ d ∈ items, AreLines (Document.mapLeaves readBack) (fieldsIn d)) :
    IsEntry readBack (key, .list items) where
  bare := hkey
  line hline := by
    cases items with
    | nil =>
      have hempty : ReadsAs (0 + 1) (.list []) (.list ([].map readBack)) :=
        readsAs_list fun d hd => (List.not_mem_nil hd).elim
      exact ⟨1, by decide, hempty⟩
    | cons d items =>
      have hall : (d :: items).all isRecord = true := List.all_eq_true.2 hrecords
      simp [hasHeader, hall] at hline
  headed hheader := by
    refine .list ?_ hrecords hitems
    rintro rfl
    cases hheader

/-- Plain data is an entry without a header. -/
theorem isEntry_of_isPlain (hkey : IsBare key) (hs : s.isPlain = true) {x y : s.Value}
    (h : s.Agree numberTexts.Rereads x y) : IsEntry readBack (key, Document.ofValue s x) where
  bare := hkey
  line _ := readsAs_of_isPlain hs h
  headed hheader := by
    rw [hasHeader_of_isPlain hs h] at hheader
    cases hheader

/-- A table is a section, or a line if it is an empty list. -/
theorem isEntry_of_isTable (hkey : IsBare key) (hs : s.isTable = true) {x y : s.Value}
    (h : s.Agree numberTexts.Rereads x y) : IsEntry readBack (key, Document.ofValue s x) := by
  obtain ⟨l, hl, rfl | rfl⟩ := Shape.isTable_cases hs
  · exact isEntry_record hkey (areLines_of_isFlat hl h)
  · exact isEntry_records hkey (List.forall_mem_map.2 fun _ _ => rfl) <| List.forall_mem_map.2 <|
      Document.forall_mem_of_forall₂ h fun _ _ hxy => areLines_of_isFlat hl hxy

/-! ## Tabular data -/

/-- Every field of tabular data can be written. -/
theorem isEntry_of_mem_ofValues (hl : (Shape.record l).IsTabular) {x y : l.Values}
    (h : l.Agree numberTexts.Rereads x y) :
    ∀ field ∈ Document.ofValues l x, IsEntry readBack field := by
  obtain ⟨hnamed, plain, tables, hentries, hplain, htables⟩ := hl
  rintro ⟨key, d⟩ hfield
  obtain ⟨s, a, b, hentry, rfl, hagree⟩ := Document.exists_of_mem_ofValues l x y h _ hfield
  have hkey : IsBare key := isBare_of_isName (Layout.isName_of_mem_entries hnamed hentry)
  rw [hentries, List.mem_append] at hentry
  rcases hentry with hentry | hentry
  · exact isEntry_of_isPlain hkey (hplain _ hentry) hagree
  · exact isEntry_of_isTable hkey (htables _ hentry) hagree

/-- Tabular data is read as it was written, although its fields stand in another order. -/
theorem read?_writeDocument_ofValues (hl : (Shape.record l).IsTabular) {x y : l.Values}
    (h : l.Agree numberTexts.Rereads x y) :
    format.read? (.record l) (writeDocument (Document.ofValues l x)) = some y := by
  have hnodup : ((Document.ofValues l x).map Prod.fst).Nodup := by
    rw [Document.keys_ofValues]
    exact hl.hasKeys.1
  have hdocument := read?_writeDocument hnodup (isEntry_of_mem_ofValues hl h)
  set fields := (Document.ofValues l x).filter (fun field => !hasHeader field) ++
    (Document.ofValues l x).filter hasHeader with hfields
  have hperm : fields.Perm (Document.ofValues l x) :=
    List.perm_append_comm.trans (List.filter_append_perm hasHeader _)
  have hkeys : ((mapValues (Document.mapLeaves readBack) fields).map Prod.fst).Nodup := by
    rw [mapValues, List.map_map]
    exact (hperm.map Prod.fst).nodup_iff.2 hnodup
  show (read? _).bind _ = _
  rw [hdocument, Option.bind_some, Document.value?, Document.fields?_record hkeys]
  exact Document.values?_ofValues readsLeaves.keeps rules l hl.hasKeys.2 x y h hkeys
    fun field hfield => List.mem_map.2 ⟨field, hperm.mem_iff.2 hfield, rfl⟩

/-- **The TOML of this library reads back what it writes.** -/
theorem roundTrips_format : format.RoundTrips numberTexts where
  int16 := readsLeaves.rereads_int16
  int32 := readsLeaves.rereads_int32
  writes s hs x := by
    obtain ⟨l, rfl⟩ := hs.exists_record
    exact ⟨_, rfl⟩
  reads s hs x y cs hagree hwrite := by
    obtain ⟨l, rfl⟩ := hs.exists_record
    obtain rfl := Option.some.inj hwrite
    exact read?_writeDocument_ofValues hs hagree

end Toml

namespace TableSet

/-- **A table set that is saved as TOML is loaded again as it was.** Saving fails only where there
can be no file with the name. -/
theorem toml_file_round_trip {F : Formats} {n : NumberTexts} (htoml : F.toml.RoundTrips n)
    {t : TableSet} (hblob : t.blob.Built) (ht : n.Survive t) {path : String}
    (hpath : EndsIn path "toml") :
    ∃ u, Restores F path t u ∧ u.same t = true ∧ (n.Keep t → u = t) := by
  refine exists_restores ?_ hblob ht
  rw [TableFormat.ofPath_of_endsIn hpath]
  exact htoml

theorem toml_file_round_trip_assorted :
    Formats.standard.toml.RoundTrips Toml.numberTexts ∧ assorted.blob.Built ∧
      Toml.numberTexts.Survive assorted ∧ EndsIn "./tables.TOML" "toml" ∧
      ∃ u, Restores .standard "./tables.TOML" assorted u ∧ u.same assorted = true ∧
        u = assorted := by
  have hblob : assorted.blob.Built := Blob.built_ofStrings _
  have hnumbers : Toml.numberTexts.Survive assorted := ⟨by decide +kernel, by decide +kernel⟩
  have hkeep : Toml.numberTexts.Keep assorted := ⟨by decide +kernel, by decide +kernel⟩
  have hpath : EndsIn "./tables.TOML" "toml" :=
    TableFormat.ofPath_eq_toml_iff.1 (by decide +kernel)
  obtain ⟨u, hrestores, hsame, hequal⟩ :=
    toml_file_round_trip (F := .standard) Toml.roundTrips_format hblob hnumbers hpath
  exact ⟨Toml.roundTrips_format, hblob, hnumbers, hpath, u, hrestores, hsame, hequal hkeep⟩

end TableSet

end VariableRegistry
