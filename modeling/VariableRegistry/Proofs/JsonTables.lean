/-
# Table sets in JSON are read back

Whatever is used as JSON: if it reads back what it writes of tabular data, a table set whose blob
was put together text by text is saved and loaded again without any change, as long as the numbers
of its templates survive their texts. The JSON of this library reads back all data whose fields have
keys of their own.
-/
import VariableRegistry.Document.Formats
import VariableRegistry.Proofs.DataDocuments
import VariableRegistry.Proofs.JsonDocuments
import VariableRegistry.Proofs.TableFiles

namespace VariableRegistry

namespace Json

/-- The texts of numbers. Infinities have none and are written as nothing. -/
def numberTexts : NumberTexts := Document.numberTexts (write 0) readNumber

theorem readsLeaves : Document.ReadsLeaves (write 0) readNumber readBack where
  digits n hlow hhigh := readNumber_decimal (by omega) (by omega)
  integer _ := rfl
  text _ := rfl
  single x d hd := by
    have hread : readNumber (writeFloat singleStyle x) = some (d, []) := hd
    rw [readBack, hread]
    rfl
  double x d hd := by
    have hread : readNumber (writeFloat doubleStyle x) = some (d, []) := hd
    rw [readBack, hread]
    rfl

/-- Every leaf of data whose numbers have texts has a text. -/
theorem hasText_of_isLeaf {l : Document} (hl : Document.IsLeaf numberTexts.Rereads l) :
    HasText l := by
  cases hl with
  | integer hlow hhigh => exact ⟨by omega, by omega⟩
  | text x => trivial
  | single h =>
    obtain ⟨d, hd, -⟩ := Document.rereads_iff.1 h
    exact ⟨d, hd⟩
  | double h =>
    obtain ⟨d, hd, -⟩ := Document.rereads_iff.1 h
    exact ⟨d, hd⟩

/-- **The JSON of this library reads back what it writes.** -/
theorem roundTrips_format : format.RoundTrips numberTexts where
  int16 := readsLeaves.rereads_int16
  int32 := readsLeaves.rereads_int32
  writes _ _ _ := ⟨_, rfl⟩
  reads s hs x y cs hagree hwrite := by
    obtain rfl := Option.some.inj hwrite
    have hdocument := read?_write (Document.ofValue s x) fun l hl =>
      hasText_of_isLeaf (Document.isLeaf_ofValue s x y hagree l hl)
    show (read? _).bind _ = _
    rw [hdocument, Option.bind_some]
    exact Document.value?_ofValue readsLeaves.keeps rules s hs.hasKeys x y hagree

end Json

namespace TableSet

/-- **A table set that is saved as JSON is loaded again as it was**: words, texts, bytes of the
blob, templates and options, where all numbers of the templates survive; they are the same bit by
bit if they are read so. Saving fails only where there can be no file with the name. -/
theorem json_file_round_trip {F : Formats} {n : NumberTexts} (hjson : F.json.RoundTrips n)
    {t : TableSet} (hblob : t.blob.Built) (ht : n.Survive t) {path : String}
    (hpath : ¬ EndsIn path "toml") :
    ∃ u, Restores F path t u ∧ u.same t = true ∧ (n.Keep t → u = t) := by
  refine exists_restores ?_ hblob ht
  rw [TableFormat.ofPath_of_not_endsIn hpath]
  exact hjson

theorem json_file_round_trip_assorted :
    Formats.standard.json.RoundTrips Json.numberTexts ∧ assorted.blob.Built ∧
      Json.numberTexts.Survive assorted ∧ ¬ EndsIn "./tables.toml.json" "toml" ∧
      ∃ u, Restores .standard "./tables.toml.json" assorted u ∧ u.same assorted = true ∧
        u = assorted := by
  have hblob : assorted.blob.Built := Blob.built_ofStrings _
  have hnumbers : Json.numberTexts.Survive assorted := ⟨by decide +kernel, by decide +kernel⟩
  have hkeep : Json.numberTexts.Keep assorted := ⟨by decide +kernel, by decide +kernel⟩
  have hpath : ¬ EndsIn "./tables.toml.json" "toml" := by
    rw [← TableFormat.ofPath_eq_toml_iff]
    decide +kernel
  obtain ⟨u, hrestores, hsame, hequal⟩ :=
    json_file_round_trip (F := .standard) Json.roundTrips_format hblob hnumbers hpath
  exact ⟨Json.roundTrips_format, hblob, hnumbers, hpath, u, hrestores, hsame, hequal hkeep⟩

end TableSet

end VariableRegistry
