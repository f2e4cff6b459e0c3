/-
# Table files are read back

What a file with a table set is read as depends on its text alone, since the text is stored and read
as UTF-8. A format that reads what it writes therefore gives a saved set back: the words, the texts
and the options as they were, and equal numbers if each number survives its text.
-/
import VariableRegistry.Proofs.TableRecords
import VariableRegistry.Proofs.Utf8Codec
import VariableRegistry.TableFile

namespace VariableRegistry

variable {t u : TableSet} {path : String} {F : Formats} {n : NumberTexts}

/-! ## Paths -/

/-- Whether the name of a file has an extension, in whatever case of its letters. -/
def EndsIn (path extension : String) : Prop :=
  ∃ e, (fileName? path.toList).bind extension? = some e ∧ e.map Char.toLower = extension.toList

/-- Names that end in `toml` are names of files in TOML, all others of files in JSON. -/
theorem TableFormat.ofPath_eq_toml_iff : TableFormat.ofPath path = .toml ↔ EndsIn path "toml" := by
  unfold TableFormat.ofPath EndsIn
  cases (fileName? path.toList).bind extension? with
  | none => simp
  | some e =>
    have hletters : "toml".toList = ['t', 'o', 'm', 'l'] := rfl
    simp [hletters]

theorem TableFormat.ofPath_of_endsIn (h : EndsIn path "toml") : TableFormat.ofPath path = .toml :=
  ofPath_eq_toml_iff.2 h

theorem TableFormat.ofPath_of_not_endsIn (h : ¬ EndsIn path "toml") :
    TableFormat.ofPath path = .json := by
  cases hformat : TableFormat.ofPath path with
  | json => rfl
  | toml => exact absurd (ofPath_eq_toml_iff.1 hformat) h

/-! ## Numbers -/

namespace NumberTexts

/-- All floating point numbers in the templates of a table set survive. -/
structure Survive (n : NumberTexts) (t : TableSet) : Prop where
  single : ∀ x ∈ t.numbers .float, n.survives .float x = true
  double : ∀ x ∈ t.numbers .double, n.survives .double x = true

/-- All floating point numbers in the templates of a table set are read as themselves, bit by
bit. -/
structure Keep (n : NumberTexts) (t : TableSet) : Prop where
  single : ∀ x ∈ t.numbers .float, n.Rereads .float x x
  double : ∀ x ∈ t.numbers .double, n.Rereads .double x x

/-- The number that the text of a number is read as, or the number itself if it has no such text. -/
def reread (n : NumberTexts) (t : NumType) (x : t.Carrier) : t.Carrier := (n.reread? t x).getD x

end NumberTexts

theorem NumberTexts.Rereads.reread_eq {type : NumType} {x y : type.Carrier}
    (h : n.Rereads type x y) : n.reread type x = y := by
  rw [NumberTexts.reread, h, Option.getD_some]

/-- A number that survives is read as an equal one. -/
theorem rereads_of_survives {type : NumType} {x : type.Carrier} (h : n.survives type x = true) :
    n.Rereads type x (n.reread type x) ∧ type.eq (n.reread type x) x = true := by
  obtain ⟨y, hy, heq⟩ := (Option.any_eq_true _ _).1 h
  rw [NumberTexts.Rereads.reread_eq hy]
  exact ⟨hy, heq⟩

theorem NumberTexts.Survive.rereads {f : TextFormat} (hf : f.RoundTrips n) (ht : n.Survive t) :
    ∀ type, ∀ x ∈ t.numbers type,
      n.Rereads type x (n.reread type x) ∧ type.eq (n.reread type x) x = true := by
  intro type x hx
  cases type with
  | int16 =>
    rw [(hf.int16 x).reread_eq]
    exact ⟨hf.int16 x, decide_eq_true rfl⟩
  | int32 =>
    rw [(hf.int32 x).reread_eq]
    exact ⟨hf.int32 x, decide_eq_true rfl⟩
  | float => exact rereads_of_survives (ht.single x hx)
  | double => exact rereads_of_survives (ht.double x hx)

theorem NumberTexts.Keep.reread_eq {f : TextFormat} (hf : f.RoundTrips n) (ht : n.Keep t) :
    ∀ type, ∀ x ∈ t.numbers type, n.reread type x = x := by
  intro type x hx
  cases type with
  | int16 => exact (hf.int16 x).reread_eq
  | int32 => exact (hf.int32 x).reread_eq
  | float => exact (ht.single x hx).reread_eq
  | double => exact (ht.double x hx).reread_eq

/-! ## Files -/

/-- Saving the first set under a path and loading it again gives the second one: from the bytes of
the file, and in every folder that can have a file with this name. -/
structure Restores (F : Formats) (path : String) (t u : TableSet) : Prop where
  file : ∃ bytes, F.toFile t path = .ok bytes ∧ F.ofFile path (some bytes) = .ok u
  folder : ∀ (f : Folder) (name : String), Folder.resolve? path = some name →
    ∃ g, f.save F t path = .ok g ∧ g.load F path = .ok u

/-- What is read from the text of a set is loaded from its file. -/
theorem restores_of_read? {cs : List Char}
    (hwrite : (F.get (.ofPath path)).write? TableSet.shape t.toRecord = some cs)
    (hread : (F.get (.ofPath path)).read? TableSet.shape cs = some u.toRecord)
    (hblob : u.blob.Built) : Restores F path t u := by
  have htext : Utf8.decode? (Utf8.encode cs) = some cs := Utf8.decode?_eq_some_iff.2 rfl
  have hbytes : F.toFile t path = .ok (Utf8.encode cs) := by
    rw [Formats.toFile, Formats.write, hwrite]
    rfl
  have hset : F.read (.ofPath path) cs = .ok u := by
    rw [Formats.read, hread]
    exact congrArg Except.ok (TableSet.ofRecord_toRecord hblob)
  have hload : F.ofFile path (some (Utf8.encode cs)) = .ok u := by
    simp only [Formats.ofFile, Option.bind_some, htext, hset]
    rfl
  refine ⟨⟨_, hbytes, hload⟩, fun f name hname => ?_⟩
  have hwritten : f.write? path (Utf8.encode cs) = some ⟨(name, Utf8.encode cs) :: f.files⟩ := by
    rw [Folder.write?, hname, Option.map_some]
  refine ⟨_, by rw [Folder.save, hbytes, ok_bind, hwritten, demand_some], ?_⟩
  rw [Folder.load, Folder.read?_write? hwritten, hload]

/-- **A set is restored in the format of its path**, with equal numbers in its templates, and as it
was if they are read bit by bit. -/
theorem exists_restores (hf : (F.get (.ofPath path)).RoundTrips n) (hblob : t.blob.Built)
    (ht : n.Survive t) : ∃ u, Restores F path t u ∧ u.same t = true ∧ (n.Keep t → u = t) := by
  obtain ⟨cs, hwrite⟩ := hf.writes _ TableSet.isTabular_shape t.toRecord
  have hagree : TableSet.shape.Agree n.Rereads t.toRecord (t.mapNumbers n.reread).toRecord :=
    TableSet.agree_mapNumbers hf.int16 fun type x hx => (ht.rereads hf type x hx).1
  have hread := hf.reads _ TableSet.isTabular_shape _ _ cs hagree hwrite
  refine ⟨_, restores_of_read? hwrite hread hblob, ?_, fun hkeep => ?_⟩
  · exact TableSet.same_mapNumbers fun type x hx => (ht.rereads hf type x hx).2
  · exact TableSet.mapNumbers_eq_self (hkeep.reread_eq hf)

/-- A set with something of everything: texts that have to be escaped or quoted with care, a text
with a zero character, negative words, and numbers with and without digits behind the point. -/
def TableSet.assorted : TableSet where
  cells := ⟨1, 0, 1, 1⟩
  stringCells := 1
  enumCells := 1
  blob := .ofStrings ["a \"b\" 'c' \\", "two\nlines\t\x01", "", "ü\x00"]
  enumWords := #[0, 1, 3, -7, 0]
  templates := ⟨#[⟨-5, -10, 10⟩], #[], #[⟨⟨0x3dcccccd⟩, ⟨0x80000000⟩, ⟨0x501502f9⟩⟩],
    #[⟨⟨0x3fb999999999999a⟩, ⟨0xc08f400000000000⟩, ⟨0x4202a05f20000000⟩⟩]⟩
  vars := #[⟨0, 0, 0x0101, 1, 0xFFFF, 0, 0, 1, 3⟩]
  policy := .subset

end VariableRegistry
