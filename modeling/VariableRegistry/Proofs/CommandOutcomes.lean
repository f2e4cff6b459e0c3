/-
# The command prints all or nothing

Whatever the formats of files are, the command ends well exactly if the file that is named gives a
registry and every further name is that of a variable. Then it prints one dump for each name, or for
each variable if there is no name; otherwise it prints nothing, wherever the name stands that no
variable has.
-/
import Mathlib.Data.List.Forall2
import VariableRegistry.CommandLine
import VariableRegistry.Proofs.Acceptance
import VariableRegistry.Proofs.DirectoryReading
import VariableRegistry.Proofs.JsonTables
import VariableRegistry.Proofs.Soundness

namespace VariableRegistry

variable {ε α β : Type}

/-! ## Steps that may fail -/

/-- A step for each item of a list gives a list of results. -/
theorem mapM_eq_ok_iff {f : α → Except ε β} {xs : List α} {ys : List β} :
    xs.mapM f = .ok ys ↔ List.Forall₂ (fun x y => f x = .ok y) xs ys := by
  induction xs generalizing ys with
  | nil =>
    rw [List.mapM_nil, pure_eq_ok, List.forall₂_nil_left_iff, eq_comm]
  | cons x xs ih =>
    simp only [List.mapM_cons, bind_eq_ok, pure_eq_ok, ih, List.forall₂_cons_left_iff]
    constructor
    · rintro ⟨y, hy, ys, hys, rfl⟩
      exact ⟨y, ys, hy, hys, rfl⟩
    · rintro ⟨y, ys, hy, hys, rfl⟩
      exact ⟨y, hy, ys, hys, rfl⟩

/-- A step for each item of a list succeeds if it does for every single one. -/
theorem exists_mapM_eq_ok_iff {f : α → Except ε β} {xs : List α} :
    (∃ ys, xs.mapM f = .ok ys) ↔ ∀ x ∈ xs, ∃ y, f x = .ok y := by
  simp only [mapM_eq_ok_iff]
  induction xs with
  | nil => simp
  | cons x xs ih =>
    rw [List.forall_mem_cons, ← ih]
    simp only [List.forall₂_cons_left_iff]
    constructor
    · rintro ⟨_, y, ys, hy, hys, rfl⟩
      exact ⟨⟨y, hy⟩, ys, hys⟩
    · rintro ⟨⟨y, hy⟩, ys, hys⟩
      exact ⟨_, y, ys, hy, hys, rfl⟩

/-! ## Files -/

/-- The bytes of a file give a table set: they are a text, which is read as TOML where the path
ends so and as JSON otherwise. -/
def Loads (F : Formats) (path : String) (bytes? : Option (List UInt8)) (t : TableSet) : Prop :=
  ∃ cs, bytes? = some (Utf8.encode cs) ∧
    (EndsIn path "toml" → (F.toml.read? TableSet.shape cs).map TableSet.ofRecord = some t) ∧
    (¬EndsIn path "toml" → (F.json.read? TableSet.shape cs).map TableSet.ofRecord = some t)

variable {F : Formats}

theorem Formats.read_eq_ok_iff {format : TableFormat} {cs : List Char} {t : TableSet} :
    F.read format cs = .ok t ↔
      ((F.get format).read? TableSet.shape cs).map TableSet.ofRecord = some t := by
  unfold Formats.read
  cases (F.get format).read? TableSet.shape cs <;> simp

/-- The path alone settles how the text of a file is read. -/
theorem Formats.read_ofPath_iff {path : String} {cs : List Char} {t : TableSet} :
    F.read (.ofPath path) cs = .ok t ↔
      (EndsIn path "toml" → (F.toml.read? TableSet.shape cs).map TableSet.ofRecord = some t) ∧
        (¬EndsIn path "toml" →
          (F.json.read? TableSet.shape cs).map TableSet.ofRecord = some t) := by
  rw [Formats.read_eq_ok_iff]
  by_cases h : EndsIn path "toml"
  · rw [TableFormat.ofPath_of_endsIn h]
    exact ⟨fun hread => ⟨fun _ => hread, fun hnot => absurd h hnot⟩, fun hread => hread.1 h⟩
  · rw [TableFormat.ofPath_of_not_endsIn h]
    exact ⟨fun hread => ⟨fun hends => absurd hends h, fun _ => hread⟩, fun hread => hread.2 h⟩

theorem ofFile_eq_ok_iff {path : String} {bytes? : Option (List UInt8)} {t : TableSet} :
    F.ofFile path bytes? = .ok t ↔ Loads F path bytes? t := by
  have htext : ∀ cs, bytes?.bind Utf8.decode? = some cs ↔ bytes? = some (Utf8.encode cs) := by
    intro cs
    simp only [Option.bind_eq_some_iff, Utf8.decode?_eq_some_iff, exists_eq_right]
  unfold Formats.ofFile Loads
  simp only [← htext, ← Formats.read_ofPath_iff]
  cases bytes?.bind Utf8.decode? with
  | none => simp
  | some cs => simp [mapError_eq_ok]

/-! ## Names -/

namespace Registry

/-- Some variable has a name. -/
def Shows (r : Registry) (name : String) : Prop :=
  ∃ d ∈ r.directory.vars.toList, d.name = some name

/-- A handle is that of the first variable with a name. -/
def FirstNamed (r : Registry) (name : String) (h : Handle) : Prop :=
  ∃ d, r.directory.vars[h.index]? = some d ∧ d.name = some name ∧
    ∀ (i : Nat) (e : Descriptor), i < h.index → r.directory.vars[i]? = some e →
      e.name ≠ some name

/-- The variables that are dumped for some names: for each name the first one that has it, or all
of them in order if there is no name. -/
def Selects (r : Registry) (names : List String) (hs : List Handle) : Prop :=
  (names = [] → hs.map Handle.index = List.range r.directory.vars.size) ∧
    (names ≠ [] → List.Forall₂ r.FirstNamed names hs)

variable {t : TableSet} {r : Registry} {name : String} {names : List String} {h : Handle}
  {hs : List Handle}

/-- The handle of a variable is its position. -/
theorem index_of_directory {d : Directory} (hd : t.directory = .ok d) {i : Nat} {v : Descriptor}
    (hv : d.vars[i]? = some v) : v.handle.index = i := by
  obtain ⟨hsize, hread⟩ := TableSet.readFrom_of_directory hd
  obtain ⟨hi, -⟩ := Array.getElem?_eq_some_iff.1 hv
  obtain ⟨w, hw, type, pool, pool', hone, -⟩ :=
    hread i _ (Array.getElem?_eq_getElem (hsize ▸ hi))
  obtain rfl := Option.some.inj (hv.symm.trans hw)
  rw [hone.handle]
  exact hone.position

/-- All variables have a handle. -/
theorem index_handles {d : Directory} (hd : t.directory = .ok d) :
    d.handles.map Handle.index = List.range d.vars.size := by
  obtain ⟨hlt, -⟩ := TableSet.directory_eq_ok.1 hd
  obtain ⟨hsize, -⟩ := TableSet.readFrom_of_directory hd
  have hround : ∀ i ∈ List.range d.vars.size, (Handle.mk (UInt16.ofNat i)).index = id i := by
    intro i hi
    rw [List.mem_range, hsize] at hi
    exact UInt16.toNat_ofNat_of_lt' (Nat.lt_trans (Nat.lt_trans hi hlt) (by decide))
  rw [Directory.handles, List.map_map]
  exact (List.map_congr_left hround).trans (List.map_id _)

theorem isSome_find?_iff : (r.find? name).isSome ↔ r.Shows name := by
  simp only [find?, Shows, Option.isSome_map, Array.find?_isSome, decide_eq_true_eq,
    Array.mem_toList_iff]

/-- The handle that is found for a name is that of the first variable with it. -/
theorem firstNamed_of_find? (hr : r.Belongs t) (hfind : r.find? name = some h) :
    r.FirstNamed name h := by
  obtain ⟨d, hd, rfl⟩ := Option.map_eq_some_iff.1 hfind
  obtain ⟨hname, i, hi, rfl, hbefore⟩ := Array.find?_eq_some_iff_getElem.1 hd
  have hv := Array.getElem?_eq_getElem hi
  have hindex := index_of_directory hr.directory hv
  refine ⟨r.directory.vars[i], by rw [hindex, hv], of_decide_eq_true hname, ?_⟩
  intro j e hj he
  rw [hindex] at hj
  obtain ⟨_, rfl⟩ := Array.getElem?_eq_some_iff.1 he
  simpa using hbefore j hj

end Registry

/-! ## The command -/

namespace CommandLine

variable {t : TableSet} {r : Registry} {names : List String} {hs : List Handle}
  {args : List String} {bytes? : Option (List UInt8)}

/-- The arguments of a command name a file that gives a registry, and then some names. -/
def Opens (F : Formats) (args : List String) (bytes? : Option (List UInt8)) (r : Registry)
    (names : List String) : Prop :=
  ∃ path t, args = path :: names ∧ Loads F path bytes? t ∧ Registry.init t = .ok r

theorem resolve_eq_ok_iff {name : String} {h : Handle} :
    resolve r name = .ok h ↔ r.find? name = some h := by
  unfold resolve
  cases r.find? name <;> simp

/-- Handles are selected if there is a variable for each name. -/
theorem exists_selection_iff :
    (∃ hs, selection r names = .ok hs) ↔ ∀ name ∈ names, r.Shows name := by
  cases names with
  | nil => simp [selection]
  | cons name names =>
    rw [selection, exists_mapM_eq_ok_iff]
    · simp only [resolve_eq_ok_iff, ← Option.isSome_iff_exists, Registry.isSome_find?_iff]
    · simp

theorem selects_of_selection (hr : r.Belongs t) (h : selection r names = .ok hs) :
    r.Selects names hs := by
  cases names with
  | nil =>
    cases h
    exact ⟨fun _ => Registry.index_handles hr.directory, fun hne => absurd rfl hne⟩
  | cons name names =>
    refine ⟨fun hnil => absurd hnil (List.cons_ne_nil _ _), fun _ => ?_⟩
    rw [selection, mapM_eq_ok_iff] at h
    · exact h.imp fun name h hresolve =>
        Registry.firstNamed_of_find? hr (resolve_eq_ok_iff.1 hresolve)
    · simp

/-- A text is printed if there is a registry and a variable for each name. -/
theorem output_eq_ok_iff {text : String} :
    output F bytes? args = .ok text ↔
      ∃ r names hs, Opens F args bytes? r names ∧ selection r names = .ok hs ∧
        text = r.dumpAll hs := by
  cases args with
  | nil => simp [output, Opens]
  | cons path names =>
    simp only [output, bind_eq_ok, pure_eq_ok, mapError_eq_ok, ofFile_eq_ok_iff, Opens,
      List.cons.injEq]
    constructor
    · rintro ⟨t, hload, r, hinit, hs, hselection, rfl⟩
      exact ⟨r, names, hs, ⟨path, t, ⟨rfl, rfl⟩, hload, hinit⟩, hselection, rfl⟩
    · rintro ⟨r, _, hs, ⟨_, t, ⟨rfl, rfl⟩, hload, hinit⟩, hselection, rfl⟩
      exact ⟨t, hload, r, hinit, hs, hselection, rfl⟩

/-- **The command prints all or nothing**, in whatever formats files are read. If the first argument
names a file that gives a table set, a registry begins with this set, and every further argument is
the name of some variable, the command ends with the code 0 and prints the dumps of the variables
one after another: for each name, in order and as often as it is there, the first variable that has
it, or all variables in their order if there is no name. In every other case it ends with the code 1
and prints nothing. -/
theorem command_prints_all_or_nothing (F : Formats) (args : List String)
    (bytes? : Option (List UInt8)) :
    (∀ r names, Opens F args bytes? r names → (∀ name ∈ names, r.Shows name) →
      ∃ hs, r.Selects names hs ∧ (run F args bytes?).exitCode = 0 ∧
        (run F args bytes?).output = String.join (hs.map r.dump)) ∧
    ((¬∃ r names, Opens F args bytes? r names ∧ ∀ name ∈ names, r.Shows name) →
      (run F args bytes?).exitCode = 1 ∧ (run F args bytes?).output = "") := by
  constructor
  · intro r names hopens hshows
    obtain ⟨hs, hselection⟩ := exists_selection_iff.2 hshows
    have houtput := output_eq_ok_iff.2 ⟨r, names, hs, hopens, hselection, rfl⟩
    obtain ⟨_, t, -, -, hinit⟩ := hopens
    refine ⟨hs, selects_of_selection (Registry.belongs_of_init hinit) hselection, ?_, ?_⟩
    · rw [run, houtput]
    · rw [run, houtput]
      rfl
  · intro hnone
    cases houtput : output F bytes? args with
    | ok text =>
      obtain ⟨r, names, hs, hopens, hselection, -⟩ := output_eq_ok_iff.1 houtput
      exact absurd ⟨r, names, hopens, exists_selection_iff.1 ⟨hs, hselection⟩⟩ hnone
    | error failure =>
      rw [run, houtput]
      exact ⟨rfl, rfl⟩

/-- The vector of the sample is named twice. -/
theorem sample_vector_printed_twice : ∃ bytes r,
    Formats.standard.toFile .sample "t.json" = .ok bytes ∧
    Opens .standard ["t.json", "on", "on"] (some bytes) r ["on", "on"] ∧
    (∀ name ∈ ["on", "on"], r.Shows name) ∧
    ∃ hs, r.Selects ["on", "on"] hs ∧
      (run .standard ["t.json", "on", "on"] (some bytes)).exitCode = 0 ∧
      (run .standard ["t.json", "on", "on"] (some bytes)).output =
        String.join (hs.map r.dump) := by
  have hnumbers : Json.numberTexts.Survive .sample := ⟨by decide +kernel, by decide +kernel⟩
  have hkeep : Json.numberTexts.Keep .sample := ⟨by decide +kernel, by decide +kernel⟩
  have hjson : (Formats.standard.get (.ofPath "t.json")).RoundTrips Json.numberTexts := by
    have hformat : TableFormat.ofPath "t.json" = .json := by decide +kernel
    rw [hformat]
    exact Json.roundTrips_format
  obtain ⟨_, ⟨⟨bytes, hbytes, hload⟩, -⟩, -, hequal⟩ :=
    exists_restores hjson (Blob.built_ofStrings _) hnumbers
  rw [hequal hkeep] at hload
  have hfound : ((Registry.init .sample).toOption.map fun r => (r.find? "on").isSome) =
      some true := by
    decide +kernel
  obtain ⟨r, hr, hon⟩ := Option.map_eq_some_iff.1 hfound
  have hopens : Opens .standard ["t.json", "on", "on"] (some bytes) r ["on", "on"] :=
    ⟨_, _, rfl, ofFile_eq_ok_iff.1 hload, toOption_eq_some.1 hr⟩
  have hshows : ∀ name ∈ ["on", "on"], r.Shows name := by
    simpa using Registry.isSome_find?_iff.1 hon
  exact ⟨bytes, r, hbytes, hopens, hshows, (command_prints_all_or_nothing .standard
    ["t.json", "on", "on"] (some bytes)).1 r ["on", "on"] hopens hshows⟩

end CommandLine

end VariableRegistry
