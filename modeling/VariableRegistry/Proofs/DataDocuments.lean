/-
# Data is read back from documents

Data of a shape whose fields have keys of their own is read back from its document. The leaves of
the document may be replaced by others as long as words and texts stay; a number is then read from
what replaces it, and the fields of a record may stand in any order. This holds of every file
format.
-/
import Mathlib.Data.List.Nodup
import VariableRegistry.Document.Data
import VariableRegistry.Proofs.DocumentLeaves
import VariableRegistry.Proofs.TextFormats

namespace VariableRegistry

/-! ## Shapes with keys of their own -/

mutual

/-- No record has a key twice, and no choice a name. -/
def Shape.HasKeys : Shape → Prop
  | .choice first others => (first :: others).Nodup
  | .list item => item.HasKeys
  | .record fields => fields.names.Nodup ∧ fields.HasKeys
  | _ => True

/-- No record in a field has a key twice. -/
def Layout.HasKeys : Layout → Prop
  | .nil => True
  | .field _ _ shape rest => shape.HasKeys ∧ rest.HasKeys

end

theorem Layout.hasKeys_of_entries : {l : Layout} → (∀ e ∈ l.entries, e.2.HasKeys) → l.HasKeys
  | .nil, _ => trivial
  | .field _ _ _ _, h =>
    have hsplit := List.forall_mem_cons.1 h
    ⟨hsplit.1, hasKeys_of_entries hsplit.2⟩

namespace Shape

variable {s : Shape}

theorem hasKeys_of_isScalar (h : s.isScalar = true) : s.HasKeys := by
  cases s with
  | choice first others => exact of_decide_eq_true (p := (first :: others).Nodup) h
  | list item => cases h
  | record fields => cases h
  | _ => trivial

theorem hasKeys_of_isPlain (h : s.isPlain = true) : s.HasKeys := by
  rcases isPlain_cases h with hscalar | ⟨item, rfl, hscalar⟩
  · exact hasKeys_of_isScalar hscalar
  · exact hasKeys_of_isScalar (s := item) hscalar

theorem hasKeys_of_isFlat {l : Layout} (h : l.isFlat = true) : (Shape.record l).HasKeys := by
  obtain ⟨hnamed, hplain⟩ := Layout.isFlat_iff.1 h
  exact ⟨Layout.nodup_of_isNamed hnamed,
    Layout.hasKeys_of_entries fun e he => hasKeys_of_isPlain (hplain e he)⟩

theorem hasKeys_of_isTable (h : s.isTable = true) : s.HasKeys := by
  obtain ⟨l, hl, rfl | rfl⟩ := isTable_cases h
  · exact hasKeys_of_isFlat hl
  · exact hasKeys_of_isFlat (l := l) hl

/-- The fields of a tabular record have keys of their own, in its tables, too. -/
theorem IsTabular.hasKeys (h : s.IsTabular) : s.HasKeys := by
  obtain ⟨l, rfl⟩ := h.exists_record
  obtain ⟨hnamed, plain, tables, hentries, hplain, htables⟩ := h
  refine ⟨Layout.nodup_of_isNamed hnamed, Layout.hasKeys_of_entries ?_⟩
  rw [hentries, List.forall_mem_append]
  exact ⟨fun e he => hasKeys_of_isPlain (hplain e he),
    fun e he => hasKeys_of_isTable (htables e he)⟩

end Shape

namespace Document

variable {r : Rules} {f : Document → Document} {fields : List (String × Document)}
  {key : String} {d : Document} {R : (t : NumType) → t.Carrier → t.Carrier → Prop}

/-! ## Fields -/

/-- A record without a key that stands twice has fields of any names. -/
theorem fields?_record (hkeys : (fields.map Prod.fst).Nodup) (r : Rules) (names : List String) :
    (Document.record fields).fields? r names = some fields := by
  have honce : ∀ n, fields.countP (fun f => f.1 = n) ≤ 1 := by
    intro n
    have hcount := List.nodup_iff_count_le_one.1 hkeys n
    rw [List.count, List.countP_map] at hcount
    exact hcount
  have hnone : (names.any fun n => 1 < fields.countP fun f => f.1 = n) = false := by
    rw [List.any_eq_false]
    intro n _
    simpa using honce n
  rw [fields?, hnone]
  rfl

/-- A key that stands once gives its value. -/
theorem lookup_of_mem (hkeys : (fields.map Prod.fst).Nodup) (h : (key, d) ∈ fields) :
    fields.lookup key = some d := by
  obtain ⟨before, after, rfl⟩ := List.append_of_mem h
  rw [List.map_append, List.map_cons, List.nodup_middle, List.nodup_cons, List.mem_append,
    not_or] at hkeys
  rw [List.lookup_eq_some_iff]
  refine ⟨before, after, rfl, ?_⟩
  intro field hfield
  have hne : field.1 ≠ key := fun hsame => hkeys.1.1 (List.mem_map.2 ⟨field, hfield, hsame⟩)
  simpa using Ne.symm hne

theorem field?_of_mem {α : Type} (hkeys : (fields.map Prod.fst).Nodup) (h : (key, d) ∈ fields)
    (read : Document → Option α) (default? : Option α) :
    field? fields read default? key = read d := by
  rw [field?, lookup_of_mem hkeys h]

/-- The fields of data are written under the names of the shape. -/
theorem keys_ofValues : (l : Layout) → (x : l.Values) → (ofValues l x).map Prod.fst = l.names
  | .nil, _ => rfl
  | .field name _ _ rest, x => congrArg (name :: ·) (keys_ofValues rest x.2)

theorem nodup_keys_ofValues {l : Layout} (h : l.names.Nodup) (x : l.Values)
    (f : Document → Document) :
    (((ofValues l x).map fun field => (field.1, mapLeaves f field.2)).map Prod.fst).Nodup := by
  rw [List.map_map]
  exact (keys_ofValues l x).symm ▸ h

/-! ## Leaves -/

/-- What a file format may do to leaves: words and texts stay, and numbers are read from what
replaces them as related ones. -/
structure Keeps (f : Document → Document) (R : (t : NumType) → t.Carrier → t.Carrier → Prop) :
    Prop where
  integer : ∀ n, f (.integer n) = .integer n
  text : ∀ x, f (.text x) = .text x
  number : ∀ t x y, R t x y → number? t (mapLeaves f (ofNumber t x)) = some y

theorem integer?_of_le {low high n : Int} (hlow : low ≤ n) (hhigh : n ≤ high) :
    (Document.integer n).integer? low high = some n :=
  if_pos ⟨hlow, hhigh⟩

theorem word?_ofWord (w : UInt16) : word? (ofWord w) = some w := by
  have hlt := w.toNat_lt
  have hmod : ((w.toNat : Int) % 2 ^ 16).toNat = w.toNat := by omega
  rw [word?, ofWord, integer?_of_le (by omega) (by omega), Option.map_some, UInt16.ofInt, hmod,
    UInt16.ofNat_toNat]

theorem number?_int16 (x : Int16) : number? .int16 (ofNumber .int16 x) = some x := by
  have hlow := x.le_toInt
  have hhigh := x.toInt_lt
  rw [ofNumber, number?, integer?_of_le (by omega) (by omega), Option.map_some, Int16.ofInt_toInt]

theorem number?_int32 (x : Int32) : number? .int32 (ofNumber .int32 x) = some x := by
  have hlow := x.le_toInt
  have hhigh := x.toInt_lt
  rw [ofNumber, number?, integer?_of_le (by omega) (by omega), Option.map_some, Int32.ofInt_toInt]

/-- A name is found at its position. -/
theorem choice?_get {names : List String} (hnames : names.Nodup) (i : Fin names.length) :
    choice? r names (.text (names.get i)) = some i := by
  refine List.finIdxOf?_eq_some_iff.2 ⟨rfl, fun j hj hsame => ?_⟩
  exact absurd (List.nodup_iff_injective_get.1 hnames hsame) (Fin.ne_of_lt hj)

/-- What follows for an item from what it is related to follows for all items of related lists. -/
theorem forall_mem_of_forall₂ {α β : Type} {P : α → β → Prop} {Q : α → Prop} {xs : List α}
    {ys : List β} (h : List.Forall₂ P xs ys) (hitem : ∀ x y, P x y → Q x) : ∀ x ∈ xs, Q x :=
  ((List.forall₂_and_left xs ys).1 (h.imp fun x y hxy => ⟨hitem x y hxy, hxy⟩)).1

/-- A list is read item by item. -/
theorem mapM_eq_some_of_forall₂ {α β : Type} {read : α → Option β} {items : List α} {ys : List β}
    (h : List.Forall₂ (fun d y => read d = some y) items ys) : items.mapM read = some ys := by
  induction h with
  | nil => rfl
  | cons hd _ ih =>
    rw [List.mapM_cons, hd, ih]
    rfl

/-- A list is read from the document of its items. -/
theorem value?_list {item : Shape} {xs ys : List item.Value}
    (h : List.Forall₂ (fun x y => value? r item (mapLeaves f (ofValue item x)) = some y) xs ys) :
    value? r (.list item) (mapLeaves f (.list (xs.map (ofValue item)))) = some ys := by
  rw [mapLeaves_list, List.map_map]
  exact mapM_eq_some_of_forall₂ (List.forall₂_map_left_iff.2 h)

/-- A record is read by its fields. -/
theorem value?_record {l : Layout} (h : l.names.Nodup) (r : Rules) (x : l.Values)
    (f : Document → Document) :
    value? r (.record l) (mapLeaves f (.record (ofValues l x))) =
      values? r l ((ofValues l x).map fun field => (field.1, mapLeaves f field.2)) := by
  rw [mapLeaves_record, value?, fields?_record (nodup_keys_ofValues h x f)]
  rfl

/-! ## Data -/

mutual

/-- **Data is read from its document** as the data that it agrees with. -/
theorem value?_ofValue (hf : Keeps f R) (r : Rules) :
    (s : Shape) → s.HasKeys → ∀ x y, s.Agree R x y →
      value? r s (mapLeaves f (ofValue s x)) = some y
  | .word, _, x, y, h => by
    subst h
    exact (congrArg word? (hf.integer _)).trans (word?_ofWord x)
  | .number t, _, x, y, h => hf.number t x y h
  | .text, _, x, y, h => by
    subst h
    exact congrArg text? (hf.text _)
  | .choice first others, hkeys, i, j, h => by
    subst h
    exact (congrArg (choice? r (first :: others)) (hf.text _)).trans (choice?_get hkeys i)
  | .list item, hkeys, xs, ys, h =>
    value?_list (List.Forall₂.imp (fun x y hxy => value?_ofValue hf r item hkeys x y hxy) h)
  | .record fields, hkeys, x, y, h => by
    refine (value?_record hkeys.1 r x f).trans ?_
    exact values?_ofValues hf r fields hkeys.2 x y h (nodup_keys_ofValues hkeys.1 x f)
      fun field hfield => List.mem_map_of_mem hfield

/-- The fields of a record are read wherever they stand. -/
theorem values?_ofValues (hf : Keeps f R) (r : Rules) {fields : List (String × Document)} :
    (l : Layout) → l.HasKeys → ∀ x y, l.Agree R x y → (fields.map Prod.fst).Nodup →
      (∀ field ∈ ofValues l x, (field.1, mapLeaves f field.2) ∈ fields) →
      values? r l fields = some y
  | .nil, _, _, _, _, _, _ => rfl
  | .field name optional shape rest, hkeys, x, y, h, hnodup, hfields => by
    obtain ⟨hfirst, hrest⟩ := List.forall_mem_cons.1 hfields
    rw [values?, field?_of_mem hnodup hfirst, value?_ofValue hf r shape hkeys.1 x.1 y.1 h.1,
      values?_ofValues hf r rest hkeys.2 x.2 y.2 h.2 hnodup hrest]
    rfl

end

/-! ## Texts of numbers -/

/-- The texts of numbers, given what is written of a leaf and what is read from a text. -/
def numberTexts (write : Document → List Char) (read : List Char → Option (Document × List Char)) :
    NumberTexts where
  write t x := write (ofNumber t x)
  read? t cs :=
    match read cs with
    | some (d, []) => number? t d
    | _ => none

section

variable {write : Document → List Char} {read : List Char → Option (Document × List Char)}
  {t : NumType} {x y : t.Carrier}

/-- A number is read from the whole of its text. -/
theorem rereads_iff : (numberTexts write read).Rereads t x y ↔
    ∃ d, read (write (ofNumber t x)) = some (d, []) ∧ number? t d = some y := by
  unfold NumberTexts.Rereads NumberTexts.reread? numberTexts
  dsimp only
  split
  · next d hread => simp [hread]
  · next hread =>
    refine iff_of_false nofun ?_
    rintro ⟨d, hd, -⟩
    exact hread d hd

/-- What is read from the texts of leaves: integers of thirty-two bits as themselves, and floating
point numbers, if they can be read, as what replaces them. -/
structure ReadsLeaves (write : Document → List Char)
    (read : List Char → Option (Document × List Char)) (f : Document → Document) : Prop where
  digits : ∀ n, -0x80000000 ≤ n → n ≤ 0x7FFFFFFF →
    read (write (.integer n)) = some (.integer n, [])
  integer : ∀ n, f (.integer n) = .integer n
  text : ∀ x, f (.text x) = .text x
  single : ∀ x d, read (write (.single x)) = some (d, []) → f (.single x) = d
  double : ∀ x d, read (write (.double x)) = some (d, []) → f (.double x) = d

namespace ReadsLeaves

theorem rereads_int16 (h : ReadsLeaves write read f) (x : Int16) :
    (numberTexts write read).Rereads .int16 x x := by
  have hlow := x.le_toInt
  have hhigh := x.toInt_lt
  exact rereads_iff.2 ⟨_, h.digits _ (by omega) (by omega), number?_int16 x⟩

theorem rereads_int32 (h : ReadsLeaves write read f) (x : Int32) :
    (numberTexts write read).Rereads .int32 x x := by
  have hlow := x.le_toInt
  have hhigh := x.toInt_lt
  exact rereads_iff.2 ⟨_, h.digits _ (by omega) (by omega), number?_int32 x⟩

/-- Leaves that are replaced by what their texts are read as keep the data. -/
theorem keeps (h : ReadsLeaves write read f) : Keeps f (numberTexts write read).Rereads where
  integer := h.integer
  text := h.text
  number t x y hxy := by
    cases t with
    | int16 =>
      rw [← Option.some.inj ((h.rereads_int16 x).symm.trans hxy)]
      exact (congrArg (number? .int16) (h.integer _)).trans (number?_int16 x)
    | int32 =>
      rw [← Option.some.inj ((h.rereads_int32 x).symm.trans hxy)]
      exact (congrArg (number? .int32) (h.integer _)).trans (number?_int32 x)
    | float =>
      obtain ⟨d, hd, hnumber⟩ := rereads_iff.1 hxy
      exact (congrArg (number? .float) (h.single x d hd)).trans hnumber
    | double =>
      obtain ⟨d, hd, hnumber⟩ := rereads_iff.1 hxy
      exact (congrArg (number? .double) (h.double x d hd)).trans hnumber

end ReadsLeaves

end

/-! ## The leaves of data -/

/-- A leaf of data whose numbers are related to others: an integer of thirty-two bits, a text, or
such a number. -/
inductive IsLeaf (R : (t : NumType) → t.Carrier → t.Carrier → Prop) : Document → Prop
  | integer {n : Int} (hlow : -0x80000000 ≤ n) (hhigh : n ≤ 0x7FFFFFFF) : IsLeaf R (.integer n)
  | text (x : String) : IsLeaf R (.text x)
  | single {x y : Single} (h : R .float x y) : IsLeaf R (.single x)
  | double {x y : Double} (h : R .double x y) : IsLeaf R (.double x)

theorem isLeaf_ofWord (R : (t : NumType) → t.Carrier → t.Carrier → Prop) (w : UInt16) :
    IsLeaf R (ofWord w) := by
  have hlt := w.toNat_lt
  exact .integer (by omega) (by omega)

theorem isLeaf_ofNumber : {t : NumType} → {x y : t.Carrier} → R t x y → IsLeaf R (ofNumber t x)
  | .int16, x, _, _ => by
    have hlow := (x : Int16).le_toInt
    have hhigh := (x : Int16).toInt_lt
    exact .integer (by omega) (by omega)
  | .int32, x, _, _ => by
    have hlow := (x : Int32).le_toInt
    have hhigh := (x : Int32).toInt_lt
    exact .integer (by omega) (by omega)
  | .float, _, _, h => .single h
  | .double, _, _, h => .double h

theorem leaves_ofNumber (t : NumType) (x : t.Carrier) : (ofNumber t x).leaves = [ofNumber t x] := by
  cases t <;> rfl

mutual

/-- The leaves of data are integers, texts and its numbers. -/
theorem isLeaf_ofValue : (s : Shape) → ∀ x y, s.Agree R x y →
    ∀ l ∈ (ofValue s x).leaves, IsLeaf R l
  | .word, x, _, _ => List.forall_mem_singleton.2 (isLeaf_ofWord R x)
  | .number t, x, y, h => by
    have hleaves : (ofValue (.number t) x).leaves = [ofNumber t x] := leaves_ofNumber t x
    rw [hleaves]
    exact List.forall_mem_singleton.2 (isLeaf_ofNumber h)
  | .text, x, _, _ => List.forall_mem_singleton.2 (.text x)
  | .choice _ _, _, _, _ => List.forall_mem_singleton.2 (.text _)
  | .list item, xs, ys, h => by
    intro l hl
    obtain ⟨d, hd, hl⟩ := mem_leaves_list.1 hl
    obtain ⟨x, hx, rfl⟩ := List.mem_map.1 hd
    exact forall_mem_of_forall₂ h (fun x y hxy => isLeaf_ofValue item x y hxy) x hx l hl
  | .record fields, x, y, h => by
    intro l hl
    obtain ⟨field, hfield, hl⟩ := mem_leaves_record.1 hl
    exact isLeaf_ofValues fields x y h field hfield l hl

theorem isLeaf_ofValues : (l : Layout) → ∀ x y, l.Agree R x y →
    ∀ field ∈ ofValues l x, ∀ d ∈ field.2.leaves, IsLeaf R d
  | .nil, _, _, _ => fun _ hfield => (List.not_mem_nil hfield).elim
  | .field _ _ shape rest, x, y, h =>
    List.forall_mem_cons.2 ⟨isLeaf_ofValue shape x.1 y.1 h.1, isLeaf_ofValues rest x.2 y.2 h.2⟩

end

/-- Each field of a document belongs to a field of the shape. -/
theorem exists_of_mem_ofValues : (l : Layout) → ∀ x y, l.Agree R x y → ∀ field ∈ ofValues l x,
    ∃ (s : Shape) (a b : s.Value), (field.1, s) ∈ l.entries ∧ field.2 = ofValue s a ∧ s.Agree R a b
  | .nil, _, _, _ => fun _ hfield => (List.not_mem_nil hfield).elim
  | .field name _ shape rest, x, y, h => by
    refine List.forall_mem_cons.2 ⟨⟨shape, x.1, y.1, List.mem_cons_self, rfl, h.1⟩, ?_⟩
    intro field hfield
    obtain ⟨s, a, b, hentry, hvalue, hagree⟩ :=
      exists_of_mem_ofValues rest x.2 y.2 h.2 field hfield
    exact ⟨s, a, b, List.mem_cons_of_mem _ hentry, hvalue, hagree⟩

end Document

end VariableRegistry
