/-
# Texts and enumerations spelled in tables

What it means that tables hold a text, a name or an enumeration at a place, and that they are read
there as what they hold. Tables grow by appending only, so what they hold once they keep.
-/
import VariableRegistry.Proofs.BlobTexts
import VariableRegistry.Proofs.EnumerationWords

namespace VariableRegistry

/-- The member with a value and a symbol that no variable names; of the symbol counts what stands
before its first zero character. -/
def Member.unnamed (m : Int16 × String) : Member :=
  ⟨.none, m.1, some (Registry.beforeZero m.2)⟩

namespace TableSet

variable {t t' t'' : TableSet}

/-! ## Growing tables -/

/-- Tables that hold everything that others hold where these hold it. -/
structure Grows (t t' : TableSet) : Prop where
  blob : ∃ texts : List String, t'.blob = texts.foldl Blob.push t.blob
  enumWords : t.enumWords.toList <+: t'.enumWords.toList
  templates : ∀ u, (t.templates.get u).toList <+: (t'.templates.get u).toList

theorem Grows.refl (t : TableSet) : t.Grows t where
  blob := ⟨[], rfl⟩
  enumWords := List.prefix_refl _
  templates := fun _ => List.prefix_refl _

theorem Grows.trans (h : t.Grows t') (h' : t'.Grows t'') : t.Grows t'' where
  blob := by
    obtain ⟨texts, ht⟩ := h.blob
    obtain ⟨texts', ht'⟩ := h'.blob
    exact ⟨texts ++ texts', by rw [ht', ht, List.foldl_append]⟩
  enumWords := h.enumWords.trans h'.enumWords
  templates := fun u => (h.templates u).trans (h'.templates u)

theorem Grows.bytesAt? (h : t.Grows t') {offset : Nat} {bytes : List UInt8}
    (hbytes : t.blob.bytesAt? offset = some bytes) :
    t'.blob.bytesAt? offset = some bytes := by
  obtain ⟨texts, ht⟩ := h.blob
  rw [ht]
  exact Blob.bytesAt?_foldl_push hbytes texts

theorem Grows.template (h : t.Grows t') {u : NumType} {i : Nat} {x : Template u.Carrier}
    (hx : (t.templates.get u)[i]? = some x) : (t'.templates.get u)[i]? = some x := by
  rw [← Array.getElem?_toList] at hx ⊢
  obtain ⟨more, hmore⟩ := h.templates u
  obtain ⟨hlt, -⟩ := List.getElem?_eq_some_iff.1 hx
  rw [← hmore, List.getElem?_append_left hlt, hx]

/-! ## Texts -/

/-- A word is the offset of a text: what stands there is the text before its first zero
character. -/
def TextAt (t : TableSet) (word : UInt16) (s : String) : Prop :=
  word ≠ 0xFFFF ∧ t.blob.bytesAt? word.toNat = some (Utf8.encode (Registry.beforeZero s).toList)

/-- A word is the offset of a name, or the word for none. -/
def NameAt (t : TableSet) (word : UInt16) : Option String → Prop
  | some name => t.TextAt word name
  | none => word = 0xFFFF

variable {word : UInt16} {s : String} {name : Option String}

theorem Grows.textAt (h : t.Grows t') (hs : t.TextAt word s) : t'.TextAt word s :=
  ⟨hs.1, h.bytesAt? hs.2⟩

theorem Grows.nameAt (h : t.Grows t') (hname : t.NameAt word name) : t'.NameAt word name := by
  cases name with
  | none => exact hname
  | some s => exact h.textAt hname

theorem TextAt.textAt? (h : t.TextAt word s) :
    t.blob.textAt? word.toNat = some (Registry.beforeZero s) := by
  rw [Blob.textAt?_of_bytesAt? h.2, String.ofList_toList]

/-- The offset of a text lies inside the constant text. -/
theorem TextAt.lt_size (h : t.TextAt word s) (hb : t.blob.Built) : word.toNat < t.blob.size :=
  (hb.isSome_bytesAt?_iff _).1 (Option.isSome_of_eq_some h.2)

theorem NameAt.namesText (h : t.NameAt word name) (hb : t.blob.Built) : t.NamesText word := by
  cases name with
  | none => exact Or.inl h
  | some s => exact Or.inr (TextAt.lt_size h hb)

/-- A name is read as it is up to its first zero character. -/
theorem NameAt.readText (h : t.NameAt word name) (fault : VariableFault) :
    t.readText word fault = .ok (name.map Registry.beforeZero) := by
  cases name with
  | none => exact readText_eq_ok.2 (Or.inl ⟨h, rfl⟩)
  | some s => exact readText_eq_ok.2 (Or.inr ⟨h.1, _, h.textAt?, rfl⟩)

/-! ## Enumerations -/

/-- Words spell members that no variable names, three words a member. -/
inductive SpellsMembers (t : TableSet) : List Int16 → List (Int16 × String) → Prop where
  | nil : SpellsMembers t [] []
  | cons {symbol : UInt16} {value : Int16} {s : String} {words : List Int16}
      {members : List (Int16 × String)} (hs : t.TextAt symbol s)
      (hrest : SpellsMembers t words members) :
      SpellsMembers t (-1 :: value :: symbol.toInt16 :: words) ((value, s) :: members)

/-- At a position the words spell an enumeration: its default, the number of its members and the
members. -/
def SpellsEnumeration (t : TableSet) (start : Nat) (default : UInt16)
    (members : List (Int16 × String)) : Prop :=
  members.length < 0x10000 ∧ ∃ words rest,
    t.enumWords.toList.drop start =
      default.toInt16 :: (UInt16.ofNat members.length).toInt16 :: (words ++ rest) ∧
    t.SpellsMembers words members

variable {start : Nat} {default : UInt16} {words : List Int16} {members : List (Int16 × String)}

theorem Grows.spellsMembers (h : t.Grows t') (hspells : t.SpellsMembers words members) :
    t'.SpellsMembers words members := by
  induction hspells with
  | nil => exact .nil
  | cons hs _ ih => exact .cons (h.textAt hs) ih

theorem Grows.spellsEnumeration (h : t.Grows t')
    (hspells : t.SpellsEnumeration start default members) :
    t'.SpellsEnumeration start default members := by
  obtain ⟨hlength, words, rest, hdrop, hmembers⟩ := hspells
  obtain ⟨more, hmore⟩ := h.enumWords
  refine ⟨hlength, words, rest ++ more, ?_, h.spellsMembers hmembers⟩
  have hle : start ≤ t.enumWords.toList.length := by
    have hdropped := congrArg List.length hdrop
    simp only [List.length_drop, List.length_cons] at hdropped
    omega
  rw [← hmore, List.drop_append_of_le_length hle, hdrop, List.cons_append, List.cons_append,
    List.append_assoc]

theorem SpellsMembers.length (h : t.SpellsMembers words members) :
    words.length = members.length * 3 := by
  induction h with
  | nil => rfl
  | cons _ _ ih =>
    simp only [List.length_cons, ih]
    omega

/-- Members are read as they are spelled. -/
theorem SpellsMembers.readMembers (h : t.SpellsMembers words members) :
    t.readMembers words = .ok (members.map Member.unnamed) := by
  induction h with
  | nil => rfl
  | @cons symbol value s words members hs _ ih =>
    have hname : t.NameAt symbol (some s) := hs
    have hsymbol : t.readText symbol .symbolOutside = .ok (some (Registry.beforeZero s)) :=
      hname.readText .symbolOutside
    have hmember : t.readMember (-1) value symbol.toInt16 =
        .ok ⟨.none, value, some (Registry.beforeZero s)⟩ := by
      rw [readMember, UInt16.toUInt16_toInt16, hsymbol]
      rfl
    rw [TableSet.readMembers, hmember, ih]
    rfl

/-! ## Signed words -/

/-- As a signed word a word below half of the range is what it is. -/
theorem toInt_toInt16_of_lt {w : UInt16} (h : w.toNat < 0x8000) :
    w.toInt16.toInt = (w.toNat : Int) := by
  show w.toBitVec.toInt = (w.toBitVec.toNat : Int)
  have hw : w.toBitVec.toNat < 0x8000 := h
  rw [BitVec.toInt_eq_toNat_cond, if_pos (by omega)]

/-- As a signed word a word in the upper half of the range is negative. -/
theorem toNat_lt_of_nonneg {w : UInt16} (h : 0 ≤ w.toInt16.toInt) : w.toNat < 0x8000 := by
  rcases Nat.lt_or_ge w.toNat 0x8000 with hlt | hge
  · exact hlt
  · have hneg : w.toBitVec.toInt < 0 := by
      have hw : 0x8000 ≤ w.toBitVec.toNat := hge
      have hlt := w.toBitVec.isLt
      rw [BitVec.toInt_eq_toNat_cond, if_neg (by omega)]
      omega
    exact absurd h (Int.not_le.2 hneg)

/-! ## Reading enumerations -/

/-- The two words before the members. -/
theorem SpellsEnumeration.header (h : t.SpellsEnumeration start default members) :
    t.enumWords[start]? = some default.toInt16 ∧
      t.enumWords[start + 1]? = some (UInt16.ofNat members.length).toInt16 := by
  obtain ⟨-, words, rest, hdrop, -⟩ := h
  have hat : ∀ k, t.enumWords[start + k]? = (t.enumWords.toList.drop start)[k]? := by
    intro k
    rw [List.getElem?_drop, Array.getElem?_toList]
  constructor
  · exact (hat 0).trans (by rw [hdrop]; rfl)
  · exact (hat 1).trans (by rw [hdrop]; rfl)

/-- Behind the header the words are those of the members. -/
theorem SpellsEnumeration.readMembers (h : t.SpellsEnumeration start default members) :
    start + 2 + members.length * 3 ≤ t.enumWords.size ∧
      t.readMembers (t.enumWords.extract (start + 2) (start + 2 + members.length * 3)).toList =
        .ok (members.map Member.unnamed) := by
  obtain ⟨-, words, rest, hdrop, hmembers⟩ := h
  have hwords := hmembers.length
  constructor
  · have hlength := congrArg List.length hdrop
    simp only [List.length_drop, List.length_cons, List.length_append, Array.length_toList]
      at hlength
    omega
  · have hbehind := congrArg (List.drop 2) hdrop
    rw [List.drop_drop] at hbehind
    rw [Array.toList_extract, List.extract_eq_take_drop, Nat.add_sub_cancel_left, hbehind]
    show t.readMembers ((words ++ rest).take (members.length * 3)) = _
    rw [List.take_left' hwords, hmembers.readMembers]

/-- An enumeration is read as it is spelled, unless its default is none of its members or a signed
word cannot count them. -/
theorem SpellsEnumeration.readEnumeration_eq_ok_iff
    (h : t.SpellsEnumeration start default members) {e : Enumeration} :
    t.readEnumeration start = .ok e ↔
      default.toNat < members.length ∧ members.length ≤ 0x7FFF ∧
        e = ⟨default.toNat, members.map Member.unnamed⟩ := by
  obtain ⟨hdefault, hcount⟩ := h.header
  obtain ⟨hsize, hmembers⟩ := h.readMembers
  have hlength : (UInt16.ofNat members.length).toNat = members.length :=
    UInt16.toNat_ofNat_of_lt' h.1
  rw [readEnumeration_eq_ok]
  constructor
  · rintro ⟨default', count, hdefault', hcount', hpos, hnonneg, hlt, -, ms, hms, rfl⟩
    cases hdefault.symm.trans hdefault'
    cases hcount.symm.trans hcount'
    have hsmall := toNat_lt_of_nonneg hnonneg
    have hsmall' := toNat_lt_of_nonneg (Int.le_of_lt hpos)
    rw [toInt_toInt16_of_lt hsmall, toInt_toInt16_of_lt hsmall', hlength] at hlt
    rw [toInt_toInt16_of_lt hsmall', hlength, Int.toNat_natCast, hmembers] at hms
    cases hms
    refine ⟨by omega, by omega, ?_⟩
    rw [toInt_toInt16_of_lt hsmall]
    rfl
  · rintro ⟨hlt, hle, rfl⟩
    refine ⟨_, _, hdefault, hcount, ?_⟩
    rw [toInt_toInt16_of_lt (w := default) (by omega), toInt_toInt16_of_lt (by omega), hlength]
    refine ⟨by omega, by omega, by omega, hsize, _, ?_, rfl⟩
    rw [Int.toNat_natCast, hmembers]

end TableSet

end VariableRegistry
