/-
# Steps of a builder

What each step of a builder puts into the tables if everything fits. A number that does not fit is
never forgotten, so if there is none at the end there was none at any step.
-/
import VariableRegistry.Proofs.SpelledTables
import VariableRegistry.Tables.Builder

namespace VariableRegistry

/-! ## What declarations take -/

/-- The array in which variables of a declared kind have their cells. -/
def DeclaredKind.array? : DeclaredKind → Option DataArray
  | .number t _ => some (.number t)
  | .enumeration _ _ => some .enums
  | .string _ => some .strings
  | .constant _ => none
  | .action => none

/-- The number of cells that a variable of a declared kind takes in an array. -/
def DeclaredKind.cellsIn (kind : DeclaredKind) (items : UInt16) (a : DataArray) : Nat :=
  if kind.array? = some a then items.toNat else 0

/-- The type word of a declared kind, without the flag for vectors. -/
def DeclaredKind.typeWord : DeclaredKind → UInt16
  | .number t _ => (VarType.number t).code
  | .enumeration _ _ => VarType.enumeration.code
  | .string _ => VarType.string.code
  | .constant _ => VarType.string.code ||| VarType.constFlag
  | .action => VarType.action.code

/-- The type of a declared kind. -/
def DeclaredKind.varType : DeclaredKind → VarType
  | .number t _ => .number t
  | .enumeration _ _ => .enumeration
  | .string _ => .string
  | .constant _ => .string
  | .action => .action

/-- Whether a declared kind is a constant text. -/
def DeclaredKind.isConstant : DeclaredKind → Bool
  | .constant _ => true
  | _ => false

/-- The type word of a declared kind says its type, and besides only whether there are several
channels and whether the text is constant. -/
theorem DeclaredKind.typeWord_bits (kind : DeclaredKind) (vector : Bool) {word : UInt16}
    (hword : word = if vector then kind.typeWord ||| VarType.vectorFlag else kind.typeWord) :
    word &&& 0x000F = kind.varType.code ∧ word &&& ~~~0x300F = 0 ∧
      (word &&& 0x1000 ≠ 0 ↔ vector = true) ∧
      (word &&& 0x2000 ≠ 0 ↔ kind.isConstant = true) := by
  subst hword
  rcases kind with ⟨_ | _ | _ | _, x⟩ | ⟨default, members⟩ | text | text | _ <;>
    simp only [typeWord, varType, isConstant] <;> cases vector <;> decide

/-- The words for the source and the first cell of a declared kind say where its template, members
or text stands, and how many cells of its array come before its own. -/
def TableSet.Places (t : TableSet) (source data : UInt16) (before : DataArray → Nat) :
    DeclaredKind → Prop
  | .number u x =>
    (t.templates.get u)[source.toNat]? = some x ∧ data.toNat = before (.number u)
  | .enumeration default members =>
    t.SpellsEnumeration source.toNat default members ∧ data.toNat = before .enums
  | .string text => t.TextAt source text ∧ data.toNat = 32 * before .strings
  | .constant text => t.TextAt source text
  | .action => True

theorem TableSet.Grows.places {t t' : TableSet} (h : t.Grows t') {source data : UInt16}
    {before : DataArray → Nat} {kind : DeclaredKind}
    (hplaces : t.Places source data before kind) : t'.Places source data before kind := by
  cases kind with
  | number u x => exact ⟨h.template hplaces.1, hplaces.2⟩
  | enumeration default members => exact ⟨h.spellsEnumeration hplaces.1, hplaces.2⟩
  | string text => exact ⟨h.textAt hplaces.1, hplaces.2⟩
  | constant text => exact h.textAt hplaces
  | action => trivial

namespace Builder

variable {b : Builder}

/-! ## Numbers that fit -/

theorem overflow_noteOverflow_ne (b : Builder) (what : IndexKind) :
    (b.noteOverflow what).overflow ≠ none := by
  unfold noteOverflow
  cases b.overflow <;> simp

theorem narrow_of_fits {n : Nat} {what : IndexKind} (h : (b.narrow n what).2.overflow = none) :
    b.overflow = none ∧ n < 0xFFFF ∧ b.narrow n what = (UInt16.ofNat n, b) := by
  unfold narrow at h ⊢
  by_cases hn : n < 0xFFFF
  · rw [if_pos hn] at h ⊢
    exact ⟨h, hn, rfl⟩
  · rw [if_neg hn] at h
    exact absurd h (overflow_noteOverflow_ne b what)

theorem toNat_ofNat_of_fits {n : Nat} (h : n < 0xFFFF) : (UInt16.ofNat n).toNat = n :=
  UInt16.toNat_ofNat_of_lt' (Nat.lt_trans h (by decide))

theorem ofNat_ne_of_fits {n : Nat} (h : n < 0xFFFF) : UInt16.ofNat n ≠ 0xFFFF := by
  intro heq
  have hn := congrArg UInt16.toNat heq
  rw [toNat_ofNat_of_fits h] at hn
  exact absurd hn (Nat.ne_of_lt h)

/-! ## Texts -/

/-- The builder with a text appended to the constant text. -/
def withText (b : Builder) (s : String) : Builder :=
  { b with tables := { b.tables with blob := b.tables.blob.push s } }

theorem pushText_of_fits {s : String} {what : IndexKind}
    (h : (b.pushText s what).2.overflow = none) :
    b.overflow = none ∧ b.tables.blob.size < 0xFFFF ∧
      b.pushText s what = (UInt16.ofNat b.tables.blob.size, b.withText s) :=
  narrow_of_fits (b := b.withText s) h

theorem grows_withText (b : Builder) (s : String) : b.tables.Grows (b.withText s).tables where
  blob := ⟨[s], rfl⟩
  enumWords := List.prefix_refl _
  templates := fun _ => List.prefix_refl _

/-- A text that was appended is found at its offset. -/
theorem textAt_withText (b : Builder) (s : String) (h : b.tables.blob.size < 0xFFFF) :
    (b.withText s).tables.TextAt (UInt16.ofNat b.tables.blob.size) s := by
  refine ⟨ofNat_ne_of_fits h, ?_⟩
  rw [toNat_ofNat_of_fits h]
  exact Blob.bytesAt?_push_size b.tables.blob s

/-- The builder with a name, if there is one, appended to the constant text. -/
def withName (b : Builder) (name : Option String) : Builder := name.elim b b.withText

theorem placeName_of_fits {name : Option String} (h : (b.placeName name).2.overflow = none) :
    b.overflow = none ∧ (b.placeName name).2 = b.withName name ∧
      (b.withName name).tables.NameAt (b.placeName name).1 name := by
  cases name with
  | none => exact ⟨h, rfl, rfl⟩
  | some s =>
    obtain ⟨hb, hsize, heq⟩ := pushText_of_fits (b := b) h
    have hplace : b.placeName (some s) = (UInt16.ofNat b.tables.blob.size, b.withText s) := heq
    rw [hplace]
    exact ⟨hb, rfl, textAt_withText b s hsize⟩

theorem grows_withName (b : Builder) (name : Option String) :
    b.tables.Grows (b.withName name).tables := by
  cases name with
  | none => exact .refl _
  | some s => exact b.grows_withText s

/-! ## Cells -/

theorem counts_get (b : Builder) (a : DataArray) :
    b.tables.counts.get a = (b.cellCount a).toNat := by
  cases a with
  | number t => exact PerType.get_ofFn _ t
  | enums => rfl
  | strings => rfl

theorem grow_of_fits {a : DataArray} {items : UInt16} (h : (b.grow a items).2.overflow = none) :
    b.overflow = none ∧ (b.cellCount a).toNat + items.toNat < 0x10000 ∧
      b.grow a items = (b.cellCount a, b.setCellCount a (b.cellCount a + items)) := by
  unfold grow at h ⊢
  simp only at h ⊢
  by_cases hsum : (b.cellCount a).toNat + items.toNat < 0x10000
  · rw [if_pos hsum] at h ⊢
    refine ⟨?_, hsum, rfl⟩
    cases a <;> exact h
  · rw [if_neg hsum] at h
    exact absurd h (overflow_noteOverflow_ne b _)

/-- Cells are reserved, and a number that goes with them fits. -/
theorem reserve_of_fits {a : DataArray} {items : UInt16} {n : Nat} {what : IndexKind}
    (h : ((b.grow a items).2.narrow n what).2.overflow = none) :
    b.overflow = none ∧ n < 0xFFFF ∧ (b.cellCount a).toNat + items.toNat < 0x10000 ∧
      b.grow a items = (b.cellCount a, b.setCellCount a (b.cellCount a + items)) ∧
      (b.grow a items).2.narrow n what =
        (UInt16.ofNat n, b.setCellCount a (b.cellCount a + items)) := by
  obtain ⟨hfits, hn, hnarrow⟩ := narrow_of_fits h
  obtain ⟨hb, hsum, hgrow⟩ := grow_of_fits hfits
  exact ⟨hb, hn, hsum, hgrow, by rw [hnarrow, hgrow]⟩

theorem cellCount_setCellCount_self (b : Builder) (a : DataArray) (n : UInt16) :
    (b.setCellCount a n).cellCount a = n := by
  cases a with
  | number t => exact PerType.get_set_self (F := fun _ => UInt16) _ t n
  | enums => rfl
  | strings => rfl

theorem cellCount_setCellCount_of_ne (b : Builder) {a a' : DataArray} (h : a' ≠ a) (n : UInt16) :
    (b.setCellCount a n).cellCount a' = b.cellCount a' := by
  cases a with
  | number t =>
    cases a' with
    | number u =>
      refine PerType.get_set_of_ne (F := fun _ => UInt16) _ ?_ n
      rintro rfl
      exact h rfl
    | enums => rfl
    | strings => rfl
  | enums => cases a' <;> first | rfl | exact absurd rfl h
  | strings => cases a' <;> first | rfl | exact absurd rfl h

/-- Reserving cells of an array makes it longer by them and leaves the others. -/
theorem counts_setCellCount {a : DataArray} {items : UInt16}
    (h : (b.cellCount a).toNat + items.toNat < 0x10000) (a' : DataArray) :
    (b.setCellCount a (b.cellCount a + items)).tables.counts.get a' =
      b.tables.counts.get a' + if some a = some a' then items.toNat else 0 := by
  rw [counts_get, counts_get]
  by_cases ha : a' = a
  · subst ha
    rw [cellCount_setCellCount_self, if_pos rfl, UInt16.toNat_add]
    exact Nat.mod_eq_of_lt h
  · rw [cellCount_setCellCount_of_ne b ha, if_neg (fun h => ha (Option.some.inj h).symm)]
    rfl

/-- Reserving cells changes nothing but numbers of cells. -/
theorem setCellCount_tables (b : Builder) (a : DataArray) (n : UInt16) :
    b.tables.Grows (b.setCellCount a n).tables ∧
      (b.setCellCount a n).tables.vars = b.tables.vars ∧
      (b.setCellCount a n).tables.templates = b.tables.templates := by
  cases a <;> exact ⟨⟨⟨[], rfl⟩, List.prefix_refl _, fun _ => List.prefix_refl _⟩, rfl, rfl⟩

/-! ## Members -/

/-- The builder with texts appended to the constant text, and words to those of enumerations. -/
def withMembers (b : Builder) (texts : List String) (words : List Int16) : Builder :=
  { b with
    tables :=
      { b.tables with
        blob := texts.foldl Blob.push b.tables.blob
        enumWords := b.tables.enumWords ++ words } }

theorem grows_withMembers (b : Builder) (texts : List String) (words : List Int16) :
    b.tables.Grows (b.withMembers texts words).tables where
  blob := ⟨texts, rfl⟩
  enumWords := by
    simp [withMembers]
  templates := fun _ => List.prefix_refl _

theorem withMembers_withMembers (b : Builder) (texts texts' : List String)
    (words words' : List Int16) :
    (b.withMembers texts words).withMembers texts' words' =
      b.withMembers (texts ++ texts') (words ++ words') := by
  have hwords : b.tables.enumWords ++ words ++ words' = b.tables.enumWords ++ (words ++ words') :=
    Array.toList_inj.1 (by simp)
  rw [withMembers, withMembers, withMembers, List.foldl_append, ← hwords]

/-- A member takes three words, and its symbol a text. -/
theorem pushMember_of_fits {m : Int16 × String} (h : (b.pushMember m).overflow = none) :
    b.overflow = none ∧ b.tables.blob.size < 0xFFFF ∧
      b.pushMember m =
        b.withMembers [m.2] [-1, m.1, (UInt16.ofNat b.tables.blob.size).toInt16] := by
  have htext : (b.pushText m.2 .symbol).2.overflow = none := h
  obtain ⟨hb, hsize, heq⟩ := pushText_of_fits htext
  refine ⟨hb, hsize, ?_⟩
  rw [pushMember, heq]
  rfl

/-- Members are spelled one after another; there are no more of them than offsets. -/
theorem foldl_pushMember_of_fits {members : List (Int16 × String)}
    (h : (members.foldl pushMember b).overflow = none) :
    b.overflow = none ∧ (members = [] ∨ b.tables.blob.size + members.length ≤ 0xFFFF) ∧
      ∃ words,
        members.foldl pushMember b = b.withMembers (members.map (·.2)) words ∧
        (members.foldl pushMember b).tables.SpellsMembers words members := by
  induction members generalizing b with
  | nil =>
    refine ⟨h, Or.inl rfl, [], ?_, .nil⟩
    simp [withMembers]
  | cons m members ih =>
    obtain ⟨hb', hrest, words, heq, hspells⟩ := ih (b := b.pushMember m) h
    obtain ⟨hb, hsize, hone⟩ := pushMember_of_fits hb'
    refine ⟨hb, Or.inr ?_, [-1, m.1, (UInt16.ofNat b.tables.blob.size).toInt16] ++ words, ?_, ?_⟩
    · -- each symbol takes at least the zero byte that ends it
      have hpush : (b.pushMember m).tables.blob.size =
          b.tables.blob.size + Utf8.size m.2.toList + 1 := by
        rw [hone]
        exact Blob.size_push _ _
      rw [List.length_cons]
      rcases hrest with rfl | hrest
      · exact hsize
      · omega
    · rw [List.foldl_cons, heq, hone, withMembers_withMembers]
      rfl
    · refine .cons ?_ hspells
      rw [List.foldl_cons, heq]
      refine (grows_withMembers _ _ _).textAt ?_
      rw [hone]
      exact textAt_withText b m.2 hsize

/-- The header and the members of an enumeration are spelled behind the words that were there. -/
theorem spellsEnumeration_of_fits {default : UInt16} {members : List (Int16 × String)}
    {b' : Builder} (hb' : b' = members.foldl pushMember
      (b.pushEnumWords [default.toInt16, (UInt16.ofNat members.length).toInt16]))
    (h : b'.overflow = none) :
    b.overflow = none ∧ ∃ texts words, b' = b.withMembers texts words ∧
      b'.tables.SpellsEnumeration b.tables.enumWords.size default members := by
  rw [hb'] at h
  obtain ⟨hb, hlength, words, heq, hspells⟩ := foldl_pushMember_of_fits h
  rw [← hb'] at heq hspells
  have hwith : b' = b.withMembers (members.map (·.2))
      ([default.toInt16, (UInt16.ofNat members.length).toInt16] ++ words) :=
    heq.trans (withMembers_withMembers b [] _ _ words)
  refine ⟨hb, _, _, hwith, ?_, words, [], ?_, hspells⟩
  · rcases hlength with rfl | hlength
    · decide
    · omega
  · rw [hwith]
    simp [withMembers]

end Builder

/-! ## Kinds of variables -/

/-- What placing a kind of variable does to tables: they grow by what the kind needs, and the words
that are returned for its type, its source and its first cell say where that is. -/
structure TableSet.Placed (t : TableSet) (kind : DeclaredKind) (items : UInt16)
    (words : UInt16 × UInt16 × UInt16) (t' : TableSet) : Prop where
  grows : t.Grows t'
  vars : t'.vars = t.vars
  counts : ∀ a, t'.counts.get a = t.counts.get a + kind.cellsIn items a
  templates : ∀ u, ∀ x ∈ t'.templates.get u, x ∈ t.templates.get u ∨ kind = .number u x
  type : words.1 = kind.typeWord
  places : t'.Places words.2.1 words.2.2 t.counts.get kind

namespace Builder

variable {b : Builder}

/-- The builder with a template appended to those of its type. -/
def withTemplate (b : Builder) (t : NumType) (x : Template t.Carrier) : Builder :=
  { b with
    tables :=
      { b.tables with templates := b.tables.templates.set t ((b.tables.templates.get t).push x) } }

theorem grows_withTemplate (b : Builder) (t : NumType) (x : Template t.Carrier) :
    b.tables.Grows (b.withTemplate t x).tables where
  blob := ⟨[], rfl⟩
  enumWords := List.prefix_refl _
  templates := by
    intro u
    by_cases hu : u = t
    · subst hu
      simp [withTemplate]
    · simp [withTemplate, PerType.get_set_of_ne _ hu]

/-- Reserving cells of an array places a kind that takes them there, if the tables and the words
already fit in all other respects. -/
theorem placed_setCellCount {b' : Builder} {kind : DeclaredKind} {items type source data : UInt16}
    {a : DataArray} (ha : kind.array? = some a) (hgrows : b.tables.Grows b'.tables)
    (hvars : b'.tables.vars = b.tables.vars)
    (hcells : ∀ a', b'.cellCount a' = b.cellCount a')
    (htemplates : ∀ u, ∀ x ∈ b'.tables.templates.get u,
      x ∈ b.tables.templates.get u ∨ kind = .number u x)
    (hsum : (b'.cellCount a).toNat + items.toNat < 0x10000) (htype : type = kind.typeWord)
    (hplaces : b'.tables.Places source data b.tables.counts.get kind) :
    b.tables.Placed kind items (type, source, data)
      (b'.setCellCount a (b'.cellCount a + items)).tables := by
  obtain ⟨hgrows', hvars', htemplates'⟩ := b'.setCellCount_tables a (b'.cellCount a + items)
  refine ⟨hgrows.trans hgrows', hvars'.trans hvars, ?_, ?_, htype, hgrows'.places hplaces⟩
  · intro a'
    rw [counts_setCellCount hsum, counts_get, counts_get, hcells, DeclaredKind.cellsIn, ha]
  · rw [htemplates']
    exact htemplates

theorem place_number_of_fits {t : NumType} {x : Template t.Carrier} {items : UInt16}
    (h : (b.place (.number t x) items).2.overflow = none) :
    b.overflow = none ∧ b.tables.Placed (.number t x) items (b.place (.number t x) items).1
      (b.place (.number t x) items).2.tables := by
  let b' := b.withTemplate t x
  have hreserve : ((b'.grow (.number t) items).2.narrow (b.tables.templates.get t).size
      (.template t)).2.overflow = none := h
  obtain ⟨hb, hsize, hsum, hgrow, hsource⟩ := reserve_of_fits hreserve
  have hplace : b.place (.number t x) items =
      (((VarType.number t).code, UInt16.ofNat (b.tables.templates.get t).size,
        b'.cellCount (.number t)),
        b'.setCellCount (.number t) (b'.cellCount (.number t) + items)) := by
    show ((_, ((b'.grow (.number t) items).2.narrow _ _).1, (b'.grow (.number t) items).1),
      ((b'.grow (.number t) items).2.narrow _ _).2) = _
    rw [hsource, hgrow]
  rw [hplace]
  refine ⟨hb, placed_setCellCount rfl (b.grows_withTemplate t x) rfl ?_ ?_ hsum rfl ?_⟩
  · intro a
    cases a <;> rfl
  · intro u y hy
    by_cases hu : u = t
    · subst hu
      simp only [b', withTemplate, PerType.get_set_self, Array.mem_push] at hy
      rcases hy with hy | rfl
      · exact Or.inl hy
      · exact Or.inr rfl
    · simp only [b', withTemplate, PerType.get_set_of_ne _ hu] at hy
      exact Or.inl hy
  · refine ⟨?_, (counts_get b (.number t)).symm⟩
    rw [toNat_ofNat_of_fits hsize]
    simp [b', withTemplate]

theorem place_enumeration_of_fits {default : UInt16} {members : List (Int16 × String)}
    {items : UInt16} (h : (b.place (.enumeration default members) items).2.overflow = none) :
    b.overflow = none ∧ b.tables.Placed (.enumeration default members) items
      (b.place (.enumeration default members) items).1
      (b.place (.enumeration default members) items).2.tables := by
  let b' := members.foldl pushMember
    (b.pushEnumWords [default.toInt16, (UInt16.ofNat members.length).toInt16])
  have hreserve : ((b'.grow .enums items).2.narrow b.tables.enumWords.size
      .enumWord).2.overflow = none := h
  obtain ⟨hfits, hsize, hsum, hgrow, hsource⟩ := reserve_of_fits hreserve
  have hplace : b.place (.enumeration default members) items =
      ((VarType.enumeration.code, UInt16.ofNat b.tables.enumWords.size, b'.cellCount .enums),
        b'.setCellCount .enums (b'.cellCount .enums + items)) := by
    show ((_, ((b'.grow .enums items).2.narrow _ _).1, (b'.grow .enums items).1),
      ((b'.grow .enums items).2.narrow _ _).2) = _
    rw [hsource, hgrow]
  have hheader : b' = _ := rfl
  obtain ⟨hb, texts, words, hb', hspells⟩ := spellsEnumeration_of_fits hheader hfits
  rw [hplace]
  refine ⟨hb, placed_setCellCount rfl ?_ ?_ ?_ ?_ hsum rfl ⟨?_, ?_⟩⟩
  · rw [hb']
    exact b.grows_withMembers texts words
  · rw [hb']
    rfl
  · intro a
    rw [hb']
    cases a <;> rfl
  · intro u x hx
    rw [hb'] at hx
    exact Or.inl hx
  · rw [toNat_ofNat_of_fits hsize]
    exact hspells
  · rw [hb']
    exact (counts_get b .enums).symm

theorem place_string_of_fits {text : String} {items : UInt16}
    (h : (b.place (.string text) items).2.overflow = none) :
    b.overflow = none ∧ b.tables.Placed (.string text) items (b.place (.string text) items).1
      (b.place (.string text) items).2.tables := by
  let b' := (b.pushText text .text).2
  have hreserve : ((b'.grow .strings items).2.narrow
      ((b'.grow .strings items).1.toNat * TableSet.stringCellBytes)
      .stringByte).2.overflow = none := h
  obtain ⟨hfits, hsize, hsum, hgrow, hdata⟩ := reserve_of_fits hreserve
  obtain ⟨hb, hoffset, htext⟩ := pushText_of_fits hfits
  rw [hgrow] at hsize hdata
  have hplace : b.place (.string text) items =
      ((VarType.string.code, UInt16.ofNat b.tables.blob.size,
        UInt16.ofNat ((b'.cellCount .strings).toNat * TableSet.stringCellBytes)),
        b'.setCellCount .strings (b'.cellCount .strings + items)) := by
    show ((_, (b.pushText text .text).1, ((b'.grow .strings items).2.narrow
      ((b'.grow .strings items).1.toNat * _) _).1),
      ((b'.grow .strings items).2.narrow ((b'.grow .strings items).1.toNat * _) _).2) = _
    rw [hgrow, hdata, htext]
  have hb' : b' = b.withText text := congrArg Prod.snd htext
  rw [hplace]
  rw [hb'] at hsum hsize ⊢
  refine ⟨hb, placed_setCellCount rfl (b.grows_withText text) rfl ?_
    (fun u x hx => Or.inl hx) hsum rfl ⟨textAt_withText b text hoffset, ?_⟩⟩
  · intro a
    cases a <;> rfl
  · rw [toNat_ofNat_of_fits hsize, counts_get]
    exact Nat.mul_comm _ _

theorem place_constant_of_fits {text : String} {items : UInt16}
    (h : (b.place (.constant text) items).2.overflow = none) :
    b.overflow = none ∧ b.tables.Placed (.constant text) items
      (b.place (.constant text) items).1 (b.place (.constant text) items).2.tables := by
  have hpush : (b.pushText text .text).2.overflow = none := h
  obtain ⟨hb, hoffset, htext⟩ := pushText_of_fits hpush
  have hplace : b.place (.constant text) items =
      ((VarType.string.code ||| VarType.constFlag, UInt16.ofNat b.tables.blob.size, 0),
        b.withText text) := by
    show ((_, (b.pushText text .text).1, _), (b.pushText text .text).2) = _
    rw [htext]
  rw [hplace]
  exact ⟨hb, b.grows_withText text, rfl, fun a => rfl, fun u x hx => Or.inl hx, rfl,
    textAt_withText b text hoffset⟩

/-- **A kind of variable for which everything fits is placed.** -/
theorem place_of_fits {kind : DeclaredKind} {items : UInt16}
    (h : (b.place kind items).2.overflow = none) :
    b.overflow = none ∧
      b.tables.Placed kind items (b.place kind items).1 (b.place kind items).2.tables := by
  cases kind with
  | number t x => exact place_number_of_fits h
  | enumeration default members => exact place_enumeration_of_fits h
  | string text => exact place_string_of_fits h
  | constant text => exact place_constant_of_fits h
  | action => exact ⟨h, .refl _, rfl, fun a => rfl, fun u x hx => Or.inl hx, rfl, trivial⟩

end Builder

end VariableRegistry
