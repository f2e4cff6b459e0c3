/-
# The words of enumerations

Which words can be read as an enumeration, and what the pool of enumerations keeps: each was read
at the position that is noted for it, so a position that comes up again need not be read again.
-/
import VariableRegistry.Proofs.BlobOffsets
import VariableRegistry.Registry.Directory

namespace VariableRegistry.TableSet

/-! ## Well-formed words -/

/-- A word that names a text: the word for none, or an offset inside the blob. -/
def NamesText (t : TableSet) (word : UInt16) : Prop :=
  word = 0xFFFF ∨ word.toNat < t.blob.size

/-- A word that names a variable: the word for none, or the position of one. -/
def NamesVariable (t : TableSet) (word : UInt16) : Prop :=
  word = 0xFFFF ∨ word.toNat < t.vars.size

/-- An enumeration stands at a position of the words: two words with the position of its default
and the number of its members, and three words a member, the first and the last of which name a
variable and a text. -/
def EnumerationAt (t : TableSet) (start : Nat) : Prop :=
  ∃ default count : Int16,
    t.enumWords[start]? = some default ∧ t.enumWords[start + 1]? = some count ∧
    1 ≤ count.toInt ∧ 0 ≤ default.toInt ∧ default.toInt < count.toInt ∧
    start + 2 + 3 * count.toInt.toNat ≤ t.enumWords.size ∧
    ∀ k handle symbol, k < count.toInt.toNat →
      t.enumWords[start + 2 + 3 * k]? = some handle →
      t.enumWords[start + 2 + 3 * k + 2]? = some symbol →
      t.NamesVariable handle.toUInt16 ∧ t.NamesText symbol.toUInt16

/-! ## Reading members -/

variable {t : TableSet}

theorem readText_eq_ok {word : UInt16} {fault : VariableFault} {name : Option String} :
    t.readText word fault = .ok name ↔
      word = 0xFFFF ∧ name = none ∨
        word ≠ 0xFFFF ∧ ∃ text, t.blob.textAt? word.toNat = some text ∧ name = some text := by
  have hnone : Handle.none.word = 0xFFFF := rfl
  unfold readText
  rw [hnone]
  by_cases h : word = 0xFFFF
  · simp [h, eq_comm]
  · cases ht : t.blob.textAt? word.toNat <;> simp [h, demand, Except.map, eq_comm]

/-- A text is read if the word names one. -/
theorem exists_readText_iff (hb : t.blob.Built) (word : UInt16) (fault : VariableFault) :
    (∃ name, t.readText word fault = .ok name) ↔ t.NamesText word := by
  have hsome := hb.isSome_bytesAt?_iff word.toNat
  rw [← Blob.isSome_textAt?, Option.isSome_iff_exists] at hsome
  unfold NamesText
  rw [← hsome]
  constructor
  · rintro ⟨name, h⟩
    rcases readText_eq_ok.1 h with ⟨hword, -⟩ | ⟨-, text, htext, -⟩
    · exact Or.inl hword
    · exact Or.inr ⟨text, htext⟩
  · intro h
    by_cases hword : word = 0xFFFF
    · exact ⟨none, readText_eq_ok.2 (Or.inl ⟨hword, rfl⟩)⟩
    · obtain ⟨text, htext⟩ := h.resolve_left hword
      exact ⟨some text, readText_eq_ok.2 (Or.inr ⟨hword, text, htext, rfl⟩)⟩

/-- A member is read if its words name a variable and a text. -/
theorem exists_readMember_iff (hb : t.blob.Built) (handle value symbol : Int16) :
    (∃ m, t.readMember handle value symbol = .ok m) ↔
      t.NamesVariable handle.toUInt16 ∧ t.NamesText symbol.toUInt16 := by
  have hrequire : (Handle.isNone ⟨handle.toUInt16⟩ ||
      decide (Handle.index ⟨handle.toUInt16⟩ < t.vars.size)) = true ↔
      t.NamesVariable handle.toUInt16 := by
    rw [Bool.or_eq_true, decide_eq_true_eq]
    simp [Handle.isNone, Handle.none, Handle.index, NamesVariable]
  simp only [readMember, bind_eq_ok, require_eq_ok, pure_eq_ok]
  rw [← exists_readText_iff hb _ .symbolOutside, ← hrequire]
  constructor
  · rintro ⟨m, _, hhandle, name, hname, -⟩
    exact ⟨hhandle, name, hname⟩
  · rintro ⟨hhandle, name, hname⟩
    exact ⟨_, (), hhandle, name, hname, rfl⟩

/-- Words are read as members if every group of three is one. -/
theorem exists_readMembers_iff (hb : t.blob.Built) (words : List Int16) :
    (∃ ms, t.readMembers words = .ok ms) ↔
      ∀ k handle symbol, words[3 * k]? = some handle → words[3 * k + 2]? = some symbol →
        t.NamesVariable handle.toUInt16 ∧ t.NamesText symbol.toUInt16 := by
  fun_induction readMembers t words with
  | case1 handle value symbol words ih =>
    simp only [bind_eq_ok, pure_eq_ok]
    constructor
    · rintro ⟨ms, m, hm, ms', hms', -⟩ k handle' symbol' hhandle hsymbol
      cases k with
      | zero =>
        cases hhandle
        cases hsymbol
        exact (exists_readMember_iff hb handle value symbol).1 ⟨m, hm⟩
      | succ k =>
        exact ih.1 ⟨ms', hms'⟩ k handle' symbol' hhandle hsymbol
    · intro h
      obtain ⟨m, hm⟩ := (exists_readMember_iff hb handle value symbol).2 (h 0 handle symbol rfl rfl)
      obtain ⟨ms, hms⟩ := ih.2 fun k handle' symbol' hhandle hsymbol =>
        h (k + 1) handle' symbol' hhandle hsymbol
      exact ⟨m :: ms, m, hm, ms, hms, rfl⟩
  | case2 words hshort =>
    -- fewer than three words have no third one that could be a symbol
    simp only [Except.ok.injEq, exists_eq', true_iff]
    intro k handle symbol hhandle hsymbol
    match words, hshort with
    | a :: b :: c :: rest, hshort => exact absurd rfl (hshort a b c rest)
    | [], _ => simp at hsymbol
    | [a], _ => simp at hsymbol
    | [a, b], _ => simp at hsymbol

/-- Three words make a member. -/
theorem length_of_readMembers {words : List Int16} {ms : List Member}
    (h : t.readMembers words = .ok ms) : ms.length = words.length / 3 := by
  fun_induction readMembers t words generalizing ms with
  | case1 handle value symbol words ih =>
    simp only [bind_eq_ok, pure_eq_ok] at h
    obtain ⟨m, -, ms', hms', rfl⟩ := h
    simp only [List.length_cons, ih hms']
    omega
  | case2 words hshort =>
    cases h
    match words, hshort with
    | a :: b :: c :: rest, hshort => exact absurd rfl (hshort a b c rest)
    | [], _ => simp
    | [a], _ => simp
    | [a, b], _ => simp

/-- The words of a member are its handle, its value and its symbol. -/
theorem getElem?_of_readMembers {words : List Int16} {ms : List Member}
    (h : t.readMembers words = .ok ms) {k : Nat} {m : Member} (hm : ms[k]? = some m) :
    words[3 * k]? = some m.handle.word.toInt16 ∧ words[3 * k + 1]? = some m.value ∧
      ∃ symbol, words[3 * k + 2]? = some symbol ∧
        t.readText symbol.toUInt16 .symbolOutside = .ok m.symbol := by
  fun_induction readMembers t words generalizing ms k with
  | case1 handle value symbol words ih =>
    simp only [bind_eq_ok, pure_eq_ok] at h
    obtain ⟨first, hfirst, ms', hms', rfl⟩ := h
    cases k with
    | zero =>
      simp only [readMember, bind_eq_ok, pure_eq_ok] at hfirst
      obtain ⟨_, -, name, hname, rfl⟩ := hfirst
      cases hm
      exact ⟨rfl, rfl, symbol, rfl, hname⟩
    | succ k => exact ih hms' hm
  | case2 words hshort =>
    cases h
    simp at hm

/-! ## Reading enumerations -/

/-- Position by position, a stretch of words is what stands there. -/
theorem getElem?_toList_extract {words : Array Int16} {first count k : Nat}
    (hstop : first + count ≤ words.size) (hk : k < count) :
    (words.extract first (first + count)).toList[k]? = words[first + k]? := by
  rw [Array.getElem?_toList, Array.getElem?_extract, if_pos (by omega)]

theorem readEnumeration_eq_ok {start : Nat} {e : Enumeration} :
    t.readEnumeration start = .ok e ↔
      ∃ default count : Int16,
        t.enumWords[start]? = some default ∧ t.enumWords[start + 1]? = some count ∧
        0 < count.toInt ∧ 0 ≤ default.toInt ∧ default.toInt < count.toInt ∧
        start + 2 + count.toInt.toNat * 3 ≤ t.enumWords.size ∧
        ∃ members, t.readMembers (t.enumWords.extract (start + 2)
          (start + 2 + count.toInt.toNat * 3)).toList = .ok members ∧
        e = { default := default.toInt.toNat, members } := by
  unfold readEnumeration enumHeaderWords enumMemberWords
  simp only [bind_eq_ok, demand_eq_ok, require_eq_ok, pure_eq_ok, decide_eq_true_eq,
    Bool.and_eq_true]
  constructor
  · rintro ⟨default, hdefault, count, hcount, _, hpos, _, ⟨hnonneg, hlt⟩, _, hsize, members,
      hmembers, rfl⟩
    exact ⟨default, count, hdefault, hcount, hpos, hnonneg, hlt, hsize, members, hmembers, rfl⟩
  · rintro ⟨default, count, hdefault, hcount, hpos, hnonneg, hlt, hsize, members, hmembers, rfl⟩
    exact ⟨default, hdefault, count, hcount, (), hpos, (), ⟨hnonneg, hlt⟩, (), hsize, members,
      hmembers, rfl⟩

/-- As many members are read as the words are counted for. -/
theorem length_of_readMembers_extract {first count : Nat} {members : List Member}
    (hstop : first + count * 3 ≤ t.enumWords.size)
    (h : t.readMembers (t.enumWords.extract first (first + count * 3)).toList = .ok members) :
    members.length = count := by
  have hwords : (t.enumWords.extract first (first + count * 3)).toList.length = count * 3 := by
    rw [Array.length_toList, Array.size_extract]
    omega
  rw [length_of_readMembers h, hwords, Nat.mul_div_cancel _ (by decide)]

/-- The default of an enumeration is one of its members. -/
theorem default_lt_of_readEnumeration {start : Nat} {e : Enumeration}
    (h : t.readEnumeration start = .ok e) : e.default < e.members.length := by
  obtain ⟨default, count, -, -, hpos, hnonneg, hlt, hsize, members, hmembers, rfl⟩ :=
    readEnumeration_eq_ok.1 h
  have hlength := length_of_readMembers_extract hsize hmembers
  show default.toInt.toNat < members.length
  omega

/-- The words from a position on are those of an enumeration: the position of its default, the
number of its members, and three words for each member. -/
structure WordsOf (t : TableSet) (start : Nat) (e : Enumeration) : Prop where
  default : ∃ word, t.enumWords[start]? = some word ∧ word.toInt = e.default
  count : ∃ word, t.enumWords[start + 1]? = some word ∧ word.toInt = e.members.length
  members : ∀ (k : Nat) (m : Member), e.members[k]? = some m →
    t.enumWords[start + 2 + 3 * k]? = some m.handle.word.toInt16 ∧
      t.enumWords[start + 2 + 3 * k + 1]? = some m.value ∧
      ∃ symbol, t.enumWords[start + 2 + 3 * k + 2]? = some symbol ∧
        t.readText symbol.toUInt16 .symbolOutside = .ok m.symbol

/-- An enumeration that is read has the words that are read. -/
theorem wordsOf_of_readEnumeration {start : Nat} {e : Enumeration}
    (h : t.readEnumeration start = .ok e) : t.WordsOf start e := by
  obtain ⟨default, count, hdefault, hcount, hpos, hnonneg, -, hsize, members, hmembers, rfl⟩ :=
    readEnumeration_eq_ok.1 h
  have hlength : members.length = count.toInt.toNat := length_of_readMembers_extract hsize hmembers
  refine ⟨⟨default, hdefault, (Int.toNat_of_nonneg hnonneg).symm⟩, ⟨count, hcount, ?_⟩, ?_⟩
  · show count.toInt = (members.length : Int)
    omega
  · intro k m hm
    obtain ⟨hk, -⟩ := List.getElem?_eq_some_iff.1 hm
    have hwords := getElem?_of_readMembers hmembers hm
    dsimp only at hk
    rwa [getElem?_toList_extract hsize (by omega), getElem?_toList_extract hsize (by omega),
      getElem?_toList_extract hsize (by omega)] at hwords

/-- **An enumeration is read exactly where one stands.** -/
theorem exists_readEnumeration_iff (hb : t.blob.Built) (start : Nat) :
    (∃ e, t.readEnumeration start = .ok e) ↔ t.EnumerationAt start := by
  constructor
  · rintro ⟨e, he⟩
    obtain ⟨default, count, hdefault, hcount, hpos, hnonneg, hlt, hsize, members, hmembers, -⟩ :=
      readEnumeration_eq_ok.1 he
    refine ⟨default, count, hdefault, hcount, by omega, hnonneg, hlt, by omega, ?_⟩
    intro k handle symbol hk hhandle hsymbol
    refine (exists_readMembers_iff hb _).1 ⟨members, hmembers⟩ k handle symbol ?_ ?_
    · rw [getElem?_toList_extract hsize (by omega)]
      exact hhandle
    · rw [getElem?_toList_extract hsize (by omega)]
      exact hsymbol
  · rintro ⟨default, count, hdefault, hcount, hpos, hnonneg, hlt, hsize, hwords⟩
    have hstop : start + 2 + count.toInt.toNat * 3 ≤ t.enumWords.size := by omega
    -- beyond the words of the enumeration there is nothing to read as a member
    have hinside : ∀ k word, (t.enumWords.extract (start + 2)
        (start + 2 + count.toInt.toNat * 3)).toList[k]? = some word →
          k < count.toInt.toNat * 3 := by
      intro k word h
      obtain ⟨hk, -⟩ := List.getElem?_eq_some_iff.1 h
      rw [Array.length_toList, Array.size_extract] at hk
      omega
    obtain ⟨members, hmembers⟩ := (exists_readMembers_iff hb (t.enumWords.extract (start + 2)
        (start + 2 + count.toInt.toNat * 3)).toList).2 fun k handle symbol hhandle hsymbol => by
      have hlast := hinside _ _ hsymbol
      rw [getElem?_toList_extract hstop (by omega)] at hhandle hsymbol
      exact hwords k handle symbol (by omega) hhandle hsymbol
    exact ⟨_, readEnumeration_eq_ok.2 ⟨default, count, hdefault, hcount, by omega, hnonneg, hlt,
      hstop, members, hmembers, rfl⟩⟩

/-! ## The pool -/

/-- Each enumeration of the pool was read at the position that is noted for it. -/
def PoolRead (t : TableSet) (pool : EnumPool) : Prop :=
  pool.starts.size = pool.enums.size ∧
    ∀ (k : Nat) (start : UInt16), pool.starts[k]? = some start →
      ∃ e, pool.enums[k]? = some e ∧ t.readEnumeration start.toNat = .ok e

/-- One pool holds every enumeration of another at its position. -/
def EnumPool.Extends (pool' pool : EnumPool) : Prop :=
  ∀ (k : Nat) (e : Enumeration), pool.enums[k]? = some e → pool'.enums[k]? = some e

theorem EnumPool.Extends.refl (pool : EnumPool) : pool.Extends pool := by
  intro k e h
  exact h

theorem EnumPool.Extends.trans {pool₁ pool₂ pool₃ : EnumPool} (h₁₂ : pool₂.Extends pool₁)
    (h₂₃ : pool₃.Extends pool₂) : pool₃.Extends pool₁ := by
  intro k e h
  exact h₂₃ k e (h₁₂ k e h)

theorem poolRead_empty : t.PoolRead ⟨#[], #[]⟩ := by
  constructor
  · rfl
  · intro k start h
    simp at h

/-- What is found in an array stands at the position at which it is found. -/
theorem getElem?_of_idxOf? {starts : Array UInt16} {start : UInt16} {k : Nat}
    (h : starts.idxOf? start = some k) : starts[k]? = some start := by
  rw [Array.idxOf?_eq_map_finIdxOf?_val, Option.map_eq_some_iff] at h
  obtain ⟨i, hi, rfl⟩ := h
  rw [Array.getElem?_eq_getElem i.isLt]
  exact congrArg some (Array.finIdxOf?_eq_some_iff.1 hi).1

/-- The position that the pool gives holds the enumeration that is read there, and nothing that
was in the pool is lost. -/
theorem poolEnumeration_eq_ok {pool : EnumPool} (hpool : t.PoolRead pool) {start : UInt16}
    {position : Nat} {pool' : EnumPool}
    (h : t.poolEnumeration pool start = .ok (position, pool')) :
    t.PoolRead pool' ∧ pool'.Extends pool ∧
      ∃ e, pool'.enums[position]? = some e ∧ t.readEnumeration start.toNat = .ok e := by
  unfold poolEnumeration at h
  cases hfound : pool.starts.idxOf? start with
  | some k =>
    rw [hfound] at h
    cases h
    exact ⟨hpool, .refl pool, hpool.2 position start (getElem?_of_idxOf? hfound)⟩
  | none =>
    rw [hfound] at h
    simp only [bind_eq_ok, pure_eq_ok] at h
    -- the enumeration is read and goes to the end of the pool
    obtain ⟨e, he, hpair⟩ := h
    cases hpair
    obtain ⟨hsize, hread⟩ := hpool
    refine ⟨⟨by simp [hsize], ?_⟩, ?_, e, Array.getElem?_push_size, he⟩
    · intro k start' hstart'
      rw [Array.getElem?_push] at hstart' ⊢
      rw [hsize] at hstart'
      by_cases hk : k = pool.enums.size
      · rw [if_pos hk] at hstart' ⊢
        cases hstart'
        exact ⟨e, rfl, he⟩
      · rw [if_neg hk] at hstart' ⊢
        exact hread k start' hstart'
    · intro k e' he'
      obtain ⟨hk, rfl⟩ := Array.getElem?_eq_some_iff.1 he'
      exact Array.getElem?_push_lt hk

/-- The pool gives a position if an enumeration stands where it is asked for one. -/
theorem exists_poolEnumeration_iff (hb : t.blob.Built) {pool : EnumPool} (hpool : t.PoolRead pool)
    (start : UInt16) :
    (∃ p, t.poolEnumeration pool start = .ok p) ↔ t.EnumerationAt start.toNat := by
  rw [← exists_readEnumeration_iff hb]
  constructor
  · rintro ⟨⟨position, pool'⟩, h⟩
    obtain ⟨-, -, e, -, he⟩ := poolEnumeration_eq_ok hpool h
    exact ⟨e, he⟩
  · rintro ⟨e, he⟩
    unfold poolEnumeration
    -- found or not, the pool gives a position
    cases pool.starts.idxOf? start with
    | some k => exact ⟨_, rfl⟩
    | none => exact ⟨_, by rw [he]; rfl⟩

end VariableRegistry.TableSet
