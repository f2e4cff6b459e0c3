/-
# The words of a directory

A directory loses nothing of the descriptors that it was read from: each word of a descriptor can be
had back from its variable. The members of an enumeration are those that stand where its own
descriptor says, although enumerations that begin at the same word are read only once, and only
such enumerations are at the same position of the directory.
-/
import VariableRegistry.Proofs.DirectoryReading

namespace VariableRegistry

/-! ## Words from bits -/

/-- A bit that is masked out of a word is left, or nothing is. -/
theorem and_twoPow_eq_ite (word : UInt16) (i : Nat) :
    word &&& ⟨BitVec.twoPow 16 i⟩ =
      if word &&& ⟨BitVec.twoPow 16 i⟩ ≠ 0 then ⟨BitVec.twoPow 16 i⟩ else 0 := by
  by_cases h : word &&& ⟨BitVec.twoPow 16 i⟩ = 0
  · rw [if_neg (not_not_intro h), h]
  · rw [if_pos h]
    rw [← UInt16.toBitVec_inj, UInt16.toBitVec_and, BitVec.and_twoPow] at h ⊢
    split_ifs at h ⊢ with hbit
    · rfl
    · exact absurd rfl h

/-- A type word without unknown flags is its code with its flags. -/
theorem typeWord_eq_or {word : UInt16} (h : word &&& ~~~0x300F = 0) :
    word = word &&& 0x000F ||| word &&& 0x1000 ||| word &&& 0x2000 := by
  have hknown : word &&& (0x000F ||| 0x1000 ||| 0x2000) = word := (and_not_eq_zero_iff word _).1 h
  have hparts : word &&& (0x000F ||| 0x1000 ||| 0x2000) =
      word &&& 0x000F ||| word &&& 0x1000 ||| word &&& 0x2000 := by
    simp only [← UInt16.toBitVec_inj, UInt16.toBitVec_and, UInt16.toBitVec_or,
      BitVec.and_or_distrib_left]
  exact hknown.symm.trans hparts

theorem Storage.bits_of_ofBits? {word : UInt16} {s : Storage} (hknown : word &&& ~~~mask = 0)
    (h : ofBits? word = some s) : s.bits = word := by
  rw [and_not_eq_zero_iff] at hknown
  unfold ofBits? at h
  rw [hknown] at h
  split_ifs at h with h0 h1 h2
  · cases h
    exact h0.symm
  · cases h
    exact h1.symm
  · cases h
    exact h2.symm

/-! ## Words of a variable -/

/-- The places of a kind of variable are the words of a descriptor. The members of an enumeration
are those that are read where the descriptor says, and have the words that stand there. -/
def VarKind.KeepsPlaces (t : TableSet) (enums : Array Enumeration) (raw : RawDescriptor) :
    VarKind → Prop
  | number _ template data => template = raw.source.toNat ∧ data = raw.data.toNat
  | enumeration position data => data = raw.data.toNat ∧
      ∃ e, enums[position]? = some e ∧ t.readEnumeration raw.source.toNat = .ok e ∧
        t.WordsOf raw.source.toNat e
  | string default data => default = raw.source.toNat ∧ 32 * data = raw.data.toNat
  | constant text => text = raw.source.toNat
  | action => True

/-- Nothing of a descriptor is lost in a variable. -/
structure Descriptor.Keeps (t : TableSet) (enums : Array Enumeration) (raw : RawDescriptor)
    (var : Descriptor) : Prop where
  handle : var.handle.word = raw.handle
  name : t.readText raw.name .nameOutside = .ok var.name
  type : var.typeWord = raw.type
  channels : var.channels = raw.channels
  rights : var.rights.bits = raw.rights
  storage : var.storage.bits = raw.storage
  format : var.format.code = raw.format
  places : var.kind.KeepsPlaces t enums raw

namespace TableSet

variable {t : TableSet} {pool pool' : EnumPool} {enums : Array Enumeration} {raw : RawDescriptor}
  {var : Descriptor} {type : VarType}

theorem ReadsKind.varType_eq {constant : Bool} {kind : VarKind}
    (h : t.ReadsKind pool raw type constant kind pool') : kind.varType = type := by
  cases h <;> rfl

/-- A variable is a constant if the word of its type says so. -/
theorem ReadsAs.isConstant_eq {index : Nat} (h : t.ReadsAs pool index raw type var pool') :
    var.isConstant = decide (raw.type &&& 0x2000 ≠ 0) := by
  have hkind := readKind_eq_ok.1 h.kind
  have hstring := h.constant
  rw [← @decide_eq_true_iff (raw.type &&& 0x2000 ≠ 0)] at hstring
  unfold Descriptor.isConstant
  generalize decide (raw.type &&& 0x2000 ≠ 0) = constant at hkind hstring ⊢
  generalize var.kind = kind at hkind ⊢
  -- only a string can be a constant
  cases hkind with
  | number _ _ => simpa using hstring
  | enumeration _ _ => simpa using hstring
  | constant _ => rfl
  | string _ _ _ _ => rfl
  | action => simpa using hstring

/-- The type word of a variable is that of its descriptor. -/
theorem ReadsAs.typeWord_eq {index : Nat} (h : t.ReadsAs pool index raw type var pool') :
    var.typeWord = raw.type := by
  have htype : var.varType = type := (readKind_eq_ok.1 h.kind).varType_eq
  have hvector : var.vector = true ↔ raw.type &&& 0x1000 ≠ 0 := by
    rw [h.vector, decide_eq_true_eq, h.several]
  have hflag : ∀ i, raw.type &&& ⟨BitVec.twoPow 16 i⟩ = _ := and_twoPow_eq_ite raw.type
  rw [typeWord_eq_or h.flags, Descriptor.typeWord, htype, h.code, h.isConstant_eq]
  simp only [hvector, decide_eq_true_eq, VarType.vectorFlag, VarType.constFlag]
  rw [show (0x1000 : UInt16) = ⟨BitVec.twoPow 16 12⟩ from rfl,
    show (0x2000 : UInt16) = ⟨BitVec.twoPow 16 13⟩ from rfl, ← hflag 12, ← hflag 13]

/-- The places of a variable are those of its descriptor. -/
theorem ReadsAs.keepsPlaces {index : Nat} (h : t.ReadsAs pool index raw type var pool')
    (hmeans : raw.Means t enums type var.kind) : var.kind.KeepsPlaces t enums raw := by
  have hkind := readKind_eq_ok.1 h.kind
  generalize decide (raw.type &&& 0x2000 ≠ 0) = constant at hkind
  generalize var.kind = kind at hkind hmeans ⊢
  cases hkind with
  | number _ _ => exact ⟨rfl, rfl⟩
  | enumeration _ _ =>
    obtain ⟨position, e, hk, he, hreads⟩ := hmeans
    cases hk
    exact ⟨rfl, e, he, hreads, wordsOf_of_readEnumeration hreads⟩
  | constant _ => exact rfl
  | string _ _ haligned _ =>
    -- the first byte of the string is the first byte of a cell
    exact ⟨rfl, Nat.mul_div_cancel' (Nat.dvd_of_mod_eq_zero haligned)⟩
  | action => trivial

/-- What was read from a descriptor has all its words. -/
theorem ReadFrom.keeps {index : Nat} (h : t.ReadFrom enums index raw var) :
    var.Keeps t enums raw := by
  obtain ⟨type, pool, pool', hread, hmeans⟩ := h
  exact {
    handle := by rw [hread.handle]
    name := hread.name
    type := hread.typeWord_eq
    channels := hread.channels
    rights := by rw [hread.rights]
    storage := Storage.bits_of_ofBits? hread.knownStorage hread.storage
    format := (Format.ofCode?_eq_some_iff.1 hread.format).symm
    places := hread.keepsPlaces hmeans }

/-! ## Positions of enumerations -/

/-- No two enumerations of the pool begin at the same word. -/
def EnumPool.Distinct (pool : EnumPool) : Prop :=
  ∀ (i j : Nat) (start : UInt16), pool.starts[i]? = some start → pool.starts[j]? = some start →
    i = j

/-- What a pool notes for its positions is noted in another one. -/
def EnumPool.NotedIn (pool pool' : EnumPool) : Prop :=
  ∀ (i : Nat) (start : UInt16), pool.starts[i]? = some start → pool'.starts[i]? = some start

theorem EnumPool.NotedIn.refl (pool : EnumPool) : pool.NotedIn pool := fun _ _ h => h

/-- The pool gives a position for which the word is noted, and notes no word twice. -/
theorem notedIn_of_poolEnumeration (hpool : t.PoolRead pool) (hdistinct : pool.Distinct)
    {start : UInt16} {position : Nat} (h : t.poolEnumeration pool start = .ok (position, pool')) :
    pool'.Distinct ∧ pool.NotedIn pool' ∧ pool'.starts[position]? = some start := by
  unfold poolEnumeration at h
  cases hfound : pool.starts.idxOf? start with
  | some k =>
    rw [hfound] at h
    cases h
    exact ⟨hdistinct, .refl _, getElem?_of_idxOf? hfound⟩
  | none =>
    rw [hfound] at h
    simp only [bind_eq_ok, pure_eq_ok] at h
    obtain ⟨e, -, hpair⟩ := h
    cases hpair
    -- a word that was not found is noted at no earlier position
    have hnew : ∀ i, pool.starts[i]? ≠ some start := fun i hi =>
      Array.idxOf?_eq_none_iff.1 hfound (Array.mem_of_getElem? hi)
    refine ⟨?_, ?_, ?_⟩
    · intro i j other hi hj
      simp only [Array.getElem?_push] at hi hj
      split_ifs at hi hj with hlast hlast' hlast'
      · rw [hlast, hlast']
      · cases hi
        exact absurd hj (hnew j)
      · cases hj
        exact absurd hi (hnew i)
      · exact hdistinct i j other hi hj
    · intro i other hi
      obtain ⟨hlt, -⟩ := Array.getElem?_eq_some_iff.1 hi
      rw [Array.getElem?_push, if_neg (Nat.ne_of_lt hlt)]
      exact hi
    · rw [← hpool.1]
      exact Array.getElem?_push_size

/-- Whatever kind is read, the pool notes no word twice, and it notes the word of an enumeration. -/
theorem notedIn_of_readKind (hpool : t.PoolRead pool) (hdistinct : pool.Distinct)
    {constant : Bool} {kind : VarKind} (h : t.ReadsKind pool raw type constant kind pool') :
    pool'.Distinct ∧ pool.NotedIn pool' ∧
      ∀ position data, kind = .enumeration position data →
        pool'.starts[position]? = some raw.source := by
  cases h with
  | enumeration _ hposition =>
    obtain ⟨hdistinct', hkept, hnoted⟩ := notedIn_of_poolEnumeration hpool hdistinct hposition
    refine ⟨hdistinct', hkept, ?_⟩
    intro position' data hk
    cases hk
    exact hnoted
  | number _ _ => exact ⟨hdistinct, .refl pool, by simp⟩
  | constant _ => exact ⟨hdistinct, .refl pool, by simp⟩
  | string _ _ _ _ => exact ⟨hdistinct, .refl pool, by simp⟩
  | action => exact ⟨hdistinct, .refl pool, by simp⟩

/-- The words at which the enumerations begin are noted for the positions that the variables which
were read so far carry. -/
structure PoolNotes (t : TableSet) (vars : Array Descriptor) (pool : EnumPool) : Prop where
  read : t.PoolRead pool
  distinct : pool.Distinct
  noted : ∀ (i : Nat) (raw : RawDescriptor) (var : Descriptor) (position data : Nat),
    t.vars[i]? = some raw → vars[i]? = some var → var.kind = .enumeration position data →
      pool.starts[position]? = some raw.source

theorem poolNotes_empty : t.PoolNotes #[] ⟨#[], #[]⟩ where
  read := poolRead_empty
  distinct := by simp [EnumPool.Distinct]
  noted := by simp

theorem PoolNotes.push {vars : Array Descriptor} (hnotes : t.PoolNotes vars pool)
    (hraw : t.vars[vars.size]? = some raw)
    (h : t.readDescriptor pool vars.size raw = .ok (var, pool')) :
    t.PoolNotes (vars.push var) pool' := by
  obtain ⟨hread, -, -⟩ := resolves_of_readDescriptor hnotes.read h vars
  obtain ⟨type, hone⟩ := readDescriptor_eq_ok.1 h
  obtain ⟨hdistinct, hkept, hnew⟩ := notedIn_of_readKind hnotes.read hnotes.distinct
    (readKind_eq_ok.1 hone.kind)
  refine ⟨hread, hdistinct, ?_⟩
  intro i raw' var' position data hraw' hvar' hk
  rw [Array.getElem?_push] at hvar'
  split_ifs at hvar' with hi
  · subst hi
    cases hvar'
    obtain rfl := Option.some.inj (hraw.symm.trans hraw')
    exact hnew position data hk
  · exact hkept position _ (hnotes.noted i raw' var' position data hraw' hvar' hk)

/-- **Two enumerations have the same position exactly if they begin at the same word.** -/
theorem position_eq_iff {d : Directory} (h : t.directory = .ok d) {i j : Nat}
    {raw raw' : RawDescriptor} {var var' : Descriptor} {position position' data data' : Nat}
    (hraw : t.vars[i]? = some raw) (hraw' : t.vars[j]? = some raw') (hvar : d.vars[i]? = some var)
    (hvar' : d.vars[j]? = some var') (hk : var.kind = .enumeration position data)
    (hk' : var'.kind = .enumeration position' data') :
    position = position' ↔ raw.source = raw'.source := by
  obtain ⟨vars, pool, rfl, -, hnotes⟩ :=
    directory_induction poolNotes_empty (fun hnotes => hnotes.push) h
  have hnoted := hnotes.noted i raw var position data hraw hvar hk
  have hnoted' := hnotes.noted j raw' var' position' data' hraw' hvar' hk'
  constructor
  · rintro rfl
    exact Option.some.inj (hnoted.symm.trans hnoted')
  · intro hsource
    exact hnotes.distinct position position' raw.source hnoted (hsource ▸ hnoted')

/-- **A directory loses nothing of the descriptors.** Every descriptor of a table set that was
turned into a directory has its variable at the same position, from which its words can be had back:
the type word with its flags, the rights, the storage class, the format, the channels, the handle,
and the places of its kind. The members of an enumeration and its default are those that are read
where its own descriptor says; two enumerations have theirs at the same position exactly if their
descriptors say the same. -/
theorem directory_keeps_words (t : TableSet) (d : Directory) (h : t.directory = .ok d) :
    d.vars.size = t.vars.size ∧
    (∀ (i : Nat) (raw : RawDescriptor), t.vars[i]? = some raw →
      ∃ var, d.vars[i]? = some var ∧ var.Keeps t d.enums raw) ∧
    ∀ (i j : Nat) (raw raw' : RawDescriptor) (var var' : Descriptor)
      (position position' data data' : Nat),
      t.vars[i]? = some raw → t.vars[j]? = some raw' →
      d.vars[i]? = some var → d.vars[j]? = some var' →
      var.kind = .enumeration position data → var'.kind = .enumeration position' data' →
      (position = position' ↔ raw.source = raw'.source) := by
  obtain ⟨hsize, hread⟩ := readFrom_of_directory h
  refine ⟨hsize, ?_, ?_⟩
  · intro i raw hraw
    obtain ⟨var, hvar, hfrom⟩ := hread i raw hraw
    exact ⟨var, hvar, hfrom.keeps⟩
  · intro i j raw raw' var var' position position' data data' hraw hraw' hvar hvar' hk hk'
    exact position_eq_iff h hraw hraw' hvar hvar' hk hk'

/-- A table set with three enumerations, two of which share their words. The words of the other one
begin among these, one word later. Behind them comes a string in the second cell. -/
def sharingMembers : TableSet where
  cells := ⟨0, 0, 0, 0⟩
  stringCells := 2
  enumCells := 3
  blob := .ofStrings ["a"]
  enumWords := #[0, 2, 3, -1, -1, -1, -1, -1, -1, -1, 7, 0]
  templates := ⟨#[], #[], #[], #[]⟩
  vars := #[⟨0, 0xFFFF, 6, 1, 0x0011, 0, 0, 0, 0⟩, ⟨1, 0xFFFF, 6, 1, 0x0011, 1, 1, 0, 0⟩,
    ⟨2, 0xFFFF, 6, 1, 0x8011, 0, 2, 0, 4⟩, ⟨3, 0, 7, 1, 0x0011, 0, 32, 0x2000, 0⟩]
  policy := .exact

/-- The first and the third enumeration are at the same position, and the second one is at another,
where the members are that begin at its own word. The string keeps its words. -/
theorem shared_members_keep_words : ∃ d p₀ p₁ p₂ var, sharingMembers.directory = .ok d ∧
    d.vars.map (·.kind) =
      #[.enumeration p₀ 0, .enumeration p₁ 1, .enumeration p₂ 2, .string 0 1] ∧
    p₀ = p₂ ∧ p₀ ≠ p₁ ∧
    (∃ e, d.enums[p₁]? = some e ∧ sharingMembers.readEnumeration 1 = .ok e) ∧
    d.vars[3]? = some var ∧ var.typeWord = 7 ∧ var.storage.bits = 0x2000 := by
  have hread : (sharingMembers.directory.toOption.map fun d => d.vars.map (·.kind)) =
      some #[.enumeration 0 0, .enumeration 1 1, .enumeration 0 2, .string 0 1] := by
    decide +kernel
  obtain ⟨d, hd, hkinds⟩ := Option.map_eq_some_iff.1 hread
  have hdirectory : sharingMembers.directory = .ok d := toOption_eq_some.1 hd
  have hvar : ∀ (i : Nat) (kind : VarKind),
      (#[.enumeration 0 0, .enumeration 1 1, .enumeration 0 2, .string 0 1] : Array VarKind)[i]? =
        some kind → ∃ var, d.vars[i]? = some var ∧ var.kind = kind := by
    intro i kind hkind
    rw [← hkinds, Array.getElem?_map] at hkind
    exact Option.map_eq_some_iff.1 hkind
  obtain ⟨v₀, h₀, hk₀⟩ := hvar 0 _ rfl
  obtain ⟨v₁, h₁, hk₁⟩ := hvar 1 _ rfl
  obtain ⟨v₂, h₂, hk₂⟩ := hvar 2 _ rfl
  obtain ⟨-, hkeeps, hpositions⟩ := directory_keeps_words sharingMembers d hdirectory
  obtain ⟨v, hv, hwords⟩ := hkeeps 1 _ rfl
  obtain rfl := Option.some.inj (h₁.symm.trans hv)
  have hplaces := hwords.places
  rw [hk₁] at hplaces
  obtain ⟨-, e, he, hreads, -⟩ := hplaces
  obtain ⟨v₃, h₃, hstring⟩ := hkeeps 3 _ rfl
  exact ⟨d, 0, 1, 0, v₃, hdirectory, hkinds,
    (hpositions 0 2 _ _ v₀ v₂ 0 0 0 2 rfl rfl h₀ h₂ hk₀ hk₂).2 rfl,
    fun hsame =>
      absurd ((hpositions 0 1 _ _ v₀ v₁ 0 1 0 1 rfl rfl h₀ h₁ hk₀ hk₁).1 hsame) (by decide),
    ⟨e, he, hreads⟩, h₃, hstring.type, hstring.storage⟩

end TableSet

end VariableRegistry
