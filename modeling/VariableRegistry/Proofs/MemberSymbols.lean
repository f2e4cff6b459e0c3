/-
# Members by their symbols

What a text stands for that is written to an enumeration: the integer that it names if there are
blanks around it at most, and otherwise the first member whose symbol it is without these blanks. A
member is written by its symbol, then, unless the symbol is a numeral or has blanks at its ends.
-/
import VariableRegistry.Proofs.NumeralGrammar
import VariableRegistry.Proofs.TextAccess
import VariableRegistry.Proofs.TypedContract

namespace VariableRegistry

/-- The texts that are read as an `INT16` are those that name it. -/
theorem NumType.parseInt16_eq_ok_iff {s : String} {v : Int16} :
    parseInt16 s = .ok v ↔ Numeral.Names 16 (Text.trim s.toList) v.toInt := by
  obtain ⟨cs, hcs, hok, -⟩ := followsGrammar_parseInt16 s
  rw [hcs.eq_trim]
  exact hok v

/-! ## Symbols -/

namespace Enumeration

variable {e : Enumeration} {s : String} {m : Member}

/-- A member has a symbol, and none before it has the same one. -/
def HasFirst (e : Enumeration) (s : String) (m : Member) : Prop :=
  ∃ front back, e.members = front ++ m :: back ∧ m.symbol = some s ∧
    ∀ m' ∈ front, m'.symbol ≠ some s

theorem bySymbol?_eq_some_iff : e.bySymbol? s = some m ↔ e.HasFirst s m := by
  rw [bySymbol?, List.find?_eq_some_iff_append, HasFirst]
  simp only [decide_eq_true_eq, Bool.not_eq_true', decide_eq_false_iff_not]
  constructor
  · rintro ⟨hm, front, back, hmembers, hfront⟩
    exact ⟨front, back, hmembers, hm, hfront⟩
  · rintro ⟨front, back, hmembers, hm, hfront⟩
    exact ⟨hm, front, back, hmembers, hfront⟩

theorem bySymbol?_eq_none_iff : e.bySymbol? s = none ↔ ∀ m ∈ e.members, m.symbol ≠ some s := by
  simp only [bySymbol?, List.find?_eq_none, decide_eq_true_eq]

/-! ## What a text stands for -/

/-- A text is a numeral of an `INT16`, with blanks around it at most. -/
def IsNumeral (s : String) : Prop := ∃ i, Numeral.Names 16 (Text.trim s.toList) i

/-- What a text stands for in an enumeration, or why it is refused: an integer comes first, and the
symbol of a member is looked for without the blanks around the text. -/
inductive Reads (e : Enumeration) (s : String) : Except AccessError Int16 → Prop where
  | numeral {v : Int16} (hv : Numeral.Names 16 (Text.trim s.toList) v.toInt)
      (hm : ∃ m ∈ e.members, m.value = v) : Reads e s (.ok v)
  | noMember {v : Int16} (hv : Numeral.Names 16 (Text.trim s.toList) v.toInt)
      (hm : ∀ m ∈ e.members, m.value ≠ v) : Reads e s (.error .invalidEnum)
  | symbol {m : Member} (hs : ¬IsNumeral s)
      (hm : e.HasFirst (String.ofList (Text.trim s.toList)) m) : Reads e s (.ok m.value)
  | noSymbol (hs : ¬IsNumeral s)
      (hm : ∀ m ∈ e.members, m.symbol ≠ some (String.ofList (Text.trim s.toList))) :
      Reads e s (.error .invalidValue)

/-- The numerals are the texts that are read as an integer. -/
theorem isNumeral_iff : IsNumeral s ↔ ∃ v, NumType.parseInt16 s = .ok v := by
  constructor
  · rintro ⟨i, hi⟩
    obtain ⟨hlow, hhigh⟩ := hi.isWord (by decide)
    refine ⟨Int16.ofInt i, NumType.parseInt16_eq_ok_iff.2 ?_⟩
    rw [Int16.toInt_ofInt_of_le hlow hhigh]
    exact hi
  · rintro ⟨v, hv⟩
    exact ⟨v.toInt, NumType.parseInt16_eq_ok_iff.1 hv⟩

/-- Every text stands for a value or is refused. -/
theorem exists_reads (e : Enumeration) (s : String) : ∃ x, e.Reads s x := by
  by_cases hs : IsNumeral s
  · obtain ⟨v, hv⟩ := isNumeral_iff.1 hs
    rw [NumType.parseInt16_eq_ok_iff] at hv
    by_cases hm : ∃ m ∈ e.members, m.value = v
    · exact ⟨_, .numeral hv hm⟩
    · exact ⟨_, .noMember hv fun m hmem hmv => hm ⟨m, hmem, hmv⟩⟩
  · cases hm : e.bySymbol? (String.ofList (Text.trim s.toList)) with
    | some m => exact ⟨_, .symbol hs (bySymbol?_eq_some_iff.1 hm)⟩
    | none => exact ⟨_, .noSymbol hs (bySymbol?_eq_none_iff.1 hm)⟩

/-- A symbol that is no numeral and has no blanks at its ends stands for its first member. -/
theorem HasFirst.reads (h : e.HasFirst s m) (hs : ¬IsNumeral s)
    (hstripped : Text.IsStripped s.toList s.toList) : e.Reads s (.ok m.value) := by
  refine .symbol hs ?_
  rw [hstripped.eq_trim, String.ofList_toList]
  exact h

end Enumeration

/-! ## Writing by symbol -/

namespace Registry

variable {t : TableSet} {r : Registry} {q : Request} {d : Descriptor} {members data : Nat}
  {e : Enumeration} {s : String} {x y : Except AccessError Int16}

/-- A text is written as a value, which is stored in a cell while everything else stays, or it is
refused with an error and nothing changes. -/
def WrittenAs (r : Registry) (q : Request) (i : Nat) (s : String) :
    Except AccessError Int16 → Prop
  | .ok v => ∃ r', r.step (.text q s) = (.text (.ok ()) s, r') ∧ r.MemberReplaced i v r'
  | .error e => r.step (.text q s) = (.text (.error e) s, r)

/-- A text is written as one value only, or refused with one error. -/
theorem WrittenAs.unique {i : Nat} {c : Int16} (hc : r.store.enums[i]? = some c)
    (hx : r.WrittenAs q i s x) (hy : r.WrittenAs q i s y) : x = y := by
  rcases x with e | v <;> rcases y with e' | v'
  · cases Prod.mk.inj (hx.symm.trans hy)
    simp_all
  · obtain ⟨r', hy, -⟩ := hy
    cases hx.symm.trans hy
  · obtain ⟨r', hx, -⟩ := hx
    cases hx.symm.trans hy
  · obtain ⟨r', hx, -, hv⟩ := hx
    obtain ⟨r'', hy, -, hv'⟩ := hy
    cases hx.symm.trans hy
    have hcell := (hv i).symm.trans (hv' i)
    rw [if_pos rfl, if_pos rfl, hc] at hcell
    cases hcell
    rfl

/-- A text that names a value does what the contract of typed access says of this value. -/
theorem step_text_of_rule (hr : r.Belongs t) (hd : r.descriptor q.handle = .ok d)
    (hk : d.kind = .enumeration members data) (hq : q.direction = .write) {v : Int16}
    (hv : r.Names d s .int16 v) {o : Except AccessError Unit} {r' : Registry}
    (hrule : TypedContract r q .int16 v o v r') : r.step (.text q s) = (.text o s, r') := by
  have hu := Descriptor.accessType?_eq_some.2 (.inr ⟨rfl, members, data, hk⟩)
  obtain ⟨result, r'', htyped, htext⟩ := (textIsTyped hr hd hu).write q s v rfl hq hv
  simp only [step, outcome_of_rule hr hrule, Prod.mk.injEq, Reply.typed.injEq, true_and] at htyped
  rw [htext, htyped.1.1, htyped.2]

/-- An admitted write does to an enumeration what the text stands for. -/
theorem Admits.writtenAs (hr : r.Belongs t) (h : r.Admits q d)
    (hk : d.kind = .enumeration members data) (he : r.directory.enums[members]? = some e)
    (hq : q.direction = .write) (hx : e.Reads s x) :
    r.WrittenAs q (data + q.channel.toNat) s x := by
  have hd := descriptor_eq_ok.2 h.known
  obtain ⟨c, hc⟩ := h.member_cell hr hk
  -- a value of a member is stored
  have hstores : ∀ v : Int16, r.Names d s .int16 v → (∃ m ∈ e.members, m.value = v) →
      r.WrittenAs q (data + q.channel.toNat) s (.ok v) := by
    intro v hv hm
    have hreplaced := (memberReplaced_iff (x := v) hc).2 rfl
    exact ⟨_, step_text_of_rule hr hd hk hq hv (.writeMember h hk hq he hm hreplaced), hreplaced⟩
  have hnone : ¬Enumeration.IsNumeral s → ∀ v, NumType.parseInt16 s ≠ .ok v := fun hs v hv =>
    hs (Enumeration.isNumeral_iff.2 ⟨v, hv⟩)
  cases hx with
  | @numeral v hv hm =>
    exact hstores v (.numeral hk (NumType.parseInt16_eq_ok_iff.2 hv)) hm
  | noMember hv hm =>
    have hnames : r.Names d s .int16 _ := .numeral hk (NumType.parseInt16_eq_ok_iff.2 hv)
    exact step_text_of_rule hr hd hk hq hnames (.invalidEnum h hk hq he hm)
  | @symbol m hs hm =>
    refine hstores m.value ?_ ?_
    · exact .symbol hk (hnone hs) he (Enumeration.bySymbol?_eq_some_iff.2 hm)
    · obtain ⟨front, back, hmembers, -, -⟩ := hm
      exact ⟨m, by rw [hmembers]; exact List.mem_append_right _ List.mem_cons_self, rfl⟩
  | noSymbol hs hm =>
    have hu := Descriptor.accessType?_eq_some.2 (.inr ⟨rfl, members, data, hk⟩)
    refine (textIsTyped hr hd hu).refuse q s rfl hq fun v hv => ?_
    -- the text names nothing, neither as an integer nor as a symbol
    cases hv with
    | number hk' _ => cases hk.symm.trans hk'
    | numeral _ hv => exact hnone hs v hv
    | symbol hk' _ he' hm' =>
      cases hk.symm.trans hk'
      cases he.symm.trans he'
      rw [Enumeration.bySymbol?_eq_none_iff.2 hm] at hm'
      cases hm'

end Registry

/-! ## Symbols of three kinds -/

/-- Members whose symbols are a word, a numeral and a word behind a blank. -/
def Enumeration.symbols : Enumeration where
  default := 1
  members := [⟨.none, 5, some "on"⟩, ⟨.none, 6, some "7"⟩, ⟨.none, 9, some " up"⟩]

/-- A variable with these members. -/
def TableSet.symbols : TableSet where
  cells := ⟨0, 0, 0, 0⟩
  stringCells := 0
  enumCells := 1
  blob := .ofStrings ["on", "7", " up"]
  enumWords := #[1, 3, -1, 5, 0, -1, 6, 3, -1, 9, 5]
  templates := ⟨#[], #[], #[], #[]⟩
  vars := #[⟨0, 0xFFFF, 0x0006, 1, 0x0011, 0, 0, 0, 0⟩]
  policy := .exact

namespace Registry

/-- The beginning of a registry of this variable, and which requests it grants. -/
theorem exists_init_symbols : ∃ r d, Registry.init .symbols = .ok r ∧ r.descriptor ⟨0⟩ = .ok d ∧
    d.kind = .enumeration 0 0 ∧ r.directory.enums[0]? = some .symbols ∧
    r.Grants d ⟨⟨0⟩, .write, 0, ⟨0x0011⟩⟩ ∧
    (r.step (.text ⟨⟨0⟩, .write, 0, ⟨0x0011⟩⟩ "7")).1.error? = some .invalidEnum := by
  have hread : ((Registry.init .symbols).toOption.bind fun r =>
      (r.descriptor ⟨0⟩).toOption.map fun d => (d, r.directory.enums[0]?, r.policy,
        (r.step (.text ⟨⟨0⟩, .write, 0, ⟨0x0011⟩⟩ "7")).1.error?)) =
      some (⟨⟨0⟩, none, .enumeration 0 0, 1, false, ⟨0x0011⟩, .ram, .default⟩, some .symbols,
        .exact, some .invalidEnum) := by
    decide +kernel
  obtain ⟨r, hr, hd⟩ := Option.bind_eq_some_iff.1 hread
  obtain ⟨d, hd, heq⟩ := Option.map_eq_some_iff.1 hd
  simp only [Prod.mk.injEq] at heq
  obtain ⟨rfl, he, hpolicy, herror⟩ := heq
  rw [toOption_eq_some] at hr hd
  refine ⟨r, _, hr, hd, rfl, he, ?_, herror⟩
  unfold Grants
  rw [hpolicy]
  decide

/-- **A member is written by its symbol.** In every state that calls lead to, whoever may write to
an enumeration stores the value of a member by the symbol of which this member is the first one,
unless the symbol is a numeral or has blanks at its ends. In any case the symbol is written as what
it stands for as a text, where an integer comes first and blanks at the ends do not count. -/
theorem member_written_by_symbol (t : TableSet) (r : Registry) (hreach : Reachable t r)
    (q : Request) (d : Descriptor) (members data : Nat) (e : Enumeration) (m : Member)
    (s : String) (hd : r.descriptor q.handle = .ok d) (hk : d.kind = .enumeration members data)
    (he : r.directory.enums[members]? = some e) (hm : e.HasFirst s m)
    (hq : q.direction = .write) (hg : r.Grants d q) (hchannel : d.HasChannel q.channel) :
    (¬Enumeration.IsNumeral s → Text.IsStripped s.toList s.toList →
      r.WrittenAs q (data + q.channel.toNat) s (.ok m.value)) ∧
    ∀ x, r.WrittenAs q (data + q.channel.toNat) s x ↔ e.Reads s x := by
  have hr : r.Belongs t := hreach.belongs
  have h : r.Admits q d := ⟨descriptor_eq_ok.1 hd, hg, hchannel⟩
  obtain ⟨c, hc⟩ := h.member_cell hr hk
  refine ⟨fun hs hstripped => h.writtenAs hr hk he hq (hm.reads hs hstripped), fun x => ?_⟩
  constructor
  · intro hx
    obtain ⟨y, hy⟩ := e.exists_reads s
    rw [hx.unique hc (h.writtenAs hr hk he hq hy)]
    exact hy
  · exact h.writtenAs hr hk he hq

/-- The word is written by its symbol, the numeral is read as an integer that no member has, and the
blank in front of the last symbol is not looked for. -/
theorem symbols_written : ∃ r, Reachable .symbols r ∧
    r.WrittenAs ⟨⟨0⟩, .write, 0, ⟨0x0011⟩⟩ 0 "on" (.ok 5) ∧
    r.WrittenAs ⟨⟨0⟩, .write, 0, ⟨0x0011⟩⟩ 0 "7" (.error .invalidEnum) ∧
    r.WrittenAs ⟨⟨0⟩, .write, 0, ⟨0x0011⟩⟩ 0 " up" (.error .invalidValue) := by
  obtain ⟨r, d, hr, hd, hk, he, hg, -⟩ := exists_init_symbols
  have hwritten := fun m s (hm : Enumeration.symbols.HasFirst s m) =>
    member_written_by_symbol .symbols r (.init hr) ⟨⟨0⟩, .write, 0, ⟨0x0011⟩⟩ d 0 0 .symbols m s
      hd hk he hm rfl hg (.inl rfl)
  have hword : ∀ s, NumType.parseInt16 s = .error .invalidValue → ¬Enumeration.IsNumeral s := by
    intro s hs hnumeral
    obtain ⟨v, hv⟩ := Enumeration.isNumeral_iff.1 hnumeral
    cases hs.symm.trans hv
  refine ⟨r, .init hr, ?_, ?_, ?_⟩
  · have hon := hwritten ⟨.none, 5, some "on"⟩ "on" ⟨[], _, rfl, rfl, nofun⟩
    exact hon.1 (hword "on" (by decide +kernel)) (Text.isStripped_trim "on".toList)
  · have hnumeral := hwritten ⟨.none, 6, some "7"⟩ "7" ⟨[_], _, rfl, rfl, by decide⟩
    refine (hnumeral.2 _).2 (.noMember (v := 7) ?_ (by decide))
    exact NumType.parseInt16_eq_ok_iff.1 (by decide +kernel)
  · have hup := hwritten ⟨.none, 9, some " up"⟩ " up" ⟨[_, _], _, rfl, rfl, by decide⟩
    exact (hup.2 _).2 (.noSymbol (hword " up" (by decide +kernel)) (by decide))

/-- Not every symbol writes its member: that of the second member is read as the integer seven. -/
theorem symbol_not_always_written :
    ¬∀ (t : TableSet) (r : Registry) (q : Request) (d : Descriptor) (members data : Nat)
      (e : Enumeration) (m : Member) (s : String), Reachable t r →
      r.descriptor q.handle = .ok d → d.kind = .enumeration members data →
      r.directory.enums[members]? = some e → e.HasFirst s m → q.direction = .write →
      r.Grants d q → d.HasChannel q.channel →
        r.WrittenAs q (data + q.channel.toNat) s (.ok m.value) := by
  intro hall
  obtain ⟨r, d, hr, hd, hk, he, hg, herror⟩ := exists_init_symbols
  obtain ⟨r', hstep, -⟩ := hall .symbols r ⟨⟨0⟩, .write, 0, ⟨0x0011⟩⟩ d 0 0 .symbols
    ⟨.none, 6, some "7"⟩ "7" (.init hr) hd hk he ⟨[_], _, rfl, rfl, by decide⟩ rfl hg (.inl rfl)
  rw [hstep] at herror
  cases herror

end Registry

end VariableRegistry
