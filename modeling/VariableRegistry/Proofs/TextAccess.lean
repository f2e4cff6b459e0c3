/-
# Text and typed access

Access as text to a number or an enumeration is typed access behind a translation. A text is read
as the value that it names before anything else is looked at, and then written as this value; what
is read is the value of the typed read, written in the format of the variable. An integer is
written so that its text names it again, unless its format is that of dates.
-/
import VariableRegistry.Proofs.AccessErrors

namespace VariableRegistry

/-- The number type as which a variable whose value is not a text is reached. -/
def VarType.accessType? : VarType → Option NumType
  | number t => some t
  | enumeration => some .int16
  | _ => none

/-- Numbers and enumerations are what is reached as a number type. -/
theorem Descriptor.accessType?_eq_some {d : Descriptor} {u : NumType} :
    d.varType.accessType? = some u ↔
      (∃ template data, d.kind = .number u template data) ∨
        u = .int16 ∧ ∃ members data, d.kind = .enumeration members data := by
  rw [Descriptor.varType]
  cases d.kind with
  | number t template data =>
    simp [VarKind.varType, VarType.accessType?]
  | enumeration members data =>
    simp [VarKind.varType, VarType.accessType?, eq_comm]
  | _ => simp [VarKind.varType, VarType.accessType?]

namespace Registry

variable {t : TableSet} {r : Registry} {h : Handle} {d : Descriptor} {u : NumType} {q : Request}
  {s : String} {members data : Nat}

/-! ## Names of values -/

/-- A text names a value of a variable: that of a number in the format of the variable, that of an
enumeration as `INT16` or, where it is none, as the symbol of a member with blanks around it. -/
inductive Names (r : Registry) (d : Descriptor) (s : String) :
    (u : NumType) → u.Carrier → Prop where
  | number {u : NumType} {template data : Nat} {v : u.Carrier}
      (hk : d.kind = .number u template data) (hv : u.parse d.format s = .ok v) : Names r d s u v
  | numeral {members data : Nat} {v : Int16} (hk : d.kind = .enumeration members data)
      (hv : NumType.parseInt16 s = .ok v) : Names r d s .int16 v
  | symbol {members data : Nat} {e : Enumeration} {m : Member}
      (hk : d.kind = .enumeration members data) (hnone : ∀ v, NumType.parseInt16 s ≠ .ok v)
      (he : r.directory.enums[members]? = some e)
      (hm : e.bySymbol? (String.ofList (Text.trim s.toList)) = some m) :
      Names r d s .int16 m.value

theorem names_number_iff {template : Nat} (hk : d.kind = .number u template data)
    {v : u.Carrier} : r.Names d s u v ↔ u.parse d.format s = .ok v := by
  constructor
  · intro hnames
    cases hnames with
    | number _ hv => exact hv
    | numeral hk' _ => cases hk.symm.trans hk'
    | symbol hk' _ _ _ => cases hk.symm.trans hk'
  · exact .number hk

theorem names_member_iff (hk : d.kind = .enumeration members data) {v : Int16} :
    r.Names d s .int16 v ↔ r.parseMember members s = .ok v := by
  unfold parseMember
  constructor
  · intro hnames
    cases hnames with
    | number hk' _ => cases hk.symm.trans hk'
    | numeral _ hv => rw [hv]
    | symbol hk' hnone he hm =>
      cases hk.symm.trans hk'
      cases hv : NumType.parseInt16 s with
      | ok v => exact absurd hv (hnone v)
      | error e => simp only [Directory.enumeration, he, hm, demand_some, ok_bind]; rfl
  · intro hv
    cases hnumeral : NumType.parseInt16 s with
    | ok x =>
      rw [hnumeral] at hv
      cases hv
      exact .numeral hk hnumeral
    | error e =>
      rw [hnumeral] at hv
      obtain ⟨e, he, hv⟩ := bind_eq_ok.1 hv
      obtain ⟨m, hm, hv⟩ := bind_eq_ok.1 hv
      cases hv
      refine .symbol hk ?_ (demand_eq_ok.1 he) (demand_eq_ok.1 hm)
      rw [hnumeral]
      intro v hv
      cases hv

/-! ## Access as text -/

/-- Access as text to a value is typed access behind a reader of its names. -/
theorem exists_parse (hr : r.Belongs t) (hd : r.descriptor h = .ok d)
    (hu : d.varType.accessType? = some u) :
    ∃ parse : String → Except AccessError u.Carrier,
      (∀ q s, q.handle = h →
        (text q).outcome s r = (textual u q d.format parse).outcome s r) ∧
      (∀ s v, r.Names d s u v ↔ parse s = .ok v) ∧
      ∀ s, FailsWith (fun e => e = .invalidValue) (parse s) := by
  obtain ⟨template, data, hk⟩ | ⟨rfl, members, data, hk⟩ := Descriptor.accessType?_eq_some.1 hu
  · refine ⟨u.parse d.format, ?_, fun s v => names_number_iff hk, ?_⟩
    · rintro q s rfl
      exact outcome_text_number hd hk s
    · exact NumType.failsWith_parse (P := fun e => e = .invalidValue) rfl u d.format
  · refine ⟨r.parseMember members, ?_, fun s v => names_member_iff hk, ?_⟩
    · rintro q s rfl
      simp only [outcome_text, hd, hk]
    · exact failsWith_parseMember (P := fun e => e = .invalidValue) rfl hr hd hk

/-- What a typed read gives does not depend on the argument that is handed in. -/
theorem outcome_typed_read (u : NumType) (q : Request) (hq : q.direction = .read) (r : Registry) :
    (∃ e, ∀ v, (typed u q).outcome v r = (.error e, v, r)) ∨
      ∃ x, ∀ v, (typed u q).outcome v r = (.ok (), x, r) := by
  by_cases hmember : u = .int16 ∧ ∃ d members data, r.descriptor q.handle = .ok d ∧
      d.kind = .enumeration members data
  · obtain ⟨rfl, d, members, data, hd, hk⟩ := hmember
    rcases hcell : r.memberCell q.handle q.channel (r.gate q) with e | ⟨members, i, x⟩
    · exact .inl ⟨e, fun v => by simp only [outcome_typed_member hd hk, outcome_member, hcell]⟩
    · exact .inr ⟨x, fun v => by
        simp only [outcome_typed_member hd hk, outcome_member, hcell, hq]⟩
  · have hnumber : ∀ v, (typed u q).outcome v r = (number u q).outcome v r := fun v =>
      outcome_typed_number fun hu d members data hd hk => hmember ⟨hu, d, members, data, hd, hk⟩
    rcases hcell : r.numberCell u q.handle q.channel (r.gate q) with e | ⟨d, i, c⟩
    · exact .inl ⟨e, fun v => by simp only [hnumber, outcome_number, hcell]⟩
    · exact .inr ⟨c.value, fun v => by simp only [hnumber, outcome_number, hcell, hq]⟩

/-! ## One semantics -/

/-- Access as text to a variable is typed access with the values that texts name. -/
structure TextIsTyped (r : Registry) (h : Handle) (d : Descriptor) (u : NumType) : Prop where
  /-- A text names at most one value. -/
  unique : ∀ s v v', r.Names d s u v → r.Names d s u v' → v = v'
  /-- A read fails as the typed read does, or gives its value in the format of the variable. -/
  read : ∀ (q : Request) (s : String) (v₀ : u.Carrier), q.handle = h → q.direction = .read →
    (∃ e, r.step (.typed u q v₀) = (.typed u (.error e) v₀, r) ∧
      r.step (.text q s) = (.text (.error e) s, r)) ∨
    ∃ v, r.step (.typed u q v₀) = (.typed u (.ok ()) v, r) ∧
      r.step (.text q s) = (.text (.ok ()) (u.render v d.format), r)
  /-- A text that names a value is written as this value. -/
  write : ∀ (q : Request) (s : String) (v : u.Carrier), q.handle = h → q.direction = .write →
    r.Names d s u v → ∃ result r', r.step (.typed u q v) = (.typed u result v, r') ∧
      r.step (.text q s) = (.text result s, r')
  /-- A text that names no value is invalid, and nothing happens. -/
  refuse : ∀ (q : Request) (s : String), q.handle = h → q.direction = .write →
    (∀ v, ¬r.Names d s u v) → r.step (.text q s) = (.text (.error .invalidValue) s, r)

theorem textIsTyped (hr : r.Belongs t) (hd : r.descriptor h = .ok d)
    (hu : d.varType.accessType? = some u) : r.TextIsTyped h d u := by
  obtain ⟨parse, htext, hnames, hfails⟩ := exists_parse hr hd hu
  exact {
    unique := by
      intro s v v' hv hv'
      rw [hnames] at hv hv'
      exact Except.ok.inj (hv.symm.trans hv')
    read := by
      intro q s v₀ hh hq
      rcases outcome_typed_read u q hq r with ⟨e, hread⟩ | ⟨x, hread⟩
      · refine .inl ⟨e, by simp only [step, hread], ?_⟩
        simp only [step, htext q s hh, outcome_textual, hq, hread]
      · refine .inr ⟨x, by simp only [step, hread], ?_⟩
        simp only [step, htext q s hh, outcome_textual, hq, hread]
    write := by
      intro q s v hh hq hv
      have hkeeps : ((typed u q).outcome v r).2.1 = v := (effect_typed u q v r).of_write hq
      rw [hnames] at hv
      refine ⟨((typed u q).outcome v r).1, ((typed u q).outcome v r).2.2, ?_, ?_⟩
      · simp only [step, hkeeps]
      · simp only [step, htext q s hh, outcome_textual, hq, hv]
    refuse := by
      intro q s hh hq hnone
      cases hv : parse s with
      | ok v => exact absurd ((hnames s v).2 hv) (hnone v)
      | error e =>
        obtain rfl : e = .invalidValue := hfails s e hv
        simp only [step, htext q s hh, outcome_textual, hq, hv] }

/-- What is written of an integer names this integer, unless it is a date. -/
theorem names_render (hu : d.varType.accessType? = some u)
    (hinteger : u = .int16 ∨ u = .int32 ∧ d.format ≠ .date) (v : u.Carrier) :
    r.Names d (u.render v d.format) u v := by
  obtain ⟨template, data, hk⟩ | ⟨rfl, members, data, hk⟩ := Descriptor.accessType?_eq_some.1 hu
  · refine .number hk ?_
    rcases hinteger with rfl | ⟨rfl, hformat⟩
    · exact NumType.parseInt16_renderInt v d.format
    · rw [NumType.parse_int32_of_ne_date hformat]
      exact NumType.parseInt32_renderInt v hformat
  · exact .numeral hk (NumType.parseInt16_renderInt v d.format)

/-- **Text and typed access are one semantics.** In every state that calls lead to, access as text
to a number or an enumeration is typed access with the values that texts name. What is read as text
of an integer that is not a date names the integer again, so that to write it back is to write the
integer that was read. -/
theorem text_access_is_typed (t : TableSet) (r : Registry) (hreach : Reachable t r) (h : Handle)
    (d : Descriptor) (u : NumType) (hd : r.descriptor h = .ok d)
    (hu : d.varType.accessType? = some u) :
    r.TextIsTyped h d u ∧
    (u = .int16 ∨ u = .int32 ∧ d.format ≠ .date →
      (∀ v : u.Carrier, r.Names d (u.render v d.format) u v) ∧
      ∀ (q q' : Request) (s s' : String) (v₀ v : u.Carrier), q.handle = h → q'.handle = h →
        q.direction = .read → q'.direction = .write →
        (r.step (.typed u q v₀)).1 = .typed u (.ok ()) v →
        (r.step (.text q s)).1 = .text (.ok ()) s' →
        ∃ result r', r.step (.typed u q' v) = (.typed u result v, r') ∧
          r.step (.text q' s') = (.text result s', r')) := by
  have htyped : r.TextIsTyped h d u := textIsTyped hreach.belongs hd hu
  refine ⟨htyped, fun hinteger => ⟨names_render hu hinteger, ?_⟩⟩
  intro q q' s s' v₀ v hq hq' hread hwrite hvalue htext
  -- the text that was read is that of the value that was read
  obtain rfl : s' = u.render v d.format := by
    rcases htyped.read q s v₀ hq hread with ⟨e, hfailed, -⟩ | ⟨x, hvalue', htext'⟩
    · simp [hfailed] at hvalue
    · simp only [hvalue', Reply.typed.injEq, heq_eq_eq, true_and] at hvalue
      simp only [htext', Reply.text.injEq, true_and] at htext
      rw [← htext, hvalue]
  exact htyped.write q' _ v hq' hwrite (names_render hu hinteger v)

/-- In the sample the symbol of a member names its value, and so does every numeral that was written
of an `INT16`. -/
theorem sample_text_access : ∃ r d, Registry.init TableSet.sample = .ok r ∧
    r.descriptor ⟨1⟩ = .ok d ∧ r.Names d " on " .int16 (5 : Int16) ∧
    r.TextIsTyped ⟨1⟩ d .int16 ∧
    ∀ v : Int16, r.Names d (NumType.render .int16 v d.format) .int16 v := by
  have hread : ((Registry.init TableSet.sample).toOption.bind fun r =>
      (r.descriptor ⟨1⟩).toOption.map fun d => (d.kind, (r.parseMember 0 " on ").toOption)) =
        some (.enumeration 0 0, some 5) := by
    decide +kernel
  obtain ⟨r, hr, hd⟩ := Option.bind_eq_some_iff.1 hread
  obtain ⟨d, hd, heq⟩ := Option.map_eq_some_iff.1 hd
  rw [toOption_eq_some] at hr hd
  obtain ⟨hk, hparse⟩ := Prod.mk.inj heq
  have haccess := text_access_is_typed TableSet.sample r (.init hr) ⟨1⟩ d .int16 hd
    (by rw [Descriptor.varType, hk]; rfl)
  exact ⟨r, d, hr, hd, (names_member_iff hk).2 (toOption_eq_some.1 hparse), haccess.1,
    (haccess.2 (.inl rfl)).1⟩

end Registry

end VariableRegistry
