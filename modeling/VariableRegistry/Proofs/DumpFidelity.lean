/-
# Dumps tell states apart

The dump of a variable is a header and a line for each channel or member. What stands in a line is
told apart from what follows it: a number ends before a blank or the end of the line, a quoted text
at its quote, and the channels with the value of a member at the end of the line. So two states with
one directory have the same dump of a variable only if its cells are the same.
-/
import VariableRegistry.Proofs.Acceptance
import VariableRegistry.Proofs.DecimalTexts
import VariableRegistry.Proofs.QuotedTexts
import VariableRegistry.Proofs.Soundness

namespace VariableRegistry

/-! ## Fields -/

section

variable {p : Char → Bool} {cs ds rest rest' : List Char}

/-- Runs of characters of a kind are told apart in front of characters of another kind. -/
theorem run_append_inj (hcs : ∀ c ∈ cs, p c = true) (hds : ∀ c ∈ ds, p c = true)
    (hrest : Stops p rest) (hrest' : Stops p rest') :
    cs ++ rest = ds ++ rest' ↔ cs = ds ∧ rest = rest' := by
  constructor
  · intro h
    have htake := congrArg (List.takeWhile p) h
    have hdrop := congrArg (List.dropWhile p) h
    rw [takeWhile_run hcs hrest, takeWhile_run hds hrest'] at htake
    rw [dropWhile_run hcs hrest, dropWhile_run hds hrest'] at hdrop
    exact ⟨htake, hdrop⟩
  · rintro ⟨rfl, rfl⟩
    rfl

theorem toDigits_append_inj {n n' : Nat} (hrest : Stops Char.isDigit rest)
    (hrest' : Stops Char.isDigit rest') :
    Nat.toDigits 10 n ++ rest = Nat.toDigits 10 n' ++ rest' ↔ n = n' ∧ rest = rest' := by
  rw [run_append_inj Decimal.isDigit_of_mem_toDigits Decimal.isDigit_of_mem_toDigits hrest hrest']
  refine and_congr_left' ⟨fun h => ?_, congrArg _⟩
  have hvalue := congrArg (Nat.ofDigitChars 10 · 0) h
  simpa only [Nat.ofDigitChars_ten_toDigits] using hvalue

/-- Whether a character may stand in a decimal numeral. -/
def isNumeral (c : Char) : Bool := c.isDigit || c = '-'

theorem isNumeral_of_mem_decimal {n : Int} : ∀ c ∈ Numeral.decimal n, isNumeral c = true := by
  have hdigits : ∀ c ∈ Nat.toDigits 10 n.natAbs, isNumeral c = true := fun c hc => by
    rw [isNumeral, Decimal.isDigit_of_mem_toDigits c hc, Bool.true_or]
  rw [Numeral.decimal]
  split
  · exact List.forall_mem_cons.2 ⟨by decide, hdigits⟩
  · exact hdigits

theorem decimal_append_inj {n n' : Int} (hrest : Stops isNumeral rest)
    (hrest' : Stops isNumeral rest') :
    Numeral.decimal n ++ rest = Numeral.decimal n' ++ rest' ↔ n = n' ∧ rest = rest' := by
  rw [run_append_inj isNumeral_of_mem_decimal isNumeral_of_mem_decimal hrest hrest']
  refine and_congr_left' ⟨fun h => ?_, congrArg _⟩
  -- a numeral is read back, be it as an exponent
  have hread := congrArg (fun cs => Decimal.exponent? ('e' :: cs)) h
  have hsame (n : Int) : Decimal.exponent? ('e' :: Numeral.decimal n) = some n :=
    Decimal.exponent?_decimal false n
  simpa only [hsame, Option.some.injEq] using hread

/-! ## Lines -/

/-- If each of some lines is told apart from what follows it by what it shows, so are all of
them. -/
theorem flatMap_eq_iff {ι : Type} {l : List ι} {line line' : ι → List Char} {P : ι → Prop}
    (hline : ∀ i ∈ l, ∀ rest rest', line i ++ rest = line' i ++ rest' ↔ P i ∧ rest = rest') :
    l.flatMap line = l.flatMap line' ↔ ∀ i ∈ l, P i := by
  induction l with
  | nil => simp
  | cons i l ih =>
    rw [List.forall_mem_cons] at hline
    rw [List.flatMap_cons, List.flatMap_cons, hline.1, List.forall_mem_cons, ih hline.2]

end

namespace Registry

variable {rest rest' : List Char}

/-! ## Numbers -/

/-- A type whose values are shown as decimal numerals. -/
def IsInteger (u : NumType) : Prop := u = .int16 ∨ u = .int32

theorem exists_plain_eq {u : NumType} (hu : IsInteger u) :
    ∃ number : u.Carrier → Int, (∀ x y, number x = number y ↔ x = y) ∧
      ∀ x, (u.plain x).toList = Numeral.decimal (number x) := by
  obtain rfl | rfl := hu
  · exact ⟨Int16.toInt, fun _ _ => Int16.toInt_inj, fun _ => String.toList_ofList⟩
  · exact ⟨Int32.toInt, fun _ _ => Int32.toInt_inj, fun _ => String.toList_ofList⟩

/-- The line of an integer shows the value and both bounds. -/
theorem numberLine_append_inj {u : NumType} (hu : IsInteger u) (channel : Nat)
    (c c' : Cell u.Carrier) :
    (numberLine u channel c).toList ++ rest = (numberLine u channel c').toList ++ rest' ↔
      c = c' ∧ rest = rest' := by
  obtain ⟨value, min, max⟩ := c
  obtain ⟨value', min', max'⟩ := c'
  obtain ⟨number, hnumber, hplain⟩ := exists_plain_eq hu
  have hspace (cs : List Char) : Stops isNumeral (' ' :: cs) := stops_cons.2 (by decide)
  have hend (cs : List Char) : Stops isNumeral ('\n' :: cs) := stops_cons.2 (by decide)
  have hmin : " min=".toList = ' ' :: "min=".toList := rfl
  have hmax : " max=".toList = ' ' :: "max=".toList := rfl
  have hline : "\n".toList = ['\n'] := rfl
  simp only [numberLine, String.toList_append, hplain, List.append_assoc,
    List.append_cancel_left_eq, hmin, hmax, hline, List.cons_append, List.nil_append,
    decimal_append_inj (hspace _) (hspace _), decimal_append_inj (hend _) (hend _),
    List.cons.injEq, true_and, hnumber, Cell.mk.injEq, and_assoc]

/-! ## Strings -/

theorem stringLine_append_inj (channel : Nat) (x x' : String) :
    (s!"  [{channel}] " ++ Text.quote x ++ "\n").toList ++ rest =
        (s!"  [{channel}] " ++ Text.quote x' ++ "\n").toList ++ rest' ↔ x = x' ∧ rest = rest' := by
  simp only [String.toList_append, List.append_assoc, List.append_cancel_left_eq,
    Text.quote_append_inj]

/-! ## Enumerations -/

/-- The channels that are listed behind a member. -/
def holdersChars (holders : List Nat) : List Char :=
  holders.flatMap fun c => ' ' :: Nat.toDigits 10 c

/-- A list of channels ends at the end of its line. -/
theorem holdersChars_append_inj {holders holders' : List Nat} :
    holdersChars holders ++ '\n' :: rest = holdersChars holders' ++ '\n' :: rest' ↔
      holders = holders' ∧ rest = rest' := by
  have hstops (holders : List Nat) (rest : List Char) :
      Stops Char.isDigit (holdersChars holders ++ '\n' :: rest) := by
    cases holders <;> exact stops_cons.2 (by decide)
  induction holders generalizing holders' with
  | nil => cases holders' <;> simp [holdersChars]
  | cons c holders ih =>
    cases holders' with
    | nil => simp [holdersChars]
    | cons c' holders' =>
      have hcons (c : Nat) (holders : List Nat) (rest : List Char) :
          holdersChars (c :: holders) ++ rest =
            ' ' :: (Nat.toDigits 10 c ++ (holdersChars holders ++ rest)) := by
        rw [holdersChars, List.flatMap_cons, List.cons_append, List.cons_append, List.append_assoc]
        rfl
      simp only [hcons, List.cons.injEq, true_and, toDigits_append_inj (hstops _ _) (hstops _ _),
        ih, and_assoc]

/-- The line of a member shows which channels hold its value. -/
theorem memberPieces_append_inj (m : Member) (holders holders' : List Nat) :
    (memberPieces m holders).flatMap String.toList ++ rest =
        (memberPieces m holders').flatMap String.toList ++ rest' ↔
      holders = holders' ∧ rest = rest' := by
  have hholder (c : Nat) : (s!" {c}").toList = ' ' :: Nat.toDigits 10 c := by
    have hdigits : (toString c).toList = Nat.toDigits 10 c := by simp
    rw [String.toList_append, hdigits]
    rfl
  have hholders (holders : List Nat) (rest : List Char) :
      (holders.map fun c => s!" {c}").flatMap String.toList ++ ("\n".toList ++ rest) =
        holdersChars holders ++ '\n' :: rest := by
    simp only [List.flatMap_map, hholder]
    rfl
  simp only [memberPieces, List.cons_append, List.flatMap_cons,
    List.flatMap_append, List.flatMap_nil, List.append_assoc, List.append_cancel_left_eq,
    List.nil_append, hholders, holdersChars_append_inj]

/-! ## Dumps -/

section

variable {t₁ t₂ : TableSet} {r₁ r₂ : Registry} {h : Handle} {d : Descriptor}

/-- The dump of a variable with a channel is its header and the lines of its channels. -/
theorem dump_eq (r : Registry) (hd : r.descriptor h = .ok d) (hpos : 0 < d.channels.toNat) :
    r.dump h = headerLine d ++ String.join (r.channelPieces d (List.range d.channels.toNat)) := by
  have hzero : (0 : UInt16).toNat = 0 := rfl
  rw [dump, dumpPieces, hd]
  simp only [hzero, Nat.sub_zero, if_neg hpos.ne', List.range_eq_range', String.join_cons]

/-- The headers being the same, only the lines of the channels may differ. -/
theorem dump_eq_iff (h₁ : Reachable t₁ r₁) (hd₁ : r₁.descriptor h = .ok d)
    (hd₂ : r₂.descriptor h = .ok d) :
    r₁.dump h = r₂.dump h ↔
      (String.join (r₁.channelPieces d (List.range d.channels.toNat))).toList =
        (String.join (r₂.channelPieces d (List.range d.channels.toNat))).toList := by
  have hpos := (h₁.belongs.resolves hd₁).channels
  rw [dump_eq r₁ hd₁ hpos, dump_eq r₂ hd₂ hpos, ← String.toList_inj, String.toList_append,
    String.toList_append, List.append_cancel_left_eq]

/-- Lines of what is found are joined channel by channel. -/
theorem toList_join_filterMap {ι : Type} (l : List ι) (f : ι → Option String) :
    (String.join (l.filterMap f)).toList =
      l.flatMap fun i => ((f i).map String.toList).getD [] := by
  induction l with
  | nil => rfl
  | cons i l ih =>
    rw [String.toList_join] at ih ⊢
    cases hf : f i <;> simp [hf, ih]

/-- Some channels have cells with the same content in two arrays. -/
def SameCells {α : Type} (cells₁ cells₂ : Array α) (data count : Nat) : Prop :=
  ∀ i < count, ∃ x, cells₁[data + i]? = some x ∧ cells₂[data + i]? = some x

/-- **Dumps of cells**: where every channel has a cell in both states, and the line of a cell is
told apart by its content, the lines are the same only if the cells are. -/
theorem join_cellLines_eq_iff {α : Type} {cells₁ cells₂ : Array α} {data count : Nat}
    {line : Nat → α → String}
    (hline : ∀ i x y rest rest',
      (line i x).toList ++ rest = (line i y).toList ++ rest' ↔ x = y ∧ rest = rest')
    (hcells₁ : ∀ i < count, ∃ x, cells₁[data + i]? = some x)
    (hcells₂ : ∀ i < count, ∃ x, cells₂[data + i]? = some x) :
    (String.join ((List.range count).filterMap fun i => (cells₁[data + i]?).map (line i))).toList =
        (String.join ((List.range count).filterMap fun i =>
          (cells₂[data + i]?).map (line i))).toList ↔
      SameCells cells₁ cells₂ data count := by
  rw [toList_join_filterMap, toList_join_filterMap,
    flatMap_eq_iff (P := fun i => cells₁[data + i]? = cells₂[data + i]?)]
  · simp only [List.mem_range]
    refine forall₂_congr fun i hi => ?_
    obtain ⟨x, hx⟩ := hcells₁ i hi
    simp [hx, eq_comm]
  · intro i hi rest rest'
    obtain ⟨x, hx⟩ := hcells₁ i (List.mem_range.1 hi)
    obtain ⟨y, hy⟩ := hcells₂ i (List.mem_range.1 hi)
    simp [hx, hy, hline]

/-- The channels with the values of the members determine the values of all channels that have the
value of a member. -/
theorem forall_filter_eq_iff {members : List Member} {cells₁ cells₂ : Array Int16} {data : Nat}
    {count : Nat} (hheld : ∀ c < count, ∃ m ∈ members, cells₁[data + c]? = some m.value) :
    (∀ m ∈ members, (List.range count).filter (fun c => cells₁[data + c]? = some m.value) =
        (List.range count).filter fun c => cells₂[data + c]? = some m.value) ↔
      SameCells cells₁ cells₂ data count := by
  constructor
  · intro hsame c hc
    obtain ⟨m, hm, hcell⟩ := hheld c hc
    have hmem : c ∈ (List.range count).filter fun c => cells₁[data + c]? = some m.value :=
      List.mem_filter.2 ⟨List.mem_range.2 hc, decide_eq_true hcell⟩
    rw [hsame m hm] at hmem
    exact ⟨m.value, hcell, of_decide_eq_true (List.mem_filter.1 hmem).2⟩
  · intro hsame m hm
    refine List.filter_congr fun c hc => ?_
    obtain ⟨x, hx, hx'⟩ := hsame c (List.mem_range.1 hc)
    rw [hx, hx']

end

/-- **Dumps tell states apart.** In two states with one directory that calls lead to, the dumps of
an `INT16`, an `INT32` or a string that can be written are the same if and only if every channel has
the same content, with both bounds where there are any. The same holds of an enumeration if its
cells hold the values of members. -/
theorem dump_eq_iff_same_cells (t₁ t₂ : TableSet) (r₁ r₂ : Registry) (h₁ : Reachable t₁ r₁)
    (h₂ : Reachable t₂ r₂) (hdirectory : r₁.directory = r₂.directory) (h : Handle)
    (d : Descriptor) (hd : r₁.descriptor h = .ok d) :
    (∀ (u : NumType) (template data : Nat), d.kind = .number u template data → IsInteger u →
      (r₁.dump h = r₂.dump h ↔
        SameCells (r₁.store.numbers.get u) (r₂.store.numbers.get u) data d.channels.toNat)) ∧
    (∀ default data : Nat, d.kind = .string default data →
      (r₁.dump h = r₂.dump h ↔
        SameCells r₁.store.strings r₂.store.strings data d.channels.toNat)) ∧
    ∀ (members data : Nat) (e : Enumeration), d.kind = .enumeration members data →
      r₁.directory.enums[members]? = some e →
      (∀ c < d.channels.toNat, ∃ m ∈ e.members, r₁.store.enums[data + c]? = some m.value) →
      (∀ c < d.channels.toNat, ∃ m ∈ e.members, r₂.store.enums[data + c]? = some m.value) →
      (r₁.dump h = r₂.dump h ↔
        SameCells r₁.store.enums r₂.store.enums data d.channels.toNat) := by
  have hd₂ : r₂.descriptor h = .ok d := by rwa [descriptor, ← hdirectory]
  have hhits₁ := fun c (hc : c < d.channels.toNat) => h₁.belongs.hits hd hc
  have hhits₂ := fun c (hc : c < d.channels.toNat) => h₂.belongs.hits hd₂ hc
  simp only [Hits] at hhits₁ hhits₂
  refine ⟨fun u template data hk hu => ?_, fun default data hk => ?_,
    fun members data e hk he hheld _ => ?_⟩
  · simp only [hk] at hhits₁ hhits₂
    simp only [dump_eq_iff h₁ hd hd₂, channelPieces, hk]
    exact join_cellLines_eq_iff (fun i x y _ _ => numberLine_append_inj hu i x y)
      (fun i hi => (hhits₁ i hi).2) (fun i hi => (hhits₂ i hi).2)
  · simp only [hk] at hhits₁ hhits₂
    simp only [dump_eq_iff h₁ hd hd₂, channelPieces, hk]
    exact join_cellLines_eq_iff (fun i x y _ _ => stringLine_append_inj i x y)
      (fun i hi => (hhits₁ i hi).2) (fun i hi => (hhits₂ i hi).2)
  · have he₂ : r₂.directory.enums[members]? = some e := by rwa [← hdirectory]
    rw [← forall_filter_eq_iff hheld, dump_eq_iff h₁ hd hd₂]
    simp only [channelPieces, hk, he, he₂, String.toList_join, List.flatMap_assoc]
    exact flatMap_eq_iff fun m _ _ _ => memberPieces_append_inj m _ _

/-- A write to the second channel of the vector in the sample. -/
def writeThree : Call := .typed .int16 ⟨⟨0⟩, .write, 1, ⟨0x00FF⟩⟩ (3 : Int16)

/-- In the sample a write to the vector changes its dump, and leaves that of the enumeration. -/
theorem sample_dumps : ∃ r₁ r₂, Reachable .sample r₁ ∧ Reachable .sample r₂ ∧
    r₁.dump ⟨0⟩ ≠ r₂.dump ⟨0⟩ ∧ r₁.dump ⟨1⟩ = r₂.dump ⟨1⟩ := by
  have hvector : ((Registry.init .sample).toOption.bind fun r => (r.descriptor ⟨0⟩).toOption.map
      fun d => (d.kind, d.channels, r.store.numbers.int16[1]?.map Cell.value,
        (r.step writeThree).2.store.numbers.int16[1]?.map Cell.value)) =
      some (.number .int16 0 0, 2, some 0, some 3) := by
    decide +kernel
  have hmembers : ((Registry.init .sample).toOption.bind fun r => (r.descriptor ⟨1⟩).toOption.map
      fun d => (d.kind, d.channels, r.directory.enums[0]?, r.store.enums[0]?,
        (r.step writeThree).2.store.enums[0]?)) =
      some (.enumeration 0 0, 1, some ⟨0, [⟨⟨0xFFFF⟩, 5, some "on"⟩]⟩, some 5, some 5) := by
    decide +kernel
  obtain ⟨r, d, hr, hd, heq⟩ := exists_init_of_computed hvector
  obtain ⟨r', d', hr', hd', heq'⟩ := exists_init_of_computed hmembers
  obtain rfl := Except.ok.inj (hr.symm.trans hr')
  simp only [Prod.mk.injEq] at heq heq'
  obtain ⟨hk, hcount, hvalue, hvalue'⟩ := heq
  obtain ⟨hk', hcount', he, hx, hx'⟩ := heq'
  have h₁ : Reachable .sample r := .init hr
  have h₂ := h₁.step writeThree
  have hdirectory := Except.ok.inj (h₁.belongs.directory.symm.trans h₂.belongs.directory)
  obtain ⟨hnumber, -, -⟩ := dump_eq_iff_same_cells _ _ _ _ h₁ h₂ hdirectory ⟨0⟩ d hd
  obtain ⟨-, -, hmember⟩ := dump_eq_iff_same_cells _ _ _ _ h₁ h₂ hdirectory ⟨1⟩ d' hd'
  have hone : d'.channels.toNat = 1 := by rw [hcount']; rfl
  refine ⟨r, _, h₁, h₂, fun hsame => ?_, ?_⟩
  · -- the value of the second channel is not the same
    obtain ⟨c, hc, hc'⟩ := (hnumber .int16 0 0 hk (.inl rfl)).1 hsame 1 (by rw [hcount]; decide)
    have hthree := hvalue.symm.trans ((congrArg _ (hc.trans hc'.symm)).trans hvalue')
    exact absurd hthree (by decide)
  · refine (hmember 0 0 _ hk' he ?_ ?_).2 ?_ <;> rw [hone] <;> intro c hc <;>
      obtain rfl := Nat.lt_one_iff.1 hc
    · exact ⟨_, List.mem_singleton_self _, hx⟩
    · exact ⟨_, List.mem_singleton_self _, hx'⟩
    · exact ⟨5, hx, hx'⟩

end Registry

end VariableRegistry
