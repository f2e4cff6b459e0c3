/-
# Texts in string cells

A string cell takes a text that fits exactly as it is, up to its first zero character, and refuses
any other without a trace. So in every state a cell holds a text that fits, each text that is read
from a string, constant or not, fits as well, and to write back what was read changes nothing.
-/
import Mathlib.Data.List.TakeWhile
import VariableRegistry.Proofs.CellWrites
import VariableRegistry.Proofs.Gating
import VariableRegistry.Proofs.Resetting
import VariableRegistry.Proofs.BlobTexts

namespace VariableRegistry

/-! ## Texts that fit -/

/-- A text that a string cell can hold: it is read without a fault from at most 31 bytes, none of
which is zero. -/
def Storable (s : String) : Prop :=
  ∃ bytes : List UInt8, Utf8.decode? bytes = some s.toList ∧ bytes.length ≤ 31 ∧ 0 ∉ bytes

/-- A text can be held if it takes at most 31 bytes and has no zero character. -/
theorem storable_iff {s : String} :
    Storable s ↔ Utf8.size s.toList ≤ 31 ∧ '\x00' ∉ s.toList := by
  constructor
  · rintro ⟨bytes, hdecode, hlength, hzero⟩
    obtain rfl := Utf8.decode?_eq_some_iff.1 hdecode
    refine ⟨hlength, fun hmem => hzero ?_⟩
    exact List.mem_flatMap.2 ⟨'\x00', hmem, List.mem_singleton_self 0⟩
  · rintro ⟨hsize, hzero⟩
    exact ⟨Utf8.encode s.toList, Utf8.decode?_eq_some_iff.2 rfl, hsize,
      Utf8.zero_not_mem_encode hzero⟩

theorem storable_empty : Storable "" :=
  storable_iff.2 (by decide)

/-- The default of a string can be held. -/
theorem storable_of_defaultText {d : Directory} {offset : Nat} {s : String}
    (h : DataStore.defaultText d offset = .ok s) : Storable s := by
  obtain ⟨hbytes, hsize⟩ := DataStore.defaultText_eq_ok.1 h
  exact ⟨_, Utf8.decode?_eq_some_iff.2 rfl, hsize, (Blob.bytesAt?_eq_some_iff.1 hbytes).1⟩

namespace Registry

/-- What fits of a text before its first zero character can be held. -/
theorem storable_beforeZero {s : String} (h : fitsCell (beforeZero s) = true) :
    Storable (beforeZero s) :=
  storable_iff.2 ⟨of_decide_eq_true h, zero_not_mem_beforeZero s⟩

/-- A text that can be held is stored as it is. -/
theorem beforeZero_of_storable {s : String} (h : Storable s) : beforeZero s = s := by
  obtain ⟨-, hzero⟩ := storable_iff.1 h
  have hall : s.toList.takeWhile (· ≠ '\x00') = s.toList := by
    rw [List.takeWhile_eq_self_iff]
    intro c hc
    have hne : c ≠ '\x00' := fun heq => hzero (heq ▸ hc)
    simpa using hne
  rw [beforeZero, hall, String.ofList_toList]

theorem fitsCell_of_storable {s : String} (h : Storable s) : fitsCell s = true :=
  decide_eq_true (storable_iff.1 h).1

/-- As much of a constant as is read could be held. -/
theorem storable_of_constant {b : Blob} {offset : Nat} {text : String}
    (h : b.textAt? offset = some text) :
    Storable (String.ofList (Utf8.take TableSet.maxStringBytes text.toList)) := by
  obtain ⟨bytes, hbytes, rfl⟩ := Option.map_eq_some_iff.1 h
  obtain ⟨hbegins, hsize, -⟩ :=
    Utf8.isCut_take TableSet.maxStringBytes (String.ofList (Utf8.decodeLossy bytes)).toList
  rw [storable_iff, String.toList_ofList]
  refine ⟨hsize, fun hmem => ?_⟩
  have hzero := hbegins.subset hmem
  rw [String.toList_ofList] at hzero
  exact Utf8.zero_not_mem_decodeLossy (Blob.bytesAt?_eq_some_iff.1 hbytes).1 hzero

end Registry

/-! ## Cells in every state -/

namespace DataStore

/-- Every string cell holds a text that it can hold. -/
def HoldsTexts (s : DataStore) : Prop :=
  ∀ (i : Nat) (x : String), s.strings[i]? = some x → Storable x

variable {d : Directory} {s s' : DataStore} {vs : List Descriptor} {v : Descriptor}

theorem holdsTexts_ofCounts (c : CellCounts) : (ofCounts c).HoldsTexts := by
  intro i x hx
  have hmem := Array.mem_of_getElem? hx
  obtain rfl := Array.eq_of_mem_replicate hmem
  exact storable_empty

/-- What a reset puts into string cells is the default text of a string. -/
theorem exists_defaultText_of_initial? {kind : VarKind} {data : Nat} {x : String}
    (h : d.initial? kind = some ⟨.strings, data, x⟩) :
    ∃ default, kind = .string default data ∧ defaultText d default = .ok x := by
  cases kind with
  | number t template data' =>
    obtain ⟨_, -, heq⟩ := Option.map_eq_some_iff.1 h
    cases heq
  | enumeration members data' =>
    obtain ⟨_, -, heq⟩ := Option.map_eq_some_iff.1 h
    cases heq
  | string default data' =>
    obtain ⟨text, htext, heq⟩ := Option.map_eq_some_iff.1 h
    cases heq
    exact ⟨default, rfl, toOption_eq_some.1 htext⟩
  | constant text => cases h
  | action => cases h

/-- Resetting a variable puts nothing into a string cell that it cannot hold. -/
theorem HoldsTexts.resetVariable (h : s.HoldsTexts)
    (hs : DataStore.resetVariable d s v = .ok s') : s'.HoldsTexts := by
  intro i x hx
  obtain ⟨data, y, hy, -, hfilled⟩ | ⟨-, hkept⟩ := getElem?_of_resetVariable hs .strings i
  · cases hfilled.symm.trans hx
    obtain ⟨default, -, htext⟩ := exists_defaultText_of_initial? hy
    exact storable_of_defaultText htext
  · exact h i x (hkept.symm.trans hx)

theorem HoldsTexts.foldlM_resetVariable (h : s.HoldsTexts)
    (hs : vs.foldlM (DataStore.resetVariable d) s = .ok s') : s'.HoldsTexts := by
  induction vs generalizing s with
  | nil =>
    cases hs
    exact h
  | cons v vs ih =>
    rw [List.foldlM_cons, bind_eq_ok] at hs
    obtain ⟨s₁, hv, hrest⟩ := hs
    exact ih (h.resetVariable hv) hrest

end DataStore

namespace Registry

variable {t : TableSet} {r r' : Registry}

/-- A change puts nothing into a string cell that it cannot hold. -/
theorem holdsTexts_of_change (h : r.store.HoldsTexts) (hr : r.Change r') :
    r'.store.HoldsTexts := by
  cases hr with
  | value hd hk hchannel hc hx => exact h
  | bound b x hd hk hchannel hc => exact h
  | member hd hk hchannel he hv => exact h
  | @text handle d default data channel s hd hk hchannel hs =>
    intro i x hx
    have hwritten : (r.store.strings.setIfInBounds (data + channel.toNat) (beforeZero s))[i]? =
        some x := hx
    by_cases hi : data + channel.toNat = i
    · -- the cell that was written
      subst hi
      rw [Array.getElem?_setIfInBounds_self] at hwritten
      split_ifs at hwritten with hlt
      cases hwritten
      exact storable_beforeZero hs
    · rw [Array.getElem?_setIfInBounds_ne hi] at hwritten
      exact h i x hwritten
  | policy policy => exact h
  | reset hreset =>
    simp only [Registry.reset, bind_eq_ok, pure_eq_ok] at hreset
    obtain ⟨s, hs, rfl⟩ := hreset
    exact h.foldlM_resetVariable hs

/-- Calls lead to states only in which every string cell holds a text that it can hold. -/
theorem Reachable.holdsTexts (h : Reachable t r) : r.store.HoldsTexts := by
  induction h with
  | init hr =>
    simp only [Registry.init, bind_eq_ok, pure_eq_ok] at hr
    obtain ⟨d, -, s, hs, rfl⟩ := hr
    exact (DataStore.holdsTexts_ofCounts d.counts).foldlM_resetVariable hs
  | step call hreach ih =>
    rcases step_change _ call with heq | hchange
    · rw [heq]
      exact ih
    · exact holdsTexts_of_change ih hchange

/-! ## Access to strings -/

/-- The text of a string stands in its cells, or in the blob. -/
theorem kind_of_string {d : Descriptor} (hs : d.varType = .string) :
    (∃ default data, d.kind = .string default data) ∨ ∃ offset, d.kind = .constant offset := by
  unfold Descriptor.varType at hs
  cases hk : d.kind <;> simp_all [VarKind.varType]

section

variable {q : Request} {d : Descriptor} {default data : Nat} {s : String}
  (hd : r.descriptor q.handle = .ok d) (hk : d.kind = .string default data)

include hd hk

theorem outcome_text_string : (text q).outcome s r = (string q d data).outcome s r := by
  rw [outcome_text, hd]
  simp only [hk]

/-- What an access does to a string whose cell is found. -/
theorem step_string {current : String} (hchannel : d.HasChannel q.channel) (hg : r.Grants d q)
    (hcell : r.store.strings[data + q.channel.toNat]? = some current) :
    r.step (.text q s) =
      match q.direction with
      | .read => (.text (.ok ()) current, r)
      | .write =>
        if fitsCell (beforeZero s) then
          (.text (.ok ()) s, r.write .strings (data + q.channel.toNat) (beforeZero s))
        else (.text (.error .sizeTooBig) s, r) := by
  have hfound : r.stringCell q d data = .ok (data + q.channel.toNat, current) :=
    stringCell_eq_ok.2 ⟨checkChannel_eq_ok.2 hchannel, gate_of_grants hg, rfl, hcell⟩
  simp only [step, outcome_text_string hd hk, outcome_string, hfound]
  cases q.direction with
  | read => rfl
  | write => cases fitsCell (beforeZero s) <;> rfl

/-- A text that was read from a string is what the cell of the channel holds. -/
theorem getElem?_of_step_read (hq : q.direction = .read) {s' : String}
    (hread : (r.step (.text q s)).1 = .text (.ok ()) s') :
    d.HasChannel q.channel ∧ r.store.strings[data + q.channel.toNat]? = some s' := by
  simp only [step, outcome_text_string hd hk, outcome_string, hq] at hread
  rcases hcell : r.stringCell q d data with e | ⟨i, current⟩
  · simp [hcell] at hread
  · obtain ⟨hchannel, -, rfl, hcell'⟩ := stringCell_eq_ok.1 hcell
    simp only [hcell, Reply.text.injEq, true_and] at hread
    subst hread
    exact ⟨checkChannel_eq_ok.1 hchannel, hcell'⟩

end

theorem outcome_text_constant {q : Request} {d : Descriptor} {offset : Nat} {s : String}
    (hd : r.descriptor q.handle = .ok d) (hk : d.kind = .constant offset) :
    (text q).outcome s r = (constant q d offset).outcome s r := by
  rw [outcome_text, hd]
  simp only [hk]

/-- A text that was read from a constant could be held. -/
theorem storable_of_step_constant {q : Request} {d : Descriptor} {offset : Nat} {s s' : String}
    (hd : r.descriptor q.handle = .ok d) (hk : d.kind = .constant offset)
    (hread : (r.step (.text q s)).1 = .text (.ok ()) s') : Storable s' := by
  simp only [step, outcome_text_constant hd hk, outcome_constant] at hread
  cases hchannel : d.checkChannel q.channel with
  | error e => simp [hchannel] at hread
  | ok _ =>
    cases hq : q.direction with
    | write => simp [hchannel, hq] at hread
    | read =>
      cases hgate : r.gate q d with
      | error e => simp [hchannel, hq, hgate] at hread
      | ok _ =>
        cases htext : r.directory.blob.textAt? offset with
        | none => simp [hchannel, hq, hgate, htext] at hread
        | some text =>
          simp only [hchannel, hq, hgate, htext, Reply.text.injEq, true_and] at hread
          subst hread
          exact storable_of_constant htext

/-- A text that was read from a string, constant or not, could be held. -/
theorem storable_of_step_read (hcells : r.store.HoldsTexts) {q : Request} {s s' : String}
    (hq : q.direction = .read) (htype : r.varType q.handle = .ok .string)
    (hread : (r.step (.text q s)).1 = .text (.ok ()) s') : Storable s' := by
  obtain ⟨d, hd, hvar⟩ : ∃ d, r.descriptor q.handle = .ok d ∧ d.varType = .string := by
    cases hd : r.descriptor q.handle with
    | error e => simp [Registry.varType, hd, Except.map] at htype
    | ok d => exact ⟨d, rfl, by simpa [Registry.varType, hd, Except.map] using htype⟩
  rcases kind_of_string hvar with ⟨default, data, hk⟩ | ⟨offset, hk⟩
  · exact hcells _ _ (getElem?_of_step_read hd hk hq hread).2
  · exact storable_of_step_constant hd hk hread

/-! ## The contract of strings -/

/-- What holds of strings in a state. -/
structure KeepsTexts (r : Registry) : Prop where
  /-- A text that takes at most 31 bytes up to its first zero character is stored: of all cells
  only that of the channel is written, and every granted request reads the text from it. -/
  stores : ∀ (q : Request) (d : Descriptor) (default data : Nat) (s : String),
    r.descriptor q.handle = .ok d → d.kind = .string default data → d.HasChannel q.channel →
    q.direction = .write → r.Grants d q → Utf8.size (beforeZero s).toList ≤ 31 →
      ∃ r', r.step (.text q s) = (.text (.ok ()) s, r') ∧
        r.Replaced .strings (data + q.channel.toNat) (beforeZero s) r' ∧
        ∀ (q' : Request) (s' : String), q'.handle = q.handle → q'.channel = q.channel →
          q'.direction = .read → r'.Grants d q' →
            r'.step (.text q' s') = (.text (.ok ()) (beforeZero s), r')
  /-- A text that takes more is refused, and nothing changes. -/
  refuses : ∀ (q : Request) (d : Descriptor) (default data : Nat) (s : String),
    r.descriptor q.handle = .ok d → d.kind = .string default data → d.HasChannel q.channel →
    q.direction = .write → r.Grants d q → 31 < Utf8.size (beforeZero s).toList →
      r.step (.text q s) = (.text (.error .sizeTooBig) s, r)
  /-- Every cell holds a text that it can hold. -/
  cells : ∀ (i : Nat) (s : String), r.store.strings[i]? = some s → Storable s
  /-- Every text that is read from a string, constant or not, fits into a cell. -/
  reads : ∀ (q : Request) (s s' : String), q.direction = .read →
    r.varType q.handle = .ok .string → (r.step (.text q s)).1 = .text (.ok ()) s' →
      Utf8.size s'.toList ≤ 31 ∧ '\x00' ∉ s'.toList
  /-- To write back a text that was read changes nothing. -/
  returns : ∀ (q q' : Request) (d : Descriptor) (default data : Nat) (s s' : String),
    r.descriptor q.handle = .ok d → d.kind = .string default data → q.direction = .read →
    (r.step (.text q s)).1 = .text (.ok ()) s' → q'.handle = q.handle → q'.channel = q.channel →
    q'.direction = .write → r.Grants d q' → r.step (.text q' s') = (.text (.ok ()) s', r)

/-- A string that is written up to its first zero character is read back. -/
theorem stores_text (hr : r.Belongs t) {q : Request} {d : Descriptor} {default data : Nat}
    {s : String} (hd : r.descriptor q.handle = .ok d) (hk : d.kind = .string default data)
    (hchannel : d.HasChannel q.channel) (hq : q.direction = .write) (hg : r.Grants d q)
    (hfits : Utf8.size (beforeZero s).toList ≤ 31) :
    ∃ r', r.step (.text q s) = (.text (.ok ()) s, r') ∧
      r.Replaced .strings (data + q.channel.toNat) (beforeZero s) r' ∧
      ∀ (q' : Request) (s' : String), q'.handle = q.handle → q'.channel = q.channel →
        q'.direction = .read → r'.Grants d q' →
          r'.step (.text q' s') = (.text (.ok ()) (beforeZero s), r') := by
  obtain ⟨current, hcell⟩ := hr.exists_stringCell hd hk (checkChannel_eq_ok.2 hchannel)
  obtain ⟨hi, -⟩ := Array.getElem?_eq_some_iff.1 hcell
  have hreplaced := replaced_write (a := .strings) hi (beforeZero s)
  refine ⟨_, ?_, hreplaced, ?_⟩
  · have hfitsCell : fitsCell (beforeZero s) = true := decide_eq_true hfits
    rw [step_string hd hk hchannel hg hcell, hq]
    simp only [hfitsCell, if_true]
  · -- the cell that was written is found again
    rintro ⟨_, _, _, requester⟩ s' rfl rfl rfl hg'
    exact step_string (r := r.write .strings (data + q.channel.toNat) (beforeZero s))
      (q := ⟨q.handle, .read, q.channel, requester⟩) hd hk hchannel hg' hreplaced.cell

/-- **Strings keep what fits and nothing else.** In every state that calls lead to, a text that
fits is stored and read back, one that does not is refused, every cell and every text that is read
fits, and to write back what was read changes nothing. -/
theorem keepsTexts_of_reachable (t : TableSet) (r : Registry) (hreach : Reachable t r) :
    r.KeepsTexts where
  stores := by
    intro q d default data s hd hk hchannel hq hg hfits
    exact stores_text hreach.belongs hd hk hchannel hq hg hfits
  refuses := by
    intro q d default data s hd hk hchannel hq hg hlong
    obtain ⟨current, hcell⟩ :=
      hreach.belongs.exists_stringCell hd hk (checkChannel_eq_ok.2 hchannel)
    have hfits : fitsCell (beforeZero s) = false := decide_eq_false (Nat.not_le.2 hlong)
    rw [step_string hd hk hchannel hg hcell, hq]
    simp only [hfits, Bool.false_eq_true, if_false]
  cells := hreach.holdsTexts
  reads := by
    intro q s s' hq htype hread
    rw [← storable_iff]
    exact storable_of_step_read hreach.holdsTexts hq htype hread
  returns := by
    rintro q ⟨_, _, _, requester⟩ d default data s s' hd hk hq hread rfl rfl rfl hg
    obtain ⟨hchannel, hcell⟩ := getElem?_of_step_read hd hk hq hread
    have hstorable := hreach.holdsTexts _ _ hcell
    have hsame : r.write .strings (data + q.channel.toNat) s' = r :=
      write_of_getElem? (a := .strings) hcell
    have hstep := step_string (q := ⟨q.handle, .write, q.channel, requester⟩) (s := s') hd hk
      hchannel hg hcell
    rw [hstep, beforeZero_of_storable hstorable]
    simp only [fitsCell_of_storable hstorable, if_true, hsame]

end Registry

namespace TableSet

/-- A string of two channels, and a constant that begins in the middle of a character. -/
def texts : TableSet where
  cells := ⟨0, 0, 0, 0⟩
  stringCells := 2
  enumCells := 0
  blob := .ofStrings ["éé", "ab"]
  enumWords := #[]
  templates := ⟨#[], #[], #[], #[]⟩
  vars := #[
    ⟨0, 0xFFFF, 0x1007, 2, 0x0011, 5, 0, 0, 0⟩,
    ⟨1, 0xFFFF, 0x2007, 1, 0x0011, 1, 0, 0, 0⟩]
  policy := .exact

end TableSet

namespace Registry

/-- A text with a zero character in it was written, and the constant reads as a replacement mark
and the character behind it. -/
theorem texts_kept : ∃ r, Reachable .texts r ∧ r.store.strings = #["ab", "zwölf"] ∧
    ((text ⟨⟨1⟩, .read, 0, ⟨0x0011⟩⟩).outcome "" r).2.1 = "\uFFFDé" ∧ r.KeepsTexts := by
  have hwritten : ((Registry.init .texts).toOption.map fun r₀ =>
      let r := (r₀.step (.text ⟨⟨0⟩, .write, 1, ⟨0x0011⟩⟩ "zwölf\x00drei")).2
      (r.store.strings, ((text ⟨⟨1⟩, .read, 0, ⟨0x0011⟩⟩).outcome "" r).2.1)) =
        some (#["ab", "zwölf"], "\uFFFDé") := by
    decide +kernel
  obtain ⟨r₀, hr₀, heq⟩ := Option.map_eq_some_iff.1 hwritten
  obtain ⟨hcells, hconstant⟩ : _ ∧ _ := by simpa using heq
  have hreach := Reachable.step (.text ⟨⟨0⟩, .write, 1, ⟨0x0011⟩⟩ "zwölf\x00drei")
    (.init (toOption_eq_some.1 hr₀))
  exact ⟨_, hreach, hcells, hconstant, keepsTexts_of_reachable .texts _ hreach⟩

end Registry

end VariableRegistry
