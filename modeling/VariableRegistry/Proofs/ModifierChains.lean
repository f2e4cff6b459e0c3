/-
# Chains of modifiers

Three modifiers share one word of rights. One of them replaces all of it but two bits, and each of
the others sets one of these two and takes the other one away. In whatever order a chain brings
them, the last one of either sort decides its part of the word, as the last modifier of any other
sort decides its field. So no chain sets both bits, and no table set that was built is refused for
them.
-/
import VariableRegistry.Proofs.BuilderAcceptance
import VariableRegistry.Proofs.DescriptorFaults

namespace VariableRegistry

/-! ## Parts of a word of rights -/

namespace Rights

/-- Whether a bit is set. -/
def bit (r : Rights) (i : Nat) : Bool := r.bits.toBitVec.getLsbD i

section

variable (r s : Rights) (i : Nat)

@[simp] theorem bit_union : (r.union s).bit i = (r.bit i || s.bit i) := BitVec.getLsbD_or

@[simp] theorem bit_inter : (r.inter s).bit i = (r.bit i && s.bit i) := BitVec.getLsbD_and

@[simp] theorem bit_diff : (r.diff s).bit i = (r.bit i && !s.bit i) := by
  by_cases hi : i < 16
  · simp [bit, diff, hi]
  · have hle : 16 ≤ i := Nat.not_lt.1 hi
    simp only [bit, BitVec.getLsbD_of_ge _ i hle, Bool.false_and]

end

variable {r s u : Rights}

theorem ext_bit (h : ∀ i, r.bit i = s.bit i) : r = s := by
  obtain ⟨r⟩ := r
  obtain ⟨s⟩ := s
  have hword : r = s := UInt16.toBitVec_inj.1 (BitVec.eq_of_getLsbD_eq fun i _ => h i)
  rw [hword]

theorem diff_diff : (r.diff s).diff u = r.diff (s.union u) := by
  refine ext_bit fun i => ?_
  simp [Bool.and_assoc]

/-- A word is put together from what it has beside a mask and what it has within. -/
theorem union_parts (r s : Rights) : (r.diff s).union (r.inter s) = r := by
  refine ext_bit fun i => ?_
  simp only [bit_inter, bit_union, bit_diff]
  cases s.bit i <;> simp

/-- Of a word that is put together from two, the one is found again beside the mask and the other
one within. -/
theorem diff_union_parts : ((r.diff s).union (u.inter s)).diff s = r.diff s := by
  refine ext_bit fun i => ?_
  simp only [bit_inter, bit_union, bit_diff]
  cases s.bit i <;> simp

theorem inter_union_parts : ((r.diff s).union (u.inter s)).inter s = u.inter s := by
  refine ext_bit fun i => ?_
  simp only [bit_inter, bit_union, bit_diff]
  cases s.bit i <;> simp

/-- To set a bit and take another one away is to replace what lies within the mask of both. -/
theorem diff_union_eq_parts :
    (r.diff u).union s = (r.diff (s.union u)).union (s.inter (s.union u)) := by
  refine ext_bit fun i => ?_
  simp only [bit_inter, bit_union, bit_diff]
  cases s.bit i <;> simp

theorem union_comm (r s : Rights) : r.union s = s.union r := by
  refine ext_bit fun i => ?_
  simp [Bool.or_comm]

/-- The bits that say what is done with values beyond the bounds. -/
def behaviour : Rights := limit.union clip

end Rights

namespace Declaration

/-! ## What modifiers set -/

namespace Modifier

/-- The bit that a modifier sets for values beyond the bounds. -/
def behaviour? : Modifier → Option Rights
  | limit => some .limit
  | clip => some .clip
  | _ => none

/-- The rights that a modifier brings. -/
def rights? : Modifier → Option Rights
  | access rights => some rights
  | _ => none

/-- The number of channels that a modifier sets. -/
def channels? : Modifier → Option UInt16
  | vector channels => some channels
  | _ => none

/-- The storage class that a modifier sets. -/
def storage? : Modifier → Option Storage
  | .storage s => some s
  | _ => none

/-- The format that a modifier sets. -/
def format? : Modifier → Option Format
  | .format f => some f
  | _ => none

/-- Beside the two bits a modifier leaves what the rights that it brings have there, within them
the bit that it sets; what it neither brings nor sets stays as it was. -/
theorem rights_eq_parts (m : Modifier) (r : Rights) :
    m.rights r =
      ((m.rights?.getD r).diff .behaviour).union ((m.behaviour?.getD r).inter .behaviour) := by
  cases m with
  | access rights =>
    show ((rights.diff .limit).diff .clip).union _ = _
    rw [Rights.diff_diff]
    rfl
  | limit => exact Rights.diff_union_eq_parts
  | clip =>
    show (r.diff .limit).union .clip = _
    rw [Rights.diff_union_eq_parts, Rights.union_comm .clip]
    rfl
  | _ => exact (Rights.union_parts r .behaviour).symm

theorem inter_behaviour (m : Modifier) (r : Rights) :
    (m.rights r).inter .behaviour = m.behaviour?.getD (r.inter .behaviour) := by
  rw [rights_eq_parts, Rights.inter_union_parts]
  cases m with
  | limit => exact (by decide : Rights.limit.inter .behaviour = .limit)
  | clip => exact (by decide : Rights.clip.inter .behaviour = .clip)
  | _ => rfl

theorem diff_behaviour (m : Modifier) (r : Rights) :
    (m.rights r).diff .behaviour =
      (m.rights?.map (·.diff .behaviour)).getD (r.diff .behaviour) := by
  rw [rights_eq_parts, Rights.diff_union_parts]
  cases m <;> rfl

/-! ## The last modifier of a sort -/

variable {α β : Type}

/-- What the last modifier sets among those that set something of a sort. -/
def last? (set? : Modifier → Option α) (ms : List Modifier) : Option α :=
  (ms.filterMap set?).getLast?

theorem getD_last?_cons (set? : Modifier → Option α) (m : Modifier) (ms : List Modifier) (x : α) :
    (last? set? (m :: ms)).getD x = (last? set? ms).getD ((set? m).getD x) := by
  unfold last?
  cases hm : set? m with
  | none =>
    rw [List.filterMap_cons_none hm]
    rfl
  | some a =>
    rw [List.filterMap_cons_some hm, List.getLast?_cons]
    rfl

theorem last?_map (set? : Modifier → Option α) (f : α → β) (ms : List Modifier) :
    last? (fun m => (set? m).map f) ms = (last? set? ms).map f := by
  unfold last?
  rw [← List.map_filterMap, List.getLast?_map]

end Modifier

/-- **The last writer law.** If each modifier either sets a part of a declaration, whatever it was
before, or leaves it, then a chain leaves it as the last of those set it. -/
theorem modifyAll_eq_last? {α : Type} (part : Declaration → α) {set? : Modifier → Option α}
    (hmodify : ∀ d m, part (d.modify m) = (set? m).getD (part d)) (d : Declaration)
    (ms : List Modifier) : part (d.modifyAll ms) = (Modifier.last? set? ms).getD (part d) := by
  induction ms generalizing d with
  | nil => rfl
  | cons m ms ih =>
    rw [Modifier.getD_last?_cons, ← hmodify]
    exact ih (d.modify m)

theorem name_modifyAll (d : Declaration) (ms : List Modifier) :
    (d.modifyAll ms).name = if .hidden ∈ ms then none else d.name := by
  induction ms generalizing d with
  | nil => rfl
  | cons m ms ih =>
    have hone : (d.modify m).name = if .hidden = m then none else d.name := by
      cases m <;> rfl
    have hrest : (d.modifyAll (m :: ms)).name =
        if .hidden ∈ ms then none else (d.modify m).name := ih (d.modify m)
    rw [hrest, hone]
    by_cases hm : Modifier.hidden = m
    · simp [hm]
    · simp [hm]

theorem kind_modifyAll (d : Declaration) (ms : List Modifier) : (d.modifyAll ms).kind = d.kind := by
  induction ms generalizing d with
  | nil => rfl
  | cons m ms ih =>
    have hone : (d.modify m).kind = d.kind := by cases m <;> rfl
    exact (ih (d.modify m)).trans hone

/-! ## What a chain leads to -/

/-- What a chain of modifiers makes of a new declaration: the last modifier of each sort decides,
and where there is none the declaration is as it was. -/
structure ComposedOf (d : Declaration) (name : String) (kind : DeclaredKind) (ms : List Modifier) :
    Prop where
  /-- Of the bits for values beyond the bounds there is the one that was set last. -/
  behaviour : d.rights.inter .behaviour = (Modifier.last? Modifier.behaviour? ms).getD ⟨0⟩
  decided : d.rights.Decided
  /-- All other bits are those of the rights that were brought last. -/
  others : d.rights.diff .behaviour =
    ((Modifier.last? Modifier.rights? ms).map (·.diff .behaviour)).getD .program
  channels : d.channels = (Modifier.last? Modifier.channels? ms).getD 1
  storage : d.storage = (Modifier.last? Modifier.storage? ms).getD .ram
  format : d.format = (Modifier.last? Modifier.format? ms).getD .default
  name : d.name = if .hidden ∈ ms then none else some name
  kind : d.kind = kind

theorem composedOf_modifyAll (name : String) (kind : DeclaredKind) (ms : List Modifier) :
    ((new name kind).modifyAll ms).ComposedOf name kind ms where
  behaviour := by
    have hnew : (new name kind).rights.inter .behaviour = ⟨0⟩ :=
      (by decide : Rights.program.inter .behaviour = ⟨0⟩)
    rw [← hnew]
    refine modifyAll_eq_last? (fun d => d.rights.inter .behaviour) ?_ (new name kind) ms
    intro d m
    rw [rights_modify]
    exact m.inter_behaviour d.rights
  decided := Constructed.decided ⟨name, kind, ms, rfl⟩
  others := by
    have hnew : (new name kind).rights.diff .behaviour = .program :=
      (by decide : Rights.program.diff .behaviour = .program)
    rw [← Modifier.last?_map, ← hnew]
    refine modifyAll_eq_last? (fun d => d.rights.diff .behaviour) ?_ (new name kind) ms
    intro d m
    rw [rights_modify]
    exact m.diff_behaviour d.rights
  channels := modifyAll_eq_last? channels (by rintro d ⟨⟩ <;> rfl) _ ms
  storage := modifyAll_eq_last? storage (by rintro d ⟨⟩ <;> rfl) _ ms
  format := modifyAll_eq_last? format (by rintro d ⟨⟩ <;> rfl) _ ms
  name := name_modifyAll _ ms
  kind := kind_modifyAll _ ms

/-- Which rights a chain leads to depends on two of its modifiers only. -/
theorem ComposedOf.rights_eq {d d' : Declaration} {name name' : String} {kind kind' : DeclaredKind}
    {ms ms' : List Modifier} (h : d.ComposedOf name kind ms) (h' : d'.ComposedOf name' kind' ms')
    (hbehaviour : Modifier.last? Modifier.behaviour? ms' = Modifier.last? Modifier.behaviour? ms)
    (hrights : Modifier.last? Modifier.rights? ms' = Modifier.last? Modifier.rights? ms) :
    d'.rights = d.rights := by
  rw [← Rights.union_parts d'.rights .behaviour, ← Rights.union_parts d.rights .behaviour,
    h'.behaviour, h'.others, h.behaviour, h.others, hbehaviour, hrights]

end Declaration

/-! ## Built tables -/

/-- The words of rights in tables are those of the declarations that they lay out. -/
theorem TableSet.LaysOut.rights {t : TableSet} {ds : List Declaration} (h : t.LaysOut ds) :
    t.vars.toList.map (·.rights) = ds.map (·.rights.bits) := by
  refine List.ext_getElem? fun i => ?_
  rw [List.getElem?_map, List.getElem?_map, Array.getElem?_toList]
  cases hd : ds[i]? with
  | none =>
    have hi := List.getElem?_eq_none_iff.1 hd
    rw [Array.getElem?_eq_none (h.size ▸ hi)]
    rfl
  | some d =>
    obtain ⟨raw, hraw, hdeclares⟩ := h.declares i d hd
    rw [hraw]
    exact congrArg some hdeclares.rights

/-- No descriptor in tables that lay out constructed declarations has both bits. -/
theorem TableSet.LaysOut.decided {t : TableSet} {ds : List Declaration} (h : t.LaysOut ds)
    (hds : ∀ d ∈ ds, d.Constructed) :
    ∀ raw ∈ t.vars, ¬(raw.rights &&& 0x4000 = 0x4000 ∧ raw.rights &&& 0x2000 = 0x2000) := by
  rintro raw hraw ⟨hlimit, hclip⟩
  have hword : raw.rights ∈ ds.map (·.rights.bits) := by
    rw [← h.rights]
    exact List.mem_map_of_mem (Array.mem_toList_iff.2 hraw)
  obtain ⟨d, hd, hrights⟩ := List.mem_map.1 hword
  rw [← hrights] at hlimit hclip
  exact (hds d hd).decided ⟨decide_eq_true hlimit, decide_eq_true hclip⟩

namespace Declaration

/-- **The last modifiers decide.** A declaration that was made with a name and a kind and then
modified is what the last modifier of each sort makes of it. Its rights depend only on the last
modifier that sets a bit for values beyond the bounds and the last one that brings rights, however
the two sorts are interleaved. Tables that are built from such declarations hold their words of
rights, and are never refused because a variable has both bits. -/
theorem last_modifiers_decide :
    (∀ name kind ms, ((new name kind).modifyAll ms).ComposedOf name kind ms) ∧
      (∀ name kind ms ms',
        Modifier.last? Modifier.behaviour? ms' = Modifier.last? Modifier.behaviour? ms →
        Modifier.last? Modifier.rights? ms' = Modifier.last? Modifier.rights? ms →
          ((new name kind).modifyAll ms').rights = ((new name kind).modifyAll ms).rights) ∧
      ∀ (policy : AccessPolicy) (ds : List Declaration) (t : TableSet),
        (∀ d ∈ ds, d.Constructed) →
        ((Builder.new policy).addAll ds).2.build = .ok t →
          t.vars.toList.map (·.rights) = ds.map (·.rights.bits) ∧
            ∀ i, t.directory ≠ .error (.inVariable i .limitAndClip) := by
  refine ⟨composedOf_modifyAll, ?_, ?_⟩
  · intro name kind ms ms' hbehaviour hrights
    exact (composedOf_modifyAll name kind ms).rights_eq (composedOf_modifyAll name kind ms')
      hbehaviour hrights
  · intro policy ds t hds hbuild
    obtain ⟨hfits, rfl⟩ := Builder.build_eq_ok.1 hbuild
    obtain ⟨-, hlays⟩ := Builder.laysOut_addAll policy ds hfits
    exact ⟨hlays.rights, TableSet.directory_ne_limitAndClip (hlays.decided hds)⟩

/-- Rights with both bits are brought twice, with a limit and then a clip between them. -/
def mixedChain : List Modifier := [
  .access ⟨0xE0FF⟩, .limit, .vector 4, .clip, .access ⟨0xC022⟩, .format .hex4, .storage .flash]

/-- The rights of the mixed chain, and then its limit and its clip. -/
def sortedChain : List Modifier := [.access ⟨0xE0FF⟩, .access ⟨0xC022⟩, .limit, .clip, .hidden]

/-- A number modified by the mixed chain, and one modified by the sorted chain. -/
def chainedNumbers : List Declaration :=
  [mixedChain, sortedChain].map (new "N" (.number .int32 ⟨0, -9, 9⟩)).modifyAll

theorem chainedNumbers_constructed : ∀ d ∈ chainedNumbers, d.Constructed := by
  intro d hd
  obtain ⟨ms, -, rfl⟩ := List.mem_map.1 hd
  exact ⟨_, _, ms, rfl⟩

theorem mixed_and_sorted_chain :
    ∃ d d' t, chainedNumbers = [d, d'] ∧
      d.ComposedOf "N" (.number .int32 ⟨0, -9, 9⟩) mixedChain ∧
      d'.ComposedOf "N" (.number .int32 ⟨0, -9, 9⟩) sortedChain ∧
      Modifier.last? Modifier.behaviour? sortedChain =
        Modifier.last? Modifier.behaviour? mixedChain ∧
      Modifier.last? Modifier.rights? sortedChain = Modifier.last? Modifier.rights? mixedChain ∧
      d.rights = ⟨0xA022⟩ ∧ d'.rights = d.rights ∧ (∀ e ∈ chainedNumbers, e.Constructed) ∧
      ((Builder.new .subset).addAll chainedNumbers).2.build = .ok t ∧
      t.vars.toList.map (·.rights) = [0xA022, 0xA022] ∧
      ∀ i, t.directory ≠ .error (.inVariable i .limitAndClip) := by
  obtain ⟨hcomposed, hindependent, hbuilt⟩ := last_modifiers_decide
  have hbuild : ((Builder.new .subset).addAll chainedNumbers).2.build.toBool = true := by
    decide +kernel
  obtain ⟨t, ht⟩ := toBool_eq_true.1 hbuild
  obtain ⟨hwords, hdirectory⟩ := hbuilt .subset chainedNumbers t chainedNumbers_constructed ht
  exact ⟨_, _, t, rfl, hcomposed _ _ _, hcomposed _ _ _, by decide, by decide, by decide,
    hindependent _ _ _ _ (by decide) (by decide), chainedNumbers_constructed, ht, hwords,
    hdirectory⟩

end Declaration

end VariableRegistry
