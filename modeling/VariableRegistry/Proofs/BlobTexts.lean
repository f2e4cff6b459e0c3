/-
# Texts in the blob

What stands at an offset of the blob are the bytes up to the next zero byte. A text that was
appended is found, up to its first zero character, at the offset at which it was appended, and no
text that is appended later changes that.
-/
import VariableRegistry.Proofs.BlobOffsets
import VariableRegistry.Proofs.Utf8Codec
import VariableRegistry.Registry.Text

namespace VariableRegistry

/-! ## Zero bytes and zero characters -/

namespace Utf8

theorem encode_cons (c : Char) (cs : List Char) : encode (c :: cs) = encodeChar c ++ encode cs :=
  rfl

theorem eq_zero_of_zero_mem_encodeChar {c : Char} (h : (0 : UInt8) ∈ encodeChar c) :
    c = '\x00' := by
  have hv := isValidChar_toNat c
  -- no byte below the first one, and no leading byte of several, is zero
  have hne : ∀ n, 0 < n → n < 0x100 → (0 : UInt8) ≠ UInt8.ofNat n := by
    intro n hpos hlt heq
    have hn := congrArg UInt8.toNat heq
    rw [toNat_ofNat_of_lt hlt] at hn
    exact absurd hn.symm (Nat.ne_of_gt hpos)
  unfold encodeChar at h
  simp only at h
  split_ifs at h with h1 h2 h3
  · by_cases hzero : c.toNat = 0
    · rw [← Char.ofNat_toNat c, hzero]
    · exact absurd (List.mem_singleton.1 h) (hne _ (by omega) (by omega))
  · simp only [List.mem_cons, List.not_mem_nil, or_false] at h
    rcases h with h | h <;> exact absurd h (hne _ (by omega) (by omega))
  · simp only [List.mem_cons, List.not_mem_nil, or_false] at h
    rcases h with h | h | h <;> exact absurd h (hne _ (by omega) (by omega))
  · simp only [List.mem_cons, List.not_mem_nil, or_false] at h
    rcases h with h | h | h | h <;> exact absurd h (hne _ (by omega) (by omega))

/-- Text without zero characters has no zero bytes. -/
theorem zero_not_mem_encode {cs : List Char} (h : '\x00' ∉ cs) : (0 : UInt8) ∉ encode cs := by
  intro hmem
  obtain ⟨c, hc, hbyte⟩ := List.mem_flatMap.1 hmem
  rw [eq_zero_of_zero_mem_encodeChar hbyte] at hc
  exact h hc

theorem decodeLossy_encode (cs : List Char) : decodeLossy (encode cs) = cs := by
  rw [decodeLossy, decode_encode, List.map_map]
  exact List.map_id cs

theorem follow_suffix (k n low high : Nat) (bytes : List UInt8) :
    (follow k n low high bytes).2 <:+ bytes := by
  induction k generalizing n low high bytes with
  | zero => exact List.suffix_refl bytes
  | succ k ih =>
    cases bytes with
    | nil => exact List.suffix_refl []
    | cons b bytes =>
      rw [follow]
      split_ifs with hb
      · exact (ih _ _ _ bytes).trans (List.suffix_cons b bytes)
      · exact List.suffix_refl _

/-- What is left behind a character or a fault is the end of what was there. -/
theorem step_suffix (b : UInt8) (bytes : List UInt8) : (step b bytes).2 <:+ bytes := by
  rw [step]
  split
  · exact List.suffix_refl bytes
  · exact follow_suffix _ _ _ _ bytes

/-- No zero character is read from bytes that are not zero. -/
theorem zero_not_mem_decode {bytes : List UInt8} (h : (0 : UInt8) ∉ bytes) :
    some '\x00' ∉ decode bytes := by
  induction hlength : bytes.length using Nat.strongRecOn generalizing bytes with
  | _ n ih =>
    cases bytes with
    | nil =>
      rw [decode_nil]
      exact List.not_mem_nil
    | cons b bytes =>
      have hrest := ih _ (by
        rw [← hlength, List.length_cons]
        exact Nat.lt_succ_of_le (length_step_le b bytes))
        (fun hmem => h (List.mem_cons_of_mem b ((step_suffix b bytes).mem hmem))) rfl
      rw [decode_cons, List.mem_cons, not_or]
      refine ⟨fun hzero => ?_, hrest⟩
      -- the bytes of a zero character are a zero byte
      have hstep : step b bytes = (some '\x00', (step b bytes).2) := Prod.ext hzero.symm rfl
      have hb := eq_encodeChar_of_step hstep
      rw [show encodeChar '\x00' = [0] from rfl] at hb
      cases hb
      exact h List.mem_cons_self

theorem zero_not_mem_decodeLossy {bytes : List UInt8} (h : (0 : UInt8) ∉ bytes) :
    '\x00' ∉ decodeLossy bytes := by
  intro hmem
  obtain ⟨c, hc, hzero⟩ := List.mem_map.1 hmem
  cases c with
  | none => exact absurd hzero (by decide)
  | some c =>
    obtain rfl : c = '\x00' := hzero
    exact zero_not_mem_decode h hc

end Utf8

namespace Registry

theorem toList_beforeZero (s : String) :
    (beforeZero s).toList = s.toList.takeWhile (· ≠ '\x00') :=
  String.toList_ofList

/-- The text before the first zero character holds none. -/
theorem zero_not_mem_beforeZero (s : String) : '\x00' ∉ (beforeZero s).toList := by
  rw [toList_beforeZero]
  intro h
  exact absurd (List.all_eq_true.1 List.all_takeWhile _ h) (by decide)

end Registry

/-- Written out and ended by a zero byte, a text begins with what stands before its first zero
character and a zero byte. -/
theorem Utf8.exists_encode_append_zero (cs : List Char) :
    ∃ rest, encode cs ++ [0] = encode (cs.takeWhile (· ≠ '\x00')) ++ 0 :: rest := by
  induction cs with
  | nil => exact ⟨[], rfl⟩
  | cons c cs ih =>
    by_cases hc : c = '\x00'
    · subst hc
      exact ⟨encode cs ++ [0], rfl⟩
    · obtain ⟨rest, hrest⟩ := ih
      refine ⟨rest, ?_⟩
      rw [List.takeWhile_cons_of_pos (by simpa using hc), encode_cons, encode_cons,
        List.append_assoc, hrest, List.append_assoc]

namespace Blob

variable {b : Blob} {offset : Nat} {bytes : List UInt8}

/-! ## What stands at an offset -/

/-- The zero byte that is found is the first one from a position on. -/
theorem zeroFrom?_eq_some_iff {bytes : Array UInt8} {i stop : Nat} :
    zeroFrom? bytes i = some stop ↔
      i ≤ stop ∧ bytes[stop]? = some 0 ∧ ∀ k, i ≤ k → k < stop → bytes[k]? ≠ some 0 := by
  fun_induction zeroFrom? bytes i with
  | case1 i h hzero =>
    rw [Option.some.injEq]
    constructor
    · rintro rfl
      exact ⟨Nat.le_refl i, by rw [Array.getElem?_eq_getElem h, hzero], fun k hk hlt => by omega⟩
    · rintro ⟨hle, -, hfirst⟩
      rcases Nat.eq_or_lt_of_le hle with heq | hlt
      · exact heq
      · exact absurd (by rw [Array.getElem?_eq_getElem h, hzero]) (hfirst i (Nat.le_refl i) hlt)
  | case2 i h hne ih =>
    rw [ih]
    have hi : bytes[i]? ≠ some 0 := by
      rw [Array.getElem?_eq_getElem h, Ne, Option.some.injEq]
      exact hne
    constructor
    · rintro ⟨hle, hzero, hfirst⟩
      refine ⟨by omega, hzero, ?_⟩
      intro k hk hlt
      rcases Nat.eq_or_lt_of_le hk with rfl | hk
      · exact hi
      · exact hfirst k hk hlt
    · rintro ⟨hle, hzero, hfirst⟩
      refine ⟨?_, hzero, fun k hk hlt => hfirst k (by omega) hlt⟩
      rcases Nat.eq_or_lt_of_le hle with rfl | hlt
      · exact absurd hzero hi
      · exact hlt
  | case3 i h =>
    constructor
    · intro hnone
      cases hnone
    · rintro ⟨hle, hzero, -⟩
      rw [Array.getElem?_eq_none (by omega)] at hzero
      cases hzero

/-- What stands at an offset are bytes without a zero byte that a zero byte follows. -/
theorem bytesAt?_eq_some_iff :
    b.bytesAt? offset = some bytes ↔
      0 ∉ bytes ∧ ∃ rest, b.bytes.toList.drop offset = bytes ++ 0 :: rest := by
  rw [bytesAt?, Option.map_eq_some_iff]
  simp only [zeroFrom?_eq_some_iff, ← Array.getElem?_toList, Array.toList_extract,
    List.extract_eq_take_drop]
  generalize b.bytes.toList = all
  constructor
  · rintro ⟨stop, ⟨hle, hzero, hfirst⟩, rfl⟩
    constructor
    · intro hmem
      obtain ⟨k, hk⟩ := List.mem_iff_getElem?.1 hmem
      obtain ⟨hlt, -⟩ := List.getElem?_eq_some_iff.1 hk
      rw [List.length_take] at hlt
      rw [List.getElem?_take_of_lt (by omega), List.getElem?_drop] at hk
      exact hfirst (offset + k) (by omega) (by omega) hk
    · obtain ⟨hlt, hstop⟩ := List.getElem?_eq_some_iff.1 hzero
      refine ⟨all.drop (stop + 1), ?_⟩
      have hsplit := List.take_append_drop (stop - offset) (all.drop offset)
      rw [List.drop_drop, show offset + (stop - offset) = stop by omega,
        List.drop_eq_getElem_cons hlt, hstop] at hsplit
      exact hsplit.symm
  · rintro ⟨hmem, rest, hdrop⟩
    have hat : ∀ k, all[offset + k]? = (bytes ++ 0 :: rest)[k]? := by
      intro k
      rw [← hdrop, List.getElem?_drop]
    refine ⟨offset + bytes.length, ⟨by omega, ?_, ?_⟩, ?_⟩
    · rw [hat, List.getElem?_append_right (Nat.le_refl _), Nat.sub_self]
      rfl
    · intro k hk hlt hzero
      obtain ⟨j, rfl⟩ := Nat.exists_eq_add_of_le hk
      rw [hat, List.getElem?_append_left (by omega)] at hzero
      exact hmem (List.mem_of_getElem? hzero)
    · rw [hdrop, Nat.add_sub_cancel_left, List.take_left]

/-! ## Appending texts -/

theorem toList_push (b : Blob) (s : String) :
    (b.push s).bytes.toList = b.bytes.toList ++ (Utf8.encode s.toList ++ [0]) := by
  simp [push]

theorem size_push (b : Blob) (s : String) :
    (b.push s).size = b.size + Utf8.size s.toList + 1 := by
  have hlength := congrArg List.length (toList_push b s)
  rwa [List.length_append, List.length_append, ← Nat.add_assoc] at hlength

/-- A text that is appended is found at the offset at which the blob ended. -/
theorem bytesAt?_push_size (b : Blob) (s : String) :
    (b.push s).bytesAt? b.size = some (Utf8.encode (Registry.beforeZero s).toList) := by
  obtain ⟨rest, hrest⟩ := Utf8.exists_encode_append_zero s.toList
  rw [bytesAt?_eq_some_iff]
  refine ⟨Utf8.zero_not_mem_encode (Registry.zero_not_mem_beforeZero s), rest, ?_⟩
  have hend : b.bytes.toList.length = b.size := rfl
  rw [toList_push, List.drop_left' hend, hrest, Registry.toList_beforeZero]

/-- What stands at an offset is not changed by a text that is appended. -/
theorem bytesAt?_push (h : b.bytesAt? offset = some bytes) (s : String) :
    (b.push s).bytesAt? offset = some bytes := by
  obtain ⟨hmem, rest, hdrop⟩ := bytesAt?_eq_some_iff.1 h
  refine bytesAt?_eq_some_iff.2 ⟨hmem, rest ++ (Utf8.encode s.toList ++ [0]), ?_⟩
  have hle : offset ≤ b.bytes.toList.length := by
    have hlength := congrArg List.length hdrop
    simp only [List.length_drop, List.length_append, List.length_cons] at hlength
    omega
  rw [toList_push, List.drop_append_of_le_length hle, hdrop, List.append_assoc]
  rfl

/-- What stands at an offset is not changed by texts that are appended. -/
theorem bytesAt?_foldl_push (h : b.bytesAt? offset = some bytes) (texts : List String) :
    (texts.foldl push b).bytesAt? offset = some bytes := by
  induction texts generalizing b with
  | nil => exact h
  | cons s texts ih => exact ih (bytesAt?_push h s)

/-- The text whose bytes stand at an offset. -/
theorem textAt?_of_bytesAt? {cs : List Char} (h : b.bytesAt? offset = some (Utf8.encode cs)) :
    b.textAt? offset = some (String.ofList cs) := by
  rw [textAt?, h, Option.map_some, Utf8.decodeLossy_encode]

end Blob

end VariableRegistry
