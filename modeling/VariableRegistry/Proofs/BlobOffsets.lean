/-
# Offsets into the blob

In a blob that was put together text by text every text is ended, so an offset names a text exactly
if it lies inside the blob.
-/
import VariableRegistry.Tables.Blob

namespace VariableRegistry.Blob

/-- A blob put together from nothing by appending texts. -/
inductive Built : Blob → Prop where
  | empty : Built .empty
  | push {b : Blob} (s : String) (hb : Built b) : Built (b.push s)

theorem built_foldl_push {b : Blob} (hb : b.Built) (texts : List String) :
    (texts.foldl push b).Built := by
  induction texts generalizing b with
  | nil => exact hb
  | cons s texts ih => exact ih (hb.push s)

/-- The blob of a list of texts is put together text by text. -/
theorem built_ofStrings (texts : List String) : (ofStrings texts).Built :=
  built_foldl_push .empty texts

/-! ## Zero bytes -/

/-- A zero byte is found if there is one at the position or behind it. -/
theorem isSome_zeroFrom?_iff (bytes : Array UInt8) (i : Nat) :
    (zeroFrom? bytes i).isSome ↔ ∃ j, i ≤ j ∧ bytes[j]? = some 0 := by
  fun_induction zeroFrom? bytes i with
  | case1 i h hzero =>
    simp only [Option.isSome_some, true_iff]
    exact ⟨i, Nat.le_refl i, by rw [Array.getElem?_eq_getElem h, hzero]⟩
  | case2 i h hne ih =>
    rw [ih]
    constructor
    · rintro ⟨j, hj, hzero⟩
      exact ⟨j, by omega, hzero⟩
    · rintro ⟨j, hj, hzero⟩
      refine ⟨j, ?_, hzero⟩
      rcases Nat.eq_or_lt_of_le hj with rfl | hlt
      · rw [Array.getElem?_eq_getElem h, Option.some.injEq] at hzero
        exact absurd hzero hne
      · exact hlt
  | case3 i h =>
    simp only [Option.isSome_none, Bool.false_eq_true, false_iff]
    rintro ⟨j, hj, hzero⟩
    rw [Array.getElem?_eq_none (by omega)] at hzero
    cases hzero

/-- The last byte of a blob that was put together is a zero byte. -/
theorem Built.getElem?_last {b : Blob} (hb : b.Built) (h : 0 < b.size) :
    b.bytes[b.size - 1]? = some 0 := by
  cases hb with
  | empty => simp [Blob.size, Blob.empty] at h
  | push s hb => simp [Blob.size, Blob.push]

/-- Inside a blob that was put together every offset names a text, and outside none does. -/
theorem Built.isSome_bytesAt?_iff {b : Blob} (hb : b.Built) (offset : Nat) :
    (b.bytesAt? offset).isSome ↔ offset < b.size := by
  rw [bytesAt?, Option.isSome_map, isSome_zeroFrom?_iff]
  constructor
  · rintro ⟨j, hj, hzero⟩
    obtain ⟨hlt, -⟩ := Array.getElem?_eq_some_iff.1 hzero
    exact Nat.lt_of_le_of_lt hj hlt
  · intro h
    -- no text reaches beyond the last byte
    exact ⟨b.size - 1, by omega, hb.getElem?_last (by omega)⟩

theorem isSome_textAt? (b : Blob) (offset : Nat) :
    (b.textAt? offset).isSome = (b.bytesAt? offset).isSome := by
  rw [textAt?, Option.isSome_map]

end VariableRegistry.Blob
