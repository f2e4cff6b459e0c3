/-
# The blob as a list of texts

A blob that was put together text by text is the same again when it is put together from its list of
texts: a text with zero characters in it comes back in pieces, each ended by the zero byte that
stood there before, so that no offset moves.
-/
import VariableRegistry.Proofs.BlobTexts

namespace VariableRegistry

/-- The bytes before the first zero byte are those of the text before the first zero character. -/
theorem Utf8.encode_takeWhile (cs : List Char) :
    encode (cs.takeWhile (· ≠ '\x00')) = (encode cs).takeWhile (· ≠ 0) := by
  induction cs with
  | nil => rfl
  | cons c cs ih =>
    by_cases hc : c = '\x00'
    · subst hc
      rfl
    · have hne : ∀ b ∈ encodeChar c, decide (b ≠ 0) = true := by
        intro b hb
        rw [decide_eq_true_eq]
        rintro rfl
        exact hc (eq_zero_of_zero_mem_encodeChar hb)
      rw [List.takeWhile_cons_of_pos (by simpa using hc), encode_cons, encode_cons,
        List.takeWhile_append_of_pos hne, ih]

namespace Blob

/-! ## Ended texts -/

/-- The bytes of texts, each of them ended by a zero byte. -/
def endedBytes (texts : List (List Char)) : List UInt8 :=
  texts.flatMap fun cs => Utf8.encode cs ++ [0]

theorem endedBytes_cons (p : List Char) (ps : List (List Char)) :
    endedBytes (p :: ps) = Utf8.encode p ++ 0 :: endedBytes ps := by
  simp [endedBytes]

/-- What a text is cut into at its zero characters. -/
def pieces (s : String) : List (List Char) := s.toList.splitOn '\x00'

theorem zero_not_mem_of_mem_splitOn {p : List Char} (cs : List Char)
    (h : p ∈ cs.splitOn '\x00') : '\x00' ∉ p := by
  induction cs generalizing p with
  | nil =>
    rw [List.splitOn_nil, List.mem_singleton] at h
    exact h ▸ List.not_mem_nil
  | cons c cs ih =>
    rw [List.splitOn_cons_eq_if_modifyHead] at h
    split_ifs at h with hc
    · rcases List.mem_cons.1 h with rfl | h
      · exact List.not_mem_nil
      · exact ih h
    · obtain ⟨first, others, hpieces⟩ := List.exists_cons_of_ne_nil (List.splitOn_ne_nil '\x00' cs)
      rw [hpieces, List.modifyHead_cons] at h
      rw [hpieces] at ih
      rcases List.mem_cons.1 h with rfl | h
      · rw [List.mem_cons, not_or]
        exact ⟨fun hzero => hc (beq_iff_eq.2 hzero.symm), ih List.mem_cons_self⟩
      · exact ih (List.mem_cons_of_mem first h)

/-- A text and the zero byte that ends it are its pieces, each of them ended. -/
theorem endedBytes_splitOn (cs : List Char) :
    endedBytes (cs.splitOn '\x00') = Utf8.encode cs ++ [0] := by
  induction cs with
  | nil => rfl
  | cons c cs ih =>
    rw [List.splitOn_cons_eq_if_modifyHead]
    split_ifs with hc
    · -- a zero character ends a piece that is empty so far
      obtain rfl : c = '\x00' := beq_iff_eq.1 hc
      rw [endedBytes_cons, ih]
      rfl
    · obtain ⟨first, others, hpieces⟩ := List.exists_cons_of_ne_nil (List.splitOn_ne_nil '\x00' cs)
      rw [hpieces, endedBytes_cons] at ih
      rw [hpieces, List.modifyHead_cons, endedBytes_cons, Utf8.encode_cons, Utf8.encode_cons,
        List.append_assoc, ih, List.append_assoc]

theorem zero_not_mem_pieces (texts : List String) :
    ∀ p ∈ texts.flatMap pieces, '\x00' ∉ p := by
  intro p hp
  obtain ⟨s, -, hmem⟩ := List.mem_flatMap.1 hp
  exact zero_not_mem_of_mem_splitOn s.toList hmem

/-! ## Cutting and joining -/

/-- Bytes are cut at the first zero byte that follows them. -/
theorem segments_append_zero {bytes : List UInt8} (hbytes : 0 ∉ bytes)
    (done : List (List UInt8)) (current rest : List UInt8) :
    segments done current (bytes ++ 0 :: rest) =
      segments ((current.reverse ++ bytes) :: done) [] rest := by
  induction bytes generalizing current with
  | nil => rw [List.nil_append, segments, if_pos rfl, List.append_nil]
  | cons b bytes ih =>
    rw [List.mem_cons, not_or] at hbytes
    rw [List.cons_append, segments, if_neg (Ne.symm hbytes.1), ih hbytes.2, List.reverse_cons,
      List.append_assoc]
    rfl

theorem segments_endedBytes {ps : List (List Char)} (hzero : ∀ p ∈ ps, '\x00' ∉ p)
    (done : List (List UInt8)) :
    segments done [] (endedBytes ps) = done.reverse ++ ps.map Utf8.encode := by
  induction ps generalizing done with
  | nil => rw [List.map_nil, List.append_nil]; rfl
  | cons p ps ih =>
    rw [List.forall_mem_cons] at hzero
    rw [endedBytes_cons, segments_append_zero (Utf8.zero_not_mem_encode hzero.1), ih hzero.2]
    simp

/-! ## Blobs of texts -/

/-- A blob that was put together is the blob of some texts. -/
theorem Built.exists_ofStrings {b : Blob} (hb : b.Built) : ∃ texts, b = ofStrings texts := by
  induction hb with
  | empty => exact ⟨[], rfl⟩
  | push s _ ih =>
    obtain ⟨texts, rfl⟩ := ih
    exact ⟨texts ++ [s], by rw [ofStrings, ofStrings, List.foldl_append]; rfl⟩

theorem toList_foldl_push (texts : List String) (b : Blob) :
    (texts.foldl push b).bytes.toList = b.bytes.toList ++ endedBytes (texts.map String.toList) := by
  induction texts generalizing b with
  | nil => exact (List.append_nil _).symm
  | cons s texts ih =>
    rw [List.foldl_cons, ih, toList_push]
    simp [endedBytes]

/-- The bytes of the blob of some texts are those of their pieces. -/
theorem toList_ofStrings (texts : List String) :
    (ofStrings texts).bytes.toList = endedBytes (texts.flatMap pieces) := by
  have hpieces : ∀ s : String, endedBytes (pieces s) = Utf8.encode s.toList ++ [0] :=
    fun s => endedBytes_splitOn s.toList
  rw [ofStrings, toList_foldl_push]
  simp only [endedBytes, List.flatMap_assoc, List.flatMap_map] at hpieces ⊢
  simp only [hpieces]
  rfl

/-- As a list, the blob of some texts is the list of their pieces. -/
theorem toStrings_ofStrings (texts : List String) :
    (ofStrings texts).toStrings = (texts.flatMap pieces).map String.ofList := by
  rw [toStrings, toList_ofStrings, segments_endedBytes (zero_not_mem_pieces texts),
    List.reverse_nil, List.nil_append, List.map_map]
  apply List.map_congr_left
  intro p _
  rw [Function.comp_apply, Utf8.decodeLossy_encode]

/-- **A blob is determined by its list of texts.** -/
theorem Built.ofStrings_toStrings {b : Blob} (hb : b.Built) : ofStrings b.toStrings = b := by
  obtain ⟨texts, rfl⟩ := hb.exists_ofStrings
  have hlists : ((texts.flatMap pieces).map String.ofList).map String.toList =
      texts.flatMap pieces := by
    rw [List.map_map]
    exact (List.map_congr_left fun _ _ => String.toList_ofList).trans (List.map_id _)
  have hsame : (ofStrings (ofStrings texts).toStrings).bytes.toList =
      (ofStrings texts).bytes.toList := by
    rw [toStrings_ofStrings, toList_ofStrings texts, ofStrings, toList_foldl_push, hlists]
    rfl
  exact congrArg Blob.mk (Array.toList_inj.1 hsame)

/-! ## Offsets -/

/-- Later texts do not change what stands inside a blob that was put together. -/
theorem Built.bytesAt?_foldl_push {b : Blob} (hb : b.Built) {offset : Nat} (h : offset < b.size)
    (texts : List String) : (texts.foldl Blob.push b).bytesAt? offset = b.bytesAt? offset := by
  obtain ⟨bytes, hbytes⟩ := Option.isSome_iff_exists.1 ((hb.isSome_bytesAt?_iff offset).2 h)
  rw [hbytes, Blob.bytesAt?_foldl_push hbytes]

/-- **The blob keeps its offsets.** In a blob that begins as that of a list of texts, which may be
empty, and to which texts are appended, a text that is appended is found at the offset at which the
blob ended, up to its first zero byte, whatever is appended behind it, and what stands at an offset
inside the blob stays there. The offsets at which something stands are those inside the blob. As a
list the blob keeps its bytes, and the list of the blob of some texts are their pieces. -/
theorem blob_keeps_offsets (texts pushed : List String) :
    let b := pushed.foldl push (ofStrings texts)
    (∀ (s : String) (later : List String), (later.foldl push (b.push s)).bytesAt? b.size =
      some ((Utf8.encode s.toList).takeWhile (· ≠ 0))) ∧
    (∀ (offset : Nat) (later : List String), offset < b.size →
      (later.foldl push b).bytesAt? offset = b.bytesAt? offset) ∧
    (∀ offset, (b.bytesAt? offset).isSome ↔ offset < b.size) ∧
    ofStrings b.toStrings = b ∧
    (ofStrings texts).toStrings =
      texts.flatMap fun s => (s.toList.splitOn '\x00').map String.ofList := by
  intro b
  have hb : b.Built := built_foldl_push (built_ofStrings texts) pushed
  refine ⟨fun s later => ?_, fun offset later h => hb.bytesAt?_foldl_push h later,
    hb.isSome_bytesAt?_iff, hb.ofStrings_toStrings, ?_⟩
  · apply Blob.bytesAt?_foldl_push
    rw [bytesAt?_push_size, Registry.toList_beforeZero, Utf8.encode_takeWhile]
  · rw [toStrings_ofStrings, List.map_flatMap]
    rfl

/-- A text with a zero character in it is two texts in the list. One more text is found behind it,
and what stands in the middle of its first character stays. -/
theorem blob_of_two_pieces_keeps_offsets :
    (((ofStrings ["é\x00b"]).push "c").push "d").bytesAt? 5 = some (Utf8.encode ['c']) ∧
    ((ofStrings ["é\x00b"]).push "c").bytesAt? 1 = (ofStrings ["é\x00b"]).bytesAt? 1 ∧
    (ofStrings ["é\x00b"]).toStrings = ["é", "b"] := by
  obtain ⟨hfound, hkept, -, -, hlist⟩ := blob_keeps_offsets ["é\x00b"] []
  exact ⟨hfound "c" ["d"], hkept 1 ["c"] (by decide), hlist⟩

end Blob

end VariableRegistry
