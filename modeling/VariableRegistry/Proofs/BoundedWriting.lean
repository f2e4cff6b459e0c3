/-
# Writing in pieces

A bounded text that refused a piece can be given further ones, and refuses them all: a short piece
does not fill the room that a cut character left. So whatever the pieces are, what stands in the
buffer after each of them is told by the text that they make together. No piece needs a position
outside the buffer, and none reaches the byte that is kept for the zero byte.
-/
import VariableRegistry.Proofs.BoundedDumps
import VariableRegistry.Proofs.Utf8Boundaries

namespace VariableRegistry.BoundedText

/-! ## Writing with checked positions -/

/-- Writes a piece and checks every position that this needs. `none` if more is written than there
is room for, if the search for the cut passes the beginning of the piece, or if a byte would be put
into the last place of the buffer, which is kept for the zero byte, or behind it. -/
def write? (w : BoundedText) (s : String) : Option (Bool × BoundedText) :=
  if w.truncated then some (false, w)
  else if w.capacity < w.length then none
  else do
    let bytes ← Utf8.cutBytes? (w.capacity - w.length) (Utf8.encode s.toList)
    if w.capacity < w.length + bytes.length then none
    else
      let cut := bytes.length < (Utf8.encode s.toList).length
      some (!cut, ⟨overwrite w.buffer w.length bytes, w.length + bytes.length, cut⟩)

/-- No check fails as long as no more is written than there is room for. -/
theorem write?_eq_some {w : BoundedText} (h : w.length ≤ w.capacity) (s : String) :
    w.write? s = some (w.write s) := by
  rw [write?, write]
  cases w.truncated with
  | true => rfl
  | false =>
    have hfits := (Utf8.isCut_take (w.capacity - w.length) s.toList).fits
    have hend : w.length + (Utf8.encode (Utf8.take (w.capacity - w.length) s.toList)).length ≤
        w.capacity := Nat.add_le_of_le_sub' h hfits
    have hwhole : decide ((Utf8.take (w.capacity - w.length) s.toList).length = s.toList.length) =
        !decide ((Utf8.encode (Utf8.take (w.capacity - w.length) s.toList)).length <
          (Utf8.encode s.toList).length) := by
      rw [← decide_not, decide_eq_decide]
      exact Utf8.length_take_eq_iff_not_lt _ _
    rw [if_neg Bool.false_ne_true, if_neg Bool.false_ne_true, if_neg (Nat.not_lt.2 h),
      Utf8.cutBytes?_encode, Option.bind_eq_bind, Option.bind_some, if_neg (Nat.not_lt.2 hend)]
    simp only [hwhole, Bool.not_not]

/-! ## Pieces one after another -/

/-- Writes pieces one after another, also behind one that does not fit; the answers to all of them,
and what is written in the end. -/
def writeEach (w : BoundedText) : List String → List Bool × BoundedText
  | [] => ([], w)
  | s :: pieces =>
    let (whole, w) := w.write s
    let (answers, w) := w.writeEach pieces
    (whole :: answers, w)

/-- What is written in the end is the text of all pieces, as far as it fits. -/
theorem writeEach_filled (buffer : List UInt8) (cs : List Char) (pieces : List String) :
    ((filled buffer cs).writeEach pieces).2 =
      filled buffer (cs ++ (String.join pieces).toList) := by
  rw [String.toList_join]
  induction pieces generalizing cs with
  | nil => rw [writeEach, List.flatMap_nil, List.append_nil]
  | cons s pieces ih =>
    simp only [writeEach, write_filled, ih, List.flatMap_cons, List.append_assoc]

/-- A piece is whole if and only if the text up to its end fits. -/
theorem getElem?_writeEach_filled (buffer : List UInt8) (cs : List Char) {pieces : List String}
    {k : Nat} (hk : k < pieces.length) :
    ((filled buffer cs).writeEach pieces).1[k]? =
      some (decide (Utf8.size (cs ++ (String.join (pieces.take (k + 1))).toList) ≤
        buffer.length - 1)) := by
  simp only [String.toList_join]
  induction pieces generalizing cs k with
  | nil => exact absurd hk (Nat.not_lt_zero k)
  | cons s pieces ih =>
    simp only [writeEach, write_filled, List.take_succ_cons, List.flatMap_cons]
    cases k with
    | zero => simp
    | succ k =>
      rw [List.getElem?_cons_succ, ih _ (Nat.lt_of_succ_lt_succ hk), List.append_assoc]

/-! ## What stands in the buffer -/

/-- What stands in a buffer after a text was written into it, before it is ended: the longest
beginning that leaves room for a zero byte, and behind it what the buffer held before. -/
structure Written (buffer : List UInt8) (text : String) (w : BoundedText) : Prop where
  beginning : Utf8.IsCut (max buffer.length 1 - 1) text.toList w.text.toList
  bytes : w.buffer.take w.length = Utf8.encode w.text.toList
  length : w.length = Utf8.size w.text.toList
  truncated : w.truncated = true ↔ max buffer.length 1 - 1 < Utf8.size text.toList
  /-- The buffer does not grow or shrink. -/
  buffer_length : w.buffer.length = buffer.length
  behind : ∀ i, w.length ≤ i → w.buffer[i]? = buffer[i]?
  /-- Whatever is written next, no check fails. -/
  checked : ∀ s, w.write? s = some (w.write s)

theorem room_eq (n : Nat) : max n 1 - 1 = n - 1 := by
  omega

theorem written_filled (buffer : List UInt8) (text : String) :
    Written buffer text (filled buffer text.toList) := by
  have htext : (filled buffer text.toList).text.toList =
      Utf8.take (buffer.length - 1) text.toList := by
    rw [BoundedText.text, take_buffer_filled, Utf8.decode?_eq_some_iff.2 rfl]
    exact String.toList_ofList
  constructor
  · rw [htext, room_eq]
    exact Utf8.isCut_take (buffer.length - 1) text.toList
  · rw [htext, take_buffer_filled]
  · rw [htext]
    rfl
  · rw [room_eq, filled, decide_eq_true_iff]
  · exact length_buffer_filled buffer text.toList
  · exact fun i hi => getElem?_buffer_filled buffer text.toList hi
  · refine write?_eq_some ?_
    rw [capacity, length_buffer_filled]
    exact length_filled_le buffer text.toList

/-- **What is written is told by the text alone, however it is divided.** For every buffer and all
pieces, a piece is whole if and only if the text up to its end leaves room for a zero byte. After
any number of pieces the buffer holds the longest beginning of their text that leaves this room,
followed by what it held before, and is marked as cut if and only if this is not the whole text; a
further piece needs no position that is not there and leaves the last byte alone. Ending the text
puts the zero byte behind it. Other pieces that make the same text leave the same. -/
theorem pieces_written_as_their_text (buffer : List UInt8) (pieces : List String) :
    (∀ k, k < pieces.length → ((new buffer).writeEach pieces).1[k]? =
      some (decide (Utf8.size (String.join (pieces.take (k + 1))).toList ≤
        max buffer.length 1 - 1))) ∧
    (∀ k, Written buffer (String.join (pieces.take k))
      ((new buffer).writeEach (pieces.take k)).2) ∧
    HoldsCut buffer (String.join pieces) ((new buffer).writeEach pieces).2.finish.1
      ((new buffer).writeEach pieces).2.finish.2 ∧
    ∀ pieces', String.join pieces' = String.join pieces →
      ((new buffer).writeEach pieces').2 = ((new buffer).writeEach pieces).2 := by
  have hend : ∀ pieces : List String, ((new buffer).writeEach pieces).2 =
      filled buffer (String.join pieces).toList := by
    intro pieces
    rw [← filled_nil, writeEach_filled, List.nil_append]
  refine ⟨?_, ?_, ?_, ?_⟩
  · intro k hk
    rw [← filled_nil, getElem?_writeEach_filled buffer [] hk, List.nil_append, room_eq]
  · intro k
    rw [hend]
    exact written_filled buffer _
  · rw [hend]
    exact holdsCut_finish buffer _
  · intro pieces' hpieces
    rw [hend, hend, hpieces]

/-- Behind a character that is cut, one byte stays free, and a piece of one byte is refused. -/
example : (new [7, 7, 7, 7]).writeEach ["ab", "é", "c"] =
    ([true, false, false], ⟨[97, 98, 7, 7], 2, true⟩) := by decide

end VariableRegistry.BoundedText
