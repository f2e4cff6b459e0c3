/-
# Dumps in buffers

A dump is written into a buffer in many pieces, and writing ends at the first piece that does not
fit. Where the pieces are divided does not matter: the buffer holds the longest beginning of the
whole text that leaves room for a zero byte, this zero byte, and behind it what it held before.
-/
import VariableRegistry.Proofs.Utf8Codec
import VariableRegistry.Registry.Call

namespace VariableRegistry

namespace BoundedText

variable {buffer : List UInt8} {cs ds : List Char}

/-! ## A text in a buffer -/

/-- A buffer into which a text was written from its beginning on, as far as it fits. -/
def filled (buffer : List UInt8) (cs : List Char) : BoundedText :=
  let part := Utf8.take (buffer.length - 1) cs
  ⟨Utf8.encode part ++ buffer.drop (Utf8.size part), Utf8.size part,
    decide (buffer.length - 1 < Utf8.size cs)⟩

theorem filled_nil (buffer : List UInt8) : filled buffer [] = new buffer := by
  simp [filled, new, Utf8.take, Utf8.size, Utf8.encode]

/-- A text that fits stands in front of what the buffer held. -/
theorem filled_of_le (h : Utf8.size cs ≤ buffer.length - 1) :
    filled buffer cs = ⟨Utf8.encode cs ++ buffer.drop (Utf8.size cs), Utf8.size cs, false⟩ := by
  simp only [filled, Utf8.take_of_size_le h, decide_eq_false (Nat.not_lt.2 h)]

/-- Nothing is added to a text that does not fit. -/
theorem filled_append_of_lt (h : buffer.length - 1 < Utf8.size cs) (ds : List Char) :
    filled buffer (cs ++ ds) = filled buffer cs := by
  have hlt : buffer.length - 1 < Utf8.size (cs ++ ds) := by
    rw [Utf8.size_append]
    omega
  simp only [filled, Utf8.take_append_of_lt h, decide_eq_true h, decide_eq_true hlt]

/-- What is written leaves room for a zero byte. -/
theorem length_filled_le (buffer : List UInt8) (cs : List Char) :
    (filled buffer cs).length ≤ buffer.length - 1 :=
  (Utf8.isCut_take (buffer.length - 1) cs).fits

/-- The bytes that are written are those of the longest beginning that leaves room. -/
theorem take_buffer_filled (buffer : List UInt8) (cs : List Char) :
    (filled buffer cs).buffer.take (filled buffer cs).length =
      Utf8.encode (Utf8.take (buffer.length - 1) cs) :=
  List.take_left

/-- The buffer stays as long as it was. -/
theorem length_buffer_filled (buffer : List UInt8) (cs : List Char) :
    (filled buffer cs).buffer.length = buffer.length := by
  have hle : Utf8.size (Utf8.take (buffer.length - 1) cs) ≤ buffer.length - 1 :=
    length_filled_le buffer cs
  rw [filled, List.length_append, List.length_drop, ← Utf8.size]
  omega

/-- Behind what is written the buffer holds what it held before. -/
theorem getElem?_buffer_filled (buffer : List UInt8) (cs : List Char) {i : Nat}
    (h : (filled buffer cs).length ≤ i) : (filled buffer cs).buffer[i]? = buffer[i]? := by
  have hlength : (Utf8.encode (Utf8.take (buffer.length - 1) cs)).length =
      (filled buffer cs).length := rfl
  rw [filled, List.getElem?_append_right h, List.getElem?_drop, hlength]
  exact congrArg (buffer[·]?) (Nat.add_sub_cancel' h)

/-! ## One piece and many -/

/-- Bytes that are put behind others stand in front of what is left of the buffer. -/
theorem overwrite_append (front back bytes : List UInt8) :
    overwrite (front ++ back) front.length bytes = front ++ bytes ++ back.drop bytes.length := by
  rw [overwrite, List.take_left, ← List.drop_drop, List.drop_left]

/-- Writing a piece behind a text is writing the longer text. -/
theorem write_filled (buffer : List UInt8) (cs : List Char) (s : String) :
    (filled buffer cs).write s =
      (decide (Utf8.size (cs ++ s.toList) ≤ buffer.length - 1),
        filled buffer (cs ++ s.toList)) := by
  have hsize := Utf8.size_append cs s.toList
  by_cases hcs : Utf8.size cs ≤ buffer.length - 1
  · have hlength : (filled buffer cs).length = Utf8.size cs := by rw [filled_of_le hcs]
    have hcapacity : (filled buffer cs).capacity = buffer.length - 1 := by
      rw [capacity, length_buffer_filled]
    have htruncated : ¬(filled buffer cs).truncated = true :=
      Bool.eq_false_iff.1 (decide_eq_false (Nat.not_lt.2 hcs))
    have hbuffer : ∀ part, overwrite (filled buffer cs).buffer (Utf8.size cs) (Utf8.encode part) =
        Utf8.encode (cs ++ part) ++ buffer.drop (Utf8.size (cs ++ part)) := by
      intro part
      rw [filled_of_le hcs, Utf8.size_append, ← List.drop_drop, Utf8.encode_append]
      exact overwrite_append (Utf8.encode cs) _ (Utf8.encode part)
    have hend : ∀ part, Utf8.size cs + (Utf8.encode part).length = Utf8.size (cs ++ part) :=
      fun part => (Utf8.size_append cs part).symm
    -- the piece is cut to the room that the text has left
    have hpart := Utf8.take_append_of_le hcs s.toList
    have hwhole : (Utf8.take (buffer.length - 1 - Utf8.size cs) s.toList).length =
        s.toList.length ↔ Utf8.size (cs ++ s.toList) ≤ buffer.length - 1 := by
      rw [Utf8.length_take_eq_iff]
      omega
    rw [write, if_neg htruncated, hcapacity]
    simp only [hlength, hwhole, hbuffer, hend, ← hpart, ← decide_not, Nat.not_le]
    rfl
  · -- the text was cut before, so the piece is refused
    have hlt : buffer.length - 1 < Utf8.size cs := Nat.not_le.1 hcs
    have htruncated : (filled buffer cs).truncated = true := decide_eq_true hlt
    rw [write, if_pos htruncated, filled_append_of_lt hlt, decide_eq_false (by omega)]

/-- Writing pieces behind a text is writing the longer text, however it is divided. -/
theorem writeAll_filled (buffer : List UInt8) (cs : List Char) (pieces : List String) :
    (filled buffer cs).writeAll pieces = filled buffer (cs ++ (String.join pieces).toList) := by
  rw [String.toList_join]
  induction pieces generalizing cs with
  | nil => rw [writeAll, List.flatMap_nil, List.append_nil]
  | cons s pieces ih =>
    rw [writeAll, write_filled, List.flatMap_cons, ← List.append_assoc]
    by_cases h : Utf8.size (cs ++ s.toList) ≤ buffer.length - 1
    · simp only [decide_eq_true h, ih]
    · -- no later piece is looked at
      simp only [decide_eq_false h, filled_append_of_lt (Nat.not_le.1 h)]

/-- **How a text is divided into pieces does not matter.** -/
theorem writeAll_new (buffer : List UInt8) (pieces : List String) :
    (new buffer).writeAll pieces = filled buffer (String.join pieces).toList := by
  rw [← filled_nil, writeAll_filled, List.nil_append]

/-! ## What the buffer holds -/

/-- A buffer holds the longest beginning of a text that leaves room for a zero byte, which takes
`n` bytes, behind it this zero byte, and behind that what it held before. -/
structure HoldsCut (buffer : List UInt8) (text : String) (n : Nat) (buffer' : List UInt8) :
    Prop where
  beginning : ∃ part, Utf8.IsCut (buffer.length - 1) text.toList part ∧ n = Utf8.size part ∧
    buffer'.take n = Utf8.encode part
  length : buffer'.length = buffer.length
  zero : 0 < buffer.length → buffer'[n]? = some 0
  behind : ∀ i, n < i → buffer'[i]? = buffer[i]?

/-- What is written and ended is the longest beginning that leaves room. -/
theorem holdsCut_finish (buffer : List UInt8) (text : String) :
    HoldsCut buffer text (filled buffer text.toList).finish.1
      (filled buffer text.toList).finish.2 := by
  have hle := length_filled_le buffer text.toList
  have hlength := length_buffer_filled buffer text.toList
  refine ⟨⟨_, Utf8.isCut_take (buffer.length - 1) text.toList, rfl, ?_⟩, ?_, ?_, ?_⟩
  · rw [finish, List.take_set_of_le (Nat.le_refl _), take_buffer_filled]
  · rw [finish, List.length_set, hlength]
  · intro hpos
    rw [finish, List.getElem?_set_self (by omega)]
  · intro i hi
    rw [finish] at hi ⊢
    rw [List.getElem?_set_ne (Nat.ne_of_lt hi), getElem?_buffer_filled _ _ (Nat.le_of_lt hi)]

end BoundedText

namespace Registry

/-! ## Dumps -/

/-- The whole dump of a variable from a channel on. -/
def dumpFrom (r : Registry) (h : Handle) (channel : UInt16) : String :=
  String.join (r.dumpPieces h channel)

/-- **A dump in a buffer is the longest beginning of the whole dump that fits.** Whatever the state,
the handle, the channel and the buffer, the buffer holds as many whole characters of the dump as
leave room for a zero byte, this zero byte, and behind it what it held before; the number of bytes
before the zero byte is returned, and the registry stays as it is. The same comes about if the dump
is divided into other pieces, and from the first channel on it is the dump of the variable. -/
theorem dump_is_longest_beginning (r : Registry) (h : Handle) (channel : UInt16)
    (buffer : List UInt8) :
    ∃ n buffer', r.step (.dump h buffer channel) = (.dump n buffer', r) ∧
      BoundedText.HoldsCut buffer (r.dumpFrom h channel) n buffer' ∧
      (∀ pieces, String.join pieces = r.dumpFrom h channel →
        ((BoundedText.new buffer).writeAll pieces).finish = (n, buffer')) ∧
      (channel = 0 → r.dumpFrom h channel = r.dump h) := by
  have hfilled : ∀ pieces, String.join pieces = r.dumpFrom h channel →
      ((BoundedText.new buffer).writeAll pieces).finish =
        (BoundedText.filled buffer (r.dumpFrom h channel).toList).finish := by
    intro pieces hpieces
    rw [BoundedText.writeAll_new, hpieces]
  refine ⟨_, _, ?_, BoundedText.holdsCut_finish buffer _, hfilled, ?_⟩
  · rw [step, dumpInto, hfilled _ rfl]
  · rintro rfl
    rfl

end Registry

end VariableRegistry
