/-
# Boundaries between characters

A text is cut to a number of bytes without its characters being read: positions are tried from this
number on backwards, until one is a boundary. Only the first byte of a character does not look like
one that continues it, so the boundaries are the ends of the beginnings of the text, and the search
ends at the longest beginning that fits.
-/
import VariableRegistry.Proofs.Utf8Codec

namespace VariableRegistry.Utf8

variable {bytes : List UInt8} {cs : List Char}

/-! ## Searching a boundary -/

/-- Whether a byte stands inside a character, behind its first byte. -/
def continues (b : UInt8) : Bool := decide (0x80 ≤ b.toNat ∧ b.toNat < 0xC0)

/-- Whether a position is a boundary: the beginning of the bytes, their end, or the position of a
byte that does not continue a character. -/
def isBoundary (bytes : List UInt8) (i : Nat) : Bool :=
  i = 0 ||
    match bytes[i]? with
    | some b => !continues b
    | none => i = bytes.length

/-- The last boundary up to a position, which is searched backwards; `none` if the search passes
the beginning. -/
def lastBoundary? (bytes : List UInt8) (i : Nat) : Option Nat :=
  if isBoundary bytes i then some i
  else
    match i with
    | 0 => none
    | i + 1 => lastBoundary? bytes i

/-- The bytes of a text up to the last boundary that leaves at most `max` of them. -/
def cutBytes? (max : Nat) (bytes : List UInt8) : Option (List UInt8) :=
  if bytes.length ≤ max then some bytes else (lastBoundary? bytes max).map bytes.take

/-- The search finds a boundary that has no other one between it and the position. -/
theorem lastBoundary?_eq_some {i j : Nat} (hji : j ≤ i) (hj : isBoundary bytes j = true)
    (hlast : ∀ k, j < k → k ≤ i → ¬isBoundary bytes k = true) :
    lastBoundary? bytes i = some j := by
  induction i with
  | zero =>
    obtain rfl : j = 0 := Nat.le_zero.1 hji
    rw [lastBoundary?, if_pos hj]
  | succ i ih =>
    rw [lastBoundary?]
    obtain rfl | hlt := Nat.eq_or_lt_of_le hji
    · rw [if_pos hj]
    · rw [if_neg (hlast (i + 1) hlt (Nat.le_refl _))]
      exact ih (Nat.le_of_lt_succ hlt) fun k hjk hki => hlast k hjk (Nat.le_succ_of_le hki)

/-! ## The bytes of a character -/

theorem continues_ofNat {n : Nat} (h : n < 0x100) :
    continues (UInt8.ofNat n) = decide (0x80 ≤ n ∧ n < 0xC0) := by
  rw [continues, toNat_ofNat_of_lt h]

/-- The first byte of a character does not continue one, and all others do. -/
theorem exists_encodeChar (c : Char) :
    ∃ b bytes, encodeChar c = b :: bytes ∧ continues b = false ∧
      ∀ b' ∈ bytes, continues b' = true := by
  have hv := isValidChar_toNat c
  have hfirst : ∀ m, m < 0x80 ∨ 0xC0 ≤ m ∧ m < 0x100 → continues (UInt8.ofNat m) = false := by
    intro m hm
    rw [continues_ofNat (by omega)]
    exact decide_eq_false (by omega)
  have hrest : ∀ m, continues (UInt8.ofNat (0x80 + m % 0x40)) = true := by
    intro m
    rw [continues_ofNat (by omega)]
    exact decide_eq_true (by omega)
  unfold encodeChar
  generalize c.toNat = n at hv ⊢
  simp only
  -- one, two, three or four bytes
  split_ifs with h1 h2 h3
  · refine ⟨_, _, rfl, hfirst n (.inl h1), ?_⟩
    exact List.forall_mem_nil _
  · refine ⟨_, _, rfl, hfirst _ (.inr (by omega)), ?_⟩
    simp only [List.forall_mem_cons, hrest, true_and]
    exact List.forall_mem_nil _
  · refine ⟨_, _, rfl, hfirst _ (.inr (by omega)), ?_⟩
    simp only [List.forall_mem_cons, hrest, true_and]
    exact List.forall_mem_nil _
  · refine ⟨_, _, rfl, hfirst _ (.inr (by omega)), ?_⟩
    simp only [List.forall_mem_cons, hrest, true_and]
    exact List.forall_mem_nil _

/-! ## The boundaries of a text -/

theorem isBoundary_zero (bytes : List UInt8) : isBoundary bytes 0 = true := by
  rw [isBoundary, decide_eq_true rfl, Bool.true_or]

/-- No position inside a character is a boundary. -/
theorem not_isBoundary_encodeChar_append {c : Char} {i : Nat} (rest : List UInt8) (hi : 0 < i)
    (h : i < (encodeChar c).length) : ¬isBoundary (encodeChar c ++ rest) i = true := by
  obtain ⟨b, bytes, hc, -, hbytes⟩ := exists_encodeChar c
  rw [hc] at h ⊢
  obtain ⟨j, rfl⟩ := Nat.exists_eq_add_one_of_ne_zero (Nat.ne_of_gt hi)
  have hj : j < bytes.length := Nat.lt_of_succ_lt_succ h
  have hget : (b :: bytes ++ rest)[j + 1]? = some bytes[j] := by
    rw [List.getElem?_append_left h, List.getElem?_cons_succ, List.getElem?_eq_getElem hj]
  rw [isBoundary, hget, decide_eq_false (Nat.succ_ne_zero j), Bool.false_or]
  simp only [hbytes _ (List.getElem_mem hj), Bool.not_true, Bool.false_eq_true, not_false_iff]

/-- Behind a character, the boundaries are those of the text that follows it. -/
theorem isBoundary_append_encode (hbytes : bytes ≠ []) (cs : List Char) (i : Nat) :
    isBoundary (bytes ++ encode cs) (bytes.length + i) = isBoundary (encode cs) i := by
  have hpos : bytes.length + i ≠ 0 := by
    have := List.length_pos_iff.2 hbytes
    omega
  rw [isBoundary, isBoundary, List.getElem?_append_right (Nat.le_add_right ..),
    Nat.add_sub_cancel_left, List.length_append, decide_eq_false hpos, Bool.false_or]
  cases i with
  | succ i => simp
  | zero =>
    cases cs with
    | nil => simp [encode]
    | cons c cs =>
      obtain ⟨b, rest, hc, hb, -⟩ := exists_encodeChar c
      simp [encode, hc, hb]

/-- **The boundaries of a text are where its beginnings end.** -/
theorem isBoundary_encode_iff {i : Nat} :
    isBoundary (encode cs) i = true ↔ ∃ part, part <+: cs ∧ size part = i := by
  induction cs generalizing i with
  | nil =>
    simp only [List.prefix_nil, exists_eq_left]
    cases i <;> simp [isBoundary, encode, size]
  | cons c cs ih =>
    obtain rfl | hi := Nat.eq_zero_or_pos i
    · exact iff_of_true (isBoundary_zero _) ⟨[], List.nil_prefix, rfl⟩
    have hencode : encode (c :: cs) = encodeChar c ++ encode cs := List.flatMap_cons
    rw [hencode]
    obtain hlt | hle := Nat.lt_or_ge i (encodeChar c).length
    · refine iff_of_false (not_isBoundary_encodeChar_append _ hi hlt) ?_
      rintro ⟨part, hpart, rfl⟩
      obtain rfl | ⟨part, rfl, -⟩ := List.prefix_cons_iff.1 hpart
      · exact absurd hi (Nat.lt_irrefl 0)
      · rw [size_cons] at hlt
        omega
    · obtain ⟨j, rfl⟩ := Nat.exists_eq_add_of_le hle
      have hne : encodeChar c ≠ [] := by
        obtain ⟨b, bytes, hc, -⟩ := exists_encodeChar c
        rw [hc]
        exact List.cons_ne_nil b bytes
      rw [isBoundary_append_encode hne, ih]
      constructor
      · rintro ⟨part, hpart, rfl⟩
        exact ⟨c :: part, (List.prefix_cons_inj c).2 hpart, size_cons c part⟩
      · rintro ⟨part, hpart, hsize⟩
        obtain rfl | ⟨part, rfl, htail⟩ := List.prefix_cons_iff.1 hpart
        · -- no beginning is empty behind a character
          exact absurd hsize (Nat.ne_of_lt hi)
        · rw [size_cons] at hsize
          exact ⟨part, htail, Nat.add_left_cancel hsize⟩

/-! ## Cutting at a boundary -/

/-- A beginning takes no more bytes than what it begins. -/
theorem size_le_of_prefix {part cs : List Char} (h : part <+: cs) : size part ≤ size cs := by
  obtain ⟨rest, rfl⟩ := h
  rw [size_append]
  exact Nat.le_add_right ..

/-- The bytes of a beginning are the first bytes of the text. -/
theorem take_encode_of_prefix {part cs : List Char} (h : part <+: cs) :
    (encode cs).take (size part) = encode part := by
  obtain ⟨rest, rfl⟩ := h
  rw [encode_append]
  exact List.take_left

/-- A text is left whole if and only if no bytes are cut off. -/
theorem length_take_eq_iff_not_lt (max : Nat) (cs : List Char) :
    (take max cs).length = cs.length ↔ ¬size (take max cs) < size cs := by
  rw [length_take_eq_iff]
  constructor
  · intro h
    rw [take_of_size_le h]
    exact Nat.lt_irrefl _
  · intro h
    exact Nat.le_trans (Nat.not_lt.1 h) (isCut_take max cs).fits

/-- **Searching a boundary backwards finds the longest beginning that fits**, and never passes the
beginning of the text. -/
theorem cutBytes?_encode (max : Nat) (cs : List Char) :
    cutBytes? max (encode cs) = some (encode (take max cs)) := by
  rw [cutBytes?]
  by_cases h : (encode cs).length ≤ max
  · rw [if_pos h, take_of_size_le h]
  · obtain ⟨hbegins, hfits, hlongest⟩ := isCut_take max cs
    have hlast : lastBoundary? (encode cs) max = some (size (take max cs)) := by
      refine lastBoundary?_eq_some hfits (isBoundary_encode_iff.2 ⟨_, hbegins, rfl⟩) ?_
      intro k hlt hle hk
      obtain ⟨other, hother, rfl⟩ := isBoundary_encode_iff.1 hk
      have := size_le_of_prefix (hlongest other hother hle)
      omega
    rw [if_neg h, hlast, Option.map_some, take_encode_of_prefix hbegins]

end VariableRegistry.Utf8
