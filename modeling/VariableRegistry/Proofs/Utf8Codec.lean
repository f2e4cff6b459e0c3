/-
# Writing and reading UTF-8

Reading the bytes of a text gives the text back, and bytes that are read without a fault are the
bytes of what was read. So a sequence of bytes has no fault exactly if it is the writing of a text.
What is left of a text that is cut is the longest beginning that fits.
-/
import Mathlib.Tactic.SplitIfs
import VariableRegistry.Text.Utf8

namespace VariableRegistry.Utf8

/-! ## Single bytes -/

theorem toNat_ofNat_of_lt {n : Nat} (h : n < 0x100) : (UInt8.ofNat n).toNat = n := by
  rw [UInt8.toNat_ofNat']
  exact Nat.mod_eq_of_lt h

theorem ofNat_eq_of_toNat {b : UInt8} {n : Nat} (h : b.toNat = n) : UInt8.ofNat n = b := by
  rw [← h, UInt8.ofNat_toNat]

/-- The numbers of characters: no surrogates, and none past the last. -/
theorem isValidChar_toNat (c : Char) :
    c.toNat < 0xD800 ∨ 0xDFFF < c.toNat ∧ c.toNat < 0x110000 := c.valid

theorem toNat_ofNat_char {n : Nat} (h : n < 0xD800 ∨ 0xDFFF < n ∧ n < 0x110000) :
    (Char.ofNat n).toNat = n := by
  have hv : n.isValidChar := h
  rw [Char.ofNat, dif_pos hv]
  rfl

/-! ## Reading one character -/

/-- A byte that follows contributes its six lower bits. -/
theorem follow_cons {k n low high m : Nat} (bytes : List UInt8) (hm : m < 0x40)
    (hlow : low ≤ 0x80 + m) (hhigh : 0x80 + m ≤ high) :
    follow (k + 1) n low high (UInt8.ofNat (0x80 + m) :: bytes) =
      follow k (n * 0x40 + m) 0x80 0xBF bytes := by
  have hb : (UInt8.ofNat (0x80 + m)).toNat = 0x80 + m := toNat_ofNat_of_lt (by omega)
  rw [follow, hb, if_pos ⟨hlow, hhigh⟩, Nat.add_sub_cancel_left]

/-- Reading the bytes of a character gives the character and what stands behind it. -/
theorem step_encodeChar (c : Char) (rest : List UInt8) :
    ∃ b bytes, encodeChar c ++ rest = b :: bytes ∧ step b bytes = (some c, rest) := by
  have hv := isValidChar_toNat c
  unfold encodeChar
  generalize hn : c.toNat = n at hv ⊢
  have hc : Char.ofNat n = c := by rw [← hn, Char.ofNat_toNat]
  simp only
  -- one, two, three or four bytes
  split_ifs with h1 h2 h3
  · refine ⟨_, _, rfl, ?_⟩
    rw [step, toNat_ofNat_of_lt (by omega), lead?, if_pos h1]
    simp only [follow, hc]
    rfl
  · refine ⟨_, _, List.cons_append, ?_⟩
    rw [step, toNat_ofNat_of_lt (by omega), lead?, if_neg (by omega), if_neg (by omega),
      if_pos (by omega)]
    simp only [List.cons_append, List.nil_append]
    rw [follow_cons _ (by omega) (by omega) (by omega), follow]
    rw [show (0xC0 + n / 0x40 - 0xC0) * 0x40 + n % 0x40 = n by omega, hc]
  · refine ⟨_, _, List.cons_append, ?_⟩
    rw [step, toNat_ofNat_of_lt (by omega), lead?, if_neg (by omega), if_neg (by omega),
      if_neg (by omega), if_pos (by omega)]
    simp only [List.cons_append, List.nil_append]
    rw [follow_cons _ (by omega) (by split_ifs <;> omega) (by split_ifs <;> omega),
      follow_cons _ (by omega) (by omega) (by omega), follow]
    rw [show ((0xE0 + n / 0x1000 - 0xE0) * 0x40 + n / 0x40 % 0x40) * 0x40 + n % 0x40 = n by omega,
      hc]
  · refine ⟨_, _, List.cons_append, ?_⟩
    rw [step, toNat_ofNat_of_lt (by omega), lead?, if_neg (by omega), if_neg (by omega),
      if_neg (by omega), if_neg (by omega), if_pos (by omega)]
    simp only [List.cons_append, List.nil_append]
    rw [follow_cons _ (by omega) (by split_ifs <;> omega) (by split_ifs <;> omega),
      follow_cons _ (by omega) (by omega) (by omega),
      follow_cons _ (by omega) (by omega) (by omega), follow]
    rw [show (((0xF0 + n / 0x40000 - 0xF0) * 0x40 + n / 0x1000 % 0x40) * 0x40 +
      n / 0x40 % 0x40) * 0x40 + n % 0x40 = n by omega, hc]

/-- What follows a leading byte, if it is without fault, are the bits of the number, six a byte. -/
theorem follow_eq_some {k n low high : Nat} {bytes rest : List UInt8} {c : Char}
    (h : follow (k + 1) n low high bytes = (some c, rest)) :
    ∃ b bytes', bytes = b :: bytes' ∧ low ≤ b.toNat ∧ b.toNat ≤ high ∧
      follow k (n * 0x40 + (b.toNat - 0x80)) 0x80 0xBF bytes' = (some c, rest) := by
  cases bytes with
  | nil =>
    rw [follow] at h
    cases h
  | cons b bytes' =>
    rw [follow] at h
    split_ifs at h with hb
    · exact ⟨b, bytes', rfl, hb.1, hb.2, h⟩
    · cases h

/-- The four kinds of leading bytes. -/
theorem lead?_cases {b : Nat} {l : Lead} (h : lead? b = some l) :
    (b < 0x80 ∧ l.following = 0 ∧ l.payload = b) ∨
    (0xC2 ≤ b ∧ b < 0xE0 ∧ l.following = 1 ∧ l.payload = b - 0xC0 ∧
      l.low = 0x80 ∧ l.high = 0xBF) ∨
    (0xE0 ≤ b ∧ b < 0xF0 ∧ l.following = 2 ∧ l.payload = b - 0xE0 ∧
      0x80 ≤ l.low ∧ (b = 0xE0 → 0xA0 ≤ l.low) ∧ l.high ≤ 0xBF ∧ (b = 0xED → l.high ≤ 0x9F)) ∨
    (0xF0 ≤ b ∧ b < 0xF5 ∧ l.following = 3 ∧ l.payload = b - 0xF0 ∧
      0x80 ≤ l.low ∧ (b = 0xF0 → 0x90 ≤ l.low) ∧ l.high ≤ 0xBF ∧ (b = 0xF4 → l.high ≤ 0x8F)) := by
  unfold lead? at h
  by_cases h1 : b < 0x80
  · rw [if_pos h1, Option.some.injEq] at h
    subst h
    exact Or.inl ⟨h1, rfl, rfl⟩
  rw [if_neg h1] at h
  by_cases h2 : b < 0xC2
  · rw [if_pos h2] at h
    cases h
  rw [if_neg h2] at h
  by_cases h3 : b < 0xE0
  · rw [if_pos h3, Option.some.injEq] at h
    subst h
    exact Or.inr (Or.inl ⟨by omega, h3, rfl, rfl, rfl, rfl⟩)
  rw [if_neg h3] at h
  by_cases h4 : b < 0xF0
  · rw [if_pos h4, Option.some.injEq] at h
    subst h
    refine Or.inr (Or.inr (Or.inl ⟨by omega, h4, rfl, rfl, ?_, ?_, ?_, ?_⟩)) <;>
      simp only <;> split_ifs <;> omega
  rw [if_neg h4] at h
  by_cases h5 : b < 0xF5
  · rw [if_pos h5, Option.some.injEq] at h
    subst h
    refine Or.inr (Or.inr (Or.inr ⟨by omega, h5, rfl, rfl, ?_, ?_, ?_, ?_⟩)) <;>
      simp only <;> split_ifs <;> omega
  · rw [if_neg h5] at h
    cases h

/-- A character that was read without fault stands in the bytes as it is written. -/
theorem eq_encodeChar_of_step {b : UInt8} {bytes rest : List UInt8} {c : Char}
    (h : step b bytes = (some c, rest)) : b :: bytes = encodeChar c ++ rest := by
  have hb := b.toNat_lt
  unfold step at h
  cases hl : lead? b.toNat with
  | none =>
    rw [hl] at h
    cases h
  | some l =>
    simp only [hl] at h
    rcases lead?_cases hl with ⟨h1, hf, hp⟩ | ⟨h1, h2, hf, hp, hlow, hhigh⟩ |
      ⟨h1, h2, hf, hp, hlow, hlow', hhigh, hhigh'⟩ | ⟨h1, h2, hf, hp, hlow, hlow', hhigh, hhigh'⟩
    all_goals rw [hf, hp] at h
    -- the number of the character determines each of its bytes
    · simp only [follow, Prod.mk.injEq, Option.some.injEq] at h
      obtain ⟨rfl, rfl⟩ := h
      rw [encodeChar, toNat_ofNat_char (by omega), if_pos (by omega), UInt8.ofNat_toNat]
      rfl
    · obtain ⟨b1, bytes1, rfl, hl1, hh1, h⟩ := follow_eq_some h
      simp only [follow, Prod.mk.injEq, Option.some.injEq] at h
      obtain ⟨rfl, rfl⟩ := h
      rw [encodeChar, toNat_ofNat_char (by omega), if_neg (by omega), if_pos (by omega),
        ofNat_eq_of_toNat (b := b) (by omega), ofNat_eq_of_toNat (b := b1) (by omega)]
      rfl
    · obtain ⟨b1, bytes1, rfl, hl1, hh1, h⟩ := follow_eq_some h
      obtain ⟨b2, bytes2, rfl, hl2, hh2, h⟩ := follow_eq_some h
      simp only [follow, Prod.mk.injEq, Option.some.injEq] at h
      obtain ⟨rfl, rfl⟩ := h
      rw [encodeChar, toNat_ofNat_char (by omega), if_neg (by omega), if_neg (by omega),
        if_pos (by omega), ofNat_eq_of_toNat (b := b) (by omega),
        ofNat_eq_of_toNat (b := b1) (by omega), ofNat_eq_of_toNat (b := b2) (by omega)]
      rfl
    · obtain ⟨b1, bytes1, rfl, hl1, hh1, h⟩ := follow_eq_some h
      obtain ⟨b2, bytes2, rfl, hl2, hh2, h⟩ := follow_eq_some h
      obtain ⟨b3, bytes3, rfl, hl3, hh3, h⟩ := follow_eq_some h
      simp only [follow, Prod.mk.injEq, Option.some.injEq] at h
      obtain ⟨rfl, rfl⟩ := h
      rw [encodeChar, toNat_ofNat_char (by omega), if_neg (by omega), if_neg (by omega),
        if_neg (by omega), ofNat_eq_of_toNat (b := b) (by omega),
        ofNat_eq_of_toNat (b := b1) (by omega), ofNat_eq_of_toNat (b := b2) (by omega),
        ofNat_eq_of_toNat (b := b3) (by omega)]
      rfl

/-! ## Reading texts -/

theorem decode_encodeChar_append (c : Char) (rest : List UInt8) :
    decode (encodeChar c ++ rest) = some c :: decode rest := by
  obtain ⟨b, bytes, hbytes, hstep⟩ := step_encodeChar c rest
  rw [hbytes, decode_cons, hstep]

/-- Reading a written text and what stands behind it gives the characters of the text first. -/
theorem decode_encode_append (cs : List Char) (rest : List UInt8) :
    decode (encode cs ++ rest) = cs.map some ++ decode rest := by
  induction cs with
  | nil => rfl
  | cons c cs ih =>
    rw [encode, List.flatMap_cons, List.append_assoc, decode_encodeChar_append, ← encode, ih]
    rfl

theorem decode_encode (cs : List Char) : decode (encode cs) = cs.map some := by
  have h := decode_encode_append cs []
  rwa [List.append_nil, decode_nil, List.append_nil] at h

theorem eq_encode_of_decode {bytes : List UInt8} {cs : List Char}
    (h : decode bytes = cs.map some) : bytes = encode cs := by
  induction cs generalizing bytes with
  | nil =>
    -- any byte would be read as a character or a fault
    cases bytes with
    | nil => rfl
    | cons b bytes =>
      rw [decode_cons] at h
      cases h
  | cons c cs ih =>
    cases bytes with
    | nil =>
      rw [decode_nil] at h
      cases h
    | cons b bytes =>
      rw [decode_cons, List.map_cons, List.cons.injEq] at h
      have hstep : step b bytes = (some c, (step b bytes).2) := Prod.ext h.1 rfl
      rw [eq_encodeChar_of_step hstep, encode, List.flatMap_cons, ← encode, ih h.2]

theorem mapM_id_eq_some {α : Type} {xs : List (Option α)} {ys : List α} :
    xs.mapM id = some ys ↔ xs = ys.map some := by
  induction xs generalizing ys with
  | nil => cases ys <;> simp
  | cons x xs ih =>
    cases x with
    | none => cases ys <;> simp
    | some x =>
      cases ys with
      | nil => simp [Option.bind_eq_some_iff]
      | cons y ys =>
        simp only [List.mapM_cons, id, Option.bind_eq_bind, Option.bind_some,
          Option.bind_eq_some_iff, ih, Option.pure_def, Option.some.injEq, List.map_cons,
          List.cons.injEq]
        constructor
        · rintro ⟨a, ha, rfl, rfl⟩
          exact ⟨rfl, ha⟩
        · rintro ⟨rfl, hys⟩
          exact ⟨ys, hys, rfl, rfl⟩

/-- **Bytes without a fault are the writing of a text.** -/
theorem decode?_eq_some_iff {bytes : List UInt8} {cs : List Char} :
    decode? bytes = some cs ↔ bytes = encode cs := by
  rw [decode?, mapM_id_eq_some]
  constructor
  · exact eq_encode_of_decode
  · rintro rfl
    exact decode_encode cs

/-! ## Cutting texts -/

/-- The longest beginning of a text that takes at most a number of bytes. -/
structure IsCut (max : Nat) (cs part : List Char) : Prop where
  begins : part <+: cs
  fits : size part ≤ max
  longest : ∀ other, other <+: cs → size other ≤ max → other <+: part

theorem size_cons (c : Char) (cs : List Char) :
    size (c :: cs) = (encodeChar c).length + size cs := by
  rw [size, encode, List.flatMap_cons, List.length_append]
  rfl

theorem encode_append (cs ds : List Char) : encode (cs ++ ds) = encode cs ++ encode ds :=
  List.flatMap_append

theorem size_append (cs ds : List Char) : size (cs ++ ds) = size cs + size ds := by
  rw [size, encode_append, List.length_append]
  rfl

theorem isCut_take (max : Nat) (cs : List Char) : IsCut max cs (take max cs) := by
  induction cs generalizing max with
  | nil =>
    refine ⟨List.prefix_refl [], Nat.zero_le max, ?_⟩
    intro other hother _
    exact hother
  | cons c cs ih =>
    rw [take]
    by_cases hc : (encodeChar c).length ≤ max
    · rw [if_pos hc]
      obtain ⟨hbegins, hfits, hlongest⟩ := ih (max - (encodeChar c).length)
      refine ⟨(List.prefix_cons_inj c).2 hbegins, by rw [size_cons]; omega, ?_⟩
      intro other hother hsize
      cases other with
      | nil => exact List.nil_prefix
      | cons c' other =>
        obtain ⟨rfl, hrest⟩ := List.cons_prefix_cons.1 hother
        rw [size_cons] at hsize
        exact (List.prefix_cons_inj c').2 (hlongest other hrest (by omega))
    · rw [if_neg hc]
      refine ⟨List.nil_prefix, Nat.zero_le max, ?_⟩
      intro other hother hsize
      cases other with
      | nil => exact List.nil_prefix
      | cons c' other =>
        -- the first character alone does not fit
        obtain ⟨rfl, -⟩ := List.cons_prefix_cons.1 hother
        rw [size_cons] at hsize
        omega

/-- A text that fits is left whole, and what stands behind it is cut to the room that is left. -/
theorem take_append_of_le {max : Nat} {cs : List Char} (h : size cs ≤ max) (ds : List Char) :
    take max (cs ++ ds) = cs ++ take (max - size cs) ds := by
  induction cs generalizing max with
  | nil => rfl
  | cons c cs ih =>
    rw [size_cons] at h
    rw [List.cons_append, take, if_pos (by omega), ih (by omega), size_cons, List.cons_append,
      Nat.sub_sub]

theorem take_of_size_le {max : Nat} {cs : List Char} (h : size cs ≤ max) : take max cs = cs := by
  have hcut := take_append_of_le h []
  rwa [List.append_nil, take, List.append_nil] at hcut

/-- What stands behind a text that does not fit makes no difference. -/
theorem take_append_of_lt {max : Nat} {cs : List Char} (h : max < size cs) (ds : List Char) :
    take max (cs ++ ds) = take max cs := by
  induction cs generalizing max with
  | nil => exact absurd h (Nat.not_lt_zero max)
  | cons c cs ih =>
    rw [size_cons] at h
    rw [List.cons_append, take, take]
    by_cases hc : (encodeChar c).length ≤ max
    · rw [if_pos hc, if_pos hc, ih (by omega)]
    · rw [if_neg hc, if_neg hc]

/-- What is left of a text is as long as the text only if the text fits. -/
theorem length_take_eq_iff {max : Nat} {cs : List Char} :
    (take max cs).length = cs.length ↔ size cs ≤ max := by
  constructor
  · intro h
    obtain ⟨hbegins, hfits, -⟩ := isCut_take max cs
    rwa [hbegins.eq_of_length h] at hfits
  · intro h
    rw [take_of_size_le h]

end VariableRegistry.Utf8
