/-
# UTF-8

A character takes one to four bytes. `encode` writes text as bytes, `decode` reads bytes as
characters and faults, a fault being a longest run of bytes that could have begun a character and
did not finish it. Text is cut to a number of bytes at the last whole character.
-/

namespace VariableRegistry.Utf8

/-! ## Encoding -/

/-- The bytes of a character. -/
def encodeChar (c : Char) : List UInt8 :=
  let n := c.toNat
  if n < 0x80 then [UInt8.ofNat n]
  else if n < 0x800 then [UInt8.ofNat (0xC0 + n / 0x40), UInt8.ofNat (0x80 + n % 0x40)]
  else if n < 0x10000 then
    [UInt8.ofNat (0xE0 + n / 0x1000), UInt8.ofNat (0x80 + n / 0x40 % 0x40),
      UInt8.ofNat (0x80 + n % 0x40)]
  else
    [UInt8.ofNat (0xF0 + n / 0x40000), UInt8.ofNat (0x80 + n / 0x1000 % 0x40),
      UInt8.ofNat (0x80 + n / 0x40 % 0x40), UInt8.ofNat (0x80 + n % 0x40)]

/-- The bytes of a text. -/
def encode (cs : List Char) : List UInt8 := cs.flatMap encodeChar

/-- The number of bytes of a text. -/
def size (cs : List Char) : Nat := (encode cs).length

/-! ## Decoding -/

/-- What a leading byte announces: the bits that it contributes itself, how many bytes follow, and
between which values the first of them has to lie. -/
structure Lead where
  payload : Nat
  following : Nat
  low : Nat
  high : Nat

/-- Reads a leading byte. The narrower bounds keep out long forms, surrogates and numbers past the
last character. -/
def lead? (b : Nat) : Option Lead :=
  if b < 0x80 then some ⟨b, 0, 0x80, 0xBF⟩
  else if b < 0xC2 then none
  else if b < 0xE0 then some ⟨b - 0xC0, 1, 0x80, 0xBF⟩
  else if b < 0xF0 then
    some ⟨b - 0xE0, 2, if b = 0xE0 then 0xA0 else 0x80, if b = 0xED then 0x9F else 0xBF⟩
  else if b < 0xF5 then
    some ⟨b - 0xF0, 3, if b = 0xF0 then 0x90 else 0x80, if b = 0xF4 then 0x8F else 0xBF⟩
  else none

/-- Reads the bytes that follow a leading byte; `none` if one of them is missing or out of
bounds. The bytes that were not used are returned. -/
def follow : Nat → Nat → Nat → Nat → List UInt8 → Option Char × List UInt8
  | 0, n, _, _, bytes => (some (Char.ofNat n), bytes)
  | _ + 1, _, _, _, [] => (none, [])
  | k + 1, n, low, high, b :: bytes =>
    if low ≤ b.toNat ∧ b.toNat ≤ high then follow k (n * 0x40 + (b.toNat - 0x80)) 0x80 0xBF bytes
    else (none, b :: bytes)

/-- Reads one character or one fault off the front of some bytes. -/
def step (b : UInt8) (bytes : List UInt8) : Option Char × List UInt8 :=
  match lead? b.toNat with
  | none => (none, bytes)
  | some l => follow l.following l.payload l.low l.high bytes

theorem length_follow_le (k n low high : Nat) (bytes : List UInt8) :
    (follow k n low high bytes).2.length ≤ bytes.length := by
  induction k generalizing n low high bytes with
  | zero => simp [follow]
  | succ k ih =>
    cases bytes with
    | nil => simp [follow]
    | cons b bytes =>
      rw [follow]
      split
      · exact Nat.le_succ_of_le (ih ..)
      · simp

theorem length_step_le (b : UInt8) (bytes : List UInt8) :
    (step b bytes).2.length ≤ bytes.length := by
  rw [step]
  split
  · simp
  · exact length_follow_le ..

/-- Reads bytes as characters and faults, putting them in front of what was read before, last one
first. -/
def decodeOnto (read : List (Option Char)) (bytes : List UInt8) : List (Option Char) :=
  match bytes with
  | [] => read.reverse
  | b :: bytes => decodeOnto ((step b bytes).1 :: read) (step b bytes).2
termination_by bytes.length
decreasing_by exact Nat.lt_succ_of_le (length_step_le b bytes)

/-- Reads bytes as characters and faults. -/
def decode (bytes : List UInt8) : List (Option Char) := decodeOnto [] bytes

theorem decodeOnto_eq (read : List (Option Char)) (bytes : List UInt8) :
    decodeOnto read bytes = read.reverse ++ decode bytes := by
  induction h : bytes.length using Nat.strongRecOn generalizing read bytes with
  | _ n ih =>
    cases bytes with
    | nil => simp [decode, decodeOnto]
    | cons b bytes =>
      have hlt : (step b bytes).2.length < n := by
        have := length_step_le b bytes
        simp only [List.length_cons] at h
        omega
      rw [decode, decodeOnto, decodeOnto, ih _ hlt _ _ rfl, ih _ hlt [_] _ rfl]
      simp

@[simp] theorem decode_nil : decode [] = [] := by rw [decode, decodeOnto]; rfl

theorem decode_cons (b : UInt8) (bytes : List UInt8) :
    decode (b :: bytes) = (step b bytes).1 :: decode (step b bytes).2 := by
  rw [decode, decodeOnto, decodeOnto_eq]
  rfl

/-- The mark that stands for a fault. -/
def replacement : Char := '\uFFFD'

/-- The text of some bytes, a replacement mark standing for every fault. -/
def decodeLossy (bytes : List UInt8) : List Char := (decode bytes).map (·.getD replacement)

/-- The text of some bytes, if they have no fault. -/
def decode? (bytes : List UInt8) : Option (List Char) := (decode bytes).mapM id

/-! ## Cutting -/

/-- The longest beginning of a text that takes at most `max` bytes. -/
def take : Nat → List Char → List Char
  | _, [] => []
  | max, c :: cs =>
    if (encodeChar c).length ≤ max then c :: take (max - (encodeChar c).length) cs else []

end VariableRegistry.Utf8
