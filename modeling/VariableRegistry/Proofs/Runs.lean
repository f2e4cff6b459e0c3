/-
# Runs of characters

A reader that takes a run of characters off the front of a text takes the same run whatever follows,
as long as what follows does not go on with such a character.
-/
import Mathlib.Data.List.TakeWhile

namespace VariableRegistry

variable {p q : Char → Bool} {c s : Char} {cs rest : List Char}

/-- Characters of different kinds differ. -/
theorem ne_of_kind (hc : p c = true) (hs : p s = false) : c ≠ s := by
  rintro rfl
  exact absurd hc (Bool.eq_false_iff.1 hs)

/-- A run of characters of a kind is not a text with a character of another kind. -/
theorem ne_of_mem_kind {word : List Char} (hcs : ∀ c ∈ cs, p c = true) (hs : s ∈ word)
    (hkind : p s = false) : cs ≠ word := by
  rintro rfl
  exact ne_of_kind (hcs s hs) hkind rfl

/-- A text does not begin with a character of some kind. -/
def Stops (p : Char → Bool) (cs : List Char) : Prop := ∀ c ∈ cs.head?, p c = false

theorem stops_nil (p : Char → Bool) : Stops p [] := by simp [Stops]

theorem stops_cons : Stops p (c :: cs) ↔ p c = false := by simp [Stops]

/-- Fewer characters stop more. -/
theorem Stops.mono (h : Stops q cs) (hpq : ∀ c, p c = true → q c = true) : Stops p cs := by
  intro c hc
  rw [Bool.eq_false_iff]
  intro hp
  exact absurd (h c hc) (by simp [hpq c hp])

theorem takeWhile_of_stops (h : Stops p cs) : cs.takeWhile p = [] := by
  cases cs with
  | nil => rfl
  | cons c cs => rw [List.takeWhile_cons, stops_cons.1 h]; rfl

theorem dropWhile_of_stops (h : Stops p cs) : cs.dropWhile p = cs := by
  cases cs with
  | nil => rfl
  | cons c cs => rw [List.dropWhile_cons, stops_cons.1 h]; rfl

/-- A run is taken off to its end. -/
theorem stops_dropWhile (p : Char → Bool) (cs : List Char) : Stops p (cs.dropWhile p) := by
  induction cs with
  | nil => exact stops_nil p
  | cons c cs ih =>
    rw [List.dropWhile_cons]
    by_cases hc : p c = true
    · rwa [if_pos hc]
    · rwa [if_neg hc, stops_cons, Bool.eq_false_iff]

/-- What follows a run does not lengthen it. -/
theorem takeWhile_append_of_stops (h : Stops p rest) (cs : List Char) :
    (cs ++ rest).takeWhile p = cs.takeWhile p := by
  induction cs with
  | nil => exact takeWhile_of_stops h
  | cons c cs ih => rw [List.cons_append, List.takeWhile_cons, List.takeWhile_cons, ih]

theorem dropWhile_append_of_stops (h : Stops p rest) (cs : List Char) :
    (cs ++ rest).dropWhile p = cs.dropWhile p ++ rest := by
  induction cs with
  | nil => exact dropWhile_of_stops h
  | cons c cs ih =>
    rw [List.cons_append, List.dropWhile_cons, List.dropWhile_cons, ih]
    by_cases hc : p c = true
    · rw [if_pos hc, if_pos hc]
    · rw [if_neg hc, if_neg hc, List.cons_append]

/-- A run of nothing but characters of a kind is taken whole. -/
theorem takeWhile_run (hcs : ∀ c ∈ cs, p c = true) (h : Stops p rest) :
    (cs ++ rest).takeWhile p = cs := by
  rw [takeWhile_append_of_stops h, List.takeWhile_eq_self_iff.2 hcs]

theorem dropWhile_run (hcs : ∀ c ∈ cs, p c = true) (h : Stops p rest) :
    (cs ++ rest).dropWhile p = rest := by
  rw [dropWhile_append_of_stops h, List.dropWhile_eq_nil_iff.2 hcs, List.nil_append]

end VariableRegistry
