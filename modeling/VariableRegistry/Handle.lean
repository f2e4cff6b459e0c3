/-
# Handles

A variable is addressed by its position in the declaration order. The last sixteen-bit word is kept
free to say that there is no variable, and in tables also that there is no text.
-/

namespace VariableRegistry

/-- The position of a variable, or the word that stands for none. -/
structure Handle where
  word : UInt16
deriving DecidableEq, Repr

namespace Handle

/-- The word that stands for no variable. -/
def none : Handle := ⟨0xFFFF⟩

/-- The position of the variable. -/
def index (h : Handle) : Nat := h.word.toNat

/-- Whether the handle stands for no variable. -/
def isNone (h : Handle) : Bool := h = none

/-- The handle in words. -/
def text (h : Handle) : String := if h.isNone then "HNON" else toString h.index

end Handle

end VariableRegistry
