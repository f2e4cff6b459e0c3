/-
# Powers

A power with a whole exponent means the same in every module of this library, whatever is imported
beside it: the power of the core library.
-/

namespace VariableRegistry

/-- Powers with whole exponents are those of the core library. -/
instance (priority := 2000) natPow {α : Type} [NatPow α] : Pow α Nat := instPowNat

end VariableRegistry
