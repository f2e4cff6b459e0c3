/-
# What the gate lets pass

The checks before an access, said without the words that they read: which rights suffice for a
request, and with which error a channel is refused.
-/
import VariableRegistry.Proofs.Addressing

namespace VariableRegistry

variable {r : Registry} {q : Request} {d : Descriptor} {channel : UInt16}

/-! ## Channels -/

/-- A channel that a variable does not have is named on a scalar or lies outside a vector. -/
theorem hasChannel_or (d : Descriptor) (channel : UInt16) :
    d.HasChannel channel ∨ 0 < channel ∧ d.vector = false ∨
      0 < channel ∧ d.vector = true ∧ d.channels ≤ channel := by
  by_cases hzero : channel = 0
  · exact Or.inl (Or.inl hzero)
  · have hpos : 0 < channel := UInt16.pos_iff_ne_zero.2 hzero
    cases hv : d.vector with
    | false => exact Or.inr (Or.inl ⟨hpos, rfl⟩)
    | true =>
      by_cases hlt : channel < d.channels
      · exact Or.inl (Or.inr ⟨hv, hlt⟩)
      · exact Or.inr (Or.inr ⟨hpos, rfl, UInt16.not_lt.1 hlt⟩)

theorem checkChannel_of_scalar (hpos : 0 < channel) (hv : d.vector = false) :
    d.checkChannel channel = .error .notVector := by
  simp [Descriptor.checkChannel, Descriptor.checkVector, hpos, hv]

theorem checkChannel_of_last (hpos : 0 < channel) (hv : d.vector = true)
    (hlast : d.channels ≤ channel) : d.checkChannel channel = .error .invalidChannel := by
  simp [Descriptor.checkChannel, Descriptor.checkVector, hpos, hv, hlast]

namespace Registry

/-! ## Rights -/

/-- The rights of the requester suffice for a variable: a write has the administrator bit on both
sides or on neither, and the capabilities are the same, or are among those of the variable where
the policy says so. -/
def Grants (r : Registry) (d : Descriptor) (q : Request) : Prop :=
  (q.direction = .write →
    (d.rights.bits &&& 0x8000 = 0x8000 ↔ q.requester.bits &&& 0x8000 = 0x8000)) ∧
  match r.policy with
  | .exact => d.rights.bits &&& 0x00FF = q.requester.bits &&& 0x00FF
  | .subset =>
    (d.rights.bits &&& 0x00FF) &&& (q.requester.bits &&& 0x00FF) = q.requester.bits &&& 0x00FF

theorem isAdmin_iff (rights : Rights) : rights.isAdmin = true ↔ rights.bits &&& 0x8000 = 0x8000 :=
  decide_eq_true_iff

theorem grants_iff (p : AccessPolicy) (granted requested : Rights) :
    p.grants granted.capabilities requested.capabilities = true ↔
      match p with
      | .exact => granted.bits &&& 0x00FF = requested.bits &&& 0x00FF
      | .subset =>
        (granted.bits &&& 0x00FF) &&& (requested.bits &&& 0x00FF) = requested.bits &&& 0x00FF := by
  cases p with
  | exact =>
    simp only [AccessPolicy.grants, Rights.capabilities, Rights.capabilityMask, decide_eq_true_eq,
      Rights.mk.injEq]
  | subset =>
    exact decide_eq_true_iff

/-- The gate lets pass what is granted, and denies everything else. -/
theorem gate_of_grants (h : r.Grants d q) : r.gate q d = .ok () := by
  obtain ⟨hadmin, hgrants⟩ := h
  unfold gate checkAccess
  rw [if_neg, if_pos ((grants_iff _ _ _).2 hgrants)]
  -- a write with the administrator bit on one side only is not among what is granted
  rintro ⟨hwrite, hne⟩
  apply hne
  rw [Bool.eq_iff_iff, isAdmin_iff, isAdmin_iff]
  exact hadmin hwrite

theorem gate_of_not_grants (h : ¬r.Grants d q) : r.gate q d = .error .accessDenied := by
  unfold gate checkAccess
  by_cases hadmin : q.direction = .write ∧ d.rights.isAdmin ≠ q.requester.isAdmin
  · rw [if_pos hadmin]
  · rw [if_neg hadmin, if_neg]
    intro hgrants
    refine h ⟨fun hwrite => ?_, (grants_iff _ _ _).1 hgrants⟩
    rw [← isAdmin_iff, ← isAdmin_iff, ← Bool.eq_iff_iff]
    exact Decidable.by_contra fun hne => hadmin ⟨hwrite, hne⟩

end Registry

end VariableRegistry
