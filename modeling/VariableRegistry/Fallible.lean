/-
# Computations that may fail

A check succeeds without a value or fails with an error; what has to be there is demanded. What it
takes for a chain of such steps to succeed is read off the steps, so that no later proof has to
open one.
-/

namespace VariableRegistry

variable {ε α β γ : Type}

/-! ## Checks -/

/-- Fails with an error unless a condition holds. -/
def require (condition : Bool) (e : ε) : Except ε Unit :=
  if condition then .ok () else .error e

/-- A value that has to be there. -/
def demand (value : Option α) (e : ε) : Except ε α :=
  match value with
  | some x => .ok x
  | none => .error e

/-! ## Success -/

theorem ok_bind (a : α) (f : α → Except ε β) : (.ok a : Except ε α) >>= f = f a := rfl

/-- A chain of two steps succeeds if both do. -/
theorem bind_eq_ok {x : Except ε α} {f : α → Except ε β} {b : β} :
    x >>= f = .ok b ↔ ∃ a, x = .ok a ∧ f a = .ok b := by
  cases x <;> simp [bind, Except.bind]

/-- What follows on a step matters only where the step succeeds. -/
theorem bind_congr_of_ok {x : Except ε α} {f g : α → Except ε β}
    (h : ∀ a, x = .ok a → f a = g a) : x >>= f = x >>= g := by
  cases x with
  | error e => rfl
  | ok a => exact h a rfl

/-- What follows on a chain that fails is not reached. -/
theorem bind_eq_error {x : Except ε α} {f : α → Except ε β} {g : α → β → Except ε γ} {e : ε}
    (h : x >>= f = .error e) : (x >>= fun a => f a >>= g a) = .error e := by
  cases x with
  | error e' =>
    cases h
    rfl
  | ok a =>
    have ha : f a = .error e := h
    show f a >>= g a = .error e
    rw [ha]
    rfl

theorem pure_eq_ok {a b : α} : (pure a : Except ε α) = .ok b ↔ a = b := by
  simp [pure, Except.pure]

/-- To name a cause differently changes no success. -/
theorem mapError_eq_ok {ε' : Type} {x : Except ε α} {f : ε → ε'} {a : α} :
    x.mapError f = .ok a ↔ x = .ok a := by
  cases x with
  | error e => exact iff_of_false nofun nofun
  | ok b =>
    show (.ok b : Except ε' α) = .ok a ↔ _
    rw [Except.ok.injEq, Except.ok.injEq]

theorem require_eq_ok {condition : Bool} {e : ε} {u : Unit} :
    require condition e = .ok u ↔ condition = true := by
  cases condition <;> simp [require]

theorem demand_some (x : α) (e : ε) : demand (some x) e = .ok x := rfl

theorem demand_eq_ok {value : Option α} {e : ε} {x : α} :
    demand value e = .ok x ↔ value = some x := by
  cases value <;> simp [demand]

theorem toBool_eq_true {x : Except ε α} : x.toBool = true ↔ ∃ a, x = .ok a := by
  cases x <;> simp [Except.toBool]

theorem toOption_eq_some {x : Except ε α} {a : α} : x.toOption = some a ↔ x = .ok a := by
  cases x <;> simp [Except.toOption]

/-! ## Errors -/

/-- Every error with which a computation can end is of a kind. -/
def FailsWith (P : ε → Prop) (x : Except ε α) : Prop := ∀ e, x = .error e → P e

section

variable {P : ε → Prop}

theorem failsWith_ok (a : α) : FailsWith P (.ok a : Except ε α) := by
  intro e h
  cases h

theorem failsWith_error {e : ε} (h : P e) : FailsWith P (.error e : Except ε α) := by
  intro e' he
  cases he
  exact h

theorem failsWith_ite {condition : Prop} [Decidable condition] {x y : Except ε α}
    (hx : condition → FailsWith P x) (hy : ¬condition → FailsWith P y) :
    FailsWith P (if condition then x else y) := by
  by_cases h : condition
  · rw [if_pos h]
    exact hx h
  · rw [if_neg h]
    exact hy h

/-- A chain fails with the errors of its first step, and with those of its second step where the
first one succeeds. -/
theorem failsWith_bind {x : Except ε α} {f : α → Except ε β} (hx : FailsWith P x)
    (hf : ∀ a, x = .ok a → FailsWith P (f a)) : FailsWith P (x >>= f) := by
  cases x with
  | error e => exact failsWith_error (hx e rfl)
  | ok a => exact hf a rfl

theorem failsWith_require {condition : Bool} {e : ε} (h : P e) :
    FailsWith P (require condition e) := by
  cases condition
  · exact failsWith_error h
  · exact failsWith_ok ()

theorem failsWith_demand {value : Option α} {e : ε} (h : P e) : FailsWith P (demand value e) := by
  cases value
  · exact failsWith_error h
  · exact failsWith_ok _

end

end VariableRegistry
