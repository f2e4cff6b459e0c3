/-
# Accesses

An access works on an argument that the caller hands in and gets back, and on a registry. It can
change both on its way, and what it changed before it failed stays changed: nothing is undone.
-/
import VariableRegistry.Registry.Basic

namespace VariableRegistry

/-- A computation on an argument of type `α` and a registry, which may fail and then leaves both as
they are at that moment. -/
abbrev Access (α : Type) := ExceptT AccessError (StateM (α × Registry))

namespace Access

variable {α β γ : Type}

/-- The result of an access, with the argument and the registry after it. -/
def outcome (x : Access α β) (v : α) (r : Registry) : Except AccessError β × α × Registry :=
  (StateT.run (ExceptT.run x) (v, r)).run

/-! ## Steps of an access -/

/-- The registry as it is now. -/
def registry : Access α Registry := return (← get).2

/-- The argument as it is now. -/
def argument : Access α α := return (← get).1

/-- Replaces the registry. -/
def setRegistry (r : Registry) : Access α Unit := modify fun (v, _) => (v, r)

/-- Replaces the argument. -/
def setArgument (v : α) : Access α Unit := modify fun (_, r) => (v, r)

/-- Runs an access with an argument of its own and returns this argument as it is afterwards. -/
def withArgument (v : β) (x : Access β Unit) : Access α β := do
  let (result, v, r) := x.outcome v (← registry)
  setRegistry r
  match result with
  | .ok () => return v
  | .error e => throw e

/-! ## Outcomes of the steps -/

@[simp] theorem outcome_pure (a : β) (v : α) (r : Registry) :
    outcome (pure a) v r = (.ok a, v, r) := rfl

@[simp] theorem outcome_throw (e : AccessError) (v : α) (r : Registry) :
    outcome (throw e : Access α β) v r = (.error e, v, r) := rfl

@[simp] theorem outcome_liftM (x : Except AccessError β) (v : α) (r : Registry) :
    outcome (liftM x : Access α β) v r = (x, v, r) := by
  cases x <;> rfl

theorem outcome_bind (x : Access α β) (f : β → Access α γ) (v : α) (r : Registry) :
    outcome (x >>= f) v r =
      match outcome x v r with
      | (.ok a, v', r') => outcome (f a) v' r'
      | (.error e, v', r') => (.error e, v', r') := by
  simp only [outcome, ExceptT.run_bind, StateT.run_bind]
  rcases StateT.run (ExceptT.run x) (v, r) with ⟨_ | _, _⟩ <;> rfl

@[simp] theorem outcome_registry (v : α) (r : Registry) :
    outcome registry v r = (.ok r, v, r) := rfl

@[simp] theorem outcome_argument (v : α) (r : Registry) :
    outcome argument v r = (.ok v, v, r) := rfl

@[simp] theorem outcome_setRegistry (r' : Registry) (v : α) (r : Registry) :
    outcome (setRegistry r') v r = (.ok (), v, r') := rfl

@[simp] theorem outcome_setArgument (v' v : α) (r : Registry) :
    outcome (setArgument v') v r = (.ok (), v', r) := rfl

theorem outcome_withArgument (w : β) (x : Access β Unit) (v : α) (r : Registry) :
    outcome (withArgument w x) v r =
      match outcome x w r with
      | (.ok (), w', r') => (.ok w', v, r')
      | (.error e, _, r') => (.error e, v, r') := by
  simp only [withArgument, outcome_bind, outcome_registry, outcome_setRegistry]
  rcases outcome x w r with ⟨_ | _, _, _⟩ <;> rfl

end Access

end VariableRegistry
