import Mathlib.Control.Basic

/-!
# Computations with a state that may fail

Such a computation is a function from a state to an outcome and a state: a failure comes with the
state that it leaves. Here is what `>>=` means for these functions.
-/

namespace WasmTrim

variable {S ε α β : Type}

/-- Computations with a state that may fail. -/
abbrev Stateful (ε S α : Type) := ExceptT ε (StateM S) α

namespace Stateful

variable {steps : Stateful ε S α} {next : α → Stateful ε S β} {s t u : S} {a : α} {b : β} {e : ε}

theorem bind_apply_ok (h : steps s = (.ok a, t)) : (steps >>= next) s = next a t := by
  change ExceptT.bindCont next (steps s).1 (steps s).2 = next a t
  rw [h]
  rfl

theorem bind_apply_error (h : steps s = (.error e, t)) : (steps >>= next) s = (.error e, t) := by
  change ExceptT.bindCont next (steps s).1 (steps s).2 = (.error e, t)
  rw [h]
  rfl

/-- Computations that came to an end did so one after another. -/
theorem bind_eq_ok (h : (steps >>= next) s = (.ok b, u)) :
    ∃ a t, steps s = (.ok a, t) ∧ next a t = (.ok b, u) := by
  cases hsteps : steps s with
  | mk outcome t =>
      cases outcome with
      | error e =>
          rw [bind_apply_error hsteps] at h
          cases h
      | ok a =>
          rw [bind_apply_ok hsteps] at h
          exact ⟨a, t, rfl, h⟩

/-- What follows matters only where there is something to follow. -/
theorem bind_congr_ok {next' : α → Stateful ε S β}
    (h : ∀ s a t, steps s = (.ok a, t) → next a = next' a) : steps >>= next = steps >>= next' := by
  funext s
  cases hsteps : steps s with
  | mk outcome t =>
      cases outcome with
      | error e => rw [bind_apply_error hsteps, bind_apply_error hsteps]
      | ok a => rw [bind_apply_ok hsteps, bind_apply_ok hsteps, h s a t hsteps]

/-- Looking at the state leaves it alone. -/
theorem bind_get {next : S → Stateful ε S β} : (get >>= next : Stateful ε S β) s = next s s :=
  bind_apply_ok rfl

theorem map_apply (f : α → β) (steps : Stateful ε S α) (s : S) :
    (f <$> steps) s = ((steps s).1.map f, (steps s).2) := by
  rw [map_eq_pure_bind]
  cases hsteps : steps s with
  | mk outcome t =>
      cases outcome with
      | error e => exact bind_apply_error hsteps
      | ok a => exact bind_apply_ok hsteps

end Stateful

end WasmTrim
