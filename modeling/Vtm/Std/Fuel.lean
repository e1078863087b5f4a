import Mathlib.Control.Basic

/-!
# Computations with fuel

A computation that may throw, or that has not come to an end within its fuel.
-/

namespace Vtm.Std

/-- `none` says that the fuel is used up. -/
abbrev Fuelled (ε α : Type) := ExceptT ε Option α

namespace Fuelled

variable {ε α β : Type} {x : Fuelled ε α} {f : α → Fuelled ε β}

/-- The end of a computation. -/
def done (value : Except ε α) : Fuelled ε α := some value

/-- The computation comes to an end, with a result or an exception. -/
def Ends (x : Fuelled ε α) : Prop := ∃ value, x = some value

theorem bind_ok_iff {b : β} :
    (x >>= f) = some (.ok b) ↔ ∃ a, x = some (.ok a) ∧ f a = some (.ok b) := by
  constructor
  · intro run
    match ended : x with
    | none => cases run
    | some (.error e) => cases run
    | some (.ok a) => exact ⟨a, rfl, run⟩
  · rintro ⟨a, rfl, run⟩
    exact run

theorem Ends.bind (first : x.Ends) (next : ∀ a, x = some (.ok a) → (f a).Ends) : (x >>= f).Ends := by
  obtain ⟨value, ended⟩ := first
  cases value with
  | error e => exact ⟨.error e, by rw [ended]; rfl⟩
  | ok a =>
      have run : (x >>= f) = f a := by rw [ended]; rfl
      rw [run]
      exact next a ended

theorem Ends.pure (a : α) : Ends (Pure.pure a : Fuelled ε α) := ⟨.ok a, rfl⟩

theorem Ends.done (value : Except ε α) : (Fuelled.done value).Ends := ⟨value, rfl⟩

/-- A computation that does not end makes what follows not end. -/
theorem bind_none (endless : x = none) : (x >>= f) = none := by
  rw [endless]
  rfl

end Fuelled

end Vtm.Std
