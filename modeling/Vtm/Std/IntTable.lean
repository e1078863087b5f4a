import Mathlib.Tactic.Common
import Mathlib.Order.Basic

/-!
# Tables over an interval of integers

A table that is filled entry by entry, upwards or downwards from what it holds already.
`Rises` says that it holds exactly an interval of keys, with values in bounds that do not
fall; each rule adds one entry at an end.
-/

namespace Vtm.Std

/-- A table with the keys `low` to `high` and values between `bottom` and `top` that do not
fall. -/
structure Rises (bottom top low high : Int) (table : Int → Option Int) : Prop where
  keys : ∀ k, (table k).isSome ↔ low ≤ k ∧ k ≤ high
  range : ∀ k v, table k = some v → bottom ≤ v ∧ v ≤ top
  mono : ∀ k k' v v', k ≤ k' → table k = some v → table k' = some v' → v ≤ v'

/-- Enter a value. -/
def enter (table : Int → Option Int) (k v : Int) : Int → Option Int :=
  Function.update table k (some v)

@[simp] theorem enter_self (table : Int → Option Int) (k v : Int) : enter table k v k = some v :=
  Function.update_self _ _ _

theorem enter_of_ne {table : Int → Option Int} {k k' v : Int} (differs : k' ≠ k) :
    enter table k v k' = table k' :=
  Function.update_of_ne differs _ _

namespace Rises

variable {bottom top low high v value : Int} {table : Int → Option Int}

theorem key (rises : Rises bottom top low high table) {k v : Int} (here : table k = some v) :
    low ≤ k ∧ k ≤ high :=
  (rises.keys k).mp (by simp [here])

theorem single {k : Int} (range : bottom ≤ v ∧ v ≤ top) :
    Rises bottom top k k (enter (fun _ => none) k v) where
  keys k' := by
    by_cases same : k' = k
    · simp [same]
    · rw [enter_of_ne same]
      simp only [Option.isSome_none, Bool.false_eq_true, false_iff]
      omega
  range k' v' here := by
    by_cases same : k' = k
    · rw [same, enter_self, Option.some.injEq] at here
      rwa [← here]
    · rw [enter_of_ne same] at here
      cases here
  mono k₁ k₂ v₁ v₂ _ here₁ here₂ := by
    by_cases same₁ : k₁ = k
    · by_cases same₂ : k₂ = k
      · rw [same₁, enter_self] at here₁
        rw [same₂, enter_self] at here₂
        cases here₁
        cases here₂
        exact Int.le_refl v
      · rw [enter_of_ne same₂] at here₂
        cases here₂
    · rw [enter_of_ne same₁] at here₁
      cases here₁

/-- A next larger key with a value that is not smaller. -/
theorem above (rises : Rises bottom top low high table) (last : table high = some v)
    (larger : v ≤ value) (bounded : value ≤ top) :
    Rises bottom top low (high + 1) (enter table (high + 1) value) where
  keys k := by
    have ends := rises.key last
    by_cases same : k = high + 1
    · subst same
      rw [enter_self]
      simp only [Option.isSome_some, true_iff]
      omega
    · rw [enter_of_ne same, rises.keys]
      omega
  range k v' here := by
    by_cases same : k = high + 1
    · rw [same, enter_self, Option.some.injEq] at here
      have least := (rises.range high v last).1
      omega
    · rw [enter_of_ne same] at here
      exact rises.range k v' here
  mono k₁ k₂ v₁ v₂ ordered here₁ here₂ := by
    by_cases same₂ : k₂ = high + 1
    · rw [same₂, enter_self, Option.some.injEq] at here₂
      by_cases same₁ : k₁ = high + 1
      · rw [same₁, enter_self, Option.some.injEq] at here₁
        omega
      · rw [enter_of_ne same₁] at here₁
        have below := rises.mono k₁ high v₁ v (rises.key here₁).2 here₁ last
        omega
    · rw [enter_of_ne same₂] at here₂
      have within := rises.key here₂
      rw [enter_of_ne (by omega)] at here₁
      exact rises.mono k₁ k₂ v₁ v₂ ordered here₁ here₂

/-- A next smaller key with a value that is not larger. -/
theorem below (rises : Rises bottom top low high table) (first : table low = some v)
    (smaller : value ≤ v) (bounded : bottom ≤ value) :
    Rises bottom top (low - 1) high (enter table (low - 1) value) where
  keys k := by
    have ends := rises.key first
    by_cases same : k = low - 1
    · subst same
      rw [enter_self]
      simp only [Option.isSome_some, true_iff]
      omega
    · rw [enter_of_ne same, rises.keys]
      omega
  range k v' here := by
    by_cases same : k = low - 1
    · rw [same, enter_self, Option.some.injEq] at here
      have most := (rises.range low v first).2
      omega
    · rw [enter_of_ne same] at here
      exact rises.range k v' here
  mono k₁ k₂ v₁ v₂ ordered here₁ here₂ := by
    by_cases same₁ : k₁ = low - 1
    · rw [same₁, enter_self, Option.some.injEq] at here₁
      by_cases same₂ : k₂ = low - 1
      · rw [same₂, enter_self, Option.some.injEq] at here₂
        omega
      · rw [enter_of_ne same₂] at here₂
        have above := rises.mono low k₂ v v₂ (rises.key here₂).1 first here₂
        omega
    · rw [enter_of_ne same₁] at here₁
      have within := rises.key here₁
      rw [enter_of_ne (by omega)] at here₂
      exact rises.mono k₁ k₂ v₁ v₂ ordered here₁ here₂

end Rises

end Vtm.Std
