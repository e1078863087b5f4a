import Mathlib.Algebra.Order.Ring.Abs
import Mathlib.Tactic.Ring

/-!
# Arithmetic on 32-bit integers

Operations that fail where the exact result does not fit into 32 bits. A shift to the left is a
product with a power of two; a shift to the right always fits.
-/

namespace Vtm.Std

/-- A computation that succeeds with a property of its result. -/
def Succeeds {α : Type} (x : Except String α) (P : α → Prop) : Prop := ∃ a, x = .ok a ∧ P a

namespace Succeeds

variable {α β : Type} {x : Except String α} {f : α → Except String β} {P P' : α → Prop}
  {Q : β → Prop}

theorem pure {a : α} (holds : P a) : Succeeds (Pure.pure a) P := ⟨a, rfl, holds⟩

theorem bind (head : Succeeds x P) (tail : ∀ a, P a → Succeeds (f a) Q) : Succeeds (x >>= f) Q := by
  obtain ⟨a, rfl, holds⟩ := head
  exact tail a holds

theorem weaken (succeeds : Succeeds x P) (weaker : ∀ a, P a → P' a) : Succeeds x P' := by
  obtain ⟨a, run, holds⟩ := succeeds
  exact ⟨a, run, weaker a holds⟩

theorem ite {c : Prop} [Decidable c] {y : Except String α} (yes : c → Succeeds x P)
    (no : ¬ c → Succeeds y P) : Succeeds (if c then x else y) P := by
  split
  · rename_i holds
    exact yes holds
  · rename_i fails
    exact no fails

/-- Every element of a list is computed. -/
theorem mapM {g : α → Except String β} {R : α → β → Prop} {list : List α}
    (each : ∀ a ∈ list, Succeeds (g a) (R a)) : Succeeds (list.mapM g) (List.Forall₂ R list) := by
  induction list with
  | nil => exact ⟨[], rfl, .nil⟩
  | cons a rest ih =>
      rw [List.mapM_cons]
      refine (each a (List.mem_cons_self ..)).bind fun b holds => ?_
      refine (ih fun other member => each other (List.mem_cons_of_mem _ member)).bind fun bs all => ?_
      exact pure (.cons holds all)

end Succeeds

/-- The range of 32-bit integers. -/
def Fits32 (n : Int) : Prop := -2 ^ 31 ≤ n ∧ n < 2 ^ 31

instance (n : Int) : Decidable (Fits32 n) := inferInstanceAs (Decidable (_ ∧ _))

/-- The exact result of an operation, if it fits. -/
def int32 (n : Int) : Except String Int := if Fits32 n then .ok n else .error "overflow"

def add32 (a b : Int) : Except String Int := int32 (a + b)
def sub32 (a b : Int) : Except String Int := int32 (a - b)
def mul32 (a b : Int) : Except String Int := int32 (a * b)
def neg32 (a : Int) : Except String Int := int32 (-a)

/-- `a << k`. -/
def shl32 (a : Int) (k : Nat) : Except String Int := int32 (a * 2 ^ k)

/-- `a / b`, towards zero. -/
def div32 (a b : Int) : Except String Int :=
  if b = 0 then .error "division by zero" else int32 (a.tdiv b)

theorem int32_eq {n : Int} (fits : Fits32 n) : int32 n = .ok n := if_pos fits

theorem int32_succeeds {n : Int} (fits : Fits32 n) : Succeeds (int32 n) (· = n) :=
  ⟨n, int32_eq fits, rfl⟩

/-- What is small in absolute value fits. -/
theorem fits32_of_abs_le {n bound : Int} (small : |n| ≤ bound) (fits : bound < 2 ^ 31) : Fits32 n := by
  obtain ⟨low, high⟩ := abs_le.mp small
  exact ⟨by omega, by omega⟩

theorem abs_mul_le_mul {a b A B : Int} (left : |a| ≤ A) (right : |b| ≤ B) : |a * b| ≤ A * B := by
  rw [abs_mul]
  exact mul_le_mul left right (abs_nonneg b) (le_trans (abs_nonneg a) left)

theorem abs_add_le_add {a b A B : Int} (left : |a| ≤ A) (right : |b| ≤ B) : |a + b| ≤ A + B :=
  le_trans (abs_add_le a b) (add_le_add left right)

theorem abs_sub_le_add {a b A B : Int} (left : |a| ≤ A) (right : |b| ≤ B) : |a - b| ≤ A + B :=
  le_trans (abs_sub a b) (add_le_add left right)

/-- An operation with a bound that fits. -/
theorem int32_bounded {n bound : Int} (small : |n| ≤ bound) (fits : bound < 2 ^ 31) :
    Succeeds (int32 n) fun r => r = n ∧ |r| ≤ bound :=
  ⟨n, int32_eq (fits32_of_abs_le small fits), rfl, small⟩

end Vtm.Std
