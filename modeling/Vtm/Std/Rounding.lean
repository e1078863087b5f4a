import Mathlib.Data.Rat.Floor

/-!
# Rounding shifts

An integer times a power of two, rounded to the nearest integer, by shifts.
-/

namespace Vtm.Std

/-- The nearest integer to `x / 2 ^ shift`; halves are rounded up. -/
def roundShift (x shift : Int) : Int := round ((x : ℚ) * 2 ^ (-shift))

/-- A shift to the right behind half a unit. -/
theorem shiftRight_add_half (x : Int) (k : Nat) :
    (x + 2 ^ k) >>> (k + 1) = roundShift x (k + 1 : Nat) := by
  have power : (2 : ℚ) ^ (k + 1) ≠ 0 := by positivity
  have half : (x : ℚ) * 2 ^ (-((k + 1 : Nat) : Int)) + 1 / 2 =
      ((x + 2 ^ k : Int) : ℚ) / ((2 ^ (k + 1) : Nat) : ℚ) := by
    rw [zpow_neg, zpow_natCast]
    push_cast
    field_simp
    ring
  rw [roundShift, round_eq, half, Rat.floor_intCast_div_natCast, Int.shiftRight_eq_div_pow]

/-- A shift to the left is exact. -/
theorem mul_pow_eq_roundShift (x : Int) (k : Nat) : x * 2 ^ k = roundShift x (-(k : Int)) := by
  have exact : (x : ℚ) * 2 ^ (-(-(k : Int))) = ((x * 2 ^ k : Int) : ℚ) := by
    rw [neg_neg, zpow_natCast]
    push_cast
    rfl
  rw [roundShift, exact, round_intCast]

end Vtm.Std
