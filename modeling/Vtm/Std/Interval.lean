import Mathlib.Tactic.Ring
import Mathlib.Tactic.Linarith

/-!
# Nested integer intervals

The arithmetic of an arithmetic coder, with unbounded integers. An interval
`[low, low + range)` lives at a precision of `shifts` doublings. Coding a
symbol doubles the precision some times and keeps a part of the interval, so
the intervals of a run are nested; a number inside the last one is inside all
of them.
-/

namespace Vtm.Std

/-- The interval `[low, low + range)` after `shifts` doublings. -/
structure Interval where
  low : Nat
  range : Nat
  shifts : Nat
deriving DecidableEq, Repr

namespace Interval

/-- Double `count` times, then keep `range` from `offset` on. -/
def advance (i : Interval) (count offset range : Nat) : Interval :=
  ⟨i.low * 2 ^ count + offset, range, i.shifts + count⟩

/-- `inner` lies inside `outer` at the precision of `inner`. -/
structure Within (outer inner : Interval) : Prop where
  finer : outer.shifts ≤ inner.shifts
  lower : outer.low * 2 ^ (inner.shifts - outer.shifts) ≤ inner.low
  upper : inner.low + inner.range ≤
    (outer.low + outer.range) * 2 ^ (inner.shifts - outer.shifts)

theorem Within.refl (i : Interval) : Within i i := ⟨le_rfl, by simp, by simp⟩

private theorem shifted_le {a b c fine mid coarse : Nat} (ordered : coarse ≤ mid)
    (finer : mid ≤ fine) (first : a * 2 ^ (mid - coarse) ≤ b) (second : b * 2 ^ (fine - mid) ≤ c) :
    a * 2 ^ (fine - coarse) ≤ c := by
  have split : fine - coarse = (mid - coarse) + (fine - mid) := by omega
  calc a * 2 ^ (fine - coarse) = a * 2 ^ (mid - coarse) * 2 ^ (fine - mid) := by
        rw [split, pow_add, Nat.mul_assoc]
    _ ≤ b * 2 ^ (fine - mid) := Nat.mul_le_mul_right _ first
    _ ≤ c := second

private theorem shifted_ge {a b c fine mid coarse : Nat} (ordered : coarse ≤ mid)
    (finer : mid ≤ fine) (first : b ≤ a * 2 ^ (mid - coarse)) (second : c ≤ b * 2 ^ (fine - mid)) :
    c ≤ a * 2 ^ (fine - coarse) := by
  have split : fine - coarse = (mid - coarse) + (fine - mid) := by omega
  calc c ≤ b * 2 ^ (fine - mid) := second
    _ ≤ a * 2 ^ (mid - coarse) * 2 ^ (fine - mid) := Nat.mul_le_mul_right _ first
    _ = a * 2 ^ (fine - coarse) := by rw [split, pow_add, Nat.mul_assoc]

theorem Within.trans {outer middle inner : Interval} (first : Within outer middle)
    (second : Within middle inner) : Within outer inner :=
  ⟨first.finer.trans second.finer,
    shifted_le first.finer second.finer first.lower second.lower,
    shifted_ge first.finer second.finer first.upper second.upper⟩

/-- Keeping a part of the doubled interval nests. -/
theorem within_advance {i : Interval} {count offset range : Nat}
    (fits : offset + range ≤ i.range * 2 ^ count) : Within i (i.advance count offset range) := by
  have doublings : i.shifts + count - i.shifts = count := by omega
  refine ⟨Nat.le_add_right _ _, ?_, ?_⟩
  · simp only [advance, doublings]
    exact Nat.le_add_right _ _
  · simp only [advance, doublings]
    rw [Nat.add_mul]
    omega

/-- `value`, a number at precision `width`, lies in the interval. -/
structure Contains (i : Interval) (width value : Nat) : Prop where
  finer : i.shifts ≤ width
  lower : i.low * 2 ^ (width - i.shifts) ≤ value
  upper : value < (i.low + i.range) * 2 ^ (width - i.shifts)

/-- A number in the inner interval is in the outer one. -/
theorem Within.contains {outer inner : Interval} (within : Within outer inner) {width value : Nat}
    (inside : Contains inner width value) : Contains outer width value :=
  ⟨within.finer.trans inside.finer,
    shifted_le within.finer inside.finer within.lower inside.lower,
    Nat.lt_of_lt_of_le inside.upper
      (shifted_ge within.finer inside.finer within.upper le_rfl)⟩

end Interval

end Vtm.Std
