import Mathlib.Data.Nat.Digits.Lemmas
import Mathlib.Data.Nat.Bitwise

/-!
# Fields of a word

A list of values, each of `width` bits, packed into one number with the first value in the
lowest bits.
-/

namespace Vtm.Std

/-- Field `i` of a word. -/
def field (width word i : Nat) : Nat := word >>> (i * width) &&& (2 ^ width - 1)

/-- The word with the fields of a list. -/
def packed (width : Nat) (values : List Nat) : Nat := Nat.ofDigits (2 ^ width) values

variable {width : Nat} {values : List Nat}

theorem packed_append (values : List Nat) (value : Nat) :
    packed width (values ++ [value]) = packed width values + value * 2 ^ (values.length * width) := by
  unfold packed
  rw [Nat.ofDigits_append, Nat.ofDigits_singleton, ← Nat.pow_mul, Nat.mul_comm width, Nat.mul_comm]

theorem packed_lt (some : 0 < width) (small : ∀ value ∈ values, value < 2 ^ width) :
    packed width values < 2 ^ (values.length * width) := by
  have bound := Nat.ofDigits_lt_base_pow_length (Nat.one_lt_two_pow some.ne') small
  rwa [← Nat.pow_mul, Nat.mul_comm width] at bound

/-- Every value is found in its field. -/
theorem field_packed (small : ∀ value ∈ values, value < 2 ^ width) {i : Nat} {value : Nat}
    (here : values[i]? = some value) : field width (packed width values) i = value := by
  obtain ⟨inside, rfl⟩ := List.getElem?_eq_some_iff.mp here
  unfold field packed
  rw [Nat.shiftRight_eq_div_pow, Nat.mul_comm, Nat.pow_mul, Nat.and_two_pow_sub_one_eq_mod,
    Nat.ofDigits_div_pow_eq_ofDigits_drop i (by positivity) values small,
    List.drop_eq_getElem_cons inside, Nat.ofDigits_cons, Nat.add_mul_mod_self_left]
  exact Nat.mod_eq_of_lt (small _ (List.getElem_mem inside))

/-- Different fields have no bit in common. -/
theorem fields_disjoint {a b i j : Nat} (small : a < 2 ^ width) (small' : b < 2 ^ width)
    (differ : i ≠ j) : (a * 2 ^ (i * width)) &&& (b * 2 ^ (j * width)) = 0 := by
  refine Nat.eq_of_testBit_eq fun k => ?_
  rw [Nat.testBit_and, Nat.testBit_mul_two_pow, Nat.testBit_mul_two_pow, Nat.zero_testBit]
  by_contra both
  simp only [Bool.and_eq_false_iff, not_or, Bool.not_eq_false, decide_eq_true_eq] at both
  obtain ⟨⟨low, first⟩, low', second⟩ := both
  have high : k - i * width < width := by
    by_contra beyond
    rw [Nat.testBit_lt_two_pow (lt_of_lt_of_le small (Nat.pow_le_pow_right (by decide)
      (not_lt.mp beyond)))] at first
    cases first
  have high' : k - j * width < width := by
    by_contra beyond
    rw [Nat.testBit_lt_two_pow (lt_of_lt_of_le small' (Nat.pow_le_pow_right (by decide)
      (not_lt.mp beyond)))] at second
    cases second
  rcases Nat.lt_or_gt_of_ne differ with less | more
  · have apart : (i + 1) * width ≤ j * width := Nat.mul_le_mul_right width less
    rw [Nat.add_mul, Nat.one_mul] at apart
    omega
  · have apart : (j + 1) * width ≤ i * width := Nat.mul_le_mul_right width more
    rw [Nat.add_mul, Nat.one_mul] at apart
    omega

end Vtm.Std
