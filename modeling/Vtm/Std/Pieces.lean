import Mathlib.Data.Int.ConditionallyCompleteOrder
import Mathlib.Tactic.Linarith
import Mathlib.Tactic.Ring

/-!
# Pieces of an interval

The pieces of an interval between pivots that do not fall, the search for the piece of a value,
and functions that are put together from one function for each piece.
-/

namespace Vtm.Std

/-- The first of the pieces `first`, `first + 1`, … with a value below its end; the one behind
them if there is none. -/
def pieceOf (pivot : Nat → Int) (v : Int) : Nat → Nat → Nat
  | 0, first => first
  | count + 1, first => if v < pivot (first + 1) then first else pieceOf pivot v count (first + 1)

variable {pivot : Nat → Int}

theorem pieceOf_spec (pivot : Nat → Int) (v : Int) (count first : Nat) :
    first ≤ pieceOf pivot v count first ∧ pieceOf pivot v count first ≤ first + count ∧
      (pieceOf pivot v count first < first + count → v < pivot (pieceOf pivot v count first + 1)) ∧
      ∀ k, first ≤ k → k < pieceOf pivot v count first → pivot (k + 1) ≤ v := by
  induction count generalizing first with
  | zero => exact ⟨le_rfl, le_rfl, fun less => absurd less (Nat.lt_irrefl _), fun k le less => by
      have here : pieceOf pivot v 0 first = first := rfl
      omega⟩
  | succ count ih =>
      rw [pieceOf]
      by_cases below : v < pivot (first + 1)
      · rw [if_pos below]
        exact ⟨le_rfl, Nat.le_add_right _ _, fun _ => below, fun k le less => by omega⟩
      · rw [if_neg below]
        obtain ⟨low, high, found, passed⟩ := ih (first + 1)
        refine ⟨by omega, by omega, fun less => found (by omega), fun k le less => ?_⟩
        by_cases here : k = first
        · rw [here]
          exact not_lt.mp below
        · exact passed k (by omega) less

theorem pieceOf_mono (pivot : Nat → Int) {v w : Int} (le : v ≤ w) (count first : Nat) :
    pieceOf pivot v count first ≤ pieceOf pivot w count first := by
  obtain ⟨low, high, -, passed⟩ := pieceOf_spec pivot v count first
  obtain ⟨low', high', found', -⟩ := pieceOf_spec pivot w count first
  by_contra more
  have below := found' (by omega)
  have above := passed (pieceOf pivot w count first) low' (by omega)
  omega

/-- The search looks at the ends of its pieces only. -/
theorem pieceOf_congr {pivot pivot' : Nat → Int} (v : Int) {count first : Nat}
    (same : ∀ k, first < k → k ≤ first + count → pivot k = pivot' k) :
    pieceOf pivot v count first = pieceOf pivot' v count first := by
  induction count generalizing first with
  | zero => rfl
  | succ count ih =>
      rw [pieceOf, pieceOf, same (first + 1) (Nat.lt_succ_self first) (by omega),
        ih fun k more le => same k (by omega) (by omega)]

/-- A value between the pivots of a piece is in it. -/
theorem pieceOf_eq (mono : Monotone pivot) {v : Int} {count first i : Nat} (low : first ≤ i)
    (high : i < first + count) (above : pivot i ≤ v) (below : v < pivot (i + 1)) :
    pieceOf pivot v count first = i := by
  obtain ⟨least, most, found, passed⟩ := pieceOf_spec pivot v count first
  rcases Nat.lt_trichotomy (pieceOf pivot v count first) i with less | same | more
  · have order := mono (Nat.succ_le_of_lt less)
    have here := found (by omega)
    rw [Nat.succ_eq_add_one] at order
    omega
  · exact same
  · have here := passed i low more
    omega

/-- A function that does not fall on each piece, and stays between the ends of the pieces, does not
fall. -/
theorem pieces_mono {piece : Nat → Nat} {value : Nat → Nat → Int} {edge : Nat → Int}
    (pieceMono : Monotone piece) (edgeMono : Monotone edge)
    (start : ∀ v, edge (piece v) ≤ value (piece v) v)
    (stop : ∀ v w, piece v < piece w → value (piece v) v ≤ edge (piece v + 1))
    (inside : ∀ v w, v ≤ w → piece v = piece w → value (piece v) v ≤ value (piece w) w) :
    Monotone fun v => value (piece v) v := by
  intro v w le
  rcases Nat.lt_or_eq_of_le (pieceMono le) with less | same
  · calc value (piece v) v ≤ edge (piece v + 1) := stop v w less
      _ ≤ edge (piece w) := edgeMono (Nat.succ_le_of_lt less)
      _ ≤ value (piece w) w := start w
  · exact inside v w le same

end Vtm.Std

/-!
## A linear piece in fixed point

A piece of `length` samples is mapped to `count` levels with rounding, and back with a slope in
units of `2 * half` that was rounded down. Neither direction leaves the piece, and a piece with as
many levels as samples comes back to within one.
-/

namespace Vtm.Std.LinearPiece

/-- The way there: `count * d / length`, rounded. -/
def forward (length count d : Int) : Int := (2 * (count * d) + length) / (2 * length)

/-- The slope of the way back. -/
def slope (half length count : Int) : Int := length * (2 * half) / count

/-- The way back, rounded. -/
def backward (half slope f : Int) : Int := (slope * f + half) / (2 * half)

section Forward

variable {length count d d' : Int} (positive : 0 < length)
include positive

section

variable (nonneg : 0 ≤ count)
include nonneg

theorem forward_nonneg (low : 0 ≤ d) : 0 ≤ forward length count d :=
  Int.ediv_nonneg (by positivity) (by omega)

theorem forward_mono (le : d ≤ d') : forward length count d ≤ forward length count d' := by
  have product := Int.mul_le_mul_of_nonneg_left le nonneg
  exact Int.ediv_le_ediv (by omega) (by omega)

theorem forward_le (high : d ≤ length) : forward length count d ≤ count := by
  have product := Int.mul_le_mul_of_nonneg_left high nonneg
  have expand : (count + 1) * (2 * length) = 2 * (count * length) + 2 * length := by ring
  have bound : forward length count d < count + 1 := Int.ediv_lt_of_lt_mul (by omega) (by omega)
  exact Int.le_of_lt_add_one bound

end

/-- A piece with as many levels as samples uses them up only at its end. -/
theorem forward_lt (enough : length ≤ count) (inside : d < length) :
    forward length count d < count := by
  have product := Int.mul_le_mul_of_nonneg_left (Int.le_sub_one_of_lt inside)
    (show 0 ≤ count by omega)
  have expand : count * (2 * length) = 2 * (count * (length - 1)) + 2 * count := by ring
  exact Int.ediv_lt_of_lt_mul (by omega) (by omega)

end Forward

section Backward

variable {half slope f f' : Int} (positive : 0 < half) (nonneg : 0 ≤ slope)
include positive nonneg

theorem backward_nonneg (low : 0 ≤ f) : 0 ≤ backward half slope f := by
  have product := Int.mul_nonneg nonneg low
  exact Int.ediv_nonneg (by omega) (by omega)

theorem backward_mono (le : f ≤ f') : backward half slope f ≤ backward half slope f' := by
  have product := Int.mul_le_mul_of_nonneg_left le nonneg
  exact Int.ediv_le_ediv (by omega) (by omega)

end Backward

section Inverse

variable {half length count : Int} (unit : 0 < half) (positive : 0 < length) (some : 0 < count)

include some in
theorem slope_spec : slope half length count * count ≤ length * (2 * half) ∧
    length * (2 * half) < (slope half length count + 1) * count :=
  ⟨Int.ediv_mul_le _ some.ne', Int.lt_ediv_add_one_mul_self _ some⟩

include unit positive some

theorem slope_nonneg : 0 ≤ slope half length count :=
  Int.ediv_nonneg (by positivity) (le_of_lt some)

/-- The way back of a level of the piece stays in the piece. -/
theorem backward_le {f : Int} (inside : f < count) :
    backward half (slope half length count) f ≤ length := by
  have low := (@slope_spec half length count some).1
  have nonneg := slope_nonneg unit positive some
  have product := Int.mul_le_mul_of_nonneg_left (Int.le_sub_one_of_lt inside) nonneg
  have expand : slope half length count * (count - 1) =
      slope half length count * count - slope half length count := by ring
  have expand' : (length + 1) * (2 * half) = length * (2 * half) + 2 * half := by ring
  have bound : backward half (slope half length count) f < length + 1 :=
    Int.ediv_lt_of_lt_mul (by omega) (by omega)
  exact Int.le_of_lt_add_one bound

/-- There and back again. -/
theorem backward_forward (enough : length ≤ count) (most : count < 2 * half) {d : Int} (low : 0 ≤ d)
    (inside : d < length) :
    |backward half (slope half length count) (forward length count d) - d| ≤ 1 := by
  obtain ⟨flat, steep⟩ := @slope_spec half length count some
  have nonneg := slope_nonneg unit positive some
  set s := slope half length count
  set f := forward length count d
  have f_le : f * (2 * length) ≤ 2 * (count * d) + length := Int.ediv_mul_le _ (by omega)
  have lt_f : 2 * (count * d) + length < (f + 1) * (2 * length) :=
    Int.lt_ediv_add_one_mul_self _ (by omega)
  have slow : s ≤ 2 * half := by
    by_contra fast
    have product := Int.mul_le_mul (show 2 * half + 1 ≤ s by omega) enough (by omega) nonneg
    have expand : (2 * half + 1) * length = length * (2 * half) + length := by ring
    omega
  have scaled := Int.mul_le_mul_of_nonneg_right slow (le_of_lt positive)
  -- the product of the slope and the level, times twice the length
  have above : s * f * (2 * length) ≤ (2 * (2 * half * d) + 2 * half) * length := by
    have level := Int.mul_le_mul_of_nonneg_left f_le nonneg
    have along := Int.mul_le_mul_of_nonneg_right flat low
    linarith
  have below : (2 * (2 * half * d) - 2 * (2 * half - 1) - 2 * half) * length ≤
      s * f * (2 * length) := by
    have level := Int.mul_le_mul_of_nonneg_left (Int.le_of_lt lt_f) nonneg
    have along := Int.mul_le_mul_of_nonneg_right (Int.le_of_lt steep) low
    have short : d * count ≤ length * (2 * half - 1) :=
      Int.mul_le_mul (le_of_lt inside) (by omega) (le_of_lt some) (le_of_lt positive)
    linarith
  have upper : s * f + half < (d + 2) * (2 * half) := by
    have halved : 2 * (s * f) ≤ 2 * (2 * half * d) + 2 * half :=
      le_of_mul_le_mul_right (by linarith) positive
    linarith
  have lower : (d - 1) * (2 * half) ≤ s * f + half := by
    have halved : 2 * (2 * half * d) - 2 * (2 * half - 1) - 2 * half ≤ 2 * (s * f) :=
      le_of_mul_le_mul_right (by linarith) positive
    linarith
  have most' : backward half s f < d + 2 := Int.ediv_lt_of_lt_mul (by omega) upper
  have least : d - 1 ≤ backward half s f := Int.le_ediv_of_mul_le (by omega) lower
  exact abs_le.mpr ⟨by omega, by omega⟩

end Inverse

end Vtm.Std.LinearPiece
