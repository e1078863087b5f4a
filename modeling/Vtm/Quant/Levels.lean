import Vtm.Quant.Dequant
import Vtm.Quant.SignHiding

/-!
# The levels of the quantiser

What the loop of `quant` makes of a coefficient, as long as its magnitudes fit `TCoeff`.
-/

namespace Vtm

open ChromaQpMappingTableParams (Clip3)
open DQIntern (int32)
open SignBitHiding

theorem int32_of_mem {z : Int} (low : -2 ^ 31 ≤ z) (high : z < 2 ^ 31) : int32 z = z :=
  Int.bmod_eq_of_le (by omega) (by omega)

namespace Quant

/-- The shift of the quantiser. -/
theorem quantIQBits_ge {params : SliceParams} {tu : TransformBlock} {cQP : QpParam}
    (depth : params.channelBitDepth ≤ 12) (qp : 0 ≤ cQP.Qp tu.isTransformSkip) :
    10 ≤ quantIQBits params tu cQP := by
  have per : 0 ≤ cQP.per tu.isTransformSkip := Int.tdiv_nonneg qp (by decide)
  have width := tu.width_le
  have height := tu.height_le
  have transformShift : -4 ≤ tu.getTransformShift params.channelBitDepth +
      if tu.needsSqrt2Scale then -1 else 0 := by
    unfold TransformBlock.getTransformShift maxLog2TrDynamicRange
    split <;> omega
  unfold quantIQBits QUANT_SHIFT
  dsimp only
  split <;> omega

namespace Quantisation

/-- `quantisedMagnitude` over unbounded integers. -/
@[grind =] def exactMagnitude (q : Quantisation) (piCoef : Nat → Int) (n : Nat) : Int :=
  (q.tmpLevel piCoef n + q.iAdd) >>> q.iQBits

variable {q : Quantisation} {piCoef : Nat → Int} {n : Nat}

section Congr

variable {m : Nat} (coef : piCoef m = piCoef n) (scale : q.scale m = q.scale n)
include coef scale

theorem exactMagnitude_congr : q.exactMagnitude piCoef m = q.exactMagnitude piCoef n := by
  rw [exactMagnitude, exactMagnitude, tmpLevel, tmpLevel, coef, scale]

theorem quantisedMagnitude_congr :
    q.quantisedMagnitude piCoef m = q.quantisedMagnitude piCoef n :=
  congrArg int32 (exactMagnitude_congr coef scale)

theorem level_congr : q.level piCoef m = q.level piCoef n := by
  rw [level, level, quantisedCoefficient, quantisedCoefficient,
    quantisedMagnitude_congr coef scale, coef]

end Congr

theorem iAdd_nonneg : 0 ≤ q.iAdd := by
  unfold iAdd
  split <;> positivity

/-- The rounding offset is less than a unit. -/
theorem iAdd_lt (bits : 9 ≤ q.iQBits) : q.iAdd < 2 ^ q.iQBits := by
  obtain ⟨k, sum⟩ := Nat.exists_eq_add_of_le bits
  have power : (0 : Int) < 2 ^ k := by positivity
  rw [iAdd, sum, Nat.add_sub_cancel_left, pow_add]
  apply Int.mul_lt_mul_of_pos_right _ power
  cases q.isIRAP <;> decide

theorem exactMagnitude_eq_zero_iff (nonneg : 0 ≤ q.tmpLevel piCoef n) :
    q.exactMagnitude piCoef n = 0 ↔ q.tmpLevel piCoef n + q.iAdd < 2 ^ q.iQBits := by
  have offset := @iAdd_nonneg q
  have power : (0 : Int) < 2 ^ q.iQBits := by positivity
  rw [exactMagnitude, Int.shiftRight_eq_div_pow]
  push_cast
  constructor
  · intro zero
    by_contra large
    have one : 1 ≤ (q.tmpLevel piCoef n + q.iAdd) / 2 ^ q.iQBits :=
      Int.le_ediv_of_mul_le power (by omega)
    omega
  · exact fun small => Int.ediv_eq_zero_of_lt (by omega) small

section

variable (scale : 0 ≤ q.scale n)
include scale

theorem tmpLevel_nonneg : 0 ≤ q.tmpLevel piCoef n := Int.mul_nonneg (abs_nonneg _) scale

theorem exactMagnitude_nonneg : 0 ≤ q.exactMagnitude piCoef n := by
  have level := @tmpLevel_nonneg q piCoef n scale
  have offset := @iAdd_nonneg q
  rw [exactMagnitude, Int.shiftRight_eq_div_pow]
  positivity

variable (small : q.exactMagnitude piCoef n < 2 ^ 31)
include small

theorem quantisedMagnitude_eq : q.quantisedMagnitude piCoef n = q.exactMagnitude piCoef n := by
  have nonneg := @exactMagnitude_nonneg q piCoef n scale
  exact int32_of_mem (le_trans (by decide) nonneg) small

/-- The levels have the signs of the coefficients. -/
theorem aligned_level : Aligned (q.level piCoef) piCoef n := by
  have nonneg := @exactMagnitude_nonneg q piCoef n scale
  have clip (z : Int) : (0 < Clip3 (-32768) 32767 z → 0 < z) ∧
      (Clip3 (-32768) 32767 z < 0 → z < 0) := by
    unfold Clip3
    omega
  obtain ⟨up, down⟩ := clip (q.exactMagnitude piCoef n * if piCoef n < 0 then -1 else 1)
  unfold Aligned level quantisedCoefficient
  rw [quantisedMagnitude_eq scale small]
  refine ⟨fun positive => ?_, fun negative => ?_⟩
  · have sign := up positive
    by_contra below
    rw [if_pos (by omega)] at sign
    omega
  · have sign := down negative
    by_contra above
    rw [if_neg above] at sign
    omega

/-- A level that is not zero has a magnitude. -/
theorem exactMagnitude_pos (ne : q.level piCoef n ≠ 0) : 1 ≤ q.exactMagnitude piCoef n := by
  have nonneg := @exactMagnitude_nonneg q piCoef n scale
  by_contra none
  have zero : q.exactMagnitude piCoef n = 0 := by omega
  apply ne
  rw [level, quantisedCoefficient, quantisedMagnitude_eq scale small, zero, zero_mul]
  rfl

end

theorem inRange_level : InRange (q.level piCoef) n := Clip3_mem (by decide) _

/-- A coefficient that is zero has a level that is zero. -/
theorem level_of_zero (bits : 9 ≤ q.iQBits) (zero : piCoef n = 0) : q.level piCoef n = 0 := by
  have none : q.tmpLevel piCoef n = 0 := by rw [tmpLevel, zero, abs_zero, zero_mul]
  have magnitude : q.exactMagnitude piCoef n = 0 :=
    (exactMagnitude_eq_zero_iff (le_of_eq none.symm)).mpr (by
      rw [none, zero_add]
      exact iAdd_lt bits)
  rw [level, quantisedCoefficient, quantisedMagnitude]
  rw [exactMagnitude] at magnitude
  rw [magnitude]
  simp only [int32, Int.zero_bmod, zero_mul]
  rfl

theorem exactMagnitude_lt {count : Nat} (scale : ∀ n < count, 0 ≤ q.scale n)
    (small : ∑ n ∈ Finset.range count, q.exactMagnitude piCoef n < 2 ^ 31) (inside : n < count) :
    q.exactMagnitude piCoef n < 2 ^ 31 :=
  lt_of_le_of_lt (Finset.single_le_sum
    (fun m member => exactMagnitude_nonneg (scale m (Finset.mem_range.mp member)))
    (Finset.mem_range.mpr inside)) small

/-- The accumulator holds the sum modulo its word. -/
theorem absSum_eq_int32 (count : Nat) : q.absSum piCoef 0 count =
    int32 (∑ n ∈ Finset.range count, q.quantisedMagnitude piCoef n) := by
  induction count with
  | zero => rfl
  | succ count ih =>
      have step : q.absSum piCoef 0 (count + 1) =
          int32 (q.absSum piCoef 0 count + q.quantisedMagnitude piCoef count) := by
        rw [absSum, List.range_succ, List.foldl_append]
        rfl
      rw [step, ih, Finset.sum_range_succ]
      exact Int.bmod_add_bmod

/-- The accumulator does not overflow. -/
theorem absSum_eq {count : Nat} (scale : ∀ n < count, 0 ≤ q.scale n)
    (small : ∑ n ∈ Finset.range count, q.exactMagnitude piCoef n < 2 ^ 31) :
    q.absSum piCoef 0 count = ∑ n ∈ Finset.range count, q.exactMagnitude piCoef n := by
  have nonneg : 0 ≤ ∑ n ∈ Finset.range count, q.exactMagnitude piCoef n :=
    Finset.sum_nonneg fun n member => exactMagnitude_nonneg (scale n (Finset.mem_range.mp member))
  have exact_ : ∑ n ∈ Finset.range count, q.quantisedMagnitude piCoef n =
      ∑ n ∈ Finset.range count, q.exactMagnitude piCoef n :=
    Finset.sum_congr rfl fun n member =>
      quantisedMagnitude_eq (scale n (Finset.mem_range.mp member))
        (exactMagnitude_lt scale small (Finset.mem_range.mp member))
  rw [absSum_eq_int32, exact_]
  exact int32_of_mem (le_trans (by decide) nonneg) small

end Quantisation

end Quant

end Vtm
