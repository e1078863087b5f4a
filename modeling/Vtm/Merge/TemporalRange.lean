import Vtm.Common.TemporalMv
import Vtm.Merge.AffineRange
import Mathlib.Tactic.IntervalCases

/-!
# The range of temporal motion vectors

`roundMvComp` rounds to six mantissa bits, and a temporal vector leaves the range of 18 bits
exactly where an unscaled one is rounded up to `2 ^ 17`: `temporalMv_inRange_iff`.
-/

namespace Vtm.Motion

open RefPics (RefPicList)
open ChromaQpMappingTableParams (Clip3)
open Vtm.Std

/-! ## Rounding to the mantissa -/

theorem xor_sign (x : Int) : Int.xor x 0 = x ∧ Int.xor x (-1) = -x - 1 := by
  cases x with
  | ofNat m =>
      refine ⟨?_, ?_⟩
      · exact congrArg Int.ofNat (Nat.xor_zero m)
      · have zero : Int.xor (Int.ofNat m) (-1) = Int.negSucc (m ^^^ 0) := rfl
        rw [zero, Nat.xor_zero, Int.negSucc_eq]
        simp only [Int.ofNat_eq_natCast]
        omega
  | negSucc m =>
      refine ⟨?_, ?_⟩
      · exact congrArg Int.negSucc (Nat.xor_zero m)
      · have zero : Int.xor (Int.negSucc m) (-1) = Int.ofNat (m ^^^ 0) := rfl
        rw [zero, Nat.xor_zero, Int.negSucc_eq]
        simp only [Int.ofNat_eq_natCast]
        omega

/-- The value without its sign, for two's complement. -/
def magnitude (x : Int) : Nat := if 0 ≤ x then x.toNat else (-x - 1).toNat

theorem sign_eq {x : Int} (low : -2 ^ 31 ≤ x) (high : x < 2 ^ 31) :
    x >>> (31 : Nat) = if 0 ≤ x then 0 else -1 := by
  rw [Int.shiftRight_eq_div_pow]
  split <;> omega

theorem xor_sign_eq {x : Int} (low : -2 ^ 31 ≤ x) (high : x < 2 ^ 31) :
    Int.xor x (x >>> (31 : Nat)) = magnitude x := by
  unfold magnitude
  rw [sign_eq low high]
  split
  · rw [(xor_sign x).1]
    omega
  · rw [(xor_sign x).2]
    omega

/-- The logarithm with the mantissa bits set. -/
theorem log2_or_upperLimit (a : Nat) : Nat.log2 (a ||| 31) = max (Nat.log2 a) 4 := by
  have least : 31 ≤ a ||| 31 := Nat.right_le_or
  have below : a ≤ a ||| 31 := Nat.left_le_or
  have some : a ||| 31 ≠ 0 := by omega
  rw [Nat.log2_eq_iff some]
  rcases Nat.le_total (Nat.log2 a) 4 with small | large
  · rw [Nat.max_eq_right small]
    have bound : a < 2 ^ 5 :=
      lt_of_lt_of_le Nat.lt_log2_self (Nat.pow_le_pow_right (by decide) (by omega))
    exact ⟨by omega, Nat.or_lt_two_pow bound (by decide)⟩
  · rw [Nat.max_eq_left large]
    have positive : a ≠ 0 := by
      rintro rfl
      exact absurd large (by decide)
    refine ⟨le_trans (Nat.log2_self_le positive) below, Nat.or_lt_two_pow Nat.lt_log2_self ?_⟩
    exact lt_of_lt_of_le (by decide : 31 < 2 ^ 5) (Nat.pow_le_pow_right (by decide) (by omega))

theorem mvFloatScale_eq {x : Int} (low : -2 ^ 31 ≤ x) (high : x < 2 ^ 31) :
    mvFloatScale x = (max (Nat.log2 (magnitude x)) 4 : Nat) - 5 := by
  have bits : Int.lor (magnitude x) MV_MANTISSA_UPPER_LIMIT = (magnitude x ||| 31 : Nat) := rfl
  unfold mvFloatScale
  rw [xor_sign_eq low high, bits, ← log2_or_upperLimit]
  rfl

/-- The float code of a rounded value and what it is decoded to, for both signs. -/
theorem mvFloatCode_spec : ∀ s < 13, ∀ k < 33,
    (convertMvFloatToFixed (mvFloatCode (s : Nat) (32 + (k : Nat)) 0) = (32 + k) * 2 ^ s ∧
      -2 ^ 9 ≤ mvFloatCode (s : Nat) (32 + (k : Nat)) 0 ∧
        mvFloatCode (s : Nat) (32 + (k : Nat)) 0 < 2 ^ 9) ∧
    (convertMvFloatToFixed (mvFloatCode (s : Nat) (-64 + (k : Nat)) (-1)) = (-64 + k) * 2 ^ s ∧
      -2 ^ 9 ≤ mvFloatCode (s : Nat) (-64 + (k : Nat)) (-1) ∧
        mvFloatCode (s : Nat) (-64 + (k : Nat)) (-1) < 2 ^ 9) := by
  decide +kernel

/-- Small values are their own mantissa. -/
theorem mvFloatCode_small : ∀ k < 64,
    convertMvFloatToFixed (Int.lor 0 ((-32 + (k : Nat)) * 2 ^ MV_EXPONENT_BITCOUNT)) = -32 + k ∧
      -2 ^ 9 ≤ Int.lor 0 ((-32 + (k : Nat)) * 2 ^ MV_EXPONENT_BITCOUNT) ∧
        Int.lor 0 ((-32 + (k : Nat)) * 2 ^ MV_EXPONENT_BITCOUNT) < 2 ^ 9 := by
  decide +kernel

/-- The mantissa that a value is rounded to. -/
def mantissaOf (s : Nat) (x : Int) : Int := (x + (2 ^ s : Int) >>> (1 : Nat)) >>> s

/-- The values with `s` bits more than the mantissa. -/
@[grind =] def InBlock (s : Nat) (x : Int) : Prop :=
  2 ^ (s + 5) ≤ x ∧ x < 2 ^ (s + 6) ∨ -2 ^ (s + 6) ≤ x ∧ x < -2 ^ (s + 5)

theorem mantissaOf_eq (s : Nat) (x : Int) : mantissaOf s x = (x + 2 ^ s / 2) / 2 ^ s := by
  unfold mantissaOf
  rw [Int.shiftRight_eq_div_pow, Int.shiftRight_eq_div_pow]
  norm_num

/-- The rounded mantissa may carry, but no further than to the next power of two. -/
theorem mantissaOf_bounds {s : Nat} {x : Int} (least : s ≤ 12) (block : InBlock s x) :
    (0 ≤ x → 32 ≤ mantissaOf s x ∧ mantissaOf s x ≤ 64) ∧
      (x < 0 → -64 ≤ mantissaOf s x ∧ mantissaOf s x ≤ -32) := by
  rw [mantissaOf_eq]
  unfold InBlock at block
  interval_cases s <;> norm_num at block ⊢ <;> omega

/-- How a component is rounded. -/
inductive RoundsTo (x : Int) : Int → Prop where
  | small (low : -32 ≤ x) (high : x ≤ 31) (scale : mvFloatScale x = -1) : RoundsTo x x
  | scaled (s : Nat) (least : s ≤ 12) (block : InBlock s x) (scale : mvFloatScale x = s) :
      RoundsTo x (mantissaOf s x * 2 ^ s)

theorem roundMvComp_small {x : Int} (low : -32 ≤ x) (high : x ≤ 31) (scale : mvFloatScale x = -1) :
    roundMvComp x = x ∧ -2 ^ 9 ≤ convertMvFixedToFloat x ∧ convertMvFixedToFloat x < 2 ^ 9 := by
  have code : convertMvFixedToFloat x = Int.lor 0 (x * 2 ^ MV_EXPONENT_BITCOUNT) := by
    unfold convertMvFixedToFloat
    dsimp only
    rw [scale, if_neg (by decide)]
  obtain ⟨k, rfl⟩ : ∃ k : Nat, x = -32 + k := ⟨(x + 32).toNat, by omega⟩
  unfold roundMvComp
  rw [code]
  exact mvFloatCode_small k (by omega)

theorem roundMvComp_scaled {s : Nat} {x : Int} (least : s ≤ 12) (block : InBlock s x)
    (range : -2 ^ 17 ≤ x ∧ x ≤ 2 ^ 17) (scale : mvFloatScale x = s) :
    roundMvComp x = mantissaOf s x * 2 ^ s ∧ -2 ^ 9 ≤ convertMvFixedToFloat x ∧
      convertMvFixedToFloat x < 2 ^ 9 := by
  have code : convertMvFixedToFloat x = mvFloatCode s (mantissaOf s x) (if 0 ≤ x then 0 else -1) := by
    unfold convertMvFixedToFloat
    dsimp only
    rw [scale, if_pos (Int.natCast_nonneg s), sign_eq (by omega) (by omega)]
    rfl
  obtain ⟨positive, negative⟩ := mantissaOf_bounds least block
  unfold roundMvComp
  rw [code]
  by_cases sign : 0 ≤ x
  · obtain ⟨low, high⟩ := positive sign
    obtain ⟨k, carried⟩ : ∃ k : Nat, mantissaOf s x = 32 + k := ⟨(mantissaOf s x - 32).toNat, by omega⟩
    rw [if_pos sign, carried]
    exact (mvFloatCode_spec s (by omega) k (by omega)).1
  · obtain ⟨low, high⟩ := negative (by omega)
    obtain ⟨k, carried⟩ : ∃ k : Nat, mantissaOf s x = -64 + k := ⟨(mantissaOf s x + 64).toNat, by omega⟩
    rw [if_neg sign, carried]
    exact (mvFloatCode_spec s (by omega) k (by omega)).2

/-- Every component is rounded in one of the two ways, and its code fits ten bits. -/
theorem roundMvComp_rounds {x : Int} (low : -2 ^ 17 ≤ x) (high : x ≤ 2 ^ 17) :
    RoundsTo x (roundMvComp x) ∧ -2 ^ 9 ≤ convertMvFixedToFloat x ∧ convertMvFixedToFloat x < 2 ^ 9 := by
  have scale := @mvFloatScale_eq x (by omega) (by omega)
  have value : (magnitude x : Int) = if 0 ≤ x then x else -x - 1 := by
    unfold magnitude
    split <;> omega
  by_cases small : magnitude x < 32
  · have log : Nat.log2 (magnitude x) ≤ 4 := by
      by_cases zero : magnitude x = 0
      · rw [zero]
        decide
      · have less := (Nat.log2_lt (k := 5) zero).mpr small
        omega
    have flat : mvFloatScale x = -1 := by
      rw [scale, Nat.max_eq_right log]
      rfl
    have inside : -32 ≤ x ∧ x ≤ 31 := by
      split at value <;> omega
    obtain ⟨same, code⟩ := roundMvComp_small inside.1 inside.2 flat
    rw [same]
    exact ⟨.small inside.1 inside.2 flat, code⟩
  · have some : magnitude x ≠ 0 := by omega
    have least : 5 ≤ Nat.log2 (magnitude x) := (Nat.le_log2 some).mpr (by omega)
    have most : Nat.log2 (magnitude x) < 18 := by
      rw [Nat.log2_lt some]
      split at value <;> omega
    obtain ⟨s, bits⟩ : ∃ s, Nat.log2 (magnitude x) = s + 5 := ⟨Nat.log2 (magnitude x) - 5, by omega⟩
    obtain ⟨below, above⟩ := (Nat.log2_eq_iff some).mp bits
    have block : InBlock s x := by
      have below' : (2 : Int) ^ (s + 5) ≤ magnitude x := by exact_mod_cast below
      have above' : (magnitude x : Int) < 2 ^ (s + 6) := by exact_mod_cast above
      unfold InBlock
      split at value <;> omega
    have exact_ : mvFloatScale x = s := by
      rw [scale, Nat.max_eq_left (by omega), bits]
      push_cast
      ring
    obtain ⟨same, code⟩ := roundMvComp_scaled (by omega) block ⟨low, high⟩ exact_
    rw [same]
    exact ⟨.scaled s (by omega) block exact_, code⟩

/-- The rounded value stays with the values of its block, or meets the next one. -/
theorem mantissaOf_mul_bounds {s : Nat} {x : Int} (least : s ≤ 12) (block : InBlock s x) :
    (0 ≤ x → 2 ^ (s + 5) ≤ mantissaOf s x * 2 ^ s ∧ mantissaOf s x * 2 ^ s ≤ 2 ^ (s + 6)) ∧
      (x < 0 → -2 ^ (s + 6) ≤ mantissaOf s x * 2 ^ s ∧ mantissaOf s x * 2 ^ s ≤ -2 ^ (s + 5)) := by
  have power : (0 : Int) < 2 ^ s := by positivity
  have bounds := mantissaOf_bounds least block
  have low : (2 : Int) ^ (s + 5) = 32 * 2 ^ s := by rw [pow_add]; ring
  have high : (2 : Int) ^ (s + 6) = 64 * 2 ^ s := by rw [pow_add]; ring
  rw [low, high]
  refine ⟨fun sign => ?_, fun sign => ?_⟩
  · obtain ⟨least', most⟩ := bounds.1 sign
    exact ⟨by nlinarith, by nlinarith⟩
  · obtain ⟨least', most⟩ := bounds.2 sign
    exact ⟨by nlinarith, by nlinarith⟩

/-- A multiple of `2 ^ s` is not rounded. -/
theorem mantissaOf_of_dvd {s : Nat} {x : Int} (multiple : (2 : Int) ^ s ∣ x) :
    mantissaOf s x * 2 ^ s = x := by
  obtain ⟨k, rfl⟩ := multiple
  have power : (0 : Int) < 2 ^ s := by positivity
  rw [mantissaOf_eq, Int.add_comm, Int.add_mul_ediv_left _ _ (ne_of_gt power),
    Int.ediv_eq_zero_of_lt (by omega) (by omega), zero_add, mul_comm]

/-- A rounded value is in the range, but for the power of two behind it. -/
theorem roundMvComp_range {x : Int} (low : -2 ^ 17 ≤ x) (high : x ≤ 2 ^ 17) :
    -2 ^ 17 ≤ roundMvComp x ∧ roundMvComp x ≤ 2 ^ 17 := by
  have rounds := (roundMvComp_rounds low high).1
  generalize roundMvComp x = v at rounds ⊢
  cases rounds with
  | small => exact ⟨low, high⟩
  | scaled s least block =>
      rw [mantissaOf_eq]
      unfold InBlock at block
      interval_cases s <;> norm_num at block ⊢ <;> omega

theorem roundMvComp_idempotent {x : Int} (low : -2 ^ 17 ≤ x) (high : x ≤ 2 ^ 17) :
    roundMvComp (roundMvComp x) = roundMvComp x := by
  have range := roundMvComp_range low high
  generalize value : roundMvComp x = v at range
  have second := (roundMvComp_rounds range.1 range.2).1
  generalize roundMvComp v = w at second
  cases second with
  | small => rfl
  | scaled t least block =>
      refine mantissaOf_of_dvd ?_
      have first := (roundMvComp_rounds low high).1
      rw [value] at first
      cases first with
      | small below above =>
          have power : (2 : Int) ^ 5 ≤ 2 ^ (t + 5) := pow_le_pow_right₀ (by decide) (by omega)
          unfold InBlock at block
          omega
      | scaled s least' own =>
          have bounds := mantissaOf_mul_bounds least' own
          rcases Nat.lt_or_ge s t with more | less
          · -- only the carry to a power of two has more bits
            have power : (2 : Int) ^ (s + 6) ≤ 2 ^ (t + 5) := pow_le_pow_right₀ (by decide) (by omega)
            have positive : (0 : Int) < 2 ^ (s + 6) := by positivity
            have top : mantissaOf s x * 2 ^ s = 2 ^ (s + 6) := by
              have positive' : (0 : Int) < 2 ^ (s + 5) := by positivity
              have positive'' : (0 : Int) < 2 ^ (t + 6) := by positivity
              unfold InBlock at block
              rcases Int.lt_or_le x 0 with sign | sign
              · have := bounds.2 sign
                omega
              · have := bounds.1 sign
                omega
            have next : t ≤ s + 6 := by
              by_contra beyond
              have larger : (2 : Int) ^ (s + 6) < 2 ^ (t + 5) :=
                pow_lt_pow_right₀ (by decide) (by omega)
              unfold InBlock at block
              omega
            rw [top]
            exact pow_dvd_pow 2 next
          · exact Dvd.dvd.mul_left (pow_dvd_pow 2 less) _

theorem mantissaOf_mono (s : Nat) {x y : Int} (le : x ≤ y) :
    mantissaOf s x * 2 ^ s ≤ mantissaOf s y * 2 ^ s := by
  have power : (0 : Int) < 2 ^ s := by positivity
  rw [mantissaOf_eq, mantissaOf_eq]
  exact mul_le_mul_of_nonneg_right (Int.ediv_le_ediv power (by omega)) power.le

theorem roundMvComp_mono {x y : Int} (low : -2 ^ 17 ≤ x) (high : y ≤ 2 ^ 17) (le : x ≤ y) :
    roundMvComp x ≤ roundMvComp y := by
  have least : ∀ s : Nat, (2 : Int) ^ 5 ≤ 2 ^ (s + 5) := fun s =>
    pow_le_pow_right₀ (by decide) (by omega)
  have first := (roundMvComp_rounds low (by omega : x ≤ 2 ^ 17)).1
  have second := (roundMvComp_rounds (by omega : -2 ^ 17 ≤ y) high).1
  generalize roundMvComp x = v at first
  generalize roundMvComp y = w at second
  cases first with
  | small below above =>
      cases second with
      | small => exact le
      | scaled t leastT blockT =>
          have bounds := mantissaOf_mul_bounds leastT blockT
          have powerT := least t
          unfold InBlock at blockT
          have sign : 0 ≤ y := by omega
          have := bounds.1 sign
          omega
  | scaled s leastS blockS =>
      have boundsS := mantissaOf_mul_bounds leastS blockS
      have powerS := least s
      cases second with
      | small below above =>
          unfold InBlock at blockS
          have sign : x < 0 := by omega
          have := boundsS.2 sign
          omega
      | scaled t leastT blockT =>
          have boundsT := mantissaOf_mul_bounds leastT blockT
          have powerT := least t
          rcases Nat.lt_trichotomy s t with less | rfl | more
          · have step : (2 : Int) ^ (s + 6) ≤ 2 ^ (t + 5) := pow_le_pow_right₀ (by decide) (by omega)
            unfold InBlock at blockS blockT
            have sign : 0 ≤ y := by omega
            have above := boundsT.1 sign
            rcases Int.lt_or_le x 0 with negative | positive
            · have := boundsS.2 negative
              omega
            · have := boundsS.1 positive
              omega
          · exact mantissaOf_mono s le
          · have step : (2 : Int) ^ (t + 6) ≤ 2 ^ (s + 5) := pow_le_pow_right₀ (by decide) (by omega)
            unfold InBlock at blockS blockT
            have sign : x < 0 := by omega
            have below := boundsS.2 sign
            rcases Int.lt_or_le y 0 with negative | positive
            · have := boundsT.2 negative
              omega
            · have := boundsT.1 positive
              omega

/-- How far a component is rounded. -/
theorem roundMvComp_error {x : Int} (low : -2 ^ 17 ≤ x) (high : x ≤ 2 ^ 17) :
    (|x| < MV_MANTISSA_LIMIT → roundMvComp x = x) ∧
      2 * |roundMvComp x - x| ≤ 2 ^ (mvFloatScale x).toNat ∧
        (mvFloatScale x < 0 → roundMvComp x = x) := by
  have rounds := (roundMvComp_rounds low high).1
  generalize roundMvComp x = v at rounds
  cases rounds with
  | small =>
      refine ⟨fun _ => rfl, ?_, fun _ => rfl⟩
      rw [sub_self, abs_zero]
      positivity
  | scaled s least block scale =>
      rw [scale]
      refine ⟨fun small => ?_, ?_, fun negative => absurd negative (by omega)⟩
      · have power : (2 : Int) ^ 5 ≤ 2 ^ (s + 5) := pow_le_pow_right₀ (by decide) (by omega)
        have limit : MV_MANTISSA_LIMIT = 2 ^ 5 := rfl
        obtain ⟨above, below⟩ := abs_lt.mp small
        unfold InBlock at block
        omega
      · rw [mantissaOf_eq, Int.toNat_natCast]
        have half : -(2 ^ s : Int) ≤ 2 * ((x + 2 ^ s / 2) / 2 ^ s * 2 ^ s - x) ∧
            2 * ((x + 2 ^ s / 2) / 2 ^ s * 2 ^ s - x) ≤ 2 ^ s := by
          clear block scale
          interval_cases s <;> norm_num <;> omega
        rw [← abs_two, ← abs_mul, abs_two]
        exact abs_le.mpr half

/-- Only the last values of the range are rounded out of it. -/
theorem roundMvComp_inRange_iff {x : Int} (low : -2 ^ 17 ≤ x) (high : x ≤ 2 ^ 17 - 1) :
    (-2 ^ 17 ≤ roundMvComp x ∧ roundMvComp x ≤ 2 ^ 17 - 1) ↔ x < 2 ^ 17 - 2 ^ 10 := by
  have least := (roundMvComp_range low (by omega : x ≤ 2 ^ 17)).1
  constructor
  · intro inside
    by_contra beyond
    have mono := roundMvComp_mono (by decide : (-2 ^ 17 : Int) ≤ 2 ^ 17 - 2 ^ 10)
      (by omega : x ≤ 2 ^ 17) (by omega)
    have carry : roundMvComp (2 ^ 17 - 2 ^ 10) = 2 ^ 17 := by decide
    omega
  · intro below
    have mono := roundMvComp_mono low (by decide : (2 ^ 17 - 2 ^ 10 - 1 : Int) ≤ 2 ^ 17) (by omega)
    have last : roundMvComp (2 ^ 17 - 2 ^ 10 - 1) = 2 ^ 17 - 2 ^ 11 := by decide
    exact ⟨least, by omega⟩

/-! ## Scaling by the distances -/

theorem abs_tdiv_le (a b : Int) : |a.tdiv b| ≤ |a| := by
  have small := Int.natAbs_tdiv_le_natAbs a b
  rw [Int.abs_eq_natAbs, Int.abs_eq_natAbs]
  exact_mod_cast small

theorem div32_bounded {a b bound : Int} (some : b ≠ 0) (small : |a| ≤ bound) (fits : bound < 2 ^ 31) :
    Succeeds (div32 a b) fun q => q = a.tdiv b ∧ |q| ≤ bound := by
  unfold div32
  rw [if_neg some]
  exact int32_bounded (le_trans (abs_tdiv_le a b) small) fits

theorem abs_clip (a : Int) : |Clip3 (-128) 127 a| ≤ 128 := by
  unfold Clip3
  exact abs_le.mpr ⟨by omega, by omega⟩

theorem clip_ne_zero {a : Int} (some : a ≠ 0) : Clip3 (-128) 127 a ≠ 0 := by
  unfold Clip3
  omega

/-- What the distances must be: they are computed, and the collocated one is a divisor. -/
structure Distances (iCurrPOC iCurrRefPOC iColPOC iColRefPOC : Int) : Prop where
  current : Fits32 (iCurrPOC - iCurrRefPOC)
  collocated : Fits32 (iColPOC - iColRefPOC)
  divisor : iColPOC - iColRefPOC ≠ 0

theorem xGetDistScaleFactor_succeeds {iCurrPOC iCurrRefPOC iColPOC iColRefPOC : Int}
    (distances : Distances iCurrPOC iCurrRefPOC iColPOC iColRefPOC) :
    Succeeds (xGetDistScaleFactor iCurrPOC iCurrRefPOC iColPOC iColRefPOC) fun iScale =>
      |iScale| ≤ 2 ^ 12 ∧
        (iScale = 4096 ↔ iColPOC - iColRefPOC = iCurrPOC - iCurrRefPOC) := by
  unfold xGetDistScaleFactor
  refine (int32_succeeds distances.collocated).bind fun iDiffPocD sameD => ?_
  refine (int32_succeeds distances.current).bind fun iDiffPocB sameB => ?_
  rw [← sameD, ← sameB]
  refine Succeeds.ite (fun same => Succeeds.pure ⟨by decide, by simp [same]⟩) fun differ => ?_
  have some : Clip3 (-128) 127 iDiffPocD ≠ 0 := clip_ne_zero (sameD ▸ distances.divisor)
  refine (div32_bounded (by decide) (abs_clip iDiffPocD) (by decide)).bind fun half halved => ?_
  have dividend : abs (0x4000 + |half|) ≤ 0x4000 + 128 :=
    abs_add_le_add (by decide) (by simpa using halved.2)
  refine (int32_bounded dividend (by decide)).bind fun sum summed => ?_
  refine (div32_bounded some summed.2 (by decide)).bind fun iX divided => ?_
  refine (int32_bounded (abs_mul_le_mul (abs_clip iDiffPocB) divided.2) (by decide)).bind
    fun product multiplied => ?_
  have rounded : |product + 32| ≤ 128 * (0x4000 + 128) + 32 := abs_add_le_add multiplied.2 (by decide)
  refine (int32_bounded rounded (by decide)).bind fun result _ => ?_
  refine Succeeds.pure ⟨?_, ?_⟩
  · unfold Clip3
    exact abs_le.mpr ⟨by omega, by omega⟩
  · -- the clip ends below the factor that stands for equal distances
    unfold Clip3
    omega

theorem scaleMvComp_succeeds {iScale v : Int} (scale : |iScale| ≤ 2 ^ 12) (small : |v| ≤ 2 ^ 17) :
    Succeeds (scaleMvComp iScale v) fun r => -2 ^ 17 ≤ r ∧ r ≤ 2 ^ 17 - 1 := by
  unfold scaleMvComp
  refine (int32_bounded (abs_mul_le_mul scale small) (by decide)).bind fun product multiplied => ?_
  refine (int32_bounded (abs_add_le_add multiplied.2 (by decide : |(128 : Int)| ≤ 128))
    (by decide)).bind fun sum summed => ?_
  have one : |if 0 ≤ product then (1 : Int) else 0| ≤ 1 := by split <;> decide
  refine (int32_bounded (abs_sub_le_add summed.2 one) (by decide)).bind fun result _ => ?_
  refine Succeeds.pure ?_
  unfold Clip3
  omega

theorem scaleMv_inRange {iScale : Int} {mv : Mv} (scale : |iScale| ≤ 2 ^ 12)
    (hor : |mv.hor| ≤ 2 ^ 17) (ver : |mv.ver| ≤ 2 ^ 17) : Succeeds (mv.scaleMv iScale) Mv.InRange := by
  unfold Mv.scaleMv
  refine (scaleMvComp_succeeds scale hor).bind fun mvx insideX => ?_
  refine (scaleMvComp_succeeds scale ver).bind fun mvy insideY => ?_
  exact Succeeds.pure ⟨insideX, insideY⟩

/-! ## The vector that is returned -/

variable (slice : CurrSlice)

theorem colMotion_mi {slice : CurrSlice} {isIBC : Bool} {eRefPicList : RefPicList} {sbFlag : Bool}
    {mi : MotionInfo} {col : ColMotion}
    (motion : colMotion slice isIBC eRefPicList sbFlag mi = some col) : col.mi = mi := by
  unfold colMotion at motion
  generalize (if slice.getCheckLDC then eRefPicList else listOf slice.getColFromL0Flag) = eCol at motion
  dsimp only at motion
  split at motion
  · cases motion
  split at motion
  · split at motion
    · cases motion
    · cases motion
      rfl
  split at motion
  · cases motion
    rfl
  split at motion
  · cases motion
  · cases motion
    rfl

/-- The stored motion, and the slice of the collocated picture that it belongs to. -/
def StoredMotion (isIBC : Bool) (eRefPicList : RefPicList) (pos : Position) (sbFlag : Bool)
    (col : ColMotion) (colSlice : ColSlice) : Prop :=
  ∃ picture, pColPic slice = some picture ∧
    colMotion slice isIBC eRefPicList sbFlag (picture.getMotionInfo (colocatedPos pos)) = some col ∧
      picture.slices.find? (fun s => s.getIndependentSliceIdx =
        (picture.getMotionInfo (colocatedPos pos)).sliceIdx) = some colSlice

/-- The stored vector is used without a scale: for long-term pictures, and at equal distances. -/
def Unscaled (eRefPicList : RefPicList) (refIdx : Int) (colSlice : ColSlice) (col : ColMotion) : Prop :=
  slice.longTerm eRefPicList refIdx = true ∨
    colSlice.getPOC - colSlice.getRefPOC col.eColRefPicList col.iColRefIdx =
      slice.getPOC - slice.getRefPOC eRefPicList refIdx

/-- The components that are rounded inside the range. -/
def RoundsInside (mv : Mv) : Prop := mv.hor < 2 ^ 17 - 2 ^ 10 ∧ mv.ver < 2 ^ 17 - 2 ^ 10

theorem cColMv_inRange_iff {col : ColMotion} (stored : (col.mi.mv col.eColRefPicList).InRange) :
    col.cColMv.InRange ↔ RoundsInside (col.mi.mv col.eColRefPicList) := by
  obtain ⟨hor, ver⟩ := stored
  exact and_congr (roundMvComp_inRange_iff hor.1 hor.2) (roundMvComp_inRange_iff ver.1 ver.2)

theorem abs_roundMvComp {x : Int} (low : -2 ^ 17 ≤ x) (high : x ≤ 2 ^ 17 - 1) :
    |roundMvComp x| ≤ 2 ^ 17 :=
  abs_le.mpr (roundMvComp_range low (by omega))

theorem temporalVector_inRange {eRefPicList : RefPicList} {refIdx : Int} {colSlice : ColSlice}
    {col : ColMotion} (stored : (col.mi.mv col.eColRefPicList).InRange)
    (distances : slice.longTerm eRefPicList refIdx = false →
      Distances slice.getPOC (slice.getRefPOC eRefPicList refIdx) colSlice.getPOC
        (colSlice.getRefPOC col.eColRefPicList col.iColRefIdx)) :
    Succeeds (temporalVector slice eRefPicList refIdx colSlice col) fun r => ∀ v, r = some v →
      (v.InRange ↔ (Unscaled slice eRefPicList refIdx colSlice col →
        RoundsInside (col.mi.mv col.eColRefPicList))) := by
  have unscaled : Unscaled slice eRefPicList refIdx colSlice col →
      (col.cColMv.InRange ↔ (Unscaled slice eRefPicList refIdx colSlice col →
        RoundsInside (col.mi.mv col.eColRefPicList))) := fun holds => by
    rw [cColMv_inRange_iff stored]
    exact ⟨fun inside _ => inside, fun inside => inside holds⟩
  unfold temporalVector
  refine Succeeds.ite (fun _ => Succeeds.pure fun v none => nomatch none) fun _ => ?_
  refine Succeeds.ite (fun long => Succeeds.pure fun v returned => ?_) fun short => ?_
  · obtain rfl := Option.some.inj returned
    exact unscaled (.inl long)
  · have short' : slice.longTerm eRefPicList refIdx = false := by simpa using short
    refine (xGetDistScaleFactor_succeeds (distances short')).bind fun distscale factor => ?_
    refine Succeeds.ite (fun same => Succeeds.pure fun v returned => ?_) fun differ => ?_
    · obtain rfl := Option.some.inj returned
      exact unscaled (.inr (factor.2.mp same))
    · have scaled : Succeeds (col.cColMv.scaleMv _) Mv.InRange :=
        scaleMv_inRange factor.1 (abs_roundMvComp stored.1.1 stored.1.2)
          (abs_roundMvComp stored.2.1 stored.2.2)
      refine scaled.bind fun rcMv inside => Succeeds.pure fun v returned => ?_
      obtain rfl := Option.some.inj returned
      refine ⟨fun _ holds => ?_, fun _ => inside⟩
      rcases holds with long | same
      · exact absurd long short
      · exact absurd (factor.2.mpr same) differ

/-- Rounding is idempotent, monotone and close to its argument, scaling stays in the range, and a
temporal vector leaves it exactly where a stored component is used without a scale and is rounded
up to `2 ^ 17`. -/
theorem temporalMv_inRange_iff (isIBC : Bool) (eRefPicList : RefPicList) (pos : Position)
    (refIdx : Int) (sbFlag : Bool)
    (stored : ∀ picture, pColPic slice = some picture → ∀ pos X,
      ((picture.getMotionInfo pos).mv X).InRange)
    (distances : ∀ col colSlice, StoredMotion slice isIBC eRefPicList pos sbFlag col colSlice →
      slice.longTerm eRefPicList refIdx = false →
        Distances slice.getPOC (slice.getRefPOC eRefPicList refIdx) colSlice.getPOC
          (colSlice.getRefPOC col.eColRefPicList col.iColRefIdx)) :
    (∀ x : Int, -2 ^ 17 ≤ x → x ≤ 2 ^ 17 - 1 →
      roundMvComp (roundMvComp x) = roundMvComp x ∧
        (∀ y, x ≤ y → y ≤ 2 ^ 17 - 1 → roundMvComp x ≤ roundMvComp y) ∧
        (|x| < MV_MANTISSA_LIMIT → roundMvComp x = x) ∧
        2 * |roundMvComp x - x| ≤ 2 ^ (mvFloatScale x).toNat ∧
        -2 ^ (MV_MANTISSA_BITCOUNT + MV_EXPONENT_BITCOUNT - 1) ≤ convertMvFixedToFloat x ∧
        convertMvFixedToFloat x < 2 ^ (MV_MANTISSA_BITCOUNT + MV_EXPONENT_BITCOUNT - 1)) ∧
    (∀ iCurrPOC iCurrRefPOC iColPOC iColRefPOC, Distances iCurrPOC iCurrRefPOC iColPOC iColRefPOC →
      Succeeds (xGetDistScaleFactor iCurrPOC iCurrRefPOC iColPOC iColRefPOC) fun iScale =>
        ∀ mv : Mv, mv.InRange → Succeeds (mv.scaleMv iScale) Mv.InRange) ∧
    (getColocatedMVP slice isIBC eRefPicList pos refIdx sbFlag = .error "Slice segment not found" ∧
        (∀ col colSlice, ¬ StoredMotion slice isIBC eRefPicList pos sbFlag col colSlice) ∨
      Succeeds (getColocatedMVP slice isIBC eRefPicList pos refIdx sbFlag) fun r => ∀ v, r = some v →
        (v.InRange ↔ ∀ col colSlice, StoredMotion slice isIBC eRefPicList pos sbFlag col colSlice →
          Unscaled slice eRefPicList refIdx colSlice col →
            RoundsInside (col.mi.mv col.eColRefPicList))) := by
  refine ⟨fun x low high => ?_, fun _ _ _ _ short => ?_, ?_⟩
  · have below : x ≤ 2 ^ 17 := by omega
    obtain ⟨exactly, error, -⟩ := roundMvComp_error low below
    refine ⟨roundMvComp_idempotent low below, fun y le inside => ?_, exactly, error,
      (roundMvComp_rounds low below).2⟩
    exact roundMvComp_mono low (by omega) le
  · exact (xGetDistScaleFactor_succeeds short).weaken fun iScale factor mv range =>
      scaleMv_inRange factor.1 range.abs_hor range.abs_ver
  · unfold getColocatedMVP
    cases picked : pColPic slice with
    | none => exact .inr (Succeeds.pure fun v returned => nomatch returned)
    | some picture =>
        dsimp only
        cases motion : colMotion slice isIBC eRefPicList sbFlag
            (picture.getMotionInfo (colocatedPos pos)) with
        | none => exact .inr (Succeeds.pure fun v returned => nomatch returned)
        | some col =>
            -- all the conditions on stored motion are about this picture and this motion
            have only : ∀ col' colSlice',
                StoredMotion slice isIBC eRefPicList pos sbFlag col' colSlice' → col' = col ∧
                  picture.slices.find? (fun s => s.getIndependentSliceIdx =
                    (picture.getMotionInfo (colocatedPos pos)).sliceIdx) = some colSlice' := by
              rintro col' colSlice' ⟨picture', picked', motion', found'⟩
              obtain rfl := Option.some.inj (picked.symm.trans picked')
              exact ⟨Option.some.inj (motion'.symm.trans motion), found'⟩
            dsimp only
            cases found : picture.slices.find? fun s => s.getIndependentSliceIdx =
                (picture.getMotionInfo (colocatedPos pos)).sliceIdx with
            | none =>
                refine .inl ⟨rfl, fun col' colSlice' holds => ?_⟩
                exact nomatch found.symm.trans (only col' colSlice' holds).2
            | some colSlice =>
                have here : StoredMotion slice isIBC eRefPicList pos sbFlag col colSlice :=
                  ⟨picture, picked, motion, found⟩
                have motionOf : col.mi = picture.getMotionInfo (colocatedPos pos) :=
                  colMotion_mi motion
                refine .inr ((temporalVector_inRange slice (motionOf ▸ stored picture picked _ _)
                  (distances col colSlice here)).weaken fun r inside v returned => ?_)
                rw [inside v returned]
                constructor
                · intro holds col' colSlice' other
                  obtain ⟨rfl, found'⟩ := only col' colSlice' other
                  obtain rfl := Option.some.inj (found.symm.trans found')
                  exact holds
                · intro all
                  exact all col colSlice here

/-! ## At the end of the range -/

/-- A motion of list 0 with a stored component. -/
def storedMotion (hor : Int) : MotionInfo :=
  { MotionInfo.default with
      isInter := true
      interDir := 1
      mv := fun _ => ⟨hor, 0⟩
      refIdx := fun X => if X = .REF_PIC_LIST_0 then 0 else -1 }

/-- A collocated picture with one motion, four pictures after its reference. -/
def onePicture (hor : Int) : ColPicture where
  getMotionInfo _ := storedMotion hor
  slices := [{ getIndependentSliceIdx := 0, getPOC := 4, getRefPOC := fun _ _ => 0
               getIsUsedAsLongTerm := fun _ _ => false }]

/-- A slice four pictures after its reference, too. -/
def equalDistances (hor : Int) : CurrSlice where
  isInterB := true
  getPOC := 8
  getColFromL0Flag := true
  getCheckLDC := true
  colPic _ := some (onePicture hor)
  getRefPOC _ _ := 4
  longTerm _ _ := false

theorem equalDistances_stored {hor : Int} (low : -2 ^ 17 ≤ hor) (high : hor ≤ 2 ^ 17 - 1) :
    ∀ picture, pColPic (equalDistances hor) = some picture → ∀ pos X,
      ((picture.getMotionInfo pos).mv X).InRange := by
  intro picture picked pos X
  obtain rfl := Option.some.inj picked
  have zero : (-2 ^ 17 : Int) ≤ 0 ∧ (0 : Int) ≤ 2 ^ 17 - 1 := by decide
  exact ⟨⟨low, high⟩, zero⟩

theorem equalDistances_distances (hor : Int) (col : ColMotion) (colSlice : ColSlice)
    (holds : StoredMotion (equalDistances hor) false .REF_PIC_LIST_0 ⟨0, 0⟩ false col colSlice) :
    Distances 8 4 colSlice.getPOC (colSlice.getRefPOC col.eColRefPicList col.iColRefIdx) := by
  obtain ⟨picture, picked, -, found⟩ := holds
  obtain rfl := Option.some.inj picked
  obtain rfl := Option.some.inj found
  have four : Distances 8 4 4 0 := ⟨by decide, by decide, by decide⟩
  exact four

theorem temporalMv_inRange_iff_equalDistances :
    ∃ v, getColocatedMVP (equalDistances 1000) false .REF_PIC_LIST_0 ⟨0, 0⟩ 0 false = .ok (some v) ∧
      v.InRange := by
  refine ⟨⟨1008, 0⟩, by decide, ?_⟩
  obtain ⟨-, -, run⟩ := temporalMv_inRange_iff (equalDistances 1000) false .REF_PIC_LIST_0 ⟨0, 0⟩ 0
    false (equalDistances_stored (by decide) (by decide))
    (fun col colSlice holds _ => equalDistances_distances 1000 col colSlice holds)
  rcases run with ⟨failed, -⟩ | ⟨r, returned, inside⟩
  · exact absurd failed (by decide)
  · have value : getColocatedMVP (equalDistances 1000) false .REF_PIC_LIST_0 ⟨0, 0⟩ 0 false =
        .ok (some ⟨1008, 0⟩) := by decide
    have same : r = some ⟨1008, 0⟩ := Except.ok.inj (returned.symm.trans value)
    refine (inside ⟨1008, 0⟩ same).mpr ?_
    rintro col colSlice ⟨picture, picked, motion, -⟩ -
    obtain rfl := Option.some.inj picked
    have stored : col.mi = storedMotion 1000 := colMotion_mi motion
    rw [stored]
    have small : RoundsInside ⟨1000, 0⟩ := ⟨by decide, by decide⟩
    exact small

/-- A stored component at the end of the range is returned as `2 ^ 17`. -/
theorem temporalMv_out_of_range :
    ¬ ∀ (slice : CurrSlice) (isIBC : Bool) (eRefPicList : RefPicList) (pos : Position) (refIdx : Int)
      (sbFlag : Bool) (v : Mv),
      (∀ picture, pColPic slice = some picture → ∀ pos X,
        ((picture.getMotionInfo pos).mv X).InRange) →
      (∀ col colSlice, StoredMotion slice isIBC eRefPicList pos sbFlag col colSlice →
        Distances slice.getPOC (slice.getRefPOC eRefPicList refIdx) colSlice.getPOC
          (colSlice.getRefPOC col.eColRefPicList col.iColRefIdx)) →
      getColocatedMVP slice isIBC eRefPicList pos refIdx sbFlag = .ok (some v) → v.InRange := by
  intro always
  have inside := always (equalDistances 131071) false .REF_PIC_LIST_0 ⟨0, 0⟩ 0 false ⟨131072, 0⟩
    (equalDistances_stored (by decide) (by decide)) (equalDistances_distances 131071)
    (by decide)
  exact absurd inside.1.2 (by decide)

end Vtm.Motion
