import Vtm.Quant.HiddenSigns

/-!
# Block DPCM and transform skip

`invResDPCM` inverts `fwdResDPCM`, and at QP 4 the quantiser of a transform skip block is the
identity, except where sign data hiding adjusts a level: `codeTransformSkip_lossless_iff`.
-/

namespace Vtm

open Vtm.Std ChromaQpMappingTableParams SignBitHiding

namespace TransformBlock

variable (tu : TransformBlock)

/-- The differences of the samples of a block, along its rows or its columns. -/
@[grind =] def differences (resi : Nat → Int) (n : Nat) : Int :=
  if tu.bdpcmMode = 1 then
    if n % tu.width = 0 then resi n else resi n - resi (n - 1)
  else if n / tu.width = 0 then resi n else resi n - resi (n - tu.width)

section Steps

theorem width_pos : 0 < tu.width := Nat.two_pow_pos _

theorem height_pos : 0 < tu.height := Nat.two_pow_pos _

theorem mem_dpcmSteps {n : Nat} (inside : n < tu.area) : n ∈ tu.dpcmSteps ↔
    (if tu.bdpcmMode = 1 then n % tu.width ≠ 0 else n / tu.width ≠ 0) := by
  obtain ⟨x, column, y, row, rfl⟩ := exists_raster inside
  unfold dpcmSteps
  rw [raster_mod y column, raster_div y column]
  split
  · simp only [List.mem_flatMap, List.mem_map, List.mem_reverse, List.mem_range]
    constructor
    · rintro ⟨y', -, x', inner, same⟩
      have start := (raster_inj (show x' + 1 < tu.width by omega) column same).1
      omega
    · intro inner
      exact ⟨y, row, x - 1, by omega, by omega⟩
  · simp only [List.mem_flatMap, List.mem_map, List.mem_reverse, List.mem_range]
    constructor
    · rintro ⟨y', -, x', inner, same⟩
      have start := (raster_inj inner column same).2
      omega
    · intro inner
      refine ⟨y - 1, by omega, x, column, ?_⟩
      rw [Nat.sub_add_cancel (Nat.pos_of_ne_zero inner)]

/-- The differences are formed from the end, so that each finds its samples. -/
theorem forwards_dpcmSteps : Forwards tu.dpcmSource tu.dpcmSteps := by
  unfold Forwards dpcmSteps dpcmSource
  by_cases horizontal : tu.bdpcmMode = 1
  · simp only [horizontal, if_true]
    rw [List.pairwise_flatMap]
    constructor
    · intro y _
      rw [List.pairwise_map, List.pairwise_reverse]
      refine List.pairwise_lt_range.imp fun {x x'} less => ?_
      omega
    · refine List.pairwise_lt_range.imp fun {y y'} less => ?_
      simp only [List.mem_map, List.mem_reverse, List.mem_range]
      rintro _ ⟨x, inner, rfl⟩ _ ⟨x', inner', rfl⟩
      have rows := Nat.mul_le_mul_right tu.width (Nat.succ_le_of_lt less)
      rw [Nat.succ_mul] at rows
      omega
  · simp only [horizontal, if_false]
    rw [List.pairwise_flatMap]
    constructor
    · intro y _
      rw [List.pairwise_map]
      refine (List.pairwise_lt_range.imp_of_mem fun {x x'} memX memX' less => ?_)
      rw [List.mem_range] at memX memX'
      rw [Nat.succ_mul]
      omega
    · rw [List.pairwise_reverse]
      refine List.pairwise_lt_range.imp fun {y y'} less => ?_
      simp only [List.mem_map, List.mem_range]
      rintro _ ⟨x, inner, rfl⟩ _ ⟨x', inner', rfl⟩
      have rows := Nat.mul_le_mul_right tu.width (Nat.succ_le_of_lt less)
      rw [Nat.succ_mul] at rows
      rw [Nat.succ_mul, Nat.succ_mul]
      omega

end Steps

theorem differences_congr {resi resi' : Nat → Int} (same : ∀ n < tu.area, resi n = resi' n)
    {n : Nat} (inside : n < tu.area) : tu.differences resi n = tu.differences resi' n := by
  unfold differences
  rw [same n inside, same (n - 1) (by omega), same (n - tu.width) (by omega)]

theorem fwdResDPCM_eq (coeffs : Nat → Int) {n : Nat} (inside : n < tu.area) :
    tu.fwdResDPCM coeffs n = tu.differences coeffs n := by
  have swept := @sweep_eq _ _ _ tu.dpcmSource (fun a b : Int => a - b) _ tu.forwards_dpcmSteps coeffs n
  refine Eq.trans swept ?_
  unfold differences dpcmSource
  have member := tu.mem_dpcmSteps inside
  by_cases horizontal : tu.bdpcmMode = 1
  · simp only [horizontal, if_true] at member ⊢
    simp only [member, ite_not]
  · simp only [horizontal, if_false] at member ⊢
    simp only [member, ite_not]

/-! ## Summing up the differences -/

/-- Samples of a row or a column, in the coefficient range. -/
theorem sumLevels_eq {level sample : Nat → Int} {count : Nat} (first : level 0 = sample 0)
    (step : ∀ k < count, level (k + 1) = sample (k + 1) - sample k)
    (inRange : ∀ k ≤ count, entropyCodingMinimum ≤ sample k ∧ sample k ≤ entropyCodingMaximum) :
    sumLevels level count = sample count := by
  induction count with
  | zero => exact first
  | succ count ih =>
      obtain ⟨low, high⟩ := inRange (count + 1) le_rfl
      rw [sumLevels, ih (fun k less => step k (Nat.lt_succ_of_lt less))
        (fun k le => inRange k (Nat.le_succ_of_le le)), step count (Nat.lt_succ_self count)]
      unfold entropyCodingMinimum at low
      unfold entropyCodingMaximum at high
      unfold Clip3
      omega

/-- Samples strictly inside the range are the sums of their differences only. -/
theorem levels_of_sumLevels {level sample : Nat → Int} {count : Nat}
    (sums : ∀ k ≤ count, sumLevels level k = sample k)
    (inRange : ∀ k ≤ count, entropyCodingMinimum < sample k ∧ sample k < entropyCodingMaximum)
    {k : Nat} (less : k < count) : level (k + 1) = sample (k + 1) - sample k := by
  have here := sums (k + 1) less
  obtain ⟨low, high⟩ := inRange (k + 1) less
  rw [sumLevels, sums k (Nat.le_of_lt less)] at here
  unfold entropyCodingMinimum at low
  unfold entropyCodingMaximum at high
  unfold Clip3 at here
  omega

section Lines

variable (coeffs sample : Nat → Int)

/-- `differences` and `invResDPCM` at a sample of a row. -/
theorem row_eq (horizontal : tu.bdpcmMode = 1) (y : Nat) {x : Nat} (column : x < tu.width) :
    tu.invResDPCM coeffs (y * tu.width + x) = sumLevels (fun x => coeffs (y * tu.width + x)) x ∧
      tu.differences sample (y * tu.width + x) =
        if x = 0 then sample (y * tu.width + x)
        else sample (y * tu.width + x) - sample (y * tu.width + x - 1) := by
  unfold invResDPCM differences
  simp only [horizontal, if_true, raster_mod y column, raster_div y column, and_self]

/-- `differences` and `invResDPCM` at a sample of a column. -/
theorem column_eq (vertical : tu.bdpcmMode ≠ 1) (y : Nat) {x : Nat} (column : x < tu.width) :
    tu.invResDPCM coeffs (y * tu.width + x) = sumLevels (fun y => coeffs (y * tu.width + x)) y ∧
      tu.differences sample (y * tu.width + x) =
        if y = 0 then sample (y * tu.width + x)
        else sample (y * tu.width + x) - sample (y * tu.width + x - tu.width) := by
  unfold invResDPCM differences
  simp only [vertical, if_false, raster_mod y column, raster_div y column, and_self]

variable {coeffs sample}

/-- The sums of the differences are the samples. -/
theorem invResDPCM_eq (levels : ∀ n < tu.area, coeffs n = tu.differences sample n)
    (inRange : ∀ n < tu.area, entropyCodingMinimum ≤ sample n ∧ sample n ≤ entropyCodingMaximum) :
    ∀ n < tu.area, tu.invResDPCM coeffs n = sample n := by
  intro n inside
  obtain ⟨x, column, y, row, rfl⟩ := exists_raster inside
  by_cases horizontal : tu.bdpcmMode = 1
  · rw [(tu.row_eq coeffs sample horizontal y column).1]
    have level {k : Nat} (less : k < tu.width) := (levels _ (raster_lt less row)).trans
      (tu.row_eq coeffs sample horizontal y less).2
    exact @sumLevels_eq _ (fun x => sample (y * tu.width + x)) _
      ((level tu.width_pos).trans (if_pos rfl))
      (fun k less => (level (by omega)).trans (if_neg (Nat.succ_ne_zero k)))
      (fun k le => inRange _ (raster_lt (by omega) row))
  · rw [(tu.column_eq coeffs sample horizontal y column).1]
    have level {k : Nat} (less : k < tu.height) := (levels _ (raster_lt column less)).trans
      (tu.column_eq coeffs sample horizontal k column).2
    refine @sumLevels_eq _ (fun y => sample (y * tu.width + x)) _
      ((level tu.height_pos).trans (if_pos rfl)) (fun k less => ?_)
      (fun k le => inRange _ (raster_lt column (by omega)))
    have above : (k + 1) * tu.width + x - tu.width = k * tu.width + x := by
      rw [Nat.succ_mul]
      omega
    exact (level (by omega)).trans ((if_neg (Nat.succ_ne_zero k)).trans (by rw [above]))

/-- Only the differences sum up to samples strictly inside the range. -/
theorem eq_differences_of_invResDPCM (sums : ∀ n < tu.area, tu.invResDPCM coeffs n = sample n)
    (inRange : ∀ n < tu.area, entropyCodingMinimum < sample n ∧ sample n < entropyCodingMaximum) :
    ∀ n < tu.area, coeffs n = tu.differences sample n := by
  intro n inside
  obtain ⟨x, column, y, row, rfl⟩ := exists_raster inside
  by_cases horizontal : tu.bdpcmMode = 1
  · have sum (k : Nat) (le : k ≤ x) : sumLevels (fun x => coeffs (y * tu.width + x)) k =
        sample (y * tu.width + k) :=
      (tu.row_eq coeffs sample horizontal y (by omega)).1.symm.trans
        (sums _ (raster_lt (by omega) row))
    rw [(tu.row_eq coeffs sample horizontal y column).2]
    cases x with
    | zero => exact sum 0 le_rfl
    | succ x =>
        rw [if_neg (Nat.succ_ne_zero x)]
        exact @levels_of_sumLevels _ (fun x => sample (y * tu.width + x)) _ sum
          (fun k le => inRange _ (raster_lt (by omega) row)) _ (Nat.lt_succ_self x)
  · have sum (k : Nat) (le : k ≤ y) : sumLevels (fun y => coeffs (y * tu.width + x)) k =
        sample (k * tu.width + x) :=
      (tu.column_eq coeffs sample horizontal k column).1.symm.trans
        (sums _ (raster_lt column (by omega)))
    rw [(tu.column_eq coeffs sample horizontal y column).2]
    cases y with
    | zero => exact sum 0 le_rfl
    | succ y =>
        have above : (y + 1) * tu.width + x - tu.width = y * tu.width + x := by
          rw [Nat.succ_mul]
          omega
        rw [if_neg (Nat.succ_ne_zero y), above]
        exact @levels_of_sumLevels _ (fun y => sample (y * tu.width + x)) _ sum
          (fun k le => inRange _ (raster_lt column (by omega))) _ (Nat.lt_succ_self y)

end Lines

end TransformBlock

namespace Quant

/-! ## Transform skip at QP 4 -/

/-- The residual samples fit the bit depth and a sign. -/
def FitsDepth (channelBitDepth : Int) (tu : TransformBlock) (resi : Nat → Int) : Prop :=
  ∀ n < tu.area, -2 ^ channelBitDepth.toNat ≤ resi n ∧ resi n < 2 ^ channelBitDepth.toNat

/-- What the quantiser makes of a residual: the samples, or their differences. -/
def plainLevels (tu : TransformBlock) (resi : Nat → Int) : Nat → Int :=
  if tu.bdpcm then tu.differences resi else resi

section

variable {quant : Quant} {params : SliceParams} {tu : TransformBlock} {cQP : QpParam}
  (transform : tu.isTransformSkip = true) (qp : cQP.Qp true = 4)

include transform in
/-- No scaling list applies. -/
theorem getUseScalingList_transformSkip (lfnstApplied disableSM : Bool) :
    quant.getUseScalingList tu.isTransformSkip lfnstApplied disableSM = false := by
  unfold getUseScalingList
  rw [transform]
  simp

include transform qp

/-- At QP 4 the scale of the quantiser is its unit. -/
theorem quantisation_unit :
    (quant.quantisation params tu cQP false).iQBits = 14 ∧
      ∀ n, (quant.quantisation params tu cQP false).scale n = 2 ^ 14 := by
  have sqrt : tu.needsSqrt2Scale = false := by
    unfold TransformBlock.needsSqrt2Scale
    rw [transform]
    simp
  unfold quantisation quantIQBits QpParam.per QpParam.rem
  rw [transform, qp, sqrt]
  exact ⟨rfl, fun _ => rfl⟩

theorem dequantScaling_unit :
    (quant.dequantScaling params.toPictureParams tu cQP false).rightShift = 6 ∧
      ∀ n, (quant.dequantScaling params.toPictureParams tu cQP false).scale n = 2 ^ 6 := by
  have sqrt : tu.needsSqrt2Scale = false := by
    unfold TransformBlock.needsSqrt2Scale
    rw [transform]
    simp
  unfold dequantScaling dequantRightShift QpParam.per QpParam.rem
  rw [transform, qp, sqrt]
  exact ⟨rfl, fun _ => rfl⟩

theorem exactMagnitude_unit (resi : Nat → Int) (n : Nat) :
    (quant.quantisation params tu cQP false).exactMagnitude resi n = |resi n| := by
  obtain ⟨bits, scale⟩ := @quantisation_unit quant params tu cQP transform qp
  set q := quant.quantisation params tu cQP false
  have offset := @Quantisation.iAdd_nonneg q
  have below := Quantisation.iAdd_lt (q := q) (by omega)
  rw [bits] at below
  rw [Quantisation.exactMagnitude, Quantisation.tmpLevel, scale, bits, Int.shiftRight_eq_div_pow]
  omega

/-- The dequantiser only clips. -/
theorem exactCoeff_unit (level : Int) (n : Nat) :
    (quant.dequantScaling params.toPictureParams tu cQP false).exactCoeff level n =
      Clip3 (-2 ^ 15) (2 ^ 15 - 1) level := by
  obtain ⟨shift, scale⟩ := @dequantScaling_unit quant params tu cQP transform qp
  set s := quant.dequantScaling params.toPictureParams tu cQP false
  have bits : s.inputBits = 15 := by
    unfold Scaling.inputBits
    rw [shift]
    rfl
  have exact_ (x : Int) : roundShift (x * 2 ^ 6) 6 = x := by
    have cancel : ((x * 2 ^ 6 : Int) : ℚ) * 2 ^ (-6 : Int) = (x : ℚ) := by
      push_cast
      norm_num
      ring
    rw [roundShift, cancel, round_intCast]
  rw [Scaling.exactCoeff, scale, shift, bits, exact_]
  unfold Clip3 maxLog2TrDynamicRange
  omega

end

/-- Sign data hiding finds nothing to adjust. -/
def LeavesLevels (params : SliceParams) (tu : TransformBlock) (resi : Nat → Int) : Prop :=
  params.signDataHidingEnabledFlag = false ∨ ∑ n ∈ Finset.range tu.area, |resi n| < 2 ∨
    ∀ a < tu.numSubSets, SignHidden ((tu.subBlock a).level (plainLevels tu resi)) tu.sbbSize

section Lossless

variable {quant : Quant} {params : SliceParams} {tu : TransformBlock} {cQP : QpParam}
  {resi : Nat → Int} (depth : 8 ≤ params.channelBitDepth ∧ params.channelBitDepth ≤ 12)
  (transform : tu.isTransformSkip = true) (qp : cQP.Qp true = 4)
  (fits : FitsDepth params.channelBitDepth tu resi)

include depth fits in
/-- The samples have 13 bits. -/
theorem FitsDepth.mem {n : Nat} (inside : n < tu.area) : -2 ^ 12 ≤ resi n ∧ resi n < 2 ^ 12 := by
  obtain ⟨low, high⟩ := fits n inside
  have power : (2 : Int) ^ params.channelBitDepth.toNat ≤ 2 ^ 12 :=
    pow_le_pow_right₀ (by decide) (by omega)
  omega

include depth fits in
/-- The samples are found again exactly from their plain levels. -/
theorem inverse_eq_iff (levels : Nat → Int) :
    (∀ n < tu.area, (if tu.bdpcm then tu.invResDPCM levels else levels) n = resi n) ↔
      ∀ n < tu.area, levels n = plainLevels tu resi n := by
  unfold plainLevels
  have inRange {n : Nat} (inside : n < tu.area) :
      entropyCodingMinimum < resi n ∧ resi n < entropyCodingMaximum := by
    obtain ⟨low, high⟩ := FitsDepth.mem depth fits inside
    unfold entropyCodingMinimum entropyCodingMaximum maxLog2TrDynamicRange
    omega
  cases tu.bdpcm with
  | false => exact Iff.rfl
  | true =>
      constructor
      · exact fun sums => tu.eq_differences_of_invResDPCM sums fun n inside => inRange inside
      · exact fun plain => tu.invResDPCM_eq plain fun n inside =>
          ⟨le_of_lt (inRange inside).1, le_of_lt (inRange inside).2⟩

include depth transform qp fits in
/-- What is left of a block depends on its levels only. -/
theorem codeTransformSkip_of_levels {disableSM : Bool}
    (read : disableSMForLFNST params.toPictureParams = .ok disableSM) {maxTrSize : Nat}
    (narrow : tu.width ≤ maxTrSize) {memory levels : Nat → Int} {uiAbsSum : Int}
    (run : quant.quantLevels params tu cQP resi memory 0 = .ok (levels, uiAbsSum)) :
    quant.codeTransformSkip params tu cQP maxTrSize memory resi =
        .ok ((List.range tu.area).map resi) ↔
      ∀ n < tu.area, levels n = plainLevels tu resi n := by
  have scaling := @fits_dequantScaling quant params.toPictureParams tu cQP depth
    (by rw [transform, qp]; decide) false (fun on => by cases on)
  set inverse := if tu.bdpcm then tu.invResDPCM levels else levels
  have coeffs : quant.dequant params.toPictureParams tu cQP maxTrSize levels =
      .ok ((List.range tu.area).map fun n =>
        (quant.dequantScaling params.toPictureParams tu cQP false).exactCoeff (inverse n) n) := by
    rw [dequant_eq_dequantBlock quant params.toPictureParams tu cQP read narrow levels,
      getUseScalingList_transformSkip transform]
    exact Scaling.dequantBlock_eq scaling _
  have sample (level : Int) (n : Nat) : ((quant.dequantScaling params.toPictureParams tu cQP
      false).exactCoeff level n).bmod (2 ^ 16) = Clip3 (-2 ^ 15) (2 ^ 15 - 1) level := by
    rw [exactCoeff_unit transform qp]
    obtain ⟨low, high⟩ := @Clip3_mem (-2 ^ 15) (2 ^ 15 - 1) (by decide) level
    exact Int.bmod_eq_of_le (by omega) (by omega)
  have left : quant.codeTransformSkip params tu cQP maxTrSize memory resi =
      .ok ((List.range tu.area).map fun n => Clip3 (-2 ^ 15) (2 ^ 15 - 1) (inverse n)) := by
    unfold codeTransformSkip xTransformSkip xITransformSkip
    rw [run]
    simp only [bind, Except.bind, coeffs, pure, Except.pure, List.map_map, Function.comp_def, sample]
  have back : (∀ n < tu.area, inverse n = resi n) ↔
      ∀ n < tu.area, levels n = plainLevels tu resi n := inverse_eq_iff depth fits levels
  rw [left, ← back, Except.ok.injEq, List.map_inj_left]
  constructor
  · intro same n inside
    have here := same n (List.mem_range.mpr inside)
    obtain ⟨low, high⟩ := FitsDepth.mem depth fits inside
    unfold Clip3 at here
    omega
  · intro same n member
    have inside := List.mem_range.mp member
    obtain ⟨low, high⟩ := FitsDepth.mem depth fits inside
    rw [same n inside]
    unfold Clip3
    omega

include depth transform qp fits in
/-- The loop makes the samples the levels, and block DPCM their differences. -/
theorem quantiseBlock_unit (lfnst : tu.lfnstIdx = 0) (memory : Nat → Int) :
    let block := quantiseBlock tu (quant.quantisation params tu cQP false) resi memory 0
    ∀ n < tu.area, (if tu.bdpcm then tu.fwdResDPCM block.piQCoef else block.piQCoef) n =
      plainLevels tu resi n := by
  intro block
  obtain ⟨bits, scale⟩ := @quantisation_unit quant params tu cQP transform qp
  have level : ∀ n < tu.area, block.piQCoef n = resi n := fun n inside => by
    obtain ⟨low, high⟩ := FitsDepth.mem depth fits inside
    have magnitude := @exactMagnitude_unit quant params tu cQP transform qp resi n
    have whole : n < maxNumberOfCoeffs tu := by
      unfold maxNumberOfCoeffs
      rw [if_neg (by omega)]
      exact inside
    have abs_ := abs_cases (resi n)
    have quantised : (quant.quantisation params tu cQP false).quantisedMagnitude resi n =
        |resi n| := by
      rw [Quantisation.quantisedMagnitude_eq (by rw [scale]; decide) (by rw [magnitude]; omega),
        magnitude]
    refine (if_pos whole).trans ?_
    unfold Quantisation.level Quantisation.quantisedCoefficient entropyCodingMinimum
      entropyCodingMaximum maxLog2TrDynamicRange Clip3
    rw [quantised]
    split <;> omega
  intro n inside
  unfold plainLevels
  cases tu.bdpcm with
  | false => exact level n inside
  | true =>
      refine (tu.fwdResDPCM_eq block.piQCoef inside).trans ?_
      exact tu.differences_congr level inside

include depth transform qp fits in
/-- The sum that decides whether the block is looked at. -/
theorem quantiseBlock_unit_uiAbsSum (lfnst : tu.lfnstIdx = 0)
    (small : tu.log2Width ≤ 5 ∧ tu.log2Height ≤ 5) (memory : Nat → Int) :
    (quantiseBlock tu (quant.quantisation params tu cQP false) resi memory 0).uiAbsSum =
      ∑ n ∈ Finset.range tu.area, |resi n| := by
  have magnitude := @exactMagnitude_unit quant params tu cQP transform qp resi
  have scale := (@quantisation_unit quant params tu cQP transform qp).2
  have whole : maxNumberOfCoeffs tu = tu.area := by
    unfold maxNumberOfCoeffs
    rw [if_neg (by omega)]
  have area : tu.area ≤ 2 ^ 5 * 2 ^ 5 :=
    Nat.mul_le_mul (Nat.pow_le_pow_right (by decide) small.1)
      (Nat.pow_le_pow_right (by decide) small.2)
  have sums : ∑ n ∈ Finset.range tu.area,
      (quant.quantisation params tu cQP false).exactMagnitude resi n =
        ∑ n ∈ Finset.range tu.area, |resi n| := Finset.sum_congr rfl fun n _ => magnitude n
  have bound : ∑ n ∈ Finset.range tu.area, |resi n| ≤ tu.area * 2 ^ 12 := by
    have each := Finset.sum_le_card_nsmul (Finset.range tu.area) (fun n => |resi n|) (2 ^ 12)
      fun n member => abs_le.mpr (by
        obtain ⟨low, high⟩ := FitsDepth.mem depth fits (Finset.mem_range.mp member)
        exact ⟨low, le_of_lt high⟩)
    rwa [Finset.card_range, nsmul_eq_mul] at each
  rw [quantiseBlock_uiAbsSum, whole, Quantisation.absSum_eq (fun n _ => by rw [scale]; decide)
    (by rw [sums]; omega), sums]

include depth transform qp fits in
/-- Sign data hiding keeps the plain levels exactly if it finds nothing to adjust. -/
theorem quantLevels_unit (lfnst : tu.lfnstIdx = 0)
    (small : tu.log2Width ≤ 5 ∧ tu.log2Height ≤ 5) {disableSM : Bool}
    (read : disableSMForLFNST params.toPictureParams = .ok disableSM) (memory : Nat → Int) :
    ∃ levels uiAbsSum, quant.quantLevels params tu cQP resi memory 0 = .ok (levels, uiAbsSum) ∧
      ((∀ n < tu.area, levels n = plainLevels tu resi n) ↔ LeavesLevels params tu resi) := by
  set block := quantiseBlock tu (quant.quantisation params tu cQP false) resi memory 0 with named
  set piQCoef := if tu.bdpcm then tu.fwdResDPCM block.piQCoef else block.piQCoef with stored
  have plain : ∀ n < tu.area, piQCoef n = plainLevels tu resi n :=
    @quantiseBlock_unit quant params tu cQP resi depth transform qp fits lfnst memory
  have sum : block.uiAbsSum = ∑ n ∈ Finset.range tu.area, |resi n| :=
    quantiseBlock_unit_uiAbsSum depth transform qp fits lfnst small memory
  have run {levels : Nat → Int} (finish : finishLevels params tu block resi = some levels) :=
    @quantLevels_of_finish quant params tu cQP _ read resi memory 0 levels (by
      rw [getUseScalingList_transformSkip transform]
      exact finish)
  unfold LeavesLevels
  rw [← sum]
  by_cases tested : params.signDataHidingEnabledFlag ∧ block.uiAbsSum ≥ 2
  · have zero : ∀ scanIdx, tu.numCoeff ≤ scanIdx → scanIdx < tu.area →
        piQCoef (tu.rasterPos scanIdx) = 0 := fun scanIdx beyond within => by
      have large := tu.large_of_numCoeff_lt (by omega)
      have width : tu.width ≤ 2 ^ 5 := Nat.pow_le_pow_right (by decide) small.1
      have height : tu.height ≤ 2 ^ 5 := Nat.pow_le_pow_right (by decide) small.2
      omega
    obtain ⟨after, hidden, frame, treated⟩ :=
      TransformBlock.xSignBitHidingHDQ_spec resi block.deltaU zero
    refine ⟨after, _, run (by
      unfold finishLevels
      dsimp only
      rw [if_pos tested]
      exact hidden), ?_⟩
    have same (a : Nat) : ∀ m < tu.sbbSize,
        (tu.subBlock a).level piQCoef m = (tu.subBlock a).level (plainLevels tu resi) m :=
      fun m _ => plain _ (tu.rasterPos_lt_area _)
    constructor
    · intro kept
      refine Or.inr (Or.inr fun a inside => signHidden_congr (same a) ?_)
      refine (SubBlock.treated_unchanged_iff (treated a inside)).mp fun m inner => ?_
      exact (kept _ (tu.rasterPos_lt_area _)).trans (same a m inner).symm
    · rintro (off | few | parities) n inside
      · rw [off] at tested
        exact absurd tested.1 (by decide)
      · omega
      · refine Eq.trans ?_ (plain n inside)
        by_cases covered : ∃ a < tu.numSubSets, ∃ k < tu.sbbSize, n = (tu.subBlock a).blockPos k
        · obtain ⟨a, insideA, k, inner, rfl⟩ := covered
          refine (SubBlock.treated_unchanged_iff (treated a insideA)).mpr ?_ k inner
          exact signHidden_congr (fun m inner => (same a m inner).symm) (parities a insideA)
        · exact frame n fun a insideA k inner here => covered ⟨a, insideA, k, inner, here⟩
  · refine ⟨piQCoef, _, run (by
      unfold finishLevels
      dsimp only
      rw [if_neg tested]), ?_⟩
    constructor
    · intro _
      cases flag : params.signDataHidingEnabledFlag with
      | false => exact Or.inl rfl
      | true => exact Or.inr (Or.inl (by
          by_contra many
          exact tested ⟨flag, by omega⟩))
    · exact fun _ => plain

end Lossless

/-- `invResDPCM` inverts `fwdResDPCM`. A residual block that fits the bit depth comes back from
transform skip at QP 4 exactly if sign data hiding finds nothing to adjust. -/
theorem codeTransformSkip_lossless_iff (quant : Quant) (params : SliceParams) (tu : TransformBlock)
    (depth : 8 ≤ params.channelBitDepth ∧ params.channelBitDepth ≤ 12) {cQP : QpParam}
    (transform : tu.isTransformSkip = true) (small : tu.log2Width ≤ 5 ∧ tu.log2Height ≤ 5)
    (lfnst : tu.lfnstIdx = 0) (qp : cQP.Qp true = 4) {disableSM : Bool}
    (read : disableSMForLFNST params.toPictureParams = .ok disableSM) {maxTrSize : Nat}
    (narrow : tu.width ≤ maxTrSize) (memory : Nat → Int) {resi : Nat → Int}
    (fits : FitsDepth params.channelBitDepth tu resi) :
    (∀ (block : TransformBlock) (levels : Nat → Int), (∀ n < block.area, InRange levels n) →
        ∀ n < block.area, block.invResDPCM (block.fwdResDPCM levels) n = levels n) ∧
      (quant.codeTransformSkip params tu cQP maxTrSize memory resi =
          .ok ((List.range tu.area).map resi) ↔ LeavesLevels params tu resi) := by
  constructor
  · intro block levels inRange
    exact block.invResDPCM_eq (fun n inside => block.fwdResDPCM_eq levels inside) inRange
  · obtain ⟨levels, uiAbsSum, run, kept⟩ :=
      quantLevels_unit depth transform qp fits lfnst small read memory
    rw [codeTransformSkip_of_levels depth transform qp fits read narrow run]
    exact kept

/-- A luma block of 4x4 samples with transform skip. -/
def skip4x4 (bdpcmMode : Nat) : TransformBlock where
  __ := luma8x8
  log2Width := 2
  log2Height := 2
  mtsIdx := DQIntern.MTS_SKIP
  width_le := by decide
  height_le := by decide
  supported := by decide
  bdpcmMode := bdpcmMode

/-- Samples at both ends of the scan of a block of 4x4 samples. -/
def ends (n : Nat) : Int := if n = 0 then 1 else if n = 15 then 2 else 0

theorem codeTransformSkip_lossless_ends :
    (∀ (block : TransformBlock) (levels : Nat → Int), (∀ n < block.area, InRange levels n) →
        ∀ n < block.area, block.invResDPCM (block.fwdResDPCM levels) n = levels n) ∧
      (allLarge.codeTransformSkip (hidingSlice 8 false) (skip4x4 1) (QpParam.create true id 4 0 0 0 0)
          64 (fun _ => 0) ends = .ok ((List.range (skip4x4 1).area).map ends) ↔
        LeavesLevels (hidingSlice 8 false) (skip4x4 1) ends) :=
  codeTransformSkip_lossless_iff allLarge (hidingSlice 8 false) (skip4x4 1) (by decide) (by decide)
    (by decide) rfl (by decide) rfl (by decide) (fun _ => 0) (by
      unfold FitsDepth
      decide)

/-- The parity of the samples hides the wrong sign, and one of them is changed. -/
theorem not_lossless_ends :
    ¬ allLarge.codeTransformSkip (hidingSlice 8 false) (skip4x4 0) (QpParam.create true id 4 0 0 0 0)
        64 (fun _ => 0) ends = .ok ((List.range (skip4x4 0).area).map ends) := by
  decide +kernel

end Quant

end Vtm
