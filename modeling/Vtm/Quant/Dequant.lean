import Vtm.Common.Dequant
import Vtm.Quant.ScalingMatrices
import Vtm.Std.Rounding

/-!
# Dequantisation in 32 bits

The clip of the levels leaves room for the product, the rounding offset and the shift, so
that `dequant` computes what it would over unbounded integers: `dequant_exact`.
-/

namespace Vtm

open Vtm.Std ChromaQpMappingTableParams

theorem Clip3_mem {low high : Int} (le : low ≤ high) (a : Int) :
    low ≤ Clip3 low high a ∧ Clip3 low high a ≤ high := by
  unfold Clip3
  omega

namespace Quant

theorem intermediate_of_mem {z : Int} (low : -2 ^ 31 ≤ z) (high : z < 2 ^ 31) :
    intermediate z = .ok z :=
  if_pos ⟨low, high⟩

theorem shiftOne_of_lt {shift : Nat} (small : shift < 31) : shiftOne shift = .ok (2 ^ shift) :=
  if_pos small

/-- The product of a level and a scale. -/
theorem mul_mem {c scale : Int} {t b : Nat} (low : -2 ^ t ≤ c) (high : c < 2 ^ t)
    (nonneg : 0 ≤ scale) (small : scale < 2 ^ b) :
    -2 ^ (t + b) ≤ c * scale ∧ c * scale < 2 ^ (t + b) := by
  have power : (0 : Int) < 2 ^ t := by positivity
  have sum : (2 : Int) ^ (t + b) = 2 ^ t * 2 ^ b := pow_add ..
  rw [sum]
  constructor
  · calc -(2 ^ t * 2 ^ b) ≤ -(2 ^ t * scale) :=
          Int.neg_le_neg (Int.mul_le_mul_of_nonneg_left (le_of_lt small) (le_of_lt power))
      _ = -2 ^ t * scale := by ring
      _ ≤ c * scale := Int.mul_le_mul_of_nonneg_right low nonneg
  · calc c * scale ≤ 2 ^ t * scale := Int.mul_le_mul_of_nonneg_right (le_of_lt high) nonneg
      _ < 2 ^ t * 2 ^ b := Int.mul_lt_mul_of_pos_left small power

namespace Scaling

/-- The budget of the loops: the clipped level and the scale leave room for the shift. -/
structure Fits (s : Scaling) (bits numSamplesInBlock : Nat) : Prop where
  coefBits : s.coefBits = bits
  bits_le : bits ≤ 15
  shift_ge : (bits : Int) - 31 ≤ s.rightShift
  shift_le : s.rightShift ≤ 15
  scale_nonneg : ∀ n < numSamplesInBlock, 0 ≤ s.scale n
  scale_lt : ∀ n < numSamplesInBlock, s.scale n < 2 ^ bits

/-- The levels are clipped to this number of bits and a sign. -/
def inputBits (s : Scaling) : Nat := min maxLog2TrDynamicRange (31 + s.rightShift - s.coefBits).toNat

/-- What `dequant` computes over unbounded integers. -/
def exactCoeff (s : Scaling) (level : Int) (n : Nat) : Int :=
  Clip3 (-2 ^ maxLog2TrDynamicRange) (2 ^ maxLog2TrDynamicRange - 1)
    (roundShift (Clip3 (-2 ^ s.inputBits) (2 ^ s.inputBits - 1) level * s.scale n) s.rightShift)

variable {s : Scaling} {bits numSamplesInBlock : Nat} (fits : s.Fits bits numSamplesInBlock)
include fits

theorem inputBits_spec : s.inputBits ≤ 15 ∧ (s.inputBits : Int) ≤ 31 + s.rightShift - bits := by
  have ge := fits.shift_ge
  rw [inputBits, fits.coefBits, maxLog2TrDynamicRange]
  omega

theorem inputRange_eq : s.inputRange = .ok (-2 ^ s.inputBits, 2 ^ s.inputBits - 1) := by
  have ge := fits.shift_ge
  have le := fits.shift_le
  have le' := fits.bits_le
  have word : (s.targetInputBitDepth + (2 ^ 32 - 1)) % 2 ^ 32 = s.inputBits := by
    rw [targetInputBitDepth, inputBits, fits.coefBits, maxLog2TrDynamicRange,
      Int.emod_eq_of_lt (by omega) (by omega)]
    omega
  have small := (inputBits_spec fits).1
  rw [inputRange, word, shiftOne_of_lt (by omega)]
  rfl

/-- A round does not overflow. -/
theorem dequantCoeff_eq (piQCoef : Nat → Int) {n : Nat} (inside : n < numSamplesInBlock) :
    s.dequantCoeff (-2 ^ s.inputBits, 2 ^ s.inputBits - 1) piQCoef n =
      .ok (s.exactCoeff (piQCoef n) n) := by
  obtain ⟨small, room⟩ := inputBits_spec fits
  have power : (0 : Int) < 2 ^ s.inputBits := by positivity
  obtain ⟨low, high⟩ :=
    @Clip3_mem (-2 ^ s.inputBits) (2 ^ s.inputBits - 1) (by omega) (piQCoef n)
  have nonneg := fits.scale_nonneg n inside
  have scale := fits.scale_lt n inside
  have bits_le := fits.bits_le
  have shift_le := fits.shift_le
  rw [dequantCoeff, exactCoeff]
  dsimp only
  set c := Clip3 (-2 ^ s.inputBits) (2 ^ s.inputBits - 1) (piQCoef n)
  obtain ⟨lower, upper⟩ := mul_mem low (by omega) nonneg scale
  have wide : (2 : Int) ^ (s.inputBits + bits) ≤ 2 ^ 30 :=
    pow_le_pow_right₀ (by decide) (by omega)
  rw [intermediate_of_mem (by omega) (by omega)]
  by_cases right : s.rightShift > 0
  · obtain ⟨k, shift⟩ : ∃ k : Nat, s.rightShift = (k + 1 : Nat) := ⟨(s.rightShift - 1).toNat, by omega⟩
    have offset : (2 : Int) ^ k ≤ 2 ^ 14 := pow_le_pow_right₀ (by decide) (by omega)
    have positive : (0 : Int) < 2 ^ k := by positivity
    have amount : (s.rightShift - 1).toNat = k := by omega
    have amount' : s.rightShift.toNat = k + 1 := by omega
    simp only [bind, Except.bind, pure, Except.pure]
    rw [if_pos right, amount, amount', shiftOne_of_lt (by omega)]
    dsimp only
    rw [intermediate_of_mem (by omega) (by omega)]
    dsimp only
    rw [shiftRight_add_half, ← shift]
  · obtain ⟨k, shift⟩ : ∃ k : Nat, s.rightShift = -(k : Int) := ⟨(-s.rightShift).toNat, by omega⟩
    have amount : (-s.rightShift).toNat = k := by omega
    have positive : (0 : Int) < 2 ^ k := by positivity
    have whole : (2 : Int) ^ (s.inputBits + bits) * 2 ^ k ≤ 2 ^ 31 := by
      rw [← pow_add]
      exact pow_le_pow_right₀ (by decide) (by omega)
    have lower' : -(2 ^ (s.inputBits + bits) * 2 ^ k) ≤ c * s.scale n * 2 ^ k := by
      rw [← Int.neg_mul]
      exact Int.mul_le_mul_of_nonneg_right lower (le_of_lt positive)
    have upper' : c * s.scale n * 2 ^ k < 2 ^ (s.inputBits + bits) * 2 ^ k :=
      Int.mul_lt_mul_of_pos_right upper positive
    simp only [bind, Except.bind, pure, Except.pure]
    rw [if_neg right, amount, intermediate_of_mem (by omega) (by omega)]
    dsimp only
    rw [mul_pow_eq_roundShift, ← shift]

theorem dequantBlock_eq (piQCoef : Nat → Int) :
    s.dequantBlock numSamplesInBlock piQCoef =
      .ok ((List.range numSamplesInBlock).map fun n => s.exactCoeff (piQCoef n) n) := by
  have all {ns : List Nat} (inside : ∀ n ∈ ns, n < numSamplesInBlock) :
      ns.mapM (s.dequantCoeff (-2 ^ s.inputBits, 2 ^ s.inputBits - 1) piQCoef) =
        .ok (ns.map fun n => s.exactCoeff (piQCoef n) n) := by
    induction ns with
    | nil => rfl
    | cons n ns ih =>
        obtain ⟨here, later⟩ := List.forall_mem_cons.mp inside
        rw [List.mapM_cons, dequantCoeff_eq fits piQCoef here, ih later]
        rfl
  rw [dequantBlock, inputRange_eq fits]
  exact all fun n member => List.mem_range.mp member

end Scaling

end Quant

theorem QpParam.create_mem (luma : Bool) (mapped : Int → Int)
    {qpBdOffset minQpPrimeTsMinus4 : Int} (offset : 0 ≤ qpBdOffset)
    (signalled : minQpPrimeTsMinus4 ≤ 48) (qpy chromaQPOffset dqp : Int) (ts : Bool) :
    0 ≤ (create luma mapped qpy qpBdOffset minQpPrimeTsMinus4 chromaQPOffset dqp).Qp ts ∧
      (create luma mapped qpy qpBdOffset minQpPrimeTsMinus4 chromaQPOffset dqp).Qp ts ≤
        63 + qpBdOffset := by
  unfold create
  dsimp only
  generalize (if luma then _ else _ : Int) = baseQp
  obtain ⟨low, high⟩ := @Clip3_mem 0 (ChromaQpMappingTableParams.MAX_QP + qpBdOffset)
    (by unfold ChromaQpMappingTableParams.MAX_QP; omega) (baseQp + dqp)
  unfold ChromaQpMappingTableParams.MAX_QP at *
  cases ts with
  | true => simp only [if_true]; omega
  | false => simp only [Bool.false_eq_true, if_false]; omega

namespace Quant

/-- The matrix that `dequant` selects holds an 8-bit list. -/
def EightBit (quant : Quant) (tu : TransformBlock) (rem : Nat) : Prop :=
  ∀ n < tu.area, ∃ c : Int, 0 ≤ c ∧ c ≤ 255 ∧
    quant.dequantCoef tu.matrixId rem n =
      g_invQuantScales (blockIsNotPowerOf4 tu.width tu.height) rem * c

/-- The lists with 8-bit entries. -/
structure EightBitList (scalingList : ScalingList) : Prop where
  coef : ∀ id i, 0 ≤ scalingList.scalingListCoef id i ∧ scalingList.scalingListCoef id i ≤ 255
  dc : ∀ id, 0 ≤ scalingList.scalingListDC id ∧ scalingList.scalingListDC id ≤ 255

theorem g_invQuantScales_mem (notPowerOf4 : Bool) {rem : Nat} (lt : rem < 6) :
    0 ≤ g_invQuantScales notPowerOf4 rem ∧ g_invQuantScales notPowerOf4 rem ≤ 102 := by
  have all : ∀ notPowerOf4 : Bool, ∀ rem : Fin 6,
      0 ≤ g_invQuantScales notPowerOf4 rem ∧ g_invQuantScales notPowerOf4 rem ≤ 102 := by decide
  exact all notPowerOf4 ⟨rem, lt⟩

section Exact

variable {quant : Quant} {params : PictureParams} {tu : TransformBlock} {cQP : QpParam}
  (depth : 8 ≤ params.channelBitDepth ∧ params.channelBitDepth ≤ 12)
  (qp : 0 ≤ cQP.Qp tu.isTransformSkip ∧ cQP.Qp tu.isTransformSkip ≤ 87)

include qp in
theorem per_mem : 0 ≤ cQP.per tu.isTransformSkip ∧ cQP.per tu.isTransformSkip ≤ 14 ∧
    cQP.rem tu.isTransformSkip < 6 := by
  unfold QpParam.per QpParam.rem
  rw [Int.tdiv_eq_ediv_of_nonneg qp.1, Int.tmod_eq_emod_of_nonneg qp.1]
  omega

include depth qp in
theorem dequantRightShift_mem (enableScalingLists : Bool) :
    -15 ≤ dequantRightShift params tu cQP enableScalingLists ∧
      dequantRightShift params tu cQP enableScalingLists ≤
        if enableScalingLists then 14 else 10 := by
  obtain ⟨perLow, perHigh, -⟩ := per_mem qp
  have width := tu.width_le
  have height := tu.height_le
  have transformShift : -4 ≤ tu.getTransformShift params.channelBitDepth +
        (if tu.needsSqrt2Scale then -1 else 0) ∧
      tu.getTransformShift params.channelBitDepth +
        (if tu.needsSqrt2Scale then -1 else 0) ≤ 7 := by
    unfold TransformBlock.getTransformShift maxLog2TrDynamicRange
    split <;> omega
  unfold dequantRightShift IQUANT_SHIFT LOG2_SCALING_LIST_NEUTRAL_VALUE
  dsimp only
  generalize tu.getTransformShift params.channelBitDepth +
    (if tu.needsSqrt2Scale then -1 else 0) = iTransformShift at *
  split <;> split <;> omega

include depth qp in
/-- The variables of `dequant` keep the budget. -/
theorem fits_dequantScaling {enableScalingLists : Bool}
    (eightBit : enableScalingLists = true → quant.EightBit tu (cQP.rem tu.isTransformSkip)) :
    (quant.dequantScaling params tu cQP enableScalingLists).Fits
      (if enableScalingLists then 15 else 7) tu.area := by
  obtain ⟨low, high⟩ := dequantRightShift_mem depth qp enableScalingLists
  obtain ⟨-, -, rem⟩ := per_mem qp
  cases enableScalingLists with
  | true =>
      have scale {n : Nat} (inside : n < tu.area) :
          0 ≤ quant.dequantCoef tu.matrixId (cQP.rem tu.isTransformSkip) n ∧
            quant.dequantCoef tu.matrixId (cQP.rem tu.isTransformSkip) n < 2 ^ 15 := by
        obtain ⟨c, nonneg, small, entry⟩ := eightBit rfl n inside
        obtain ⟨nonneg', small'⟩ :=
          g_invQuantScales_mem (blockIsNotPowerOf4 tu.width tu.height) rem
        rw [entry]
        constructor
        · exact Int.mul_nonneg nonneg' nonneg
        · calc _ ≤ 102 * c := Int.mul_le_mul_of_nonneg_right small' nonneg
            _ < 2 ^ 15 := by omega
      exact
        { coefBits := rfl
          bits_le := le_rfl
          shift_ge := by
            change (15 : Int) - 31 ≤ dequantRightShift params tu cQP true
            omega
          shift_le := le_trans high (by decide)
          scale_nonneg := fun n inside => (scale inside).1
          scale_lt := fun n inside => (scale inside).2 }
  | false =>
      obtain ⟨nonneg, small⟩ := g_invQuantScales_mem tu.needsSqrt2Scale rem
      exact
        { coefBits := rfl
          bits_le := by decide
          shift_ge := by
            change (7 : Int) - 31 ≤ dequantRightShift params tu cQP false
            omega
          shift_le := le_trans high (by decide)
          scale_nonneg := fun n _ => nonneg
          scale_lt := fun n _ => by
            change g_invQuantScales tu.needsSqrt2Scale (cQP.rem tu.isTransformSkip) < 2 ^ 7
            omega }

end Exact

/-- The checks of `dequant` pass for a block that is not too wide. -/
theorem dequant_eq_dequantBlock (quant : Quant) (params : PictureParams) (tu : TransformBlock)
    (cQP : QpParam) {disableSM : Bool} (read : disableSMForLFNST params = .ok disableSM)
    {maxTrSize : Nat} (narrow : tu.width ≤ maxTrSize) (coeffs : Nat → Int) :
    quant.dequant params tu cQP maxTrSize coeffs =
      (quant.dequantScaling params tu cQP
        (quant.getUseScalingList tu.isTransformSkip (tu.lfnstIdx > 0) disableSM)).dequantBlock
          tu.area (if tu.bdpcm then tu.invResDPCM coeffs else coeffs) := by
  have listType : ¬ tu.getScalingListType ≥ SCALING_LIST_NUM := by
    have lt := tu.compID_lt
    unfold TransformBlock.getScalingListType SCALING_LIST_NUM
    split <;> omega
  have width : ¬ tu.width > maxTrSize := Nat.not_lt.mpr narrow
  rw [dequant, read]
  simp only [bind, Except.bind, CHECK, listType, width, if_false]

/-- `Quant::dequant` does not overflow, and stores the exact coefficients. -/
theorem dequant_exact (quant : Quant) (params : PictureParams) (tu : TransformBlock)
    (depth : 8 ≤ params.channelBitDepth ∧ params.channelBitDepth ≤ 12) (mapped : Int → Int)
    (qpy chromaQPOffset dqp : Int) {minQpPrimeTsMinus4 : Int} (signalled : minQpPrimeTsMinus4 ≤ 48)
    {disableSM : Bool} (read : disableSMForLFNST params = .ok disableSM) {maxTrSize : Nat}
    (narrow : tu.width ≤ maxTrSize) :
    let cQP := QpParam.create tu.luma mapped qpy (6 * (params.channelBitDepth - 8))
      minQpPrimeTsMinus4 chromaQPOffset dqp
    let enableScalingLists :=
      quant.getUseScalingList tu.isTransformSkip (tu.lfnstIdx > 0) disableSM
    (enableScalingLists = true → quant.EightBit tu (cQP.rem tu.isTransformSkip)) →
      ∀ coeffs : Nat → Int, quant.dequant params tu cQP maxTrSize coeffs =
        .ok ((List.range tu.area).map fun n =>
          (quant.dequantScaling params tu cQP enableScalingLists).exactCoeff
            ((if tu.bdpcm then tu.invResDPCM coeffs else coeffs) n) n) := by
  intro cQP enableScalingLists eightBit coeffs
  have qp : 0 ≤ cQP.Qp tu.isTransformSkip ∧ cQP.Qp tu.isTransformSkip ≤ 87 := by
    obtain ⟨low, high⟩ := @QpParam.create_mem tu.luma mapped (6 * (params.channelBitDepth - 8)) _
      (by omega) signalled qpy chromaQPOffset dqp tu.isTransformSkip
    exact ⟨low, le_trans high (by omega)⟩
  exact (dequant_eq_dequantBlock quant params tu cQP read narrow coeffs).trans
    (Scaling.dequantBlock_eq (fits_dequantScaling depth qp eightBit) _)

/-- A luma block of 8x8 samples with scaling lists, 12 bits and the largest QP. -/
def luma8x8 : TransformBlock where
  log2Width := 3
  log2Height := 3
  luma := true
  mtsIdx := 0
  lfnstIdx := 0
  sbtInfo := 0
  useMTS := false
  transQuantBypass := false
  width_le := by decide
  height_le := by decide
  supported := by decide
  compID := 0
  predModeIntra := true
  bdpcmMode := 0
  compID_lt := by decide
  luma_eq := rfl

/-- All list coefficients are 255. -/
def allLarge : Quant where
  quantCoef _ _ _ := 0
  dequantCoef _ rem _ := g_invQuantScales (blockIsNotPowerOf4 8 8) rem * 255
  scalingListEnabledFlag := true

theorem dequant_exact_luma8x8 :
    allLarge.dequant ⟨12, true, some (uniformList 255), false⟩ luma8x8
        (QpParam.create true id 63 24 0 0 0) 64 (fun _ => -2 ^ 15) =
      .ok ((List.range 64).map fun n =>
        (allLarge.dequantScaling ⟨12, true, some (uniformList 255), false⟩ luma8x8
          (QpParam.create true id 63 24 0 0 0) true).exactCoeff (-2 ^ 15) n) :=
  dequant_exact allLarge ⟨12, true, some (uniformList 255), false⟩ luma8x8 (by decide) id 63 0 0
    (by decide) rfl (by decide) (fun _ _ _ => ⟨255, by decide, by decide, rfl⟩) _

end Quant

end Vtm
