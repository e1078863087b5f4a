import Vtm.Common.Lfnst
import Vtm.Quant.TransformSkip

/-!
# The support of the low frequency transform

`xFwdLfnst` leaves coefficients at the first scan positions only, and `Quant::quant` goes through
as many coefficients of a block, but in the order of the samples: `quant_lfnst_iff`.
-/

namespace Vtm

open DQIntern (MTS_SKIP)
open SignBitHiding

namespace TransformBlock

variable {tu : TransformBlock}

private theorem gLog2SbbSize_large : ∀ w : Fin 7, ∀ h : Fin 7, 2 ≤ w.val → 2 ≤ h.val →
    DQIntern.gLog2SbbSize w h = (2, 2) := by
  decide

/-- The positions of the diagonal scan of a sub-block of 4x4 samples are in the table. -/
private theorem after_diag_table : ∀ p < 16,
    ScanGenerator.after .SCAN_DIAG 4 4 p =
      ⟨(g_auiXYDiagScan8x8.getD p ⟨0, 0⟩).y, (g_auiXYDiagScan8x8.getD p ⟨0, 0⟩).x⟩ := by
  decide

private theorem exists_table_4x4 : ∀ y < 4, ∀ x < 4, ∃ p < 16,
    g_auiXYDiagScan8x8.getD p ⟨0, 0⟩ = ⟨x, y⟩ := by
  decide

private theorem exists_table_8x4 : ∀ y < 4, ∀ x < 8, ∃ p < 48,
    g_auiXYDiagScan8x8.getD p ⟨0, 0⟩ = ⟨x, y⟩ := by
  decide

private theorem table_inside : ∀ p < 48, (g_auiXYDiagScan8x8.getD p ⟨0, 0⟩).x < 8 ∧
    (g_auiXYDiagScan8x8.getD p ⟨0, 0⟩).y < 8 := by
  decide

private theorem table_inj : ∀ p < 48, ∀ p' < 48,
    g_auiXYDiagScan8x8.getD p ⟨0, 0⟩ = g_auiXYDiagScan8x8.getD p' ⟨0, 0⟩ → p = p' := by
  decide

/-- The sizes that the transform is for. -/
def Supported (tu : TransformBlock) : Prop := 2 ≤ tu.log2Width ∧ 2 ≤ tu.log2Height

theorem log2Sbb_eq (size : tu.Supported) : tu.log2SbbWidth = 2 ∧ tu.log2SbbHeight = 2 := by
  have sub := gLog2SbbSize_large ⟨tu.log2Width, Nat.lt_succ_of_le tu.width_le⟩
    ⟨tu.log2Height, Nat.lt_succ_of_le tu.height_le⟩ size.1 size.2
  constructor
  · exact congrArg Prod.fst sub
  · exact congrArg Prod.snd sub

private theorem four_le_pow {log2 : Nat} (large : 2 ≤ log2) : 4 ≤ 2 ^ log2 :=
  Nat.pow_le_pow_right Nat.two_pos large

theorem four_le_width (size : tu.Supported) : 4 ≤ tu.width := four_le_pow size.1

theorem four_le_height (size : tu.Supported) : 4 ≤ tu.height := four_le_pow size.2

/-- The first sub-block is scanned as a whole. -/
theorem sixteen_le_numCoeff (size : tu.Supported) : 16 ≤ tu.numCoeff := by
  have width : 4 ≤ min ZERO_OUT_TH tu.width := le_min (by decide) (four_le_width size)
  have height : 4 ≤ min ZERO_OUT_TH tu.height := le_min (by decide) (four_le_height size)
  exact Nat.mul_le_mul width height

theorem sbbSize_eq_sixteen (size : tu.Supported) : tu.sbbSize = 16 := by
  rw [DQIntern.TransformUnit.sbbSize, (log2Sbb_eq size).1, (log2Sbb_eq size).2]
  rfl

/-- The scan positions of the first sub-block. -/
theorem rasterPos_eq (size : tu.Supported) {p : Nat} (first : p < 16) :
    tu.rasterPos p = (g_auiXYDiagScan8x8.getD p ⟨0, 0⟩).y * tu.width +
      (g_auiXYDiagScan8x8.getD p ⟨0, 0⟩).x := by
  have inside : p < tu.numCoeff := lt_of_lt_of_le first (sixteen_le_numCoeff size)
  have group : tu.groupAt p = ⟨0, 0⟩ := by
    rw [DQIntern.TransformUnit.groupAt, sbbSize_eq_sixteen size, Nat.div_eq_of_lt first]
    rfl
  have inner : tu.innerAt p = ScanGenerator.after .SCAN_DIAG 4 4 p := by
    rw [DQIntern.TransformUnit.innerAt, sbbSize_eq_sixteen size, Nat.mod_eq_of_lt first,
      (log2Sbb_eq size).1, (log2Sbb_eq size).2]
    rfl
  rw [DQIntern.TransformUnit.rasterPos, DQIntern.TransformUnit.scanId2BlkPos_eq inside, group,
    inner, after_diag_table p first]
  simp only [Nat.zero_mul, Nat.add_zero]

/-- The transform and the quantiser have the same order in the first sub-block. -/
theorem lfnstScan_eq (size : tu.Supported) {p : Nat} (first : p < 16) :
    tu.lfnstScan p = tu.rasterPos p := by
  rw [lfnstScan]
  split
  · dsimp only
    rw [rasterPos_eq size first, Nat.add_comm]
  · rfl

theorem zeroOutSize_cases (tu : TransformBlock) : tu.zeroOutSize = 8 ∨ tu.zeroOutSize = 16 := by
  unfold zeroOutSize
  split
  · exact Or.inl rfl
  · exact Or.inr rfl

theorem maxNumberOfCoeffs_eq (lfnst : 0 < tu.lfnstIdx) :
    Quant.maxNumberOfCoeffs tu = tu.zeroOutSize := if_pos lfnst

theorem sbSize_cases (tu : TransformBlock) :
    (tu.whge3 = true ∧ tu.sbSize = 8 ∧ tu.lfnstCoeffNum = 48) ∨
      (tu.whge3 = false ∧ tu.sbSize = 4 ∧ tu.lfnstCoeffNum = 16) := by
  unfold lfnstCoeffNum sbSize
  cases tu.whge3
  · exact Or.inr ⟨rfl, rfl, rfl⟩
  · exact Or.inl ⟨rfl, rfl, rfl⟩

/-- The places that the transform stores to are apart. -/
theorem lfnstScan_inj (size : tu.Supported) {p p' : Nat} (inside : p < tu.lfnstCoeffNum)
    (inside' : p' < tu.lfnstCoeffNum) (same : tu.lfnstScan p = tu.lfnstScan p') : p = p' := by
  rcases tu.sbSize_cases with ⟨large, -, num⟩ | ⟨-, -, num⟩
  · rw [num] at inside inside'
    have wide : 8 ≤ tu.width := (of_decide_eq_true large).1
    have column := (table_inside p inside).1
    have column' := (table_inside p' inside').1
    simp only [lfnstScan, large, if_true] at same
    rw [Nat.add_comm, Nat.add_comm (g_auiXYDiagScan8x8.getD p' ⟨0, 0⟩).x] at same
    obtain ⟨x, y⟩ := Std.raster_inj (by omega) (by omega) same
    exact table_inj p inside p' inside' (ScanElement.ext x y)
  · rw [num] at inside inside'
    rw [lfnstScan_eq size inside, lfnstScan_eq size inside'] at same
    have coded := sixteen_le_numCoeff size
    exact DQIntern.TransformUnit.rasterPos_inj (by omega) (by omega) same

/-! ## What the transform stores -/

/-- What the transform is called for. -/
structure Transformed (tu : TransformBlock) : Prop where
  size : tu.Supported
  lfnst : 0 < tu.lfnstIdx ∧ tu.lfnstIdx < 3
  transform : tu.isTransformSkip = false

variable {kernel : LfnstKernel} {coeff : Nat → Int}

theorem xFwdLfnst_eq (called : tu.Transformed) :
    tu.xFwdLfnst kernel coeff =
      Std.assign tu.lfnstScan (fun p _ => tu.lfnstOut kernel coeff p) (List.range tu.lfnstCoeffNum)
        coeff := by
  have mts : tu.mtsIdx ≠ MTS_SKIP := of_decide_eq_false called.transform
  exact if_pos ⟨called.lfnst.1, mts, four_le_width called.size, four_le_height called.size,
    called.lfnst.2⟩

/-- The outputs of the kernel, in the order of the scan. -/
theorem xFwdLfnst_scan (called : tu.Transformed) {p : Nat} (inside : p < tu.lfnstCoeffNum) :
    tu.xFwdLfnst kernel coeff (tu.lfnstScan p) = tu.lfnstOut kernel coeff p := by
  rw [xFwdLfnst_eq called]
  refine Std.assign_of_mem ?_ (List.mem_range.mpr inside)
  rw [List.nodup_map_iff_inj_on List.nodup_range]
  intro m memberM n memberN same
  exact lfnstScan_inj called.size (List.mem_range.mp memberM) (List.mem_range.mp memberN) same

/-- The other coefficients are left. -/
theorem xFwdLfnst_other (called : tu.Transformed) {n : Nat}
    (other : ∀ p < tu.lfnstCoeffNum, tu.lfnstScan p ≠ n) :
    tu.xFwdLfnst kernel coeff n = coeff n := by
  rw [xFwdLfnst_eq called]
  exact Std.assign_of_notMem fun p member => other p (List.mem_range.mp member)

/-- Only the first outputs of the kernel can be other than zero. -/
theorem lfnstOut_beyond (kernel : LfnstKernel) (coeff : Nat → Int) {p : Nat}
    (beyond : tu.zeroOutSize ≤ p) : tu.lfnstOut kernel coeff p = 0 := if_neg (by omega)

/-- The coefficients of the primary transform have 16 bits besides the sign, and `xT` leaves none
outside the corner. -/
structure Primary (tu : TransformBlock) (coeff : Nat → Int) : Prop where
  range : ∀ n, |coeff n| ≤ 2 ^ 16
  corner : ∀ n < tu.area, tu.sbSize ≤ n % tu.width ∨ tu.sbSize ≤ n / tu.width → coeff n = 0

/-- In the first rows the transform stores to the whole corner. -/
theorem exists_lfnstScan (size : tu.Supported) {x y : Nat} (column : x < tu.sbSize) (row : y < 4) :
    ∃ p < tu.lfnstCoeffNum, tu.lfnstScan p = y * tu.width + x := by
  rcases tu.sbSize_cases with ⟨large, eight, num⟩ | ⟨-, four, num⟩
  · obtain ⟨p, inside, place⟩ := exists_table_8x4 y row x (eight ▸ column)
    refine ⟨p, num ▸ inside, ?_⟩
    simp only [lfnstScan, large, if_true, place]
    exact Nat.add_comm _ _
  · obtain ⟨p, inside, place⟩ := exists_table_4x4 y row x (four ▸ column)
    refine ⟨p, num ▸ inside, ?_⟩
    rw [lfnstScan_eq size inside, rasterPos_eq size inside, place]

/-- Among the first coefficients of a block the transform leaves none outside the scan positions
that the quantiser is to go through. -/
theorem xFwdLfnst_outside (called : tu.Transformed) (primary : tu.Primary coeff) {n : Nat}
    (first : n < tu.zeroOutSize) (outside : ∀ p < tu.zeroOutSize, n ≠ tu.rasterPos p) :
    tu.xFwdLfnst kernel coeff n = 0 := by
  have small : tu.zeroOutSize ≤ 16 := by
    rcases tu.zeroOutSize_cases with eq | eq <;> omega
  have width := four_le_width called.size
  have height := four_le_height called.size
  have row : n / tu.width < 4 := Nat.div_lt_of_lt_mul (by omega)
  have place : n / tu.width * tu.width + n % tu.width = n := by
    rw [Nat.mul_comm]
    exact Nat.div_add_mod n tu.width
  by_cases column : n % tu.width < tu.sbSize
  · obtain ⟨p, inside, here⟩ := exists_lfnstScan called.size column row
    rw [← place, ← here, xFwdLfnst_scan called inside]
    refine lfnstOut_beyond kernel coeff ?_
    by_contra early
    have early : p < tu.zeroOutSize := Nat.lt_of_not_le early
    refine outside p early ?_
    rw [← lfnstScan_eq called.size (lt_of_lt_of_le early small), here, place]
  · have area : n < tu.area := lt_of_lt_of_le (by omega) (Nat.mul_le_mul width height)
    have zero := primary.corner n area (Or.inl (Nat.le_of_not_lt column))
    by_cases stored : ∃ p < tu.lfnstCoeffNum, tu.lfnstScan p = n
    · obtain ⟨p, inside, here⟩ := stored
      rw [← here, xFwdLfnst_scan called inside]
      refine lfnstOut_beyond kernel coeff ?_
      by_contra early
      have early : p < tu.zeroOutSize := Nat.lt_of_not_le early
      exact outside p early (by rw [← here, lfnstScan_eq called.size (lt_of_lt_of_le early small)])
    · rw [xFwdLfnst_other called fun p inside here => stored ⟨p, inside, here⟩]
      exact zero

/-! ## The range of the coefficients -/

/-- The sum of a row of the kernel. -/
theorem abs_fwdLfnst_sum_le (kernel : LfnstKernel) {src : Nat → Int}
    (range : ∀ i, |src i| ≤ 2 ^ 16) (j trSize : Nat) :
    |(List.range trSize).foldl (fun coef i => coef + src i * kernel.trMat j i) 0| ≤
      trSize * 2 ^ 23 := by
  induction trSize with
  | zero => exact le_rfl
  | succ trSize ih =>
      have entry : |kernel.trMat j trSize| ≤ 2 ^ 7 :=
        abs_le.mpr ⟨(kernel.int8 j trSize).1, le_of_lt (kernel.int8 j trSize).2⟩
      have product : |src trSize * kernel.trMat j trSize| ≤ 2 ^ 16 * 2 ^ 7 := by
        rw [abs_mul]
        exact Int.mul_le_mul (range trSize) entry (abs_nonneg _) (by decide)
      rw [List.range_succ, List.foldl_append, List.foldl_cons, List.foldl_nil]
      refine (abs_add_le _ _).trans ?_
      push_cast
      omega

theorem abs_lfnstOut_le (kernel : LfnstKernel) (range : ∀ n, |coeff n| ≤ 2 ^ 16) (p : Nat) :
    |tu.lfnstOut kernel coeff p| ≤ 48 * 2 ^ 16 + 1 := by
  have sum := @abs_fwdLfnst_sum_le kernel (tu.lfnstIn kernel.transposeFlag coeff)
    (fun i => range _) p tu.lfnstCoeffNum
  have most : (tu.lfnstCoeffNum : Int) ≤ 48 := by
    rcases tu.sbSize_cases with ⟨-, -, num⟩ | ⟨-, -, num⟩ <;> omega
  unfold lfnstOut LfnstKernel.fwdLfnstNxN
  split
  · rw [Int.shiftRight_eq_div_pow]
    rw [abs_le] at sum ⊢
    omega
  · decide

theorem abs_xFwdLfnst_le (called : tu.Transformed) (primary : tu.Primary coeff) (n : Nat) :
    |tu.xFwdLfnst kernel coeff n| ≤ 48 * 2 ^ 16 + 1 := by
  by_cases stored : ∃ p < tu.lfnstCoeffNum, tu.lfnstScan p = n
  · obtain ⟨p, inside, rfl⟩ := stored
    rw [xFwdLfnst_scan called inside]
    exact abs_lfnstOut_le kernel primary.range p
  · rw [xFwdLfnst_other called fun p inside here => stored ⟨p, inside, here⟩]
    exact (primary.range n).trans (by decide)

end TransformBlock

namespace Quant

namespace Quantisation

variable {q : Quantisation} {piCoef : Nat → Int} {n : Nat}

/-- A level is zero exactly if its magnitude is. -/
theorem level_eq_zero_iff (scale : 0 ≤ q.scale n) (small : q.exactMagnitude piCoef n < 2 ^ 31) :
    q.level piCoef n = 0 ↔ q.tmpLevel piCoef n + q.iAdd < 2 ^ q.iQBits := by
  rw [← exactMagnitude_eq_zero_iff (tmpLevel_nonneg scale)]
  have nonneg := @exactMagnitude_nonneg q piCoef n scale
  rw [level, quantisedCoefficient, quantisedMagnitude_eq scale small]
  unfold entropyCodingMinimum entropyCodingMaximum maxLog2TrDynamicRange
    ChromaQpMappingTableParams.Clip3
  split <;> omega

/-- The magnitudes fit `TCoeff` if the coefficients are in the range of the transform and the
scales in that of the scaling lists. -/
theorem exactMagnitude_small (bits : 10 ≤ q.iQBits) (range : |piCoef n| ≤ 48 * 2 ^ 16 + 1)
    (scale : 0 ≤ q.scale n ∧ q.scale n ≤ 26214 * 16) : q.exactMagnitude piCoef n < 2 ^ 31 := by
  have product : q.tmpLevel piCoef n ≤ (48 * 2 ^ 16 + 1) * (26214 * 16) :=
    Int.mul_le_mul range scale.2 scale.1 (by decide)
  have offset := @iAdd_lt q (by omega)
  have power : (2 : Int) ^ 10 ≤ 2 ^ q.iQBits := pow_le_pow_right₀ (by decide) bits
  rw [exactMagnitude, Int.shiftRight_eq_div_pow]
  push_cast
  refine Int.ediv_lt_of_lt_mul (by positivity) ?_
  nlinarith

end Quantisation

/-! ## What the quantiser goes through -/

variable {tu : TransformBlock}

/-- The scale of the loop is in the range of the scaling lists. -/
theorem quantisation_scale_mem {quant : Quant} {params : SliceParams} {cQP : QpParam}
    (qp : 0 ≤ cQP.Qp tu.isTransformSkip) {enableScalingLists : Bool}
    (matrix : enableScalingLists = true → ∀ n < tu.area,
      0 ≤ quant.quantCoef tu.matrixId (cQP.rem tu.isTransformSkip) n ∧
        quant.quantCoef tu.matrixId (cQP.rem tu.isTransformSkip) n ≤ 26214 * 16) :
    ∀ n < tu.area, 0 ≤ (quant.quantisation params tu cQP enableScalingLists).scale n ∧
      (quant.quantisation params tu cQP enableScalingLists).scale n ≤ 26214 * 16 := by
  intro n inside
  cases enableScalingLists with
  | true => exact matrix rfl n inside
  | false =>
      have rem : cQP.rem tu.isTransformSkip < 6 := by
        unfold QpParam.rem
        rw [Int.tmod_eq_emod_of_nonneg qp]
        omega
      have most : ∀ notPowerOf4 : Bool, ∀ rem : Fin 6,
          0 ≤ g_quantScales notPowerOf4 rem ∧ g_quantScales notPowerOf4 rem ≤ 26214 * 16 := by
        decide
      exact most tu.needsSqrt2Scale ⟨_, rem⟩

/-- The quantiser is to go through the first scan positions and to leave the other levels zero. -/
structure CoversSupport (tu : TransformBlock) (q : Quantisation) (piCoef levels : Nat → Int) :
    Prop where
  quantised : ∀ p < maxNumberOfCoeffs tu,
    levels (tu.rasterPos p) = q.level piCoef (tu.rasterPos p)
  others : ∀ n < tu.area, (∀ p < maxNumberOfCoeffs tu, n ≠ tu.rasterPos p) → levels n = 0

section Loop

variable {q : Quantisation} {kernel : LfnstKernel} {coeff : Nat → Int}
  (called : tu.Transformed) (primary : tu.Primary coeff) (bits : 10 ≤ q.iQBits)
include called primary bits

/-- The loop leaves no levels outside the scan positions. -/
theorem quantiseBlock_outside (memory : Nat → Int) (uiAbsSum : Int) {n : Nat}
    (outside : ∀ p < maxNumberOfCoeffs tu, n ≠ tu.rasterPos p) :
    (quantiseBlock tu q (tu.xFwdLfnst kernel coeff) memory uiAbsSum).piQCoef n = 0 := by
  unfold quantiseBlock
  dsimp only
  by_cases first : n < maxNumberOfCoeffs tu
  · rw [if_pos first]
    refine Quantisation.level_of_zero (by omega) ?_
    rw [TransformBlock.maxNumberOfCoeffs_eq called.lfnst.1] at first outside
    exact TransformBlock.xFwdLfnst_outside called primary first outside
  · exact if_neg first

/-- The loop goes through the scan positions as far as those beyond its bound have no level. -/
theorem coversSupport_quantiseBlock_iff
    (scale : ∀ n < tu.area, 0 ≤ q.scale n ∧ q.scale n ≤ 26214 * 16) (memory : Nat → Int)
    (uiAbsSum : Int) :
    CoversSupport tu q (tu.xFwdLfnst kernel coeff)
        (quantiseBlock tu q (tu.xFwdLfnst kernel coeff) memory uiAbsSum).piQCoef ↔
      ∀ p < maxNumberOfCoeffs tu, maxNumberOfCoeffs tu ≤ tu.rasterPos p →
        |tu.xFwdLfnst kernel coeff (tu.rasterPos p)| * q.scale (tu.rasterPos p) + q.iAdd <
          2 ^ q.iQBits := by
  have zero_iff (p : Nat) : q.level (tu.xFwdLfnst kernel coeff) (tu.rasterPos p) = 0 ↔
      |tu.xFwdLfnst kernel coeff (tu.rasterPos p)| * q.scale (tu.rasterPos p) + q.iAdd <
        2 ^ q.iQBits := by
    have inside := scale _ (tu.rasterPos_lt_area p)
    exact Quantisation.level_eq_zero_iff inside.1 (Quantisation.exactMagnitude_small bits
      (TransformBlock.abs_xFwdLfnst_le called primary _) inside)
  constructor
  · intro covers p inside beyond
    refine (zero_iff p).mp ((covers.quantised p inside).symm.trans ?_)
    exact if_neg (Nat.not_lt_of_le beyond)
  · intro none
    refine ⟨fun p inside => ?_, fun n _ outside =>
      quantiseBlock_outside called primary bits memory uiAbsSum outside⟩
    unfold quantiseBlock
    dsimp only
    split
    · rfl
    · rename_i beyond
      exact ((zero_iff p).mpr (none p inside (Nat.le_of_not_lt beyond))).symm

end Loop

/-! ## Sign data hiding -/

theorem maxNumberOfCoeffs_le (called : tu.Transformed) : maxNumberOfCoeffs tu ≤ 16 := by
  rw [TransformBlock.maxNumberOfCoeffs_eq called.lfnst.1]
  rcases tu.zeroOutSize_cases with eq | eq <;> omega

section

variable {plain : Nat → Int}

variable (called : tu.Transformed)
  (outside : ∀ n < tu.area, (∀ p < maxNumberOfCoeffs tu, n ≠ tu.rasterPos p) → plain n = 0)
include called outside

/-- The scan positions behind those of the transform have no levels. -/
theorem level_behind {scanIdx : Nat} (behind : maxNumberOfCoeffs tu ≤ scanIdx)
    (within : scanIdx < tu.area) : plain (tu.rasterPos scanIdx) = 0 := by
  have few := maxNumberOfCoeffs_le called
  have coded := TransformBlock.sixteen_le_numCoeff called.size
  refine outside _ (tu.rasterPos_lt_area _) fun p first same => ?_
  by_cases inside : scanIdx < tu.numCoeff
  · have here := DQIntern.TransformUnit.rasterPos_inj inside (by omega) same
    omega
  · exact DQIntern.TransformUnit.rasterPos_beyond (by omega) (Nat.le_of_not_lt inside) within
      same.symm

/-- Sign data hiding gives no level to a sample without one in the transform. -/
theorem xSignBitHidingHDQ_outside (piCoef deltaU : Nat → Int) :
    ∃ after, tu.xSignBitHidingHDQ plain piCoef deltaU = some after ∧
      ∀ n < tu.area, (∀ p < maxNumberOfCoeffs tu, n ≠ tu.rasterPos p) → after n = 0 := by
  have few := maxNumberOfCoeffs_le called
  have coded := TransformBlock.sixteen_le_numCoeff called.size
  have size := TransformBlock.sbbSize_eq_sixteen called.size
  obtain ⟨after, hidden, -⟩ := TransformBlock.xSignBitHidingHDQ_spec piCoef deltaU
    fun scanIdx beyond within => level_behind called outside (by omega) within
  refine ⟨after, hidden, fun n inside other => ?_⟩
  by_contra level
  have changed : after n ≠ plain n := by
    rw [outside n inside other]
    exact level
  obtain ⟨last, isLast, m, before, place⟩ := hideSubSets_changed
    (fun a within k inner => by
      have later : a + 1 < tu.numSubSets := Nat.succ_lt_succ within
      refine level_behind called outside ?_ (TransformBlock.scanIdx_lt later inner)
      have unit : tu.sbbSize ≤ (a + 1) * tu.sbbSize :=
        Nat.le_mul_of_pos_left tu.sbbSize (Nat.succ_pos a)
      change maxNumberOfCoeffs tu ≤ k + (a + 1) * tu.sbbSize
      omega) hidden changed
  have first : last < maxNumberOfCoeffs tu := by
    by_contra behind
    refine isLast.2.1 (level_behind called outside (by omega) ?_)
    exact TransformBlock.scanIdx_lt (Nat.succ_pos _) isLast.1
  refine other m (by omega) (place.trans ?_)
  simp only [TransformBlock.subBlock, Nat.zero_mul, Nat.add_zero]

end

/-- The outputs of the low frequency transform other than zero are at the first scan positions, and
`Quant::quant` leaves no other levels. It goes through these positions exactly if those that come
late in the order of the samples have no level. -/
theorem quant_lfnst_iff (quant : Quant) (params : SliceParams) (tu : TransformBlock)
    (depth : params.channelBitDepth ≤ 12) {cQP : QpParam} (qp : 0 ≤ cQP.Qp tu.isTransformSkip)
    {disableSM : Bool} (read : disableSMForLFNST params.toPictureParams = .ok disableSM)
    (called : tu.Transformed) (bdpcm : tu.bdpcm = true → tu.isTransformSkip = true)
    (kernel : LfnstKernel) {coeff : Nat → Int} (primary : tu.Primary coeff) (memory : Nat → Int)
    (uiAbsSum : Int) :
    let piCoef := tu.xFwdLfnst kernel coeff
    let enableScalingLists :=
      quant.getUseScalingList tu.isTransformSkip (tu.lfnstIdx > 0) disableSM
    let q := quant.quantisation params tu cQP enableScalingLists
    let plain := (quantiseBlock tu q piCoef memory uiAbsSum).piQCoef
    (enableScalingLists = true → ∀ n < tu.area,
        0 ≤ quant.quantCoef tu.matrixId (cQP.rem tu.isTransformSkip) n ∧
          quant.quantCoef tu.matrixId (cQP.rem tu.isTransformSkip) n ≤ 26214 * 16) →
      (∀ p < tu.lfnstCoeffNum, maxNumberOfCoeffs tu ≤ p → piCoef (tu.lfnstScan p) = 0) ∧
        (∃ levels sum, quant.quantLevels params tu cQP piCoef memory uiAbsSum = .ok (levels, sum) ∧
          (∀ n < tu.area, (∀ p < maxNumberOfCoeffs tu, n ≠ tu.rasterPos p) → levels n = 0) ∧
          (params.signDataHidingEnabledFlag = false → levels = plain)) ∧
        (CoversSupport tu q piCoef plain ↔
          ∀ p < maxNumberOfCoeffs tu, maxNumberOfCoeffs tu ≤ tu.rasterPos p →
            |piCoef (tu.rasterPos p)| * q.scale (tu.rasterPos p) + q.iAdd < 2 ^ q.iQBits) := by
  intro piCoef enableScalingLists q plain matrix
  have bits : 10 ≤ q.iQBits := by
    have ge := quantIQBits_ge depth qp
    change 10 ≤ (quantIQBits params tu cQP).toNat
    omega
  have scale : ∀ n < tu.area, 0 ≤ q.scale n ∧ q.scale n ≤ 26214 * 16 :=
    quantisation_scale_mem qp matrix
  have outside : ∀ n < tu.area, (∀ p < maxNumberOfCoeffs tu, n ≠ tu.rasterPos p) → plain n = 0 :=
    fun n _ other => quantiseBlock_outside called primary bits memory uiAbsSum other
  have noDpcm : ¬ tu.bdpcm = true := fun on => by
    have skip := bdpcm on
    rw [called.transform] at skip
    cases skip
  refine ⟨fun p inside behind => ?_, ?_,
    coversSupport_quantiseBlock_iff called primary bits scale memory uiAbsSum⟩
  · rw [TransformBlock.maxNumberOfCoeffs_eq called.lfnst.1] at behind
    exact (TransformBlock.xFwdLfnst_scan called inside).trans
      (TransformBlock.lfnstOut_beyond kernel coeff behind)
  · set block := quantiseBlock tu q piCoef memory uiAbsSum with named
    by_cases tested : params.signDataHidingEnabledFlag ∧ block.uiAbsSum ≥ 2
    · obtain ⟨after, hidden, left⟩ :=
        xSignBitHidingHDQ_outside called outside piCoef block.deltaU
      refine ⟨after, _, quantLevels_of_finish quant params tu cQP read piCoef memory uiAbsSum ?_,
        left, fun off => ?_⟩
      · unfold finishLevels
        dsimp only
        rw [if_pos tested, if_neg noDpcm]
        exact hidden
      · rw [off] at tested
        exact absurd tested.1 (by decide)
    · refine ⟨plain, _, quantLevels_of_finish quant params tu cQP read piCoef memory uiAbsSum ?_,
        outside, fun _ => rfl⟩
      unfold finishLevels
      dsimp only
      rw [if_neg tested, if_neg noDpcm]

/-- A luma block of 4x4 samples with the first kernel. -/
def lfnst4x4 : TransformBlock := { skip4x4 0 with mtsIdx := 0, lfnstIdx := 1 }

/-- The quantiser of the block at QP 32. -/
def lfnstQuantisation : Quantisation :=
  (allLarge.setUseScalingList false).quantisation (hidingSlice 8 false) lfnst4x4
    (QpParam.create true id 32 0 0 0 0) false

/-- A primary coefficient in the first row. -/
def firstRow (n : Nat) : Int := if n = 2 then -4000 else 0

theorem quant_lfnst_firstRow :
    CoversSupport lfnst4x4 lfnstQuantisation (lfnst4x4.xFwdLfnst .planar4x4 firstRow)
        (quantiseBlock lfnst4x4 lfnstQuantisation (lfnst4x4.xFwdLfnst .planar4x4 firstRow)
          (fun _ => 0) 0).piQCoef ↔
      ∀ p < maxNumberOfCoeffs lfnst4x4, maxNumberOfCoeffs lfnst4x4 ≤ lfnst4x4.rasterPos p →
        |lfnst4x4.xFwdLfnst .planar4x4 firstRow (lfnst4x4.rasterPos p)| *
            lfnstQuantisation.scale (lfnst4x4.rasterPos p) + lfnstQuantisation.iAdd <
          2 ^ lfnstQuantisation.iQBits :=
  (quant_lfnst_iff (allLarge.setUseScalingList false) (hidingSlice 8 false) lfnst4x4 (by decide)
    (by decide) rfl ⟨⟨by decide, by decide⟩, by decide, by decide⟩ (by decide) .planar4x4
    ⟨fun n => by
        unfold firstRow
        split <;> decide,
      fun n inside beyond => by
        have area : n < 16 := inside
        have width : n % 4 < 4 := Nat.mod_lt _ (by decide)
        have corner : 4 ≤ n % 4 ∨ 4 ≤ n / 4 := beyond
        omega⟩ (fun _ => 0) 0 (fun on => by cases on)).2.2

/-- The output at the fourth scan position is the first sample of the third row, and is dropped. -/
theorem not_coversSupport_firstRow :
    ¬ CoversSupport lfnst4x4 lfnstQuantisation (lfnst4x4.xFwdLfnst .planar4x4 firstRow)
      (quantiseBlock lfnst4x4 lfnstQuantisation (lfnst4x4.xFwdLfnst .planar4x4 firstRow)
        (fun _ => 0) 0).piQCoef := by
  intro covers
  have fourth := covers.quantised 3 (by decide)
  revert fourth
  decide

end Quant

end Vtm
