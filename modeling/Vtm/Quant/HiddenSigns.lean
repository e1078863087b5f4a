import Vtm.Quant.Levels

/-!
# Sign data hiding in a transform block

`Quant::quant` with sign data hiding leaves each sub-block of a block with the parity that the
decoder infers the sign of its first level from: `quant_hidesSigns`. The sum that decides whether
the block is looked at has 32 bits.
-/

namespace Vtm

open SignBitHiding

namespace TransformBlock

variable (tu : TransformBlock)

/-- The transform leaves no coefficients beyond 32 columns and rows. -/
def ZeroOut (piCoef : Nat → Int) : Prop :=
  ∀ n < tu.area, 32 ≤ n % tu.width ∨ 32 ≤ n / tu.width → piCoef n = 0

theorem sbbSize_dvd_area : tu.sbbSize ∣ tu.area := by
  obtain ⟨width, height, -⟩ := tu.log2Sbb_le
  rw [DQIntern.TransformUnit.sbbSize_eq]
  exact Nat.mul_dvd_mul (pow_dvd_pow 2 (width.trans (Nat.min_le_right _ _)))
    (pow_dvd_pow 2 (height.trans (Nat.min_le_right _ _)))

variable {tu}

/-- The scan positions of the sub-blocks. -/
theorem scanIdx_lt {a n : Nat} (inside : a < tu.numSubSets) (inner : n < tu.sbbSize) :
    n + a * tu.sbbSize < tu.area := by
  obtain ⟨count, whole⟩ := tu.sbbSize_dvd_area
  have positive := tu.sbbSize_pos
  have area : 0 < tu.area := Nat.mul_pos (Nat.two_pow_pos _) (Nat.two_pow_pos _)
  have last : (tu.area - 1) / tu.sbbSize < count :=
    Nat.div_lt_of_lt_mul (by omega)
  have row := Nat.mul_le_mul_left tu.sbbSize (show a + 1 ≤ count by unfold numSubSets at inside; omega)
  rw [Nat.mul_succ, Nat.mul_comm tu.sbbSize a] at row
  omega

/-- A sub-block is scanned as a whole or not at all. -/
theorem scanIdx_coded {a n : Nat} (first : a * tu.sbbSize < tu.numCoeff) (inner : n < tu.sbbSize) :
    n + a * tu.sbbSize < tu.numCoeff := by
  rw [DQIntern.TransformUnit.numCoeff_eq] at first ⊢
  have less := Nat.lt_of_mul_lt_mul_right first
  have row := Nat.mul_le_mul_right tu.sbbSize (Nat.succ_le_of_lt less)
  rw [Nat.succ_mul] at row
  omega

/-- The sample at which the scan stays is zeroed out. -/
theorem zeroOut_beyond {piCoef : Nat → Int} (zeroOut : tu.ZeroOut piCoef) {scanIdx : Nat}
    (beyond : tu.numCoeff ≤ scanIdx) (within : scanIdx < tu.area) :
    piCoef (tu.rasterPos scanIdx) = 0 := by
  have large := tu.large_of_numCoeff_lt (by omega)
  have width : 0 < tu.width := Nat.two_pow_pos _
  have height : 0 < tu.height := Nat.two_pow_pos _
  have position : tu.rasterPos scanIdx = (tu.height - 1) * tu.width + (tu.width - 1) := by
    rw [DQIntern.TransformUnit.rasterPos, DQIntern.TransformUnit.scanId2BlkPos_beyond beyond]
  have column : tu.width - 1 < tu.width := Nat.sub_lt width Nat.one_pos
  rw [position]
  refine zeroOut _ ?_ ?_
  · exact Std.raster_lt column (Nat.sub_lt height Nat.one_pos)
  · rw [Std.raster_mod _ column, Std.raster_div _ column]
    omega

/-- The sub-blocks of a block are apart, and those that are not scanned have no levels. -/
theorem separated_subBlock {pQCoef : Nat → Int}
    (zero : ∀ scanIdx, tu.numCoeff ≤ scanIdx → scanIdx < tu.area →
      pQCoef (tu.rasterPos scanIdx) = 0) :
    Separated tu.subBlock tu.numSubSets pQCoef := by
  have dead {a : Nat} (inside : a < tu.numSubSets) (beyond : ¬ a * tu.sbbSize < tu.numCoeff) :
      ∀ n < (tu.subBlock a).groupSize, (tu.subBlock a).level pQCoef n = 0 := fun n inner =>
    zero _ (by omega) (scanIdx_lt inside inner)
  refine ⟨fun a inside => ?_, fun a insideA b insideB other => ?_⟩
  · by_cases coded : a * tu.sbbSize < tu.numCoeff
    · refine Or.inr fun m innerM n innerN same => ?_
      have position := DQIntern.TransformUnit.rasterPos_inj (scanIdx_coded coded innerM)
        (scanIdx_coded coded innerN) same
      omega
    · exact Or.inl (dead inside coded)
  · by_cases codedA : a * tu.sbbSize < tu.numCoeff
    · refine Or.inl fun n innerN m innerM same => ?_
      by_cases codedB : b * tu.sbbSize < tu.numCoeff
      · have position := DQIntern.TransformUnit.rasterPos_inj (scanIdx_coded codedA innerN)
          (scanIdx_coded codedB innerM) same
        have raster : a * tu.sbbSize + n = b * tu.sbbSize + m := by omega
        exact other (Std.raster_inj innerN innerM raster).2
      · exact DQIntern.TransformUnit.rasterPos_beyond (scanIdx_coded codedA innerN) (by omega)
          (scanIdx_lt insideB innerM) same
    · by_cases codedB : b * tu.sbbSize < tu.numCoeff
      · exact Or.inl fun n innerN m innerM same =>
          DQIntern.TransformUnit.rasterPos_beyond (scanIdx_coded codedB innerM) (by omega)
            (scanIdx_lt insideA innerN) same.symm
      · exact Or.inr ⟨dead insideA codedA, dead insideB codedB⟩

/-- `xSignBitHidingHDQ` as it treats the sub-blocks. -/
theorem xSignBitHidingHDQ_spec {pQCoef : Nat → Int} (pCoef deltaU : Nat → Int)
    (zero : ∀ scanIdx, tu.numCoeff ≤ scanIdx → scanIdx < tu.area →
      pQCoef (tu.rasterPos scanIdx) = 0) :
    ∃ after, tu.xSignBitHidingHDQ pQCoef pCoef deltaU = some after ∧
      (∀ p, (∀ a < tu.numSubSets, ∀ n < tu.sbbSize, p ≠ (tu.subBlock a).blockPos n) →
        after p = pQCoef p) ∧
      ∀ a < tu.numSubSets, (tu.subBlock a).Treated pCoef pQCoef after :=
  hideSubSets_spec (separated_subBlock zero) (-1)

end TransformBlock

namespace Quant

/-- What sign data hiding is to establish: the parities, and what is left of the plain levels. -/
structure HidesSigns (tu : TransformBlock) (plain levels : Nat → Int) : Prop where
  parity : ∀ a < tu.numSubSets, SignHidden ((tu.subBlock a).level levels) tu.sbbSize
  inRange : ∀ n < tu.area, InRange levels n
  near : ∀ n < tu.area, |levels n - plain n| ≤ 1
  outside : ∀ n < tu.area, levels n ≠ plain n → ∃ a < tu.numSubSets, ∃ k < tu.sbbSize,
    n = (tu.subBlock a).blockPos k ∧ Spans ((tu.subBlock a).level plain) tu.sbbSize

section

variable {tu : TransformBlock} {plain plain' levels : Nat → Int}

theorem HidesSigns.congr (same : ∀ n < tu.area, plain n = plain' n)
    (hides : HidesSigns tu plain levels) : HidesSigns tu plain' levels := by
  refine ⟨hides.parity, hides.inRange, fun n inside => same n inside ▸ hides.near n inside,
    fun n inside changed => ?_⟩
  obtain ⟨a, insideA, k, inner, place, spans⟩ :=
    hides.outside n inside fun eq => changed (eq.trans (same n inside))
  exact ⟨a, insideA, k, inner, place,
    spans_congr (fun m _ => same _ (tu.rasterPos_lt_area _)) spans⟩

/-- The treatment of the sub-blocks hides the signs of aligned levels. -/
theorem hidesSigns_of_treated {pCoef : Nat → Int}
    (aligned : ∀ n < tu.area, Aligned plain pCoef n) (inRange : ∀ n < tu.area, InRange plain n)
    (frame : ∀ p, (∀ a < tu.numSubSets, ∀ n < tu.sbbSize, p ≠ (tu.subBlock a).blockPos n) →
      levels p = plain p)
    (treated : ∀ a < tu.numSubSets, (tu.subBlock a).Treated pCoef plain levels) :
    HidesSigns tu plain levels := by
  have alignedIn (a m : Nat) : Aligned plain pCoef ((tu.subBlock a).blockPos m) :=
    aligned _ (tu.rasterPos_lt_area _)
  refine ⟨fun a inside => SubBlock.treated_signHidden (treated a inside) fun m _ => alignedIn a m,
    fun n inside => ?_, fun n inside => ?_, fun n inside changed => ?_⟩
  · by_cases covered : ∃ a < tu.numSubSets, ∃ k < tu.sbbSize, n = (tu.subBlock a).blockPos k
    · obtain ⟨a, insideA, k, inner, rfl⟩ := covered
      exact SubBlock.treated_inRange (treated a insideA) (fun m _ => alignedIn a m) inner
        (inRange _ inside)
    · have left := frame n fun a insideA k inner here => covered ⟨a, insideA, k, inner, here⟩
      unfold InRange
      rw [left]
      exact inRange n inside
  · by_cases covered : ∃ a < tu.numSubSets, ∃ k < tu.sbbSize, n = (tu.subBlock a).blockPos k
    · obtain ⟨a, insideA, k, inner, rfl⟩ := covered
      exact SubBlock.treated_le (treated a insideA) inner
    · rw [frame n fun a insideA k inner here => covered ⟨a, insideA, k, inner, here⟩, sub_self,
        abs_zero]
      exact zero_le_one
  · by_cases covered : ∃ a < tu.numSubSets, ∃ k < tu.sbbSize, n = (tu.subBlock a).blockPos k
    · obtain ⟨a, insideA, k, inner, rfl⟩ := covered
      exact ⟨a, insideA, k, inner, rfl, SubBlock.treated_spans (treated a insideA) inner changed⟩
    · exact absurd (frame n fun a insideA k inner here => covered ⟨a, insideA, k, inner, here⟩)
        changed

end

theorem quantiseBlock_uiAbsSum (tu : TransformBlock) (q : Quantisation) (piCoef memory : Nat → Int)
    (uiAbsSum : Int) : (quantiseBlock tu q piCoef memory uiAbsSum).uiAbsSum =
      q.absSum piCoef uiAbsSum (maxNumberOfCoeffs tu) := rfl

theorem quantLevels_of_finish (quant : Quant) (params : SliceParams) (tu : TransformBlock)
    (cQP : QpParam) {disableSM : Bool}
    (read : disableSMForLFNST params.toPictureParams = .ok disableSM)
    (piCoef memory : Nat → Int) (uiAbsSum : Int) {levels : Nat → Int}
    (finish : finishLevels params tu
      (quantiseBlock tu (quant.quantisation params tu cQP
        (quant.getUseScalingList tu.isTransformSkip (tu.lfnstIdx > 0) disableSM)) piCoef memory
          uiAbsSum) piCoef = some levels) :
    quant.quantLevels params tu cQP piCoef memory uiAbsSum =
      .ok (levels, (quant.quantisation params tu cQP
        (quant.getUseScalingList tu.isTransformSkip (tu.lfnstIdx > 0) disableSM)).absSum piCoef
          uiAbsSum (maxNumberOfCoeffs tu)) := by
  have listType : ¬ tu.getScalingListType ≥ SCALING_LIST_NUM := by
    have lt := tu.compID_lt
    unfold TransformBlock.getScalingListType SCALING_LIST_NUM
    split <;> omega
  unfold quantLevels
  simp only [CHECK, listType, if_false, read, bind, Except.bind, finish]
  rfl

section

variable {q : Quantisation} {tu : TransformBlock} {piCoef : Nat → Int}
  (scale : ∀ n < tu.area, 0 ≤ q.scale n)
  (small : ∑ n ∈ Finset.range tu.area, q.exactMagnitude piCoef n < 2 ^ 31)
include scale small

/-- A sub-block whose sign is hidden has two levels. -/
theorem two_le_sum_of_spans {plain : Nat → Int}
    (same : ∀ n < tu.area, plain n = q.level piCoef n)
    (zero : ∀ scanIdx, tu.numCoeff ≤ scanIdx → scanIdx < tu.area →
      plain (tu.rasterPos scanIdx) = 0) {a : Nat} (inside : a < tu.numSubSets)
    (spans : Spans ((tu.subBlock a).level plain) tu.sbbSize) :
    2 ≤ ∑ n ∈ Finset.range tu.area, q.exactMagnitude piCoef n := by
  obtain ⟨first, last, isFirst, isLast, wide⟩ := id spans
  have distinct : (tu.subBlock a).Distinct :=
    ((TransformBlock.separated_subBlock zero).distinct a inside).resolve_left
      fun dead => not_spans_of_zero dead spans
  have magnitude {k : Nat} (ne : (tu.subBlock a).level plain k ≠ 0) :
      1 ≤ q.exactMagnitude piCoef ((tu.subBlock a).blockPos k) := by
    have within : (tu.subBlock a).blockPos k < tu.area := tu.rasterPos_lt_area _
    exact Quantisation.exactMagnitude_pos (scale _ within)
      (Quantisation.exactMagnitude_lt scale small within) (same _ within ▸ ne)
  have apart : (tu.subBlock a).blockPos first ≠ (tu.subBlock a).blockPos last := fun here => by
    have equal := distinct first isFirst.1 last isLast.1 here
    omega
  have pair : ({(tu.subBlock a).blockPos first, (tu.subBlock a).blockPos last} : Finset Nat) ⊆
      Finset.range tu.area := by
    intro n member
    rcases Finset.mem_insert.mp member with rfl | other
    · exact Finset.mem_range.mpr (tu.rasterPos_lt_area _)
    · rw [Finset.mem_singleton.mp other]
      exact Finset.mem_range.mpr (tu.rasterPos_lt_area _)
  have sum := Finset.sum_le_sum_of_subset_of_nonneg pair fun n member _ =>
    @Quantisation.exactMagnitude_nonneg q piCoef n (scale n (Finset.mem_range.mp member))
  rw [Finset.sum_pair apart] at sum
  have one := magnitude isFirst.2.1
  have one' := magnitude isLast.2.1
  omega

end

/-- `setScalingList` makes no negative entries of a list without negative ones. -/
theorem quantCoef_nonneg {scalingList : ScalingList} (entries : EightBitList scalingList)
    {quant quant' : Quant} (run : setScalingList scalingList quant = .ok quant')
    {tu : TransformBlock} (size : tu.matrixId.TransformSize)
    (listed : tu.matrixId.largeSideId = 6 → tu.matrixId.luma = true) {rem : Nat} (lt : rem < 6) :
    ∀ n < tu.area, 0 ≤ quant'.quantCoef tu.matrixId rem n := by
  intro n inside
  obtain ⟨i, column, j, row, rfl⟩ := Std.exists_raster inside
  have scale := (quantScale_mem tu.matrixId lt).2
  refine le_of_le_of_eq ?_ (quantCoef_entry size listed lt run row column).symm
  split
  · exact le_rfl
  · unfold MatrixId.codedElement
    split
    · exact Int.tdiv_nonneg scale (Int.emod_nonneg _ (by decide))
    · exact Int.tdiv_nonneg scale (entries.coef _ _).1

/-- The scale of the loop is not negative. -/
theorem quantisation_scale_nonneg {quant : Quant} {params : SliceParams} {tu : TransformBlock}
    {cQP : QpParam} (qp : 0 ≤ cQP.Qp tu.isTransformSkip) {enableScalingLists : Bool}
    (matrix : enableScalingLists = true → ∀ n < tu.area,
      0 ≤ quant.quantCoef tu.matrixId (cQP.rem tu.isTransformSkip) n) :
    ∀ n < tu.area, 0 ≤ (quant.quantisation params tu cQP enableScalingLists).scale n := by
  intro n inside
  cases enableScalingLists with
  | true => exact matrix rfl n inside
  | false =>
      have rem : cQP.rem tu.isTransformSkip < 6 := by
        unfold QpParam.rem
        rw [Int.tmod_eq_emod_of_nonneg qp]
        omega
      exact (g_quantScales_mem tu.needsSqrt2Scale rem).1

/-- With sign data hiding `Quant::quant` leaves a block without transform skip and LFNST with the
parities that the decoder infers the signs from, as long as the sum of the magnitudes fits
`uiAbsSum`. -/
theorem quant_hidesSigns (quant : Quant) (params : SliceParams) (tu : TransformBlock)
    (depth : 8 ≤ params.channelBitDepth ∧ params.channelBitDepth ≤ 12) (mapped : Int → Int)
    (qpy chromaQPOffset dqp : Int) {minQpPrimeTsMinus4 : Int} (signalled : minQpPrimeTsMinus4 ≤ 48)
    {disableSM : Bool} (read : disableSMForLFNST params.toPictureParams = .ok disableSM)
    (transform : tu.isTransformSkip = false) (bdpcm : tu.bdpcm = true → tu.isTransformSkip = true)
    (lfnst : tu.lfnstIdx = 0) (enabled : params.signDataHidingEnabledFlag = true)
    {piCoef : Nat → Int} (zeroOut : tu.ZeroOut piCoef) (memory : Nat → Int) :
    let cQP := QpParam.create tu.luma mapped qpy (6 * (params.channelBitDepth - 8))
      minQpPrimeTsMinus4 chromaQPOffset dqp
    let enableScalingLists :=
      quant.getUseScalingList tu.isTransformSkip (tu.lfnstIdx > 0) disableSM
    let q := quant.quantisation params tu cQP enableScalingLists
    (enableScalingLists = true → ∀ n < tu.area,
        0 ≤ quant.quantCoef tu.matrixId (cQP.rem tu.isTransformSkip) n) →
      ∑ n ∈ Finset.range tu.area, q.exactMagnitude piCoef n < 2 ^ 31 →
        ∃ levels uiAbsSum, quant.quantLevels params tu cQP piCoef memory 0 =
            .ok (levels, uiAbsSum) ∧
          HidesSigns tu (q.level piCoef) levels := by
  intro cQP enableScalingLists q matrix small
  have qp : 0 ≤ cQP.Qp tu.isTransformSkip :=
    (@QpParam.create_mem tu.luma mapped (6 * (params.channelBitDepth - 8)) _ (by omega) signalled
      qpy chromaQPOffset dqp tu.isTransformSkip).1
  have scale : ∀ n < tu.area, 0 ≤ q.scale n := quantisation_scale_nonneg qp matrix
  have bits : 9 ≤ q.iQBits := by
    have ge := quantIQBits_ge depth.2 qp
    change 9 ≤ (quantIQBits params tu cQP).toNat
    omega
  have whole : maxNumberOfCoeffs tu = tu.area := by
    unfold maxNumberOfCoeffs
    rw [if_neg (by omega)]
  set block := quantiseBlock tu q piCoef memory 0
  have same : ∀ n < tu.area, block.piQCoef n = q.level piCoef n := fun n inside =>
    if_pos (whole ▸ inside)
  have plain : (if tu.bdpcm then tu.fwdResDPCM block.piQCoef else block.piQCoef) =
      block.piQCoef := if_neg fun on => by
    have skip := bdpcm on
    rw [transform] at skip
    cases skip
  have zero : ∀ scanIdx, tu.numCoeff ≤ scanIdx → scanIdx < tu.area →
      block.piQCoef (tu.rasterPos scanIdx) = 0 := fun scanIdx beyond within =>
    (same _ (tu.rasterPos_lt_area _)).trans
      (Quantisation.level_of_zero bits (TransformBlock.zeroOut_beyond zeroOut beyond within))
  have aligned : ∀ n < tu.area, Aligned block.piQCoef piCoef n := fun n inside => by
    have here := Quantisation.aligned_level (scale n inside)
      (Quantisation.exactMagnitude_lt scale small inside)
    unfold Aligned at here ⊢
    rw [same n inside]
    exact here
  have inRange : ∀ n < tu.area, InRange block.piQCoef n := fun n inside => by
    have here := @Quantisation.inRange_level q piCoef n
    unfold InRange at here ⊢
    rw [same n inside]
    exact here
  have sum : block.uiAbsSum = ∑ n ∈ Finset.range tu.area, q.exactMagnitude piCoef n := by
    rw [quantiseBlock_uiAbsSum, whole]
    exact Quantisation.absSum_eq scale small
  by_cases tested : block.uiAbsSum ≥ 2
  · obtain ⟨after, run, frame, treated⟩ :=
      TransformBlock.xSignBitHidingHDQ_spec piCoef block.deltaU zero
    refine ⟨after, _, quantLevels_of_finish quant params tu cQP read piCoef memory 0 ?_, ?_⟩
    · unfold finishLevels
      dsimp only
      rw [if_pos ⟨enabled, tested⟩, plain]
      exact run
    · exact (hidesSigns_of_treated aligned inRange frame treated).congr same
  · refine ⟨block.piQCoef, _, quantLevels_of_finish quant params tu cQP read piCoef memory 0 ?_, ?_⟩
    · unfold finishLevels
      dsimp only
      rw [if_neg fun both => tested both.2, plain]
    · -- too few levels for a sign to be hidden
      have treated : ∀ a < tu.numSubSets,
          (tu.subBlock a).Treated piCoef block.piQCoef block.piQCoef := fun a inside =>
        Or.inl ⟨fun first last isFirst isLast wide => by
          have two := two_le_sum_of_spans scale small same zero inside
            ⟨first, last, isFirst, isLast, wide⟩
          omega, fun _ _ => rfl⟩
      exact (hidesSigns_of_treated aligned inRange (fun _ _ => rfl) treated).congr same

/-- A slice with sign data hiding. -/
def hidingSlice (channelBitDepth : Int) (scalingListFlag : Bool) : SliceParams where
  channelBitDepth := channelBitDepth
  scalingListFlag := scalingListFlag
  scalingListAPS := some (uniformList 1)
  depQuantEnabledFlag := false
  isIRAP := true
  signDataHidingEnabledFlag := true

theorem sum_exactMagnitude_luma8x8 {quant : Quant}
    (uniform : ∀ n < 64, quant.quantCoef luma8x8.matrixId 2 n = 16448) :
    ∑ n ∈ Finset.range luma8x8.area, (quant.quantisation (hidingSlice 8 true) luma8x8
      (QpParam.create true id 32 0 0 0 0) true).exactMagnitude (fun _ => -2000) n < 2 ^ 31 := by
  set q := quant.quantisation (hidingSlice 8 true) luma8x8 (QpParam.create true id 32 0 0 0 0) true
  have scale (n : Nat) (inside : n < 64) : q.scale n = 16448 := uniform n inside
  have alike : ∀ n ∈ Finset.range luma8x8.area,
      q.exactMagnitude (fun _ => -2000) n = q.exactMagnitude (fun _ => -2000) 0 := fun n inside =>
    Quantisation.exactMagnitude_congr rfl
      ((scale n (Finset.mem_range.mp inside)).trans (scale 0 (by decide)).symm)
  have bits : q.iQBits = 23 := rfl
  have offset : q.iAdd = 2801664 := rfl
  have first : q.exactMagnitude (fun _ => -2000) 0 < 2 ^ 20 := by
    rw [Quantisation.exactMagnitude, Quantisation.tmpLevel, scale 0 (by decide), bits, offset]
    decide
  rw [Finset.sum_congr rfl alike, Finset.sum_const, Finset.card_range, nsmul_eq_mul]
  change 64 * q.exactMagnitude (fun _ => -2000) 0 < 2 ^ 31
  omega

/-- A block of 8x8 samples with the matrices of a list. All levels are -4, and one in each
sub-block has to change. -/
theorem quant_hidesSigns_luma8x8 :
    ∃ quant, setScalingList (uniformList 20) allLarge = .ok quant ∧
      ∃ levels uiAbsSum, quant.quantLevels (hidingSlice 8 true) luma8x8
          (QpParam.create true id 32 0 0 0 0) (fun _ => -2000) (fun _ => 0) 0 =
            .ok (levels, uiAbsSum) ∧
        HidesSigns luma8x8 ((quant.quantisation (hidingSlice 8 true) luma8x8
          (QpParam.create true id 32 0 0 0 0) true).level fun _ => -2000) levels := by
  have nonzero : NonzeroList (uniformList 20) := by
    constructor <;> intros <;> exact (by decide : (20 : Int) % 2 ^ 32 ≠ 0)
  have eightBit : EightBitList (uniformList 20) := by
    constructor <;> intros <;> exact (by decide : (0 : Int) ≤ 20 ∧ (20 : Int) ≤ 255)
  refine ⟨_, setScalingList_eq nonzero allLarge, ?_⟩
  set quant : Quant := { allLarge with
    quantCoef := fillMatrices (fun id qp => quotient (quantScale id qp)) (uniformList 20)
      allLarge.quantCoef
    dequantCoef := setMatricesDec (uniformList 20) allLarge.dequantCoef }
  have run : setScalingList (uniformList 20) allLarge = .ok quant := setScalingList_eq nonzero _
  have size : luma8x8.matrixId.TransformSize := ⟨by decide, by decide, by decide, by decide⟩
  have uniform : ∀ n < 64, quant.quantCoef luma8x8.matrixId 2 n = 16448 := by
    intro n inside
    obtain ⟨i, column, j, row, rfl⟩ := Std.exists_raster (show n < 8 * 8 from inside)
    have entry := quantCoef_entry size (fun _ => rfl) (by decide : 2 < 6) run row column
    exact entry.trans (by
      rw [if_neg fun both => both.1 rfl, MatrixId.codedElement,
        if_neg fun all => absurd all.1 (by decide)]
      rfl)
  refine quant_hidesSigns quant (hidingSlice 8 true) luma8x8 (by decide) id 32 0 0
    (by decide : (0 : Int) ≤ 48) rfl rfl (by decide) rfl rfl
    (by
      intro n inside beyond
      have area : n < 64 := inside
      have width : n % 8 < 8 := Nat.mod_lt _ (by decide)
      have outside : 32 ≤ n % 8 ∨ 32 ≤ n / 8 := beyond
      omega) (fun _ => 0)
    (fun _ => quantCoef_nonneg eightBit run size (fun _ => rfl) (by decide)) ?_
  exact sum_exactMagnitude_luma8x8 uniform

/-- A luma block of 32x32 samples. -/
def luma32x32 : TransformBlock where
  __ := luma8x8
  log2Width := 5
  log2Height := 5
  width_le := by decide
  height_le := by decide
  supported := by decide

/-- The matrices of a list of ones at the lowest QP. -/
def smallList : Quant where
  quantCoef _ _ _ := 26214 * 16
  dequantCoef _ _ _ := 40
  scalingListEnabledFlag := true

/-- With 12 bits, the lowest QP and list coefficients of one the sum of the magnitudes of a block
of extreme coefficients overflows, and the parity of no sub-block is looked at. -/
theorem not_hidesSigns_of_overflow :
    ¬ ∃ levels uiAbsSum, smallList.quantLevels (hidingSlice 12 true) luma32x32
        (QpParam.create true id (-24) 24 0 0 0) (fun _ => -2 ^ 15) (fun _ => 0) 0 =
          .ok (levels, uiAbsSum) ∧
      HidesSigns luma32x32 ((smallList.quantisation (hidingSlice 12 true) luma32x32
        (QpParam.create true id (-24) 24 0 0 0) true).level fun _ => -2 ^ 15) levels := by
  rintro ⟨levels, uiAbsSum, run, hides⟩
  set q := smallList.quantisation (hidingSlice 12 true) luma32x32
    (QpParam.create true id (-24) 24 0 0 0) true
  have overflow : q.absSum (fun _ => -2 ^ 15) 0 luma32x32.area < 2 := by
    have uniform : ∑ n ∈ Finset.range luma32x32.area, q.quantisedMagnitude (fun _ => -2 ^ 15) n =
        luma32x32.area * q.quantisedMagnitude (fun _ => -2 ^ 15) 0 := by
      rw [Finset.sum_congr rfl fun n _ => @Quantisation.quantisedMagnitude_congr q _ 0 n rfl rfl,
        Finset.sum_const, Finset.card_range, nsmul_eq_mul]
    rw [Quantisation.absSum_eq_int32, uniform]
    decide
  have plain (n : Nat) : q.level (fun _ => -2 ^ 15) n = -2 ^ 15 := by
    have first : q.level (fun _ => -2 ^ 15) 0 = -2 ^ 15 := by decide
    exact (Quantisation.level_congr rfl rfl).trans first
  have read : disableSMForLFNST (hidingSlice 12 true).toPictureParams = .ok false := rfl
  set block := quantiseBlock luma32x32 q (fun _ => -2 ^ 15) (fun _ => 0) 0
  have finish : finishLevels (hidingSlice 12 true) luma32x32 block (fun _ => -2 ^ 15) =
      some block.piQCoef := by
    have whole : maxNumberOfCoeffs luma32x32 = luma32x32.area := if_neg (by decide)
    have untested : ¬ block.uiAbsSum ≥ 2 := by
      rw [quantiseBlock_uiAbsSum, whole]
      exact not_le.mpr overflow
    unfold finishLevels
    dsimp only
    rw [if_neg fun both => untested both.2]
    rfl
  have skipped := quantLevels_of_finish smallList (hidingSlice 12 true) luma32x32
    (QpParam.create true id (-24) 24 0 0 0) read (fun _ => -2 ^ 15) (fun _ => 0) 0 finish
  obtain rfl := congrArg Prod.fst (Except.ok.inj (skipped.symm.trans run))
  have level (k : Nat) : (luma32x32.subBlock 0).level block.piQCoef k = -2 ^ 15 := by
    have within : luma32x32.rasterPos (k + 0 * luma32x32.sbbSize) < maxNumberOfCoeffs luma32x32 :=
      luma32x32.rasterPos_lt_area _
    exact (if_pos within).trans (plain _)
  have parity := hides.parity 0 (Nat.succ_pos _) 0 15
    ⟨by decide, by rw [level]; decide, fun k less => absurd less (Nat.not_lt_zero k)⟩
    ⟨by decide, by rw [level]; decide, fun k more inside => by
      have size : luma32x32.sbbSize = 16 := rfl
      omega⟩ (by decide)
  rw [level, absLevels, Finset.sum_congr rfl fun k _ => by rw [level]] at parity
  revert parity
  decide

end Quant

end Vtm
