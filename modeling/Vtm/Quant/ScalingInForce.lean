import Vtm.Decoder.ScalingListSetup
import Vtm.Quant.Dequant
import Vtm.Quant.ScanPositions

/-!
# The scaling list in force

The dequantisers look the list up again: through the pointer in the picture header, which is
null if the picture has no scaling list APS, and through the matrices, of which those of chroma
blocks with a side of 64 samples are what an earlier picture left: `usesListInForce_iff`.
-/

namespace Vtm

open Vtm.Std

namespace Quant

/-- The matrix that a list makes for a block. -/
def matrixOf (scalingList : ScalingList) (id : MatrixId) (rem n : Nat) : Int :=
  dequantElement (invQuantScale id rem)
    (if id.sizeX ≠ id.sizeY ∧ MatrixId.ZeroedOut (n / id.width) (n % id.width) then .zeroOut
      else id.codedElement scalingList (n / id.width) (n % id.width))

/-- The quantiser whose matrices are all those of a list; there is none in force if the
scaling is flat. -/
def ofList (inForce : Option ScalingList) : Quant where
  quantCoef _ _ _ := 0
  dequantCoef id rem n := match inForce with
    | some scalingList => matrixOf scalingList id rem n
    | none => 0
  scalingListEnabledFlag := inForce.isSome

theorem setScalingListDec_matrixOf {id : MatrixId} (size : id.TransformSize)
    (listed : id.largeSideId = 6 → id.luma = true) {rem : Nat} (lt : rem < 6)
    (scalingList : ScalingList) (quant : Quant) {n : Nat} (inside : n < id.width * id.height) :
    (setScalingListDec scalingList quant).dequantCoef id rem n = matrixOf scalingList id rem n := by
  obtain ⟨i, column, j, row, rfl⟩ := exists_raster inside
  have width : 0 < id.width := Nat.two_pow_pos _
  rw [dequantCoef_entry size listed lt scalingList quant row column, matrixOf,
    Nat.add_comm (j * id.width), Nat.add_mul_div_right _ _ width, Nat.div_eq_of_lt column,
    Nat.zero_add, Nat.add_mul_mod_self_right, Nat.mod_eq_of_lt column]

/-- The transform blocks, of which none has 2x2 samples. -/
theorem transformSize_matrixId {tu : TransformBlock}
    (size : ¬ (tu.log2Width = 1 ∧ tu.log2Height = 1)) : tu.matrixId.TransformSize := by
  have supported := tu.supported
  have component := tu.compID_lt
  refine ⟨tu.width_le, tu.height_le, ?_, ?_⟩
  · change (if tu.predModeIntra then 0 else 3) + tu.compID < 6
    split <;> omega
  · change 2 ≤ max tu.log2Width tu.log2Height
    omega

/-! ## What the dequantisers depend on -/

theorem Scaling.dequantBlock_congr {s s' : Scaling} (shift : s.rightShift = s'.rightShift)
    (bits : s.coefBits = s'.coefBits) {numSamplesInBlock : Nat}
    (scale : ∀ n < numSamplesInBlock, s.scale n = s'.scale n) (piQCoef : Nat → Int) :
    s.dequantBlock numSamplesInBlock piQCoef = s'.dequantBlock numSamplesInBlock piQCoef := by
  have range : s.inputRange = s'.inputRange := by
    rw [inputRange, inputRange, targetInputBitDepth, targetInputBitDepth, shift, bits]
  have all (range : Int × Int) {ns : List Nat} (inside : ∀ n ∈ ns, n < numSamplesInBlock) :
      ns.mapM (s.dequantCoeff range piQCoef) = ns.mapM (s'.dequantCoeff range piQCoef) := by
    induction ns with
    | nil => rfl
    | cons n ns ih =>
        obtain ⟨here, later⟩ := List.forall_mem_cons.mp inside
        rw [List.mapM_cons, List.mapM_cons, ih later, dequantCoeff, dequantCoeff, shift,
          scale n here]
  rw [dequantBlock, dequantBlock, range]
  exact bind_congr fun range => all range fun n member => List.mem_range.mp member

end Quant

namespace DQIntern.TransformUnit

section

variable {tu : TransformUnit} {p p' : DequantParams} (shift : p.shift = p'.shift)
  (range : p.maxLog2TrDynamicRange = p'.maxLog2TrDynamicRange)
  (lists : p.enableScalingLists = p'.enableScalingLists)
  (entries : p.enableScalingLists = true → ∀ n < tu.area, p.piDequantCoef n = p'.piDequantCoef n)
include shift range lists entries

theorem dequantLoop_congr (qCoeff : Nat → Int) (last scanIdx state : Nat) (invQScale : Int) :
    tu.dequantLoop p qCoeff last scanIdx state invQScale =
      tu.dequantLoop p' qCoeff last scanIdx state invQScale := by
  have scale (scanIdx : Nat) (invQScale : Int) :
      tu.scaleAt p last scanIdx invQScale = tu.scaleAt p' last scanIdx invQScale := by
    unfold scaleAt
    rw [← lists, ← shift]
    cases enabled : p.enableScalingLists with
    | false => simp only [Bool.false_eq_true, if_false]
    | true => simp only [if_true, entries enabled _ (rasterPos_lt_area tu scanIdx)]
  have coeff (invQScale qIdx : Int) :
      dequantCoeff p invQScale qIdx = dequantCoeff p' invQScale qIdx := by
    rw [dequantCoeff, dequantCoeff, shift, range]
  induction scanIdx generalizing state invQScale with
  | zero =>
      unfold dequantLoop
      simp only [scale, coeff]
  | succ scanIdx ih =>
      unfold dequantLoop
      simp only [scale, coeff, ih]

theorem dequantBlock_congr (invQScale : p.invQScale = p'.invQScale) (qCoeff : Nat → Int) :
    tu.dequantBlock p qCoeff = tu.dequantBlock p' qCoeff := by
  unfold dequantBlock
  cases found : tu.lastScanIdx qCoeff tu.area with
  | none => rfl
  | some last =>
      dsimp only
      rw [invQScale]
      exact dequantLoop_congr shift range lists entries qCoeff last last 0 _

end

end DQIntern.TransformUnit

namespace Quant

section

variable {quant quant' : Quant} {params params' : PictureParams} {tu : TransformBlock}
  {cQP : QpParam} (flag : quant.scalingListEnabledFlag = quant'.scalingListEnabledFlag)
  (depth : params.channelBitDepth = params'.channelBitDepth) {disableSM : Bool}
  (read : disableSMForLFNST params = .ok disableSM)
  (read' : disableSMForLFNST params' = .ok disableSM)
  (qp : 0 ≤ cQP.Qp tu.isTransformSkip)
  (matrices : quant.getUseScalingList tu.isTransformSkip (tu.lfnstIdx > 0) disableSM = true →
    ∀ rem < 6, ∀ n < tu.area,
      quant.dequantCoef tu.matrixId rem n = quant'.dequantCoef tu.matrixId rem n)
include flag

theorem getUseScalingList_congr (isTransformSkip lfnstApplied : Bool) :
    quant.getUseScalingList isTransformSkip lfnstApplied disableSM =
      quant'.getUseScalingList isTransformSkip lfnstApplied disableSM := by
  rw [getUseScalingList, getUseScalingList, flag]

include depth read read' qp matrices

theorem dequant_congr (maxTrSize : Nat) (coeffs : Nat → Int) :
    quant.dequant params tu cQP maxTrSize coeffs = quant'.dequant params' tu cQP maxTrSize coeffs := by
  have rem : cQP.rem tu.isTransformSkip < 6 := by
    unfold QpParam.rem
    rw [Int.tmod_eq_emod_of_nonneg qp]
    omega
  have block (piQCoef : Nat → Int) :
      (quant.dequantScaling params tu cQP
        (quant.getUseScalingList tu.isTransformSkip (tu.lfnstIdx > 0) disableSM)).dequantBlock
          tu.area piQCoef =
      (quant'.dequantScaling params' tu cQP
        (quant'.getUseScalingList tu.isTransformSkip (tu.lfnstIdx > 0) disableSM)).dequantBlock
          tu.area piQCoef := by
    rw [← getUseScalingList_congr flag]
    apply Scaling.dequantBlock_congr
    · simp only [dequantScaling, dequantRightShift, depth]
    · rfl
    · intro n inside
      cases enabled : quant.getUseScalingList tu.isTransformSkip (tu.lfnstIdx > 0) disableSM with
      | true => exact matrices enabled _ rem n inside
      | false => rfl
  rw [dequant, dequant, read, read']
  simp only [bind, Except.bind, block]

theorem depQuantDequant_congr (used : params.depQuantEnabledFlag = params'.depQuantEnabledFlag)
    (maxTrSize : Nat) (coeffs : Nat → Int) :
    quant.depQuantDequant params tu cQP maxTrSize coeffs =
      quant'.depQuantDequant params' tu cQP maxTrSize coeffs := by
  have rem : (cQP.Qp tu.isTransformSkip + 1 -
      6 * (cQP.Qp tu.isTransformSkip + 1).tdiv 6).toNat < 6 := by
    rw [Int.tdiv_eq_ediv_of_nonneg (by omega)]
    omega
  have block : tu.dequantBlock (quant.depQuantParams params tu cQP
        (quant.getUseScalingList tu.isTransformSkip (tu.lfnstIdx > 0) disableSM)) coeffs =
      tu.dequantBlock (quant'.depQuantParams params' tu cQP
        (quant'.getUseScalingList tu.isTransformSkip (tu.lfnstIdx > 0) disableSM)) coeffs := by
    rw [← getUseScalingList_congr flag]
    apply DQIntern.TransformUnit.dequantBlock_congr
    · simp only [depQuantParams, depth]
    · rfl
    · rfl
    · intro enabled n inside
      exact matrices enabled _ rem n inside
    · rfl
  rw [depQuantDequant, depQuantDequant, read, read', used,
    dequant_congr flag depth read read' qp matrices]
  simp only [bind, Except.bind, block]

end

/-! ## A matrix that is not written -/

/-- Matrices as an earlier picture with a uniform list left them. -/
def leftMatrices (c : Int) : Quant where
  quantCoef _ _ _ := 0
  dequantCoef id rem _ := g_invQuantScales (blockIsNotPowerOf4 id.width id.height) rem * c
  scalingListEnabledFlag := true

theorem exactCoeff_of_scale_zero {s : Scaling} {n : Nat} (scale : s.scale n = 0) (level : Int) :
    s.exactCoeff level n = 0 := by
  rw [Scaling.exactCoeff, scale, Int.mul_zero, roundShift, Int.cast_zero, zero_mul, round_zero]
  decide

/-- A level of one does not vanish if the scale is large. -/
theorem exactCoeff_one_pos {s : Scaling} {n : Nat} (bits : 1 ≤ s.inputBits)
    (shift : s.rightShift ≤ 14) (scale : 2 ^ 13 ≤ s.scale n) : 1 ≤ s.exactCoeff 1 n := by
  have power : (2 : Int) ^ 1 ≤ 2 ^ s.inputBits := pow_le_pow_right₀ (by decide) bits
  have level : ChromaQpMappingTableParams.Clip3 (-2 ^ s.inputBits) (2 ^ s.inputBits - 1) 1 = 1 := by
    unfold ChromaQpMappingTableParams.Clip3
    omega
  have rounded : 1 ≤ roundShift (s.scale n) s.rightShift := by
    have shrink : (2 : ℚ) ^ (-14 : Int) ≤ 2 ^ (-s.rightShift) :=
      zpow_le_zpow_right₀ (by norm_num) (by omega)
    have large : ((2 ^ 13 : Int) : ℚ) ≤ s.scale n := Int.cast_le.mpr scale
    have half : (1 : ℚ) / 2 ≤ s.scale n * 2 ^ (-s.rightShift) :=
      calc (1 : ℚ) / 2 = ((2 ^ 13 : Int) : ℚ) * 2 ^ (-14 : Int) := by norm_num
        _ ≤ s.scale n * 2 ^ (-s.rightShift) := by gcongr
    rw [roundShift, round_eq, Int.le_floor]
    push_cast
    linarith
  rw [Scaling.exactCoeff, level, Int.one_mul]
  unfold ChromaQpMappingTableParams.Clip3 maxLog2TrDynamicRange
  omega

section

variable {params : PictureParams} {tu : TransformBlock} {cQP : QpParam}
  (depth : 8 ≤ params.channelBitDepth ∧ params.channelBitDepth ≤ 12)
  (qp : 0 ≤ cQP.Qp tu.isTransformSkip ∧ cQP.Qp tu.isTransformSkip ≤ 87)
  (large : tu.matrixId.largeSideId = 6) (chroma : tu.matrixId.luma = false) {disableSM : Bool}
  (read : disableSMForLFNST params = .ok disableSM) (applies : tu.isTransformSkip = false ∧
    (tu.lfnstIdx = 0 ∨ disableSM = false)) {maxTrSize : Nat} (narrow : tu.width ≤ maxTrSize)
include depth qp large chroma read applies narrow

/-- The first coefficient of a block of ones, from a matrix that an earlier picture left. -/
theorem dequant_left (scalingList : ScalingList) {c : Int} (entry : 0 ≤ c ∧ c ≤ 255) :
    ∃ coefficients, (((leftMatrices c).setScalingListDec scalingList).setUseScalingList
        true).dequant params tu cQP maxTrSize (fun _ => 1) = .ok coefficients ∧
      ∃ first, coefficients[0]? = some first ∧ (c = 0 → first = 0) ∧ (c = 255 → 1 ≤ first) := by
  set quant := ((leftMatrices c).setScalingListDec scalingList).setUseScalingList true
  have matrix (rem n : Nat) : quant.dequantCoef tu.matrixId rem n =
      g_invQuantScales (blockIsNotPowerOf4 tu.width tu.height) rem * c :=
    congrFun (congrFun (dequantCoef_of_chroma large chroma scalingList (leftMatrices c)) rem) n
  have enabled :
      quant.getUseScalingList tu.isTransformSkip (tu.lfnstIdx > 0) disableSM = true := by
    obtain ⟨transform, lfnst⟩ := applies
    unfold getUseScalingList
    rcases lfnst with none' | kept
    · simp [transform, none']
      rfl
    · simp [transform, kept]
      rfl
  have fits := @fits_dequantScaling quant _ _ _ depth qp true fun _ n _ =>
    ⟨c, entry.1, entry.2, matrix (cQP.rem tu.isTransformSkip) n⟩
  obtain ⟨shiftLow, shiftHigh⟩ := dequantRightShift_mem depth qp true
  obtain ⟨-, -, rem⟩ := per_mem qp
  have first : (if tu.bdpcm then tu.invResDPCM (fun _ => 1) else fun _ => 1 : Nat → Int) 0 = 1 := by
    have width : 0 % tu.width = 0 := Nat.zero_mod _
    have line : 0 / tu.width = 0 := Nat.zero_div _
    split
    · simp only [TransformBlock.invResDPCM, width, line, TransformBlock.sumLevels, ite_self]
    · rfl
  have area : 0 < tu.area := Nat.mul_pos (Nat.two_pow_pos _) (Nat.two_pow_pos _)
  rw [dequant_eq_dequantBlock quant params tu cQP read narrow, enabled,
    Scaling.dequantBlock_eq fits]
  refine ⟨_, rfl, _, by rw [List.getElem?_map, List.getElem?_range area]; rfl, ?_, ?_⟩
  · rintro rfl
    exact exactCoeff_of_scale_zero (by
      change quant.dequantCoef _ _ _ = 0
      rw [matrix, Int.mul_zero]) _
  · rintro rfl
    dsimp only
    rw [first]
    apply exactCoeff_one_pos
    · have bits := fits.coefBits
      unfold Scaling.inputBits maxLog2TrDynamicRange
      rw [bits]
      change 1 ≤ min 15 (31 + dequantRightShift params tu cQP true - 15).toNat
      omega
    · exact shiftHigh
    · change 2 ^ 13 ≤ quant.dequantCoef _ _ _
      rw [matrix]
      have scale : 40 ≤ g_invQuantScales (blockIsNotPowerOf4 tu.width tu.height)
          (cQP.rem tu.isTransformSkip) := by
        have all : ∀ notPowerOf4 : Bool, ∀ rem : Fin 6, 40 ≤ g_invQuantScales notPowerOf4 rem := by
          decide
        exact all _ ⟨_, rem⟩
      omega

end

end Quant

namespace ScalingListSetup

variable {AlfParam SliceReshapeInfo : Type} (setup : ScalingListSetup AlfParam SliceReshapeInfo)

/-- The list of the picture: that of its APS, or the default one. -/
@[grind =] def inForce : Option ScalingList :=
  if setup.scalingListFlag then
    if setup.scalingListPresentFlag then
      (setup.apsMap.getAPS setup.scalingListApsId .SCALING_LIST_APS).map
        fun scalingListAPS => scalingListAPS.scalingListApsInfo
    else some (ScalingList.construct setup.memory).setDefaultScalingList
  else none

/-- Whatever the matrices held before, the dequantisers find a list and compute what they would
with all matrices and the pointer those of the list in force. -/
def UsesListInForce (tu : TransformBlock) (cQP : QpParam) (channelBitDepth : Int)
    (depQuantEnabledFlag : Bool) (maxTrSize : Nat) (scalingListAPS : Option ScalingList) : Prop :=
  let params := setup.params scalingListAPS channelBitDepth depQuantEnabledFlag
  let params' := setup.params setup.inForce channelBitDepth depQuantEnabledFlag
  (∃ disableSM, Quant.disableSMForLFNST params = .ok disableSM) ∧
    ∀ before quant, setup.setupQuant scalingListAPS before = .ok quant → ∀ coeffs,
      quant.dequant params tu cQP maxTrSize coeffs =
          (Quant.ofList setup.inForce).dequant params' tu cQP maxTrSize coeffs ∧
        quant.depQuantDequant params tu cQP maxTrSize coeffs =
          (Quant.ofList setup.inForce).depQuantDequant params' tu cQP maxTrSize coeffs

/-- The blocks to which a list applies. -/
def Applies (scalingList : ScalingList) (tu : TransformBlock) : Prop :=
  tu.isTransformSkip = false ∧
    (tu.lfnstIdx = 0 ∨ scalingList.disableScalingMatrixForLfnstBlks = false)

instance (scalingList : ScalingList) (tu : TransformBlock) :
    Decidable (Applies scalingList tu) := inferInstanceAs (Decidable (_ ∧ _))

section

variable {setup} {scalingListAPS : Option ScalingList}
  (activated : setup.activateScalingListAPS = .ok scalingListAPS)
include activated

/-- The pointer is null exactly if the picture has no APS; otherwise it points to the list in
force. -/
theorem activated_pointer :
    (setup.scalingListPresentFlag = false ∧ scalingListAPS = none) ∨
      ∃ scalingList, setup.scalingListPresentFlag = true ∧ scalingListAPS = some scalingList ∧
        (setup.scalingListFlag = true → setup.inForce = some scalingList) := by
  unfold activateScalingListAPS at activated
  unfold inForce
  cases present : setup.scalingListPresentFlag with
  | false =>
      simp only [present, Bool.false_eq_true, if_false] at activated
      cases activated
      exact Or.inl ⟨rfl, rfl⟩
  | true =>
      right
      simp only [present, if_true] at activated
      cases stored : setup.apsMap.getAPS setup.scalingListApsId .SCALING_LIST_APS with
      | none =>
          simp only [stored] at activated
          cases activated
      | some aps =>
          simp only [stored] at activated
          by_cases above : aps.temporalId > setup.tLayer
          · simp only [CHECK, above, if_true] at activated
            cases activated
          · simp only [CHECK, above, if_false] at activated
            cases activated
            exact ⟨_, rfl, rfl, fun flag => by rw [if_pos flag]; rfl⟩

omit activated in
/-- Without scaling lists the quantiser is left with flat scaling. -/
theorem setupQuant_flat (flag : setup.scalingListFlag = false) (before : Quant) :
    setup.setupQuant scalingListAPS before = .ok (before.setUseScalingList false) ∧
      setup.inForce = none := by
  unfold setupQuant inForce
  simp only [flag, Bool.false_eq_true, if_false]
  exact ⟨rfl, trivial⟩

/-- The quantiser gets the list in force. -/
theorem setupQuant_list (flag : setup.scalingListFlag = true) (before : Quant) :
    ∃ scalingList, setup.inForce = some scalingList ∧
      setup.setupQuant scalingListAPS before =
        .ok ((before.setScalingListDec scalingList).setUseScalingList true) := by
  rcases activated_pointer activated with ⟨absent, rfl⟩ | ⟨scalingList, present, rfl, list⟩
  · refine ⟨(ScalingList.construct setup.memory).setDefaultScalingList, ?_, ?_⟩
    · rw [inForce, if_pos flag, absent]
      rfl
    · simp only [setupQuant, ScalingListSetup.scalingList, flag, absent, if_true,
        Bool.false_eq_true, if_false]
      rfl
  · refine ⟨scalingList, list flag, ?_⟩
    simp only [setupQuant, ScalingListSetup.scalingList, flag, present, if_true]
    rfl

/-- With the condition on the block, the matrices that the dequantisers read are those of the
list in force. -/
theorem usesListInForce_of_listed {tu : TransformBlock} {cQP : QpParam}
    (size : tu.matrixId.TransformSize) (qp : 0 ≤ cQP.Qp tu.isTransformSkip)
    (present : setup.scalingListFlag = true → setup.scalingListPresentFlag = true)
    (listed : ∀ scalingList, setup.inForce = some scalingList → Applies scalingList tu →
      tu.matrixId.largeSideId = 6 → tu.matrixId.luma = true)
    (channelBitDepth : Int) (depQuantEnabledFlag : Bool) (maxTrSize : Nat) :
    setup.UsesListInForce tu cQP channelBitDepth depQuantEnabledFlag maxTrSize scalingListAPS := by
  unfold UsesListInForce
  intro params params'
  cases flag : setup.scalingListFlag with
  | false =>
      have read : Quant.disableSMForLFNST params = .ok false :=
        if_neg (by rw [show params.scalingListFlag = false from flag]; decide)
      have read' : Quant.disableSMForLFNST params' = .ok false :=
        if_neg (by rw [show params'.scalingListFlag = false from flag]; decide)
      refine ⟨⟨false, read⟩, fun before quant installed coeffs => ?_⟩
      obtain ⟨setup', none'⟩ := @setupQuant_flat _ _ setup scalingListAPS flag before
      obtain rfl := Except.ok.inj (setup'.symm.trans installed)
      have same : (before.setUseScalingList false).scalingListEnabledFlag =
          (Quant.ofList setup.inForce).scalingListEnabledFlag := by rw [none']; rfl
      have matrices (use : (before.setUseScalingList false).getUseScalingList tu.isTransformSkip
          (tu.lfnstIdx > 0) false = true) : ∀ rem < 6, ∀ n < tu.area,
            (before.setUseScalingList false).dequantCoef tu.matrixId rem n =
              (Quant.ofList setup.inForce).dequantCoef tu.matrixId rem n := by
        simp [Quant.getUseScalingList, Quant.setUseScalingList] at use
      have depth : params.channelBitDepth = params'.channelBitDepth := rfl
      exact ⟨Quant.dequant_congr same depth read read' qp matrices maxTrSize coeffs,
        Quant.depQuantDequant_congr same depth read read' qp matrices rfl maxTrSize coeffs⟩
  | true =>
      rcases activated_pointer activated with ⟨absent, -⟩ | ⟨scalingList, -, pointer, list⟩
      · rw [present flag] at absent
        cases absent
      have inForce := list flag
      have same : params = params' := by
        change setup.params scalingListAPS _ _ = setup.params setup.inForce _ _
        rw [pointer, inForce]
      have read : Quant.disableSMForLFNST params =
          .ok scalingList.disableScalingMatrixForLfnstBlks := by
        unfold Quant.disableSMForLFNST
        rw [show params.scalingListFlag = true from flag,
          show params.scalingListAPS = some scalingList from pointer]
        rfl
      refine ⟨⟨_, read⟩, fun before quant installed coeffs => ?_⟩
      obtain ⟨scalingList', inForce', installed'⟩ := setupQuant_list activated flag before
      obtain rfl := Option.some.inj (inForce.symm.trans inForce')
      obtain rfl := Except.ok.inj (installed'.symm.trans installed)
      rw [← same]
      set quant := (before.setScalingListDec scalingList).setUseScalingList true
      have sameFlag : quant.scalingListEnabledFlag =
          (Quant.ofList setup.inForce).scalingListEnabledFlag := by rw [inForce]; rfl
      have matrices (use : quant.getUseScalingList tu.isTransformSkip (tu.lfnstIdx > 0)
          scalingList.disableScalingMatrixForLfnstBlks = true) : ∀ rem < 6, ∀ n < tu.area,
            quant.dequantCoef tu.matrixId rem n =
              (Quant.ofList setup.inForce).dequantCoef tu.matrixId rem n := by
        have applies : Applies scalingList tu := by
          simp only [Quant.getUseScalingList, decide_eq_true_eq, Bool.not_eq_true,
            Nat.not_lt, Nat.le_zero] at use
          exact use.2
        intro rem lt n inside
        rw [inForce]
        exact Quant.setScalingListDec_matrixOf size (listed scalingList inForce applies) lt
          scalingList before inside
      exact ⟨Quant.dequant_congr sameFlag rfl read read qp matrices maxTrSize coeffs,
        Quant.depQuantDequant_congr sameFlag rfl read read qp matrices rfl maxTrSize coeffs⟩

/-- A list that an earlier picture left in a chroma matrix is used instead. -/
theorem listed_of_usesListInForce {tu : TransformBlock} {cQP : QpParam} {channelBitDepth : Int}
    {depQuantEnabledFlag : Bool} {maxTrSize : Nat}
    (depth : 8 ≤ channelBitDepth ∧ channelBitDepth ≤ 12)
    (qp : 0 ≤ cQP.Qp tu.isTransformSkip ∧ cQP.Qp tu.isTransformSkip ≤ 87)
    (narrow : tu.width ≤ maxTrSize)
    (uses : setup.UsesListInForce tu cQP channelBitDepth depQuantEnabledFlag maxTrSize
      scalingListAPS) {scalingList : ScalingList} (inForce : setup.inForce = some scalingList)
    (applies : Applies scalingList tu) (large : tu.matrixId.largeSideId = 6) :
    tu.matrixId.luma = true := by
  obtain ⟨⟨disableSM, read⟩, uses⟩ := uses
  have flag : setup.scalingListFlag = true := by
    by_contra off
    rw [ScalingListSetup.inForce, if_neg off] at inForce
    cases inForce
  have pointer : scalingListAPS = some scalingList := by
    rcases activated_pointer activated with ⟨absent, rfl⟩ | ⟨scalingList', -, rfl, list⟩
    · unfold Quant.disableSMForLFNST params at read
      simp only [flag, if_true] at read
      cases read
    · exact (list flag).symm.trans inForce
  obtain rfl : scalingList.disableScalingMatrixForLfnstBlks = disableSM := by
    unfold Quant.disableSMForLFNST params at read
    simp only [flag, if_true, pointer] at read
    exact Except.ok.inj read
  by_contra notLuma
  have chroma : tu.matrixId.luma = false := by simpa using notLuma
  have installed (before : Quant) : setup.setupQuant scalingListAPS before =
      .ok ((before.setScalingListDec scalingList).setUseScalingList true) := by
    obtain ⟨scalingList', inForce', installed⟩ := setupQuant_list activated flag before
    obtain rfl := Option.some.inj (inForce.symm.trans inForce')
    exact installed
  -- two decoders that differ in what is left must agree
  have same := (uses _ _ (installed (Quant.leftMatrices 0)) fun _ => 1).1.trans
    (uses _ _ (installed (Quant.leftMatrices 255)) fun _ => 1).1.symm
  obtain ⟨zeros, run, first, here, isZero, -⟩ := @Quant.dequant_left _ _ _ depth qp large chroma
    _ read applies _ narrow scalingList 0 (by decide)
  obtain ⟨ones, run', first', here', -, positive⟩ := @Quant.dequant_left _ _ _ depth qp large
    chroma _ read applies _ narrow scalingList 255 (by decide)
  obtain rfl := Except.ok.inj ((run.symm.trans same).trans run')
  obtain rfl := Option.some.inj (here.symm.trans here')
  have zero := isZero rfl
  have one := positive rfl
  omega

end

/-- The dequantisers use the list in force exactly if a picture with scaling lists has an APS
and the list, where it applies, is not missing a chroma matrix for the block. -/
theorem usesListInForce_iff {setup : ScalingListSetup AlfParam SliceReshapeInfo}
    {scalingListAPS : Option ScalingList}
    (activated : setup.activateScalingListAPS = .ok scalingListAPS) {tu : TransformBlock}
    (size : ¬ (tu.log2Width = 1 ∧ tu.log2Height = 1)) {channelBitDepth : Int}
    (depth : 8 ≤ channelBitDepth ∧ channelBitDepth ≤ 12) (mapped : Int → Int)
    (qpy chromaQPOffset dqp : Int) {minQpPrimeTsMinus4 : Int} (signalled : minQpPrimeTsMinus4 ≤ 48)
    (depQuantEnabledFlag : Bool) {maxTrSize : Nat} (narrow : tu.width ≤ maxTrSize) :
    setup.UsesListInForce tu (QpParam.create tu.luma mapped qpy (6 * (channelBitDepth - 8))
        minQpPrimeTsMinus4 chromaQPOffset dqp) channelBitDepth depQuantEnabledFlag maxTrSize
        scalingListAPS ↔
      (setup.scalingListFlag = true → setup.scalingListPresentFlag = true) ∧
        ∀ scalingList, setup.inForce = some scalingList → Applies scalingList tu →
          tu.matrixId.largeSideId = 6 → tu.matrixId.luma = true := by
  obtain ⟨low, high⟩ := @QpParam.create_mem tu.luma mapped (6 * (channelBitDepth - 8)) _
    (by omega) signalled qpy chromaQPOffset dqp tu.isTransformSkip
  constructor
  · intro uses
    refine ⟨fun flag => ?_, fun scalingList inForce applies large =>
      listed_of_usesListInForce activated depth ⟨low, high.trans (by omega)⟩ narrow uses inForce
        applies large⟩
    obtain ⟨disableSM, read⟩ := uses.1
    rcases activated_pointer activated with ⟨-, rfl⟩ | ⟨_, present, -⟩
    · unfold Quant.disableSMForLFNST params at read
      simp only [flag, if_true] at read
      cases read
    · exact present
  · rintro ⟨present, listed⟩
    exact usesListInForce_of_listed activated (Quant.transformSize_matrixId size) low present
      listed _ _ _

/-- A picture of 8 bits with scaling lists on, whose APS with identifier 0 is stored. -/
def stored (scalingListPresentFlag : Bool) : ScalingListSetup Nat Nat where
  scalingListFlag := true
  scalingListPresentFlag := scalingListPresentFlag
  scalingListApsId := 0
  apsMap :=
    { paramsetMap := fun psId =>
        if psId = apsMapKey 0 .SCALING_LIST_APS then
          some ⟨false, none,
            ⟨⟨⟨0, Nat.succ_pos 31⟩, .SCALING_LIST_APS, 0, 0, 0, 0, Quant.rampList⟩, 0⟩⟩
        else none
      maxId := 256
      activePsId := []
      lastActiveParameterSet := none }
  tLayer := 0
  memory := Quant.uniformList 0

/-- A column of 1x16 samples of luma that ISP makes. -/
def isp1x16 : TransformBlock where
  __ := Quant.luma8x8
  log2Width := 0
  log2Height := 4
  width_le := by decide
  height_le := by decide
  supported := by decide

theorem usesListInForce_stored :
    (stored true).UsesListInForce isp1x16 (QpParam.create true id 32 0 0 0 0) 8 true 64
      (some Quant.rampList) :=
  (@usesListInForce_iff _ _ (stored true) (some Quant.rampList) rfl isp1x16 (by decide) 8
    (by decide) id 32 0 0 0 (by decide) true 64 (by decide)).mpr
      ⟨fun _ => rfl, fun _ _ _ large => absurd large (by decide)⟩

/-- Without an APS for the picture the pointer is null and is read. -/
theorem reads_missing_APS :
    (stored false).activateScalingListAPS = .ok none ∧
      ¬ (stored false).UsesListInForce Quant.luma8x8 (QpParam.create true id 32 0 0 0 0) 8 true 64
        none := by
  refine ⟨rfl, ?_⟩
  rintro ⟨⟨_, read⟩, -⟩
  cases read

end ScalingListSetup

end Vtm
