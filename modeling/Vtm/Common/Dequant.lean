import Vtm.Common.Quant
import Vtm.Common.ChromaQpMapping

/-!
# Dequantisation

`Quant::dequant` and `DepQuant::dequant` for one transform block of a component.
`Intermediate_Int` is `int`: a value that does not fit is a signed overflow, which is an
error here. Extended precision is refused by the decoder, so the dynamic range has 15 bits.
-/

namespace Vtm

open ChromaQpMappingTableParams (Clip3)

/-- `getMaxLog2TrDynamicRange`. -/
def maxLog2TrDynamicRange : Nat := 15

/-- `QpParam`; the argument is whether the transform is skipped. -/
structure QpParam where
  Qp : Bool → Int

namespace QpParam

variable (cQP : QpParam) (ts : Bool)

def per : Int := (cQP.Qp ts).tdiv 6
def rem : Nat := ((cQP.Qp ts).tmod 6).toNat

/-- The constructor. `mapped` is `getMappedChromaQpValue` of the component. -/
def create (luma : Bool) (mapped : Int → Int)
    (qpy qpBdOffset minQpPrimeTsMinus4 chromaQPOffset dqp : Int) : QpParam :=
  let baseQp :=
    if luma then qpy + qpBdOffset
    else
      Clip3 (-qpBdOffset) ChromaQpMappingTableParams.MAX_QP
        (mapped (Clip3 (-qpBdOffset) ChromaQpMappingTableParams.MAX_QP qpy) + chromaQPOffset) +
          qpBdOffset
  let baseQp := Clip3 0 (ChromaQpMappingTableParams.MAX_QP + qpBdOffset) (baseQp + dqp)
  ⟨fun ts => if ts then max baseQp (4 + minQpPrimeTsMinus4) else baseQp⟩

end QpParam

/-- A `TransformUnit` with what the quantisers read besides. `bdpcmMode` is the one of the
component's channel. -/
structure TransformBlock extends DQIntern.TransformUnit where
  compID : Nat
  predModeIntra : Bool
  bdpcmMode : Nat
  compID_lt : compID < 3
  luma_eq : luma = decide (compID = 0)

namespace TransformBlock

variable (tu : TransformBlock)

def isTransformSkip : Bool := tu.mtsIdx = DQIntern.MTS_SKIP

/-- `TU::needsSqrt2Scale`, and `TU::needsBlockSizeTrafoScale`, as all sides are powers of
two. -/
def needsSqrt2Scale : Bool := !tu.isTransformSkip ∧ (tu.log2Width + tu.log2Height) % 2 = 1

def getTransformShift (channelBitDepth : Int) : Int :=
  maxLog2TrDynamicRange - channelBitDepth - ((tu.log2Width + tu.log2Height) / 2 : Nat)

def getScalingListType : Nat := (if tu.predModeIntra then 0 else 3) + tu.compID

/-- The matrix of the block. -/
def matrixId : MatrixId := ⟨tu.log2Width, tu.log2Height, tu.getScalingListType⟩

/-- A row of `invResDPCM`, or a column: the levels are summed up with a clip at every step. -/
def sumLevels (level : Nat → Int) : Nat → Int
  | 0 => level 0
  | k + 1 => Clip3 (-2 ^ maxLog2TrDynamicRange) (2 ^ maxLog2TrDynamicRange - 1)
      (sumLevels level k + level (k + 1))

def invResDPCM (coeffs : Nat → Int) (n : Nat) : Int :=
  let x := n % tu.width
  let y := n / tu.width
  if tu.bdpcmMode = 1 then sumLevels (fun x => coeffs (y * tu.width + x)) x
  else sumLevels (fun y => coeffs (y * tu.width + x)) y

/-- `tu.cu->bdpcmMode && isLuma(compID) || tu.cu->bdpcmModeChroma && isChroma(compID)`. -/
def bdpcm : Bool := tu.bdpcmMode ≠ 0

end TransformBlock

namespace Quant

/-- A value of type `Intermediate_Int`. -/
def intermediate (z : Int) : Checked Int :=
  if -2 ^ 31 ≤ z ∧ z < 2 ^ 31 then .ok z else .error "signed overflow"

/-- `1 << shift`. -/
def shiftOne (shift : Nat) : Checked Int :=
  if shift < 31 then .ok (2 ^ shift) else .error "signed overflow"

/-- The variables of the loops in `dequant`. `coefBits` is `dequantCoefBits` or
`scaleBits`. -/
structure Scaling where
  rightShift : Int
  coefBits : Int
  scale : Nat → Int

namespace Scaling

variable (s : Scaling)

/-- `targetInputBitDepth`, computed in unsigned words. -/
def targetInputBitDepth : Nat :=
  min (maxLog2TrDynamicRange + 1) ((32 + s.rightShift - s.coefBits) % 2 ^ 32).toNat

/-- `inputMinimum` and `inputMaximum`. -/
def inputRange : Checked (Int × Int) := do
  let power ← shiftOne ((s.targetInputBitDepth + (2 ^ 32 - 1)) % 2 ^ 32)
  return (-power, power - 1)

/-- A round of the loops. -/
def dequantCoeff (range : Int × Int) (piQCoef : Nat → Int) (n : Nat) : Checked Int := do
  let clipQCoef := Clip3 range.1 range.2 (piQCoef n)
  let product ← intermediate (clipQCoef * s.scale n)
  let iCoeffQ ←
    if s.rightShift > 0 then do
      let iAdd ← shiftOne (s.rightShift - 1).toNat
      let sum ← intermediate (product + iAdd)
      pure (sum >>> s.rightShift.toNat)
    else intermediate (product * 2 ^ (-s.rightShift).toNat)
  return Clip3 (-2 ^ maxLog2TrDynamicRange) (2 ^ maxLog2TrDynamicRange - 1) iCoeffQ

/-- The loops. -/
def dequantBlock (numSamplesInBlock : Nat) (piQCoef : Nat → Int) : Checked (List Int) := do
  let range ← s.inputRange
  (List.range numSamplesInBlock).mapM (s.dequantCoeff range piQCoef)

end Scaling

/-- What the dequantisers read of the SPS and the picture header. A picture header without
the pointer to a scaling list APS has a null pointer. -/
structure PictureParams where
  channelBitDepth : Int
  scalingListFlag : Bool
  scalingListAPS : Option ScalingList
  depQuantEnabledFlag : Bool

@[grind =] def disableSMForLFNST (params : PictureParams) : Checked Bool :=
  if params.scalingListFlag then
    match params.scalingListAPS with
    | some scalingList => .ok scalingList.disableScalingMatrixForLfnstBlks
    | none => .error "null scaling list APS"
  else .ok false

variable (quant : Quant) (params : PictureParams) (tu : TransformBlock) (cQP : QpParam)

@[grind =] def getUseScalingList (isTransformSkip lfnstApplied disableScalingMatrixForLFNSTBlks : Bool) :
    Bool :=
  quant.scalingListEnabledFlag ∧ ¬ isTransformSkip ∧
    (¬ lfnstApplied ∨ ¬ disableScalingMatrixForLFNSTBlks)

/-- `rightShift` of `dequant`. -/
def dequantRightShift (enableScalingLists : Bool) : Int :=
  let iTransformShift := tu.getTransformShift params.channelBitDepth +
    if tu.needsSqrt2Scale then -1 else 0
  IQUANT_SHIFT - ((if tu.isTransformSkip then 0 else iTransformShift) + cQP.per tu.isTransformSkip) +
    if enableScalingLists then LOG2_SCALING_LIST_NEUTRAL_VALUE else 0

/-- The loop variables of `dequant`. -/
def dequantScaling (enableScalingLists : Bool) : Scaling where
  rightShift := dequantRightShift params tu cQP enableScalingLists
  coefBits := 1 + IQUANT_SHIFT + if enableScalingLists then SCALING_LIST_BITS else 0
  scale :=
    if enableScalingLists then quant.dequantCoef tu.matrixId (cQP.rem tu.isTransformSkip)
    else fun _ => g_invQuantScales tu.needsSqrt2Scale (cQP.rem tu.isTransformSkip)

def dequant (maxTrSize : Nat) (coeffs : Nat → Int) : Checked (List Int) := do
  let disableSM ← disableSMForLFNST params
  let enableScalingLists :=
    quant.getUseScalingList tu.isTransformSkip (tu.lfnstIdx > 0) disableSM
  let piQCoef := if tu.bdpcm then tu.invResDPCM coeffs else coeffs
  CHECK (tu.getScalingListType ≥ SCALING_LIST_NUM) "Invalid scaling list"
  CHECK (tu.width > maxTrSize) "Unsupported transformation size"
  (quant.dequantScaling params tu cQP enableScalingLists).dequantBlock tu.area piQCoef

/-- The parameters of `Quantizer::dequantBlock`. -/
def depQuantParams (enableScalingLists : Bool) : DQIntern.DequantParams :=
  let qpDQ := cQP.Qp tu.isTransformSkip + 1
  let qpPer := qpDQ.tdiv 6
  let qpRem := (qpDQ - 6 * qpPer).toNat
  let transformShift := tu.getTransformShift params.channelBitDepth +
    if tu.needsSqrt2Scale then -1 else 0
  { shift := IQUANT_SHIFT + 1 - qpPer - transformShift +
      if enableScalingLists then LOG2_SCALING_LIST_NEUTRAL_VALUE else 0
    invQScale := g_invQuantScales tu.needsSqrt2Scale qpRem
    maxLog2TrDynamicRange := maxLog2TrDynamicRange
    enableScalingLists := enableScalingLists
    piDequantCoef := quant.dequantCoef tu.matrixId qpRem }

/-- `DepQuant::dequant`: the dependent quantiser, or else `Quant::dequant`. -/
def depQuantDequant (maxTrSize : Nat) (coeffs : Nat → Int) :
    Checked (List DQIntern.DequantStep ⊕ List Int) := do
  if params.depQuantEnabledFlag ∧ ¬ tu.isTransformSkip then
    CHECK (tu.getScalingListType ≥ SCALING_LIST_NUM) "Invalid scaling list"
    let disableSM ← disableSMForLFNST params
    let enableScalingLists :=
      quant.getUseScalingList tu.isTransformSkip (tu.lfnstIdx > 0) disableSM
    return .inl (tu.dequantBlock (quant.depQuantParams params tu cQP enableScalingLists) coeffs)
  else return .inr (← quant.dequant params tu cQP maxTrSize coeffs)

end Quant

end Vtm
