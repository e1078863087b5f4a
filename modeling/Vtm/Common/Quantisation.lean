import Vtm.Common.Dequant

/-!
# Quantisation

`Quant::quant` for one transform block of a component: the loop over the coefficients,
`fwdResDPCM` for block DPCM and `xSignBitHidingHDQ` for sign data hiding. `TCoeff` has 32 bits.
What a local array holds before it is written is an input.
-/

namespace Vtm

open ChromaQpMappingTableParams (Clip3)
open DQIntern (int32)

def SBH_THRESHOLD : Int := 4

namespace TransformBlock

variable (tu : TransformBlock)

/-- The samples that `fwdResDPCM` rewrites, in its order. -/
def dpcmSteps : List Nat :=
  if tu.bdpcmMode = 1 then
    (List.range tu.height).flatMap fun y =>
      (List.range (tu.width - 1)).reverse.map fun x => y * tu.width + (x + 1)
  else
    (List.range (tu.height - 1)).reverse.flatMap fun y =>
      (List.range tu.width).map fun x => (y + 1) * tu.width + x

/-- The sample before another one. -/
def dpcmSource (n : Nat) : Nat := if tu.bdpcmMode = 1 then n - 1 else n - tu.width

/-- `fwdResDPCM`: the levels are replaced by differences in place. -/
def fwdResDPCM (coeffs : Nat → Int) : Nat → Int :=
  tu.dpcmSteps.foldl (fun coef n => Function.update coef n (coef n - coef (tu.dpcmSource n))) coeffs

end TransformBlock

/-! ## Sign data hiding -/

namespace SignBitHiding

@[grind =] def entropyCodingMinimum : Int := -2 ^ maxLog2TrDynamicRange

def entropyCodingMaximum : Int := 2 ^ maxLog2TrDynamicRange - 1

/-- `std::numeric_limits<TCoeff>::max()`. -/
def maxCost : Int := 2 ^ 31 - 1

/-- A sub-block: its size, and the samples by their scan positions in it. -/
structure SubBlock where
  groupSize : Nat
  blockPos : Nat → Nat

/-- `lastNZPosInCG`, searched for downwards. -/
def lastNZPosInCG (level : Nat → Int) : Nat → Int
  | 0 => -1
  | n + 1 => if level n ≠ 0 then n else lastNZPosInCG level n

def firstNZPosInCG (level : Nat → Int) (groupSize : Nat) : Nat :=
  ((List.range groupSize).find? fun n => level n ≠ 0).getD groupSize

/-- The variables of the search for the cheapest change. -/
structure Search where
  minCostInc : Int
  minPos : Option Nat
  finalChange : Int
  curChange : Int

namespace SubBlock

variable (block : SubBlock) (pQCoef pCoef deltaU : Nat → Int)

/-- The level at a scan position of the sub-block. -/
def level (n : Nat) : Int := pQCoef (block.blockPos n)

/-- `firstNZPosInCG` of the sub-block. -/
def first : Nat := firstNZPosInCG (block.level pQCoef) block.groupSize

/-- `lastNZPosInCG` of the sub-block. -/
def last : Int := lastNZPosInCG (block.level pQCoef) block.groupSize

/-- `absSum`: the sum of the levels between the two. -/
def absSum : Int :=
  ((List.range block.groupSize).filter fun n =>
    block.first pQCoef ≤ n ∧ (n : Int) ≤ block.last pQCoef).foldl
      (fun absSum n => absSum + block.level pQCoef n) 0

def signbit : Int := if block.level pQCoef (block.first pQCoef) > 0 then 0 else 1

/-- `curCost` and `curChange` for a scan position; some branches leave the latter. -/
def candidate (n : Nat) (curChange : Int) : Int × Int :=
  let blkPos := block.blockPos n
  if pQCoef blkPos ≠ 0 then
    if deltaU blkPos > 0 then (-deltaU blkPos, 1)
    else if n = block.first pQCoef ∧ |pQCoef blkPos| = 1 then (maxCost, curChange)
    else (deltaU blkPos, -1)
  else if n < block.first pQCoef then
    let thisSignBit : Int := if pCoef blkPos ≥ 0 then 0 else 1
    if thisSignBit ≠ block.signbit pQCoef then (maxCost, curChange) else (-deltaU blkPos, 1)
  else (-deltaU blkPos, 1)

/-- A round of the search. -/
@[grind =] def searchStep (n : Nat) (s : Search) : Search :=
  let (curCost, curChange) := block.candidate pQCoef pCoef deltaU n s.curChange
  if curCost < s.minCostInc then ⟨curCost, some (block.blockPos n), curChange, curChange⟩
  else { s with curChange := curChange }

/-- The search, from a scan position down to 0. -/
@[grind =] def search : Nat → Search → Search
  | 0, s => block.searchStep pQCoef pCoef deltaU 0 s
  | n + 1, s => search n (block.searchStep pQCoef pCoef deltaU (n + 1) s)

/-- The adjustment of the level that the search found. It would be out of range if the search
found none. -/
def adjust (s : Search) : Option (Nat → Int) :=
  s.minPos.map fun minPos =>
    let finalChange :=
      if pQCoef minPos = entropyCodingMaximum ∨ pQCoef minPos = entropyCodingMinimum then -1
      else s.finalChange
    Function.update pQCoef minPos
      (if pCoef minPos ≥ 0 then pQCoef minPos + finalChange else pQCoef minPos - finalChange)

/-- Whether the sign of the sub-block is hidden. -/
def hides : Bool := block.last pQCoef - block.first pQCoef ≥ SBH_THRESHOLD

/-- Whether the parity of the sub-block is wrong. -/
def mismatch : Bool := block.signbit pQCoef ≠ block.absSum pQCoef % 2

/-- The body of the loop over the sub-blocks. -/
def hide (lastCG : Int) : Option (Nat → Int) :=
  if block.hides pQCoef ∧ block.mismatch pQCoef then
    let start := if lastCG = 1 then (block.last pQCoef).toNat else block.groupSize - 1
    adjust pQCoef pCoef
      (block.search pQCoef pCoef deltaU start ⟨maxCost, none, 0, 0⟩)
  else some pQCoef

end SubBlock

/-- The loop over the sub-blocks, from the last of `count` on. -/
@[grind =] def hideSubSets (blocks : Nat → SubBlock) (pCoef deltaU : Nat → Int) :
    Nat → Int → (Nat → Int) → Option (Nat → Int)
  | 0, _, pQCoef => some pQCoef
  | subSet + 1, lastCG, pQCoef => do
      let block := blocks subSet
      let lastCG := if block.last pQCoef ≥ 0 ∧ lastCG = -1 then 1 else lastCG
      let pQCoef ← block.hide pQCoef pCoef deltaU lastCG
      hideSubSets blocks pCoef deltaU subSet (if lastCG = 1 then 0 else lastCG) pQCoef

end SignBitHiding

namespace TransformBlock

variable (tu : TransformBlock)

/-- A sub-block of the scan. -/
def subBlock (subSet : Nat) : SignBitHiding.SubBlock where
  groupSize := tu.sbbSize
  blockPos n := tu.rasterPos (n + subSet * tu.sbbSize)

/-- The number of sub-blocks that `xSignBitHidingHDQ` goes through. -/
def numSubSets : Nat := (tu.area - 1) / tu.sbbSize + 1

def xSignBitHidingHDQ (pQCoef pCoef deltaU : Nat → Int) : Option (Nat → Int) :=
  SignBitHiding.hideSubSets tu.subBlock pCoef deltaU tu.numSubSets (-1) pQCoef

end TransformBlock

/-! ## The loop over the coefficients -/

namespace Quant

/-- The variables of the loop in `quant`. -/
structure Quantisation where
  iQBits : Nat
  isIRAP : Bool
  scale : Nat → Int

namespace Quantisation

variable (q : Quantisation) (piCoef : Nat → Int) (n : Nat)

def iAdd : Int := (if q.isIRAP then 171 else 85) * 2 ^ (q.iQBits - 9)

def tmpLevel : Int := |piCoef n| * q.scale n

def quantisedMagnitude : Int := int32 ((q.tmpLevel piCoef n + q.iAdd) >>> q.iQBits)

def deltaU : Int :=
  int32 ((q.tmpLevel piCoef n - q.quantisedMagnitude piCoef n * 2 ^ q.iQBits) >>> (q.iQBits - 8))

@[grind =] def quantisedCoefficient : Int := q.quantisedMagnitude piCoef n * if piCoef n < 0 then -1 else 1

/-- The level that the loop stores. -/
def level : Int :=
  Clip3 SignBitHiding.entropyCodingMinimum SignBitHiding.entropyCodingMaximum
    (q.quantisedCoefficient piCoef n)

/-- `uiAbsSum` behind the loop over `count` coefficients. -/
def absSum (uiAbsSum : Int) (count : Nat) : Int :=
  (List.range count).foldl (fun sum n => int32 (sum + q.quantisedMagnitude piCoef n)) uiAbsSum

end Quantisation

/-- What the loop leaves. -/
structure QuantisedBlock where
  piQCoef : Nat → Int
  deltaU : Nat → Int
  uiAbsSum : Int

/-- What `quant` reads of the slice and the picture header besides. -/
structure SliceParams extends PictureParams where
  isIRAP : Bool
  signDataHidingEnabledFlag : Bool

variable (quant : Quant) (params : SliceParams) (tu : TransformBlock) (cQP : QpParam)

/-- `iQBits`. -/
def quantIQBits : Int :=
  let iTransformShift := tu.getTransformShift params.channelBitDepth +
    if tu.needsSqrt2Scale then -1 else 0
  QUANT_SHIFT + cQP.per tu.isTransformSkip + if tu.isTransformSkip then 0 else iTransformShift

/-- The loop variables of `quant`. -/
def quantisation (enableScalingLists : Bool) : Quantisation where
  iQBits := (quantIQBits params tu cQP).toNat
  isIRAP := params.isIRAP
  scale :=
    if enableScalingLists then quant.quantCoef tu.matrixId (cQP.rem tu.isTransformSkip)
    else fun _ => g_quantScales tu.needsSqrt2Scale (cQP.rem tu.isTransformSkip)

def maxNumberOfCoeffs : Nat :=
  if tu.lfnstIdx > 0 then
    if (tu.width = 4 ∧ tu.height = 4) ∨ (tu.width = 8 ∧ tu.height = 8) then 8 else 16
  else tu.area

/-- The loop. -/
def quantiseBlock (q : Quantisation) (piCoef memory : Nat → Int) (uiAbsSum : Int) :
    QuantisedBlock where
  piQCoef n := if n < maxNumberOfCoeffs tu then q.level piCoef n else 0
  deltaU n := if n < maxNumberOfCoeffs tu then q.deltaU piCoef n else memory n
  uiAbsSum := q.absSum piCoef uiAbsSum (maxNumberOfCoeffs tu)

/-- `Quant::quant` behind the loop. -/
def finishLevels (block : QuantisedBlock) (piCoef : Nat → Int) : Option (Nat → Int) :=
  let piQCoef := if tu.bdpcm then tu.fwdResDPCM block.piQCoef else block.piQCoef
  if params.signDataHidingEnabledFlag ∧ block.uiAbsSum ≥ 2 then
    tu.xSignBitHidingHDQ piQCoef piCoef block.deltaU
  else some piQCoef

/-- `Quant::quant`: the levels and `uiAbsSum`. `memory` is what `deltaU` holds at first. -/
def quantLevels (piCoef memory : Nat → Int) (uiAbsSum : Int) : Checked ((Nat → Int) × Int) := do
  CHECK (tu.getScalingListType ≥ SCALING_LIST_NUM) "Invalid scaling list"
  let disableSM ← disableSMForLFNST params.toPictureParams
  let enableScalingLists :=
    quant.getUseScalingList tu.isTransformSkip (tu.lfnstIdx > 0) disableSM
  let block := quantiseBlock tu (quant.quantisation params tu cQP enableScalingLists) piCoef memory
    uiAbsSum
  match finishLevels params tu block piCoef with
  | some piQCoef => return (piQCoef, block.uiAbsSum)
  | none => throw "index out of range"

def xTransformSkip (resi : Nat → Int) : Nat → Int := resi

/-- `xITransformSkip`: the samples are of type `Pel`, which has 16 bits. -/
def xITransformSkip (pCoeff : List Int) : List Int := pCoeff.map fun coeff => coeff.bmod (2 ^ 16)

/-- The residual that is left of a block behind transform skip, quantisation and back. -/
def codeTransformSkip (maxTrSize : Nat) (memory resi : Nat → Int) : Checked (List Int) := do
  let (levels, _) ← quant.quantLevels params tu cQP (xTransformSkip resi) memory 0
  let coeffs ← quant.dequant params.toPictureParams tu cQP maxTrSize levels
  return xITransformSkip coeffs

end Quant

end Vtm
