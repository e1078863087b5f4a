import Vtm.Common.UnitPartitioner

/-!
# The transform units of a coding unit

`CU::getISPSplitDim`, `getTUIntraSubPartitions`, the conditions on the size for intra
sub-partitions and sub-block transforms, and the recursion of `transform_tree`, which returns
the areas of the transform units.
-/

namespace Vtm

/-- The block of a component; there is none behind the last. -/
@[grind =] def UnitArea.comp (area : UnitArea) (compID : Nat) : CompArea := area.blocks.getD compID .none

namespace TransformTree

def MIN_CU_LOG2 : Nat := 2

def getISPSplitDim (width height : Nat) (ispType : PartSplit) : Checked Nat := do
  let divideTuInRows := ispType = .TU_1D_HORZ_SPLIT
  let splitDimensionSize := if divideTuInRows then height else width
  let nonSplitDimensionSize := if divideTuInRows then width else height
  let minNumberOfSamplesPerCu := 1 <<< (Nat.log2 MIN_TB_SIZEY <<< 1)
  let factorToMinSamples :=
    if nonSplitDimensionSize < minNumberOfSamplesPerCu then
      minNumberOfSamplesPerCu >>> Nat.log2 nonSplitDimensionSize
    else 1
  let partitionSize :=
    if splitDimensionSize >>> 2 < factorToMinSamples then factorToMinSamples
    else splitDimensionSize >>> 2
  CHECK (Nat.log2 partitionSize + Nat.log2 nonSplitDimensionSize < Nat.log2 minNumberOfSamplesPerCu)
    "A partition has less than the minimum amount of samples!"
  return partitionSize

/-- Where partition `i` starts: behind the one before. -/
def ispStart (start : Int) (splitDimensionSize : Nat) : Nat → Int
  | 0 => start
  | i + 1 => ispStart start splitDimensionSize i + splitDimensionSize

/-- The luma block of a partition. -/
def ispLuma (splitType : PartSplit) (splitDimensionSize i : Nat) (blkY : CompArea) : CompArea :=
  if splitType = .TU_1D_HORZ_SPLIT then
    { blkY with y := ispStart blkY.y splitDimensionSize i, height := splitDimensionSize }
  else { blkY with x := ispStart blkY.x splitDimensionSize i, width := splitDimensionSize }

/-- A partition; the chroma blocks of the first `partitionsWithoutChroma` are empty. -/
@[grind =] def ispPart (splitType : PartSplit) (splitDimensionSize partitionsWithoutChroma i : Nat)
    (tuArea : UnitArea) : UnitArea :=
  let blocks := tuArea.blocks.set 0 (ispLuma splitType splitDimensionSize i tuArea.Y)
  ⟨if i < partitionsWithoutChroma then (blocks.set 1 .none).set 2 .none else blocks⟩

def getTUIntraSubPartitions (tuArea : UnitArea) (isDualTree : Bool) (splitType : PartSplit) :
    Checked (List UnitArea) := do
  let splitDimensionSize ← getISPSplitDim tuArea.Y.width tuArea.Y.height splitType
  CHECK (splitType ≠ .TU_1D_HORZ_SPLIT ∧ splitType ≠ .TU_1D_VERT_SPLIT) "Unknown TU sub-partitioning"
  let side := if splitType = .TU_1D_HORZ_SPLIT then tuArea.Y.height else tuArea.Y.width
  let nPartitions := side >>> Nat.log2 splitDimensionSize
  CHECK (0 < nPartitions ∧ splitDimensionSize < 1)
    "the split causes the block to be smaller than the minimal TU size"
  let partitionsWithoutChroma := if isDualTree then nPartitions else nPartitions - 1
  return (List.range nPartitions).map fun i =>
    ispPart splitType splitDimensionSize partitionsWithoutChroma i tuArea

def canUseISP (width height maxTrSize : Nat) : Bool :=
  ¬ (Nat.log2 width + Nat.log2 height ≤ Nat.log2 MIN_TB_SIZEY <<< 1) ∧
    ¬ (width > maxTrSize ∨ height > maxTrSize)

/-- `CU::isISPLast`, for luma. -/
def isISPLast (cu : UnitArea) (ispType : PartSplit) (tuArea : CompArea) : Checked Bool :=
  match ispType with
  | .TU_1D_HORZ_SPLIT => .ok (tuArea.y + tuArea.height = cu.Y.y + cu.Y.height)
  | .TU_1D_VERT_SPLIT => .ok (tuArea.x + tuArea.width = cu.Y.x + cu.Y.width)
  | _ => .error "Unknown ISP processing order type!"

/-- `CU::isISPFirst`, for luma. -/
def isISPFirst (firstTU : UnitArea) (tuArea : CompArea) : Bool := tuArea = firstTU.Y

/-- `numTotalTUs` of `CU::allLumaCBFsAreZero`. -/
def numTotalTUs (cu : UnitArea) (ispType : PartSplit) (firstTU : UnitArea) : Nat :=
  if ispType = .TU_1D_HORZ_SPLIT then cu.Y.height >>> Nat.log2 firstTU.Y.height
  else cu.Y.width >>> Nat.log2 firstTU.Y.width

/-- `allow_type` of `checkAllowedSbt`. -/
def allowType (cuWidth cuHeight : Nat) (splitType : PartSplit) : Bool :=
  let minSbtCUSize := 1 <<< (MIN_CU_LOG2 + 1)
  match splitType with
  | .SBT_VER_HALF_POS0_SPLIT | .SBT_VER_HALF_POS1_SPLIT => cuWidth ≥ minSbtCUSize
  | .SBT_HOR_HALF_POS0_SPLIT | .SBT_HOR_HALF_POS1_SPLIT => cuHeight ≥ minSbtCUSize
  | .SBT_VER_QUAD_POS0_SPLIT | .SBT_VER_QUAD_POS1_SPLIT => cuWidth ≥ minSbtCUSize <<< 1
  | .SBT_HOR_QUAD_POS0_SPLIT | .SBT_HOR_QUAD_POS1_SPLIT => cuHeight ≥ minSbtCUSize <<< 1
  | _ => false

/-- `checkAllowedSbt`, as far as the size of the coding unit decides it. -/
def allowedSbt (cuWidth cuHeight maxSbtCUSize : Nat) (splitType : PartSplit) : Bool :=
  ¬ (cuWidth > maxSbtCUSize ∨ cuHeight > maxSbtCUSize) ∧ allowType cuWidth cuHeight splitType

/-- The position of the residual. -/
def sbtPos : PartSplit → Nat
  | .SBT_VER_HALF_POS1_SPLIT | .SBT_HOR_HALF_POS1_SPLIT | .SBT_VER_QUAD_POS1_SPLIT
  | .SBT_HOR_QUAD_POS1_SPLIT => 1
  | _ => 0

/-- `checkTuNoResidual` of a coding unit with sub-block transform. -/
def noResidual (splitType : PartSplit) (idx : Nat) : Bool :=
  sbtPos splitType = 0 ∧ idx = 1 ∨ sbtPos splitType = 1 ∧ idx = 0

/-- What `transform_tree` reads of the coding unit and of the sequence. -/
structure Params where
  maxTbSize : Nat
  isDualTree : Bool
  cuArea : UnitArea
  ispType : Option PartSplit
  sbtTuSplit : Option PartSplit

/-- `canSplit` of `TU_MAX_TR_SPLIT`; the partitioner of sub-partitions never needs it. -/
def Params.canSplitMax (cu : Params) (area : UnitArea) : Bool :=
  cu.ispType = none ∧ (area.Y.width > cu.maxTbSize ∨ area.Y.height > cu.maxTbSize)

/-- `TUIntraSubPartitioner::canSplit`. -/
def Params.canSplitIsp (cu : Params) (area : UnitArea) : Bool :=
  match cu.ispType with
  | some .TU_1D_HORZ_SPLIT => area.Y.height = cu.cuArea.Y.height
  | some .TU_1D_VERT_SPLIT => area.Y.width = cu.cuArea.Y.width
  | _ => false

/-- The parts of an area that is split once more. -/
@[grind =] def Params.tuParts (cu : Params) (trDepth : Nat) (area : UnitArea) :
    Option (Checked (List UnitArea)) :=
  if cu.canSplitMax area then some (PartitionerImpl.getMaxTuTiling area cu.maxTbSize)
  else match cu.ispType, cu.sbtTuSplit with
    | some ispType, _ =>
        if cu.canSplitIsp area then some (getTUIntraSubPartitions area cu.isDualTree ispType) else none
    | none, some split =>
        if trDepth = 0 then some (.ok (PartitionerImpl.getSbtTuTiling area split)) else none
    | none, none => none

/-- `transform_tree`: the areas of the transform units, in coding order. -/
@[grind =] def transform_tree (cu : Params) : Nat → Nat → UnitArea → Checked (List UnitArea)
  | 0, _, _ => .error "out of fuel"
  | fuel + 1, trDepth, area =>
      match cu.tuParts trDepth area with
      | none => .ok [area]
      | some split => do
          let parts ← split
          let units ← parts.mapM (transform_tree cu fuel (trDepth + 1))
          return units.flatten

end TransformTree

end Vtm
