import Vtm.Common.Palette

/-!
# Areas and their parts

The areas a partitioner visits, the splits, and `PartitionerImpl`, which computes the
parts of an area.
-/

namespace Vtm

/-! ## Areas -/

structure Position where
  x : Int
  y : Int
deriving DecidableEq, Repr

/-- `CompArea`; the default one has no size. -/
structure CompArea extends Position where
  width : Nat
  height : Nat
deriving DecidableEq, Repr

namespace CompArea

def none : CompArea := ⟨⟨0, 0⟩, 0, 0⟩

def valid (area : CompArea) : Bool := area.width ≠ 0 ∧ area.height ≠ 0

def topRight (area : CompArea) : Position := ⟨area.x + area.width - 1, area.y⟩

def bottomLeft (area : CompArea) : Position := ⟨area.x, area.y + area.height - 1⟩

def contains (area : CompArea) (pos : Position) : Bool :=
  pos.x ≥ area.x ∧ pos.x < area.x + area.width ∧ pos.y ≥ area.y ∧ pos.y < area.y + area.height

end CompArea

/-- `UnitArea`: the blocks of the components. -/
structure UnitArea where
  blocks : List CompArea
deriving DecidableEq, Repr

namespace UnitArea

def Y (area : UnitArea) : CompArea := area.blocks.getD 0 .none

def Cb (area : UnitArea) : CompArea := area.blocks.getD 1 .none

def lumaPos (area : UnitArea) : Position := area.Y.toPosition

def chromaPos (area : UnitArea) : Position := area.Cb.toPosition

/-- `blocks[chType]`. -/
def block (area : UnitArea) : ChannelType → CompArea
  | .CHANNEL_TYPE_LUMA => area.Y
  | .CHANNEL_TYPE_CHROMA => area.Cb

def mapBlocks (area : UnitArea) (f : CompArea → CompArea) : UnitArea := ⟨area.blocks.map f⟩

end UnitArea

/-! ## Splits -/

inductive PartSplit where
  | CTU_LEVEL
  | CU_QUAD_SPLIT
  | CU_HORZ_SPLIT
  | CU_VERT_SPLIT
  | CU_TRIH_SPLIT
  | CU_TRIV_SPLIT
  | TU_MAX_TR_SPLIT
  | TU_NO_ISP
  | TU_1D_HORZ_SPLIT
  | TU_1D_VERT_SPLIT
  | SBT_VER_HALF_POS0_SPLIT
  | SBT_VER_HALF_POS1_SPLIT
  | SBT_HOR_HALF_POS0_SPLIT
  | SBT_HOR_HALF_POS1_SPLIT
  | SBT_VER_QUAD_POS0_SPLIT
  | SBT_VER_QUAD_POS1_SPLIT
  | SBT_HOR_QUAD_POS0_SPLIT
  | SBT_HOR_QUAD_POS1_SPLIT
  | CU_MT_SPLIT
  | CU_BT_SPLIT
  | CU_DONT_SPLIT
deriving DecidableEq, Repr

namespace PartSplit

/-- `split == CU_TRIH_SPLIT || split == CU_TRIV_SPLIT`. -/
def isTernary (split : PartSplit) : Bool := split = CU_TRIH_SPLIT ∨ split = CU_TRIV_SPLIT

/-- A split of the multi-type tree. -/
def isMultiType (split : PartSplit) : Bool :=
  split = CU_HORZ_SPLIT ∨ split = CU_VERT_SPLIT ∨ split = CU_TRIH_SPLIT ∨ split = CU_TRIV_SPLIT

/-- `split >= SBT_VER_HALF_POS0_SPLIT && split <= SBT_HOR_QUAD_POS1_SPLIT`. -/
def isSbt : PartSplit → Bool
  | SBT_VER_HALF_POS0_SPLIT | SBT_VER_HALF_POS1_SPLIT | SBT_HOR_HALF_POS0_SPLIT
  | SBT_HOR_HALF_POS1_SPLIT | SBT_VER_QUAD_POS0_SPLIT | SBT_VER_QUAD_POS1_SPLIT
  | SBT_HOR_QUAD_POS0_SPLIT | SBT_HOR_QUAD_POS1_SPLIT => true
  | _ => false

/-- A split of a transform unit. -/
def isTransform (split : PartSplit) : Bool := split = TU_MAX_TR_SPLIT ∨ split.isSbt

end PartSplit

def MIN_TB_SIZEY : Nat := 4
def MAX_TB_SIZEY : Nat := 64
def MIN_DUALTREE_CHROMA_WIDTH : Nat := 4
def MIN_DUALTREE_CHROMA_SIZE : Nat := 16
def MAX_CU_TILING_PARTITIONS : Nat := 64

inductive ModeType where
  | MODE_TYPE_ALL
  | MODE_TYPE_INTER
  | MODE_TYPE_INTRA
deriving DecidableEq, Repr

/-- `CodingUnit`, as far as `getSplitAtDepth` reads it. -/
structure SplitUnit where
  depth : Nat
  splitSeries : Nat
deriving DecidableEq, Repr

def getSplitAtDepth (cu : SplitUnit) (depth : Nat) : Checked PartSplit :=
  if depth ≥ cu.depth then .ok .CU_DONT_SPLIT
  else
    match (cu.splitSeries >>> (depth * 5)) &&& 31 with
    | 1 => .ok .CU_QUAD_SPLIT
    | 2 => .ok .CU_HORZ_SPLIT
    | 3 => .ok .CU_VERT_SPLIT
    | 4 => .ok .CU_TRIH_SPLIT
    | 5 => .ok .CU_TRIV_SPLIT
    | _ => .error "Unknown split mode"

/-- What the partitioner reads of a `CodingStructure`: the limits that `pcv` gives for
the slice and a channel, the picture, the slice and the coding units so far. -/
structure PartitionParams where
  maxBtDepth : ChannelType → Nat
  maxBtSize : ChannelType → Nat
  minBtSize : ChannelType → Nat
  maxTtSize : ChannelType → Nat
  minTtSize : ChannelType → Nat
  minQtSize : ChannelType → Nat
  maxTbSize : Nat
  isDualITree : Bool
  pictureY : CompArea
  cuQpDeltaSubdiv : Nat
  cuChromaQpOffsetSubdiv : Nat
  getCU : Position → ChannelType → Option SplitUnit

namespace PartitionerImpl

/-- One part of a quad split. -/
def quadPart (i : Nat) (blk : CompArea) : CompArea :=
  let height := blk.height >>> 1
  let width := blk.width >>> 1
  { x := if i % 2 = 1 then blk.x + width else blk.x
    y := if i ≥ 2 then blk.y + height else blk.y
    width, height }

def horzPart (i : Nat) (blk : CompArea) : CompArea :=
  let height := blk.height >>> 1
  { blk with height, y := if i = 1 then blk.y + height else blk.y }

def vertPart (i : Nat) (blk : CompArea) : CompArea :=
  let width := blk.width >>> 1
  { blk with width, x := if i = 1 then blk.x + width else blk.x }

/-- Along one direction: start and size of a part of a ternary split. -/
@[grind =] def ternaryPart (i : Nat) (start : Int) (size : Nat) : Int × Nat :=
  let size := size >>> 1
  let size := if i % 2 = 0 then size >>> 1 else size
  (if i = 1 then start + (size / 2 : Nat) else if i = 2 then start + (3 * size : Nat) else start,
    size)

def trihPart (i : Nat) (blk : CompArea) : CompArea :=
  let (y, height) := ternaryPart i blk.y blk.height
  { blk with y, height }

def trivPart (i : Nat) (blk : CompArea) : CompArea :=
  let (x, width) := ternaryPart i blk.x blk.width
  { blk with x, width }

def tooSmall : String := "the split causes the block to be smaller than the minimal TU size"
def csTooSmall : String := "the cs split causes the block to be smaller than the minimal TU size"

/-- `getCUSubPartitions`; `noChroma2x2` is never set. -/
def getCUSubPartitions (cuArea : UnitArea) (splitType : PartSplit) : Checked (List UnitArea) := do
  let subs (count : Nat) (part : Nat → CompArea → CompArea) : List UnitArea :=
    (List.range count).map fun i => cuArea.mapBlocks (part i)
  match splitType with
  | .CU_QUAD_SPLIT =>
      CHECK (∃ sub ∈ subs 4 quadPart, sub.Y.height < MIN_TB_SIZEY) tooSmall
      return subs 4 quadPart
  | .CU_HORZ_SPLIT =>
      CHECK (∃ sub ∈ subs 2 horzPart, sub.Y.height < MIN_TB_SIZEY) csTooSmall
      return subs 2 horzPart
  | .CU_VERT_SPLIT =>
      CHECK (∃ sub ∈ subs 2 vertPart, sub.Y.width < MIN_TB_SIZEY) tooSmall
      return subs 2 vertPart
  | .CU_TRIH_SPLIT =>
      CHECK (∃ sub ∈ subs 3 trihPart, sub.Y.height < MIN_TB_SIZEY) csTooSmall
      return subs 3 trihPart
  | .CU_TRIV_SPLIT =>
      CHECK (∃ sub ∈ subs 3 trivPart, sub.Y.width < MIN_TB_SIZEY) csTooSmall
      return subs 3 trivPart
  | _ => .error "Unknown CU sub-partitioning"

def maxRtGridSize : Nat := 3

def zScanToX : List Nat :=
  [0, 1, 0, 1, 2, 3, 2, 3, 0, 1, 0, 1, 2, 3, 2, 3, 4, 5, 4, 5, 6, 7, 6, 7, 4, 5, 4, 5, 6, 7, 6, 7,
    0, 1, 0, 1, 2, 3, 2, 3, 0, 1, 0, 1, 2, 3, 2, 3, 4, 5, 4, 5, 6, 7, 6, 7, 4, 5, 4, 5, 6, 7, 6, 7]

def zScanToY : List Nat :=
  [0, 0, 1, 1, 0, 0, 1, 1, 2, 2, 3, 3, 2, 2, 3, 3, 0, 0, 1, 1, 0, 0, 1, 1, 2, 2, 3, 3, 2, 2, 3, 3,
    4, 4, 5, 5, 4, 4, 5, 5, 6, 6, 7, 7, 6, 6, 7, 7, 4, 4, 5, 5, 4, 4, 5, 5, 6, 6, 7, 7, 6, 6, 7, 7]

def rsScanToZ : List Nat :=
  [0, 1, 4, 5, 16, 17, 20, 21, 2, 3, 6, 7, 18, 19, 22, 23, 8, 9, 12, 13, 24, 25, 28, 29,
    10, 11, 14, 15, 26, 27, 30, 31, 32, 33, 36, 37, 48, 49, 52, 53, 34, 35, 38, 39, 50, 51, 54, 55,
    40, 41, 44, 45, 56, 57, 60, 61, 42, 43, 46, 47, 58, 59, 62, 63]

/-- One tile of `getMaxTuTiling`. -/
@[grind =] def maxTuPart (numTilesH numTilesV i : Nat) (comp : CompArea) : CompArea :=
  if comp.valid then
    let rsy := i / numTilesH
    let rsx := i % numTilesH
    let z := rsScanToZ.getD ((rsy <<< maxRtGridSize) + rsx) 0
    let width := comp.width / numTilesH
    let height := comp.height / numTilesV
    { x := comp.x + (width * zScanToX.getD z 0 : Nat)
      y := comp.y + (height * zScanToY.getD z 0 : Nat)
      width, height }
  else comp

def getMaxTuTiling (cuArea : UnitArea) (maxTbSize : Nat) : Checked (List UnitArea) := do
  let area := cuArea.Y
  let maxTrSize := if area.width > 64 ∨ area.height > 64 then 64 else maxTbSize
  let numTilesH := max 1 (area.width / maxTrSize)
  let numTilesV := max 1 (area.height / maxTrSize)
  let numTiles := numTilesH * numTilesV
  CHECK (numTiles > MAX_CU_TILING_PARTITIONS)
    "CU partitioning requires more partitions than available"
  return (List.range numTiles).map fun i => cuArea.mapBlocks (maxTuPart numTilesH numTilesV i)

/-- Quarters in front of a tile of `getSbtTuTiling` and in it, along the split. -/
def sbtFactors (splitType : PartSplit) (i : Nat) : Nat × Nat :=
  match splitType with
  | .SBT_HOR_QUAD_POS0_SPLIT | .SBT_VER_QUAD_POS0_SPLIT =>
      (if i = 0 then 0 else 1, if i = 0 then 1 else 3)
  | .SBT_HOR_QUAD_POS1_SPLIT | .SBT_VER_QUAD_POS1_SPLIT =>
      (if i = 0 then 0 else 3, if i = 1 then 1 else 3)
  | _ => (if i = 0 then 0 else 2, 2)

def sbtIsHorizontal : PartSplit → Bool
  | .SBT_HOR_HALF_POS0_SPLIT | .SBT_HOR_HALF_POS1_SPLIT | .SBT_HOR_QUAD_POS0_SPLIT
  | .SBT_HOR_QUAD_POS1_SPLIT => true
  | _ => false

@[grind =] def sbtPart (splitType : PartSplit) (i : Nat) (comp : CompArea) : CompArea :=
  let (offsetFactor, factor) := sbtFactors splitType i
  if comp.valid then
    if sbtIsHorizontal splitType then
      { comp with
        y := comp.y + ((comp.height * offsetFactor) >>> 2 : Nat)
        width := (comp.width * 4) >>> 2
        height := (comp.height * factor) >>> 2 }
    else
      { comp with
        x := comp.x + ((comp.width * offsetFactor) >>> 2 : Nat)
        width := (comp.width * factor) >>> 2
        height := (comp.height * 4) >>> 2 }
  else comp

def getSbtTuTiling (cuArea : UnitArea) (splitType : PartSplit) : List UnitArea :=
  (List.range 2).map fun i => cuArea.mapBlocks (sbtPart splitType i)

end PartitionerImpl

end Vtm
