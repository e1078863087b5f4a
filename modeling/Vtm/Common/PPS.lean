import Mathlib.Algebra.Order.Ring.Nat
import Mathlib.Data.List.Basic

/-!
# Picture parameter set: tiles, bricks and slices

The members of `PPS` that describe how a picture is cut into tiles, tiles into
bricks and bricks into slices, with the sizes `BrickMap` derives from them.
Counts and sizes are natural numbers; only the slice count, which the reader can
set to -1, and the index deltas are integers.
-/

namespace Vtm

/-- The members of `SPS` the layout depends on. -/
structure SPS where
  maxCUWidth : Nat
  maxCUHeight : Nat
deriving DecidableEq, Repr

/-- The layout members of `PPS`, with the values of its constructor. -/
structure PPS where
  picWidthInLumaSamples : Nat := 352
  picHeightInLumaSamples : Nat := 288
  singleTileInPicFlag : Bool := true
  uniformTileSpacingFlag : Bool := false
  tileColsWidthMinus1 : Nat := 0
  tileRowsHeightMinus1 : Nat := 0
  numTileColumnsMinus1 : Nat := 0
  numTileRowsMinus1 : Nat := 0
  tileColumnWidth : List Nat := []
  tileRowHeight : List Nat := []
  tileHeight : List Nat := []
  numTilesInPic : Nat := 1
  brickSplittingPresentFlag : Bool := false
  brickSplitFlag : List Bool := []
  uniformBrickSpacingFlag : List Bool := []
  brickHeightMinus1 : List Nat := []
  numBrickRowsMinus2 : List Nat := []
  brickRowHeightMinus1 : List (List Nat) := []
  singleBrickPerSliceFlag : Bool := true
  rectSliceFlag : Bool := true
  numSlicesInPicMinus1 : Int := 0
  topLeftBrickIdx : List Nat := []
  bottomRightBrickIdx : List Nat := []
  bottomRightBrickIdxDelta : List Int := []
  loopFilterAcrossBricksEnabledFlag : Bool := true
  loopFilterAcrossSlicesEnabledFlag : Bool := false
  signalledSliceIdFlag : Bool := false
  signalledSliceIdLengthMinus1 : Nat := 0
  sliceId : List Nat := []
deriving DecidableEq, Repr

def floorLog2 (x : Nat) : Int := if x = 0 then -1 else Nat.log2 x

def ceilLog2 (x : Nat) : Int := if x = 0 then -1 else floorLog2 (x - 1) + 1

theorem ceilLog2_of_one_lt {x : Nat} (several : 1 < x) :
    ceilLog2 x = (Nat.log2 (x - 1) + 1 : Nat) := by
  unfold ceilLog2 floorLog2
  rw [if_neg (by omega), if_neg (by omega)]
  rfl

/-- An `int` passed as a `uint32_t`. -/
def word (i : Int) : Nat := (i % (2 ^ 32 : Nat)).toNat

theorem word_of_nonneg {i : Int} (low : 0 ≤ i) (high : i < 2 ^ 32) : word i = i.toNat := by
  unfold word
  omega

/-- The loops that cut `remaining` into pieces of `size`; the last piece is what
is left. `fuel` bounds the rounds. -/
@[grind =] def uniformSizes (size : Nat) : Nat → Nat → List Nat
  | 0, remaining => [remaining]
  | fuel + 1, remaining =>
      if remaining > size then size :: uniformSizes size fuel (remaining - size) else [remaining]

namespace PPS

def picWidthInCtus (sps : SPS) (pps : PPS) : Nat :=
  (pps.picWidthInLumaSamples + sps.maxCUWidth - 1) / sps.maxCUWidth

def picHeightInCtus (sps : SPS) (pps : PPS) : Nat :=
  (pps.picHeightInLumaSamples + sps.maxCUHeight - 1) / sps.maxCUHeight

/-- Explicit sizes and what they leave of `total`. -/
@[grind =] def explicitSizes (sizes : List Nat) (total : Nat) : List Nat :=
  sizes ++ [total - sizes.sum]

/-- `tileColWidth` of `initBrickMap`. -/
@[grind =] def tileColWidth (sps : SPS) (pps : PPS) : List Nat :=
  if pps.uniformTileSpacingFlag then
    uniformSizes (pps.tileColsWidthMinus1 + 1) (pps.picWidthInCtus sps) (pps.picWidthInCtus sps)
  else explicitSizes (pps.tileColumnWidth.take pps.numTileColumnsMinus1) (pps.picWidthInCtus sps)

/-- `tileRowHeight` of `initBrickMap`. -/
@[grind =] def tileRowHeights (sps : SPS) (pps : PPS) : List Nat :=
  if pps.uniformTileSpacingFlag then
    uniformSizes (pps.tileRowsHeightMinus1 + 1) (pps.picHeightInCtus sps) (pps.picHeightInCtus sps)
  else explicitSizes (pps.tileRowHeight.take pps.numTileRowsMinus1) (pps.picHeightInCtus sps)

/-- How one tile is cut into bricks. -/
inductive BrickSplit where
  | whole
  | uniform (heightMinus1 : Nat)
  | explicit (rowHeightsMinus1 : List Nat)
deriving DecidableEq, Repr

/-- The brick members of tile `i`. -/
@[grind =] def brickSplit (pps : PPS) (i : Nat) : BrickSplit :=
  if pps.brickSplittingPresentFlag && pps.brickSplitFlag.getD i false then
    if pps.uniformBrickSpacingFlag.getD i false then .uniform (pps.brickHeightMinus1.getD i 0)
    else .explicit ((pps.brickRowHeightMinus1.getD i []).take (pps.numBrickRowsMinus2.getD i 0 + 1))
  else .whole

/-- The brick heights `initBrickMap` gives a tile of `height` rows. -/
@[grind =] def BrickSplit.heights (height : Nat) : BrickSplit → List Nat
  | .whole => [height]
  | .uniform heightMinus1 => uniformSizes (heightMinus1 + 1) height height
  | .explicit rowHeightsMinus1 => explicitSizes (rowHeightsMinus1.map (· + 1)) height

/-- The height of every tile in the picture, in tile order. -/
@[grind =] def tileHeights (sps : SPS) (pps : PPS) : List Nat :=
  (pps.tileRowHeights sps).flatMap fun height => List.replicate (pps.tileColWidth sps).length height

/-- The number of bricks `initBrickMap` creates. -/
def numBricks (sps : SPS) (pps : PPS) : Nat :=
  ((pps.tileHeights sps).mapIdx fun i height => ((pps.brickSplit i).heights height).length).sum

/-- The loop of `initBrickMap` that adds up the deltas. -/
def sumDeltas : Int → List Int → List Int
  | _, [] => []
  | previous, delta :: rest => (delta + previous) :: sumDeltas (delta + previous) rest

/-- The bottom right bricks of the slices as the reader leaves them: set directly
for a single tile, else by their deltas. -/
def bottomRightBricks (pps : PPS) : List Int :=
  if pps.singleTileInPicFlag then pps.bottomRightBrickIdx.map fun index : Nat => (index : Int)
  else sumDeltas 0 pps.bottomRightBrickIdxDelta

end PPS
end Vtm
