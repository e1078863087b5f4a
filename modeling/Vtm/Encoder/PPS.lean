import Vtm.Common.PPS
import Vtm.Encoder.VLCWriter

/-!
# Picture parameter set: writing the layout

The part of `HLSWriter::codePPS` from `single_tile_in_pic_flag` to the slice ids.
-/

namespace Vtm.HLSWriter

open Vtm.Std Vtm.VLCWriter

/-- Tile spacing, up to the row heights. -/
def codeTileSpacing (pps : PPS) : BitWriter Unit := do
  xWriteBool pps.uniformTileSpacingFlag
  if pps.uniformTileSpacingFlag then
    xWriteUvlc pps.tileColsWidthMinus1
    xWriteUvlc pps.tileRowsHeightMinus1
  else
    xWriteUvlc pps.numTileColumnsMinus1
    xWriteUvlc pps.numTileRowsMinus1
    check ((pps.numTileColumnsMinus1 + 1) * (pps.numTileRowsMinus1 + 1) < 2)
      "tile colums * rows must be > 1 when explicitly signalled."
    (List.range pps.numTileColumnsMinus1).foldlM
      (fun _ i => xWriteUvlc (word (pps.tileColumnWidth.getD i 0 - 1))) ()
    (List.range pps.numTileRowsMinus1).foldlM
      (fun _ i => xWriteUvlc (word (pps.tileRowHeight.getD i 0 - 1))) ()

/-- A flag that is written only when `present`. -/
def writeFlagIf (present flag : Bool) : BitWriter Unit :=
  if present then xWriteBool flag else pure ()

/-- How the split tile `i` is cut into bricks. -/
def codeBrickHeights (pps : PPS) (i : Nat) : BitWriter Unit := do
  writeFlagIf (pps.tileHeight.getD i 0 > 2) (pps.uniformBrickSpacingFlag.getD i false)
  if pps.uniformBrickSpacingFlag.getD i false then xWriteUvlc (pps.brickHeightMinus1.getD i 0)
  else
    xWriteUvlc (pps.numBrickRowsMinus2.getD i 0)
    (List.range (pps.numBrickRowsMinus2.getD i 0 + 1)).foldlM
      (fun _ j => xWriteUvlc ((pps.brickRowHeightMinus1.getD i []).getD j 0)) ()

/-- The bricks of tile `i`. -/
def codeTileBricks (pps : PPS) (i : Nat) : BitWriter Unit := do
  writeFlagIf (pps.tileHeight.getD i 0 > 1) (pps.brickSplitFlag.getD i false)
  if pps.brickSplitFlag.getD i false then codeBrickHeights pps i

/-- `brick_splitting_present_flag` and the number of tiles. -/
def codeNumTilesInPic (pps : PPS) (numTilesInPic : Nat) : BitWriter Unit := do
  xWriteBool pps.brickSplittingPresentFlag
  check (pps.brickSplittingPresentFlag && !pps.rectSliceFlag)
    "rect_slice_flag must be equal to 1 for brick_splitting_present_flag equal to 1"
  if pps.uniformTileSpacingFlag && pps.brickSplittingPresentFlag then
    xWriteUvlc (numTilesInPic - 1)

/-- Brick splitting of all tiles. -/
def codeBricks (pps : PPS) (numTilesInPic : Nat) : BitWriter Unit := do
  if pps.brickSplittingPresentFlag then
    (List.range numTilesInPic).foldlM (fun _ i => codeTileBricks pps i) ()

/-- The coded difference of slice `i`. -/
def brickIdxDelta (pps : PPS) (i : Nat) : Int :=
  if i = 0 then pps.bottomRightBrickIdx.getD 0 0
  else (pps.bottomRightBrickIdx.getD i 0 : Int) - pps.bottomRightBrickIdx.getD (i - 1) 0

/-- The deltas of rectangular slices that are not single bricks. -/
def codeBrickIdxDeltas (pps : PPS) (numTilesInPic : Nat) : BitWriter Unit := do
  xWriteUvlc (word pps.numSlicesInPicMinus1)
  let numSlicesInPic := pps.numSlicesInPicMinus1 + 1
  let codeLength := ceilLog2 numTilesInPic
  xWriteUvlc (word codeLength)
  (List.range numSlicesInPic.toNat).foldlM (fun _ i => do
    let delta := brickIdxDelta pps i
    let sign := decide (delta > 0)
    xWriteCode (word delta) (word codeLength)
    xWriteBool sign) ()

/-- Slices. -/
def codeSlices (pps : PPS) (numTilesInPic : Nat) : BitWriter Unit := do
  xWriteBool pps.singleBrickPerSliceFlag
  writeFlagIf (!pps.singleBrickPerSliceFlag) pps.rectSliceFlag
  check (pps.singleBrickPerSliceFlag && !pps.rectSliceFlag)
    "RectSliceFlag must be equal to 1 for single_brick_per_slice_flag equal to 1"
  if pps.rectSliceFlag && !pps.singleBrickPerSliceFlag then codeBrickIdxDeltas pps numTilesInPic

/-- Loop filter flags. -/
def codeLoopFilterFlags (pps : PPS) : BitWriter Unit := do
  xWriteBool pps.loopFilterAcrossBricksEnabledFlag
  writeFlagIf pps.loopFilterAcrossBricksEnabledFlag pps.loopFilterAcrossSlicesEnabledFlag

/-- Slice ids. -/
def codeSliceIds (pps : PPS) : BitWriter Unit := do
  if pps.rectSliceFlag then
    xWriteBool pps.signalledSliceIdFlag
    if pps.signalledSliceIdFlag then
      xWriteUvlc pps.signalledSliceIdLengthMinus1
      (List.range (pps.numSlicesInPicMinus1 + 1).toNat).foldlM
        (fun _ i => xWriteCode (pps.sliceId.getD i 0) (pps.signalledSliceIdLengthMinus1 + 1)) ()

/-- Tiles, bricks and slices of a picture with several tiles. -/
def codeTiles (pps : PPS) : BitWriter Unit := do
  codeTileSpacing pps
  let numTilesInPic := (pps.numTileColumnsMinus1 + 1) * (pps.numTileRowsMinus1 + 1)
  codeNumTilesInPic pps numTilesInPic
  codeBricks pps numTilesInPic
  codeSlices pps numTilesInPic
  codeLoopFilterFlags pps

/-- The checks on a picture with a single tile. -/
def checkSingleTile (pps : PPS) : BitWriter Unit := do
  check (!pps.singleBrickPerSliceFlag) "SingleBrickPerSliceFlag must be set to 1 when not present"
  check (!pps.rectSliceFlag)
    "RectSliceFlag must be equalt to 1 for single_tile_in_pic_flag equal to 1"

/-- The layout up to the slice ids. -/
def codeSlicing (pps : PPS) : BitWriter Unit :=
  if !pps.singleTileInPicFlag then codeTiles pps else checkSingleTile pps

/-- The layout part of `codePPS`. -/
def codePPSLayout (pps : PPS) : BitWriter Unit := do
  xWriteBool pps.singleTileInPicFlag
  codeSlicing pps
  codeSliceIds pps

end Vtm.HLSWriter
