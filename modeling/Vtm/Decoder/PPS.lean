import Vtm.Common.PPS
import Vtm.Decoder.VLCReader

/-!
# Picture parameter set: reading the layout

The part of `HLSyntaxReader::parsePPS` from `single_tile_in_pic_flag` to the slice
ids, as updates of the PPS read so far. Every stage reads its syntax elements
first and stores them at its end.
-/

namespace Vtm.HLSyntaxReader

open Vtm.Std Vtm.VLCReader

/-- A loop that fills a vector with `count` values. -/
def readVector {α : Type} (count : Nat) (element : Nat → BitReader α) : BitReader (List α) :=
  (List.range count).foldlM (fun values i => do return values ++ [← element i]) []

/-- A flag that is read only when `present`. -/
@[grind =] def readFlagIf (present inferred : Bool) : BitReader Bool :=
  if present then xReadBool else pure inferred

/-- A size coded as one less. -/
def readSize : BitReader Nat := do
  let uiCode ← xReadUvlc
  return uiCode + 1

/-- Tile spacing with explicit sizes. -/
def parseExplicitTiles (pps : PPS) : BitReader PPS := do
  let numTileColumnsMinus1 ← xReadUvlc
  let numTileRowsMinus1 ← xReadUvlc
  check ((numTileColumnsMinus1 + 1) * (numTileRowsMinus1 + 1) < 2)
    "tile colums * rows must be > 1 when explicitly signalled."
  let columnWidth ← readVector numTileColumnsMinus1 fun _ => readSize
  let rowHeight ← readVector numTileRowsMinus1 fun _ => readSize
  check (numTileColumnsMinus1 + numTileRowsMinus1 = 0) "Invalid tile configuration"
  return { pps with
    numTileColumnsMinus1
    numTileRowsMinus1
    tileColumnWidth := if numTileColumnsMinus1 > 0 then columnWidth else pps.tileColumnWidth
    tileRowHeight := if numTileRowsMinus1 > 0 then rowHeight else pps.tileRowHeight }

/-- Tile spacing, up to the row heights. -/
def parseTileSpacing (pps : PPS) : BitReader PPS := do
  let uniformTileSpacingFlag ← xReadBool
  let pps := { pps with uniformTileSpacingFlag }
  if uniformTileSpacingFlag then
    let tileColsWidthMinus1 ← xReadUvlc
    let tileRowsHeightMinus1 ← xReadUvlc
    return { pps with tileColsWidthMinus1, tileRowsHeightMinus1 }
  else parseExplicitTiles pps

/-- The number of tiles, which stays zero for uniform spacing without brick
splitting. -/
def readNumTilesInPic (pps : PPS) : BitReader Nat :=
  if pps.uniformTileSpacingFlag then
    if pps.brickSplittingPresentFlag then readSize else pure 0
  else pure ((pps.numTileColumnsMinus1 + 1) * (pps.numTileRowsMinus1 + 1))

/-- `brick_splitting_present_flag` and the number of tiles. -/
def parseNumTilesInPic (pps : PPS) : BitReader PPS := do
  let brickSplittingPresentFlag ← xReadBool
  let pps := { pps with brickSplittingPresentFlag }
  let numTilesInPic ← readNumTilesInPic pps
  return { pps with numTilesInPic }

/-- The loops counting uniform tiles: their number and the size of the last. -/
def countTiles (size : Nat) : Nat → Nat → Nat → Nat × Nat
  | 0, count, last => (count, last)
  | fuel + 1, count, last =>
      if last > size then countTiles size fuel (count + 1) (last - size) else (count, last)

/-- `tileHeight` for uniform spacing. -/
def uniformTileHeight (sps : SPS) (pps : PPS) : List Nat :=
  let picHeightInCtus := pps.picHeightInCtus sps
  let picWidthInCtus := pps.picWidthInCtus sps
  let (numTileRow, lastTileRowHeight) :=
    countTiles (pps.tileRowsHeightMinus1 + 1) picHeightInCtus 1 picHeightInCtus
  let (numTileColumn, _) :=
    countTiles (pps.tileColsWidthMinus1 + 1) picWidthInCtus 1 picWidthInCtus
  List.replicate ((numTileRow - 1) * numTileColumn) (pps.tileRowsHeightMinus1 + 1) ++
    List.replicate numTileColumn lastTileRowHeight

/-- `tileHeight` for explicit spacing. -/
def explicitTileHeight (sps : SPS) (pps : PPS) : List Nat :=
  let rows := (List.range pps.numTileRowsMinus1).map fun row => pps.tileRowHeight.getD row 0
  rows.flatMap (fun height => List.replicate (pps.numTileColumnsMinus1 + 1) height) ++
    List.replicate (pps.numTileColumnsMinus1 + 1) (pps.picHeightInCtus sps - rows.sum)

/-- The brick members of one tile as they are read. -/
structure TileBricks where
  brickSplitFlag : Bool := false
  uniformBrickSpacingFlag : Bool := false
  brickHeightMinus1 : Nat := 0
  numBrickRowsMinus2 : Nat := 0
  brickRowHeightMinus1 : List Nat := []
deriving DecidableEq, Repr

/-- How a split tile of `tileHeight` rows is cut into bricks. -/
def parseBrickHeights (tileHeight : Nat) : BitReader TileBricks := do
  let uniformBrickSpacingFlag ← readFlagIf (tileHeight > 2) true
  if uniformBrickSpacingFlag then
    let brickHeightMinus1 ← xReadUvlc
    return { brickSplitFlag := true, uniformBrickSpacingFlag, brickHeightMinus1 }
  else
    let numBrickRowsMinus2 ← xReadUvlc
    let brickRowHeightMinus1 ← readVector (numBrickRowsMinus2 + 1) fun _ => xReadUvlc
    return {
      brickSplitFlag := true
      uniformBrickSpacingFlag
      numBrickRowsMinus2
      brickRowHeightMinus1 }

/-- The bricks of a tile of `tileHeight` rows. -/
def parseTileBricks (tileHeight : Nat) : BitReader TileBricks := do
  let brickSplitFlag ← readFlagIf (tileHeight > 1) false
  if brickSplitFlag then parseBrickHeights tileHeight else return {}

/-- Brick splitting of all tiles. -/
def parseBricks (sps : SPS) (pps : PPS) : BitReader PPS := do
  if pps.brickSplittingPresentFlag then
    let tileHeight :=
      if pps.uniformTileSpacingFlag then uniformTileHeight sps pps else explicitTileHeight sps pps
    let tiles ← readVector pps.numTilesInPic fun i => parseTileBricks (tileHeight.getD i 0)
    return { pps with
      tileHeight
      brickSplitFlag := tiles.map (·.brickSplitFlag)
      uniformBrickSpacingFlag := tiles.map (·.uniformBrickSpacingFlag)
      brickHeightMinus1 := tiles.map (·.brickHeightMinus1)
      numBrickRowsMinus2 := tiles.map (·.numBrickRowsMinus2)
      brickRowHeightMinus1 := tiles.map (·.brickRowHeightMinus1) }
  else return pps

/-- The deltas of rectangular slices that are not single bricks. -/
def parseBrickIdxDeltas (pps : PPS) : BitReader PPS := do
  let numSlicesInPicMinus1 ← xReadUvlc
  let codeLen ← xReadUvlc
  let bottomRightBrickIdxDelta ← readVector (numSlicesInPicMinus1 + 1) fun _ => do
    let delta ← xReadCode codeLen
    let sign ← xReadBool
    return if sign then (delta : Int) else -delta
  return { pps with numSlicesInPicMinus1, bottomRightBrickIdxDelta }

/-- Slices, with one slice for each tile when every slice is a single brick. -/
def parseSlices (pps : PPS) : BitReader PPS := do
  let singleBrickPerSliceFlag ← xReadBool
  let rectSliceFlag ← readFlagIf (!singleBrickPerSliceFlag) true
  let pps := { pps with singleBrickPerSliceFlag, rectSliceFlag }
  if rectSliceFlag && !singleBrickPerSliceFlag then parseBrickIdxDeltas pps
  else if rectSliceFlag && singleBrickPerSliceFlag then
    return { pps with
      bottomRightBrickIdxDelta :=
        (List.range pps.numTilesInPic).map fun i => if i = 0 then 0 else 1
      numSlicesInPicMinus1 := pps.numTilesInPic - 1 }
  else return pps

/-- Loop filter flags. -/
def parseLoopFilterFlags (pps : PPS) : BitReader PPS := do
  let loopFilterAcrossBricksEnabledFlag ← xReadBool
  let loopFilterAcrossSlicesEnabledFlag ←
    readFlagIf loopFilterAcrossBricksEnabledFlag pps.loopFilterAcrossSlicesEnabledFlag
  return { pps with loopFilterAcrossBricksEnabledFlag, loopFilterAcrossSlicesEnabledFlag }

/-- Slice ids. With a slice count of -1 the loop for ids that are not signalled
runs past its empty vector. -/
def parseSliceIds (pps : PPS) : BitReader PPS := do
  if pps.rectSliceFlag then
    let signalledSliceIdFlag ← xReadBool
    if signalledSliceIdFlag then
      let signalledSliceIdLengthMinus1 ← xReadUvlc
      let ids ← readVector (pps.numSlicesInPicMinus1 + 1).toNat fun _ =>
        xReadCode (signalledSliceIdLengthMinus1 + 1)
      return { pps with
        signalledSliceIdFlag
        signalledSliceIdLengthMinus1
        sliceId := if pps.numSlicesInPicMinus1 + 1 > 0 then ids else pps.sliceId }
    else
      check (pps.numSlicesInPicMinus1 < 0) "sliceID index out of range"
      return { pps with
        signalledSliceIdFlag
        sliceId := List.range (pps.numSlicesInPicMinus1 + 1).toNat }
  else return pps

/-- Tiles, bricks and slices of a picture with several tiles. -/
def parseTiles (sps : SPS) (pps : PPS) : BitReader PPS := do
  let pps ← parseTileSpacing pps
  let pps ← parseNumTilesInPic pps
  let pps ← parseBricks sps pps
  let pps ← parseSlices pps
  parseLoopFilterFlags pps

/-- The members set for a picture with a single tile. -/
def setSingleTile (pps : PPS) : PPS :=
  { pps with
    singleBrickPerSliceFlag := true
    rectSliceFlag := true
    topLeftBrickIdx := [0]
    bottomRightBrickIdx := [0] }

/-- The layout up to the slice ids. -/
def parseSlicing (sps : SPS) (pps : PPS) : BitReader PPS :=
  if !pps.singleTileInPicFlag then parseTiles sps pps else pure (setSingleTile pps)

/-- The layout part of `parsePPS`. -/
def parsePPSLayout (sps : SPS) (pps : PPS) : BitReader PPS := do
  let singleTileInPicFlag ← xReadBool
  let pps ← parseSlicing sps { pps with singleTileInPicFlag }
  parseSliceIds pps

end Vtm.HLSyntaxReader
