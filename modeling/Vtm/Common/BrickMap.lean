import Vtm.Common.PPS
import Vtm.Std.Tiling

/-!
# Brick map

`BrickMap::create`: the bricks of a picture in brick scan, the address maps between
raster scan and brick scan, and the assignment of bricks to rectangular slices.
Arrays are functions; elements that the source leaves uninitialised are 0.
-/

namespace Vtm

open Vtm.Std

structure Brick where
  widthInCtus : Nat
  heightInCtus : Nat
  colBd : Nat
  rowBd : Nat
  firstCtuRsAddr : Nat
deriving DecidableEq, Repr, Inhabited

/-- An array after writes, made one after the other. -/
def store {α : Type} (writes : List (Nat × α)) (array : Nat → α) : Nat → α :=
  writes.foldl (fun array write => Function.update array write.1 write.2) array

/-- `getCTUSize`, which the CTU's width and height are set to. -/
def SPS.ctuSize (sps : SPS) : Nat := sps.maxCUWidth

namespace PPS

/-- `numTileColumns` of `initBrickMap`. -/
def numTileColumns (sps : SPS) (pps : PPS) : Nat :=
  if pps.uniformTileSpacingFlag then
    let tileWidthInLumaSamples := (pps.tileColsWidthMinus1 + 1) * sps.ctuSize
    (pps.picWidthInLumaSamples + tileWidthInLumaSamples - 1) / tileWidthInLumaSamples
  else pps.numTileColumnsMinus1 + 1

/-- `numTileRows` of `initBrickMap`. -/
def numTileRows (sps : SPS) (pps : PPS) : Nat :=
  if pps.uniformTileSpacingFlag then
    let tileHeightInLumaSamples := (pps.tileRowsHeightMinus1 + 1) * sps.ctuSize
    (pps.picHeightInLumaSamples + tileHeightInLumaSamples - 1) / tileHeightInLumaSamples
  else pps.numTileRowsMinus1 + 1

/-- The bricks of tile `tileIdx`. -/
def tileBricks (sps : SPS) (pps : PPS) (tileIdx : Nat) : List Brick :=
  let frameWidthInCtus := pps.picWidthInCtus sps
  let tileColWidth := pps.tileColWidth sps
  let tileRowHeight := pps.tileRowHeights sps
  let tileColBd := bounds 0 tileColWidth
  let tileRowBd := bounds 0 tileRowHeight
  let tileX := tileIdx % pps.numTileColumns sps
  let tileY := tileIdx / pps.numTileColumns sps
  let rowHeight2 := (pps.brickSplit tileIdx).heights (tileRowHeight.getD tileY 0)
  let rowBd2 := bounds 0 rowHeight2
  (List.range rowHeight2.length).map fun j =>
    let colBd := tileColBd.getD tileX 0
    let rowBd := tileRowBd.getD tileY 0 + rowBd2.getD j 0
    { widthInCtus := tileColWidth.getD tileX 0
      heightInCtus := rowHeight2.getD j 0
      colBd := colBd
      rowBd := rowBd
      firstCtuRsAddr := colBd + rowBd * frameWidthInCtus }

/-- The bricks of a picture. -/
@[grind =] def bricks (sps : SPS) (pps : PPS) : List Brick :=
  (List.range (pps.numTileColumns sps * pps.numTileRows sps)).flatMap (pps.tileBricks sps)

end PPS

/-- `bkIdx` of `initCtuBsRsAddrMap`: the search leaves out the last brick. -/
def bkIdx (bricks : List Brick) (tbX tbY : Nat) : Nat :=
  (bricks.dropLast.findIdx? fun brick =>
    tbX < brick.colBd + brick.widthInCtus ∧ tbY < brick.rowBd + brick.heightInCtus).getD
      (bricks.length - 1)

/-- The element of `ctuRsToBsAddrMap` that `initCtuBsRsAddrMap` computes. -/
def ctuBsAddr (bricks : List Brick) (widthInCtus ctbAddrRs : Nat) : Nat :=
  let tbX := ctbAddrRs % widthInCtus
  let tbY := ctbAddrRs / widthInCtus
  let index := bkIdx bricks tbX tbY
  let brick := bricks.getD index default
  ((bricks.take index).map fun brick => brick.heightInCtus * brick.widthInCtus).sum +
    ((tbY - brick.rowBd) * brick.widthInCtus + tbX - brick.colBd)

/-- Which slice each brick is in (`-1` is `none`), and the top left brick of each
slice. -/
structure SliceMap where
  bricksToSliceMap : Nat → Option Nat
  topLeftBrickIdx : Nat → Nat

/-- One round of the sweep for slice `i`. -/
def sweepStep (bricks : List Brick) (i bottomRight : Nat) (map : SliceMap) (j : Nat) : SliceMap :=
  if (bricks.getD j default).colBd ≤ (bricks.getD bottomRight default).colBd ∧
      (bricks.getD j default).rowBd ≤ (bricks.getD bottomRight default).rowBd ∧
      map.bricksToSliceMap j = none then
    { bricksToSliceMap := Function.update map.bricksToSliceMap j (some i)
      topLeftBrickIdx := Function.update map.topLeftBrickIdx i j }
  else map

/-- The sweep for slice `i`, from its bottom right brick down to brick 0. -/
def sweep (bricks : List Brick) (i : Nat) (bottomRight : Int) (map : SliceMap) : SliceMap :=
  (List.range (bottomRight + 1).toNat).reverse.foldl (sweepStep bricks i bottomRight.toNat) map

/-- The sweeps for slice `i` and those after it. -/
def sweeps (bricks : List Brick) : Nat → List Int → SliceMap → SliceMap
  | _, [], map => map
  | i, bottomRight :: rest, map => sweeps bricks (i + 1) rest (sweep bricks i bottomRight map)

structure BrickMap where
  widthInCtus : Nat
  heightInCtus : Nat
  bricks : List Brick
  numTiles : Nat
  numTileColumns : Nat
  numTileRows : Nat
  ctuRsToBsAddrMap : Nat → Nat
  ctuBsToRsAddrMap : Nat → Nat
  brickIdxRsMap : Nat → Nat
  brickIdxBsMap : Nat → Nat
  slices : SliceMap
  bottomRightBrickIdx : List Int

/-- `pcv->sizeInCtus`. -/
def BrickMap.sizeInCtus (map : BrickMap) : Nat := map.widthInCtus * map.heightInCtus

/-- The cells of a brick with its number, row by row: what the loops over a brick
write. -/
def brickCells (bricks : List Brick) (frameWidthInCtus : Nat) : List (Nat × Nat) :=
  (List.range bricks.length).flatMap fun i =>
    let brick := bricks.getD i default
    (List.range brick.heightInCtus).flatMap fun y =>
      (List.range brick.widthInCtus).map fun x =>
        ((brick.rowBd + y) * frameWidthInCtus + (brick.colBd + x), i)

/-- `m_bottomRightBrickIdx`. -/
def bottomRightBrickIdx (pps : PPS) (numBricksInPic : Nat) : List Int :=
  let numSlicesInPic := (pps.numSlicesInPicMinus1 + 1).toNat
  if numSlicesInPic = 1 then [(numBricksInPic : Int) - 1]
  else PPS.sumDeltas 0 ((List.range numSlicesInPic).map fun i =>
    pps.bottomRightBrickIdxDelta.getD i 0)

/-- `bricksToSliceMap` and `m_topLeftBrickIdx`. A single slice has no sweep, and the
vector is left as it is created. -/
def initSliceMap (pps : PPS) (bricks : List Brick) : SliceMap :=
  let numSlicesInPic := (pps.numSlicesInPicMinus1 + 1).toNat
  if numSlicesInPic = 1 then ⟨fun _ => some 0, fun _ => 0⟩
  else sweeps bricks 0 (bottomRightBrickIdx pps bricks.length) ⟨fun _ => none, fun _ => 0⟩

/-- `BrickMap::create` with `initBrickMap` and `initCtuBsRsAddrMap`. -/
def BrickMap.create (sps : SPS) (pps : PPS) : BrickMap :=
  let widthInCtus := pps.picWidthInCtus sps
  let heightInCtus := pps.picHeightInCtus sps
  let numCtusInFrame := widthInCtus * heightInCtus
  let bricks := pps.bricks sps
  let ctuRsToBsAddrMap :=
    store ((List.range numCtusInFrame).map fun a => (a, ctuBsAddr bricks widthInCtus a)) fun _ => 0
  { widthInCtus := widthInCtus
    heightInCtus := heightInCtus
    bricks := bricks
    numTiles := bricks.length
    numTileColumns := pps.numTileColumns sps
    numTileRows := pps.numTileRows sps
    ctuRsToBsAddrMap := ctuRsToBsAddrMap
    ctuBsToRsAddrMap :=
      store ((List.range numCtusInFrame).map fun a => (ctuRsToBsAddrMap a, a)) fun _ => 0
    brickIdxRsMap := store (brickCells bricks widthInCtus) fun _ => 0
    brickIdxBsMap :=
      store ((brickCells bricks widthInCtus).map fun cell => (ctuRsToBsAddrMap cell.1, cell.2))
        (Function.update (fun _ => 0) numCtusInFrame (2 ^ 32 - 1))
    slices := if pps.rectSliceFlag then initSliceMap pps bricks else ⟨fun _ => none, fun _ => 0⟩
    bottomRightBrickIdx :=
      if pps.rectSliceFlag then Vtm.bottomRightBrickIdx pps bricks.length else [] }

end Vtm
