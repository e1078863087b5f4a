import Vtm.Common.BrickMap

/-!
# Brick scan

For consistent tiles and bricks, the bricks of `BrickMap::create` tile the picture
and its address maps are inverse to each other.
-/

namespace Vtm

open Vtm.Std

/-- The members of a tile's split are consistent with its height. -/
def ValidSplit (pps : PPS) (tileIdx height : Nat) : Prop :=
  pps.brickSplittingPresentFlag = true → pps.brickSplitFlag.getD tileIdx false = true →
    pps.uniformBrickSpacingFlag.getD tileIdx false = false →
    pps.numBrickRowsMinus2.getD tileIdx 0 + 1 ≤ (pps.brickRowHeightMinus1.getD tileIdx []).length ∧
      (((pps.brickRowHeightMinus1.getD tileIdx []).take
        (pps.numBrickRowsMinus2.getD tileIdx 0 + 1)).map (· + 1)).sum < height

/-- Positive explicit sizes that leave something of `total`. -/
def ValidSizes (sizes : List Nat) (count total : Nat) : Prop :=
  count ≤ sizes.length ∧ (∀ size ∈ sizes.take count, 0 < size) ∧ (sizes.take count).sum < total

/-- Tiles and bricks are consistent with the picture. -/
structure ValidTiles (sps : SPS) (pps : PPS) : Prop where
  ctuSize : 0 < sps.maxCUWidth
  square : sps.maxCUHeight = sps.maxCUWidth
  width : 0 < pps.picWidthInLumaSamples
  height : 0 < pps.picHeightInLumaSamples
  columns : pps.uniformTileSpacingFlag = false →
    ValidSizes pps.tileColumnWidth pps.numTileColumnsMinus1 (pps.picWidthInCtus sps)
  rows : pps.uniformTileSpacingFlag = false →
    ValidSizes pps.tileRowHeight pps.numTileRowsMinus1 (pps.picHeightInCtus sps)
  splits : ∀ tileIdx < pps.numTileColumns sps * pps.numTileRows sps,
    ValidSplit pps tileIdx ((pps.tileRowHeights sps).getD (tileIdx / pps.numTileColumns sps) 0)

/-- Sizes of which none is 0 and that add up to `total`. -/
structure Divides (sizes : List Nat) (total : Nat) : Prop where
  positive : ∀ size ∈ sizes, 0 < size
  sum : sizes.sum = total

theorem uniformSizes_divides {size : Nat} (positive : 0 < size) (fuel : Nat) {total : Nat}
    (some : 0 < total) : Divides (uniformSizes size fuel total) total := by
  induction fuel generalizing total with
  | zero => exact ⟨by simpa [uniformSizes] using some, by simp [uniformSizes]⟩
  | succ fuel ih =>
      rw [uniformSizes]
      split
      · rename_i large
        obtain ⟨rest, sum⟩ := @ih (total - size) (by omega)
        refine ⟨List.forall_mem_cons.mpr ⟨positive, rest⟩, ?_⟩
        rw [List.sum_cons, sum]
        omega
      · exact ⟨by simpa using some, by simp⟩

theorem length_uniformSizes {size : Nat} (positive : 0 < size) (fuel : Nat) {total : Nat}
    (some : 0 < total) (enough : total ≤ fuel) :
    (uniformSizes size fuel total).length = (total + size - 1) / size := by
  induction fuel generalizing total with
  | zero => omega
  | succ fuel ih =>
      rw [uniformSizes]
      split
      · rename_i large
        have rounds : total + size - 1 = (total - size + size - 1) + size := by omega
        rw [List.length_cons, @ih (total - size) (by omega) (by omega), rounds,
          Nat.add_div_right _ positive]
      · rename_i small
        have one : total + size - 1 = total - 1 + size := by omega
        rw [one, Nat.add_div_right _ positive, Nat.div_eq_of_lt (by omega)]
        rfl

theorem explicitSizes_divides {sizes : List Nat} {total : Nat}
    (positive : ∀ size ∈ sizes, 0 < size) (room : sizes.sum < total) :
    Divides (PPS.explicitSizes sizes total) total := by
  constructor
  · intro size member
    rw [PPS.explicitSizes, List.mem_append, List.mem_singleton] at member
    rcases member with explicit | rfl
    · exact positive size explicit
    · omega
  · rw [PPS.explicitSizes, List.sum_append, List.sum_singleton]
    omega

/-- The brick heights of a tile fill it. -/
theorem ValidSplit.divides {pps : PPS} {tileIdx height : Nat}
    (split : ValidSplit pps tileIdx height) (some : 0 < height) :
    Divides ((pps.brickSplit tileIdx).heights height) height := by
  unfold PPS.brickSplit
  split
  · rename_i present
    rw [Bool.and_eq_true] at present
    split
    · exact uniformSizes_divides (Nat.succ_pos _) _ some
    · rename_i explicit
      obtain ⟨-, room⟩ := split present.1 present.2 (by simpa using explicit)
      refine explicitSizes_divides ?_ room
      intro size member
      obtain ⟨size, -, rfl⟩ := List.mem_map.mp member
      exact Nat.succ_pos size
  · exact ⟨by simpa [PPS.BrickSplit.heights] using some, by simp [PPS.BrickSplit.heights]⟩

/-- CTUs of CTUs: rounding up twice is rounding up once. -/
theorem ceil_ceil {length c t : Nat} (hc : 0 < c) (ht : 0 < t) :
    ((length + c - 1) / c + t - 1) / t = (length + t * c - 1) / (t * c) := by
  have inner : (length + c - 1) / c + t - 1 = (length + t * c - 1) / c := by
    obtain ⟨more, rfl⟩ : ∃ more, t = more + 1 := ⟨t - 1, by omega⟩
    have shift : length + (more + 1) * c - 1 = length + c - 1 + more * c := by
      rw [Nat.add_mul, Nat.one_mul]
      omega
    rw [shift, Nat.add_mul_div_right _ _ hc]
    rfl
  rw [inner, Nat.div_div_eq_div_mul, Nat.mul_comm]

namespace ValidTiles

variable {sps : SPS} {pps : PPS} (valid : ValidTiles sps pps)
include valid

theorem picWidthInCtus_pos : 0 < pps.picWidthInCtus sps := by
  have width := valid.width
  have ctuSize := valid.ctuSize
  exact Nat.div_pos (by omega) ctuSize

theorem picHeightInCtus_pos : 0 < pps.picHeightInCtus sps := by
  have height := valid.height
  have ctuSize := valid.ctuSize
  rw [← valid.square] at ctuSize
  exact Nat.div_pos (by omega) ctuSize

theorem tileColWidth_divides : Divides (pps.tileColWidth sps) (pps.picWidthInCtus sps) := by
  rw [PPS.tileColWidth]
  split
  · exact uniformSizes_divides (Nat.succ_pos _) _ valid.picWidthInCtus_pos
  · rename_i explicit
    obtain ⟨-, positive, room⟩ := valid.columns (by simpa using explicit)
    exact explicitSizes_divides positive room

theorem tileRowHeights_divides : Divides (pps.tileRowHeights sps) (pps.picHeightInCtus sps) := by
  rw [PPS.tileRowHeights]
  split
  · exact uniformSizes_divides (Nat.succ_pos _) _ valid.picHeightInCtus_pos
  · rename_i explicit
    obtain ⟨-, positive, room⟩ := valid.rows (by simpa using explicit)
    exact explicitSizes_divides positive room

theorem length_tileColWidth : (pps.tileColWidth sps).length = pps.numTileColumns sps := by
  rw [PPS.tileColWidth, PPS.numTileColumns]
  split
  · rw [length_uniformSizes (Nat.succ_pos _) _ valid.picWidthInCtus_pos le_rfl]
    exact ceil_ceil valid.ctuSize (Nat.succ_pos _)
  · rename_i explicit
    obtain ⟨count, -⟩ := valid.columns (by simpa using explicit)
    simp [PPS.explicitSizes, Nat.min_eq_left count]

theorem length_tileRowHeights : (pps.tileRowHeights sps).length = pps.numTileRows sps := by
  rw [PPS.tileRowHeights, PPS.numTileRows]
  split
  · rw [length_uniformSizes (Nat.succ_pos _) _ valid.picHeightInCtus_pos le_rfl,
      PPS.picHeightInCtus, valid.square]
    exact ceil_ceil valid.ctuSize (Nat.succ_pos _)
  · rename_i explicit
    obtain ⟨count, -⟩ := valid.rows (by simpa using explicit)
    simp [PPS.explicitSizes, Nat.min_eq_left count]

end ValidTiles

/-- The CTUs of a brick. -/
@[grind =] def Brick.rect (brick : Brick) : Rect :=
  ⟨brick.colBd, brick.rowBd, brick.widthInCtus, brick.heightInCtus⟩

namespace ValidTiles

variable {sps : SPS} {pps : PPS} (valid : ValidTiles sps pps)
include valid

theorem tileRowHeight_pos {tileIdx : Nat}
    (inside : tileIdx < pps.numTileColumns sps * pps.numTileRows sps) :
    0 < (pps.tileRowHeights sps).getD (tileIdx / pps.numTileColumns sps) 0 := by
  have row : tileIdx / pps.numTileColumns sps < (pps.tileRowHeights sps).length := by
    rw [valid.length_tileRowHeights]
    exact Nat.div_lt_of_lt_mul inside
  rw [List.getD_eq_getElem _ _ row]
  exact valid.tileRowHeights_divides.positive _ (List.getElem_mem row)

/-- The heights of the bricks of each tile. -/
theorem splits_divides {tileIdx : Nat}
    (inside : tileIdx < pps.numTileColumns sps * pps.numTileRows sps) :
    Divides ((pps.brickSplit tileIdx).heights
        ((pps.tileRowHeights sps).getD (tileIdx / pps.numTileColumns sps) 0))
      ((pps.tileRowHeights sps).getD (tileIdx / pps.numTileColumns sps) 0) :=
  (valid.splits tileIdx inside).divides (valid.tileRowHeight_pos inside)

/-- The bricks are the pieces of the table of tiles. -/
theorem rects_eq : (pps.bricks sps).map Brick.rect =
    tableRects (pps.tileColWidth sps) (pps.tileRowHeights sps)
      fun tileIdx height => (pps.brickSplit tileIdx).heights height := by
  rw [PPS.bricks, tableRects, List.map_flatMap, valid.length_tileColWidth,
    valid.length_tileRowHeights]
  apply List.flatMap_congr
  intro tileIdx member
  rw [List.mem_range] at member
  have column : tileIdx % pps.numTileColumns sps < (bounds 0 (pps.tileColWidth sps)).length := by
    rw [length_bounds, valid.length_tileColWidth]
    exact Nat.mod_lt _ (Nat.pos_of_mul_pos_right (Nat.zero_lt_of_lt member))
  have row : tileIdx / pps.numTileColumns sps < (bounds 0 (pps.tileRowHeights sps)).length := by
    rw [length_bounds, valid.length_tileRowHeights]
    exact Nat.div_lt_of_lt_mul member
  rw [PPS.tileBricks, cellRects, List.map_map, valid.length_tileColWidth]
  apply List.map_congr_left
  intro j inside
  rw [List.mem_range, ← length_bounds 0] at inside
  simp only [Function.comp, Brick.rect, List.getD_eq_getElem _ _ column,
    List.getD_eq_getElem _ _ row, List.getD_eq_getElem _ _ inside, getElem_bounds, Nat.zero_add]

theorem filled : Filled (pps.tileColWidth sps) (pps.tileRowHeights sps)
    fun tileIdx height => (pps.brickSplit tileIdx).heights height := by
  intro tileIdx inside
  rw [valid.length_tileColWidth, valid.length_tileRowHeights] at inside
  rw [valid.length_tileColWidth]
  exact (valid.splits_divides inside).sum

theorem tiling : Tiling (pps.picWidthInCtus sps) (pps.picHeightInCtus sps)
    ((pps.bricks sps).map Brick.rect) := by
  rw [valid.rects_eq, ← valid.tileColWidth_divides.sum, ← valid.tileRowHeights_divides.sum]
  exact tiling_tableRects valid.filled

theorem brick_pos {brick : Brick} (member : brick ∈ pps.bricks sps) :
    0 < brick.widthInCtus ∧ 0 < brick.heightInCtus := by
  obtain ⟨tileIdx, tile, inTile⟩ := List.mem_flatMap.mp member
  obtain ⟨j, piece, rfl⟩ := List.mem_map.mp inTile
  have tile := List.mem_range.mp tile
  have piece := List.mem_range.mp piece
  have column : tileIdx % pps.numTileColumns sps < (pps.tileColWidth sps).length := by
    rw [valid.length_tileColWidth]
    exact Nat.mod_lt _ (Nat.pos_of_mul_pos_right (Nat.zero_lt_of_lt tile))
  constructor
  · simp only [List.getD_eq_getElem _ _ column]
    exact valid.tileColWidth_divides.positive _ (List.getElem_mem column)
  · simp only [List.getD_eq_getElem _ _ piece]
    exact (valid.splits_divides tile).positive _ (List.getElem_mem piece)

end ValidTiles

/-- Elements that are not written stay. -/
theorem store_of_forall_ne {α : Type} {writes : List (Nat × α)} {array : Nat → α} {k : Nat}
    (apart : ∀ write ∈ writes, write.1 ≠ k) : store writes array k = array k := by
  induction writes generalizing array with
  | nil => rfl
  | cons write writes ih =>
      obtain ⟨head, tail⟩ := List.forall_mem_cons.mp apart
      exact (ih tail).trans (Function.update_of_ne head.symm _ _)

/-- An element whose writes agree has their value. -/
theorem store_eq {α : Type} {writes : List (Nat × α)} {array : Nat → α} {k : Nat} {v : α}
    (agree : ∀ write ∈ writes, write.1 = k → write.2 = v) (written : ∃ write ∈ writes, write.1 = k) :
    store writes array k = v := by
  induction writes generalizing array with
  | nil =>
      obtain ⟨_, wrong, _⟩ := written
      cases wrong
  | cons write writes ih =>
      obtain ⟨head, tail⟩ := List.forall_mem_cons.mp agree
      by_cases again : ∃ write ∈ writes, write.1 = k
      · exact ih tail again
      · have apart : ∀ write ∈ writes, write.1 ≠ k := fun other member same =>
          again ⟨other, member, same⟩
        have here : write.1 = k := by
          obtain ⟨found, member, same⟩ := written
          rcases List.mem_cons.mp member with rfl | member
          · exact same
          · exact absurd same (apart found member)
        refine (store_of_forall_ne apart).trans ?_
        dsimp only
        rw [here, Function.update_self]
        exact head here

/-- The search for a brick is the search for its rectangle. -/
theorem bkIdx_eq (bricks : List Brick) (x y : Nat) :
    bkIdx bricks x y = findRect (bricks.map Brick.rect) x y := by
  rw [bkIdx, findRect, ← List.map_dropLast, List.findIdx?_map, List.length_map]
  rfl

section Maps

variable {bricks : List Brick} {width height : Nat}
  (tiling : Tiling width height (bricks.map Brick.rect))
include tiling

/-- The address of a CTU is its place in the scan. -/
theorem ctuBsAddr_eq {x y : Nat} (hx : x < width) (hy : y < height) :
    ctuBsAddr bricks width (y * width + x) = scanPlace (bricks.map Brick.rect) x y := by
  obtain ⟨k, hk, inside⟩ := tiling.exists_index hx hy
  have column : (y * width + x) % width = x := raster_mod y hx
  have row : (y * width + x) / width = y := raster_div y hx
  have found := tiling.findRect_eq hk inside
  rw [tiling.scanPlace_eq hk inside]
  rw [List.length_map] at hk
  rw [List.getElem_map] at inside ⊢
  simp only [ctuBsAddr, column, row, bkIdx_eq, found, List.getD_eq_getElem _ _ hk]
  have left : bricks[k].colBd ≤ x := inside.1.1
  have sums : cellsBefore (bricks.map Brick.rect) k =
      ((bricks.take k).map fun brick => brick.heightInCtus * brick.widthInCtus).sum := by
    rw [cellsBefore, startOf, List.map_map, ← List.map_take]
    rfl
  rw [sums, Rect.offset]
  exact congrArg _ (Nat.add_sub_assoc left _)

end Maps

/-- What the address maps of a picture should be: the bricks are disjoint and cover it,
the maps are inverse bijections, a brick's CTUs follow each other in raster order behind
those of the bricks before it, and both index maps name the brick of a CTU. -/
structure BrickMap.Scans (map : BrickMap) : Prop where
  disjoint : ∀ j k x y, (hj : j < map.bricks.length) → (hk : k < map.bricks.length) →
    map.bricks[j].rect.Contains x y → map.bricks[k].rect.Contains x y → j = k
  within : ∀ brick ∈ map.bricks,
    brick.rect.right ≤ map.widthInCtus ∧ brick.rect.bottom ≤ map.heightInCtus
  cover : ∀ x < map.widthInCtus, ∀ y < map.heightInCtus,
    ∃ brick ∈ map.bricks, brick.rect.Contains x y
  bijective : Set.BijOn map.ctuRsToBsAddrMap (Set.Iio map.sizeInCtus) (Set.Iio map.sizeInCtus)
  inverse : Set.InvOn map.ctuBsToRsAddrMap map.ctuRsToBsAddrMap
    (Set.Iio map.sizeInCtus) (Set.Iio map.sizeInCtus)
  order : ∀ k, (hk : k < map.bricks.length) → ∀ o < map.bricks[k].rect.area,
    map.ctuBsToRsAddrMap (cellsBefore (map.bricks.map Brick.rect) k + o) =
      (map.bricks[k].rowBd + o / map.bricks[k].widthInCtus) * map.widthInCtus +
        (map.bricks[k].colBd + o % map.bricks[k].widthInCtus)
  brickIdxRs : ∀ k x y, (hk : k < map.bricks.length) → map.bricks[k].rect.Contains x y →
    map.brickIdxRsMap (y * map.widthInCtus + x) = k
  brickIdxBs : ∀ k x y, (hk : k < map.bricks.length) → map.bricks[k].rect.Contains x y →
    map.brickIdxBsMap (map.ctuRsToBsAddrMap (y * map.widthInCtus + x)) = k

/-- The loops over the bricks go through the CTUs of each. -/
theorem mem_brickCells {bricks : List Brick} {width a k : Nat} :
    (a, k) ∈ brickCells bricks width ↔
      ∃ x y, ∃ hk : k < bricks.length, bricks[k].rect.Contains x y ∧ a = y * width + x := by
  simp only [brickCells, List.mem_flatMap, List.mem_map, List.mem_range, Prod.mk.injEq]
  constructor
  · rintro ⟨i, hi, y, hy, x, hx, rfl, rfl⟩
    rw [List.getD_eq_getElem _ _ hi] at hy hx ⊢
    refine ⟨_, _, hi, ⟨⟨?_, ?_⟩, ?_, ?_⟩, rfl⟩
    · exact Nat.le_add_right ..
    · exact Nat.add_lt_add_left hx _
    · exact Nat.le_add_right ..
    · exact Nat.add_lt_add_left hy _
  · rintro ⟨x, y, hk, ⟨⟨left, right⟩, top, bottom⟩, rfl⟩
    have left : bricks[k].colBd ≤ x := left
    have right : x < bricks[k].colBd + bricks[k].widthInCtus := right
    have top : bricks[k].rowBd ≤ y := top
    have bottom : y < bricks[k].rowBd + bricks[k].heightInCtus := bottom
    refine ⟨k, hk, y - bricks[k].rowBd, ?_, x - bricks[k].colBd, ?_, ?_, rfl⟩
    · rw [List.getD_eq_getElem _ _ hk]
      omega
    · rw [List.getD_eq_getElem _ _ hk]
      omega
    · rw [List.getD_eq_getElem _ _ hk, Nat.add_sub_cancel' top, Nat.add_sub_cancel' left]

section Created

variable {sps : SPS} {pps : PPS} (valid : ValidTiles sps pps)
include valid

theorem ctuRsToBsAddrMap_eq {x y : Nat} (hx : x < pps.picWidthInCtus sps)
    (hy : y < pps.picHeightInCtus sps) :
    (BrickMap.create sps pps).ctuRsToBsAddrMap (y * pps.picWidthInCtus sps + x) =
      scanPlace ((pps.bricks sps).map Brick.rect) x y := by
  rw [← ctuBsAddr_eq valid.tiling hx hy]
  apply store_eq
  · intro write member here
    obtain ⟨a, -, rfl⟩ := List.mem_map.mp member
    exact congrArg (ctuBsAddr _ _) here
  · exact ⟨_, List.mem_map.mpr ⟨_, List.mem_range.mpr (raster_lt hx hy), rfl⟩, rfl⟩

theorem ctuBsToRsAddrMap_eq {x y : Nat} (hx : x < pps.picWidthInCtus sps)
    (hy : y < pps.picHeightInCtus sps) :
    (BrickMap.create sps pps).ctuBsToRsAddrMap (scanPlace ((pps.bricks sps).map Brick.rect) x y) =
      y * pps.picWidthInCtus sps + x := by
  apply store_eq
  · intro write member here
    obtain ⟨a, inside, rfl⟩ := List.mem_map.mp member
    obtain ⟨x', hx', y', hy', rfl⟩ := exists_raster (List.mem_range.mp inside)
    have here := (ctuRsToBsAddrMap_eq valid hx' hy').symm.trans here
    obtain ⟨rfl, rfl⟩ := valid.tiling.scanPlace_inj hx' hy' hx hy here
    rfl
  · exact ⟨_, List.mem_map.mpr ⟨_, List.mem_range.mpr (raster_lt hx hy), rfl⟩,
      ctuRsToBsAddrMap_eq valid hx hy⟩

theorem ValidTiles.unique {j k x y : Nat} (hj : j < (pps.bricks sps).length)
    (hk : k < (pps.bricks sps).length) (inside : (pps.bricks sps)[j].rect.Contains x y)
    (inside' : (pps.bricks sps)[k].rect.Contains x y) : j = k :=
  valid.tiling.unique (by simpa using hj) (by simpa using hk) (by simpa using inside)
    (by simpa using inside')

theorem ValidTiles.cell_lt {k x y : Nat} (hk : k < (pps.bricks sps).length)
    (inside : (pps.bricks sps)[k].rect.Contains x y) :
    x < pps.picWidthInCtus sps ∧ y < pps.picHeightInCtus sps :=
  valid.tiling.cell_lt (by simpa using hk) (by simpa using inside)

/-- The cell at place `o` of brick `k`. -/
theorem ctuBsToRsAddrMap_brick {k o : Nat} (hk : k < (pps.bricks sps).length)
    (small : o < (pps.bricks sps)[k].rect.area) :
    (BrickMap.create sps pps).ctuBsToRsAddrMap
        (cellsBefore ((pps.bricks sps).map Brick.rect) k + o) =
      ((pps.bricks sps)[k].rowBd + o / (pps.bricks sps)[k].widthInCtus) * pps.picWidthInCtus sps +
        ((pps.bricks sps)[k].colBd + o % (pps.bricks sps)[k].widthInCtus) := by
  have hk' : k < ((pps.bricks sps).map Brick.rect).length := by simpa using hk
  have small' : o < ((pps.bricks sps).map Brick.rect)[k].area := by simpa using small
  have place := valid.tiling.scanPlace_cell hk' small'
  rw [List.getElem_map] at place
  obtain ⟨hx, hy⟩ := valid.cell_lt hk ((pps.bricks sps)[k].rect.contains_of_offset small).1
  rw [← place]
  exact ctuBsToRsAddrMap_eq valid hx hy

/-- An index map gets the brick of each CTU from the loops over the bricks. -/
theorem store_brickCells (key array : Nat → Nat)
    (inj : ∀ x < pps.picWidthInCtus sps, ∀ y < pps.picHeightInCtus sps,
      ∀ x' < pps.picWidthInCtus sps, ∀ y' < pps.picHeightInCtus sps,
      key (y * pps.picWidthInCtus sps + x) = key (y' * pps.picWidthInCtus sps + x') →
        x = x' ∧ y = y')
    {k x y : Nat} (hk : k < (pps.bricks sps).length)
    (inside : (pps.bricks sps)[k].rect.Contains x y) :
    store ((brickCells (pps.bricks sps) (pps.picWidthInCtus sps)).map fun cell =>
        (key cell.1, cell.2)) array (key (y * pps.picWidthInCtus sps + x)) = k := by
  apply store_eq
  · intro write member here
    obtain ⟨⟨a, j⟩, cell, rfl⟩ := List.mem_map.mp member
    obtain ⟨x', y', hj, inside', rfl⟩ := mem_brickCells.mp cell
    obtain ⟨hx, hy⟩ := valid.cell_lt hk inside
    obtain ⟨hx', hy'⟩ := valid.cell_lt hj inside'
    obtain ⟨rfl, rfl⟩ := inj x' hx' y' hy' x hx y hy here
    exact valid.unique hj hk inside' inside
  · exact ⟨_, List.mem_map.mpr ⟨_, mem_brickCells.mpr ⟨x, y, hk, inside, rfl⟩, rfl⟩, rfl⟩

/-- The address maps of consistent tiles and bricks are a brick scan. -/
theorem brickMap_scans : (BrickMap.create sps pps).Scans where
  disjoint j k x y hj hk inside inside' := valid.unique hj hk inside inside'
  within brick member := valid.tiling.within _ (List.mem_map_of_mem member)
  cover x hx y hy := by
    obtain ⟨r, member, inside⟩ := valid.tiling.cover x hx y hy
    obtain ⟨brick, listed, rfl⟩ := List.mem_map.mp member
    exact ⟨brick, listed, inside⟩
  bijective := by
    refine ⟨?_, ?_, ?_⟩
    · intro a inside
      obtain ⟨x, hx, y, hy, rfl⟩ := exists_raster inside
      have lt := valid.tiling.scanPlace_lt hx hy
      rw [valid.tiling.sum_area, ← ctuRsToBsAddrMap_eq valid hx hy] at lt
      exact lt
    · intro a inside a' inside' same
      obtain ⟨x, hx, y, hy, rfl⟩ := exists_raster inside
      obtain ⟨x', hx', y', hy', rfl⟩ := exists_raster inside'
      have same : (BrickMap.create sps pps).ctuRsToBsAddrMap (y * pps.picWidthInCtus sps + x) =
        (BrickMap.create sps pps).ctuRsToBsAddrMap (y' * pps.picWidthInCtus sps + x') := same
      rw [ctuRsToBsAddrMap_eq valid hx hy, ctuRsToBsAddrMap_eq valid hx' hy'] at same
      obtain ⟨rfl, rfl⟩ := valid.tiling.scanPlace_inj hx hy hx' hy' same
      rfl
    · intro a inside
      have inside : a < pps.picWidthInCtus sps * pps.picHeightInCtus sps := inside
      rw [← valid.tiling.sum_area] at inside
      obtain ⟨x, y, hx, hy, rfl⟩ := valid.tiling.exists_scanPlace inside
      exact ⟨_, raster_lt hx hy, ctuRsToBsAddrMap_eq valid hx hy⟩
  inverse := by
    constructor
    · intro a inside
      obtain ⟨x, hx, y, hy, rfl⟩ := exists_raster inside
      exact (congrArg _ (ctuRsToBsAddrMap_eq valid hx hy)).trans (ctuBsToRsAddrMap_eq valid hx hy)
    · intro a inside
      have inside : a < pps.picWidthInCtus sps * pps.picHeightInCtus sps := inside
      rw [← valid.tiling.sum_area] at inside
      obtain ⟨x, y, hx, hy, rfl⟩ := valid.tiling.exists_scanPlace inside
      exact (congrArg _ (ctuBsToRsAddrMap_eq valid hx hy)).trans (ctuRsToBsAddrMap_eq valid hx hy)
  order k hk o small := ctuBsToRsAddrMap_brick valid hk small
  brickIdxRs k x y hk inside := by
    have written := store_brickCells valid id (fun _ => 0)
      (fun x hx y hy x' hx' y' hy' same => raster_inj hx hx' same) hk inside
    have identity : (fun cell : Nat × Nat => (id cell.1, cell.2)) = id := rfl
    rw [identity, List.map_id] at written
    exact written
  brickIdxBs k x y hk inside := by
    refine store_brickCells valid (BrickMap.create sps pps).ctuRsToBsAddrMap _
      (fun x hx y hy x' hx' y' hy' same => ?_) hk inside
    rw [ctuRsToBsAddrMap_eq valid hx hy, ctuRsToBsAddrMap_eq valid hx' hy'] at same
    exact valid.tiling.scanPlace_inj hx hy hx' hy' same

end Created
end Vtm
