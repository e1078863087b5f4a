import Vtm.Slice.BrickScan
import Vtm.Encoder.EncSlice
import Vtm.Decoder.DecSlice

/-!
# Substreams

The walks of `encodeSlice` and `decompressSlice` through a slice of whole bricks agree
exactly when, with wavefronts, each brick of the slice is as wide as the picture or one
CTU high.
-/

namespace Vtm

open Vtm.Std
open BrickMap (create)

/-- CTU `ctuTsAddr` of the brick scan: its brick and its place in the picture. -/
structure CtuAt (map : BrickMap) (ctuTsAddr k x y : Nat) : Prop where
  brick : k < map.bricks.length
  inside : map.bricks[k].rect.Contains x y
  column : x < map.widthInCtus
  row : y < map.heightInCtus
  rs : map.ctuBsToRsAddrMap ctuTsAddr = y * map.widthInCtus + x
  bs : map.ctuRsToBsAddrMap (y * map.widthInCtus + x) = ctuTsAddr
  place : ctuTsAddr = cellsBefore (map.bricks.map Brick.rect) k + map.bricks[k].rect.offset x y
  idxRs : map.brickIdxRsMap (y * map.widthInCtus + x) = k
  idxBs : map.brickIdxBsMap ctuTsAddr = k

section Created

variable {sps : SPS} {pps : PPS} (valid : ValidTiles sps pps)
include valid

/-- Every CTU of a brick is somewhere in the scan. -/
theorem ctuAt_of_contains {k x y : Nat} (hk : k < (pps.bricks sps).length)
    (inside : (pps.bricks sps)[k].rect.Contains x y) :
    CtuAt (create sps pps)
      (cellsBefore ((pps.bricks sps).map Brick.rect) k + (pps.bricks sps)[k].rect.offset x y)
      k x y := by
  obtain ⟨hx, hy⟩ := valid.cell_lt hk inside
  have scans := brickMap_scans valid
  have place := valid.tiling.scanPlace_eq (by simpa using hk) (by simpa using inside)
  rw [List.getElem_map] at place
  have bs := ctuRsToBsAddrMap_eq valid hx hy
  have rs := ctuBsToRsAddrMap_eq valid hx hy
  rw [place] at bs rs
  exact
    { brick := hk
      inside := inside
      column := hx
      row := hy
      rs := rs
      bs := bs
      place := rfl
      idxRs := scans.brickIdxRs k x y hk inside
      idxBs := (congrArg _ bs).symm.trans (scans.brickIdxBs k x y hk inside) }

theorem exists_ctuAt {ctuTsAddr : Nat}
    (lt : ctuTsAddr < (create sps pps).sizeInCtus) :
    ∃ k x y, CtuAt (create sps pps) ctuTsAddr k x y := by
  obtain ⟨a, inside, rfl⟩ := (brickMap_scans valid).bijective.surjOn lt
  obtain ⟨x, hx, y, hy, rfl⟩ := exists_raster inside
  obtain ⟨k, hk, contains⟩ := valid.tiling.exists_index hx hy
  rw [List.getElem_map] at contains
  rw [List.length_map] at hk
  have ctuAt := ctuAt_of_contains valid hk contains
  rw [← ctuAt.bs] at ctuAt
  exact ⟨k, x, y, ctuAt⟩

theorem CtuAt.lt {ctuTsAddr k x y : Nat}
    (ctuAt : CtuAt (create sps pps) ctuTsAddr k x y) :
    ctuTsAddr < (create sps pps).sizeInCtus := by
  rw [← ctuAt.bs]
  exact (brickMap_scans valid).bijective.mapsTo (raster_lt ctuAt.column ctuAt.row)

omit valid in
/-- A brick starts at its first CTU. -/
theorem CtuAt.firstCtuRsAddr {ctuTsAddr k x y : Nat}
    (ctuAt : CtuAt (create sps pps) ctuTsAddr k x y) :
    let brick := (create sps pps).bricks.getD k default
    brick.firstCtuRsAddr = brick.rowBd * (create sps pps).widthInCtus + brick.colBd ∧
      brick.firstCtuRsAddr % (create sps pps).widthInCtus = brick.colBd ∧
      brick.firstCtuRsAddr / (create sps pps).widthInCtus = brick.rowBd := by
  have hk : k < (pps.bricks sps).length := ctuAt.brick
  have start : (pps.bricks sps)[k].firstCtuRsAddr =
      (pps.bricks sps)[k].rowBd * pps.picWidthInCtus sps + (pps.bricks sps)[k].colBd := by
    obtain ⟨tileIdx, -, inTile⟩ := List.mem_flatMap.mp (List.getElem_mem hk)
    obtain ⟨j, -, same⟩ := List.mem_map.mp inTile
    rw [← same]
    exact Nat.add_comm ..
  have column : (pps.bricks sps)[k].colBd < pps.picWidthInCtus sps :=
    lt_of_le_of_lt ctuAt.inside.1.1 ctuAt.column
  have brick : (create sps pps).bricks.getD k default = (pps.bricks sps)[k] :=
    List.getD_eq_getElem _ _ hk
  dsimp only
  rw [brick, start]
  exact ⟨rfl, raster_mod _ column, raster_div _ column⟩

/-- Bricks are counted by their CTUs. -/
theorem ValidTiles.le_cellsBefore {k : Nat} (hk : k ≤ (pps.bricks sps).length) :
    k ≤ cellsBefore ((pps.bricks sps).map Brick.rect) k := by
  induction k with
  | zero => exact Nat.zero_le _
  | succ k ih =>
      have hk' : k < ((pps.bricks sps).map Brick.rect).length := by
        simpa using Nat.lt_of_succ_le hk
      obtain ⟨columns, rows⟩ := valid.brick_pos (List.getElem_mem hk)
      have some : 0 < (pps.bricks sps)[k].rect.area := Nat.mul_pos rows columns
      rw [cellsBefore_succ hk', List.getElem_map]
      have before := ih (Nat.le_of_succ_le hk)
      omega

/-- The index map has no brick behind the last CTU. -/
theorem brickIdxBsMap_sizeInCtus :
    (create sps pps).brickIdxBsMap (create sps pps).sizeInCtus = 2 ^ 32 - 1 := by
  refine (store_of_forall_ne fun write member => ?_).trans (Function.update_self ..)
  obtain ⟨⟨a, k⟩, cell, rfl⟩ := List.mem_map.mp member
  obtain ⟨x, y, hk, inside, rfl⟩ := mem_brickCells.mp cell
  obtain ⟨hx, hy⟩ := valid.cell_lt hk inside
  exact Nat.ne_of_lt ((brickMap_scans valid).bijective.mapsTo (raster_lt hx hy))

/-- The encoder's test for the last CTU of a brick. -/
theorem CtuAt.lastInBrick_iff (small : (create sps pps).sizeInCtus < 2 ^ 32)
    {ctuTsAddr k x y : Nat} (ctuAt : CtuAt (create sps pps) ctuTsAddr k x y) :
    (create sps pps).brickIdxBsMap ctuTsAddr ≠
        (create sps pps).brickIdxBsMap (ctuTsAddr + 1) ↔
      x + 1 = ((pps.bricks sps).getD k default).rect.right ∧
        y + 1 = ((pps.bricks sps).getD k default).rect.bottom := by
  have hk : k < (pps.bricks sps).length := ctuAt.brick
  have inside : (pps.bricks sps)[k].rect.Contains x y := ctuAt.inside
  have place : ctuTsAddr = cellsBefore ((pps.bricks sps).map Brick.rect) k +
    (pps.bricks sps)[k].rect.offset x y := ctuAt.place
  rw [ctuAt.idxBs, List.getD_eq_getElem _ _ hk, ← inside.last_iff]
  constructor
  · -- the next CTU of the brick would have its index
    intro apart
    by_contra more
    have next : (pps.bricks sps)[k].rect.offset x y + 1 < (pps.bricks sps)[k].rect.area :=
      lt_of_le_of_ne inside.offset_lt more
    obtain ⟨there, offset⟩ := (pps.bricks sps)[k].rect.contains_of_offset next
    have idxBs := (ctuAt_of_contains valid hk there).idxBs
    rw [offset, ← Nat.add_assoc, ← place] at idxBs
    exact apart idxBs.symm
  · intro last same
    rcases Nat.lt_or_ge (ctuTsAddr + 1) (create sps pps).sizeInCtus with more | ended
    · obtain ⟨k', x', y', ctuAt'⟩ := exists_ctuAt valid more
      obtain rfl : k' = k := ctuAt'.idxBs.symm.trans same.symm
      have place' : ctuTsAddr + 1 = cellsBefore ((pps.bricks sps).map Brick.rect) k' +
        (pps.bricks sps)[k'].rect.offset x' y' := ctuAt'.place
      have fits : (pps.bricks sps)[k'].rect.offset x' y' < (pps.bricks sps)[k'].rect.area :=
        Rect.Contains.offset_lt ctuAt'.inside
      omega
    · have before := valid.le_cellsBefore (Nat.le_of_lt hk)
      have lt := ctuAt.lt valid
      have all : ctuTsAddr + 1 = (create sps pps).sizeInCtus := by omega
      rw [all, brickIdxBsMap_sizeInCtus valid] at same
      omega

end Created

/-- CTU `ctuTsAddr` is in the slice. -/
def Visited (map : BrickMap) (slice : SliceArea) (ctuTsAddr : Nat) : Prop :=
  slice.startCtuTsAddr ≤ ctuTsAddr ∧ ctuTsAddr < slice.endCtuTsAddr ∧
    map.skips slice ctuTsAddr = false

/-- A slice of whole bricks, with its first and its last CTU. -/
structure WholeBricks (map : BrickMap) (slice : SliceArea) : Prop where
  within : slice.endCtuTsAddr ≤ map.sizeInCtus
  first : Visited map slice slice.startCtuTsAddr
  last : Visited map slice (slice.endCtuTsAddr - 1)
  whole : ∀ ctuTsAddr other, Visited map slice ctuTsAddr → other < map.sizeInCtus →
    map.brickIdxBsMap other = map.brickIdxBsMap ctuTsAddr → Visited map slice other

/-- With wavefronts, each brick of the slice is as wide as the picture or one CTU high. -/
def WideBricks (map : BrickMap) (slice : SliceArea) : Prop :=
  slice.entropyCodingSyncEnabledFlag = true → ∀ ctuTsAddr, Visited map slice ctuTsAddr →
    let brick := map.bricks.getD (map.brickIdxBsMap ctuTsAddr) default
    brick.widthInCtus = map.widthInCtus ∨ brick.heightInCtus = 1

section Starts

variable {sps : SPS} {pps : PPS} {slice : SliceArea} {ctuTsAddr k x y : Nat}
  (ctuAt : CtuAt (create sps pps) ctuTsAddr k x y)
include ctuAt

/-- The first CTU of a brick. -/
theorem CtuAt.startsTile_iff : (create sps pps).startsTile ctuTsAddr = true ↔
    x = ((create sps pps).bricks.getD k default).colBd ∧
      y = ((create sps pps).bricks.getD k default).rowBd := by
  obtain ⟨start, column, row⟩ := ctuAt.firstCtuRsAddr
  have left : ((create sps pps).bricks.getD k default).colBd ≤ x := by
    rw [List.getD_eq_getElem _ _ ctuAt.brick]
    exact ctuAt.inside.1.1
  rw [BrickMap.startsTile, BrickMap.currentTile, ctuAt.rs, ctuAt.idxRs, start, decide_eq_true_eq]
  constructor
  · exact raster_inj ctuAt.column (lt_of_le_of_lt left ctuAt.column)
  · rintro ⟨column, row⟩
    rw [← column, ← row]

/-- The first CTU of a wavefront row. -/
theorem CtuAt.startsWavefront_iff :
    (create sps pps).startsWavefront slice ctuTsAddr = true ↔
      x = ((create sps pps).bricks.getD k default).colBd ∧
        slice.entropyCodingSyncEnabledFlag = true := by
  obtain ⟨start, column, row⟩ := ctuAt.firstCtuRsAddr
  rw [BrickMap.startsWavefront, BrickMap.currentTile, ctuAt.rs, ctuAt.idxRs, column,
    raster_mod _ ctuAt.column, decide_eq_true_eq]

end Starts

section Ends

variable {sps : SPS} {pps : PPS} {slice : SliceArea}

/-- The last CTU of the slice. -/
theorem rs_eq_last_iff (valid : ValidTiles sps pps)
    (whole : WholeBricks (create sps pps) slice) {ctuTsAddr : Nat}
    (visited : Visited (create sps pps) slice ctuTsAddr) :
    (create sps pps).ctuBsToRsAddrMap ctuTsAddr =
        (create sps pps).ctuBsToRsAddrMap (slice.endCtuTsAddr - 1) ↔
      ctuTsAddr + 1 = slice.endCtuTsAddr := by
  have within := whole.within
  have before := visited.2.1
  have inverse := (brickMap_scans valid).inverse.2
  constructor
  · intro same
    have here : ctuTsAddr < (create sps pps).sizeInCtus := by omega
    have there : slice.endCtuTsAddr - 1 < (create sps pps).sizeInCtus := by omega
    have back := congrArg (create sps pps).ctuRsToBsAddrMap same
    rw [inverse here, inverse there] at back
    omega
  · intro last
    rw [← last]
    rfl

/-- The encoder's test for the last CTU of a row holds only in bricks as wide as the
picture. -/
theorem lastInRow_iff {width x y left : Nat} (hx : x < width) (inside : left ≤ x) :
    (y * width + x + 1) % width = left ↔ left = 0 ∧ x + 1 = width := by
  rw [Nat.add_assoc]
  rcases Nat.lt_or_ge (x + 1) width with more | ended
  · rw [raster_mod y more]
    omega
  · have all : x + 1 = width := by omega
    rw [all, Nat.add_mod_right, Nat.mul_mod_left]
    omega

/-- When the encoder ends a substream. -/
theorem encEnds_iff (valid : ValidTiles sps pps)
    (small : (create sps pps).sizeInCtus < 2 ^ 32)
    (whole : WholeBricks (create sps pps) slice) {ctuTsAddr k x y : Nat}
    (visited : Visited (create sps pps) slice ctuTsAddr)
    (ctuAt : CtuAt (create sps pps) ctuTsAddr k x y) :
    EncSlice.endsSubstream (create sps pps) slice ctuTsAddr = true ↔
      let brick := (create sps pps).bricks.getD k default
      (x + 1 = brick.rect.right ∧ y + 1 = brick.rect.bottom) ∨
        (slice.entropyCodingSyncEnabledFlag = true ∧ brick.colBd = 0 ∧
          x + 1 = (create sps pps).widthInCtus) ∨
        ctuTsAddr + 1 = slice.endCtuTsAddr := by
  obtain ⟨-, column, -⟩ := ctuAt.firstCtuRsAddr
  have hx := ctuAt.column
  have left : ((create sps pps).bricks.getD k default).colBd ≤ x := by
    rw [List.getD_eq_getElem _ _ ctuAt.brick]
    exact ctuAt.inside.1.1
  have last := rs_eq_last_iff valid whole visited
  have brick := ctuAt.lastInBrick_iff valid small
  rw [ctuAt.rs] at last
  simp only [EncSlice.endsSubstream, BrickMap.currentTile, ctuAt.rs, ctuAt.idxRs, column, decide_eq_true_eq,
    lastInRow_iff hx left, not_not, last, brick]
  rfl

/-- When the decoder ends a substream before the end of the slice. -/
theorem decEnds_iff {ctuTsAddr k x y : Nat}
    (ctuAt : CtuAt (create sps pps) ctuTsAddr k x y) :
    DecSlice.endsSubstream (create sps pps) slice ctuTsAddr = true ↔
      let brick := (create sps pps).bricks.getD k default
      x + 1 = brick.rect.right ∧
        (y + 1 = brick.rect.bottom ∨ slice.entropyCodingSyncEnabledFlag = true) := by
  obtain ⟨-, column, row⟩ := ctuAt.firstCtuRsAddr
  have hx := ctuAt.column
  simp only [DecSlice.endsSubstream, BrickMap.currentTile, ctuAt.rs, ctuAt.idxRs, column, row,
    raster_mod _ hx, raster_div _ hx, decide_eq_true_eq]
  rfl

/-- Encoder and decoder end the same substreams when the bricks are wide or flat. -/
theorem ends_eq (valid : ValidTiles sps pps)
    (small : (create sps pps).sizeInCtus < 2 ^ 32)
    (whole : WholeBricks (create sps pps) slice)
    (wide : WideBricks (create sps pps) slice) {ctuTsAddr : Nat}
    (visited : Visited (create sps pps) slice ctuTsAddr)
    (more : ctuTsAddr + 1 ≠ slice.endCtuTsAddr) :
    EncSlice.endsSubstream (create sps pps) slice ctuTsAddr =
      DecSlice.endsSubstream (create sps pps) slice ctuTsAddr := by
  have within := whole.within
  have before := visited.2.1
  have lt : ctuTsAddr < (create sps pps).sizeInCtus := by omega
  obtain ⟨k, x, y, ctuAt⟩ := exists_ctuAt valid lt
  have wide := fun sync => wide sync ctuTsAddr visited
  have inside := ctuAt.inside
  have hx := ctuAt.column
  have fits := ((brickMap_scans valid).within _ (List.getElem_mem ctuAt.brick)).1
  rw [ctuAt.idxBs] at wide
  rw [← List.getD_eq_getElem _ default ctuAt.brick] at inside fits
  obtain ⟨⟨left, right⟩, top, bottom⟩ := inside
  rw [Bool.eq_iff_iff, encEnds_iff valid small whole visited ctuAt, decEnds_iff ctuAt]
  dsimp only [Rect.right, Rect.bottom, Brick.rect] at *
  constructor
  · rintro (⟨column, row⟩ | ⟨sync, zero, full⟩ | last)
    · exact ⟨column, Or.inl row⟩
    · exact ⟨by omega, Or.inr sync⟩
    · exact absurd last more
  · rintro ⟨column, row | sync⟩
    · exact Or.inl ⟨column, row⟩
    · rcases wide sync with full | flat
      · exact Or.inr (Or.inl ⟨sync, by omega, by omega⟩)
      · exact Or.inl ⟨column, by omega⟩

/-- A brick that is neither wide nor flat shows where they differ. -/
theorem wideBricks_of_ends_eq (valid : ValidTiles sps pps)
    (small : (create sps pps).sizeInCtus < 2 ^ 32)
    (whole : WholeBricks (create sps pps) slice)
    (same : ∀ ctuTsAddr, Visited (create sps pps) slice ctuTsAddr →
      ctuTsAddr + 1 ≠ slice.endCtuTsAddr →
      EncSlice.endsSubstream (create sps pps) slice ctuTsAddr =
        DecSlice.endsSubstream (create sps pps) slice ctuTsAddr) :
    WideBricks (create sps pps) slice := by
  intro sync ctuTsAddr visited
  by_contra bad
  have lt : ctuTsAddr < (create sps pps).sizeInCtus :=
    lt_of_lt_of_le visited.2.1 whole.within
  obtain ⟨k, x, y, ctuAt⟩ := exists_ctuAt valid lt
  rw [ctuAt.idxBs] at bad
  -- the last CTU in the first row of the brick
  have hk : k < (pps.bricks sps).length := ctuAt.brick
  obtain ⟨columns, rows⟩ := valid.brick_pos (List.getElem_mem hk)
  rw [List.getD_eq_getElem _ _ ctuAt.brick] at bad
  have bad : ¬ ((pps.bricks sps)[k].widthInCtus = pps.picWidthInCtus sps ∨
    (pps.bricks sps)[k].heightInCtus = 1) := bad
  have inside (row : Nat) (hrow : row < 2) : (pps.bricks sps)[k].rect.Contains
      ((pps.bricks sps)[k].rect.right - 1) ((pps.bricks sps)[k].rowBd + row) := by
    unfold Rect.Contains Rect.right Rect.bottom
    dsimp only [Brick.rect]
    omega
  have first := ctuAt_of_contains valid hk (inside 0 (by omega))
  have second := ctuAt_of_contains valid hk (inside 1 (by omega))
  have visitedFirst := whole.whole _ _ visited (first.lt valid) (first.idxBs.trans ctuAt.idxBs.symm)
  have visitedSecond :=
    whole.whole _ _ visited (second.lt valid) (second.idxBs.trans ctuAt.idxBs.symm)
  have before := visitedSecond.2.1
  have next : (pps.bricks sps)[k].rect.offset ((pps.bricks sps)[k].rect.right - 1)
        ((pps.bricks sps)[k].rowBd + 1) =
      (pps.bricks sps)[k].rect.offset ((pps.bricks sps)[k].rect.right - 1)
        ((pps.bricks sps)[k].rowBd + 0) + (pps.bricks sps)[k].widthInCtus := by
    exact Rect.offset_succ _ _ le_rfl
  rw [next] at before
  have more := same _ visitedFirst (by omega)
  have decEnds := (@decEnds_iff sps pps slice _ _ _ _ first).mpr
  have encEnds := (encEnds_iff valid small whole visitedFirst first).mp
  rw [more] at encEnds
  have brick : (create sps pps).bricks.getD k default = (pps.bricks sps)[k] :=
    List.getD_eq_getElem _ _ hk
  have full : (pps.bricks sps)[k].rect.right - 1 + 1 = (pps.bricks sps)[k].rect.right :=
    Nat.sub_add_cancel (Nat.le_trans columns (Nat.le_add_left ..))
  dsimp only at encEnds decEnds
  rw [brick] at encEnds decEnds
  rcases encEnds (decEnds ⟨full, Or.inr sync⟩) with ⟨-, row⟩ | ⟨-, zero, wide⟩ | last
  · exact bad (Or.inr (Nat.add_left_cancel row).symm)
  · rw [full, Rect.right] at wide
    have wide : (pps.bricks sps)[k].colBd + (pps.bricks sps)[k].widthInCtus =
      pps.picWidthInCtus sps := wide
    rw [zero, Nat.zero_add] at wide
    exact bad (Or.inl wide)
  · omega

/-- What the decoder reads behind a CTU from the bins of the encoder. -/
theorem readBins_terminatingBins (valid : ValidTiles sps pps)
    (small : (create sps pps).sizeInCtus < 2 ^ 32)
    (whole : WholeBricks (create sps pps) slice) {ctuTsAddr : Nat}
    (visited : Visited (create sps pps) slice ctuTsAddr) (result : Bool × Bool) :
    DecSlice.readBins (create sps pps) slice ctuTsAddr
        (EncSlice.terminatingBins (create sps pps) slice ctuTsAddr) = .ok result ↔
      result = (decide (ctuTsAddr + 1 = slice.endCtuTsAddr),
        EncSlice.endsSubstream (create sps pps) slice ctuTsAddr) ∧
      (ctuTsAddr + 1 ≠ slice.endCtuTsAddr →
        EncSlice.endsSubstream (create sps pps) slice ctuTsAddr =
          DecSlice.endsSubstream (create sps pps) slice ctuTsAddr) := by
  have lt : ctuTsAddr < (create sps pps).sizeInCtus :=
    lt_of_lt_of_le visited.2.1 whole.within
  obtain ⟨k, x, y, ctuAt⟩ := exists_ctuAt valid lt
  by_cases last : ctuTsAddr + 1 = slice.endCtuTsAddr
  · have ends := (encEnds_iff valid small whole visited ctuAt).mpr (Or.inr (Or.inr last))
    have bins : EncSlice.terminatingBins (create sps pps) slice ctuTsAddr = [true] := by
      rw [EncSlice.terminatingBins, if_neg (not_not.mpr last.symm), ends]
      rfl
    rw [bins, ends, decide_eq_true last]
    constructor
    · rintro ⟨⟩
      exact ⟨rfl, fun more => absurd last more⟩
    · rintro ⟨rfl, -⟩
      rfl
  · have bins : EncSlice.terminatingBins (create sps pps) slice ctuTsAddr =
        false :: if EncSlice.endsSubstream (create sps pps) slice ctuTsAddr = true then
          [true] else [] := by
      rw [EncSlice.terminatingBins, if_pos (Ne.symm last)]
      rfl
    rw [bins, decide_eq_false last]
    cases EncSlice.endsSubstream (create sps pps) slice ctuTsAddr <;>
      cases dec : DecSlice.endsSubstream (create sps pps) slice ctuTsAddr <;>
      simp [DecSlice.readBins, dec, last] <;> exact eq_comm

end Ends

/-- What both sides do to the entropy coder around a CTU. -/
def CtuEvent.entropy (event : CtuEvent) : CtuEvent := { event with resetsPrevQP := false }

/-- Both loops in front of CTU `ctuTsAddr`: their substreams are the same, the stored
contexts too once there are any, and the decoder has the coding units of the CTUs before
it. -/
structure Related (map : BrickMap) (slice : SliceArea) (ctuTsAddr : Nat) (enc : EncSlice.State)
    (dec : DecSlice.State) : Prop where
  subStrm : dec.subStrmId = enc.uiSubStrm
  stored : ∀ earlier < ctuTsAddr, Visited map slice earlier →
    map.startsWavefront slice earlier →
    dec.entropyCodingSyncContextState = enc.entropyCodingSyncContextState
  decoded : ∀ earlier < ctuTsAddr, Visited map slice earlier →
    dec.cuSlice (map.ctuBsToRsAddrMap earlier) = some slice.independentSliceIdx

section Step

variable {sps : SPS} {pps : PPS} {slice : SliceArea} {cuSlice : Nat → Option Nat}
  {enc : EncSlice.State} {dec : DecSlice.State} {ctuTsAddr : Nat}

/-- At the start of a wavefront row the CTU above is there for both. -/
theorem above_available (valid : ValidTiles sps pps)
    (whole : WholeBricks (create sps pps) slice)
    (visited : Visited (create sps pps) slice ctuTsAddr)
    (later : ¬ (create sps pps).startsTile ctuTsAddr)
    (starts : (create sps pps).startsWavefront slice ctuTsAddr) :
    ∃ above < ctuTsAddr, Visited (create sps pps) slice above ∧
      (create sps pps).startsWavefront slice above ∧
      ∀ coded, coded ((create sps pps).ctuBsToRsAddrMap above) =
          some slice.independentSliceIdx →
        (create sps pps).topAvailable slice coded
          ((create sps pps).ctuBsToRsAddrMap ctuTsAddr) = true := by
  have lt : ctuTsAddr < (create sps pps).sizeInCtus :=
    lt_of_lt_of_le visited.2.1 whole.within
  obtain ⟨k, x, y, ctuAt⟩ := exists_ctuAt valid lt
  have hk := ctuAt.brick
  have inside := ctuAt.inside
  have brick := List.getD_eq_getElem _ default hk
  obtain ⟨atLeft, sync⟩ := ctuAt.startsWavefront_iff.mp starts
  rw [ctuAt.startsTile_iff, not_and] at later
  have below : (create sps pps).bricks[k].rowBd < y := by
    refine lt_of_le_of_ne inside.2.1 fun same => later atLeft ?_
    rw [brick]
    exact same.symm
  obtain ⟨up, rfl⟩ : ∃ up, y = up + 1 := ⟨y - 1, by omega⟩
  have insideAbove : (create sps pps).bricks[k].rect.Contains x up :=
    ⟨inside.1, Nat.le_of_lt_succ below, lt_of_le_of_lt (Nat.le_succ up) inside.2.2⟩
  have aboveAt := ctuAt_of_contains valid hk insideAbove
  have address : (up + 1) * (create sps pps).widthInCtus + x -
      (create sps pps).widthInCtus = up * (create sps pps).widthInCtus + x := by
    rw [Nat.add_mul, Nat.one_mul]
    omega
  refine ⟨_, ?_, whole.whole _ _ visited (aboveAt.lt valid) (aboveAt.idxBs.trans ctuAt.idxBs.symm),
    ?_, fun coded here => ?_⟩
  · have place := ctuAt.place
    rw [Rect.offset_succ _ _ insideAbove.2.1] at place
    have columns : 0 < (create sps pps).bricks[k].rect.width :=
      (valid.brick_pos (List.getElem_mem hk)).1
    exact lt_of_lt_of_eq (Nat.add_lt_add_left (Nat.lt_add_of_pos_right columns) _) place.symm
  · exact aboveAt.startsWavefront_iff.mpr ⟨atLeft, sync⟩
  · rw [aboveAt.rs] at here
    rw [ctuAt.rs, BrickMap.topAvailable, address, here, ctuAt.idxRs, aboveAt.idxRs]
    have wide : (create sps pps).widthInCtus ≤
        (up + 1) * (create sps pps).widthInCtus + x := by
      rw [Nat.add_mul, Nat.one_mul]
      omega
    simp [wide]

/-- Both copy the contexts of the same CTU. -/
theorem Related.copiesCtx (valid : ValidTiles sps pps)
    (whole : WholeBricks (create sps pps) slice)
    (coded : ∀ t, Visited (create sps pps) slice t →
      cuSlice ((create sps pps).ctuBsToRsAddrMap t) = some slice.independentSliceIdx)
    (visited : Visited (create sps pps) slice ctuTsAddr)
    (related : Related (create sps pps) slice ctuTsAddr enc dec) :
    (create sps pps).copiesCtx slice dec.cuSlice dec.entropyCodingSyncContextState
        ctuTsAddr =
      (create sps pps).copiesCtx slice cuSlice enc.entropyCodingSyncContextState
        ctuTsAddr := by
  rw [BrickMap.copiesCtx, BrickMap.copiesCtx]
  by_cases copies : ¬ (create sps pps).startsTile ctuTsAddr ∧
      (create sps pps).startsWavefront slice ctuTsAddr
  · obtain ⟨above, before, there, starts, available⟩ :=
      above_available valid whole visited copies.1 copies.2
    rw [if_pos ⟨copies.1, copies.2, available _ (related.decoded above before there)⟩,
      if_pos ⟨copies.1, copies.2, available _ (coded above there)⟩,
      related.stored above before there starts]
  · rw [if_neg fun all => copies ⟨all.1, all.2.1⟩, if_neg fun all => copies ⟨all.1, all.2.1⟩]

/-- One CTU in both loops. -/
theorem decompressCtu_eq_ok (valid : ValidTiles sps pps)
    (small : (create sps pps).sizeInCtus < 2 ^ 32)
    (whole : WholeBricks (create sps pps) slice)
    (coded : ∀ t, Visited (create sps pps) slice t →
      cuSlice ((create sps pps).ctuBsToRsAddrMap t) = some slice.independentSliceIdx)
    (visited : Visited (create sps pps) slice ctuTsAddr)
    (related : Related (create sps pps) slice ctuTsAddr enc dec) {numSubstreams : Nat}
    (room : enc.uiSubStrm < numSubstreams)
    (same : ctuTsAddr + 1 ≠ slice.endCtuTsAddr →
      EncSlice.endsSubstream (create sps pps) slice ctuTsAddr =
        DecSlice.endsSubstream (create sps pps) slice ctuTsAddr) :
    ∃ event dec', DecSlice.decompressCtu (create sps pps) slice numSubstreams dec ctuTsAddr
        (EncSlice.terminatingBins (create sps pps) slice ctuTsAddr) =
          .ok (event, decide (ctuTsAddr + 1 = slice.endCtuTsAddr), dec') ∧
      event.entropy =
        (EncSlice.encodeCtu (create sps pps) slice cuSlice enc ctuTsAddr).1.entropy ∧
      Related (create sps pps) slice (ctuTsAddr + 1)
        (EncSlice.encodeCtu (create sps pps) slice cuSlice enc ctuTsAddr).2 dec' := by
  have read := (readBins_terminatingBins valid small whole visited _).mpr ⟨rfl, same⟩
  have room : ¬ numSubstreams ≤ dec.subStrmId := by
    rw [related.subStrm]
    omega
  rw [DecSlice.decompressCtu]
  simp only [bind_eq_ok_iff]
  refine ⟨_, _, ⟨(), CHECK_of_not room, _, read, rfl⟩, ?_, ?_⟩
  · simp only [CtuEvent.entropy, EncSlice.encodeCtu, related.subStrm,
      related.copiesCtx valid whole coded visited]
  · constructor
    · simp only [EncSlice.encodeCtu, related.subStrm]
    · intro earlier lt visited' starts
      simp only [EncSlice.encodeCtu]
      split
      · rfl
      · rename_i apart
        have before : earlier < ctuTsAddr := by
          refine lt_of_le_of_ne (Nat.le_of_lt_succ lt) ?_
          rintro rfl
          exact apart starts
        exact related.stored earlier before visited' starts
    · intro earlier lt visited'
      rcases Nat.lt_succ_iff_lt_or_eq.mp lt with before | rfl
      · by_cases here : (create sps pps).ctuBsToRsAddrMap earlier =
          (create sps pps).ctuBsToRsAddrMap ctuTsAddr
        · rw [here]
          exact Function.update_self ..
        · exact (Function.update_of_ne here _ _).trans (related.decoded earlier before visited')
      · exact Function.update_self ..

end Step

theorem Related.skip {map : BrickMap} {slice : SliceArea} {ctuTsAddr : Nat} {enc : EncSlice.State}
    {dec : DecSlice.State} (skips : map.skips slice ctuTsAddr = true)
    (related : Related map slice ctuTsAddr enc dec) : Related map slice (ctuTsAddr + 1) enc dec := by
  have before {earlier : Nat} (lt : earlier < ctuTsAddr + 1) (visited : Visited map slice earlier) :
      earlier < ctuTsAddr := by
    refine lt_of_le_of_ne (Nat.le_of_lt_succ lt) ?_
    rintro rfl
    exact absurd skips (by rw [visited.2.2]; exact Bool.false_ne_true)
  exact ⟨related.subStrm, fun earlier lt visited => related.stored earlier (before lt visited) visited,
    fun earlier lt visited => related.decoded earlier (before lt visited) visited⟩

section Run

variable {sps : SPS} {pps : PPS} {slice : SliceArea} {cuSlice : Nat → Option Nat}

theorem encodeCtus_skip {map : BrickMap} {ctuTsAddr : Nat} (skips : map.skips slice ctuTsAddr = true)
    (rest : List Nat) (enc : EncSlice.State) :
    EncSlice.encodeCtus map slice cuSlice (ctuTsAddr :: rest) enc =
      EncSlice.encodeCtus map slice cuSlice rest enc := by
  rw [EncSlice.encodeCtus, if_pos skips]

theorem encodeCtus_visit {map : BrickMap} {ctuTsAddr : Nat}
    (stays : map.skips slice ctuTsAddr = false) (rest : List Nat) (enc : EncSlice.State) :
    EncSlice.encodeCtus map slice cuSlice (ctuTsAddr :: rest) enc =
      (((EncSlice.encodeCtu map slice cuSlice enc ctuTsAddr).1,
        EncSlice.terminatingBins map slice ctuTsAddr) ::
        (EncSlice.encodeCtus map slice cuSlice rest
          (EncSlice.encodeCtu map slice cuSlice enc ctuTsAddr).2).1,
      (EncSlice.encodeCtus map slice cuSlice rest
        (EncSlice.encodeCtu map slice cuSlice enc ctuTsAddr).2).2) := by
  rw [EncSlice.encodeCtus, if_neg (by rw [stays]; exact Bool.false_ne_true)]

/-- Before the end of the slice a substream that ends has its size. -/
theorem encodeCtu_counters (cuSlice : Nat → Option Nat) (valid : ValidTiles sps pps)
    (whole : WholeBricks (create sps pps) slice) {ctuTsAddr : Nat}
    (visited : Visited (create sps pps) slice ctuTsAddr) (enc : EncSlice.State) :
    let next := (EncSlice.encodeCtu (create sps pps) slice cuSlice enc ctuTsAddr).2
    let ended := (EncSlice.endsSubstream (create sps pps) slice ctuTsAddr).toNat
    next.uiSubStrm = enc.uiSubStrm + ended ∧
      next.numberOfSubstreamSizes = enc.numberOfSubstreamSizes +
        if ctuTsAddr + 1 = slice.endCtuTsAddr then 0 else ended := by
  have last := rs_eq_last_iff valid whole visited
  simp only [EncSlice.encodeCtu, ne_eq, last]
  cases EncSlice.endsSubstream (create sps pps) slice ctuTsAddr with
  | true => by_cases ends : ctuTsAddr + 1 = slice.endCtuTsAddr <;> simp [ends]
  | false => simp

theorem encEnds_last (valid : ValidTiles sps pps)
    (small : (create sps pps).sizeInCtus < 2 ^ 32)
    (whole : WholeBricks (create sps pps) slice) {ctuTsAddr : Nat}
    (last : ctuTsAddr + 1 = slice.endCtuTsAddr) :
    Visited (create sps pps) slice ctuTsAddr ∧
      EncSlice.endsSubstream (create sps pps) slice ctuTsAddr = true := by
  obtain rfl : ctuTsAddr = slice.endCtuTsAddr - 1 := by omega
  have visited := whole.last
  obtain ⟨k, x, y, ctuAt⟩ := exists_ctuAt valid (lt_of_lt_of_le visited.2.1 whole.within)
  exact ⟨visited, (encEnds_iff valid small whole visited ctuAt).mpr (Or.inr (Or.inr last))⟩

/-- The counters of the encoder: behind the last CTU there is one substream more than
sizes, and before it as many. -/
theorem encodeCtus_sizes (cuSlice : Nat → Option Nat) (valid : ValidTiles sps pps)
    (small : (create sps pps).sizeInCtus < 2 ^ 32)
    (whole : WholeBricks (create sps pps) slice) (n : Nat) {ctuTsAddr : Nat}
    (start : slice.startCtuTsAddr ≤ ctuTsAddr) (left : ctuTsAddr + (n + 1) = slice.endCtuTsAddr)
    {enc : EncSlice.State} (counted : enc.numberOfSubstreamSizes = enc.uiSubStrm) :
    let run := EncSlice.encodeCtus (create sps pps) slice cuSlice
      (List.range' ctuTsAddr (n + 1)) enc
    enc.uiSubStrm ≤ run.2.numberOfSubstreamSizes ∧
      run.2.numberOfSubstreamSizes + 1 =
        enc.uiSubStrm + (run.1.filter fun ctu => ctu.1.endsSubstream).length := by
  induction n generalizing ctuTsAddr enc with
  | zero =>
      obtain ⟨visited, ends⟩ := encEnds_last valid small whole left
      obtain ⟨-, sizes⟩ := encodeCtu_counters cuSlice valid whole visited enc
      rw [if_pos left, Nat.add_zero] at sizes
      rw [List.range'_one, encodeCtus_visit visited.2.2]
      have event : (EncSlice.encodeCtu (create sps pps) slice cuSlice enc
        ctuTsAddr).1.endsSubstream = true := ends
      simp only [EncSlice.encodeCtus, List.filter_cons, event, if_true,
        List.filter_nil, List.length_cons, List.length_nil]
      omega
  | succ n ih =>
      rw [List.range'_succ]
      cases skips : (create sps pps).skips slice ctuTsAddr with
      | true =>
          rw [encodeCtus_skip skips]
          exact ih (by omega) (by omega) counted
      | false =>
          have visited : Visited (create sps pps) slice ctuTsAddr :=
            ⟨start, by omega, skips⟩
          obtain ⟨substreams, sizes⟩ :=
            encodeCtu_counters cuSlice valid whole visited enc
          rw [if_neg (by omega)] at sizes
          have start' : slice.startCtuTsAddr ≤ ctuTsAddr + 1 := by omega
          obtain ⟨le, count⟩ := ih start' (by omega)
            (sizes.trans ((congrArg (· + _) counted).trans substreams.symm))
          have event : (EncSlice.encodeCtu (create sps pps) slice cuSlice enc
            ctuTsAddr).1.endsSubstream =
              EncSlice.endsSubstream (create sps pps) slice ctuTsAddr := rfl
          rw [encodeCtus_visit skips]
          simp only [List.filter_cons, event]
          cases ends : EncSlice.endsSubstream (create sps pps) slice ctuTsAddr with
          | true =>
              rw [ends, Bool.toNat_true] at substreams
              simp only [if_true, List.length_cons]
              omega
          | false =>
              rw [ends, Bool.toNat_false] at substreams
              simp only [Bool.false_eq_true, if_false]
              omega

theorem decompressCtus_skip {map : BrickMap} {numSubstreams ctuTsAddr : Nat}
    (skips : map.skips slice ctuTsAddr = true) (rest : List Nat) (dec : DecSlice.State)
    (bins : List (List Bool)) :
    DecSlice.decompressCtus map slice numSubstreams (ctuTsAddr :: rest) dec bins =
      DecSlice.decompressCtus map slice numSubstreams rest dec bins := by
  simp only [DecSlice.decompressCtus, skips, if_true]

theorem decompressCtus_visit {map : BrickMap} {numSubstreams ctuTsAddr : Nat}
    (stays : map.skips slice ctuTsAddr = false) (rest : List Nat) (dec : DecSlice.State)
    (ctuBins : List Bool) (bins : List (List Bool)) (events : List CtuEvent) :
    DecSlice.decompressCtus map slice numSubstreams (ctuTsAddr :: rest) dec (ctuBins :: bins) =
        .ok events ↔
      ∃ event last dec', DecSlice.decompressCtu map slice numSubstreams dec ctuTsAddr ctuBins =
          .ok (event, last, dec') ∧
        if last then events = [event]
        else ∃ more, DecSlice.decompressCtus map slice numSubstreams rest dec' bins = .ok more ∧
          events = event :: more := by
  simp only [DecSlice.decompressCtus, stays, Bool.false_eq_true, if_false, bind_eq_ok_iff]
  constructor
  · rintro ⟨⟨event, last, dec'⟩, run, rest⟩
    refine ⟨event, last, dec', run, ?_⟩
    cases last with
    | true =>
        cases rest
        rfl
    | false =>
        obtain ⟨more, run, rest⟩ := bind_eq_ok_iff.mp rest
        cases rest
        exact ⟨more, run, rfl⟩
  · rintro ⟨event, last, dec', run, rest⟩
    refine ⟨(event, last, dec'), run, ?_⟩
    cases last with
    | true =>
        cases rest
        rfl
    | false =>
        obtain ⟨more, run, rfl⟩ := rest
        exact bind_eq_ok_iff.mpr ⟨more, run, rfl⟩

/-- Where the substreams end alike, the decoder goes through the slice as the encoder did. -/
theorem decompressCtus_eq_ok (valid : ValidTiles sps pps)
    (small : (create sps pps).sizeInCtus < 2 ^ 32)
    (whole : WholeBricks (create sps pps) slice)
    (coded : ∀ t, Visited (create sps pps) slice t →
      cuSlice ((create sps pps).ctuBsToRsAddrMap t) = some slice.independentSliceIdx)
    (same : ∀ t, Visited (create sps pps) slice t → t + 1 ≠ slice.endCtuTsAddr →
      EncSlice.endsSubstream (create sps pps) slice t =
        DecSlice.endsSubstream (create sps pps) slice t)
    (n rest : Nat) {ctuTsAddr : Nat} (start : slice.startCtuTsAddr ≤ ctuTsAddr)
    (left : ctuTsAddr + (n + 1) = slice.endCtuTsAddr) {enc : EncSlice.State} {dec : DecSlice.State}
    (counted : enc.numberOfSubstreamSizes = enc.uiSubStrm)
    (related : Related (create sps pps) slice ctuTsAddr enc dec) :
    let run := EncSlice.encodeCtus (create sps pps) slice cuSlice
      (List.range' ctuTsAddr (n + 1)) enc
    ∃ events, DecSlice.decompressCtus (create sps pps) slice
        (run.2.numberOfSubstreamSizes + 1) (List.range' ctuTsAddr (n + 1 + rest)) dec
        (run.1.map Prod.snd) = .ok events ∧
      events.map CtuEvent.entropy = run.1.map fun ctu => ctu.1.entropy := by
  have room := (encodeCtus_sizes cuSlice valid small whole n start left counted).1
  dsimp only at room ⊢
  induction n generalizing ctuTsAddr enc dec with
  | zero =>
      obtain ⟨visited, ends⟩ := encEnds_last valid small whole left
      rw [List.range'_one, encodeCtus_visit visited.2.2] at room ⊢
      obtain ⟨event, dec', step, entropy, -⟩ := decompressCtu_eq_ok valid small whole coded visited
        related (Nat.lt_succ_of_le room) (same _ visited)
      rw [decide_eq_true left] at step
      refine ⟨[event], ?_, congrArg (· :: []) entropy⟩
      rw [Nat.zero_add, Nat.add_comm 1 rest, List.range'_succ, List.map_cons]
      exact (decompressCtus_visit visited.2.2 _ _ _ _ _).mpr ⟨event, true, dec', step, rfl⟩
  | succ n ih =>
      have start' : slice.startCtuTsAddr ≤ ctuTsAddr + 1 := by omega
      have left' : ctuTsAddr + 1 + (n + 1) = slice.endCtuTsAddr := by omega
      have rounds : n + 1 + 1 + rest = n + 1 + rest + 1 := by omega
      rw [List.range'_succ] at room ⊢
      rw [rounds, List.range'_succ]
      cases skips : (create sps pps).skips slice ctuTsAddr with
      | true =>
          rw [encodeCtus_skip skips] at room ⊢
          obtain ⟨events, run, entropies⟩ := ih start' left' counted (related.skip skips) room
          exact ⟨events, (decompressCtus_skip skips _ _ _).trans run, entropies⟩
      | false =>
          have visited : Visited (create sps pps) slice ctuTsAddr :=
            ⟨start, by omega, skips⟩
          rw [encodeCtus_visit skips] at room ⊢
          obtain ⟨event, dec', step, entropy, related'⟩ := decompressCtu_eq_ok valid small whole
            coded visited related (Nat.lt_succ_of_le room) (same _ visited)
          rw [decide_eq_false (by omega)] at step
          obtain ⟨substreams, sizes⟩ := encodeCtu_counters cuSlice valid whole visited enc
          rw [if_neg (by omega)] at sizes
          have counted' := sizes.trans ((congrArg (· + _) counted).trans substreams.symm)
          have room' := (encodeCtus_sizes cuSlice valid small whole n start' left' counted').1
          obtain ⟨events, run, entropies⟩ := ih start' left' counted' related' room'
          refine ⟨event :: events, ?_, ?_⟩
          · exact (decompressCtus_visit skips _ _ _ _ _).mpr
              ⟨event, false, dec', step, events, run, rfl⟩
          · exact congrArg₂ List.cons entropy entropies

/-- A decoder that gets through has ended the substreams where the encoder did. -/
theorem ends_eq_of_decompressCtus (valid : ValidTiles sps pps)
    (small : (create sps pps).sizeInCtus < 2 ^ 32)
    (whole : WholeBricks (create sps pps) slice) {numSubstreams : Nat} (n rest : Nat)
    {ctuTsAddr : Nat} (start : slice.startCtuTsAddr ≤ ctuTsAddr)
    (left : ctuTsAddr + (n + 1) = slice.endCtuTsAddr) {enc : EncSlice.State} {dec : DecSlice.State}
    {events : List CtuEvent}
    (run : DecSlice.decompressCtus (create sps pps) slice numSubstreams
      (List.range' ctuTsAddr (n + 1 + rest)) dec
      ((EncSlice.encodeCtus (create sps pps) slice cuSlice
        (List.range' ctuTsAddr (n + 1)) enc).1.map Prod.snd) = .ok events) {t : Nat}
    (visited : Visited (create sps pps) slice t) (from_here : ctuTsAddr ≤ t)
    (more : t + 1 ≠ slice.endCtuTsAddr) :
    EncSlice.endsSubstream (create sps pps) slice t =
      DecSlice.endsSubstream (create sps pps) slice t := by
  induction n generalizing ctuTsAddr enc dec events with
  | zero =>
      have before := visited.2.1
      omega
  | succ n ih =>
      have start' : slice.startCtuTsAddr ≤ ctuTsAddr + 1 := by omega
      have left' : ctuTsAddr + 1 + (n + 1) = slice.endCtuTsAddr := by omega
      have rounds : n + 1 + 1 + rest = n + 1 + rest + 1 := by omega
      rw [rounds, List.range'_succ, List.range'_succ] at run
      cases skips : (create sps pps).skips slice ctuTsAddr with
      | true =>
          rw [encodeCtus_skip skips, decompressCtus_skip skips] at run
          have apart : ctuTsAddr ≠ t := by
            rintro rfl
            exact absurd skips (by rw [visited.2.2]; exact Bool.false_ne_true)
          exact ih start' left' run (by omega)
      | false =>
          have here : Visited (create sps pps) slice ctuTsAddr := ⟨start, by omega, skips⟩
          rw [encodeCtus_visit skips] at run
          obtain ⟨event, last, dec', step, later⟩ := (decompressCtus_visit skips _ _ _ _ _).mp run
          rw [DecSlice.decompressCtu] at step
          simp only [bind_eq_ok_iff] at step
          obtain ⟨_, -, bins, read, built⟩ := step
          obtain ⟨result, ends⟩ := (readBins_terminatingBins valid small whole here _).mp read
          cases built
          rcases Nat.eq_or_lt_of_le from_here with rfl | after
          · exact ends more
          · rw [result, decide_eq_false (by omega)] at later
            obtain ⟨events', run', -⟩ := later
            exact ih start' left' run' after

end Run

/-- Encoder and decoder agree on a slice: the decoder gets through it with what the encoder
wrote, does to the entropy coder what the encoder did around the same CTUs, and the encoder
has a size for each substream but the last. -/
def SubstreamsAgree (map : BrickMap) (slice : SliceArea) (encCus decCus : Nat → Option Nat)
    (encStored decStored : Option Nat) : Prop :=
  let encoded := EncSlice.encodeSlice map slice encCus encStored
  (∃ events, DecSlice.decompressSlice map slice encoded.2.numberOfSubstreamSizes decCus decStored
      (encoded.1.map Prod.snd) = .ok events ∧
    events.map CtuEvent.entropy = encoded.1.map fun ctu => ctu.1.entropy) ∧
  encoded.2.numberOfSubstreamSizes + 1 = (encoded.1.filter fun ctu => ctu.1.endsSubstream).length

/-- They agree exactly when, with wavefronts, each brick of the slice is as wide as the
picture or one CTU high. -/
theorem substreamsAgree_iff (sps : SPS) (pps : PPS) (slice : SliceArea)
    (encCus decCus : Nat → Option Nat) (encStored decStored : Option Nat)
    (valid : ValidTiles sps pps) (small : (create sps pps).sizeInCtus < 2 ^ 32)
    (whole : WholeBricks (create sps pps) slice)
    (coded : ∀ ctuTsAddr, Visited (create sps pps) slice ctuTsAddr →
      encCus ((create sps pps).ctuBsToRsAddrMap ctuTsAddr) =
        some slice.independentSliceIdx) :
    SubstreamsAgree (create sps pps) slice encCus decCus encStored decStored ↔
      WideBricks (create sps pps) slice := by
  have before := whole.first.2.1
  have within := whole.within
  obtain ⟨n, length⟩ : ∃ n, slice.endCtuTsAddr - slice.startCtuTsAddr = n + 1 :=
    ⟨slice.endCtuTsAddr - slice.startCtuTsAddr - 1, by omega⟩
  obtain ⟨rest, all⟩ : ∃ rest, (create sps pps).sizeInCtus - slice.startCtuTsAddr =
      n + 1 + rest := ⟨(create sps pps).sizeInCtus - slice.endCtuTsAddr, by omega⟩
  have left : slice.startCtuTsAddr + (n + 1) = slice.endCtuTsAddr := by omega
  simp only [SubstreamsAgree, EncSlice.encodeSlice, DecSlice.decompressSlice, length, all]
  constructor
  · rintro ⟨⟨events, run, -⟩, -⟩
    exact wideBricks_of_ends_eq valid small whole fun t visited more =>
      ends_eq_of_decompressCtus valid small whole n rest le_rfl left run visited visited.1 more
  · intro wide
    have start : Related (create sps pps) slice slice.startCtuTsAddr ⟨0, encStored, 0⟩
        ⟨0, decStored, decCus⟩ :=
      ⟨rfl, fun earlier lt visited => absurd visited.1 (not_le.mpr lt),
        fun earlier lt visited => absurd visited.1 (not_le.mpr lt)⟩
    refine ⟨decompressCtus_eq_ok valid small whole coded
      (fun t visited more => ends_eq valid small whole wide visited more) n rest le_rfl left rfl
      start, ?_⟩
    have counted := (encodeCtus_sizes encCus valid small whole n le_rfl left
      (rfl : (⟨0, encStored, 0⟩ : EncSlice.State).numberOfSubstreamSizes = 0)).2
    exact counted.trans (Nat.zero_add _)

/-- A slice that is the whole picture. -/
def wholePicture (map : BrickMap) (wavefronts : Bool) : SliceArea :=
  ⟨0, map.sizeInCtus, 0, false, wavefronts⟩

theorem wholeBricks_wholePicture {map : BrickMap} (some : 0 < map.sizeInCtus) (wavefronts : Bool) :
    WholeBricks map (wholePicture map wavefronts) where
  within := le_rfl
  first := ⟨le_rfl, some, rfl⟩
  last := ⟨Nat.zero_le _, Nat.sub_lt some Nat.one_pos, rfl⟩
  whole _ other _ lt _ := ⟨Nat.zero_le other, lt, rfl⟩

/-- Two by two CTUs in `columns` tile columns. -/
def fourCtus (columns : Nat) : PPS where
  picWidthInLumaSamples := 64
  picHeightInLumaSamples := 64
  numTileColumnsMinus1 := columns - 1
  tileColumnWidth := [1]

theorem validTiles_fourCtus {columns : Nat} (some : columns = 1 ∨ columns = 2) :
    ValidTiles ⟨32, 32⟩ (fourCtus columns) where
  ctuSize := by decide
  square := rfl
  width := Nat.succ_pos 63
  height := Nat.succ_pos 63
  columns _ := by rcases some with rfl | rfl <;> exact ⟨by decide, by decide, by decide⟩
  rows _ := by rcases some with rfl | rfl <;> exact ⟨by decide, by decide, by decide⟩
  splits _ _ := nofun

/-- In a single tile the walks agree. -/
theorem substreamsAgree_singleTile :
    SubstreamsAgree (create ⟨32, 32⟩ (fourCtus 1))
      (wholePicture (create ⟨32, 32⟩ (fourCtus 1)) true) (fun _ => some 0)
      (fun _ => none) none none := by
  refine (substreamsAgree_iff ⟨32, 32⟩ (fourCtus 1) _ _ _ _ _ (validTiles_fourCtus (Or.inl rfl))
    (by decide) (wholeBricks_wholePicture (by decide) true) fun _ _ => rfl).mpr ?_
  intro _ ctuTsAddr visited
  left
  have wide : ∀ t < 4, ((create ⟨32, 32⟩ (fourCtus 1)).bricks.getD
      ((create ⟨32, 32⟩ (fourCtus 1)).brickIdxBsMap t) default).widthInCtus = 2 := by
    decide
  exact wide ctuTsAddr visited.2.1

/-- In two tile columns the decoder expects the end of a substream behind the first CTU,
and the encoder goes on. -/
theorem row_of_narrow_tile_is_not_ended :
    ValidTiles ⟨32, 32⟩ (fourCtus 2) ∧
      WholeBricks (create ⟨32, 32⟩ (fourCtus 2))
        (wholePicture (create ⟨32, 32⟩ (fourCtus 2)) true) ∧
      EncSlice.endsSubstream (create ⟨32, 32⟩ (fourCtus 2))
        (wholePicture (create ⟨32, 32⟩ (fourCtus 2)) true) 0 = false ∧
      DecSlice.endsSubstream (create ⟨32, 32⟩ (fourCtus 2))
        (wholePicture (create ⟨32, 32⟩ (fourCtus 2)) true) 0 = true ∧
      ¬ SubstreamsAgree (create ⟨32, 32⟩ (fourCtus 2))
        (wholePicture (create ⟨32, 32⟩ (fourCtus 2)) true) (fun _ => some 0)
        (fun _ => none) none none := by
  refine ⟨validTiles_fourCtus (Or.inr rfl), wholeBricks_wholePicture (by decide) true, by decide,
    by decide, ?_⟩
  rintro ⟨⟨events, run, -⟩, -⟩
  cases run

end Vtm
