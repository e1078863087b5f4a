import Vtm.Slice.BrickScan
import Mathlib.Data.Nat.ModEq
import Mathlib.Tactic.Ring

/-!
# Substream numbers

`BrickMap::getSubstreamForCtuAddr` numbers the substreams that the CTUs of a picture
are coded in. `substreams_separate_iff` says for which tiles and bricks the numbers
separate exactly the entropy coding segments.
-/

namespace Vtm

open Vtm.Std
open BrickMap (create)

namespace BrickMap

variable (map : BrickMap)

/-- The raster address of a CTU. -/
def ctuRsAddr (ctuAddr : Nat) (addressInRaster : Bool) : Nat :=
  if addressInRaster then ctuAddr else map.ctuBsToRsAddrMap ctuAddr

def getSubstreamForCtuAddr (wppEnabled : Bool) (ctuAddr : Nat) (addressInRaster : Bool) : Nat :=
  if (wppEnabled ∧ map.heightInCtus > 1) ∨ map.numTiles > 1 then
    let ctuRsAddr := map.ctuRsAddr ctuAddr addressInRaster
    let brickIndex := map.brickIdxRsMap ctuRsAddr
    let brick := map.bricks.getD brickIndex default
    if wppEnabled then
      let tileYInCtus := brick.firstCtuRsAddr / map.widthInCtus
      let ctuLine := ctuRsAddr / map.widthInCtus
      let startingSubstreamForTile :=
        tileYInCtus * map.numTileColumns + brick.heightInCtus * (brickIndex % map.numTileColumns)
      startingSubstreamForTile + (ctuLine - tileYInCtus)
    else brickIndex
  else 0

/-- The brick at a raster address and the row in the picture. -/
@[grind =] def InBrick (rsAddr : Nat) (brick : Brick) : Prop :=
  brick.rect.Contains (rsAddr % map.widthInCtus) (rsAddr / map.widthInCtus)

/-- Two CTUs are in the same entropy coding segment. -/
def SameSegment (wppEnabled : Bool) (rsAddr rsAddr' : Nat) : Prop :=
  (∃ brick ∈ map.bricks, map.InBrick rsAddr brick ∧ map.InBrick rsAddr' brick) ∧
    (wppEnabled = true → rsAddr / map.widthInCtus = rsAddr' / map.widthInCtus)

/-- The substream numbers separate exactly the entropy coding segments. -/
def SubstreamsSeparate (wppEnabled : Bool) : Prop :=
  ∀ ctuAddr < map.sizeInCtus, ∀ ctuAddr' < map.sizeInCtus, ∀ raster raster' : Bool,
    map.getSubstreamForCtuAddr wppEnabled ctuAddr raster =
        map.getSubstreamForCtuAddr wppEnabled ctuAddr' raster' ↔
      map.SameSegment wppEnabled (map.ctuRsAddr ctuAddr raster) (map.ctuRsAddr ctuAddr' raster')

end BrickMap

/-- Two bricks have CTUs in one row of the picture. -/
def Brick.SharesRow (brick brick' : Brick) : Prop :=
  brick.rowBd < brick'.rowBd + brick'.heightInCtus ∧ brick'.rowBd < brick.rowBd + brick.heightInCtus

/-- The rows of the bricks above, taken once for each tile column, and as many heights
of the brick as its number leaves when divided by that of the tile columns. -/
@[grind =] def lineOffset (numTileColumns : Nat) (bricks : List Brick) (i : Nat) : Nat :=
  let brick := bricks.getD i default
  brick.rowBd * numTileColumns + brick.heightInCtus * (i % numTileColumns)

/-- Bricks that share a row have offsets that differ by the height of the first of them. -/
def LinesApart (numTileColumns : Nat) (bricks : List Brick) : Prop :=
  ∀ i < bricks.length, ∀ j < bricks.length, i ≠ j →
    (bricks.getD i default).SharesRow (bricks.getD j default) →
    lineOffset numTileColumns bricks i + (bricks.getD i default).heightInCtus ≤
        lineOffset numTileColumns bricks j ∨
      lineOffset numTileColumns bricks j + (bricks.getD j default).heightInCtus ≤
        lineOffset numTileColumns bricks i

/-- Bricks below each other have offsets apart. -/
theorem lineOffset_below {numTileColumns : Nat} (some : 0 < numTileColumns) {bricks : List Brick}
    {i j : Nat} (below : (bricks.getD i default).rowBd + (bricks.getD i default).heightInCtus ≤
      (bricks.getD j default).rowBd) :
    lineOffset numTileColumns bricks i + (bricks.getD i default).heightInCtus ≤
      lineOffset numTileColumns bricks j := by
  unfold lineOffset
  dsimp only
  generalize bricks.getD i default = brick at below ⊢
  generalize bricks.getD j default = brick' at below ⊢
  have column : i % numTileColumns + 1 ≤ numTileColumns := Nat.mod_lt i some
  calc brick.rowBd * numTileColumns + brick.heightInCtus * (i % numTileColumns) +
        brick.heightInCtus
      = brick.rowBd * numTileColumns + brick.heightInCtus * (i % numTileColumns + 1) := by ring
    _ ≤ brick.rowBd * numTileColumns + brick.heightInCtus * numTileColumns :=
        Nat.add_le_add_left (Nat.mul_le_mul_left _ column) _
    _ = (brick.rowBd + brick.heightInCtus) * numTileColumns := by ring
    _ ≤ brick'.rowBd * numTileColumns := Nat.mul_le_mul_right _ below
    _ ≤ _ := Nat.le_add_right ..

section Separate

variable {sps : SPS} {pps : PPS} (valid : ValidTiles sps pps)
include valid

theorem ValidTiles.numTileColumns_pos : 0 < pps.numTileColumns sps := by
  rw [← valid.length_tileColWidth]
  apply List.length_pos_of_ne_nil
  intro empty
  have sum := valid.tileColWidth_divides.sum
  have some := valid.picWidthInCtus_pos
  rw [empty, List.sum_nil] at sum
  omega

/-- The first CTU of a brick is in its first row. -/
theorem ValidTiles.firstCtuRsAddr_row {brick : Brick} (member : brick ∈ pps.bricks sps) :
    brick.firstCtuRsAddr / pps.picWidthInCtus sps = brick.rowBd := by
  have address : brick.firstCtuRsAddr = brick.rowBd * pps.picWidthInCtus sps + brick.colBd := by
    obtain ⟨tileIdx, -, inTile⟩ := List.mem_flatMap.mp member
    obtain ⟨j, -, rfl⟩ := List.mem_map.mp inTile
    exact Nat.add_comm ..
  obtain ⟨wide, -⟩ := valid.brick_pos member
  obtain ⟨right, -⟩ := valid.tiling.within _ (List.mem_map_of_mem member)
  simp only [Brick.rect, Rect.right] at right
  rw [address, raster_div _ (by omega)]

variable (wppEnabled : Bool)

/-- The brick of an address. -/
theorem ValidTiles.exists_inBrick {ctuAddr : Nat}
    (inside : ctuAddr < (create sps pps).sizeInCtus) (raster : Bool) :
    ∃ k, ∃ h : k < (pps.bricks sps).length,
      (create sps pps).InBrick ((create sps pps).ctuRsAddr ctuAddr raster)
        (pps.bricks sps)[k] := by
  have small : (create sps pps).ctuRsAddr ctuAddr raster <
      pps.picWidthInCtus sps * pps.picHeightInCtus sps := by
    unfold BrickMap.ctuRsAddr
    split
    · exact inside
    · obtain ⟨a, inside', here⟩ := (brickMap_scans valid).bijective.surjOn inside
      rw [← here, (brickMap_scans valid).inverse.1 inside']
      exact inside'
  obtain ⟨x, hx, y, hy, address⟩ := exists_raster small
  obtain ⟨brick, member, contains⟩ := (brickMap_scans valid).cover x hx y hy
  obtain ⟨k, h, rfl⟩ := List.getElem_of_mem member
  refine ⟨k, h, ?_⟩
  rw [address]
  unfold BrickMap.InBrick
  have column : (y * pps.picWidthInCtus sps + x) % (create sps pps).widthInCtus = x :=
    raster_mod y hx
  have row : (y * pps.picWidthInCtus sps + x) / (create sps pps).widthInCtus = y :=
    raster_div y hx
  rw [column, row]
  exact contains

/-- The number of an address in brick `k`. -/
theorem ValidTiles.getSubstreamForCtuAddr_eq {ctuAddr k : Nat} (raster : Bool)
    (h : k < (pps.bricks sps).length)
    (inside : (create sps pps).InBrick
      ((create sps pps).ctuRsAddr ctuAddr raster) (pps.bricks sps)[k]) :
    (create sps pps).getSubstreamForCtuAddr wppEnabled ctuAddr raster =
      if wppEnabled then
        lineOffset (pps.numTileColumns sps) (pps.bricks sps) k +
          ((create sps pps).ctuRsAddr ctuAddr raster / pps.picWidthInCtus sps -
            (pps.bricks sps)[k].rowBd)
      else k := by
  have index := (brickMap_scans valid).brickIdxRs k _ _ h inside
  rw [Nat.div_add_mod'] at index
  have brick : (pps.bricks sps).getD k default = (pps.bricks sps)[k] :=
    List.getD_eq_getElem _ _ h
  have first := valid.firstCtuRsAddr_row (List.getElem_mem h)
  unfold BrickMap.getSubstreamForCtuAddr
  dsimp only
  split
  · rw [index]
    have listed : (create sps pps).bricks.getD k default = (pps.bricks sps)[k] := brick
    have width : (create sps pps).widthInCtus = pps.picWidthInCtus sps := rfl
    rw [listed, width, first, lineOffset, brick]
    rfl
  · -- one brick, and one row when rows are coded on their own
    rename_i single
    have one : ¬ (pps.bricks sps).length > 1 := fun many => single (Or.inr many)
    have zero : k = 0 := by omega
    subst zero
    split
    · rename_i wpp
      have low : ¬ pps.picHeightInCtus sps > 1 := fun high => single (Or.inl ⟨wpp, high⟩)
      obtain ⟨-, top, bottom⟩ := inside
      obtain ⟨-, within⟩ := (brickMap_scans valid).within _ (List.getElem_mem h)
      have height : (create sps pps).heightInCtus = pps.picHeightInCtus sps := rfl
      rw [height] at within
      have width : (create sps pps).widthInCtus = pps.picWidthInCtus sps := rfl
      rw [width] at top bottom
      have rows : (pps.bricks sps)[0].rowBd = (pps.bricks sps)[0].rect.top := rfl
      unfold lineOffset
      dsimp only
      rw [brick, Nat.zero_mod, Nat.mul_zero, Nat.add_zero, rows]
      have flat : (pps.bricks sps)[0].rect.top = 0 := by omega
      rw [flat, Nat.zero_mul]
      omega
    · rfl

/-- A row of a brick has a CTU. -/
theorem ValidTiles.exists_ctu {k d : Nat} (h : k < (pps.bricks sps).length)
    (small : d < (pps.bricks sps)[k].heightInCtus) :
    ∃ ctuAddr < (create sps pps).sizeInCtus,
      (create sps pps).InBrick ctuAddr (pps.bricks sps)[k] ∧
        ctuAddr / pps.picWidthInCtus sps = (pps.bricks sps)[k].rowBd + d := by
  obtain ⟨wide, -⟩ := valid.brick_pos (List.getElem_mem h)
  have contains : (pps.bricks sps)[k].rect.Contains (pps.bricks sps)[k].colBd
      ((pps.bricks sps)[k].rowBd + d) := by
    simp only [Rect.Contains, Brick.rect, Rect.right, Rect.bottom]
    omega
  obtain ⟨hx, hy⟩ := valid.cell_lt h contains
  have column := raster_mod ((pps.bricks sps)[k].rowBd + d) hx
  have row := raster_div ((pps.bricks sps)[k].rowBd + d) hx
  refine ⟨((pps.bricks sps)[k].rowBd + d) * pps.picWidthInCtus sps + (pps.bricks sps)[k].colBd,
    raster_lt hx hy, ?_, row⟩
  unfold BrickMap.InBrick
  have width : (create sps pps).widthInCtus = pps.picWidthInCtus sps := rfl
  rw [width, column, row]
  exact contains

/-- Two addresses are in the same segment when they are in the same brick, and in the
same row of it where rows are coded on their own. -/
theorem ValidTiles.sameSegment_iff {a a' k k' : Nat} (h : k < (pps.bricks sps).length)
    (h' : k' < (pps.bricks sps).length)
    (inside : (create sps pps).InBrick a (pps.bricks sps)[k])
    (inside' : (create sps pps).InBrick a' (pps.bricks sps)[k']) :
    (create sps pps).SameSegment wppEnabled a a' ↔
      k = k' ∧ (wppEnabled = true →
        a / pps.picWidthInCtus sps = a' / pps.picWidthInCtus sps) := by
  apply and_congr_left
  intro _
  constructor
  · rintro ⟨brick, member, here, here'⟩
    obtain ⟨j, hj, rfl⟩ := List.getElem_of_mem member
    exact (valid.unique h hj inside here).trans (valid.unique hj h' here' inside')
  · rintro rfl
    exact ⟨_, List.getElem_mem h, inside, inside'⟩

/-- The substream numbers separate the entropy coding segments of consistent tiles and
bricks exactly when rows are not coded on their own, or bricks that share a row have
offsets apart. -/
theorem substreams_separate_iff :
    (create sps pps).SubstreamsSeparate wppEnabled ↔
      (wppEnabled = true → LinesApart (pps.numTileColumns sps) (pps.bricks sps)) := by
  constructor
  · rintro separate rfl i hi j hj different -
    by_contra overlap
    have tall := (valid.brick_pos (List.getElem_mem hi)).2
    have tall' := (valid.brick_pos (List.getElem_mem hj)).2
    rw [← List.getD_eq_getElem _ default hi] at tall
    rw [← List.getD_eq_getElem _ default hj] at tall'
    -- a number that both bricks give to one of their rows
    obtain ⟨d, hd, e, he, meet⟩ : ∃ d < ((pps.bricks sps).getD i default).heightInCtus,
        ∃ e < ((pps.bricks sps).getD j default).heightInCtus,
        lineOffset (pps.numTileColumns sps) (pps.bricks sps) i + d =
          lineOffset (pps.numTileColumns sps) (pps.bricks sps) j + e := by
      rw [not_or, not_le, not_le] at overlap
      obtain ⟨before, behind⟩ := overlap
      rcases Nat.le_total (lineOffset (pps.numTileColumns sps) (pps.bricks sps) i)
          (lineOffset (pps.numTileColumns sps) (pps.bricks sps) j) with le | ge
      · exact ⟨lineOffset (pps.numTileColumns sps) (pps.bricks sps) j -
          lineOffset (pps.numTileColumns sps) (pps.bricks sps) i, by omega, 0, by omega, by omega⟩
      · exact ⟨0, by omega, lineOffset (pps.numTileColumns sps) (pps.bricks sps) i -
          lineOffset (pps.numTileColumns sps) (pps.bricks sps) j, by omega, by omega⟩
    rw [List.getD_eq_getElem _ _ hi] at hd
    rw [List.getD_eq_getElem _ _ hj] at he
    obtain ⟨a, ha, inside, row⟩ := valid.exists_ctu hi hd
    obtain ⟨b, hb, inside', row'⟩ := valid.exists_ctu hj he
    have same : (create sps pps).getSubstreamForCtuAddr true a true =
        (create sps pps).getSubstreamForCtuAddr true b true := by
      rw [valid.getSubstreamForCtuAddr_eq true true hi inside,
        valid.getSubstreamForCtuAddr_eq true true hj inside', if_pos rfl, if_pos rfl]
      have row : (create sps pps).ctuRsAddr a true / pps.picWidthInCtus sps = _ := row
      have row' : (create sps pps).ctuRsAddr b true / pps.picWidthInCtus sps = _ := row'
      rw [row, row', Nat.add_sub_cancel_left, Nat.add_sub_cancel_left]
      exact meet
    exact different ((valid.sameSegment_iff true hi hj inside inside').mp
      ((separate a ha b hb true true).mp same)).1
  · intro apart a ha b hb raster raster'
    obtain ⟨k, hk, inside⟩ := valid.exists_inBrick ha raster
    obtain ⟨k', hk', inside'⟩ := valid.exists_inBrick hb raster'
    rw [valid.getSubstreamForCtuAddr_eq wppEnabled raster hk inside,
      valid.getSubstreamForCtuAddr_eq wppEnabled raster' hk' inside',
      valid.sameSegment_iff wppEnabled hk hk' inside inside']
    cases wppEnabled with
    | false => simp
    | true =>
        have width : (create sps pps).widthInCtus = pps.picWidthInCtus sps := rfl
        obtain ⟨-, top, bottom⟩ := inside
        obtain ⟨-, top', bottom'⟩ := inside'
        simp only [Brick.rect, Rect.bottom, width] at top bottom top' bottom'
        generalize (create sps pps).ctuRsAddr a raster / pps.picWidthInCtus sps = y at *
        generalize (create sps pps).ctuRsAddr b raster' / pps.picWidthInCtus sps = y' at *
        simp only [if_true, forall_const]
        constructor
        · intro same
          by_cases equal : k = k'
          · subst equal
            exact ⟨rfl, by omega⟩
          · have brick := List.getD_eq_getElem (pps.bricks sps) default hk
            have brick' := List.getD_eq_getElem (pps.bricks sps) default hk'
            have positive := valid.numTileColumns_pos
            rcases Nat.lt_or_ge (pps.bricks sps)[k].rowBd
                ((pps.bricks sps)[k'].rowBd + (pps.bricks sps)[k'].heightInCtus) with high | below
            · rcases Nat.lt_or_ge (pps.bricks sps)[k'].rowBd
                  ((pps.bricks sps)[k].rowBd + (pps.bricks sps)[k].heightInCtus) with high' | below'
              · have offsets := apart rfl k hk k' hk' equal
                  (by rw [brick, brick']; exact ⟨high, high'⟩)
                rw [brick, brick'] at offsets
                omega
              · have offsets := lineOffset_below (i := k) (j := k') positive
                  (by rw [brick, brick']; exact below')
                rw [brick] at offsets
                omega
            · have offsets := lineOffset_below (i := k') (j := k) positive
                (by rw [brick, brick']; exact below)
              rw [brick'] at offsets
              omega
        · rintro ⟨rfl, rfl⟩
          rfl

end Separate

/-- The tiles of each tile row are split at the same rows, into a number of bricks that
has no divisor in common with the number of tile columns. -/
def AlignedSplits (sps : SPS) (pps : PPS) : Prop :=
  ∀ y < pps.numTileRows sps, ∃ heights : List Nat, heights.length.Coprime (pps.numTileColumns sps) ∧
    ∀ x < pps.numTileColumns sps, (pps.brickSplit (y * pps.numTileColumns sps + x)).heights
      ((pps.tileRowHeights sps).getD y 0) = heights

/-- Where an element of lists laid end to end comes from. -/
theorem exists_of_lt_length_flatMap {α : Type} (f : Nat → List α) {n i : Nat}
    (inside : i < ((List.range n).flatMap f).length) :
    ∃ t < n, ∃ j, ∃ hj : j < (f t).length, i = ((List.range t).flatMap f).length + j ∧
      ((List.range n).flatMap f)[i]? = some (f t)[j] := by
  induction n with
  | zero => cases inside
  | succ n ih =>
      rw [List.range_succ, List.flatMap_append, List.flatMap_singleton] at inside ⊢
      by_cases early : i < ((List.range n).flatMap f).length
      · obtain ⟨t, ht, j, hj, place, here⟩ := ih early
        refine ⟨t, ht.trans (Nat.lt_succ_self n), j, hj, place, ?_⟩
        rw [List.getElem?_append_left early, here]
      · rw [List.length_append] at inside
        have hj : i - ((List.range n).flatMap f).length < (f n).length := by omega
        refine ⟨n, Nat.lt_succ_self n, _, hj, by omega, ?_⟩
        rw [List.getElem?_append_right (by omega), List.getElem?_eq_getElem hj]

section Aligned

variable {sps : SPS} {pps : PPS}

theorem PPS.length_tileBricks (x : Nat) {y : Nat} (hx : x < pps.numTileColumns sps) :
    (pps.tileBricks sps (y * pps.numTileColumns sps + x)).length =
      ((pps.brickSplit (y * pps.numTileColumns sps + x)).heights
        ((pps.tileRowHeights sps).getD y 0)).length := by
  rw [PPS.tileBricks]
  simp only [List.length_map, List.length_range]
  rw [raster_div y hx]

variable (aligned : AlignedSplits sps pps)
include aligned

/-- The number of bricks before a tile, up to multiples of the number of columns. -/
theorem AlignedSplits.bricks_before {x y : Nat} (hx : x < pps.numTileColumns sps)
    (hy : y < pps.numTileRows sps) {heights : List Nat}
    (split : ∀ x < pps.numTileColumns sps, (pps.brickSplit (y * pps.numTileColumns sps + x)).heights
      ((pps.tileRowHeights sps).getD y 0) = heights) :
    ((List.range (y * pps.numTileColumns sps + x)).flatMap (pps.tileBricks sps)).length ≡
      x * heights.length [MOD pps.numTileColumns sps] := by
  -- the tiles of row `y` before column `x` have as many bricks each
  have row (y : Nat) (heights : List Nat) (split : ∀ x < pps.numTileColumns sps,
      (pps.brickSplit (y * pps.numTileColumns sps + x)).heights
        ((pps.tileRowHeights sps).getD y 0) = heights) (x : Nat)
      (le : x ≤ pps.numTileColumns sps) :
      ((List.range (y * pps.numTileColumns sps + x)).flatMap (pps.tileBricks sps)).length =
        ((List.range (y * pps.numTileColumns sps)).flatMap (pps.tileBricks sps)).length +
          x * heights.length := by
    induction x with
    | zero => simp
    | succ x ih =>
        rw [← Nat.add_assoc, List.range_succ, List.flatMap_append, List.flatMap_singleton,
          List.length_append, ih (Nat.le_of_succ_le le), PPS.length_tileBricks x le, split x le,
          Nat.succ_mul, Nat.add_assoc]
  have rows (y : Nat) (le : y ≤ pps.numTileRows sps) :
      ((List.range (y * pps.numTileColumns sps)).flatMap (pps.tileBricks sps)).length ≡
        0 [MOD pps.numTileColumns sps] := by
    induction y with
    | zero => simp [Nat.ModEq]
    | succ y ih =>
        obtain ⟨heights', -, split'⟩ := aligned y le
        rw [Nat.succ_mul, row y heights' split' _ le_rfl]
        exact (ih (Nat.le_of_succ_le le)).add
          ((Nat.modEq_zero_iff_dvd.mpr (Nat.dvd_mul_right _ _)))
  rw [row y heights split x hx.le]
  simpa using (rows y hy.le).add_right (x * heights.length)

/-- The offsets of such bricks are apart: tiles in different columns of a tile row leave
different remainders. -/
theorem linesApart_of_alignedSplits (valid : ValidTiles sps pps) :
    LinesApart (pps.numTileColumns sps) (pps.bricks sps) := by
  intro i hi j hj different shares
  obtain ⟨t, ht, p, hp, place, here⟩ := exists_of_lt_length_flatMap (pps.tileBricks sps) hi
  obtain ⟨t', ht', p', hp', place', here'⟩ := exists_of_lt_length_flatMap (pps.tileBricks sps) hj
  obtain ⟨x, hx, y, hy, rfl⟩ := exists_raster ht
  obtain ⟨x', hx', y', hy', rfl⟩ := exists_raster ht'
  obtain ⟨heights, coprime, split⟩ := aligned y hy
  obtain ⟨heights', -, split'⟩ := aligned y' hy'
  have brick : (pps.bricks sps).getD i default = (pps.tileBricks sps _)[p] := by
    rw [List.getD_eq_getElem?_getD, PPS.bricks, here, Option.getD_some]
  have brick' : (pps.bricks sps).getD j default = (pps.tileBricks sps _)[p'] := by
    rw [List.getD_eq_getElem?_getD, PPS.bricks, here', Option.getD_some]
  rw [PPS.length_tileBricks x hx, split x hx] at hp
  rw [PPS.length_tileBricks x' hx', split' x' hx'] at hp'
  -- the rows of the two bricks
  have rows (x y p : Nat) (hx : x < pps.numTileColumns sps) (hy : y < pps.numTileRows sps)
      (heights : List Nat) (split : ∀ x < pps.numTileColumns sps,
        (pps.brickSplit (y * pps.numTileColumns sps + x)).heights
          ((pps.tileRowHeights sps).getD y 0) = heights)
      (hp : p < (pps.tileBricks sps (y * pps.numTileColumns sps + x)).length) :
      (pps.tileBricks sps (y * pps.numTileColumns sps + x))[p].rowBd =
          startOf (pps.tileRowHeights sps) y + startOf heights p ∧
        (pps.tileBricks sps (y * pps.numTileColumns sps + x))[p].heightInCtus =
          heights.getD p 0 ∧ heights.sum = (pps.tileRowHeights sps).getD y 0 := by
    have length : p < heights.length := by
      rwa [PPS.length_tileBricks x hx, split x hx] at hp
    have sum := (valid.splits_divides (raster_lt hx hy)).sum
    rw [raster_div y hx, split x hx] at sum
    have row : y < (bounds 0 (pps.tileRowHeights sps)).length := by
      rw [length_bounds, valid.length_tileRowHeights]
      exact hy
    refine ⟨?_, ?_, sum⟩
    · simp only [PPS.tileBricks, List.getElem_map, List.getElem_range, raster_div y hx,
        split x hx]
      rw [List.getD_eq_getElem _ _ row, getElem_bounds, Nat.zero_add,
        List.getD_eq_getElem _ _ (by rw [length_bounds]; exact length), getElem_bounds,
        Nat.zero_add]
    · simp only [PPS.tileBricks, List.getElem_map, List.getElem_range, raster_div y hx,
        split x hx]
  obtain ⟨top, height, sum⟩ := rows x y p hx hy heights split (by
    rw [PPS.length_tileBricks x hx, split x hx]; exact hp)
  obtain ⟨top', height', sum'⟩ := rows x' y' p' hx' hy' heights' split' (by
    rw [PPS.length_tileBricks x' hx', split' x' hx']; exact hp')
  have fits := end_le_sum heights p
  have fits' := end_le_sum heights' p'
  rw [brick, brick'] at shares
  unfold Brick.SharesRow at shares
  rw [top, top', height, height'] at shares
  -- bricks that share a row are in one tile row and at the same place in their tiles
  obtain rfl : y = y' := by
    rcases Nat.lt_trichotomy y y' with lt | same | gt
    · have apart := end_le_startOf (pps.tileRowHeights sps) lt
      omega
    · exact same
    · have apart := end_le_startOf (pps.tileRowHeights sps) gt
      omega
  obtain rfl : heights = heights' := (split x hx).symm.trans (split' x hx)
  obtain rfl : p = p' := by
    rcases Nat.lt_trichotomy p p' with lt | same | gt
    · have apart := end_le_startOf heights lt
      omega
    · exact same
    · have apart := end_le_startOf heights gt
      omega
  have columns : x ≠ x' := by
    rintro rfl
    exact different (place.trans place'.symm)
  have residues : i % pps.numTileColumns sps ≠ j % pps.numTileColumns sps := by
    intro same
    have before := (aligned.bricks_before hx hy split).add_right p
    have before' := (aligned.bricks_before hx' hy split).add_right p
    rw [← place] at before
    rw [← place'] at before'
    have equal : x * heights.length ≡ x' * heights.length [MOD pps.numTileColumns sps] :=
      Nat.ModEq.add_right_cancel' p ((before.symm.trans same).trans before')
    have cancelled := Nat.ModEq.cancel_right_of_coprime coprime.symm equal
    rw [Nat.ModEq, Nat.mod_eq_of_lt hx, Nat.mod_eq_of_lt hx'] at cancelled
    exact columns cancelled
  unfold lineOffset
  dsimp only
  rw [brick, brick', top, top', height, height']
  rcases Nat.lt_or_gt_of_ne residues with lt | gt
  · left
    have scaled := Nat.mul_le_mul_left (heights.getD p 0) (Nat.succ_le_of_lt lt)
    rw [Nat.mul_succ] at scaled
    omega
  · right
    have scaled := Nat.mul_le_mul_left (heights.getD p 0) (Nat.succ_le_of_lt gt)
    rw [Nat.mul_succ] at scaled
    omega

end Aligned

/-- Two tile columns of one CTU and two rows; the left tile is split into two bricks, or
none is. -/
def twoColumns (split : Bool) : PPS where
  picWidthInLumaSamples := 64
  picHeightInLumaSamples := 64
  singleTileInPicFlag := false
  numTileColumnsMinus1 := 1
  tileColumnWidth := [1]
  numTilesInPic := 2
  brickSplittingPresentFlag := split
  brickSplitFlag := [true, false]
  uniformBrickSpacingFlag := [false, false]
  numBrickRowsMinus2 := [0, 0]
  brickRowHeightMinus1 := [[0], []]

theorem validTiles_twoColumns (split : Bool) : ValidTiles ⟨32, 32⟩ (twoColumns split) where
  ctuSize := by decide
  square := rfl
  width := Nat.succ_pos 63
  height := Nat.succ_pos 63
  columns _ := ⟨by decide +revert, by decide +revert, by decide +revert⟩
  rows _ := ⟨by decide +revert, by decide +revert, by decide +revert⟩
  splits tileIdx inside := by
    have inside : tileIdx < 2 := inside
    intro present _ _
    obtain rfl : split = true := present
    obtain rfl | rfl : tileIdx = 0 ∨ tileIdx = 1 := by omega
    · exact ⟨by decide, by decide⟩
    · rename_i wrong _
      exact absurd wrong (by decide)

/-- Whole tiles are separated. -/
theorem substreams_separate_twoColumns :
    (create ⟨32, 32⟩ (twoColumns false)).SubstreamsSeparate true := by
  refine (substreams_separate_iff (validTiles_twoColumns false) true).mpr fun _ => ?_
  apply linesApart_of_alignedSplits _ (validTiles_twoColumns false)
  intro y _
  exact ⟨[(PPS.tileRowHeights ⟨32, 32⟩ (twoColumns false)).getD y 0], Nat.coprime_one_left _,
    fun _ _ => rfl⟩

/-- The first row of the left tile and that of the right one get the same number when
the left tile is split. -/
theorem split_tile_not_separate :
    ValidTiles ⟨32, 32⟩ (twoColumns true) ∧
      ¬ (create ⟨32, 32⟩ (twoColumns true)).SubstreamsSeparate true := by
  refine ⟨validTiles_twoColumns true, fun separate => ?_⟩
  have same := (separate 0 (by decide) 1 (by decide) true true).mp (by decide)
  obtain ⟨⟨brick, member, left, right⟩, -⟩ := same
  have bricks : (create ⟨32, 32⟩ (twoColumns true)).bricks =
      [⟨1, 1, 0, 0, 0⟩, ⟨1, 1, 0, 1, 2⟩, ⟨1, 2, 1, 0, 1⟩] := by decide
  rw [bricks] at member
  simp only [BrickMap.InBrick] at left right
  have apart : ∀ brick ∈ [(⟨1, 1, 0, 0, 0⟩ : Brick), ⟨1, 1, 0, 1, 2⟩, ⟨1, 2, 1, 0, 1⟩],
      ¬ (brick.rect.Contains 0 0 ∧ brick.rect.Contains 1 0) := by decide
  exact apart brick member ⟨left, right⟩

end Vtm
