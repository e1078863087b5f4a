import Vtm.Common.TransformTree
import Vtm.Std.Int32
import Vtm.Std.Tiling
import Mathlib.Tactic.IntervalCases

/-!
# The transform units tile their coding unit

The transform units of all three kinds of splits are disjoint and cover the blocks of the coding
unit: `transformUnits_tile`.
-/

namespace Vtm.TransformTree

open PartitionerImpl
open Vtm.Std (startOf startOf_inj exists_startOf end_le_sum Succeeds)

/-! ## Tilings of a block -/

/-- The parts are disjoint and cover the block. -/
structure Tiles (area : CompArea) (parts : List CompArea) : Prop where
  cover : ∀ pos, area.contains pos = true ↔ ∃ part ∈ parts, part.contains pos = true
  apart : parts.Pairwise fun a b => ∀ pos, ¬ (a.contains pos = true ∧ b.contains pos = true)

theorem contains_iff (area : CompArea) (pos : Position) : area.contains pos = true ↔
    (area.x ≤ pos.x ∧ pos.x < area.x + area.width) ∧ (area.y ≤ pos.y ∧ pos.y < area.y + area.height) := by
  unfold CompArea.contains
  rw [decide_eq_true_iff, and_assoc]

theorem not_contains_of_not_valid {area : CompArea} (empty : area.valid = false) (pos : Position) :
    ¬ area.contains pos = true := by
  have none : area.width = 0 ∨ area.height = 0 := by
    unfold CompArea.valid at empty
    rw [decide_eq_false_iff_not, not_and_or, not_not, not_not] at empty
    exact empty
  rw [contains_iff]
  omega

namespace Tiles

theorem single (area : CompArea) : Tiles area [area] :=
  ⟨fun pos => by simp, List.pairwise_singleton _ _⟩

/-- Nothing is covered by blocks without samples. -/
theorem empty {area : CompArea} {parts : List CompArea} (none : area.valid = false)
    (all : ∀ part ∈ parts, part.valid = false) : Tiles area parts := by
  refine ⟨fun pos => iff_of_false (not_contains_of_not_valid none pos) ?_, ?_⟩
  · rintro ⟨part, member, inside⟩
    exact not_contains_of_not_valid (all part member) pos inside
  · exact List.pairwise_of_forall_mem_list fun part member _ _ pos both =>
      not_contains_of_not_valid (all part member) pos both.1

/-- The tiles of the tiles are tiles. -/
theorem flatten {area : CompArea} {parts : List CompArea} {inner : List (List CompArea)}
    (outer : Tiles area parts) (each : List.Forall₂ Tiles parts inner) : Tiles area inner.flatten := by
  have member : ∀ pos, (∃ part ∈ parts, part.contains pos = true) ↔
      ∃ part ∈ inner.flatten, part.contains pos = true := by
    intro pos
    clear outer
    induction each with
    | nil => simp
    | cons tiles _ ih =>
        simp only [List.mem_cons, List.flatten_cons, List.mem_append, or_and_right, exists_or,
          exists_eq_left]
        exact or_congr (tiles.cover pos) ih
  refine ⟨fun pos => (outer.cover pos).trans (member pos), ?_⟩
  have apart := outer.apart
  clear outer member
  induction each with
  | nil => exact .nil
  | @cons part tilesOf rest others tiles all ih =>
      obtain ⟨first, later⟩ := List.pairwise_cons.mp apart
      rw [List.flatten_cons, List.pairwise_append]
      refine ⟨tiles.apart, ih later, fun a memberA b memberB pos both => ?_⟩
      -- a sample of both is in the first part and in a later one
      obtain ⟨list, memberList, inList⟩ := List.mem_flatten.mp memberB
      obtain ⟨i, inside, rfl⟩ := List.getElem_of_mem memberList
      have other : i < rest.length := all.length_eq ▸ inside
      have tilesOther : Tiles rest[i] others[i] := all.get other inside
      exact first rest[i] (List.getElem_mem other) pos
        ⟨(tiles.cover pos).mpr ⟨a, memberA, both.1⟩, (tilesOther.cover pos).mpr ⟨b, inList, both.2⟩⟩

end Tiles

/-- The cell of a grid of columns and rows. -/
def cell (area : CompArea) (cols rows : List Nat) (c : Nat × Nat) : CompArea where
  x := area.x + startOf cols c.1
  y := area.y + startOf rows c.2
  width := cols.getD c.1 0
  height := rows.getD c.2 0

/-- The cells of a grid, in any order. -/
theorem tiles_of_grid {area : CompArea} {cols rows : List Nat} (width : cols.sum = area.width)
    (height : rows.sum = area.height) {cells : List (Nat × Nat)} (once : cells.Nodup)
    (all : ∀ c, c ∈ cells ↔ c.1 < cols.length ∧ c.2 < rows.length) :
    Tiles area (cells.map (cell area cols rows)) := by
  constructor
  · intro pos
    rw [contains_iff]
    constructor
    · rintro ⟨⟨left, right⟩, top, bottom⟩
      obtain ⟨i, hi, startX, endX⟩ := exists_startOf cols (a := (pos.x - area.x).toNat) (by omega)
      obtain ⟨j, hj, startY, endY⟩ := exists_startOf rows (a := (pos.y - area.y).toNat) (by omega)
      refine ⟨_, List.mem_map_of_mem ((all (i, j)).mpr ⟨hi, hj⟩), ?_⟩
      rw [contains_iff]
      unfold cell
      dsimp only
      omega
    · rintro ⟨part, member, inside⟩
      obtain ⟨⟨i, j⟩, -, rfl⟩ := List.mem_map.mp member
      have endX := end_le_sum cols i
      have endY := end_le_sum rows j
      rw [contains_iff] at inside
      unfold cell at inside
      dsimp only at inside
      omega
  · rw [List.pairwise_map]
    refine once.imp fun differ pos both => differ ?_
    rw [contains_iff, contains_iff] at both
    unfold cell at both
    dsimp only at both
    refine Prod.ext (startOf_inj cols (a := (pos.x - area.x).toNat) ?_ ?_ ?_ ?_)
      (startOf_inj rows (a := (pos.y - area.y).toNat) ?_ ?_ ?_ ?_) <;> omega

/-! ## Pieces of equal size -/

theorem startOf_replicate {n i : Nat} (size : Nat) (within : i ≤ n) :
    startOf (List.replicate n size) i = i * size := by
  unfold Vtm.Std.startOf
  rw [List.take_replicate, List.sum_replicate_nat, Nat.min_eq_left within]

theorem getD_replicate {n i : Nat} (size : Nat) (within : i < n) :
    (List.replicate n size).getD i 0 = size := by
  rw [List.getD_eq_getElem _ _ (by simpa using within), List.getElem_replicate]

theorem range_unique {α : Type} {n : Nat} {f : Nat → α}
    (apart : ∀ i < n, ∀ j < n, f i = f j → i = j) : ((List.range n).map f).Nodup :=
  List.Nodup.map_on (fun i inI j inJ same => apart i (List.mem_range.mp inI) j (List.mem_range.mp inJ) same)
    List.nodup_range

/-! ## The largest transform size -/

/-- The order of the tiles is that of the rows. -/
theorem zScan_eq : ∀ rsy < 8, ∀ rsx < 8,
    zScanToX.getD (rsScanToZ.getD ((rsy <<< maxRtGridSize) + rsx) 0) 0 = rsx ∧
      zScanToY.getD (rsScanToZ.getD ((rsy <<< maxRtGridSize) + rsx) 0) 0 = rsy := by
  decide

section

variable {comp : CompArea} {numTilesH numTilesV : Nat}

theorem maxTuPart_eq (someH : 0 < numTilesH) (fewH : numTilesH ≤ 8) (fewV : numTilesV ≤ 8)
    (valid : comp.valid = true) {i : Nat} (inside : i < numTilesH * numTilesV) :
    maxTuPart numTilesH numTilesV i comp =
      cell comp (List.replicate numTilesH (comp.width / numTilesH))
        (List.replicate numTilesV (comp.height / numTilesV)) (i % numTilesH, i / numTilesH) := by
  have column : i % numTilesH < numTilesH := Nat.mod_lt i someH
  have row : i / numTilesH < numTilesV := Nat.div_lt_of_lt_mul inside
  obtain ⟨x, y⟩ := zScan_eq (i / numTilesH) (by omega) (i % numTilesH) (by omega)
  unfold maxTuPart cell
  rw [if_pos valid]
  dsimp only
  rw [x, y, startOf_replicate _ column.le, startOf_replicate _ row.le, getD_replicate _ column,
    getD_replicate _ row, Nat.mul_comm (comp.width / numTilesH), Nat.mul_comm (comp.height / numTilesV)]

theorem tiles_maxTu (someH : 0 < numTilesH) (fewH : numTilesH ≤ 8) (fewV : numTilesV ≤ 8)
    (sizes : comp.valid = true → numTilesH ∣ comp.width ∧ numTilesV ∣ comp.height) :
    Tiles comp ((List.range (numTilesH * numTilesV)).map fun i => maxTuPart numTilesH numTilesV i comp) := by
  cases valid : comp.valid with
  | false =>
      refine Tiles.empty valid fun part member => ?_
      obtain ⟨i, -, rfl⟩ := List.mem_map.mp member
      have same : maxTuPart numTilesH numTilesV i comp = comp := by
        unfold maxTuPart
        rw [valid]
        rfl
      rw [same, valid]
  | true =>
      obtain ⟨columns, rows⟩ := sizes valid
      have parts : ((List.range (numTilesH * numTilesV)).map fun i =>
          maxTuPart numTilesH numTilesV i comp) =
          ((List.range (numTilesH * numTilesV)).map fun i => (i % numTilesH, i / numTilesH)).map
            (cell comp (List.replicate numTilesH (comp.width / numTilesH))
              (List.replicate numTilesV (comp.height / numTilesV))) := by
        rw [List.map_map]
        exact List.map_congr_left fun i inside =>
          maxTuPart_eq someH fewH fewV valid (List.mem_range.mp inside)
      rw [parts]
      refine tiles_of_grid ?_ ?_ (range_unique fun i _ j _ same => ?_) fun c => ?_
      · rw [List.sum_replicate_nat, Nat.mul_div_cancel' columns]
      · rw [List.sum_replicate_nat, Nat.mul_div_cancel' rows]
      · obtain ⟨column, row⟩ := Prod.mk.inj same
        rw [← Nat.div_add_mod i numTilesH, column, row, Nat.div_add_mod]
      · rw [List.mem_map, List.length_replicate, List.length_replicate]
        constructor
        · rintro ⟨i, inside, rfl⟩
          exact ⟨Nat.mod_lt i someH, Nat.div_lt_of_lt_mul (List.mem_range.mp inside)⟩
        · rintro ⟨column, row⟩
          refine ⟨c.2 * numTilesH + c.1, List.mem_range.mpr (Vtm.Std.raster_lt column row), ?_⟩
          rw [Vtm.Std.raster_mod _ column, Vtm.Std.raster_div _ column]

end

/-! ## Sub-block transforms -/

/-- A part of a sub-block transform along the split: where it starts and what it takes. -/
theorem sbtFactors_eq {splitType : PartSplit} (sbt : splitType.isSbt) :
    ∃ first, 0 < first ∧ first < 4 ∧ sbtFactors splitType 0 = (0, first) ∧
      sbtFactors splitType 1 = (first, 4 - first) := by
  cases splitType <;> cases sbt
  all_goals first
    | exact ⟨1, by decide⟩
    | exact ⟨2, by decide⟩
    | exact ⟨3, by decide⟩

/-- The side that a sub-block transform splits. -/
def sbtSide (splitType : PartSplit) (comp : CompArea) : Nat :=
  if sbtIsHorizontal splitType then comp.height else comp.width

theorem tiles_sbt {splitType : PartSplit} (sbt : splitType.isSbt) {comp : CompArea}
    (sizes : comp.valid = true →
      4 ∣ sbtSide splitType comp * (sbtFactors splitType 0).2) :
    Tiles comp ((List.range 2).map fun i => sbtPart splitType i comp) := by
  have two : ((List.range 2).map fun i => sbtPart splitType i comp) =
      [sbtPart splitType 0 comp, sbtPart splitType 1 comp] := rfl
  cases valid : comp.valid with
  | false =>
      have same (i : Nat) : sbtPart splitType i comp = comp := by
        unfold sbtPart
        rw [valid]
        rfl
      rw [two, same, same]
      exact Tiles.empty valid (by simpa using valid)
  | true =>
      have divides := sizes valid
      obtain ⟨first, some, less, front, behind⟩ := sbtFactors_eq sbt
      rw [front] at divides
      obtain ⟨q, quarters⟩ := divides
      dsimp only at quarters
      have sum (side : Nat) (quarters : side * first = 4 * q) :
          (side * first) >>> 2 + (side * (4 - first)) >>> 2 = side := by
        have part : side * first ≤ side * 4 := Nat.mul_le_mul_left side less.le
        rw [Nat.shiftRight_eq_div_pow, Nat.shiftRight_eq_div_pow, Nat.mul_sub, quarters]
        rw [quarters] at part
        omega
      have whole (side : Nat) : (side * 4) >>> 2 = side := by
        rw [Nat.shiftRight_eq_div_pow]
        omega
      unfold sbtSide at quarters
      by_cases horizontal : sbtIsHorizontal splitType = true
      · rw [if_pos horizontal] at quarters
        have parts : [sbtPart splitType 0 comp, sbtPart splitType 1 comp] =
            [(0, 0), (0, 1)].map (cell comp [comp.width]
              [(comp.height * first) >>> 2, (comp.height * (4 - first)) >>> 2]) := by
          unfold sbtPart
          rw [front, behind]
          simp [valid, horizontal, cell, whole, Vtm.Std.startOf]
        rw [two, parts]
        refine tiles_of_grid (by simp) (by simpa using sum comp.height quarters) (by decide) fun c => ?_
        obtain ⟨i, j⟩ := c
        simp
        omega
      · rw [if_neg horizontal] at quarters
        have parts : [sbtPart splitType 0 comp, sbtPart splitType 1 comp] =
            [(0, 0), (1, 0)].map (cell comp
              [(comp.width * first) >>> 2, (comp.width * (4 - first)) >>> 2] [comp.height]) := by
          unfold sbtPart
          rw [front, behind]
          simp [valid, horizontal, cell, whole, Vtm.Std.startOf]
        rw [two, parts]
        refine tiles_of_grid (by simpa using sum comp.width quarters) (by simp) (by decide) fun c => ?_
        obtain ⟨i, j⟩ := c
        simp
        omega

/-! ## Intra sub-partitions -/

theorem ispStart_eq (start : Int) (size i : Nat) : ispStart start size i = start + (i * size : Nat) := by
  induction i with
  | zero => simp [ispStart]
  | succ i ih =>
      rw [ispStart, ih, Nat.succ_mul]
      push_cast
      omega

/-- The split side of a block. -/
def ispSide (splitType : PartSplit) (blkY : CompArea) : Nat :=
  if splitType = .TU_1D_HORZ_SPLIT then blkY.height else blkY.width

theorem tiles_isp {splitType : PartSplit} {blkY : CompArea} {n size : Nat}
    (sizes : ispSide splitType blkY = n * size) :
    Tiles blkY ((List.range n).map fun i => ispLuma splitType size i blkY) := by
  unfold ispSide at sizes
  by_cases horizontal : splitType = .TU_1D_HORZ_SPLIT
  · rw [if_pos horizontal] at sizes
    have parts : ((List.range n).map fun i => ispLuma splitType size i blkY) =
        ((List.range n).map fun i => (0, i)).map (cell blkY [blkY.width] (List.replicate n size)) := by
      rw [List.map_map]
      refine List.map_congr_left fun i inside => ?_
      have here := List.mem_range.mp inside
      unfold ispLuma
      rw [if_pos horizontal, ispStart_eq]
      simp [cell, startOf_replicate size here.le, here]
    rw [parts]
    refine tiles_of_grid (by simp) (by rw [List.sum_replicate_nat, sizes])
      (range_unique fun i _ j _ same => (Prod.mk.inj same).2) fun c => ?_
    obtain ⟨i, j⟩ := c
    simp
    omega
  · rw [if_neg horizontal] at sizes
    have parts : ((List.range n).map fun i => ispLuma splitType size i blkY) =
        ((List.range n).map fun i => (i, 0)).map (cell blkY (List.replicate n size) [blkY.height]) := by
      rw [List.map_map]
      refine List.map_congr_left fun i inside => ?_
      have here := List.mem_range.mp inside
      unfold ispLuma
      rw [if_neg horizontal, ispStart_eq]
      simp [cell, startOf_replicate size here.le, here]
    rw [parts]
    refine tiles_of_grid (by rw [List.sum_replicate_nat, sizes]) (by simp)
      (range_unique fun i _ j _ same => (Prod.mk.inj same).1) fun c => ?_
    obtain ⟨i, j⟩ := c
    simp
    omega

/-! ## The sizes of coding units -/

/-- The sizes of `fastFwdTrans[DCT2]`. -/
def transformSizes : List Nat := [2, 4, 8, 16, 32, 64]

/-- There is a transform for the sides: in both directions, or in one if the other side is 1. -/
def HasTransform (block : CompArea) : Prop :=
  block.width ∈ transformSizes ∧ (block.height ∈ transformSizes ∨ block.height = 1) ∨
    block.width = 1 ∧ block.height ∈ transformSizes

instance (block : CompArea) : Decidable (HasTransform block) := inferInstanceAs (Decidable (_ ∨ _))

theorem mem_transformSizes {k : Nat} (low : 1 ≤ k) (high : k ≤ 6) : 2 ^ k ∈ transformSizes := by
  interval_cases k <;> decide

theorem hasTransform_of_powers {block : CompArea} {k l : Nat} (width : block.width = 2 ^ k)
    (height : block.height = 2 ^ l) (lowK : 1 ≤ k) (highK : k ≤ 6) (lowL : 1 ≤ l) (highL : l ≤ 6) :
    HasTransform block := by
  refine .inl ⟨?_, .inl ?_⟩
  · rw [width]
    exact mem_transformSizes lowK highK
  · rw [height]
    exact mem_transformSizes lowL highL

/-- A unit of `2 ^ a × 2 ^ b` luma samples; its chroma blocks, if there are any, have sides that
are shifted by `sx` and `sy`. -/
structure IsUnit (a b sx sy : Nat) (area : UnitArea) : Prop where
  width : area.Y.width = 2 ^ a
  height : area.Y.height = 2 ^ b
  chroma : ∀ c, c ≠ 0 → (area.comp c).valid = true →
    (area.comp c).width = 2 ^ (a - sx) ∧ (area.comp c).height = 2 ^ (b - sy)

/-- The exponents of the sides of a coding unit and of the chroma format. -/
structure Sizes (a b sx sy : Nat) : Prop where
  lowA : 2 ≤ a
  highA : a ≤ 7
  lowB : 2 ≤ b
  highB : b ≤ 7
  formatX : sx ≤ 1
  formatY : sy ≤ 1

section

variable {a b sx sy m : Nat} {area : UnitArea}

theorem IsUnit.sides (unit : IsUnit a b sx sy area) (c : Nat) (valid : (area.comp c).valid = true) :
    ∃ i ≤ sx, ∃ j ≤ sy, (area.comp c).width = 2 ^ (a - i) ∧ (area.comp c).height = 2 ^ (b - j) := by
  by_cases luma : c = 0
  · subst luma
    exact ⟨0, Nat.zero_le _, 0, Nat.zero_le _, unit.width, unit.height⟩
  · exact ⟨sx, le_refl _, sy, le_refl _, unit.chroma c luma valid⟩

theorem IsUnit.hasTransform (unit : IsUnit a b sx sy area) (sizes : Sizes a b sx sy) (smallA : a ≤ 6)
    (smallB : b ≤ 6) (c : Nat) (valid : (area.comp c).valid = true) : HasTransform (area.comp c) := by
  obtain ⟨lowA, -, lowB, -, formatX, formatY⟩ := sizes
  obtain ⟨i, hi, j, hj, width, height⟩ := unit.sides c valid
  exact hasTransform_of_powers width height (by omega) (by omega) (by omega) (by omega)

theorem mapBlocks_comp (area : UnitArea) {part : CompArea → CompArea} (empty : part .none = .none)
    (c : Nat) : (area.mapBlocks part).comp c = part (area.comp c) := by
  unfold UnitArea.mapBlocks UnitArea.comp
  rw [List.getD_eq_getElem?_getD, List.getD_eq_getElem?_getD, List.getElem?_map]
  cases area.blocks[c]? with
  | none => exact empty.symm
  | some block => rfl

theorem maxTuPart_of_not_valid {comp : CompArea} (empty : comp.valid = false) (numTilesH numTilesV i : Nat) :
    maxTuPart numTilesH numTilesV i comp = comp := by
  unfold maxTuPart
  rw [empty]
  rfl

theorem numTiles_eq (a k : Nat) : max 1 (2 ^ a / 2 ^ k) = 2 ^ (a - k) := by
  rcases Nat.lt_or_ge a k with less | more
  · rw [Nat.div_eq_of_lt (Nat.pow_lt_pow_right (by decide) less), Nat.sub_eq_zero_of_le less.le]
    rfl
  · rw [Nat.pow_div more (by decide)]
    exact Nat.max_eq_right Nat.one_le_two_pow

/-- The exponent of the tiles of one split. -/
def tileLog (a b m : Nat) : Nat := if a > 6 ∨ b > 6 then 6 else m

/-- One split into tiles of the largest transform size. -/
theorem getMaxTuTiling_spec (unit : IsUnit a b sx sy area) (sizes : Sizes a b sx sy) (low : 5 ≤ m)
    (high : m ≤ 6) : ∃ parts, getMaxTuTiling area (2 ^ m) = .ok parts ∧
      (∀ c, Tiles (area.comp c) (parts.map (·.comp c))) ∧
      ∀ part ∈ parts, IsUnit (min a (tileLog a b m)) (min b (tileLog a b m)) sx sy part := by
  obtain ⟨lowA, highA, lowB, highB, formatX, formatY⟩ := sizes
  have limits : 5 ≤ tileLog a b m ∧ tileLog a b m ≤ 6 := by
    unfold tileLog
    split <;> omega
  have large : (area.Y.width > 64 ∨ area.Y.height > 64) ↔ a > 6 ∨ b > 6 := by
    have power (e : Nat) : 64 < 2 ^ e ↔ 6 < e := Nat.pow_lt_pow_iff_right (a := 2) (n := 6) (by decide)
    rw [unit.width, unit.height]
    exact or_congr (power a) (power b)
  have tile : (if area.Y.width > 64 ∨ area.Y.height > 64 then 64 else 2 ^ m) = 2 ^ tileLog a b m := by
    unfold tileLog
    by_cases big : a > 6 ∨ b > 6
    · rw [if_pos (large.mpr big), if_pos big]
      decide
    · rw [if_neg (mt large.mp big), if_neg big]
  generalize tileLog a b m = k at limits tile ⊢
  obtain ⟨lowK, highK⟩ := limits
  have few (e : Nat) (he : e ≤ 7) : 2 ^ (e - k) ≤ 4 :=
    Nat.pow_le_pow_right (by decide) (by omega : e - k ≤ 2)
  have fewA := few a highA
  have fewB := few b highB
  have run : getMaxTuTiling area (2 ^ m) = .ok ((List.range (2 ^ (a - k) * 2 ^ (b - k))).map fun i =>
      area.mapBlocks (maxTuPart (2 ^ (a - k)) (2 ^ (b - k)) i)) := by
    unfold getMaxTuTiling
    dsimp only
    rw [tile, unit.width, unit.height, numTiles_eq, numTiles_eq]
    refine CHECK_bind_eq_ok_iff.mpr ⟨?_, rfl⟩
    have product : 2 ^ (a - k) * 2 ^ (b - k) ≤ 4 * 4 := Nat.mul_le_mul fewA fewB
    unfold MAX_CU_TILING_PARTITIONS
    omega
  have component (i c : Nat) : (area.mapBlocks (maxTuPart (2 ^ (a - k)) (2 ^ (b - k)) i)).comp c =
      maxTuPart (2 ^ (a - k)) (2 ^ (b - k)) i (area.comp c) :=
    mapBlocks_comp area (maxTuPart_of_not_valid rfl _ _ i) c
  refine ⟨_, run, fun c => ?_, fun part member => ?_⟩
  · rw [List.map_map]
    have same : ((fun u : UnitArea => u.comp c) ∘ fun i =>
        area.mapBlocks (maxTuPart (2 ^ (a - k)) (2 ^ (b - k)) i)) =
        fun i => maxTuPart (2 ^ (a - k)) (2 ^ (b - k)) i (area.comp c) := funext fun i => component i c
    rw [same]
    refine tiles_maxTu (by positivity) (by omega) (by omega) fun valid => ?_
    obtain ⟨i, hi, j, hj, width, height⟩ := unit.sides c valid
    rw [width, height]
    exact ⟨pow_dvd_pow 2 (by omega), pow_dvd_pow 2 (by omega)⟩
  · obtain ⟨i, -, rfl⟩ := List.mem_map.mp member
    have sides (c : Nat) (valid : (area.comp c).valid = true) {e f : Nat} (he : e ≤ 1) (hf : f ≤ 1)
        (width : (area.comp c).width = 2 ^ (a - e)) (height : (area.comp c).height = 2 ^ (b - f)) :
        ((area.mapBlocks (maxTuPart (2 ^ (a - k)) (2 ^ (b - k)) i)).comp c).width = 2 ^ (min a k - e) ∧
          ((area.mapBlocks (maxTuPart (2 ^ (a - k)) (2 ^ (b - k)) i)).comp c).height =
            2 ^ (min b k - f) := by
      rw [component i c]
      unfold maxTuPart
      rw [if_pos valid]
      dsimp only
      rw [width, height, Nat.pow_div (by omega) (by decide), Nat.pow_div (by omega) (by decide)]
      exact ⟨congrArg (2 ^ ·) (by omega), congrArg (2 ^ ·) (by omega)⟩
    have luma : (area.comp 0).valid = true := by
      have w : (area.comp 0).width = 2 ^ a := unit.width
      have h : (area.comp 0).height = 2 ^ b := unit.height
      unfold CompArea.valid
      rw [w, h]
      exact decide_eq_true ⟨(Nat.two_pow_pos a).ne', (Nat.two_pow_pos b).ne'⟩
    obtain ⟨width, height⟩ := sides 0 luma (Nat.zero_le 1) (Nat.zero_le 1) unit.width unit.height
    refine ⟨width, height, fun c chroma valid => ?_⟩
    have validBefore : (area.comp c).valid = true := by
      by_contra empty
      rw [component i c, maxTuPart_of_not_valid (Bool.eq_false_iff.mpr empty)] at valid
      exact empty valid
    obtain ⟨width, height⟩ := unit.chroma c chroma validBefore
    exact sides c validBefore formatX formatY width height

/-! ## The recursion -/

/-- What the transform units of an area are: they tile it, and their luma sides are exponents up to
the largest transform size. -/
structure Units (sx sy m : Nat) (area : UnitArea) (units : List UnitArea) : Prop where
  tiles : ∀ c, Tiles (area.comp c) (units.map (·.comp c))
  sizes : ∀ u ∈ units, ∃ a b, IsUnit a b sx sy u ∧ Sizes a b sx sy ∧ a ≤ m ∧ b ≤ m

theorem transform_tree_leaf {cu : Params} {trDepth : Nat} (leaf : cu.tuParts trDepth area = none)
    (fuel : Nat) : transform_tree cu (fuel + 1) trDepth area = .ok [area] := by
  rw [transform_tree, leaf]

theorem Units.flatten {parts : List UnitArea} {units : List (List UnitArea)}
    (tiles : ∀ c, Tiles (area.comp c) (parts.map (·.comp c)))
    (each : List.Forall₂ (Units sx sy m) parts units) : Units sx sy m area units.flatten := by
  constructor
  · intro c
    rw [List.map_flatten]
    refine (tiles c).flatten ?_
    rw [List.forall₂_map_left_iff, List.forall₂_map_right_iff]
    exact each.imp fun _ _ holds => holds.tiles c
  · intro u member
    obtain ⟨list, inside, inList⟩ := List.mem_flatten.mp member
    obtain ⟨i, hi, rfl⟩ := List.getElem_of_mem inside
    exact (each.get (each.length_eq ▸ hi) hi).sizes u inList

/-- A unit whose splits are only those into tiles of the largest transform size. -/
def maxOnly (maxTbSize : Nat) (isDualTree : Bool) (cuArea : UnitArea) : Params where
  maxTbSize := maxTbSize
  isDualTree := isDualTree
  cuArea := cuArea
  ispType := none
  sbtTuSplit := none

theorem maxOnly_leaf {isDualTree : Bool} {cuArea : UnitArea} {trDepth : Nat}
    (unit : IsUnit a b sx sy area) (smallA : a ≤ m) (smallB : b ≤ m) :
    (maxOnly (2 ^ m) isDualTree cuArea).tuParts trDepth area = none := by
  have small : (maxOnly (2 ^ m) isDualTree cuArea).canSplitMax area = false := by
    have width : 2 ^ a ≤ 2 ^ m := Nat.pow_le_pow_right (by decide) smallA
    have height : 2 ^ b ≤ 2 ^ m := Nat.pow_le_pow_right (by decide) smallB
    unfold Params.canSplitMax maxOnly
    rw [unit.width, unit.height, decide_eq_false_iff_not]
    rintro ⟨-, large⟩
    dsimp only at large
    omega
  unfold Params.tuParts
  rw [small]
  rfl

/-- The tiles of one split are split on, if each of them is. -/
theorem maxOnly_split {isDualTree : Bool} {cuArea : UnitArea} {trDepth fuel : Nat}
    (unit : IsUnit a b sx sy area) (sizes : Sizes a b sx sy) (low : 5 ≤ m) (high : m ≤ 6)
    (large : m < a ∨ m < b)
    (each : ∀ part, IsUnit (min a (tileLog a b m)) (min b (tileLog a b m)) sx sy part →
      Succeeds (transform_tree (maxOnly (2 ^ m) isDualTree cuArea) fuel (trDepth + 1) part)
        (Units sx sy m part)) :
    Succeeds (transform_tree (maxOnly (2 ^ m) isDualTree cuArea) (fuel + 1) trDepth area)
      (Units sx sy m area) := by
  obtain ⟨parts, run, tiles, partSizes⟩ := getMaxTuTiling_spec unit sizes low high
  have split : (maxOnly (2 ^ m) isDualTree cuArea).tuParts trDepth area =
      some (getMaxTuTiling area (2 ^ m)) := by
    have can : (maxOnly (2 ^ m) isDualTree cuArea).canSplitMax area = true := by
      have power (e : Nat) : 2 ^ m < 2 ^ e ↔ m < e := Nat.pow_lt_pow_iff_right (by decide)
      unfold Params.canSplitMax maxOnly
      rw [unit.width, unit.height, decide_eq_true_iff]
      exact ⟨rfl, large.imp (power a).mpr (power b).mpr⟩
    unfold Params.tuParts
    rw [can]
    rfl
  rw [transform_tree, split]
  refine Succeeds.bind (P := (· = parts)) ⟨parts, run, rfl⟩ fun parts' same => ?_
  subst same
  refine (Succeeds.mapM fun part member => each part (partSizes part member)).bind fun units all => ?_
  exact Succeeds.pure (Units.flatten tiles all)

/-- At most two splits are needed: to 64 samples, and from there to the largest transform size. -/
theorem maxOnly_units {isDualTree : Bool} {cuArea : UnitArea} (unit : IsUnit a b sx sy area)
    (sizes : Sizes a b sx sy) (low : 5 ≤ m) (high : m ≤ 6) (fuel : Nat) :
    Succeeds (transform_tree (maxOnly (2 ^ m) isDualTree cuArea) (fuel + 3) 0 area)
      (Units sx sy m area) := by
  have leaf {a b trDepth fuel : Nat} {area : UnitArea} (unit : IsUnit a b sx sy area)
      (sizes : Sizes a b sx sy) (smallA : a ≤ m) (smallB : b ≤ m) :
      Succeeds (transform_tree (maxOnly (2 ^ m) isDualTree cuArea) (fuel + 1) trDepth area)
        (Units sx sy m area) :=
    ⟨[area], transform_tree_leaf (maxOnly_leaf unit smallA smallB) fuel, fun c => Tiles.single _,
      List.forall_mem_singleton.mpr ⟨a, b, unit, sizes, smallA, smallB⟩⟩
  have inner {a b trDepth fuel : Nat} {area : UnitArea} (unit : IsUnit a b sx sy area)
      (sizes : Sizes a b sx sy) (smallA : a ≤ 6) (smallB : b ≤ 6) :
      Succeeds (transform_tree (maxOnly (2 ^ m) isDualTree cuArea) (fuel + 2) trDepth area)
        (Units sx sy m area) := by
    by_cases large : m < a ∨ m < b
    · refine maxOnly_split unit sizes low high large fun part inside => ?_
      have tile : tileLog a b m = m := if_neg (by omega)
      rw [tile] at inside
      obtain ⟨lowA, highA, lowB, highB, formatX, formatY⟩ := sizes
      exact leaf inside ⟨by omega, by omega, by omega, by omega, formatX, formatY⟩ (by omega) (by omega)
    · exact leaf unit sizes (by omega) (by omega)
  by_cases large : 6 < a ∨ 6 < b
  · refine maxOnly_split unit sizes low high (by omega) fun part inside => ?_
    have tile : tileLog a b m = 6 := if_pos large
    rw [tile] at inside
    obtain ⟨lowA, highA, lowB, highB, formatX, formatY⟩ := sizes
    exact inner inside ⟨by omega, by omega, by omega, by omega, formatX, formatY⟩ (by omega) (by omega)
  · exact inner unit sizes (by omega) (by omega)

/-! ## Coding units with sub-block transforms -/

theorem mapM_leaf {cu : Params} {trDepth fuel : Nat} {parts : List UnitArea}
    (leaf : ∀ part ∈ parts, cu.tuParts trDepth part = none) :
    parts.mapM (transform_tree cu (fuel + 1) trDepth) = .ok (parts.map ([·])) := by
  induction parts with
  | nil => rfl
  | cons part rest ih =>
      rw [List.mapM_cons, transform_tree_leaf (leaf part (List.mem_cons_self ..)),
        ih fun other member => leaf other (List.mem_cons_of_mem _ member)]
      rfl

/-- A split into units that are not split again. -/
theorem transform_tree_once {cu : Params} {trDepth fuel : Nat} {parts : List UnitArea}
    (split : cu.tuParts trDepth area = some (.ok parts))
    (leaf : ∀ part ∈ parts, cu.tuParts (trDepth + 1) part = none) :
    transform_tree cu (fuel + 2) trDepth area = .ok parts := by
  rw [transform_tree, split]
  show (do
    let units ← parts.mapM (transform_tree cu (fuel + 1) (trDepth + 1))
    return units.flatten) = _
  rw [mapM_leaf leaf]
  refine congrArg Except.ok ?_
  rw [← List.flatMap_def]
  exact List.flatMap_singleton' parts

/-- A coding unit with a sub-block transform. -/
def sbtOnly (maxTbSize : Nat) (isDualTree : Bool) (cuArea : UnitArea) (split : PartSplit) : Params where
  maxTbSize := maxTbSize
  isDualTree := isDualTree
  cuArea := cuArea
  ispType := none
  sbtTuSplit := some split

theorem sbtPart_le {split : PartSplit} (sbt : split.isSbt) (i : Nat) (hi : i < 2) (comp : CompArea) :
    (sbtPart split i comp).width ≤ comp.width ∧ (sbtPart split i comp).height ≤ comp.height := by
  obtain ⟨first, some, less, front, behind⟩ := sbtFactors_eq sbt
  have part (side factor : Nat) (most : factor ≤ 4) : (side * factor) >>> 2 ≤ side := by
    have product : side * factor ≤ side * 4 := Nat.mul_le_mul_left side most
    rw [Nat.shiftRight_eq_div_pow]
    omega
  have most : (sbtFactors split i).2 ≤ 4 := by
    rcases Nat.lt_succ_iff_lt_or_eq.mp hi with zero | rfl
    · obtain rfl : i = 0 := by omega
      rw [front]
      exact less.le
    · rw [behind]
      exact Nat.sub_le 4 first
  unfold sbtPart
  dsimp only
  split
  · split
    · exact ⟨part _ _ (le_refl 4), part _ _ most⟩
    · exact ⟨part _ _ most, part _ _ (le_refl 4)⟩
  · exact ⟨le_refl _, le_refl _⟩

theorem sbtPart_of_not_valid {comp : CompArea} (empty : comp.valid = false) (split : PartSplit)
    (i : Nat) : sbtPart split i comp = comp := by
  unfold sbtPart
  rw [empty]
  rfl

/-- The sides that the condition on the size allows to be split. -/
theorem allowType_iff {split : PartSplit} (sbt : split.isSbt) (allowed : allowType (2 ^ a) (2 ^ b) split) :
    ∃ quarters, (quarters = 1 ∨ quarters = 2) ∧ (sbtFactors split (sbtPos split)).2 = quarters ∧
      5 - quarters ≤ if sbtIsHorizontal split then b else a := by
  have eight (e : Nat) (h : 2 ^ e ≥ 8) : 3 ≤ e := (Nat.pow_le_pow_iff_right (a := 2) (by decide)).mp h
  have sixteen (e : Nat) (h : 2 ^ e ≥ 16) : 4 ≤ e :=
    (Nat.pow_le_pow_iff_right (a := 2) (n := 4) (by decide)).mp h
  cases split <;> cases sbt
  all_goals first
    | exact ⟨2, .inr rfl, rfl, eight _ (of_decide_eq_true allowed)⟩
    | exact ⟨1, .inl rfl, rfl, sixteen _ (of_decide_eq_true allowed)⟩

theorem eq_sbtPos {split : PartSplit} {i : Nat} (inside : i < 2) (some : noResidual split i = false) :
    i = sbtPos split := by
  have pos : sbtPos split = 0 ∨ sbtPos split = 1 := by
    cases split <;> decide
  unfold noResidual at some
  rw [decide_eq_false_iff_not] at some
  omega

/-- The part with the residual takes one or two quarters. -/
theorem residual_sides {split : PartSplit} {quarters k l : Nat} {comp : CompArea}
    (valid : comp.valid = true) (width : comp.width = 2 ^ k) (height : comp.height = 2 ^ l)
    (takes : (sbtFactors split (sbtPos split)).2 = quarters) (few : quarters = 1 ∨ quarters = 2)
    (large : 2 ≤ if sbtIsHorizontal split then l else k) :
    ∃ k' l', (sbtPart split (sbtPos split) comp).width = 2 ^ k' ∧
      (sbtPart split (sbtPos split) comp).height = 2 ^ l' ∧
      (if sbtIsHorizontal split then k' = k ∧ l' + (3 - quarters) = l
        else k' + (3 - quarters) = k ∧ l' = l) := by
  have whole (side : Nat) : (side * 4) >>> 2 = side := by
    rw [Nat.shiftRight_eq_div_pow]
    omega
  have part (e : Nat) (he : 2 ≤ e) : ∃ e', (2 ^ e * quarters) >>> 2 = 2 ^ e' ∧ e' + (3 - quarters) = e := by
    obtain ⟨e, rfl⟩ := Nat.exists_eq_add_of_le he
    rw [Nat.shiftRight_eq_div_pow]
    rcases few with rfl | rfl
    · refine ⟨e, ?_, by omega⟩
      rw [Nat.pow_add, Nat.mul_one, Nat.mul_div_cancel_left _ (by decide)]
    · refine ⟨e + 1, ?_, by omega⟩
      rw [Nat.pow_add, Nat.mul_assoc, Nat.mul_div_cancel_left _ (by decide), Nat.pow_succ]
  unfold sbtPart
  cases factors : sbtFactors split (sbtPos split) with
  | mk offset factor =>
  rw [factors] at takes
  obtain rfl : factor = quarters := takes
  dsimp only
  rw [if_pos valid]
  by_cases horizontal : sbtIsHorizontal split = true
  · rw [if_pos horizontal] at large ⊢
    obtain ⟨l', same, exponent⟩ := part l large
    refine ⟨k, l', ?_, ?_, ?_⟩
    · rw [← width]
      exact whole _
    · rw [← same, ← height]
    · rw [if_pos horizontal]
      exact ⟨rfl, exponent⟩
  · rw [if_neg horizontal] at large ⊢
    obtain ⟨k', same, exponent⟩ := part k large
    refine ⟨k', l, ?_, ?_, ?_⟩
    · rw [← same, ← width]
    · rw [← height]
      exact whole _
    · rw [if_neg horizontal]
      exact ⟨exponent, rfl⟩

theorem sbt_units {split : PartSplit} {isDualTree : Bool} (unit : IsUnit a b sx sy area)
    (sizes : Sizes a b sx sy) (high : m ≤ 6) (sbt : split.isSbt)
    (allowed : allowedSbt area.Y.width area.Y.height (2 ^ m) split) (fuel : Nat) :
    ∃ units, transform_tree (sbtOnly (2 ^ m) isDualTree area split) (fuel + 2) 0 area = .ok units ∧
      (∀ c, Tiles (area.comp c) (units.map (·.comp c))) ∧
      ∀ i u, units[i]? = some u → noResidual split i = false →
        ∀ c, (u.comp c).valid = true → HasTransform (u.comp c) := by
  unfold allowedSbt at allowed
  obtain ⟨within, type⟩ := of_decide_eq_true allowed
  rw [unit.width, unit.height] at type
  obtain ⟨quarters, few, takes, enough⟩ := allowType_iff sbt type
  obtain ⟨lowA, highA, lowB, highB, formatX, formatY⟩ := sizes
  have smallA : a ≤ 6 := le_trans ((Nat.pow_le_pow_iff_right (a := 2) (by decide)).mp
    (unit.width ▸ not_lt.mp fun large => within (.inl large))) high
  have smallB : b ≤ 6 := le_trans ((Nat.pow_le_pow_iff_right (a := 2) (by decide)).mp
    (unit.height ▸ not_lt.mp fun large => within (.inr large))) high
  have component (i c : Nat) : (area.mapBlocks (sbtPart split i)).comp c = sbtPart split i (area.comp c) :=
    mapBlocks_comp area (sbtPart_of_not_valid rfl split i) c
  have first : (sbtOnly (2 ^ m) isDualTree area split).tuParts 0 area =
      some (.ok (getSbtTuTiling area split)) := by
    have small : (sbtOnly (2 ^ m) isDualTree area split).canSplitMax area = false :=
      decide_eq_false fun large => within large.2
    unfold Params.tuParts
    rw [small]
    rfl
  have second : ∀ part ∈ getSbtTuTiling area split,
      (sbtOnly (2 ^ m) isDualTree area split).tuParts 1 part = none := by
    intro part member
    obtain ⟨i, inside, rfl⟩ := List.mem_map.mp member
    have less := sbtPart_le sbt i (List.mem_range.mp inside) (area.comp 0)
    rw [← component] at less
    have small : (sbtOnly (2 ^ m) isDualTree area split).canSplitMax (area.mapBlocks (sbtPart split i)) =
        false := by
      refine decide_eq_false fun large => within (large.2.imp (fun wide => ?_) fun tall => ?_)
      · exact lt_of_lt_of_le wide less.1
      · exact lt_of_lt_of_le tall less.2
    unfold Params.tuParts
    rw [small]
    rfl
  refine ⟨_, transform_tree_once first second, fun c => ?_, fun i u here some c valid => ?_⟩
  · have same : (getSbtTuTiling area split).map (·.comp c) =
        (List.range 2).map fun i => sbtPart split i (area.comp c) := by
      unfold getSbtTuTiling
      rw [List.map_map]
      exact List.map_congr_left fun i _ => component i c
    rw [same]
    refine tiles_sbt sbt fun valid => Dvd.dvd.mul_right ?_ _
    obtain ⟨i, hi, j, hj, width, height⟩ := unit.sides c valid
    have four (e : Nat) (he : 2 ≤ e) : 4 ∣ 2 ^ e := pow_dvd_pow 2 he
    unfold sbtSide
    rw [width, height]
    split at enough
    · rename_i horizontal
      rw [if_pos horizontal]
      exact four _ (by omega)
    · rename_i vertical
      rw [if_neg vertical]
      exact four _ (by omega)
  · have two : i < 2 := (List.getElem?_eq_some_iff.mp here).1
    unfold getSbtTuTiling at here
    rw [List.getElem?_map, List.getElem?_range two] at here
    obtain rfl := Option.some.inj here
    obtain rfl := eq_sbtPos two some
    rw [component] at valid ⊢
    have validBefore : (area.comp c).valid = true := by
      by_contra empty
      rw [sbtPart_of_not_valid (Bool.eq_false_iff.mpr empty)] at valid
      exact empty valid
    obtain ⟨i, hi, j, hj, width, height⟩ := unit.sides c validBefore
    by_cases horizontal : sbtIsHorizontal split = true
    · rw [if_pos horizontal] at enough
      obtain ⟨k, l, sideX, sideY, exponents⟩ := residual_sides validBefore width height takes few
        (by rw [if_pos horizontal]; omega)
      rw [if_pos horizontal] at exponents
      exact hasTransform_of_powers sideX sideY (by omega) (by omega) (by omega) (by omega)
    · rw [if_neg horizontal] at enough
      obtain ⟨k, l, sideX, sideY, exponents⟩ := residual_sides validBefore width height takes few
        (by rw [if_neg horizontal]; omega)
      rw [if_neg horizontal] at exponents
      exact hasTransform_of_powers sideX sideY (by omega) (by omega) (by omega) (by omega)

end

/-! ## Coding units with intra sub-partitions -/

/-- A split into rows or columns. -/
def IsIsp (split : PartSplit) : Prop := split = .TU_1D_HORZ_SPLIT ∨ split = .TU_1D_VERT_SPLIT

/-- The exponent of a partition: a quarter of the side, but sixteen samples. -/
def ispLog (side other : Nat) : Nat := max (side - 2) (4 - other)

theorem getISPSplitDim_pow : ∀ a < 7, ∀ b < 7, 2 ≤ a ∧ 2 ≤ b ∧ 4 < a + b →
    getISPSplitDim (2 ^ a) (2 ^ b) .TU_1D_HORZ_SPLIT = .ok (2 ^ ispLog b a) ∧
      getISPSplitDim (2 ^ a) (2 ^ b) .TU_1D_VERT_SPLIT = .ok (2 ^ ispLog a b) := by
  decide

/-- There are two or four partitions. -/
theorem ispLog_spec {side other : Nat} (low : 2 ≤ side) (samples : 4 < side + other) :
    ∃ n, 1 ≤ n ∧ n ≤ 2 ∧ side = n + ispLog side other ∧ 4 ≤ ispLog side other + other := by
  unfold ispLog
  exact ⟨side - max (side - 2) (4 - other), by omega, by omega, by omega, by omega⟩

/-- What the partitions of a coding unit are, with the predictions of their size and number. -/
structure IspUnits (area : UnitArea) (isDualTree : Bool) (split : PartSplit) (units : List UnitArea) :
    Prop where
  several : 2 ≤ units.length
  luma : Tiles area.Y (units.map (·.Y))
  chroma : ∀ c, c = 1 ∨ c = 2 → ∀ i u, units[i]? = some u →
    u.comp c = if isDualTree = false ∧ i + 1 = units.length then area.comp c else .none
  size : ∃ dim, getISPSplitDim area.Y.width area.Y.height split = .ok dim ∧
    ∀ u ∈ units, ispSide split u.Y = dim
  number : ∀ first, units[0]? = some first → numTotalTUs area split first = units.length
  last : ∀ i u, units[i]? = some u → isISPLast area split u.Y = .ok (decide (i + 1 = units.length))
  first : ∀ first, units[0]? = some first → ∀ i u, units[i]? = some u →
    isISPFirst first u.Y = decide (i = 0)
  transform : ∀ u ∈ units, ∀ c, (u.comp c).valid = true → HasTransform (u.comp c)

section

variable {a b sx sy m : Nat} {area : UnitArea} {split : PartSplit} {isDualTree : Bool}

/-- A coding unit with intra sub-partitions. -/
def ispOnly (maxTbSize : Nat) (isDualTree : Bool) (cuArea : UnitArea) (split : PartSplit) : Params where
  maxTbSize := maxTbSize
  isDualTree := isDualTree
  cuArea := cuArea
  ispType := some split
  sbtTuSplit := none

/-- The sides of a block and the exponents of its split side and of the other one. -/
theorem getISPSplitDim_spec (unit : IsUnit a b sx sy area) (lowA : 2 ≤ a) (lowB : 2 ≤ b) (smallA : a ≤ 6)
    (smallB : b ≤ 6) (samples : 4 < a + b) (isp : IsIsp split) :
    ∃ k n other, getISPSplitDim area.Y.width area.Y.height split = .ok (2 ^ k) ∧ 1 ≤ n ∧ n ≤ 2 ∧
      ispSide split area.Y = 2 ^ n * 2 ^ k ∧ 4 ≤ k + other ∧ 2 ≤ other ∧ other ≤ 6 ∧ n + k ≤ 6 ∧
      ∀ i, (ispLuma split (2 ^ k) i area.Y).width = 2 ^ (if split = .TU_1D_HORZ_SPLIT then other else k) ∧
        (ispLuma split (2 ^ k) i area.Y).height = 2 ^ (if split = .TU_1D_HORZ_SPLIT then k else other) := by
  obtain ⟨rows, columns⟩ := getISPSplitDim_pow a (by omega) b (by omega)
    ⟨lowA, lowB, samples⟩
  rw [unit.width, unit.height]
  rcases isp with rfl | rfl
  · obtain ⟨n, some, few, sum, sixteen⟩ := ispLog_spec lowB (by omega : 4 < b + a)
    refine ⟨ispLog b a, n, a, rows, some, few, ?_, sixteen, lowA, smallA, by omega,
      fun i => ⟨unit.width, rfl⟩⟩
    show area.Y.height = _
    rw [unit.height, ← Nat.pow_add, ← sum]
  · obtain ⟨n, some, few, sum, sixteen⟩ := ispLog_spec lowA samples
    refine ⟨ispLog a b, n, b, columns, some, few, ?_, sixteen, lowB, smallB, by omega,
      fun i => ⟨rfl, unit.height⟩⟩
    show area.Y.width = _
    rw [unit.width, ← Nat.pow_add, ← sum]

theorem ispPart_Y (size without i : Nat) (some : area.blocks ≠ []) :
    (ispPart split size without i area).Y = ispLuma split size i area.Y := by
  unfold ispPart UnitArea.Y
  cases here : area.blocks with
  | nil => exact absurd here some
  | cons Y others =>
      dsimp only
      split <;> rfl

theorem ispPart_comp (size without i c : Nat) (chroma : c = 1 ∨ c = 2) :
    (ispPart split size without i area).comp c = if i < without then .none else area.comp c := by
  unfold ispPart UnitArea.comp
  dsimp only
  split
  · rw [List.getD_eq_getElem?_getD]
    rcases chroma with rfl | rfl
    · rw [List.getElem?_set_ne (by decide), List.getElem?_set]
      split
      · split <;> rfl
      · contradiction
    · rw [List.getElem?_set]
      split
      · split <;> rfl
      · contradiction
  · rw [List.getD_eq_getElem?_getD, List.getD_eq_getElem?_getD, List.getElem?_set_ne (by omega)]

theorem ispPart_rest (size without i c : Nat) (rest : 3 ≤ c) :
    (ispPart split size without i area).comp c = area.comp c := by
  unfold ispPart UnitArea.comp
  dsimp only
  rw [List.getD_eq_getElem?_getD, List.getD_eq_getElem?_getD]
  split
  · rw [List.getElem?_set_ne (by omega), List.getElem?_set_ne (by omega), List.getElem?_set_ne (by omega)]
  · rw [List.getElem?_set_ne (by omega)]

theorem isp_units (unit : IsUnit a b sx sy area) (sizes : Sizes a b sx sy) (high : m ≤ 6)
    (isp : IsIsp split) (can : canUseISP area.Y.width area.Y.height (2 ^ m)) (fuel : Nat) :
    ∃ units, transform_tree (ispOnly (2 ^ m) isDualTree area split) (fuel + 2) 0 area = .ok units ∧
      IspUnits area isDualTree split units := by
  obtain ⟨lowA, highA, lowB, highB, formatX, formatY⟩ := sizes
  unfold canUseISP at can
  rw [decide_eq_true_iff, unit.width, unit.height, Nat.log2_two_pow, Nat.log2_two_pow] at can
  obtain ⟨enough, within⟩ := can
  have samples : 4 < a + b := not_le.mp enough
  have smallA : a ≤ 6 := le_trans ((Nat.pow_le_pow_iff_right (a := 2) (by decide)).mp
    (not_lt.mp fun large => within (.inl large))) high
  have smallB : b ≤ 6 := le_trans ((Nat.pow_le_pow_iff_right (a := 2) (by decide)).mp
    (not_lt.mp fun large => within (.inr large))) high
  obtain ⟨k, n, other, dim, some, few, side, sixteen, lowOther, highOther, highSide, luma⟩ :=
    getISPSplitDim_spec unit lowA lowB smallA smallB samples isp
  have blocks : area.blocks ≠ [] := by
    intro none
    have width := unit.width
    unfold UnitArea.Y at width
    rw [none] at width
    exact absurd width (Nat.two_pow_pos a).ne
  have count : ispSide split area.Y >>> Nat.log2 (2 ^ k) = 2 ^ n := by
    rw [side, Nat.log2_two_pow, Nat.shiftRight_eq_div_pow, Nat.mul_div_cancel _ (Nat.two_pow_pos k)]
  have one := Nat.two_pow_pos n
  have two : 2 ^ 1 ≤ 2 ^ n := Nat.pow_le_pow_right (by decide) some
  let without := if isDualTree then 2 ^ n else 2 ^ n - 1
  let units := (List.range (2 ^ n)).map fun i => ispPart split (2 ^ k) without i area
  have length : units.length = 2 ^ n := by simp [units]
  have Y (i : Nat) : (ispPart split (2 ^ k) without i area).Y = ispLuma split (2 ^ k) i area.Y :=
    ispPart_Y _ _ i blocks
  have sideOf (i : Nat) : ispSide split (ispPart split (2 ^ k) without i area).Y = 2 ^ k := by
    obtain ⟨width, height⟩ := luma i
    unfold ispSide
    rw [Y, width, height]
    split <;> rfl
  have member {i : Nat} {u : UnitArea} (here : units[i]? = .some u) :
      i < 2 ^ n ∧ u = ispPart split (2 ^ k) without i area := by
    have inside : i < 2 ^ n := length ▸ (List.getElem?_eq_some_iff.mp here).1
    rw [List.getElem?_map, List.getElem?_range inside] at here
    exact ⟨inside, (Option.some.inj here).symm⟩
  have split_ : getTUIntraSubPartitions area isDualTree split = .ok units := by
    unfold getTUIntraSubPartitions
    refine bind_eq_ok_iff.mpr ⟨2 ^ k, dim, CHECK_bind_eq_ok_iff.mpr ⟨?_, CHECK_bind_eq_ok_iff.mpr ⟨?_, ?_⟩⟩⟩
    · rintro ⟨noRows, noColumns⟩
      exact isp.elim noRows noColumns
    · have positive := Nat.two_pow_pos k
      omega
    · have number : (if split = .TU_1D_HORZ_SPLIT then area.Y.height else area.Y.width) >>>
          Nat.log2 (2 ^ k) = 2 ^ n := count
      dsimp only
      rw [number]
      rfl
  have first : (ispOnly (2 ^ m) isDualTree area split).tuParts 0 area = .some (.ok units) := by
    have here : (ispOnly (2 ^ m) isDualTree area split).canSplitIsp area = true := by
      rcases isp with rfl | rfl <;> exact decide_eq_true rfl
    have small : (ispOnly (2 ^ m) isDualTree area split).canSplitMax area = false :=
      decide_eq_false fun large => nomatch large.1
    unfold Params.tuParts
    rw [small, here, ← split_]
    rfl
  have second : ∀ part ∈ units, (ispOnly (2 ^ m) isDualTree area split).tuParts 1 part = none := by
    intro part inside
    obtain ⟨i, -, rfl⟩ := List.mem_map.mp inside
    have less : ispSide split (ispPart split (2 ^ k) without i area).Y ≠ ispSide split area.Y := by
      rw [sideOf, side]
      have positive := Nat.two_pow_pos k
      have double : 2 * 2 ^ k ≤ 2 ^ n * 2 ^ k := Nat.mul_le_mul_right _ two
      omega
    have here : (ispOnly (2 ^ m) isDualTree area split).canSplitIsp
        (ispPart split (2 ^ k) without i area) = false := by
      rcases isp with rfl | rfl <;> exact decide_eq_false less
    have small : (ispOnly (2 ^ m) isDualTree area split).canSplitMax
        (ispPart split (2 ^ k) without i area) = false :=
      decide_eq_false fun large => nomatch large.1
    unfold Params.tuParts
    rw [small, here]
    rfl
  refine ⟨units, transform_tree_once first second, {
    several := length ▸ two
    luma := ?_
    chroma := fun c chroma i u here => ?_
    size := ⟨2 ^ k, dim, fun u inside => ?_⟩
    number := fun first here => ?_
    last := fun i u here => ?_
    first := fun first start i u here => ?_
    transform := fun u inside c valid => ?_ }⟩
  · have same : units.map (·.Y) = (List.range (2 ^ n)).map fun i => ispLuma split (2 ^ k) i area.Y := by
      rw [List.map_map]
      exact List.map_congr_left fun i _ => Y i
    rw [same]
    exact tiles_isp side
  · obtain ⟨inside, rfl⟩ := member here
    rw [ispPart_comp _ _ _ c chroma, length]
    show (if i < (if isDualTree then 2 ^ n else 2 ^ n - 1) then _ else _) = _
    cases isDualTree with
    | true => simp [inside]
    | false =>
        simp only [Bool.false_eq_true, if_false, true_and]
        by_cases lastOne : i + 1 = 2 ^ n
        · rw [if_neg (by omega), if_pos lastOne]
        · rw [if_pos (by omega), if_neg lastOne]
  · obtain ⟨i, -, rfl⟩ := List.mem_map.mp inside
    exact sideOf i
  · obtain ⟨-, rfl⟩ := member here
    have log : Nat.log2 (ispSide split (ispPart split (2 ^ k) without 0 area).Y) = Nat.log2 (2 ^ k) := by
      rw [sideOf]
    rw [length, ← count, ← log]
    unfold numTotalTUs ispSide
    split <;> rfl
  · obtain ⟨inside, rfl⟩ := member here
    have behind : (i * 2 ^ k + 2 ^ k = 2 ^ n * 2 ^ k) ↔ i + 1 = 2 ^ n := by
      rw [← Nat.succ_mul]
      exact Nat.mul_right_cancel_iff (Nat.two_pow_pos k)
    rw [Y, length]
    rcases isp with rfl | rfl
    · have height : area.Y.height = 2 ^ n * 2 ^ k := side
      refine congrArg Except.ok (decide_eq_decide.mpr ?_)
      show ispStart area.Y.y (2 ^ k) i + (2 ^ k : Nat) = area.Y.y + area.Y.height ↔ _
      rw [ispStart_eq, height, ← behind]
      omega
    · have width : area.Y.width = 2 ^ n * 2 ^ k := side
      refine congrArg Except.ok (decide_eq_decide.mpr ?_)
      show ispStart area.Y.x (2 ^ k) i + (2 ^ k : Nat) = area.Y.x + area.Y.width ↔ _
      rw [ispStart_eq, width, ← behind]
      omega
  · obtain ⟨-, rfl⟩ := member start
    obtain ⟨-, rfl⟩ := member here
    unfold isISPFirst
    rw [Y, Y]
    refine decide_eq_decide.mpr ⟨fun same => ?_, fun zero => by rw [zero]⟩
    have positive := Nat.two_pow_pos k
    have place : ((i * 2 ^ k : Nat) : Int) = (0 * 2 ^ k : Nat) := by
      rcases isp with rfl | rfl
      · have y : ispStart area.Y.y (2 ^ k) i = ispStart area.Y.y (2 ^ k) 0 :=
          congrArg (fun block : CompArea => block.y) same
        rw [ispStart_eq, ispStart_eq] at y
        omega
      · have x : ispStart area.Y.x (2 ^ k) i = ispStart area.Y.x (2 ^ k) 0 :=
          congrArg (fun block : CompArea => block.x) same
        rw [ispStart_eq, ispStart_eq] at x
        omega
    exact Nat.eq_of_mul_eq_mul_right positive (Int.ofNat.inj place)
  · obtain ⟨i, -, rfl⟩ := List.mem_map.mp inside
    by_cases zero : c = 0
    · subst zero
      obtain ⟨width, height⟩ := luma i
      have block : (ispPart split (2 ^ k) without i area).comp 0 = ispLuma split (2 ^ k) i area.Y := Y i
      rw [block]
      have otherSide : 2 ^ other ∈ transformSizes := mem_transformSizes (by omega) highOther
      have splitSide : 2 ^ k ∈ transformSizes ∨ 2 ^ k = 1 := by
        rcases Nat.eq_zero_or_pos k with rfl | positive
        · exact .inr rfl
        · exact .inl (mem_transformSizes positive (by omega))
      unfold HasTransform
      rw [width, height]
      rcases isp with rfl | rfl
      · exact .inl ⟨otherSide, splitSide⟩
      · exact splitSide.elim (fun size => .inl ⟨size, .inl otherSide⟩) fun one => .inr ⟨one, otherSide⟩
    · have block : (ispPart split (2 ^ k) without i area).comp c = .none ∨
          (ispPart split (2 ^ k) without i area).comp c = area.comp c := by
        by_cases rest : 3 ≤ c
        · exact .inr (ispPart_rest _ _ _ c rest)
        · rw [ispPart_comp _ _ _ c (by omega)]
          split
          · exact .inl rfl
          · exact .inr rfl
      rcases block with none | same
      · rw [none] at valid
        cases valid
      · rw [same] at valid ⊢
        exact unit.hasTransform ⟨lowA, highA, lowB, highB, formatX, formatY⟩ smallA smallB c valid

/-- The transform units of every kind of split tile the coding unit, with sides that have a
transform; with a sub-block transform, those that may have a residual do. -/
theorem transformUnits_tile (area : UnitArea) (a b sx sy m fuel : Nat) (isDualTree : Bool)
    (unit : IsUnit a b sx sy area) (sizes : Sizes a b sx sy) (largest : m = 5 ∨ m = 6) :
    (∃ units, transform_tree (maxOnly (2 ^ m) isDualTree area) (fuel + 3) 0 area = .ok units ∧
      (∀ c, Tiles (area.comp c) (units.map (·.comp c))) ∧
      ∀ u ∈ units, u.Y.width ≤ 2 ^ m ∧ u.Y.height ≤ 2 ^ m ∧
        ∀ c, (u.comp c).valid = true → HasTransform (u.comp c)) ∧
    (∀ split, IsIsp split → canUseISP area.Y.width area.Y.height (2 ^ m) = true →
      ∃ units, transform_tree (ispOnly (2 ^ m) isDualTree area split) (fuel + 2) 0 area = .ok units ∧
        IspUnits area isDualTree split units) ∧
    (∀ split, split.isSbt = true → allowedSbt area.Y.width area.Y.height (2 ^ m) split = true →
      ∃ units, transform_tree (sbtOnly (2 ^ m) isDualTree area split) (fuel + 2) 0 area = .ok units ∧
        (∀ c, Tiles (area.comp c) (units.map (·.comp c))) ∧
        ∀ i u, units[i]? = some u → noResidual split i = false →
          ∀ c, (u.comp c).valid = true → HasTransform (u.comp c)) := by
  refine ⟨?_, fun split isp can => ?_, fun split sbt allowed => ?_⟩
  · have cut : Succeeds (transform_tree (maxOnly (2 ^ m) isDualTree area) (fuel + 3) 0 area)
        (Units sx sy m area) := maxOnly_units unit sizes (by omega) (by omega) fuel
    obtain ⟨units, run, tiles, sides⟩ := cut
    refine ⟨units, run, tiles, fun u member => ?_⟩
    obtain ⟨a', b', unit', sizes', smallA, smallB⟩ := sides u member
    refine ⟨?_, ?_, fun c valid => unit'.hasTransform sizes' (by omega) (by omega) c valid⟩
    · rw [unit'.width]
      exact Nat.pow_le_pow_right (by decide) smallA
    · rw [unit'.height]
      exact Nat.pow_le_pow_right (by decide) smallB
  · exact isp_units unit sizes (by omega) isp can fuel
  · exact sbt_units unit sizes (by omega) sbt allowed fuel

end

/-! ## A coding unit of 16 x 16 samples -/

/-- In the format with a quarter of the chroma samples. -/
def sixteen : UnitArea := ⟨[⟨⟨0, 0⟩, 16, 16⟩, ⟨⟨0, 0⟩, 8, 8⟩, ⟨⟨0, 0⟩, 8, 8⟩]⟩

theorem sixteen_isUnit : IsUnit 4 4 1 1 sixteen := by
  refine ⟨rfl, rfl, fun c chroma valid => ?_⟩
  match c, chroma, valid with
  | 1, _, _ => exact ⟨rfl, rfl⟩
  | 2, _, _ => exact ⟨rfl, rfl⟩
  | _ + 3, _, valid => cases valid

theorem sixteen_sizes : Sizes 4 4 1 1 := by
  constructor <;> decide

theorem transformUnits_tile_sixteen :
    ∃ units, transform_tree (ispOnly 32 false sixteen .TU_1D_HORZ_SPLIT) 2 0 sixteen = .ok units ∧
      units.length = 4 ∧ Tiles sixteen.Y (units.map (·.Y)) := by
  obtain ⟨-, rows, -⟩ := transformUnits_tile sixteen 4 4 1 1 5 0 false sixteen_isUnit sixteen_sizes (.inl rfl)
  obtain ⟨units, run, holds⟩ := rows .TU_1D_HORZ_SPLIT (.inl rfl) (by decide)
  have four : ∃ four, transform_tree (ispOnly 32 false sixteen .TU_1D_HORZ_SPLIT) 2 0 sixteen = .ok four ∧
      four.length = 4 := ⟨_, rfl, rfl⟩
  obtain ⟨four, run', length⟩ := four
  obtain rfl := Except.ok.inj (run.symm.trans run')
  exact ⟨_, run, length, holds.luma⟩

/-- The part of a quarter split without residual has twelve columns. -/
theorem sbt_no_transform :
    ¬ ∀ (area : UnitArea) (a b sx sy m : Nat) (isDualTree : Bool) (split : PartSplit) (fuel : Nat)
      (units : List UnitArea), IsUnit a b sx sy area → Sizes a b sx sy → (m = 5 ∨ m = 6) →
      split.isSbt = true → allowedSbt area.Y.width area.Y.height (2 ^ m) split = true →
      transform_tree (sbtOnly (2 ^ m) isDualTree area split) (fuel + 2) 0 area = .ok units →
      ∀ u ∈ units, ∀ c, (u.comp c).valid = true → HasTransform (u.comp c) := by
  intro always
  have run : ∃ first second, transform_tree (sbtOnly 32 false sixteen .SBT_VER_QUAD_POS0_SPLIT) 2 0 sixteen =
      .ok [first, second] ∧ second.comp 0 = ⟨⟨4, 0⟩, 12, 16⟩ := ⟨_, _, rfl, by decide⟩
  obtain ⟨first, second, units, twelve⟩ := run
  have transform := always sixteen 4 4 1 1 5 false .SBT_VER_QUAD_POS0_SPLIT 0 [first, second]
    sixteen_isUnit sixteen_sizes (.inl rfl) rfl (by decide) units second (by simp) 0
    (by rw [twelve]; decide)
  rw [twelve] at transform
  exact absurd transform (by decide)

end Vtm.TransformTree
