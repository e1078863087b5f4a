import Vtm.Std.Bits
import Vtm.Std.Enumerate
import Mathlib.Data.Finset.Prod

/-!
# Scan orders

`ScanGenerator` walks over a block and `g_scanOrder` tabulates its walks. The
traverse scans go along the lines, every other line backwards. The diagonal scan
goes along the anti-diagonals, and the grouped scan diagonally through groups and
inside each group: a position never comes before one that is above or left of it.
-/

namespace Vtm

open Vtm.Std

inductive CoeffScanType where
  | SCAN_DIAG
  | SCAN_TRAV_HOR
  | SCAN_TRAV_VER
deriving DecidableEq, Repr

/-- The position of a `ScanGenerator`. -/
@[ext] structure ScanGenerator where
  line : Nat
  column : Nat
deriving DecidableEq, Repr

/-- `ScanElement`, without the raster index. -/
@[ext] structure ScanElement where
  x : Nat
  y : Nat
deriving DecidableEq, Repr

namespace ScanGenerator

/-- The step of `GetNextIndex` to the next position. -/
def next (scanType : CoeffScanType) (blockWidth blockHeight : Nat) (g : ScanGenerator) :
    ScanGenerator :=
  match scanType with
  | .SCAN_DIAG =>
      if g.column = blockWidth - 1 ∨ g.line = 0 then
        -- the end of a rank: on to the next one, inside the block
        let line := g.line + g.column + 1
        if line ≥ blockHeight then ⟨blockHeight - 1, line - (blockHeight - 1)⟩ else ⟨line, 0⟩
      else ⟨g.line - 1, g.column + 1⟩
  | .SCAN_TRAV_HOR =>
      if g.line % 2 = 0 then
        if g.column = blockWidth - 1 then ⟨g.line + 1, blockWidth - 1⟩
        else ⟨g.line, g.column + 1⟩
      else if g.column = 0 then ⟨g.line + 1, 0⟩
      else ⟨g.line, g.column - 1⟩
  | .SCAN_TRAV_VER =>
      if g.column % 2 = 0 then
        if g.line = blockHeight - 1 then ⟨blockHeight - 1, g.column + 1⟩
        else ⟨g.line + 1, g.column⟩
      else if g.line = 0 then ⟨0, g.column + 1⟩
      else ⟨g.line - 1, g.column⟩

/-- The position after `count` calls of `GetNextIndex`. -/
@[grind =] def after (scanType : CoeffScanType) (blockWidth blockHeight : Nat) : Nat → ScanGenerator
  | 0 => ⟨0, 0⟩
  | count + 1 => (after scanType blockWidth blockHeight count).next scanType blockWidth blockHeight

end ScanGenerator

/-- `g_scanOrder[SCAN_UNGROUPED]`: the raster index of a position, taken apart
again. -/
def scanOrder (scanType : CoeffScanType) (blockWidth blockHeight scanPosition : Nat) :
    ScanElement :=
  let g := ScanGenerator.after scanType blockWidth blockHeight scanPosition
  let rasterPos := g.line * blockWidth + g.column
  let posY := rasterPos / blockWidth
  ⟨rasterPos - posY * blockWidth, posY⟩

theorem scanOrder_eq {scanType : CoeffScanType} {blockWidth blockHeight scanPosition : Nat}
    {g : ScanGenerator}
    (position : ScanGenerator.after scanType blockWidth blockHeight scanPosition = g)
    (inside : g.column < blockWidth) :
    scanOrder scanType blockWidth blockHeight scanPosition = ⟨g.column, g.line⟩ := by
  have row : (g.line * blockWidth + g.column) / blockWidth = g.line := by
    rw [Nat.mul_comm, Nat.mul_add_div (Nat.zero_lt_of_lt inside), Nat.div_eq_of_lt inside,
      Nat.add_zero]
  simp only [scanOrder, position, row, Nat.add_sub_cancel_left]

/-- `JVET_C0024_ZERO_OUT_TH`. -/
def ZERO_OUT_TH : Nat := 32

/-- `g_scanOrder[SCAN_GROUPED_4x4][SCAN_DIAG]` for groups of the given binary
logarithms. Beyond the groups that are not zeroed out, the table holds the last
sample of the block. -/
def scanGrouped (log2CGWidth log2CGHeight blockWidth blockHeight scanPosition : Nat) :
    ScanElement :=
  let widthInGroups := min ZERO_OUT_TH blockWidth >>> log2CGWidth
  let heightInGroups := min ZERO_OUT_TH blockHeight >>> log2CGHeight
  let groupSize := 1 <<< log2CGWidth * 1 <<< log2CGHeight
  if scanPosition < widthInGroups * heightInGroups * groupSize then
    let group := ScanGenerator.after .SCAN_DIAG widthInGroups heightInGroups
      (scanPosition / groupSize)
    let inner := ScanGenerator.after .SCAN_DIAG (1 <<< log2CGWidth) (1 <<< log2CGHeight)
      (scanPosition % groupSize)
    let groupOffsetX := group.column * 1 <<< log2CGWidth
    let groupOffsetY := group.line * 1 <<< log2CGHeight
    let rasterPos := (inner.line + groupOffsetY) * blockWidth + inner.column + groupOffsetX
    let posY := rasterPos / blockWidth
    ⟨rasterPos - posY * blockWidth, posY⟩
  else ⟨blockWidth - 1, blockHeight - 1⟩

/-- A position along a line of `length`, on the way forth or back. -/
@[grind =] def foldback (length line offset : Nat) : Nat :=
  if line % 2 = 0 then offset else length - 1 - offset

theorem foldback_lt {length line offset : Nat} (inside : offset < length) :
    foldback length line offset < length := by
  unfold foldback
  split <;> omega

theorem foldback_foldback {length line offset : Nat} (inside : offset < length) :
    foldback length line (foldback length line offset) = offset := by
  unfold foldback
  split <;> omega

namespace ScanGenerator

theorem next_travHor_inside {blockWidth offset : Nat} (line blockHeight : Nat)
    (inside : offset + 1 < blockWidth) :
    (ScanGenerator.mk line (foldback blockWidth line offset)).next .SCAN_TRAV_HOR blockWidth
      blockHeight = ⟨line, foldback blockWidth line (offset + 1)⟩ := by
  unfold next foldback
  by_cases even : line % 2 = 0
  · simp only [even, if_true]
    rw [if_neg (by omega)]
  · simp only [even, if_false]
    rw [if_neg (by omega)]
    simp only [mk.injEq, true_and]
    omega

theorem next_travHor_last {blockWidth offset : Nat} (line blockHeight : Nat)
    (last : offset + 1 = blockWidth) :
    (ScanGenerator.mk line (foldback blockWidth line offset)).next .SCAN_TRAV_HOR blockWidth
      blockHeight = ⟨line + 1, foldback blockWidth (line + 1) 0⟩ := by
  unfold next foldback
  by_cases even : line % 2 = 0
  · have odd : ¬ (line + 1) % 2 = 0 := by omega
    simp only [even, odd, if_true, if_false]
    rw [if_pos (by omega)]
    simp
  · have even' : (line + 1) % 2 = 0 := by omega
    simp only [even, even', if_true, if_false]
    rw [if_pos (by omega)]

/-- The horizontal traverse scan in closed form. -/
theorem after_travHor {blockWidth offset : Nat} (blockHeight line : Nat)
    (inside : offset < blockWidth) :
    after .SCAN_TRAV_HOR blockWidth blockHeight (line * blockWidth + offset) =
      ⟨line, foldback blockWidth line offset⟩ := by
  induction line generalizing offset with
  | zero =>
      induction offset with
      | zero => simp [after, foldback]
      | succ offset ih =>
          rw [← Nat.add_assoc, after, ih (by omega)]
          exact next_travHor_inside 0 blockHeight inside
  | succ line lines =>
      induction offset with
      | zero =>
          have before : (line + 1) * blockWidth + 0 = line * blockWidth + (blockWidth - 1) + 1 := by
            rw [Nat.succ_mul]
            omega
          rw [before, after, lines (by omega)]
          exact next_travHor_last line blockHeight (by omega)
      | succ offset ih =>
          rw [← Nat.add_assoc, after, ih (by omega)]
          exact next_travHor_inside (line + 1) blockHeight inside

/-- The vertical traverse scan is the horizontal one of the transposed block. -/
theorem after_travVer (blockWidth blockHeight count : Nat) :
    after .SCAN_TRAV_VER blockWidth blockHeight count =
      ⟨(after .SCAN_TRAV_HOR blockHeight blockWidth count).column,
        (after .SCAN_TRAV_HOR blockHeight blockWidth count).line⟩ := by
  induction count with
  | zero => rfl
  | succ count ih =>
      rw [after, ih, after]
      generalize after .SCAN_TRAV_HOR blockHeight blockWidth count = g
      simp only [next]
      by_cases even : g.line % 2 = 0
      · simp only [even, if_true]
        split <;> rfl
      · simp only [even, if_false]
        split <;> rfl

end ScanGenerator

theorem scanOrder_travHor {blockWidth offset : Nat} (blockHeight line : Nat)
    (inside : offset < blockWidth) :
    scanOrder .SCAN_TRAV_HOR blockWidth blockHeight (line * blockWidth + offset) =
      ⟨foldback blockWidth line offset, line⟩ :=
  scanOrder_eq (ScanGenerator.after_travHor blockHeight line inside) (foldback_lt inside)

theorem scanOrder_travVer {blockWidth blockHeight line offset : Nat} (inside : offset < blockHeight)
    (within : line < blockWidth) :
    scanOrder .SCAN_TRAV_VER blockWidth blockHeight (line * blockHeight + offset) =
      ⟨line, foldback blockHeight line offset⟩ := by
  have position := ScanGenerator.after_travVer blockWidth blockHeight (line * blockHeight + offset)
  rw [ScanGenerator.after_travHor blockWidth line inside] at position
  exact scanOrder_eq position within

section Diagonal

/-- Diagonal order: by anti-diagonals, then by columns. -/
def diagBefore (p q : ScanGenerator) : Prop :=
  p.line + p.column < q.line + q.column ∨
    (p.line + p.column = q.line + q.column ∧ p.column < q.column)

/-- The positions of a block. -/
def blockCells (blockWidth blockHeight : Nat) : Finset ScanGenerator :=
  (Finset.range blockHeight ×ˢ Finset.range blockWidth).map
    ⟨fun cell => ⟨cell.1, cell.2⟩, fun _ _ same =>
      Prod.ext (congrArg ScanGenerator.line same) (congrArg ScanGenerator.column same)⟩

theorem mem_blockCells {blockWidth blockHeight : Nat} {p : ScanGenerator} :
    p ∈ blockCells blockWidth blockHeight ↔ p.column < blockWidth ∧ p.line < blockHeight := by
  simp only [blockCells, Finset.mem_map, Finset.mem_product, Finset.mem_range,
    Prod.exists]
  constructor
  · rintro ⟨line, column, ⟨row, inside⟩, rfl⟩
    exact ⟨inside, row⟩
  · rintro ⟨inside, row⟩
    exact ⟨p.line, p.column, ⟨row, inside⟩, rfl⟩

theorem card_blockCells (blockWidth blockHeight : Nat) :
    (blockCells blockWidth blockHeight).card = blockWidth * blockHeight := by
  rw [blockCells, Finset.card_map, Finset.card_product, Finset.card_range, Finset.card_range,
    Nat.mul_comm]

theorem after_iterate (scanType : CoeffScanType) (blockWidth blockHeight count : Nat) :
    ScanGenerator.after scanType blockWidth blockHeight count =
      (ScanGenerator.next scanType blockWidth blockHeight)^[count] ⟨0, 0⟩ := by
  induction count with
  | zero => rfl
  | succ count ih => rw [Function.iterate_succ_apply', ← ih, ScanGenerator.after]

/-- The diagonal scan goes to the next larger position. -/
theorem diag_walk {blockWidth blockHeight : Nat} (width : 0 < blockWidth)
    (height : 0 < blockHeight) :
    Walk (blockCells blockWidth blockHeight) diagBefore ⟨0, 0⟩
      (ScanGenerator.next .SCAN_DIAG blockWidth blockHeight) where
  irrefl p := by
    unfold diagBefore
    omega
  trans p q r := by
    unfold diagBefore
    omega
  total p _ q _ := by
    have same : p = q ↔ p.line = q.line ∧ p.column = q.column := ScanGenerator.ext_iff
    rw [same]
    unfold diagBefore
    omega
  start_mem := mem_blockCells.mpr ⟨width, height⟩
  start_least q _ := by
    unfold diagBefore
    simp only
    omega
  step p mem more := by
    obtain ⟨q, memQ, larger⟩ := more
    rw [mem_blockCells] at mem memQ
    unfold diagBefore at larger
    unfold ScanGenerator.next
    simp only
    -- the next position lies in the block, and nothing lies between
    split_ifs <;>
    · refine ⟨mem_blockCells.mpr (by simp only; omega), fun r memR => ?_⟩
      rw [mem_blockCells] at memR
      have same : r = p ↔ r.line = p.line ∧ r.column = p.column := ScanGenerator.ext_iff
      rw [same]
      unfold diagBefore
      simp only
      omega

variable {blockWidth blockHeight : Nat}

theorem positive_of_lt {count : Nat} (inside : count < blockWidth * blockHeight) :
    0 < blockWidth ∧ 0 < blockHeight :=
  ⟨Nat.pos_of_mul_pos_right (Nat.zero_lt_of_lt inside),
    Nat.pos_of_mul_pos_left (Nat.zero_lt_of_lt inside)⟩

theorem after_diag_inside {count : Nat} (inside : count < blockWidth * blockHeight) :
    (ScanGenerator.after .SCAN_DIAG blockWidth blockHeight count).column < blockWidth ∧
      (ScanGenerator.after .SCAN_DIAG blockWidth blockHeight count).line < blockHeight := by
  obtain ⟨width, height⟩ := positive_of_lt inside
  rw [after_iterate, ← mem_blockCells]
  exact ((diag_walk width height).rank_iterate (by rwa [card_blockCells])).1

/-- A position above and left of another one does not come later. -/
theorem after_diag_mono {m n : Nat} (insideM : m < blockWidth * blockHeight)
    (column : (ScanGenerator.after .SCAN_DIAG blockWidth blockHeight m).column ≤
      (ScanGenerator.after .SCAN_DIAG blockWidth blockHeight n).column)
    (line : (ScanGenerator.after .SCAN_DIAG blockWidth blockHeight m).line ≤
      (ScanGenerator.after .SCAN_DIAG blockWidth blockHeight n).line) : m ≤ n := by
  obtain ⟨width, height⟩ := positive_of_lt insideM
  by_contra later
  have before := (diag_walk width height).iterate_before (by omega : n < m)
    (by rwa [card_blockCells])
  rw [← after_iterate, ← after_iterate] at before
  unfold diagBefore at before
  omega

theorem exists_after_diag {column line : Nat} (width : column < blockWidth)
    (height : line < blockHeight) :
    ∃ count < blockWidth * blockHeight,
      ScanGenerator.after .SCAN_DIAG blockWidth blockHeight count = ⟨line, column⟩ := by
  have walk := diag_walk (Nat.zero_lt_of_lt width) (Nat.zero_lt_of_lt height)
  obtain ⟨count, inside, position⟩ :=
    walk.exists_iterate (mem_blockCells.mpr ⟨width, height⟩ : (⟨line, column⟩ : ScanGenerator) ∈ _)
  rw [card_blockCells] at inside
  exact ⟨count, inside, by rw [after_iterate, position]⟩

end Diagonal

end Vtm
