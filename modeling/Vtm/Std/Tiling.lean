import Mathlib.Algebra.Order.Ring.Nat
import Mathlib.Data.Finset.Prod
import Mathlib.Data.List.GetD

/-!
# Tilings of a grid

A list of rectangles that covers a grid of `width × height` cells, in an order in
which no cell of a later rectangle lies above and to the left of the lower right
corner of an earlier one. A cell is then in the first rectangle whose lower right
corner it is above and to the left of, and going through the rectangles one after
the other, each row by row, enumerates the cells.
-/

namespace Vtm.Std

/-- Column and row of a cell from its place row by row. -/
theorem raster_mod {width x : Nat} (y : Nat) (hx : x < width) : (y * width + x) % width = x := by
  rw [Nat.mul_comm, Nat.mul_add_mod, Nat.mod_eq_of_lt hx]

theorem raster_div {width x : Nat} (y : Nat) (hx : x < width) : (y * width + x) / width = y := by
  rw [Nat.mul_comm, Nat.mul_add_div (Nat.zero_lt_of_lt hx), Nat.div_eq_of_lt hx, Nat.add_zero]

theorem raster_lt {width height x y : Nat} (hx : x < width) (hy : y < height) :
    y * width + x < width * height :=
  calc y * width + x < y * width + width := Nat.add_lt_add_left hx _
    _ = (y + 1) * width := by rw [Nat.add_mul, Nat.one_mul]
    _ ≤ height * width := Nat.mul_le_mul_right _ hy
    _ = width * height := Nat.mul_comm ..

theorem exists_raster {width height a : Nat} (inside : a < width * height) :
    ∃ x < width, ∃ y < height, a = y * width + x :=
  ⟨a % width, Nat.mod_lt a (Nat.pos_of_mul_pos_right (Nat.zero_lt_of_lt inside)), a / width,
    Nat.div_lt_of_lt_mul inside, (Nat.div_add_mod' a width).symm⟩

theorem raster_inj {width x y x' y' : Nat} (hx : x < width) (hx' : x' < width)
    (same : y * width + x = y' * width + x') : x = x' ∧ y = y' := by
  have column := congrArg (· % width) same
  have row := congrArg (· / width) same
  simp only [raster_mod _ hx, raster_mod _ hx', raster_div _ hx, raster_div _ hx'] at column row
  exact ⟨column, row⟩

/-- Where the `i`-th piece starts when pieces are laid side by side. -/
@[grind =] def startOf (sizes : List Nat) (i : Nat) : Nat := (sizes.take i).sum

@[simp] theorem startOf_zero (sizes : List Nat) : startOf sizes 0 = 0 := rfl

@[simp] theorem startOf_cons (size : Nat) (sizes : List Nat) (i : Nat) :
    startOf (size :: sizes) (i + 1) = size + startOf sizes i := by
  simp [startOf]

@[simp] theorem startOf_length (sizes : List Nat) : startOf sizes sizes.length = sizes.sum := by
  simp [startOf]

theorem startOf_succ (sizes : List Nat) (i : Nat) :
    startOf sizes (i + 1) = startOf sizes i + sizes.getD i 0 := by
  induction sizes generalizing i with
  | nil => simp [startOf]
  | cons size sizes ih =>
      cases i with
      | zero => simp
      | succ i =>
          rw [startOf_cons, startOf_cons, ih, List.getD_cons_succ]
          omega

theorem startOf_mono (sizes : List Nat) {i j : Nat} (le : i ≤ j) :
    startOf sizes i ≤ startOf sizes j := by
  induction sizes generalizing i j with
  | nil => simp [startOf]
  | cons size sizes ih =>
      cases i with
      | zero => exact Nat.zero_le _
      | succ i =>
          cases j with
          | zero => cases le
          | succ j =>
              rw [startOf_cons, startOf_cons]
              exact Nat.add_le_add_left (ih (Nat.le_of_succ_le_succ le)) _

theorem startOf_le_sum (sizes : List Nat) (i : Nat) : startOf sizes i ≤ sizes.sum := by
  rcases Nat.le_total i sizes.length with le | ge
  · rw [← startOf_length]
    exact startOf_mono sizes le
  · rw [startOf, List.take_of_length_le ge]

/-- A piece ends before a later one starts. -/
theorem end_le_startOf (sizes : List Nat) {i j : Nat} (lt : i < j) :
    startOf sizes i + sizes.getD i 0 ≤ startOf sizes j := by
  rw [← startOf_succ]
  exact startOf_mono sizes lt

theorem end_le_sum (sizes : List Nat) (i : Nat) :
    startOf sizes i + sizes.getD i 0 ≤ sizes.sum := by
  rw [← startOf_succ]
  exact startOf_le_sum sizes (i + 1)

/-- Every place is in a piece. -/
theorem exists_startOf (sizes : List Nat) {a : Nat} (inside : a < sizes.sum) :
    ∃ i < sizes.length, startOf sizes i ≤ a ∧ a < startOf sizes i + sizes.getD i 0 := by
  induction sizes generalizing a with
  | nil => cases inside
  | cons size sizes ih =>
      by_cases first : a < size
      · exact ⟨0, Nat.succ_pos _, Nat.zero_le a, by simpa using first⟩
      · rw [List.sum_cons] at inside
        obtain ⟨i, h, above, below⟩ := ih (a := a - size) (by omega)
        refine ⟨i + 1, Nat.succ_lt_succ h, ?_⟩
        rw [startOf_cons, List.getD_cons_succ]
        omega

/-- A place is in one piece only. -/
theorem startOf_inj (sizes : List Nat) {i j a : Nat} (above : startOf sizes i ≤ a)
    (below : a < startOf sizes i + sizes.getD i 0) (above' : startOf sizes j ≤ a)
    (below' : a < startOf sizes j + sizes.getD j 0) : i = j := by
  rcases Nat.lt_trichotomy i j with lt | same | gt
  · have apart := end_le_startOf sizes lt
    omega
  · exact same
  · have apart := end_le_startOf sizes gt
    omega

/-- The loop that adds up sizes to starts. -/
def bounds : Nat → List Nat → List Nat
  | _, [] => []
  | start, size :: sizes => start :: bounds (start + size) sizes

@[simp] theorem length_bounds (start : Nat) (sizes : List Nat) :
    (bounds start sizes).length = sizes.length := by
  induction sizes generalizing start with
  | nil => rfl
  | cons size sizes ih => simp [bounds, ih]

theorem getElem_bounds (start : Nat) (sizes : List Nat) {i : Nat}
    (inside : i < (bounds start sizes).length) :
    (bounds start sizes)[i] = start + startOf sizes i := by
  induction sizes generalizing start i with
  | nil => cases inside
  | cons size sizes ih =>
      cases i with
      | zero => rfl
      | succ i =>
          rw [startOf_cons, ← Nat.add_assoc]
          exact ih (start + size) (Nat.lt_of_succ_lt_succ inside)

/-- A rectangle of cells. -/
structure Rect where
  left : Nat
  top : Nat
  width : Nat
  height : Nat
deriving DecidableEq, Repr

namespace Rect

/-- The first column behind a rectangle. -/
def right (r : Rect) : Nat := r.left + r.width

/-- The first row below a rectangle. -/
def bottom (r : Rect) : Nat := r.top + r.height

/-- The number of cells. -/
def area (r : Rect) : Nat := r.height * r.width

/-- Cell `(x, y)` is in the rectangle. -/
def Contains (r : Rect) (x y : Nat) : Prop :=
  (r.left ≤ x ∧ x < r.right) ∧ (r.top ≤ y ∧ y < r.bottom)

instance (r : Rect) (x y : Nat) : Decidable (r.Contains x y) :=
  inferInstanceAs (Decidable (_ ∧ _))

/-- The corner test: no lower bound is looked at. -/
def Reaches (r : Rect) (x y : Nat) : Prop := x < r.right ∧ y < r.bottom

instance (r : Rect) (x y : Nat) : Decidable (r.Reaches x y) :=
  inferInstanceAs (Decidable (_ ∧ _))

/-- Every cell of the later rectangle is behind or below the earlier one. -/
def Before (earlier later : Rect) : Prop :=
  earlier.right ≤ later.left ∨ earlier.bottom ≤ later.top

theorem Contains.reaches {r : Rect} {x y : Nat} (inside : r.Contains x y) : r.Reaches x y :=
  ⟨inside.1.2, inside.2.2⟩

theorem Before.not_reaches {earlier later : Rect} (before : earlier.Before later) {x y : Nat}
    (inside : later.Contains x y) : ¬ earlier.Reaches x y := by
  rintro ⟨column, row⟩
  rcases before with behind | below
  · exact absurd (lt_of_lt_of_le column behind) (not_lt.mpr inside.1.1)
  · exact absurd (lt_of_lt_of_le row below) (not_lt.mpr inside.2.1)

/-- The place of a cell in its rectangle, row by row. -/
def offset (r : Rect) (x y : Nat) : Nat := (y - r.top) * r.width + (x - r.left)

theorem offset_succ (r : Rect) (x : Nat) {y : Nat} (below : r.top ≤ y) :
    r.offset x (y + 1) = r.offset x y + r.width := by
  rw [offset, offset, Nat.succ_sub below, Nat.succ_mul]
  omega

theorem Contains.offset_lt {r : Rect} {x y : Nat} (inside : r.Contains x y) :
    r.offset x y < r.area := by
  obtain ⟨⟨left, right⟩, top, bottom⟩ := inside
  unfold Rect.right at right
  unfold Rect.bottom at bottom
  calc r.offset x y < (y - r.top) * r.width + r.width := by
        unfold offset
        omega
    _ = (y - r.top + 1) * r.width := by rw [Nat.add_mul, Nat.one_mul]
    _ ≤ r.height * r.width := Nat.mul_le_mul_right _ (by omega)

/-- The cell at a place. -/
theorem contains_of_offset (r : Rect) {o : Nat} (inside : o < r.area) :
    r.Contains (r.left + o % r.width) (r.top + o / r.width) ∧
      r.offset (r.left + o % r.width) (r.top + o / r.width) = o := by
  have positive : 0 < r.width := by
    rcases Nat.eq_zero_or_pos r.width with none | some
    · rw [area, none] at inside
      exact absurd inside (Nat.not_lt_zero o)
    · exact some
  have column : o % r.width < r.width := Nat.mod_lt o positive
  have row : o / r.width < r.height := (Nat.div_lt_iff_lt_mul positive).mpr inside
  refine ⟨⟨⟨Nat.le_add_right .., ?_⟩, Nat.le_add_right .., ?_⟩, ?_⟩
  · exact Nat.add_lt_add_left column _
  · exact Nat.add_lt_add_left row _
  · rw [offset, Nat.add_sub_cancel_left, Nat.add_sub_cancel_left, Nat.mul_comm]
    exact Nat.div_add_mod o r.width

/-- A cell is at the place it is found at. -/
theorem Contains.of_offset {r : Rect} {x y : Nat} (inside : r.Contains x y) :
    r.left + r.offset x y % r.width = x ∧ r.top + r.offset x y / r.width = y := by
  obtain ⟨⟨left, right⟩, top, bottom⟩ := inside
  unfold Rect.right at right
  have small : x - r.left < r.width := by omega
  have quotient : r.offset x y / r.width = y - r.top := by
    rw [offset, raster_div _ small]
  have remainder : r.offset x y % r.width = x - r.left := by
    rw [offset, raster_mod _ small]
  omega

/-- The last cell of a rectangle. -/
theorem Contains.last_iff {r : Rect} {x y : Nat} (inside : r.Contains x y) :
    r.offset x y + 1 = r.area ↔ x + 1 = r.right ∧ y + 1 = r.bottom := by
  obtain ⟨⟨left, right⟩, top, bottom⟩ := inside
  unfold Rect.right at right ⊢
  unfold Rect.bottom at bottom ⊢
  obtain ⟨rows, hrows⟩ : ∃ rows, r.height = rows + 1 := ⟨r.height - 1, by omega⟩
  have area : r.area = rows * r.width + r.width := by
    rw [Rect.area, hrows, Nat.add_mul, Nat.one_mul]
  rw [area, offset]
  constructor
  · intro last
    by_cases above : y - r.top < rows
    · have fits : (y - r.top + 1) * r.width ≤ rows * r.width := Nat.mul_le_mul_right _ above
      rw [Nat.add_mul, Nat.one_mul] at fits
      omega
    · have row : y - r.top = rows := by omega
      rw [row] at last
      omega
  · rintro ⟨column, row⟩
    have row : y - r.top = rows := by omega
    rw [row]
    omega

end Rect

/-- The cells before the `k`-th rectangle. -/
def cellsBefore (rects : List Rect) (k : Nat) : Nat := startOf (rects.map Rect.area) k

theorem cellsBefore_succ {rects : List Rect} {k : Nat} (hk : k < rects.length) :
    cellsBefore rects (k + 1) = cellsBefore rects k + rects[k].area := by
  rw [cellsBefore, cellsBefore, startOf_succ, List.getD_eq_getElem _ _ (by simpa using hk),
    List.getElem_map]

/-- The search for the rectangle of a cell: the last one is not tested. -/
def findRect (rects : List Rect) (x y : Nat) : Nat :=
  (rects.dropLast.findIdx? fun r => decide (r.Reaches x y)).getD (rects.length - 1)

/-- The place of a cell among all cells. -/
def scanPlace (rects : List Rect) (x y : Nat) : Nat :=
  cellsBefore rects (findRect rects x y) +
    (rects.getD (findRect rects x y) ⟨0, 0, 0, 0⟩).offset x y

/-- The rectangles cover the grid in scan order. -/
structure Tiling (width height : Nat) (rects : List Rect) : Prop where
  before : rects.Pairwise Rect.Before
  within : ∀ r ∈ rects, r.right ≤ width ∧ r.bottom ≤ height
  cover : ∀ x < width, ∀ y < height, ∃ r ∈ rects, r.Contains x y

namespace Tiling

variable {width height : Nat} {rects : List Rect} (tiling : Tiling width height rects)
include tiling

theorem not_reaches {j k : Nat} (lt : j < k) (hj : j < rects.length) (hk : k < rects.length)
    {x y : Nat} (inside : rects[k].Contains x y) : ¬ rects[j].Reaches x y :=
  (List.pairwise_iff_getElem.mp tiling.before j k hj hk lt).not_reaches inside

/-- The rectangles are disjoint. -/
theorem unique {j k : Nat} (hj : j < rects.length) (hk : k < rects.length) {x y : Nat}
    (inside : rects[j].Contains x y) (inside' : rects[k].Contains x y) : j = k := by
  rcases Nat.lt_trichotomy j k with lt | same | gt
  · exact absurd inside.reaches (tiling.not_reaches lt hj hk inside')
  · exact same
  · exact absurd inside'.reaches (tiling.not_reaches gt hk hj inside)

theorem exists_index {x y : Nat} (hx : x < width) (hy : y < height) :
    ∃ k, ∃ h : k < rects.length, rects[k].Contains x y := by
  obtain ⟨r, member, inside⟩ := tiling.cover x hx y hy
  obtain ⟨k, h, rfl⟩ := List.getElem_of_mem member
  exact ⟨k, h, inside⟩

/-- The search ends at the rectangle of the cell. -/
theorem findRect_eq {k : Nat} (hk : k < rects.length) {x y : Nat}
    (inside : rects[k].Contains x y) : findRect rects x y = k := by
  rw [findRect]
  by_cases last : k = rects.length - 1
  · have missed : rects.dropLast.findIdx? (fun r => decide (r.Reaches x y)) = none := by
      rw [List.findIdx?_eq_none_iff]
      intro r member
      obtain ⟨j, hj, rfl⟩ := List.getElem_of_mem member
      have earlier : j < k := by
        rw [List.length_dropLast] at hj
        omega
      rw [List.getElem_dropLast, decide_eq_false_iff_not]
      exact tiling.not_reaches earlier _ hk inside
    rw [missed]
    exact last.symm
  · have found : rects.dropLast.findIdx? (fun r => decide (r.Reaches x y)) = some k := by
      rw [List.findIdx?_eq_some_iff_getElem]
      refine ⟨by rw [List.length_dropLast]; omega, ?_, ?_⟩
      · rw [List.getElem_dropLast, decide_eq_true_eq]
        exact inside.reaches
      · intro j earlier
        rw [List.getElem_dropLast, decide_eq_true_eq]
        exact tiling.not_reaches earlier _ hk inside
    rw [found]
    rfl

theorem scanPlace_eq {k : Nat} (hk : k < rects.length) {x y : Nat}
    (inside : rects[k].Contains x y) :
    scanPlace rects x y = cellsBefore rects k + rects[k].offset x y := by
  rw [scanPlace, tiling.findRect_eq hk inside, List.getD_eq_getElem?_getD,
    List.getElem?_eq_getElem hk, Option.getD_some]

/-- The places of a rectangle. -/
theorem scanPlace_range {k : Nat} (hk : k < rects.length) {x y : Nat}
    (inside : rects[k].Contains x y) :
    cellsBefore rects k ≤ scanPlace rects x y ∧ scanPlace rects x y < cellsBefore rects (k + 1) := by
  have small := inside.offset_lt
  rw [tiling.scanPlace_eq hk inside, cellsBefore_succ hk]
  omega

theorem scanPlace_lt {x y : Nat} (hx : x < width) (hy : y < height) :
    scanPlace rects x y < (rects.map Rect.area).sum := by
  obtain ⟨k, hk, inside⟩ := tiling.exists_index hx hy
  exact lt_of_lt_of_le (tiling.scanPlace_range hk inside).2 (startOf_le_sum _ _)

/-- Cells at the same place are the same. -/
theorem scanPlace_inj {x y x' y' : Nat} (hx : x < width) (hy : y < height) (hx' : x' < width)
    (hy' : y' < height) (same : scanPlace rects x y = scanPlace rects x' y') :
    x = x' ∧ y = y' := by
  obtain ⟨k, hk, inside⟩ := tiling.exists_index hx hy
  obtain ⟨k', hk', inside'⟩ := tiling.exists_index hx' hy'
  have range := tiling.scanPlace_range hk inside
  have range' := tiling.scanPlace_range hk' inside'
  rw [← same] at range'
  have samePiece : k = k' := by
    apply startOf_inj (rects.map Rect.area) range.1 _ range'.1
    · rw [← startOf_succ]
      exact range'.2
    · rw [← startOf_succ]
      exact range.2
  subst samePiece
  rw [tiling.scanPlace_eq hk inside, tiling.scanPlace_eq hk inside'] at same
  have same := Nat.add_left_cancel same
  obtain ⟨column, row⟩ := inside.of_offset
  obtain ⟨column', row'⟩ := inside'.of_offset
  rw [same] at column row
  exact ⟨column.symm.trans column', row.symm.trans row'⟩

/-- The cell at a place of a rectangle is in the grid. -/
theorem cell_lt {k : Nat} (hk : k < rects.length) {x y : Nat} (inside : rects[k].Contains x y) :
    x < width ∧ y < height := by
  obtain ⟨right, bottom⟩ := tiling.within _ (List.getElem_mem hk)
  exact ⟨lt_of_lt_of_le inside.1.2 right, lt_of_lt_of_le inside.2.2 bottom⟩

/-- The cell at place `o` of rectangle `k`. -/
theorem scanPlace_cell {k : Nat} (hk : k < rects.length) {o : Nat} (small : o < rects[k].area) :
    scanPlace rects (rects[k].left + o % rects[k].width) (rects[k].top + o / rects[k].width) =
      cellsBefore rects k + o := by
  obtain ⟨inside, place⟩ := rects[k].contains_of_offset small
  rw [tiling.scanPlace_eq hk inside, place]

/-- Every place has a cell. -/
theorem exists_scanPlace {a : Nat} (inside : a < (rects.map Rect.area).sum) :
    ∃ x y, x < width ∧ y < height ∧ scanPlace rects x y = a := by
  obtain ⟨k, hk, above, below⟩ := exists_startOf (rects.map Rect.area) inside
  rw [List.getD_eq_getElem _ _ hk, List.getElem_map] at below
  rw [List.length_map] at hk
  have small : a - startOf (rects.map Rect.area) k < rects[k].area := by omega
  obtain ⟨hx, hy⟩ := tiling.cell_lt hk (rects[k].contains_of_offset small).1
  refine ⟨_, _, hx, hy, ?_⟩
  rw [tiling.scanPlace_cell hk small, cellsBefore]
  omega

/-- The rectangles have as many cells as the grid. -/
theorem sum_area : (rects.map Rect.area).sum = width * height := by
  have cells : (Finset.range width ×ˢ Finset.range height).card =
      (Finset.range (rects.map Rect.area).sum).card := by
    refine Finset.card_nbij (fun cell => scanPlace rects cell.1 cell.2) ?_ ?_ ?_
    · rintro ⟨x, y⟩ member
      obtain ⟨hx, hy⟩ := Finset.mem_product.mp member
      exact Finset.mem_range.mpr
        (tiling.scanPlace_lt (Finset.mem_range.mp hx) (Finset.mem_range.mp hy))
    · rintro ⟨x, y⟩ member ⟨x', y'⟩ member' same
      obtain ⟨hx, hy⟩ := Finset.mem_product.mp member
      obtain ⟨hx', hy'⟩ := Finset.mem_product.mp member'
      obtain ⟨rfl, rfl⟩ := tiling.scanPlace_inj (Finset.mem_range.mp hx) (Finset.mem_range.mp hy)
        (Finset.mem_range.mp hx') (Finset.mem_range.mp hy') same
      rfl
    · intro a inside
      obtain ⟨x, y, hx, hy, place⟩ := tiling.exists_scanPlace (Finset.mem_range.mp inside)
      exact ⟨(x, y), Finset.mem_product.mpr ⟨Finset.mem_range.mpr hx, Finset.mem_range.mpr hy⟩,
        place⟩
  rw [Finset.card_product, Finset.card_range, Finset.card_range, Finset.card_range] at cells
  exact cells.symm

end Tiling

section Table

variable (cols rows : List Nat) (pieces : Nat → Nat → List Nat)

/-- The pieces of cell `t` of a table of columns and rows, from top to bottom. -/
def cellRects (t : Nat) : List Rect :=
  let x := t % cols.length
  let y := t / cols.length
  let heights := pieces t (rows.getD y 0)
  (List.range heights.length).map fun j =>
    ⟨startOf cols x, startOf rows y + startOf heights j, cols.getD x 0, heights.getD j 0⟩

/-- The pieces of all cells of a table, row by row. -/
def tableRects : List Rect :=
  (List.range (cols.length * rows.length)).flatMap (cellRects cols rows pieces)

variable {cols rows pieces}

/-- The pieces of cell `t` fill it. -/
def Filled (cols rows : List Nat) (pieces : Nat → Nat → List Nat) : Prop :=
  ∀ t < cols.length * rows.length,
    (pieces t (rows.getD (t / cols.length) 0)).sum = rows.getD (t / cols.length) 0

/-- A piece has the columns of its cell, and rows of it. -/
theorem mem_cellRects (filled : Filled cols rows pieces) {t : Nat}
    (ht : t < cols.length * rows.length) {r : Rect} (member : r ∈ cellRects cols rows pieces t) :
    (r.left = startOf cols (t % cols.length) ∧
      r.right = startOf cols (t % cols.length) + cols.getD (t % cols.length) 0) ∧
    startOf rows (t / cols.length) ≤ r.top ∧
      r.bottom ≤ startOf rows (t / cols.length) + rows.getD (t / cols.length) 0 := by
  obtain ⟨j, _, rfl⟩ := List.mem_map.mp member
  have fits := end_le_sum (pieces t (rows.getD (t / cols.length) 0)) j
  rw [filled t ht] at fits
  refine ⟨⟨rfl, rfl⟩, Nat.le_add_right .., ?_⟩
  simp only [Rect.bottom]
  omega

/-- The pieces of a cell lie below each other. -/
theorem pairwise_cellRects (t : Nat) : (cellRects cols rows pieces t).Pairwise Rect.Before := by
  rw [cellRects, List.pairwise_map]
  refine List.pairwise_lt_range.imp ?_
  intro i j lt
  have apart := end_le_startOf (pieces t (rows.getD (t / cols.length) 0)) lt
  right
  simp only [Rect.bottom]
  omega

theorem pairwise_tableRects (filled : Filled cols rows pieces) :
    (tableRects cols rows pieces).Pairwise Rect.Before := by
  rw [tableRects, List.pairwise_flatMap]
  refine ⟨fun t _ => pairwise_cellRects t, List.pairwise_lt_range.imp_of_mem ?_⟩
  intro t t' ht ht' lt r member r' member'
  obtain ⟨⟨-, right⟩, -, bottom⟩ := mem_cellRects filled (List.mem_range.mp ht) member
  obtain ⟨⟨left, -⟩, top, -⟩ := mem_cellRects filled (List.mem_range.mp ht') member'
  rcases Nat.lt_or_ge (t / cols.length) (t' / cols.length) with below | same
  · have apart := end_le_startOf rows below
    right
    omega
  · have row : t / cols.length = t' / cols.length :=
      Nat.le_antisymm (Nat.div_le_div_right lt.le) same
    have column : t % cols.length < t' % cols.length := by
      have whole := Nat.div_add_mod t cols.length
      have whole' := Nat.div_add_mod t' cols.length
      rw [row] at whole
      omega
    have apart := end_le_startOf cols column
    left
    omega

theorem tiling_tableRects (filled : Filled cols rows pieces) :
    Tiling cols.sum rows.sum (tableRects cols rows pieces) where
  before := pairwise_tableRects filled
  within := by
    intro r member
    obtain ⟨t, ht, member⟩ := List.mem_flatMap.mp member
    obtain ⟨⟨-, right⟩, -, bottom⟩ := mem_cellRects filled (List.mem_range.mp ht) member
    have columns := end_le_sum cols (t % cols.length)
    have all := end_le_sum rows (t / cols.length)
    omega
  cover := by
    intro x hx y hy
    obtain ⟨i, hi, left, right⟩ := exists_startOf cols hx
    obtain ⟨k, hk, top, bottom⟩ := exists_startOf rows hy
    have column : (k * cols.length + i) % cols.length = i := raster_mod k hi
    have row : (k * cols.length + i) / cols.length = k := raster_div k hi
    have ht : k * cols.length + i < cols.length * rows.length := raster_lt hi hk
    have sum := filled _ ht
    rw [row] at sum
    obtain ⟨j, hj, above, below⟩ :=
      exists_startOf (pieces (k * cols.length + i) (rows.getD k 0)) (a := y - startOf rows k)
        (by omega)
    refine ⟨_, List.mem_flatMap.mpr ⟨_, List.mem_range.mpr ht, List.mem_map.mpr
      ⟨j, by rw [row]; exact List.mem_range.mpr hj, rfl⟩⟩, ?_⟩
    simp only [Rect.Contains, Rect.right, Rect.bottom, column, row]
    omega

/-- Two pieces have the same columns or lie side by side. -/
theorem tableRects_aligned (filled : Filled cols rows pieces) {r r' : Rect}
    (member : r ∈ tableRects cols rows pieces) (member' : r' ∈ tableRects cols rows pieces) :
    r.left = r'.left ∨ r.right ≤ r'.left ∨ r'.right ≤ r.left := by
  obtain ⟨t, ht, member⟩ := List.mem_flatMap.mp member
  obtain ⟨t', ht', member'⟩ := List.mem_flatMap.mp member'
  obtain ⟨⟨left, right⟩, -⟩ := mem_cellRects filled (List.mem_range.mp ht) member
  obtain ⟨⟨left', right'⟩, -⟩ := mem_cellRects filled (List.mem_range.mp ht') member'
  rcases Nat.lt_trichotomy (t % cols.length) (t' % cols.length) with lt | same | gt
  · have apart := end_le_startOf cols lt
    omega
  · rw [left, left', same]
    exact Or.inl rfl
  · have apart := end_le_startOf cols gt
    omega

end Table
end Vtm.Std
