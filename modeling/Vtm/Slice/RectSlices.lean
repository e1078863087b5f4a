import Vtm.Slice.BrickScan

/-!
# Rectangular slices

The sweeps of `BrickMap::create` give each brick to the slice it is in exactly when
no brick of a slice starts below the slice's bottom right brick.
-/

namespace Vtm

open Vtm.Std

/-- Rectangular slices of whole bricks in an order in which the left and top
neighbours of a slice come first, with the bottom right brick of each. -/
structure RectSlices (bricks : List Brick) (width height : Nat) (rects : List Rect)
    (bottomRight : List Int) : Prop where
  positive : ∀ r ∈ rects, 0 < r.width ∧ 0 < r.height
  within : ∀ r ∈ rects, r.right ≤ width ∧ r.bottom ≤ height
  disjoint : ∀ i k x y, (hi : i < rects.length) → (hk : k < rects.length) →
    rects[i].Contains x y → rects[k].Contains x y → i = k
  cover : ∀ x < width, ∀ y < height, ∃ r ∈ rects, r.Contains x y
  whole : ∀ r ∈ rects, ∀ brick ∈ bricks, ∀ x y x' y', r.Contains x y →
    brick.rect.Contains x y → brick.rect.Contains x' y' → r.Contains x' y'
  leftFirst : ∀ i k x y, (hi : i < rects.length) → (hk : k < rects.length) →
    rects[k].Contains x y → rects[i].Contains (x + 1) y → k ≤ i
  topFirst : ∀ i k x y, (hi : i < rects.length) → (hk : k < rects.length) →
    rects[k].Contains x y → rects[i].Contains x (y + 1) → k ≤ i
  length : bottomRight.length = rects.length
  corner : ∀ i, (hi : i < rects.length) → ∃ k, ∃ hk : k < bricks.length,
    bottomRight[i]? = some (k : Int) ∧
      bricks[k].rect.Contains (rects[i].right - 1) (rects[i].bottom - 1)

/-- Brick `j` is in slice `i`. -/
def InSlice (bricks : List Brick) (rects : List Rect) (j i : Nat) : Prop :=
  ∃ hj : j < bricks.length, ∃ hi : i < rects.length,
    rects[i].Contains bricks[j].colBd bricks[j].rowBd

/-- Each brick has its slice, and each slice its top left brick. -/
structure SliceMap.Assigns (map : SliceMap) (bricks : List Brick) (rects : List Rect) : Prop where
  slice : ∀ j i, InSlice bricks rects j i → map.bricksToSliceMap j = some i
  topLeft : ∀ i, (hi : i < rects.length) → ∃ hk : map.topLeftBrickIdx i < bricks.length,
    bricks[map.topLeftBrickIdx i].rect.Contains rects[i].left rects[i].top

/-- No brick of a slice starts below the slice's bottom right brick. -/
def LevelCorners (bricks : List Brick) (rects : List Rect) (bottomRight : List Int) : Prop :=
  ∀ j i, InSlice bricks rects j i → ∀ br, bottomRight[i]? = some br →
    (bricks.getD j default).rowBd ≤ (bricks.getD br.toNat default).rowBd

section Sweep

variable (bricks : List Brick) (i bottomRight : Nat)

/-- Brick `j` is taken by the sweep for a slice. -/
def Taken (map : SliceMap) (j : Nat) : Prop :=
  (bricks.getD j default).colBd ≤ (bricks.getD bottomRight default).colBd ∧
    (bricks.getD j default).rowBd ≤ (bricks.getD bottomRight default).rowBd ∧
    map.bricksToSliceMap j = none

variable {bricks i bottomRight}

theorem sweepStep_of_taken {map : SliceMap} {j : Nat} (taken : Taken bricks bottomRight map j) :
    sweepStep bricks i bottomRight map j =
      { bricksToSliceMap := Function.update map.bricksToSliceMap j (some i)
        topLeftBrickIdx := Function.update map.topLeftBrickIdx i j } := if_pos taken

theorem sweepStep_of_not {map : SliceMap} {j : Nat} (left : ¬ Taken bricks bottomRight map j) :
    sweepStep bricks i bottomRight map j = map := if_neg left

/-- A round only touches its own brick. -/
theorem sweepStep_bricksToSliceMap {map : SliceMap} {j n : Nat} (apart : j ≠ n) :
    (sweepStep bricks i bottomRight map n).bricksToSliceMap j = map.bricksToSliceMap j := by
  by_cases taken : Taken bricks bottomRight map n
  · rw [sweepStep_of_taken taken]
    exact Function.update_of_ne apart _ _
  · rw [sweepStep_of_not taken]

theorem taken_sweepStep {map : SliceMap} {j n : Nat} (apart : j ≠ n) :
    Taken bricks bottomRight (sweepStep bricks i bottomRight map n) j ↔
      Taken bricks bottomRight map j := by
  rw [Taken, Taken, sweepStep_bricksToSliceMap apart]

theorem sweep_succ (n : Nat) (map : SliceMap) :
    (List.range (n + 1)).reverse.foldl (sweepStep bricks i bottomRight) map =
      (List.range n).reverse.foldl (sweepStep bricks i bottomRight)
        (sweepStep bricks i bottomRight map n) := by
  simp [List.range_succ]

/-- A sweep that takes nothing changes nothing. -/
theorem sweep_of_not (n : Nat) {map : SliceMap}
    (none : ∀ j < n, ¬ Taken bricks bottomRight map j) :
    (List.range n).reverse.foldl (sweepStep bricks i bottomRight) map = map := by
  induction n with
  | zero => rfl
  | succ n ih =>
      rw [sweep_succ, sweepStep_of_not (none n (Nat.lt_succ_self n))]
      exact ih fun j lt => none j (Nat.lt_succ_of_lt lt)

/-- What a sweep over the bricks before `n` leaves: the bricks it takes have the slice, the
others what they had, and the slice's top left brick is the first that is taken. -/
structure Swept (bricks : List Brick) (i bottomRight n : Nat) (map swept : SliceMap) : Prop where
  taken : ∀ j < n, Taken bricks bottomRight map j → swept.bricksToSliceMap j = some i
  left : ∀ j, (j < n → ¬ Taken bricks bottomRight map j) →
    swept.bricksToSliceMap j = map.bricksToSliceMap j
  first : ∀ j < n, Taken bricks bottomRight map j →
    (∀ k < j, ¬ Taken bricks bottomRight map k) → swept.topLeftBrickIdx i = j
  others : ∀ k ≠ i, swept.topLeftBrickIdx k = map.topLeftBrickIdx k

theorem swept_foldl (n : Nat) (map : SliceMap) :
    Swept bricks i bottomRight n map
      ((List.range n).reverse.foldl (sweepStep bricks i bottomRight) map) := by
  induction n generalizing map with
  | zero =>
      exact ⟨fun j lt => absurd lt (Nat.not_lt_zero j), fun _ _ => rfl,
        fun j lt => absurd lt (Nat.not_lt_zero j), fun _ _ => rfl⟩
  | succ n ih =>
      rw [sweep_succ]
      have swept := ih (sweepStep bricks i bottomRight map n)
      constructor
      · intro j lt taken
        by_cases here : j = n
        · subst here
          rw [swept.left j fun wrong => absurd wrong (Nat.lt_irrefl j), sweepStep_of_taken taken]
          exact Function.update_self ..
        · exact swept.taken j (by omega) ((taken_sweepStep here).mpr taken)
      · intro j left
        by_cases here : j = n
        · subst here
          rw [swept.left j fun wrong => absurd wrong (Nat.lt_irrefl j),
            sweepStep_of_not (left (Nat.lt_succ_self j))]
        · rw [swept.left j fun lt taken =>
            left (Nat.lt_succ_of_lt lt) ((taken_sweepStep here).mp taken),
            sweepStep_bricksToSliceMap here]
      · intro j lt taken before
        by_cases here : j = n
        · subst here
          rw [sweep_of_not j fun k lt taken =>
            before k lt ((taken_sweepStep (Nat.ne_of_lt lt)).mp taken), sweepStep_of_taken taken]
          exact Function.update_self ..
        · refine swept.first j (by omega) ((taken_sweepStep here).mpr taken) ?_
          intro k earlier taken
          exact before k earlier ((taken_sweepStep (by omega)).mp taken)
      · intro k apart
        rw [swept.others k apart]
        by_cases taken : Taken bricks bottomRight map n
        · rw [sweepStep_of_taken taken]
          exact Function.update_of_ne apart _ _
        · rw [sweepStep_of_not taken]

/-- The sweep for a slice whose bottom right brick is `bottomRight`. -/
theorem swept_sweep (map : SliceMap) :
    Swept bricks i bottomRight (bottomRight + 1) map (sweep bricks i bottomRight map) := by
  have rounds : ((bottomRight : Int) + 1).toNat = bottomRight + 1 := by omega
  rw [sweep, rounds, Int.toNat_natCast]
  exact swept_foldl (bottomRight + 1) map

end Sweep

/-- The bricks of a picture: they tile it, none is empty, and two of them have the same
columns or lie side by side. -/
structure BrickGrid (bricks : List Brick) (width height : Nat) : Prop where
  tiling : Tiling width height (bricks.map Brick.rect)
  positive : ∀ brick ∈ bricks, 0 < brick.widthInCtus ∧ 0 < brick.heightInCtus
  aligned : ∀ brick ∈ bricks, ∀ other ∈ bricks, brick.colBd = other.colBd ∨
    brick.rect.right ≤ other.colBd ∨ other.rect.right ≤ brick.colBd

theorem ValidTiles.grid {sps : SPS} {pps : PPS} (valid : ValidTiles sps pps) :
    BrickGrid (pps.bricks sps) (pps.picWidthInCtus sps) (pps.picHeightInCtus sps) where
  tiling := valid.tiling
  positive _ member := valid.brick_pos member
  aligned brick member other member' := by
    have listed := List.mem_map_of_mem (f := Brick.rect) member
    have listed' := List.mem_map_of_mem (f := Brick.rect) member'
    rw [valid.rects_eq] at listed listed'
    exact tableRects_aligned valid.filled listed listed'

section Sweeps

variable {bricks : List Brick} {width height : Nat} {rects : List Rect} {bottomRight : List Int}

/-- The slice of a CTU comes no later than that of a CTU behind and below it. -/
theorem RectSlices.mono (slices : RectSlices bricks width height rects bottomRight)
    {i k x y x' y' : Nat} (hi : i < rects.length) (hk : k < rects.length)
    (inside : rects[k].Contains x y) (inside' : rects[i].Contains x' y') (behind : x ≤ x')
    (below : y ≤ y') : k ≤ i := by
  obtain ⟨right, bottom⟩ := slices.within _ (List.getElem_mem hi)
  have hx' : x' < width := lt_of_lt_of_le inside'.1.2 right
  have hy' : y' < height := lt_of_lt_of_le inside'.2.2 bottom
  -- first to the right, then down
  have along {m : Nat} (hm : m < rects.length) (d : Nat) (x y : Nat)
      (inside : rects[m].Contains x y) (hx : x + d < width) (hy : y < height) :
      ∃ l, ∃ hl : l < rects.length, rects[l].Contains (x + d) y ∧ m ≤ l := by
    induction d with
    | zero => exact ⟨m, hm, inside, le_rfl⟩
    | succ d ih =>
        obtain ⟨l, hl, there, le⟩ := ih (by omega)
        obtain ⟨r, member, next⟩ := slices.cover (x + (d + 1)) hx y hy
        obtain ⟨l', hl', rfl⟩ := List.getElem_of_mem member
        exact ⟨l', hl', next, le.trans (slices.leftFirst l' l (x + d) y hl' hl there next)⟩
  have down {m : Nat} (hm : m < rects.length) (d : Nat) (x y : Nat)
      (inside : rects[m].Contains x y) (hx : x < width) (hy : y + d < height) :
      ∃ l, ∃ hl : l < rects.length, rects[l].Contains x (y + d) ∧ m ≤ l := by
    induction d with
    | zero => exact ⟨m, hm, inside, le_rfl⟩
    | succ d ih =>
        obtain ⟨l, hl, there, le⟩ := ih (by omega)
        obtain ⟨r, member, next⟩ := slices.cover x hx (y + (d + 1)) hy
        obtain ⟨l', hl', rfl⟩ := List.getElem_of_mem member
        exact ⟨l', hl', next, le.trans (slices.topFirst l' l x (y + d) hl' hl there next)⟩
  obtain ⟨m, hm, across, first⟩ := along hk (x' - x) x y inside (by omega) (by omega)
  rw [Nat.add_sub_cancel' behind] at across
  obtain ⟨l, hl, there, second⟩ := down hm (y' - y) x' y across hx' (by omega)
  rw [Nat.add_sub_cancel' below] at there
  have same := slices.disjoint l i x' y' hl hi there inside'
  exact same ▸ first.trans second

theorem BrickGrid.contains_first (grid : BrickGrid bricks width height) {j : Nat}
    (hj : j < bricks.length) : bricks[j].rect.Contains bricks[j].colBd bricks[j].rowBd := by
  obtain ⟨columns, rows⟩ := grid.positive _ (List.getElem_mem hj)
  exact ⟨⟨le_rfl, Nat.lt_add_of_pos_right columns⟩, le_rfl, Nat.lt_add_of_pos_right rows⟩

theorem BrickGrid.not_before (grid : BrickGrid bricks width height) {j k : Nat}
    (hj : j < bricks.length) (hk : k < bricks.length) (lt : j < k) {x y : Nat}
    (inside : bricks[k].rect.Contains x y) : ¬ bricks[j].rect.Reaches x y := by
  have apart := grid.tiling.not_reaches lt (by simpa using hj) (by simpa using hk) (x := x) (y := y)
  simp only [List.getElem_map] at apart
  exact apart inside

/-- A CTU of a brick is in the slice of the brick. -/
theorem RectSlices.inSlice_of_contains (grid : BrickGrid bricks width height)
    (slices : RectSlices bricks width height rects bottomRight) {i j x y : Nat}
    (hi : i < rects.length) (hj : j < bricks.length) (inside : bricks[j].rect.Contains x y)
    (inside' : rects[i].Contains x y) : InSlice bricks rects j i :=
  ⟨hj, hi, slices.whole _ (List.getElem_mem hi) _ (List.getElem_mem hj) x y _ _ inside' inside
    (grid.contains_first hj)⟩

/-- Every brick is in a slice. -/
theorem RectSlices.exists_inSlice (grid : BrickGrid bricks width height)
    (slices : RectSlices bricks width height rects bottomRight) {j : Nat}
    (hj : j < bricks.length) : ∃ i, InSlice bricks rects j i := by
  have first := grid.contains_first hj
  obtain ⟨hx, hy⟩ := grid.tiling.cell_lt (k := j) (x := bricks[j].colBd) (y := bricks[j].rowBd)
    (by simpa using hj) (by simpa using first)
  obtain ⟨r, member, inside⟩ := slices.cover _ hx _ hy
  obtain ⟨i, hi, rfl⟩ := List.getElem_of_mem member
  exact ⟨i, hj, hi, inside⟩

/-- A brick of a slice lies before the slice's bottom right brick and not behind it. -/
theorem BrickGrid.le_corner (grid : BrickGrid bricks width height) {i j k : Nat}
    (inSlice : InSlice bricks rects j i) (hk : k < bricks.length)
    (corner : bricks[k].rect.Contains ((rects.getD i ⟨0, 0, 0, 0⟩).right - 1)
      ((rects.getD i ⟨0, 0, 0, 0⟩).bottom - 1)) :
    j ≤ k ∧ (bricks.getD j default).colBd ≤ (bricks.getD k default).colBd := by
  obtain ⟨hj, hi, inside⟩ := inSlice
  rw [List.getD_eq_getElem _ _ hi] at corner
  have first := grid.contains_first hj
  obtain ⟨⟨left, right⟩, top, bottom⟩ := inside
  have reaches : bricks[k].rect.Reaches bricks[j].colBd bricks[j].rowBd := by
    obtain ⟨⟨-, right'⟩, -, bottom'⟩ := corner
    exact ⟨by omega, by omega⟩
  constructor
  · by_contra after
    exact grid.not_before hk hj (by omega) first reaches
  · rw [List.getD_eq_getElem _ _ hj, List.getD_eq_getElem _ _ hk]
    rcases grid.aligned _ (List.getElem_mem hj) _ (List.getElem_mem hk) with same | before | after
    · exact same.le
    · have starts : bricks[j].colBd < bricks[j].rect.right := first.1.2
      omega
    · exact absurd reaches.1 (by omega)

/-- A brick that a sweep reaches is in that slice or an earlier one. -/
theorem RectSlices.slice_le (slices : RectSlices bricks width height rects bottomRight)
    {i j k l : Nat}
    (inSlice : InSlice bricks rects j l) (inSlice' : InSlice bricks rects k i)
    (column : (bricks.getD j default).colBd ≤ (bricks.getD k default).colBd)
    (row : (bricks.getD j default).rowBd ≤ (bricks.getD k default).rowBd) : l ≤ i := by
  obtain ⟨hj, hl, inside⟩ := inSlice
  obtain ⟨hk, hi, inside'⟩ := inSlice'
  rw [List.getD_eq_getElem _ _ hj, List.getD_eq_getElem _ _ hk] at column row
  exact slices.mono hi hl inside inside' column row

/-- The first brick of a slice is its top left one. -/
theorem RectSlices.exists_topLeft (grid : BrickGrid bricks width height)
    (slices : RectSlices bricks width height rects bottomRight) {i : Nat}
    (hi : i < rects.length) :
    ∃ t, ∃ ht : t < bricks.length, bricks[t].rect.Contains rects[i].left rects[i].top ∧
      InSlice bricks rects t i ∧ ∀ j, InSlice bricks rects j i → t ≤ j := by
  obtain ⟨columns, rows⟩ := slices.positive _ (List.getElem_mem hi)
  obtain ⟨right, bottom⟩ := slices.within _ (List.getElem_mem hi)
  have corner : rects[i].Contains rects[i].left rects[i].top :=
    ⟨⟨le_rfl, Nat.lt_add_of_pos_right columns⟩, le_rfl, Nat.lt_add_of_pos_right rows⟩
  obtain ⟨t, ht, inside⟩ := grid.tiling.exists_index (lt_of_lt_of_le corner.1.2 right)
    (lt_of_lt_of_le corner.2.2 bottom)
  rw [List.getElem_map] at inside
  rw [List.length_map] at ht
  refine ⟨t, ht, inside, slices.inSlice_of_contains grid hi ht inside corner, ?_⟩
  rintro j ⟨hj, _, left, top⟩
  by_contra before
  have first := grid.contains_first hj
  exact grid.not_before hj ht (by omega) inside
    ⟨lt_of_le_of_lt left.1 first.1.2, lt_of_le_of_lt top.1 first.2.2⟩

/-- What the sweeps for the slices before `i` leave. -/
structure SweptTo (bricks : List Brick) (rects : List Rect) (i : Nat) (map : SliceMap) : Prop where
  slice : ∀ j l, InSlice bricks rects j l →
    map.bricksToSliceMap j = if l < i then some l else none
  topLeft : ∀ l, (hl : l < rects.length) → l < i → ∃ hk : map.topLeftBrickIdx l < bricks.length,
    bricks[map.topLeftBrickIdx l].rect.Contains rects[l].left rects[l].top

/-- One sweep gives the bricks of its slice to it. -/
theorem SweptTo.step (grid : BrickGrid bricks width height)
    (slices : RectSlices bricks width height rects bottomRight)
    (level : LevelCorners bricks rects bottomRight) {i : Nat} {map : SliceMap} {br : Int}
    (hi : i < rects.length) (at_i : bottomRight[i]? = some br)
    (sweptTo : SweptTo bricks rects i map) :
    SweptTo bricks rects (i + 1) (sweep bricks i br map) := by
  obtain ⟨k, hk, at_i', corner⟩ := slices.corner i hi
  obtain rfl : br = k := Option.some.inj (at_i.symm.trans at_i')
  obtain ⟨columns, rows⟩ := slices.positive _ (List.getElem_mem hi)
  have last : rects[i].Contains (rects[i].right - 1) (rects[i].bottom - 1) := by
    unfold Rect.Contains Rect.right Rect.bottom
    omega
  have inSlice_k := slices.inSlice_of_contains grid hi hk corner last
  have own {j : Nat} (inSlice : InSlice bricks rects j i) :
      j < k + 1 ∧ Taken bricks k map j := by
    obtain ⟨before, column⟩ := grid.le_corner inSlice hk
      (by rw [List.getD_eq_getElem _ _ hi]; exact corner)
    have free := sweptTo.slice j i inSlice
    rw [if_neg (Nat.lt_irrefl i)] at free
    exact ⟨Nat.lt_succ_of_le before, column, level j i inSlice k at_i, free⟩
  have taken_own {j l : Nat} (inSlice : InSlice bricks rects j l) (taken : Taken bricks k map j) :
      l = i := by
    have le := slices.slice_le inSlice inSlice_k taken.1 taken.2.1
    have free := sweptTo.slice j l inSlice
    rw [taken.2.2] at free
    by_contra other
    rw [if_pos (lt_of_le_of_ne le other)] at free
    cases free
  have swept := @swept_sweep bricks i k map
  constructor
  · intro j l inSlice
    by_cases here : l = i
    · subst here
      obtain ⟨lt, taken⟩ := own inSlice
      rw [swept.taken j lt taken, if_pos (Nat.lt_succ_self l)]
    · have same : (l < i) = (l < i + 1) := by
        apply propext
        omega
      rw [swept.left j fun _ taken => here (taken_own inSlice taken), sweptTo.slice j l inSlice]
      simp only [same]
  · intro l hl lt
    by_cases here : l = i
    · subst here
      obtain ⟨t, ht, inside, inSlice, least⟩ := slices.exists_topLeft grid hl
      obtain ⟨lt, taken⟩ := own inSlice
      have first : (sweep bricks l k map).topLeftBrickIdx l = t := by
        refine swept.first t lt taken fun j earlier taken => ?_
        obtain ⟨m, inSlice_j⟩ := slices.exists_inSlice grid (earlier.trans ht)
        obtain rfl := taken_own inSlice_j taken
        exact absurd (least j inSlice_j) (not_le.mpr earlier)
      rw [first]
      exact ⟨ht, inside⟩
    · rw [swept.others l here]
      exact sweptTo.topLeft l hl (by omega)

/-- The sweeps give every brick to its slice. -/
theorem SweptTo.run (grid : BrickGrid bricks width height)
    (slices : RectSlices bricks width height rects bottomRight)
    (level : LevelCorners bricks rects bottomRight) (rest : List Int) {i : Nat} {map : SliceMap}
    (left : bottomRight.drop i = rest) (sweptTo : SweptTo bricks rects i map) :
    SweptTo bricks rects (i + rest.length) (sweeps bricks i rest map) := by
  induction rest generalizing i map with
  | nil => exact sweptTo
  | cons br rest ih =>
      have at_i : bottomRight[i]? = some br := by
        rw [← List.head?_drop, left]
        rfl
      have hi : i < rects.length := by
        rw [← slices.length]
        exact (List.getElem?_eq_some_iff.mp at_i).1
      have left' : bottomRight.drop (i + 1) = rest := by
        rw [← List.tail_drop, left]
        rfl
      have run := ih left' (sweptTo.step grid slices level hi at_i)
      rw [List.length_cons, Nat.add_comm rest.length, ← Nat.add_assoc]
      exact run

/-- The sweeps give a slice no brick that starts below its bottom right one. -/
theorem sweeps_level (rest : List Int) {i : Nat} {map : SliceMap}
    (left : bottomRight.drop i = rest)
    (level : ∀ j l, map.bricksToSliceMap j = some l → ∀ br, bottomRight[l]? = some br →
      (bricks.getD j default).rowBd ≤ (bricks.getD br.toNat default).rowBd) (j l : Nat)
    (given : (sweeps bricks i rest map).bricksToSliceMap j = some l) (br : Int)
    (at_l : bottomRight[l]? = some br) :
    (bricks.getD j default).rowBd ≤ (bricks.getD br.toNat default).rowBd := by
  induction rest generalizing i map with
  | nil => exact level j l given br at_l
  | cons br' rest ih =>
      have at_i : bottomRight[i]? = some br' := by
        rw [← List.head?_drop, left]
        rfl
      have left' : bottomRight.drop (i + 1) = rest := by
        rw [← List.tail_drop, left]
        rfl
      refine ih left' (fun j l given br at_l => ?_) given
      have swept := @swept_foldl bricks i br'.toNat (br' + 1).toNat map
      by_cases taken : j < (br' + 1).toNat ∧ Taken bricks br'.toNat map j
      · have own : some i = some l := (swept.taken j taken.1 taken.2).symm.trans given
        cases own
        cases at_i.symm.trans at_l
        exact taken.2.2.1
      · have kept := swept.left j fun lt here => taken ⟨lt, here⟩
        exact level j l (kept.symm.trans given) br at_l

end Sweeps

theorem length_sumDeltas (previous : Int) (deltas : List Int) :
    (PPS.sumDeltas previous deltas).length = deltas.length := by
  induction deltas generalizing previous with
  | nil => rfl
  | cons delta rest ih => exact congrArg (· + 1) (ih _)

section Created

variable {sps : SPS} {pps : PPS} {rects : List Rect}

/-- A single slice has no sweep: it is the whole picture. -/
theorem assigns_single {bricks : List Brick} {width height : Nat} {bottomRight : List Int}
    (grid : BrickGrid bricks width height)
    (slices : RectSlices bricks width height rects bottomRight) (single : rects.length = 1) :
    SliceMap.Assigns ⟨fun _ => some 0, fun _ => 0⟩ bricks rects := by
  constructor
  · rintro j i ⟨-, hi, -⟩
    rw [show i = 0 by omega]
  · intro i hi
    obtain rfl : i = 0 := by omega
    obtain ⟨t, ht, inside, inSlice, least⟩ := slices.exists_topLeft grid hi
    -- the slice has brick 0, so brick 0 is its first
    have some : 0 < bricks.length := Nat.zero_lt_of_lt ht
    obtain ⟨m, inSlice_zero⟩ := slices.exists_inSlice grid some
    obtain rfl : m = 0 := by
      obtain ⟨-, hm, -⟩ := inSlice_zero
      omega
    obtain rfl : t = 0 := Nat.le_zero.mp (least 0 inSlice_zero)
    exact ⟨ht, inside⟩

theorem assigns_iff (valid : ValidTiles sps pps) (rectSlice : pps.rectSliceFlag = true)
    (slices : RectSlices (pps.bricks sps) (pps.picWidthInCtus sps) (pps.picHeightInCtus sps) rects
      (bottomRightBrickIdx pps (pps.bricks sps).length)) :
    (BrickMap.create sps pps).slices.Assigns (pps.bricks sps) rects ↔
      rects.length = 1 ∨ LevelCorners (pps.bricks sps) rects
        (bottomRightBrickIdx pps (pps.bricks sps).length) := by
  have created : (BrickMap.create sps pps).slices = initSliceMap pps (pps.bricks sps) := by
    simp [BrickMap.create, rectSlice]
  have length := slices.length
  rw [created, initSliceMap]
  by_cases single : (pps.numSlicesInPicMinus1 + 1).toNat = 1
  · have one : rects.length = 1 := by
      rw [← length, bottomRightBrickIdx, if_pos single]
      rfl
    rw [if_pos single]
    exact ⟨fun _ => Or.inl one, fun _ => assigns_single valid.grid slices one⟩
  · have more : rects.length ≠ 1 := by
      rw [← length, bottomRightBrickIdx, if_neg single, length_sumDeltas, List.length_map,
        List.length_range]
      exact single
    rw [if_neg single]
    constructor
    · intro assigns
      right
      intro j i inSlice br at_i
      refine sweeps_level _ rfl ?_ j i (assigns.slice j i inSlice) br at_i
      intro j l given
      cases given
    · rintro (wrong | level)
      · exact absurd wrong more
      · have start : SweptTo (pps.bricks sps) rects 0 ⟨fun _ => none, fun _ => 0⟩ :=
          ⟨fun j l _ => (if_neg (Nat.not_lt_zero l)).symm,
            fun l _ lt => absurd lt (Nat.not_lt_zero l)⟩
        have run := SweptTo.run valid.grid slices level _ rfl start
        rw [Nat.zero_add, List.length_drop, length, Nat.sub_zero] at run
        constructor
        · rintro j i ⟨hj, hi, inside⟩
          exact (run.slice j i ⟨hj, hi, inside⟩).trans (if_pos hi)
        · intro i hi
          exact run.topLeft i hi hi

end Created

/-- The brick map of consistent tiles and bricks is a bijective scan, and it gives each brick
of rectangular slices to its slice exactly when there is one slice or no brick of a slice
starts below the slice's bottom right brick. -/
theorem brickMap_correct_iff (sps : SPS) (pps : PPS) (valid : ValidTiles sps pps) :
    (BrickMap.create sps pps).Scans ∧
      ∀ rects, pps.rectSliceFlag = true →
        RectSlices (pps.bricks sps) (pps.picWidthInCtus sps) (pps.picHeightInCtus sps) rects
          (bottomRightBrickIdx pps (pps.bricks sps).length) →
        ((BrickMap.create sps pps).slices.Assigns (pps.bricks sps) rects ↔
          rects.length = 1 ∨ LevelCorners (pps.bricks sps) rects
            (bottomRightBrickIdx pps (pps.bricks sps).length)) :=
  ⟨brickMap_scans valid, fun _ rectSlice slices => assigns_iff valid rectSlice slices⟩

/-- CTUs of 32 samples. -/
def sps32 : SPS := ⟨32, 32⟩

/-- Two tile columns of one CTU, a tile row of four CTUs and one of one: the tiles above are
split after `left + 1` and `right + 1` rows, and each tile row is a slice. -/
def twoSlices (left right : Nat) : PPS where
  picWidthInLumaSamples := 64
  picHeightInLumaSamples := 160
  singleTileInPicFlag := false
  numTileColumnsMinus1 := 1
  numTileRowsMinus1 := 1
  tileColumnWidth := [1]
  tileRowHeight := [4]
  numTilesInPic := 4
  brickSplittingPresentFlag := true
  brickSplitFlag := [true, true, false, false]
  uniformBrickSpacingFlag := [false, false, false, false]
  numBrickRowsMinus2 := [0, 0, 0, 0]
  brickRowHeightMinus1 := [[left], [right], [], []]
  numSlicesInPicMinus1 := 1
  bottomRightBrickIdxDelta := [3, 2]

/-- The slices of `twoSlices`. -/
def twoRects : List Rect := [⟨0, 0, 2, 4⟩, ⟨0, 4, 2, 1⟩]

theorem rectSlices_twoRects (left right : Nat) (hl : left < 3) (hr : right < 3)
    {bricks : List Brick}
    (listed : bricks.map Brick.rect = [⟨0, 0, 1, left + 1⟩, ⟨0, left + 1, 1, 3 - left⟩,
      ⟨1, 0, 1, right + 1⟩, ⟨1, right + 1, 1, 3 - right⟩, ⟨0, 4, 1, 1⟩, ⟨1, 4, 1, 1⟩]) :
    RectSlices bricks 2 5 twoRects [3, 5] := by
  have cases_lt {i : Nat} (hi : i < twoRects.length) : i = 0 ∨ i = 1 := by
    have hi : i < 2 := hi
    omega
  have rect_mem {r : Rect} (member : r ∈ twoRects) : r = ⟨0, 0, 2, 4⟩ ∨ r = ⟨0, 4, 2, 1⟩ := by
    simpa [twoRects] using member
  have ordered {i k x y x' y' : Nat} (hi : i < twoRects.length) (hk : k < twoRects.length)
      (inside : twoRects[k].Contains x y) (inside' : twoRects[i].Contains x' y') (le : y ≤ y') :
      k ≤ i := by
    rcases cases_lt hi with rfl | rfl <;> rcases cases_lt hk with rfl | rfl <;>
      simp only [twoRects, Rect.Contains, Rect.right, Rect.bottom, List.getElem_cons_zero,
        List.getElem_cons_succ] at inside inside' <;> omega
  have length : bricks.length = 6 := by
    have lengths := congrArg List.length listed
    simpa using lengths
  have brick_rect {k : Nat} (hk : k < bricks.length) :
      [⟨0, 0, 1, left + 1⟩, ⟨0, left + 1, 1, 3 - left⟩, ⟨1, 0, 1, right + 1⟩,
        ⟨1, right + 1, 1, 3 - right⟩, ⟨0, 4, 1, 1⟩, ⟨1, 4, 1, 1⟩][k]? = some bricks[k].rect := by
    rw [← listed, List.getElem?_map, List.getElem?_eq_getElem hk]
    rfl
  constructor
  · intro r member
    rcases rect_mem member with rfl | rfl <;> decide
  · intro r member
    rcases rect_mem member with rfl | rfl <;> decide
  · intro i k x y hi hk inside inside'
    exact Nat.le_antisymm (ordered hk hi inside inside' le_rfl) (ordered hi hk inside' inside le_rfl)
  · intro x hx y hy
    by_cases above : y < 4
    · exact ⟨⟨0, 0, 2, 4⟩, by simp [twoRects], by simp [Rect.Contains, Rect.right, Rect.bottom]; omega⟩
    · exact ⟨⟨0, 4, 2, 1⟩, by simp [twoRects], by simp [Rect.Contains, Rect.right, Rect.bottom]; omega⟩
  · intro r member brick member' x y x' y' inside inside' inside''
    have listed' := List.mem_map_of_mem (f := Brick.rect) member'
    rw [listed] at listed'
    simp only [List.mem_cons, List.not_mem_nil, or_false] at listed'
    rcases rect_mem member with rfl | rfl <;>
      rcases listed' with same | same | same | same | same | same <;>
      rw [same] at inside' inside'' <;>
      simp only [Rect.Contains, Rect.right, Rect.bottom] at inside inside' inside'' ⊢ <;> omega
  · intro i k x y hi hk inside inside'
    exact ordered hi hk inside inside' le_rfl
  · intro i k x y hi hk inside inside'
    exact ordered hi hk inside inside' (Nat.le_succ y)
  · rfl
  · intro i hi
    rcases cases_lt hi with rfl | rfl
    · have rect := Option.some.inj (brick_rect (k := 3) (by omega))
      refine ⟨3, by omega, rfl, ?_⟩
      rw [← rect]
      simp only [twoRects, Rect.Contains, Rect.right, Rect.bottom, List.getElem_cons_zero]
      omega
    · have rect := Option.some.inj (brick_rect (k := 5) (by omega))
      refine ⟨5, by omega, rfl, ?_⟩
      rw [← rect]
      simp only [twoRects, Rect.Contains, Rect.right, Rect.bottom, List.getElem_cons_zero,
        List.getElem_cons_succ]
      omega

theorem validTiles_twoSlices (left right : Nat) (hl : left < 3) (hr : right < 3) :
    ValidTiles sps32 (twoSlices left right) where
  ctuSize := by decide
  square := rfl
  width := Nat.succ_pos 63
  height := Nat.succ_pos 159
  columns _ := by simp [ValidSizes, twoSlices, PPS.picWidthInCtus, sps32]
  rows _ := by simp [ValidSizes, twoSlices, PPS.picHeightInCtus, sps32]
  splits tileIdx inside := by
    intro _ split _
    have inside : tileIdx < 4 := inside
    obtain rfl | rfl | rfl | rfl : tileIdx = 0 ∨ tileIdx = 1 ∨ tileIdx = 2 ∨ tileIdx = 3 := by
      omega
    · simp [twoSlices, PPS.tileRowHeights, PPS.explicitSizes]
      omega
    · simp [twoSlices, PPS.tileRowHeights, PPS.explicitSizes, PPS.numTileColumns]
      omega
    · cases split
    · cases split

/-- With the lower split in the right tile the slices are found. -/
theorem brickMap_correct_twoSlices :
    (BrickMap.create sps32 (twoSlices 1 2)).Scans ∧
      (BrickMap.create sps32 (twoSlices 1 2)).slices.Assigns
        ((twoSlices 1 2).bricks sps32) twoRects := by
  obtain ⟨scans, assigns⟩ := brickMap_correct_iff sps32 (twoSlices 1 2)
    (validTiles_twoSlices 1 2 (by decide) (by decide))
  refine ⟨scans, (assigns twoRects rfl ?_).mpr (Or.inr ?_)⟩
  · exact rectSlices_twoRects 1 2 (by decide) (by decide) (by decide)
  · have level : ∀ j < 6, ∀ i < 2,
        (twoRects.getD i ⟨0, 0, 0, 0⟩).Contains
          (((twoSlices 1 2).bricks sps32).getD j default).colBd
          (((twoSlices 1 2).bricks sps32).getD j default).rowBd →
        (((twoSlices 1 2).bricks sps32).getD j default).rowBd ≤
          (((twoSlices 1 2).bricks sps32).getD ([3, 5].getD i 0) default).rowBd := by
      decide
    rintro j i ⟨hj, hi, inside⟩ br at_i
    have bound := level j hj i hi
    rw [List.getD_eq_getElem _ _ hj, List.getD_eq_getElem _ _ hi] at bound
    rw [List.getD_eq_getElem _ _ hj]
    have corners : bottomRightBrickIdx (twoSlices 1 2) ((twoSlices 1 2).bricks sps32).length =
        [3, 5] := by decide
    rw [corners] at at_i
    have hi : i < 2 := hi
    obtain rfl | rfl : i = 0 ∨ i = 1 := by omega
    · cases at_i
      exact bound inside
    · cases at_i
      exact bound inside

/-- With the lower split in the left tile, the second brick of that tile is given to the
slice below, as its top left brick. -/
theorem lower_brick_is_misplaced :
    ValidTiles sps32 (twoSlices 2 1) ∧
      RectSlices ((twoSlices 2 1).bricks sps32) 2 5 twoRects
        (bottomRightBrickIdx (twoSlices 2 1) ((twoSlices 2 1).bricks sps32).length) ∧
      InSlice ((twoSlices 2 1).bricks sps32) twoRects 1 0 ∧
      (BrickMap.create sps32 (twoSlices 2 1)).slices.bricksToSliceMap 1 = some 1 ∧
      (BrickMap.create sps32 (twoSlices 2 1)).slices.topLeftBrickIdx 1 = 1 ∧
      ¬ (BrickMap.create sps32 (twoSlices 2 1)).slices.Assigns
        ((twoSlices 2 1).bricks sps32) twoRects := by
  have given : (BrickMap.create sps32 (twoSlices 2 1)).slices.bricksToSliceMap 1 = some 1 := by
    decide
  have inSlice : InSlice ((twoSlices 2 1).bricks sps32) twoRects 1 0 :=
    ⟨by decide, by decide, by decide⟩
  refine ⟨validTiles_twoSlices 2 1 (by decide) (by decide),
    rectSlices_twoRects 2 1 (by decide) (by decide) (by decide), inSlice, given,
    by decide, fun assigns => ?_⟩
  have wrong := assigns.slice 1 0 inSlice
  rw [given] at wrong
  cases wrong

end Vtm
