import Vtm.Common.Scan

/-!
# Scaling lists

`ScalingList`: 28 lists of coefficients in an array of 30, each with the mode and the
reference it is coded by. Arrays are functions. Two lists have 2x2 coefficients, the next
six 4x4 and the others 8x8; from 16x16 blocks on a list has a DC value as well.
-/

namespace Vtm

open Function (update)

structure ScalingList where
  disableScalingMatrixForLfnstBlks : Bool
  scalingListPredModeFlagIsCopy : Nat → Bool
  scalingListDC : Nat → Int
  refMatrixId : Nat → Nat
  scalingListPreditorModeFlag : Nat → Bool
  scalingListCoef : Nat → Nat → Int

namespace ScalingList

/-! The first lists of each block size. -/

def SCALING_LIST_1D_START_2x2 : Nat := 0
def SCALING_LIST_1D_START_4x4 : Nat := 2
def SCALING_LIST_1D_START_8x8 : Nat := 8
def SCALING_LIST_1D_START_16x16 : Nat := 14
def SCALING_LIST_1D_START_64x64 : Nat := 26

def SCALING_LIST_START_VALUE : Int := 8

/-- `matrixSize`, as each of the functions computes it. -/
def matrixSize (scalingListId : Nat) : Nat :=
  if scalingListId < SCALING_LIST_1D_START_4x4 then 2
  else if scalingListId < SCALING_LIST_1D_START_8x8 then 4 else 8

def coefNum (scalingListId : Nat) : Nat :=
  matrixSize scalingListId * matrixSize scalingListId

/-- The scan of a list. -/
def scan (scalingListId i : Nat) : ScanElement :=
  scanOrder .SCAN_DIAG (matrixSize scalingListId) (matrixSize scalingListId) i

/-- The raster index `scan[i].idx`. -/
@[grind =] def scanIdx (scalingListId i : Nat) : Nat :=
  (scan scalingListId i).y * matrixSize scalingListId + (scan scalingListId i).x

/-- The first list of a size; its reference is not coded. -/
def startsSize (scalingListId : Nat) : Bool :=
  scalingListId = SCALING_LIST_1D_START_2x2 ∨ scalingListId = SCALING_LIST_1D_START_4x4 ∨
    scalingListId = SCALING_LIST_1D_START_8x8

/-- The scan positions of the 64x64 lists that are not coded. -/
def zeroedOut (scalingListId i : Nat) : Bool :=
  scalingListId ≥ SCALING_LIST_1D_START_64x64 ∧ (scan scalingListId i).x ≥ 4 ∧
    (scan scalingListId i).y ≥ 4

/-- `g_quantTSDefault4x4`; all 16 entries are alike. -/
def g_quantTSDefault4x4 : Nat → Int := fun _ => 16

/-- `g_quantInterDefault8x8`; all 64 entries are alike. -/
def g_quantInterDefault8x8 : Nat → Int := fun _ => 16

def getScalingListDefaultAddress (scalingListId : Nat) : Nat → Int :=
  if scalingListId < SCALING_LIST_1D_START_8x8 then g_quantTSDefault4x4
  else g_quantInterDefault8x8

/-- The list that `refListId` refers to from `scalingListId`; a list that refers to itself
means the default. -/
@[grind =] def refAddress (scalingList : ScalingList) (scalingListId refListId : Nat) : Nat → Int :=
  if scalingListId = refListId then getScalingListDefaultAddress scalingListId
  else scalingList.scalingListCoef refListId

/-! ## Assignments -/

def setDisableScalingMatrixForLfnstBlks (scalingList : ScalingList) (flag : Bool) : ScalingList :=
  { scalingList with disableScalingMatrixForLfnstBlks := flag }

def setScalingListCopyModeFlag (scalingList : ScalingList) (scalingListId : Nat) (bIsCopy : Bool) :
    ScalingList :=
  { scalingList with
    scalingListPredModeFlagIsCopy :=
      update scalingList.scalingListPredModeFlagIsCopy scalingListId bIsCopy }

def setScalingListPreditorModeFlag (scalingList : ScalingList) (scalingListId : Nat)
    (bIsPred : Bool) : ScalingList :=
  { scalingList with
    scalingListPreditorModeFlag :=
      update scalingList.scalingListPreditorModeFlag scalingListId bIsPred }

def setRefMatrixId (scalingList : ScalingList) (scalingListId u : Nat) : ScalingList :=
  { scalingList with refMatrixId := update scalingList.refMatrixId scalingListId u }

def setScalingListDC (scalingList : ScalingList) (scalingListId : Nat) (u : Int) : ScalingList :=
  { scalingList with scalingListDC := update scalingList.scalingListDC scalingListId u }

/-- `getScalingListAddress(scalingListId)[idx] = value`. -/
def setCoef (scalingList : ScalingList) (scalingListId idx : Nat) (value : Int) : ScalingList :=
  { scalingList with
    scalingListCoef := update scalingList.scalingListCoef scalingListId
      (update (scalingList.scalingListCoef scalingListId) idx value) }

/-- `processRefMatrix`: a copy of all coefficients. -/
def processRefMatrix (scalingList : ScalingList) (scalingListId refListId : Nat) : ScalingList :=
  { scalingList with
    scalingListCoef := update scalingList.scalingListCoef scalingListId fun idx =>
      if idx < coefNum scalingListId then
        scalingList.refAddress scalingListId refListId idx
      else scalingList.scalingListCoef scalingListId idx }

/-! ## The scan -/

theorem matrixSize_pos (scalingListId : Nat) : 0 < matrixSize scalingListId := by
  unfold matrixSize
  split
  · decide
  · split <;> decide

section

variable {scalingListId i j : Nat}

theorem scan_eq (inside : i < coefNum scalingListId) :
    scan scalingListId i =
      ⟨(ScanGenerator.after .SCAN_DIAG (matrixSize scalingListId) (matrixSize scalingListId)
          i).column,
        (ScanGenerator.after .SCAN_DIAG (matrixSize scalingListId) (matrixSize scalingListId)
          i).line⟩ :=
  scanOrder_eq rfl (after_diag_inside inside).1

theorem scan_inside (inside : i < coefNum scalingListId) :
    (scan scalingListId i).x < matrixSize scalingListId ∧
      (scan scalingListId i).y < matrixSize scalingListId := by
  rw [scan_eq inside]
  exact after_diag_inside inside

/-- The raster index determines the sample. -/
theorem scanIdx_div_mod (inside : i < coefNum scalingListId) :
    scanIdx scalingListId i / matrixSize scalingListId = (scan scalingListId i).y ∧
      scanIdx scalingListId i % matrixSize scalingListId = (scan scalingListId i).x := by
  have column := (scan_inside inside).1
  unfold scanIdx
  constructor
  · rw [Nat.mul_comm, Nat.mul_add_div (matrixSize_pos scalingListId), Nat.div_eq_of_lt column,
      Nat.add_zero]
  · rw [Nat.mul_comm, Nat.mul_add_mod, Nat.mod_eq_of_lt column]

theorem scanIdx_lt (inside : i < coefNum scalingListId) :
    scanIdx scalingListId i < coefNum scalingListId := by
  obtain ⟨column, line⟩ := scan_inside inside
  have rows : ((scan scalingListId i).y + 1) * matrixSize scalingListId ≤
      matrixSize scalingListId * matrixSize scalingListId := Nat.mul_le_mul_right _ line
  rw [Nat.succ_mul] at rows
  unfold scanIdx coefNum
  omega

theorem scanIdx_inj (insideI : i < coefNum scalingListId) (insideJ : j < coefNum scalingListId)
    (same : scanIdx scalingListId i = scanIdx scalingListId j) : i = j := by
  have lineI := (scanIdx_div_mod insideI).1
  have lineJ := (scanIdx_div_mod insideJ).1
  have columnI := (scanIdx_div_mod insideI).2
  have columnJ := (scanIdx_div_mod insideJ).2
  rw [same] at lineI columnI
  rw [lineI, scan_eq insideI, scan_eq insideJ] at lineJ
  rw [columnI, scan_eq insideI, scan_eq insideJ] at columnJ
  apply Nat.le_antisymm
  · exact after_diag_mono insideI (Nat.le_of_eq columnJ) (Nat.le_of_eq lineJ)
  · exact after_diag_mono insideJ (Nat.le_of_eq columnJ.symm) (Nat.le_of_eq lineJ.symm)

/-- Every coefficient is scanned. -/
theorem exists_scanIdx {idx : Nat} (inside : idx < coefNum scalingListId) :
    ∃ i < coefNum scalingListId, scanIdx scalingListId i = idx := by
  have positive := matrixSize_pos scalingListId
  have line : idx / matrixSize scalingListId < matrixSize scalingListId :=
    Nat.div_lt_of_lt_mul inside
  have column : idx % matrixSize scalingListId < matrixSize scalingListId := Nat.mod_lt _ positive
  obtain ⟨i, inside', position⟩ := exists_after_diag column line
  refine ⟨i, inside', ?_⟩
  unfold scanIdx
  rw [scan_eq inside', position]
  exact Nat.div_add_mod' idx (matrixSize scalingListId)

theorem scanIdx_zero : scanIdx scalingListId 0 = 0 := by
  simp [scanIdx, scan, scanOrder, ScanGenerator.after]

end

end ScalingList

end Vtm
