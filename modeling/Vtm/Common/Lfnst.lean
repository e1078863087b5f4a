import Vtm.Common.Quantisation

/-!
# The low frequency non-separable transform

`xFwdLfnst` for one transform block: the corner of the primary coefficients is gathered,
multiplied by the kernel, and stored back in the order of a diagonal scan.
-/

namespace Vtm

open DQIntern (MTS_SKIP)

/-- `g_auiXYDiagScan8x8`: the columns and rows of the corner. -/
def g_auiXYDiagScan8x8 : List ScanElement :=
  [⟨0, 0⟩, ⟨0, 1⟩, ⟨1, 0⟩, ⟨0, 2⟩, ⟨1, 1⟩, ⟨2, 0⟩, ⟨0, 3⟩, ⟨1, 2⟩,
    ⟨2, 1⟩, ⟨3, 0⟩, ⟨1, 3⟩, ⟨2, 2⟩, ⟨3, 1⟩, ⟨2, 3⟩, ⟨3, 2⟩, ⟨3, 3⟩,
    ⟨0, 4⟩, ⟨0, 5⟩, ⟨1, 4⟩, ⟨0, 6⟩, ⟨1, 5⟩, ⟨2, 4⟩, ⟨0, 7⟩, ⟨1, 6⟩,
    ⟨2, 5⟩, ⟨3, 4⟩, ⟨1, 7⟩, ⟨2, 6⟩, ⟨3, 5⟩, ⟨2, 7⟩, ⟨3, 6⟩, ⟨3, 7⟩,
    ⟨4, 0⟩, ⟨4, 1⟩, ⟨5, 0⟩, ⟨4, 2⟩, ⟨5, 1⟩, ⟨6, 0⟩, ⟨4, 3⟩, ⟨5, 2⟩,
    ⟨6, 1⟩, ⟨7, 0⟩, ⟨5, 3⟩, ⟨6, 2⟩, ⟨7, 1⟩, ⟨6, 3⟩, ⟨7, 2⟩, ⟨7, 3⟩,
    ⟨4, 4⟩, ⟨4, 5⟩, ⟨5, 4⟩, ⟨4, 6⟩, ⟨5, 5⟩, ⟨6, 4⟩, ⟨4, 7⟩, ⟨5, 6⟩,
    ⟨6, 5⟩, ⟨7, 4⟩, ⟨5, 7⟩, ⟨6, 6⟩, ⟨7, 5⟩, ⟨6, 7⟩, ⟨7, 6⟩, ⟨7, 7⟩]

/-- What the intra mode and `lfnstIdx` select: the rows of `trMat`, which are of type `int8_t`, and
`transposeFlag`. -/
structure LfnstKernel where
  trMat : Nat → Nat → Int
  transposeFlag : Bool
  int8 : ∀ j i, -2 ^ 7 ≤ trMat j i ∧ trMat j i < 2 ^ 7

/-- `g_lfnst4x4[0][0]`. -/
def g_lfnst4x4 : List (List Int) :=
  [[108, -44, -15, 1, -44, 19, 7, -1, -11, 6, 2, -1, 0, -1, -1, 0],
    [-40, -97, 56, 12, -11, 29, -12, -3, 18, 18, -15, -3, -1, -3, 2, 1],
    [25, -31, -1, 7, 100, -16, -29, 1, -54, 21, 14, -4, -7, 2, 4, 0],
    [-32, -39, -92, 51, -6, -16, 36, -8, 3, 22, 18, -15, 4, 1, -5, 2],
    [8, -9, 33, -8, -16, -102, 36, 23, -4, 38, -27, -5, 5, 16, -8, -6],
    [-25, 5, 16, -3, -38, 14, 11, -3, -97, 7, 26, 1, 55, -10, -19, 3],
    [8, 9, 16, 1, 37, 36, 94, -38, -7, 3, -47, 11, -6, -13, -17, 10],
    [2, 34, -5, 1, -7, 24, -25, -3, 8, 99, -28, -29, 6, -43, 21, 11],
    [-16, -27, -39, -109, 6, 10, 16, 24, 3, 19, 10, 24, -4, -7, -2, -3],
    [-9, -10, -34, 4, -9, -5, -29, 5, -33, -26, -96, 33, 14, 4, 39, -14],
    [-13, 1, 4, -9, -30, -17, -3, -64, -35, 11, 17, 19, -86, 6, 36, 14],
    [8, -7, -5, -15, 7, -30, -28, -87, 31, 4, 4, 33, 61, -5, -17, 22],
    [-2, 13, -6, -4, -2, 28, -13, -14, -3, 37, -15, -3, -2, 107, -36, -24],
    [4, 9, 11, 31, 4, 9, 16, 19, 12, 33, 32, 94, 12, 0, 34, -45],
    [2, -2, 8, -16, 8, 5, 28, -17, 6, -7, 18, -45, 40, 36, 97, -8],
    [0, -2, 0, -10, -1, -7, -3, -35, -1, -7, -2, -32, -6, -33, -16, -112]]

theorem getD_mem_cons {α : Type} (values : List α) (i : Nat) (d : α) :
    values.getD i d ∈ d :: values := by
  rw [List.getD_eq_getElem?_getD]
  cases here : values[i]? with
  | none => exact List.mem_cons_self
  | some value => exact List.mem_cons_of_mem _ (List.mem_of_getElem? here)

/-- The first kernel of the planar mode for a corner of 4x4 samples. -/
def LfnstKernel.planar4x4 : LfnstKernel where
  trMat j i := (g_lfnst4x4.getD j []).getD i 0
  transposeFlag := false
  int8 j i := by
    have entries : ∀ row ∈ [] :: g_lfnst4x4, ∀ entry ∈ 0 :: row, -2 ^ 7 ≤ entry ∧ entry < 2 ^ 7 := by
      decide
    exact entries _ (getD_mem_cons _ _ _) _ (getD_mem_cons _ _ _)

def LfnstKernel.fwdLfnstNxN (kernel : LfnstKernel) (trSize zeroOutSize : Nat) (src : Nat → Int)
    (j : Nat) : Int :=
  if j < zeroOutSize then
    ((List.range trSize).foldl (fun coef i => coef + src i * kernel.trMat j i) 0 + 64) >>> (7 : Nat)
  else 0

namespace TransformBlock

variable (tu : TransformBlock)

def whge3 : Bool := 8 ≤ tu.width ∧ 8 ≤ tu.height

def sbSize : Nat := if tu.whge3 then 8 else 4

/-- `lfnstCoeffNum`, and `trSize`. -/
def lfnstCoeffNum : Nat := if tu.sbSize = 4 then tu.sbSize * tu.sbSize else 48

/-- The size that is passed to `fwdLfnstNxN`. -/
def zeroOutSize : Nat :=
  if (tu.width = 4 ∧ tu.height = 4) ∨ (tu.width = 8 ∧ tu.height = 8) then 8 else 16

/-- `scan`: `g_coefTopLeftDiagScan8x8`, or the grouped scan of the block. -/
@[grind =] def lfnstScan (p : Nat) : Nat :=
  if tu.whge3 then
    let position := g_auiXYDiagScan8x8.getD p ⟨0, 0⟩
    position.x + position.y * tu.width
  else tu.rasterPos p

/-- The place that an element of `m_tempInMatrix` comes from. Below the first four rows of a corner
of 8x8 samples only four columns are gathered. -/
def lfnstSource (transposeFlag : Bool) (i : Nat) : ScanElement :=
  if tu.sbSize = 4 then if transposeFlag then ⟨i / 4, i % 4⟩ else ⟨i % 4, i / 4⟩
  else if i < 32 then if transposeFlag then ⟨i / 8, i % 8⟩ else ⟨i % 8, i / 8⟩
  else if transposeFlag then ⟨4 + (i - 32) / 4, (i - 32) % 4⟩
  else ⟨(i - 32) % 4, 4 + (i - 32) / 4⟩

/-- `m_tempInMatrix`. -/
def lfnstIn (transposeFlag : Bool) (coeff : Nat → Int) (i : Nat) : Int :=
  let source := tu.lfnstSource transposeFlag i
  coeff (source.x + source.y * tu.width)

/-- `m_tempOutMatrix`. -/
def lfnstOut (kernel : LfnstKernel) (coeff : Nat → Int) : Nat → Int :=
  kernel.fwdLfnstNxN tu.lfnstCoeffNum tu.zeroOutSize (tu.lfnstIn kernel.transposeFlag coeff)

def xFwdLfnst (kernel : LfnstKernel) (coeff : Nat → Int) : Nat → Int :=
  if 0 < tu.lfnstIdx ∧ tu.mtsIdx ≠ MTS_SKIP ∧ 4 ≤ tu.width ∧ 4 ≤ tu.height ∧ tu.lfnstIdx < 3 then
    (List.range tu.lfnstCoeffNum).foldl
      (fun tempCoeff p => Function.update tempCoeff (tu.lfnstScan p) (tu.lfnstOut kernel coeff p))
      coeff
  else coeff

end TransformBlock

end Vtm
