import Vtm.Common.BitStream
import Vtm.Common.DepQuant
import Vtm.Common.ScalingList
import Vtm.Std.Assign
import Vtm.Std.Int32

/-!
# Quantiser

The tables and the scaling matrices of `Quant`. For each size of a block, each list and each
remainder of the QP there is a matrix of quantisation and one of dequantisation
coefficients. `setScalingListDec` computes the latter from the coded lists, and
`setScalingList` both: it divides by the coded coefficients, which nothing keeps from being zero.
-/

namespace Vtm

open Vtm.Std

/-! The constants of `CommonDef.h`. -/

def QUANT_SHIFT : Int := 14
def IQUANT_SHIFT : Int := 6
def LOG2_SCALING_LIST_NEUTRAL_VALUE : Int := 4
def SCALING_LIST_BITS : Int := 8
def SCALING_LIST_NUM : Nat := 6
def SCALING_LIST_PRED_MODES : Nat := 2
def SCALING_LIST_REM_NUM : Nat := 6
def MAX_MATRIX_SIZE_NUM : Nat := 8

/-! `ScalingListSize`: the binary logarithm of a side. -/

def SCALING_LIST_1x1 : Nat := 0
def SCALING_LIST_2x2 : Nat := 1
def SCALING_LIST_4x4 : Nat := 2
def SCALING_LIST_64x64 : Nat := 6
def SCALING_LIST_FIRST_CODED : Nat := SCALING_LIST_2x2
def SCALING_LIST_LAST_CODED : Nat := SCALING_LIST_64x64

def g_quantScales (notPowerOf4 : Bool) (rem : Nat) : Int :=
  (if notPowerOf4 then [18396, 16384, 14564, 13107, 11651, 10280]
    else [26214, 23302, 20560, 18396, 16384, 14564]).getD rem 0

def g_invQuantScales (notPowerOf4 : Bool) (rem : Nat) : Int :=
  (if notPowerOf4 then [57, 64, 72, 80, 90, 102] else [40, 45, 51, 57, 64, 72]).getD rem 0

def g_scalingListSizeX (sizeId : Nat) : Nat := 2 ^ sizeId

def blockIsNotPowerOf4 (width height : Nat) : Bool :=
  (Nat.log2 width + Nat.log2 height) % 2 = 1

/-- The indices of `m_quantCoef` and `m_dequantCoef` before the one of the QP. -/
structure MatrixId where
  sizeX : Nat
  sizeY : Nat
  listId : Nat
deriving DecidableEq, Repr

/-- What `Quant` keeps of the scaling lists. -/
structure Quant where
  quantCoef : MatrixId → Nat → Nat → Int
  dequantCoef : MatrixId → Nat → Nat → Int
  scalingListEnabledFlag : Bool

namespace Quant

/-- What an element of a matrix is made of. -/
inductive ListElement
  | zeroOut
  | coeff (coeff : Int)
  | dc (dc : Int)
deriving DecidableEq, Repr

/-- The element in `processScalingListEnc`. -/
def quantElement (quantScales : Int) : ListElement → Checked Int
  | .zeroOut => .ok 0
  | .coeff coeff => div32 quantScales coeff
  -- `dc` is unsigned
  | .dc dc => div32 quantScales (dc % 2 ^ 32)

/-- The element in `processScalingListDec`. -/
def dequantElement (invQuantScales : Int) : ListElement → Int
  | .zeroOut => 0
  | .coeff coeff => invQuantScales * coeff
  -- `dc` is unsigned, and so is the product before it is stored
  | .dc dc => (invQuantScales * dc).bmod (2 ^ 32)

section Process

variable (coeff : Nat → Int) (height width ratio sizuNum : Nat) (dc : Int)

/-- The index into the coded list in a block that is not square. -/
def listIndex (j i : Nat) : Nat :=
  let ratioWH := if height > width then height / width else width / height
  let ratioH := if height / sizuNum ≠ 0 then height / sizuNum else sizuNum / height
  let ratioW := if width / sizuNum ≠ 0 then width / sizuNum else sizuNum / width
  if height > width then sizuNum * (j / ratioH) + i * ratioWH / ratioH
  else sizuNum * (j * ratioWH / ratioW) + i / ratioW

def largeOne : Nat := if width > height then width else height

/-- The assignments of a round in a block that is not square. -/
@[grind =] def roundWrites (j i : Nat) : List (Nat × ListElement) :=
  if j ≥ ZERO_OUT_TH ∨ i ≥ ZERO_OUT_TH then [(j * width + i, .zeroOut)]
  else
    (j * width + i, .coeff (coeff (listIndex height width sizuNum j i))) ::
      if largeOne height width > 8 then [(0, .dc dc)] else []

/-- The rounds of the two loops. -/
def rounds : List (Nat × Nat) :=
  (List.range height).flatMap fun j => (List.range width).map fun i => (j, i)

/-- The assignments of `processScalingListEnc` and `processScalingListDec`, which differ in
what they make of a list coefficient. -/
@[grind =] def processWrites : List (Nat × ListElement) :=
  if height ≠ width then
    (rounds height width).flatMap fun round =>
      roundWrites coeff height width sizuNum dc round.1 round.2
  else
    (rounds height width).map (fun round =>
      (round.1 * width + round.2, .coeff (coeff (sizuNum * (round.1 / ratio) + round.2 / ratio)))) ++
      if ratio > 1 then [(0, .dc dc)] else []

end Process

def processScalingListEnc (coeff quantcoeff : Nat → Int) (quantScales : Int)
    (height width ratio sizuNum : Nat) (dc : Int) : Checked (Nat → Int) :=
  assignM Prod.fst (fun write _ => quantElement quantScales write.2)
    (processWrites coeff height width ratio sizuNum dc) quantcoeff

def processScalingListDec (coeff dequantcoeff : Nat → Int) (invQuantScales : Int)
    (height width ratio sizuNum : Nat) (dc : Int) : Nat → Int :=
  assign Prod.fst (fun write _ => dequantElement invQuantScales write.2)
    (processWrites coeff height width ratio sizuNum dc) dequantcoeff

/-- A matrix and the coded list that it is computed from. -/
structure Derivation where
  id : MatrixId
  scalingListId : Nat
deriving DecidableEq, Repr

/-- `xSetScalingListEnc` for a square block and `xSetRecScalingListEnc`, for one QP. -/
def xSetScalingListEnc (scalingList : ScalingList) (derivation : Derivation) (qp : Nat)
    (quantcoeff : Nat → Int) : Checked (Nat → Int) :=
  let width := g_scalingListSizeX derivation.id.sizeX
  let height := g_scalingListSizeX derivation.id.sizeY
  let largeSideId := max derivation.id.sizeX derivation.id.sizeY
  let square := derivation.id.sizeX = derivation.id.sizeY
  processScalingListEnc (scalingList.scalingListCoef derivation.scalingListId) quantcoeff
    (g_quantScales (blockIsNotPowerOf4 width height) qp * 2 ^ LOG2_SCALING_LIST_NEUTRAL_VALUE.toNat)
    height width
    (if square then width / min MAX_MATRIX_SIZE_NUM width else if largeSideId > 3 then 2 else 1)
    (if square then min MAX_MATRIX_SIZE_NUM width else if largeSideId ≥ 3 then 8 else 4)
    (scalingList.scalingListDC derivation.scalingListId)

/-- `xSetScalingListDec` for a square block and `xSetRecScalingListDec`, for one QP. -/
def xSetScalingListDec (scalingList : ScalingList) (derivation : Derivation) (qp : Nat)
    (dequantcoeff : Nat → Int) : Nat → Int :=
  let width := g_scalingListSizeX derivation.id.sizeX
  let height := g_scalingListSizeX derivation.id.sizeY
  let largeSideId := max derivation.id.sizeX derivation.id.sizeY
  let square := derivation.id.sizeX = derivation.id.sizeY
  processScalingListDec (scalingList.scalingListCoef derivation.scalingListId) dequantcoeff
    (g_invQuantScales (blockIsNotPowerOf4 width height) qp)
    height width
    (if square then width / min MAX_MATRIX_SIZE_NUM width else if largeSideId > 3 then 2 else 1)
    (if square then min MAX_MATRIX_SIZE_NUM width else if largeSideId ≥ 3 then 8 else 4)
    (scalingList.scalingListDC derivation.scalingListId)

/-- The lists of a size that the loops skip. -/
def skipsSquare (size list : Nat) : Bool :=
  (size = SCALING_LIST_2x2 ∧ list < 4) ∨
    (size = SCALING_LIST_64x64 ∧ list % (SCALING_LIST_NUM / SCALING_LIST_PRED_MODES) ≠ 0)

/-- The loops over the square sizes; `scalingListId` counts the rounds. -/
def squareDerivations : List Derivation :=
  let rounds := (List.range' SCALING_LIST_FIRST_CODED SCALING_LIST_LAST_CODED).flatMap fun size =>
    ((List.range SCALING_LIST_NUM).filter fun list => !skipsSquare size list).map fun list =>
      (⟨size, size, list⟩ : MatrixId)
  rounds.zipIdx.map fun round => ⟨round.1, round.2⟩

/-- The sizes that the loops over the other blocks skip. -/
def skipsRec (sizew sizeh : Nat) : Bool :=
  sizew = sizeh ∨ (sizew = SCALING_LIST_1x1 ∧ sizeh < SCALING_LIST_4x4) ∨
    (sizeh = SCALING_LIST_1x1 ∧ sizew < SCALING_LIST_4x4)

/-- The loops over the other sizes, with `recScalingListId`. -/
def recDerivations : List Derivation :=
  let sizes := List.range (SCALING_LIST_LAST_CODED + 1)
  sizes.flatMap fun sizew => (sizes.filter fun sizeh => !skipsRec sizew sizeh).flatMap fun sizeh =>
    let largerSide := max sizew sizeh
    ((List.range SCALING_LIST_NUM).filter fun list =>
      !(largerSide = SCALING_LIST_64x64 ∧
        list % (SCALING_LIST_NUM / SCALING_LIST_PRED_MODES) ≠ 0)).map fun list =>
      ⟨⟨sizew, sizeh, list⟩, SCALING_LIST_NUM * (largerSide - 2) + 2 +
        list / (if largerSide = SCALING_LIST_64x64 then 3 else 1)⟩

/-- The dequantisation matrices; the QP is the loop inside. -/
def setMatricesDec (scalingList : ScalingList) (matrices : MatrixId → Nat → Nat → Int) :
    MatrixId → Nat → Nat → Int :=
  assign Derivation.id
    (fun derivation => assign id (xSetScalingListDec scalingList derivation)
      (List.range SCALING_LIST_REM_NUM))
    (squareDerivations ++ recDerivations) matrices

/-- The quantisation matrices. -/
def setMatricesEnc (scalingList : ScalingList) (matrices : MatrixId → Nat → Nat → Int) :
    Checked (MatrixId → Nat → Nat → Int) :=
  assignM Derivation.id
    (fun derivation => assignM id (xSetScalingListEnc scalingList derivation)
      (List.range SCALING_LIST_REM_NUM))
    (squareDerivations ++ recDerivations) matrices

def setScalingListDec (scalingList : ScalingList) (quant : Quant) : Quant :=
  { quant with dequantCoef := setMatricesDec scalingList quant.dequantCoef }

def setScalingList (scalingList : ScalingList) (quant : Quant) : Checked Quant := do
  let quantCoef ← setMatricesEnc scalingList quant.quantCoef
  pure { quant with
    quantCoef := quantCoef
    dequantCoef := setMatricesDec scalingList quant.dequantCoef }

def setUseScalingList (bUseScalingList : Bool) (quant : Quant) : Quant :=
  { quant with scalingListEnabledFlag := bUseScalingList }

end Quant

end Vtm
