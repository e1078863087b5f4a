import Vtm.Common.APS
import Vtm.Common.Dequant
import Vtm.Std.CheckedArray

/-!
# Luma mapping with chroma scaling

`Reshape` builds the tables of the luma mapping from the model of an APS. An access outside an
array, a division by zero and a shift by a negative amount end the construction. A `Pel` has 16
bits. Where a product does not fit an `int` the source has no defined value; here it is kept whole.
-/

namespace Vtm

open Vtm.Std
open Vtm.AdaptationSets (SliceReshapeInfo PIC_CODE_CW_BINS)
open ChromaQpMappingTableParams (Clip3)

def FP_PREC : Nat := 11
def CSCALE_FP_PREC : Nat := 11

/-- A quotient of type `int`. -/
def divide (a b : Int) : Checked Int :=
  if b = 0 then .error "division by zero" else .ok (a.tdiv b)

/-- `1 << shift`. -/
def oneShiftLeft (shift : Int) : Checked Int :=
  if 0 ≤ shift then .ok (2 ^ shift.toNat) else .error "negative shift"

/-- `a >> shift`. -/
def shiftRight (a shift : Int) : Checked Int :=
  if 0 ≤ shift then .ok (a >>> shift.toNat) else .error "negative shift"

/-- A value stored in a `Pel`. -/
def toPel (a : Int) : Int := a.bmod (2 ^ 16)

/-- A value stored in a `uint16_t`. -/
def toUInt16 (a : Int) : Int := a % 2 ^ 16

/-- A `uint32_t` stored in an `int`. -/
def uintToInt (a : Nat) : Int := (a : Int).bmod (2 ^ 32)

/-- `Reshape`, without what only the CTUs use. -/
structure Reshape where
  sliceReshapeInfo : SliceReshapeInfo
  invLUT : CheckedArray Int
  fwdLUT : CheckedArray Int
  chromaAdjHelpLUT : CheckedArray Int
  binCW : CheckedArray Int
  initCW : Int
  reshapePivot : CheckedArray Int
  inputPivot : CheckedArray Int
  fwdScaleCoef : CheckedArray Int
  invScaleCoef : CheckedArray Int
  lumaBD : Nat
  reshapeLUTSize : Nat

namespace Reshape

def createDec (r : Reshape) (bitDepth : Nat) : Reshape :=
  let reshapeLUTSize := 2 ^ bitDepth
  { r with
    lumaBD := bitDepth
    reshapeLUTSize := reshapeLUTSize
    initCW := toUInt16 (reshapeLUTSize / PIC_CODE_CW_BINS : Nat)
    fwdLUT := r.fwdLUT.resizeEmpty reshapeLUTSize 0
    invLUT := r.invLUT.resizeEmpty reshapeLUTSize 0
    binCW := r.binCW.resizeEmpty PIC_CODE_CW_BINS 0
    inputPivot := r.inputPivot.resizeEmpty (PIC_CODE_CW_BINS + 1) 0
    fwdScaleCoef := r.fwdScaleCoef.resizeEmpty PIC_CODE_CW_BINS (2 ^ FP_PREC)
    invScaleCoef := r.invScaleCoef.resizeEmpty PIC_CODE_CW_BINS (2 ^ FP_PREC)
    reshapePivot := r.reshapePivot.resizeEmpty (PIC_CODE_CW_BINS + 1) 0
    chromaAdjHelpLUT := r.chromaAdjHelpLUT.resizeEmpty PIC_CODE_CW_BINS (2 ^ CSCALE_FP_PREC) }

/-- The loop of `getPWLIdxInv`, from `idxS` on. -/
def searchPivot (r : Reshape) (lumaVal : Int) : Nat → Int → Checked Int
  | 0, idxS => .ok idxS
  | count + 1, idxS => do
      let pivot ← r.reshapePivot.get (idxS + 1)
      if lumaVal < pivot then return idxS else searchPivot r lumaVal count (idxS + 1)

def getPWLIdxInv (r : Reshape) (lumaVal : Int) : Checked Int := do
  let info := r.sliceReshapeInfo
  let idxS ← r.searchPivot lumaVal
    (info.reshaperModelMaxBinIdx + 1 - info.reshaperModelMinBinIdx)
    (uintToInt info.reshaperModelMinBinIdx)
  return min idxS (PIC_CODE_CW_BINS - 1)

def calculateChromaAdj (r : Reshape) (avgLuma : Int) : Checked Int := do
  let lumaIdx := Clip3 0 (2 ^ r.lumaBD - 1) avgLuma
  r.chromaAdjHelpLUT.get (← r.getPWLIdxInv lumaIdx)

/-- The first three loops of `constructReshaper`. -/
def setBinCW (r : Reshape) : Checked (CheckedArray Int) := do
  let info := r.sliceReshapeInfo
  let delta : CheckedArray Int := ⟨PIC_CODE_CW_BINS, info.reshaperModelBinCWDelta⟩
  let binCW ← forRange 0 info.reshaperModelMinBinIdx (fun binCW i => binCW.set i 0) r.binCW
  let binCW ← forRange (uintToInt ((info.reshaperModelMaxBinIdx + 1) % 2 ^ 32)) PIC_CODE_CW_BINS
    (fun binCW i => binCW.set i 0) binCW
  forRange info.reshaperModelMinBinIdx (info.reshaperModelMaxBinIdx + 1) (fun binCW i => do
    binCW.set i (toUInt16 ((← delta.get i) + r.initCW))) binCW

/-- The scales of a bin. -/
def setScales (r : Reshape) (i : Int) : Checked Reshape := do
  let binCW ← r.binCW.get i
  if binCW = 0 then
    let invScaleCoef ← r.invScaleCoef.set i 0
    let chromaAdjHelpLUT ← r.chromaAdjHelpLUT.set i (2 ^ CSCALE_FP_PREC)
    return { r with invScaleCoef := invScaleCoef, chromaAdjHelpLUT := chromaAdjHelpLUT }
  else
    let invScaleCoef ← r.invScaleCoef.set i (← divide (r.initCW * 2 ^ FP_PREC) binCW)
    let chromaAdjHelpLUT ← r.chromaAdjHelpLUT.set i
      (← divide (r.initCW * 2 ^ FP_PREC) (binCW + r.sliceReshapeInfo.chrResScalingOffset))
    return { r with invScaleCoef := invScaleCoef, chromaAdjHelpLUT := chromaAdjHelpLUT }

/-- The round of a bin in `constructReshaper`. -/
def setBin (r : Reshape) (i : Int) : Checked Reshape := do
  let log2BinLen := floorLog2 (r.reshapeLUTSize / PIC_CODE_CW_BINS)
  let binCW ← r.binCW.get i
  let reshapePivot ← r.reshapePivot.set (i + 1) (toPel ((← r.reshapePivot.get i) + binCW))
  let inputPivot ← r.inputPivot.set (i + 1) (toPel ((← r.inputPivot.get i) + r.initCW))
  let half ← oneShiftLeft (log2BinLen - 1)
  let fwdScaleCoef ← r.fwdScaleCoef.set i (← shiftRight (binCW * 2 ^ FP_PREC + half) log2BinLen)
  setScales { r with
    reshapePivot := reshapePivot
    inputPivot := inputPivot
    fwdScaleCoef := fwdScaleCoef } i

/-- A value of a linear piece. -/
def pieceValue (pivot coef offset : Int) : Int :=
  pivot + (coef * offset + 2 ^ (FP_PREC - 1)) >>> FP_PREC

/-- A value stored in a table: the bounds and the value are of type `Pel`. -/
def clipPel (r : Reshape) (value : Int) : Int :=
  Clip3 (toPel 0) (toPel (2 ^ r.lumaBD - 1)) (toPel value)

/-- The round of a sample in `constructReshaper`. -/
def setSample (r : Reshape) (lumaSample : Int) : Checked Reshape := do
  let idxY ← divide lumaSample r.initCW
  let tempVal := pieceValue (← r.reshapePivot.get idxY) (← r.fwdScaleCoef.get idxY)
    (lumaSample - (← r.inputPivot.get idxY))
  let fwdLUT ← r.fwdLUT.set lumaSample (r.clipPel tempVal)
  let idxYInv ← r.getPWLIdxInv lumaSample
  let invSample := pieceValue (← r.inputPivot.get idxYInv) (← r.invScaleCoef.get idxYInv)
    (lumaSample - (← r.reshapePivot.get idxYInv))
  let invLUT ← r.invLUT.set lumaSample (r.clipPel invSample)
  return { r with fwdLUT := fwdLUT, invLUT := invLUT }

def constructReshaper (r : Reshape) : Checked Reshape := do
  let binCW ← r.setBinCW
  let r ← forRange 0 PIC_CODE_CW_BINS setBin { r with binCW := binCW }
  forRange 0 r.reshapeLUTSize setSample r

/-- What the decoder copies from an APS before it calls `constructReshaper`. -/
def setInfo (r : Reshape) (info : SliceReshapeInfo) : Reshape := { r with sliceReshapeInfo := info }

/-- `Reshape::Reshape`: the arrays are empty. -/
def empty (info : SliceReshapeInfo) : Reshape where
  sliceReshapeInfo := info
  invLUT := ⟨0, fun _ => 0⟩
  fwdLUT := ⟨0, fun _ => 0⟩
  chromaAdjHelpLUT := ⟨0, fun _ => 0⟩
  binCW := ⟨0, fun _ => 0⟩
  initCW := 0
  reshapePivot := ⟨0, fun _ => 0⟩
  inputPivot := ⟨0, fun _ => 0⟩
  fwdScaleCoef := ⟨0, fun _ => 0⟩
  invScaleCoef := ⟨0, fun _ => 0⟩
  lumaBD := 0
  reshapeLUTSize := 0

/-- The states of the reshaper of a decoder: it is created for the bit depth of a sequence, and
built for the mapping models of its pictures. -/
inductive Reachable : Reshape → Prop
  | created (info : SliceReshapeInfo) {bitDepth : Nat} (depth : 8 ≤ bitDepth ∧ bitDepth ≤ 16) :
      Reachable ((empty info).createDec bitDepth)
  | createDec {r : Reshape} (reachable : Reachable r) {bitDepth : Nat}
      (depth : 8 ≤ bitDepth ∧ bitDepth ≤ 16) : Reachable (r.createDec bitDepth)
  | constructReshaper {r r' : Reshape} (reachable : Reachable r) (info : SliceReshapeInfo)
      (run : (r.setInfo info).constructReshaper = .ok r') : Reachable r'

end Reshape

end Vtm
