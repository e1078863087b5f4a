import Vtm.Common.InterSyntax

/-!
# Merge data: reading

`CABACReader::merge_data` and what it calls. A coding unit has one prediction unit, so
`cu.firstPU` is the prediction unit that is read.
-/

namespace Vtm.CABACReader

open Vtm.Std InterSyntax

/-- The loop over the bins of an index behind its first bin. -/
def readIdxLoop : Nat → Nat → BinReader Nat
  | 0, idx => pure idx
  | left + 1, idx => do
      let more ← decodeBinEP
      if more then readIdxLoop left (idx + 1) else return idx

/-- An index of at most `numCandminus1`, the first bin under a context. -/
def readIdx (ctxId : Ctx) (numCandminus1 : Nat) : BinReader Nat := do
  let bin ← decodeBin ctxId
  if bin then readIdxLoop (numCandminus1 - 1) 1 else return 0

def decodeOneIdx (numCandminus1 : Nat) : BinReader Nat :=
  if 0 < numCandminus1 then readIdx ⟨.MergeIdx, 0⟩ numCandminus1 else pure 0

/-- The branch of `merge_idx` for a triangle unit. -/
def readTriangle (cs : CodingStructure) (pu : PredictionUnit) : BinReader PredictionUnit := do
  let splitDir ← decodeBinEP
  check (cs.maxNumTriangleCand < 2) "Incorrect max number of triangle candidates"
  let candIdx0 ← decodeOneIdx (cs.maxNumTriangleCand - 1)
  let candIdx1 ← decodeOneIdx (cs.maxNumTriangleCand - 2)
  let candIdx1 := candIdx1 + if candIdx1 ≥ candIdx0 then 1 else 0
  return { pu with
    triangleSplitDir := splitDir.toNat
    triangleMergeIdx0 := candIdx0
    triangleMergeIdx1 := candIdx1 }

/-- `merge_idx`. -/
def mergeIdx (cs : CodingStructure) (pu : PredictionUnit) : BinReader PredictionUnit :=
  if pu.cu.affine then
    if 0 < cs.maxNumAffineMergeCand - 1 then do
      let mergeIdx ← readIdx ⟨.AffMergeIdx, 0⟩ (cs.maxNumAffineMergeCand - 1)
      return { pu with mergeIdx }
    else pure { pu with mergeIdx := 0 }
  else if pu.cu.triangle then readTriangle cs { pu with mergeIdx := 0 }
  else
    let numCandminus1 :=
      if pu.cu.predMode = .MODE_IBC then cs.maxNumIBCMergeCand - 1 else cs.maxNumMergeCand - 1
    if 0 < numCandminus1 then do
      let mergeIdx ← readIdx ⟨.MergeIdx, 0⟩ numCandminus1
      return { pu with mergeIdx }
    else pure { pu with mergeIdx := 0 }

/-- The base candidate of `mmvd_merge_idx`. -/
def readMmvdBase (cs : CodingStructure) : BinReader Nat :=
  if cs.maxNumMergeCand > 1 then do
    let var0 ← decodeBin ⟨.MmvdMergeIdx, 0⟩
    return var0.toNat
  else pure 0

/-- `mmvd_merge_idx`. -/
def mmvdMergeIdx (cs : CodingStructure) (pu : PredictionUnit) : BinReader PredictionUnit := do
  let var0 ← readMmvdBase cs
  let var1 ← readIdx ⟨.MmvdStepMvpIdx, 0⟩ (MMVD_REFINE_STEP - 1)
  let high ← decodeBinEP
  let low ← decodeBinEP
  let var2 := (if high then 2 else 0) + if low then 1 else 0
  return { pu with mmvdMergeIdx := var0 * MMVD_MAX_REFINE_NUM + var1 * 4 + var2 }

/-- `subblock_merge_flag`. -/
def subblockMergeFlag (cs : CodingStructure) (pu : PredictionUnit) : BinReader PredictionUnit :=
  if cs.hasSubblockMergeFlag pu.cu then do
    let affine ← decodeBin ⟨.SubblockMergeFlag, cs.CtxAffineFlag⟩
    return { pu with cu.affine := affine }
  else pure { pu with cu.affine := false }

/-- `MHIntra_flag`. -/
def mhIntraFlag (cs : CodingStructure) (pu : PredictionUnit) : BinReader PredictionUnit :=
  if ¬ cs.useMHIntra then pure { pu with mhIntraFlag := false }
  else if pu.cu.skip then pure { pu with mhIntraFlag := false }
  else do
    let mhIntraFlag ← decodeBin ⟨.MHIntraFlag, 0⟩
    return { pu with mhIntraFlag }

/-- `regular_merge_flag`. The flag `skip` is that of the copy of the coding unit. -/
def readRegularMergeFlag (cs : CodingStructure) (skip : Bool) (pu : PredictionUnit) :
    BinReader PredictionUnit :=
  if cs.hasRegularMergeFlag pu.cu then do
    let regularMergeFlag ← decodeBin ⟨.RegularMergeFlag, if skip then 0 else 1⟩
    return { pu with regularMergeFlag }
  else pure { pu with regularMergeFlag := true }

/-- `mmvd_merge_flag`, with the copy `cu` of the coding unit: `mmvdSkip` is stored there. -/
def readMmvdMergeFlag (cs : CodingStructure) (cu : InterSyntax.CodingUnit) (pu : PredictionUnit) :
    BinReader (InterSyntax.CodingUnit × PredictionUnit) := do
  let pu ← if cs.useMMVD then do
      let mmvdMergeFlag ← decodeBin ⟨.MmvdFlag, 0⟩
      pure { pu with mmvdMergeFlag }
    else pure { pu with mmvdMergeFlag := false }
  return (if cu.skip then { cu with mmvdSkip := pu.mmvdMergeFlag } else cu, pu)

/-- `mhIntraFlag` of a unit that is not a regular one. -/
def readMHIntraFlag (cs : CodingStructure) (pu : PredictionUnit) : BinReader PredictionUnit :=
  if cs.triangleAvailable ∧ cs.ciipAvailable pu.cu then mhIntraFlag cs pu
  else if cs.ciipAvailable pu.cu then pure { pu with mhIntraFlag := true }
  else pure { pu with mhIntraFlag := false }

/-- What `mhIntraFlag` implies. -/
def setIrregular (pu : PredictionUnit) : PredictionUnit :=
  if pu.mhIntraFlag then
    { pu with intraDir := fun chroma => if chroma then DM_CHROMA_IDX else PLANAR_IDX }
  else { pu with cu.triangle := true }

/-- The index of a unit that is neither `MODE_IBC` nor affine. -/
@[grind =] def readRegularIdx (cs : CodingStructure) (pu : PredictionUnit) : BinReader PredictionUnit :=
  if pu.mmvdMergeFlag ∨ pu.cu.mmvdSkip then mmvdMergeIdx cs pu else mergeIdx cs pu

/-- `merge_data`. -/
def mergeData (cs : CodingStructure) (pu : PredictionUnit) : BinReader PredictionUnit :=
  if pu.cu.isIBC then mergeIdx cs pu
  else do
    -- a copy, not a reference
    let cu := pu.cu
    let pu ← subblockMergeFlag cs pu
    if pu.cu.affine then
      let pu ← mergeIdx cs pu
      return { pu with regularMergeFlag := false }
    else
      let pu ← readRegularMergeFlag cs cu.skip pu
      if pu.regularMergeFlag then
        let (_, pu) ← readMmvdMergeFlag cs cu pu
        readRegularIdx cs pu
      else
        let pu := { pu with mmvdMergeFlag := false, cu.mmvdSkip := false }
        let pu ← readMHIntraFlag cs pu
        readRegularIdx cs (setIrregular pu)

end Vtm.CABACReader
