import Vtm.Common.InterSyntax

/-!
# Merge data: writing

`CABACWriter::merge_data` and what it calls.
-/

namespace Vtm.CABACWriter

open Vtm.Std InterSyntax

/-- The loop over the bins of an index behind its first bin. -/
def codeIdxLoop (mrgIdx : Nat) : Nat → Nat → BinWriter Unit
  | 0, _ => pure ()
  | left + 1, idx => do
      encodeBinEP (mrgIdx ≠ idx)
      if mrgIdx = idx then pure () else codeIdxLoop mrgIdx left (idx + 1)

/-- An index of at most `numCandminus1`, the first bin under a context. -/
def codeIdx (ctxId : Ctx) (mrgIdx numCandminus1 : Nat) : BinWriter Unit :=
  if mrgIdx = 0 then encodeBin false ctxId
  else do
    encodeBin true ctxId
    codeIdxLoop mrgIdx (numCandminus1 - 1) 1

def encodeOneIdx (mrgIdx numCandminus1 : Nat) : BinWriter Unit :=
  if numCandminus1 = 0 then check (mrgIdx ≠ 0) "Incorrect index!"
  else codeIdx ⟨.MergeIdx, 0⟩ mrgIdx numCandminus1

/-- The branch of `merge_idx` for a triangle unit. The indices are bytes. -/
def codeTriangle (cs : CodingStructure) (pu : PredictionUnit) : BinWriter Unit := do
  let candIdx0 := pu.triangleMergeIdx0
  let candIdx1 := pu.triangleMergeIdx1
  let candIdx1 := if candIdx1 < candIdx0 then candIdx1 else (candIdx1 + MAX_UCHAR) % 2 ^ 8
  encodeBinEP (pu.triangleSplitDir ≠ 0)
  check (cs.maxNumTriangleCand < 2) "Incorrect max number of triangle candidates"
  check (candIdx0 ≥ cs.maxNumTriangleCand) "Incorrect candIdx0"
  check (candIdx1 ≥ cs.maxNumTriangleCand) "Incorrect candIdx1"
  encodeOneIdx candIdx0 (cs.maxNumTriangleCand - 1)
  encodeOneIdx candIdx1 (cs.maxNumTriangleCand - 2)

/-- `merge_idx`. -/
def mergeIdx (cs : CodingStructure) (pu : PredictionUnit) : BinWriter Unit :=
  if pu.cu.affine then
    if 0 < cs.maxNumAffineMergeCand - 1 then
      codeIdx ⟨.AffMergeIdx, 0⟩ pu.mergeIdx (cs.maxNumAffineMergeCand - 1)
    else pure ()
  else if pu.cu.triangle then codeTriangle cs pu
  else
    let numCandminus1 :=
      if pu.cu.predMode = .MODE_IBC then cs.maxNumIBCMergeCand - 1 else cs.maxNumMergeCand - 1
    if 0 < numCandminus1 then codeIdx ⟨.MergeIdx, 0⟩ pu.mergeIdx numCandminus1 else pure ()

/-- The base candidate of `mmvd_merge_idx`. -/
def codeMmvdBase (cs : CodingStructure) (var0 : Nat) : BinWriter Unit :=
  if cs.maxNumMergeCand > 1 then do
    check (¬ var0 < 2) "var0 < 2"
    encodeBin (var0 ≠ 0) ⟨.MmvdMergeIdx, 0⟩
  else pure ()

/-- `mmvd_merge_idx`. -/
def mmvdMergeIdx (cs : CodingStructure) (pu : PredictionUnit) : BinWriter Unit := do
  let mvpIdx := pu.mmvdMergeIdx
  let var0 := mvpIdx / MMVD_MAX_REFINE_NUM
  let var1 := (mvpIdx - var0 * MMVD_MAX_REFINE_NUM) / 4
  let var2 := mvpIdx - var0 * MMVD_MAX_REFINE_NUM - var1 * 4
  codeMmvdBase cs var0
  codeIdx ⟨.MmvdStepMvpIdx, 0⟩ var1 (MMVD_REFINE_STEP - 1)
  encodeBinsEP var2 2

/-- `subblock_merge_flag`. -/
def subblockMergeFlag (cs : CodingStructure) (cu : InterSyntax.CodingUnit) : BinWriter Unit :=
  if cs.hasSubblockMergeFlag cu then
    encodeBin cu.affine ⟨.SubblockMergeFlag, cs.CtxAffineFlag⟩
  else pure ()

/-- `MHIntra_flag`. -/
def mhIntraFlag (cs : CodingStructure) (pu : PredictionUnit) : BinWriter Unit :=
  if ¬ cs.useMHIntra then check (pu.mhIntraFlag = true) "invalid MHIntra SPS"
  else if pu.cu.skip then check (pu.mhIntraFlag = true) "invalid MHIntra and skip"
  else encodeBin pu.mhIntraFlag ⟨.MHIntraFlag, 0⟩

/-- `regular_merge_flag`. -/
def codeRegularMergeFlag (cs : CodingStructure) (pu : PredictionUnit) : BinWriter Unit :=
  if cs.hasRegularMergeFlag pu.cu then
    encodeBin pu.regularMergeFlag ⟨.RegularMergeFlag, if pu.cu.skip then 0 else 1⟩
  else pure ()

/-- `mmvd_merge_flag`. -/
def codeMmvdMergeFlag (cs : CodingStructure) (pu : PredictionUnit) : BinWriter Unit :=
  if cs.useMMVD then encodeBin pu.mmvdMergeFlag ⟨.MmvdFlag, 0⟩ else pure ()

/-- The index of a unit that is neither `MODE_IBC` nor affine. -/
def codeRegularIdx (cs : CodingStructure) (pu : PredictionUnit) : BinWriter Unit :=
  if pu.mmvdMergeFlag ∨ pu.cu.mmvdSkip then mmvdMergeIdx cs pu else mergeIdx cs pu

/-- `MHIntra_flag`, where both tools are available. -/
def codeMHIntraFlag (cs : CodingStructure) (pu : PredictionUnit) : BinWriter Unit :=
  if cs.triangleAvailable ∧ cs.ciipAvailable pu.cu then mhIntraFlag cs pu else pure ()

/-- `merge_data`. -/
def mergeData (cs : CodingStructure) (pu : PredictionUnit) : BinWriter Unit :=
  if pu.cu.isIBC then mergeIdx cs pu
  else do
    subblockMergeFlag cs pu.cu
    if pu.cu.affine then mergeIdx cs pu
    else
      codeRegularMergeFlag cs pu
      if pu.regularMergeFlag then
        codeMmvdMergeFlag cs pu
        codeRegularIdx cs pu
      else
        codeMHIntraFlag cs pu
        mergeIdx cs pu

end Vtm.CABACWriter
