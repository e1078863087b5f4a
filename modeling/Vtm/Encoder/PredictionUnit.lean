import Vtm.Common.MvPrecision
import Vtm.Encoder.MergeData
import Vtm.Encoder.Symbols

/-!
# Prediction units: writing

`CABACWriter::prediction_unit` and what it calls. A table access past its end stops the writer.
-/

namespace Vtm.CABACWriter

open Vtm.Std InterSyntax
open Motion (Mv MV_BITS)
open RefPics (RefPicList)

/-- The greater-than-one flag of a component that is not zero. -/
def codeMvdGreater1 (abs : Nat) : BinWriter Unit :=
  if abs > 0 then encodeBin (abs > 1) ⟨.Mvd, 1⟩ else pure ()

/-- `abs_mvd_minus2`. -/
def codeMvdMinus2 (abs : Nat) : BinWriter Unit :=
  if abs > 1 then encodeRemAbsEP (abs - 2) 1 0 (MV_BITS - 1) else pure ()

/-- `abs_mvd_minus2` and `mvd_sign_flag` of a component that is not zero. -/
def codeMvdSuffix (mvd : Int) : BinWriter Unit :=
  if mvd.natAbs > 0 then do
    codeMvdMinus2 mvd.natAbs
    encodeBinEP (mvd < 0)
  else pure ()

/-- `mvd_coding` with `imv` 0, as all callers have it: the difference already has the precision in
which it is signalled. -/
def mvdCoding (rMvd : Mv) : BinWriter Unit := do
  encodeBin (rMvd.hor.natAbs > 0) ⟨.Mvd, 0⟩
  encodeBin (rMvd.ver.natAbs > 0) ⟨.Mvd, 0⟩
  codeMvdGreater1 rMvd.hor.natAbs
  codeMvdGreater1 rMvd.ver.natAbs
  codeMvdSuffix rMvd.hor
  codeMvdSuffix rMvd.ver

/-- `merge_flag`, or the check in its place. -/
def codeMergeFlag (pu : PredictionUnit) : BinWriter Unit :=
  if pu.cu.skip then check (pu.mergeFlag = false) "merge_flag must be true for skipped CUs"
  else encodeBin pu.mergeFlag ⟨.MergeFlag, 0⟩

/-- `inter_pred_idc`. -/
def interPredIdc (cs : CodingStructure) (pu : PredictionUnit) : BinWriter Unit :=
  let uni := encodeBin (pu.interDir = 2) ⟨.InterDir, 5⟩
  if ¬ cs.isInterB then pure ()
  else if ¬ isBipredRestriction pu.cu then
    if pu.interDir = 3 then encodeBin true ⟨.InterDir, CtxInterDir pu.cu⟩
    else do
      encodeBin false ⟨.InterDir, CtxInterDir pu.cu⟩
      uni
  else uni

/-- `affine_type`. -/
def codeAffineType (cs : CodingStructure) (cu : InterSyntax.CodingUnit) : BinWriter Unit :=
  if cu.affine ∧ cs.useAffineType then
    encodeBin (cu.affineType ≠ .AFFINEMODEL_4PARAM) ⟨.AffineType, 0⟩
  else pure ()

/-- `affine_flag`. -/
def affineFlag (cs : CodingStructure) (cu : InterSyntax.CodingUnit) : BinWriter Unit :=
  if cs.hasAffineFlag cu then do
    encodeBin cu.affine ⟨.AffineFlag, cs.CtxAffineFlag⟩
    codeAffineType cs cu
  else pure ()

/-- `smvd_mode`. -/
def smvdMode (cs : CodingStructure) (pu : PredictionUnit) : BinWriter Unit :=
  if pu.interDir ≠ 3 ∨ pu.cu.affine then pure ()
  else if cs.biDirPred = false then pure ()
  else encodeBin (pu.cu.smvdMode ≠ 0) ⟨.SmvdFlag, 0⟩

/-- The loop of `ref_idx`, with `left` rounds to go. -/
def refIdxLoop (refIdx : Int) : Nat → Nat → BinWriter Unit
  | 0, _ => pure ()
  | left + 1, idx =>
      if refIdx > (idx : Int) - 1 then do
        encodeBinEP true
        refIdxLoop refIdx left (idx + 1)
      else encodeBinEP false

/-- The bins of `ref_idx`. -/
def codeRefIdx (refIdx : Int) (numRef : Nat) : BinWriter Unit :=
  if numRef ≤ 1 then pure ()
  else do
    encodeBin (refIdx > 0) ⟨.RefPic, 0⟩
    if numRef ≤ 2 ∨ refIdx = 0 then pure ()
    else
      encodeBin (refIdx > 1) ⟨.RefPic, 1⟩
      if numRef ≤ 3 ∨ refIdx = 1 then pure () else refIdxLoop refIdx (numRef - 3) 3

/-- `ref_idx`. -/
def refIdx (cs : CodingStructure) (pu : PredictionUnit) (eRefList : RefPicList) : BinWriter Unit :=
  if pu.cu.smvdMode ≠ 0 then
    check (pu.refIdx eRefList ≠ cs.symRefIdx eRefList) "Invalid reference index!\n"
  else if eRefList = .REF_PIC_LIST_0 ∧ cs.IBCFlag ∧ pu.cu.isIBC then pure ()
  else codeRefIdx (pu.refIdx eRefList) (cs.numRefIdx eRefList)

/-- `mvp_flag`. -/
def mvpFlag (pu : PredictionUnit) (eRefList : RefPicList) : BinWriter Unit :=
  encodeBin (pu.mvpIdx eRefList ≠ 0) ⟨.MVPIdx, 0⟩

/-- The difference of a control point. -/
def codeMvdAffi (pu : PredictionUnit) (eRefList : RefPicList) (corner : Nat) : BinWriter Unit := do
  let mvd ← (pu.mvdAffi eRefList corner).changeAffinePrecInternal2Amvr pu.cu.imv
  mvdCoding mvd

/-- The difference of the third control point. -/
def codeMvdAffiLB (pu : PredictionUnit) (eRefList : RefPicList) : BinWriter Unit :=
  if pu.cu.affineType = .AFFINEMODEL_6PARAM then codeMvdAffi pu eRefList 2 else pure ()

/-- The differences of a list. -/
def codeMvds (pu : PredictionUnit) (eRefList : RefPicList) : BinWriter Unit :=
  if pu.cu.affine then do
    codeMvdAffi pu eRefList 0
    codeMvdAffi pu eRefList 1
    codeMvdAffiLB pu eRefList
  else do
    let mvd ← (pu.mvd eRefList).changeTransPrecInternal2Amvr pu.cu.imv
    mvdCoding mvd

/-- The first list. -/
def codeList0 (cs : CodingStructure) (pu : PredictionUnit) : BinWriter Unit :=
  if pu.interDir ≠ 2 then do
    refIdx cs pu .REF_PIC_LIST_0
    codeMvds pu .REF_PIC_LIST_0
    mvpFlag pu .REF_PIC_LIST_0
  else pure ()

/-- The differences of the second list. -/
def codeMvdsList1 (cs : CodingStructure) (pu : PredictionUnit) : BinWriter Unit :=
  if ¬ cs.mvdL1ZeroFlag ∨ pu.interDir ≠ 3 then codeMvds pu .REF_PIC_LIST_1 else pure ()

/-- The reference index and the differences of the second list, unless they are mirrored. -/
def codeMotionList1 (cs : CodingStructure) (pu : PredictionUnit) : BinWriter Unit :=
  if pu.cu.smvdMode ≠ 1 then do
    refIdx cs pu .REF_PIC_LIST_1
    codeMvdsList1 cs pu
  else pure ()

/-- The second list. -/
def codeList1 (cs : CodingStructure) (pu : PredictionUnit) : BinWriter Unit :=
  if pu.interDir ≠ 1 then do
    codeMotionList1 cs pu
    mvpFlag pu .REF_PIC_LIST_1
  else pure ()

/-- The motion of a unit with `MODE_INTER`. -/
def codeInter (cs : CodingStructure) (pu : PredictionUnit) : BinWriter Unit := do
  interPredIdc cs pu
  affineFlag cs pu.cu
  smvdMode cs pu
  codeList0 cs pu
  codeList1 cs pu

/-- `mvp_flag` of a unit with `MODE_IBC`, or the check in its place. -/
def codeIbcMvpFlag (cs : CodingStructure) (pu : PredictionUnit) : BinWriter Unit :=
  if cs.maxNumIBCMergeCand = 1 then
    check (pu.mvpIdx .REF_PIC_LIST_0 ≠ 0) "mvpIdx for IBC mode should be 0"
  else mvpFlag pu .REF_PIC_LIST_0

/-- The block vector of a unit with `MODE_IBC`. -/
def codeIbc (cs : CodingStructure) (pu : PredictionUnit) : BinWriter Unit := do
  refIdx cs pu .REF_PIC_LIST_0
  let mvd ← (pu.mvd .REF_PIC_LIST_0).changeIbcPrecInternal2Amvr pu.cu.imv
  mvdCoding mvd
  codeIbcMvpFlag cs pu

/-- `prediction_unit`. -/
def predictionUnit (cs : CodingStructure) (pu : PredictionUnit) : BinWriter Unit := do
  codeMergeFlag pu
  if pu.mergeFlag then mergeData cs pu
  else if pu.cu.isIBC then codeIbc cs pu
  else codeInter cs pu

end Vtm.CABACWriter
