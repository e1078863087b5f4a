import Vtm.Common.AffineMerge
import Vtm.Common.MvPrecision
import Vtm.Decoder.MergeData
import Vtm.Decoder.Symbols

/-!
# Prediction units: reading

`CABACReader::prediction_unit` and what it calls, and `DecCu::xDeriveCUMV`, which makes the motion
vectors of a unit that is not merged.
-/

namespace Vtm.CABACReader

open Vtm.Std InterSyntax
open Function (update update_self)
open Motion (Mv MV_BITS otherList)
open RefPics (RefPicList)

def MVD_MIN : Int := -2 ^ 17

def MVD_MAX : Int := 2 ^ 17 - 1

/-- The range that is checked for a difference. -/
def LegalMvd (mvd : Mv) : Prop :=
  (MVD_MIN ≤ mvd.hor ∧ mvd.hor ≤ MVD_MAX) ∧ (MVD_MIN ≤ mvd.ver ∧ mvd.ver ≤ MVD_MAX)

instance (mvd : Mv) : Decidable (LegalMvd mvd) :=
  inferInstanceAs (Decidable (_ ∧ _))

/-- The greater-than-one flag of a component that is not zero. -/
def readMvdGreater1 (greater0 : Bool) : BinReader Nat :=
  if greater0 then do
    let greater1 ← decodeBin ⟨.Mvd, 1⟩
    return 1 + greater1.toNat
  else pure 0

/-- `abs_mvd_minus2`. -/
def readMvdMinus2 (abs : Nat) : BinReader Nat :=
  if abs > 1 then do
    let minus2 ← decodeRemAbsEP 1 0 (MV_BITS - 1)
    return abs + minus2
  else pure abs

/-- `abs_mvd_minus2` and `mvd_sign_flag` of a component that is not zero. -/
def readMvdSuffix (abs : Nat) : BinReader Int :=
  if abs > 0 then do
    let abs ← readMvdMinus2 abs
    let sign ← decodeBinEP
    return if sign then -(abs : Int) else abs
  else pure 0

/-- `mvd_coding`. -/
def mvdCoding : BinReader Mv := do
  let horGreater0 ← decodeBin ⟨.Mvd, 0⟩
  let verGreater0 ← decodeBin ⟨.Mvd, 0⟩
  let horAbs ← readMvdGreater1 horGreater0
  let verAbs ← readMvdGreater1 verGreater0
  let hor ← readMvdSuffix horAbs
  let ver ← readMvdSuffix verAbs
  check (¬ LegalMvd ⟨hor, ver⟩) "Illegal MVD value"
  return ⟨hor, ver⟩

/-- `merge_flag`, or what a skipped unit implies. -/
def readMergeFlag (pu : PredictionUnit) : BinReader PredictionUnit :=
  if pu.cu.skip then pure { pu with mergeFlag := true }
  else do
    let mergeFlag ← decodeBin ⟨.MergeFlag, 0⟩
    let pu := { pu with mergeFlag }
    return if mergeFlag ∧ pu.cu.isIBC then
      { pu with mmvdMergeFlag := false, regularMergeFlag := false } else pu

/-- The last bin of `inter_pred_idc`. -/
def readUniDir : BinReader Nat := do
  let second ← decodeBin ⟨.InterDir, 5⟩
  return if second then 2 else 1

/-- `inter_pred_idc`. -/
def interPredIdc (cs : CodingStructure) (pu : PredictionUnit) : BinReader PredictionUnit :=
  if cs.isInterP then pure { pu with interDir := 1 }
  else if ¬ isBipredRestriction pu.cu then do
    let bi ← decodeBin ⟨.InterDir, CtxInterDir pu.cu⟩
    if bi then return { pu with interDir := 3 }
    else
      let interDir ← readUniDir
      return { pu with interDir }
  else do
    let interDir ← readUniDir
    return { pu with interDir }

/-- `affine_type`. -/
def readAffineType (cs : CodingStructure) (pu : PredictionUnit) : BinReader PredictionUnit :=
  if pu.cu.affine ∧ cs.useAffineType then do
    let affineType ← decodeBin ⟨.AffineType, 0⟩
    return { pu with
      cu.affineType := if affineType then .AFFINEMODEL_6PARAM else .AFFINEMODEL_4PARAM }
  else pure { pu with cu.affineType := .AFFINEMODEL_4PARAM }

/-- `affine_flag`. -/
def affineFlag (cs : CodingStructure) (pu : PredictionUnit) : BinReader PredictionUnit :=
  if cs.hasAffineFlag pu.cu then do
    let affine ← decodeBin ⟨.AffineFlag, cs.CtxAffineFlag⟩
    readAffineType cs { pu with cu.affine := affine }
  else pure pu

/-- `smvd_mode`. -/
def smvdMode (cs : CodingStructure) (pu : PredictionUnit) : BinReader PredictionUnit :=
  if pu.interDir ≠ 3 ∨ pu.cu.affine then pure { pu with cu.smvdMode := 0 }
  else if cs.biDirPred = false then pure { pu with cu.smvdMode := 0 }
  else do
    let flag ← decodeBin ⟨.SmvdFlag, 0⟩
    return { pu with cu.smvdMode := if flag then 1 else 0 }

/-- The loop of `ref_idx`, with `left` rounds to go. -/
def refIdxLoop : Nat → Nat → BinReader Int
  | 0, idx => pure ((idx : Int) - 1)
  | left + 1, idx => do
      let more ← decodeBinEP
      if more then refIdxLoop left (idx + 1) else return (idx : Int) - 1

/-- The bins of `ref_idx`. -/
def readRefIdx (numRef : Nat) : BinReader Int :=
  if numRef ≤ 1 then pure 0
  else do
    let greater0 ← decodeBin ⟨.RefPic, 0⟩
    if greater0 = false then return 0
    else if numRef ≤ 2 then return 1
    else
      let greater1 ← decodeBin ⟨.RefPic, 1⟩
      if greater1 = false then return 1 else refIdxLoop (numRef - 3) 3

/-- Set a reference index. -/
def setRefIdx (pu : PredictionUnit) (eRefList : RefPicList) (refIdx : Int) : PredictionUnit :=
  { pu with refIdx := update pu.refIdx eRefList refIdx }

/-- Set a predictor index. -/
def setMvpIdx (pu : PredictionUnit) (eRefList : RefPicList) (mvpIdx : Nat) : PredictionUnit :=
  { pu with mvpIdx := update pu.mvpIdx eRefList mvpIdx }

/-- Set a difference. -/
def setMvd (pu : PredictionUnit) (eRefList : RefPicList) (mvd : Mv) : PredictionUnit :=
  { pu with mvd := update pu.mvd eRefList mvd }

/-- Set the difference of a control point. -/
def setMvdAffi (pu : PredictionUnit) (eRefList : RefPicList) (corner : Nat) (mvd : Mv) :
    PredictionUnit :=
  { pu with
    mvdAffi := update pu.mvdAffi eRefList
      (update (pu.mvdAffi eRefList) corner mvd) }

@[simp] theorem setRefIdx_self (pu : PredictionUnit) (X : RefPicList) (refIdx : Int) :
    (setRefIdx pu X refIdx).refIdx X = refIdx := update_self ..

@[simp] theorem setMvpIdx_self (pu : PredictionUnit) (X : RefPicList) (mvpIdx : Nat) :
    (setMvpIdx pu X mvpIdx).mvpIdx X = mvpIdx := update_self ..

@[simp] theorem setMvd_self (pu : PredictionUnit) (X : RefPicList) (mvd : Mv) :
    (setMvd pu X mvd).mvd X = mvd := update_self ..

@[simp] theorem setMvdAffi_self (pu : PredictionUnit) (X : RefPicList) (corner : Nat) (mvd : Mv) :
    (setMvdAffi pu X corner mvd).mvdAffi X = update (pu.mvdAffi X) corner mvd :=
  update_self ..

@[simp] theorem setMvpIdx_refIdx (pu : PredictionUnit) (X : RefPicList) (mvpIdx : Nat) :
    (setMvpIdx pu X mvpIdx).refIdx = pu.refIdx := rfl

@[simp] theorem setMvpIdx_mvd (pu : PredictionUnit) (X : RefPicList) (mvpIdx : Nat) :
    (setMvpIdx pu X mvpIdx).mvd = pu.mvd := rfl

@[simp] theorem setMvpIdx_mvdAffi (pu : PredictionUnit) (X : RefPicList) (mvpIdx : Nat) :
    (setMvpIdx pu X mvpIdx).mvdAffi = pu.mvdAffi := rfl

@[simp] theorem setMvd_refIdx (pu : PredictionUnit) (X : RefPicList) (mvd : Mv) :
    (setMvd pu X mvd).refIdx = pu.refIdx := rfl

@[simp] theorem setMvdAffi_refIdx (pu : PredictionUnit) (X : RefPicList) (corner : Nat) (mvd : Mv) :
    (setMvdAffi pu X corner mvd).refIdx = pu.refIdx := rfl

@[simp] theorem setMvdAffi_mvd (pu : PredictionUnit) (X : RefPicList) (corner : Nat) (mvd : Mv) :
    (setMvdAffi pu X corner mvd).mvd = pu.mvd := rfl

@[simp] theorem setMvdAffi_cu (pu : PredictionUnit) (X : RefPicList) (corner : Nat) (mvd : Mv) :
    (setMvdAffi pu X corner mvd).cu = pu.cu := rfl

/-- `ref_idx`. -/
def refIdx (cs : CodingStructure) (eRefList : RefPicList) (pu : PredictionUnit) :
    BinReader PredictionUnit :=
  if pu.cu.smvdMode ≠ 0 then pure (setRefIdx pu eRefList (cs.symRefIdx eRefList))
  else do
    let refIdx ← readRefIdx (cs.numRefIdx eRefList)
    return setRefIdx pu eRefList refIdx

/-- `mvp_flag`. -/
def mvpFlag (eRefList : RefPicList) (pu : PredictionUnit) : BinReader PredictionUnit := do
  let mvp_idx ← decodeBin ⟨.MVPIdx, 0⟩
  return setMvpIdx pu eRefList mvp_idx.toNat

/-- The difference of a control point. -/
def readMvdAffi (eRefList : RefPicList) (corner : Nat) (pu : PredictionUnit) :
    BinReader PredictionUnit := do
  let mvd ← mvdCoding
  return setMvdAffi pu eRefList corner mvd

/-- The difference of the third control point. -/
def readMvdAffiLB (eRefList : RefPicList) (pu : PredictionUnit) : BinReader PredictionUnit :=
  if pu.cu.affineType = .AFFINEMODEL_6PARAM then readMvdAffi eRefList 2 pu else pure pu

/-- The differences of a list. -/
def readMvds (eRefList : RefPicList) (pu : PredictionUnit) : BinReader PredictionUnit :=
  if pu.cu.affine then do
    let pu ← readMvdAffi eRefList 0 pu
    let pu ← readMvdAffi eRefList 1 pu
    readMvdAffiLB eRefList pu
  else do
    let mvd ← mvdCoding
    return setMvd pu eRefList mvd

/-- The first list. -/
def readList0 (cs : CodingStructure) (pu : PredictionUnit) : BinReader PredictionUnit :=
  if pu.interDir ≠ 2 then do
    let pu ← refIdx cs .REF_PIC_LIST_0 pu
    let pu ← readMvds .REF_PIC_LIST_0 pu
    mvpFlag .REF_PIC_LIST_0 pu
  else pure pu

/-- No differences in the second list. -/
@[grind =] def clearMvds (pu : PredictionUnit) : PredictionUnit :=
  setMvdAffi (setMvdAffi (setMvdAffi (setMvd pu .REF_PIC_LIST_1 .zero) .REF_PIC_LIST_1 0 .zero)
    .REF_PIC_LIST_1 1 .zero) .REF_PIC_LIST_1 2 .zero

@[simp] theorem clearMvds_refIdx (pu : PredictionUnit) : (clearMvds pu).refIdx = pu.refIdx := by
  unfold clearMvds
  rw [setMvdAffi_refIdx, setMvdAffi_refIdx, setMvdAffi_refIdx, setMvd_refIdx]

@[simp] theorem clearMvds_mvd (pu : PredictionUnit) :
    (clearMvds pu).mvd .REF_PIC_LIST_1 = .zero := by
  unfold clearMvds
  rw [setMvdAffi_mvd, setMvdAffi_mvd, setMvdAffi_mvd, setMvd_self]

theorem clearMvds_mvdAffi (pu : PredictionUnit) {corner : Nat} (few : corner < 3) :
    (clearMvds pu).mvdAffi .REF_PIC_LIST_1 corner = .zero := by
  unfold clearMvds
  rw [setMvdAffi_self, setMvdAffi_self, setMvdAffi_self]
  obtain rfl | rfl | rfl : corner = 0 ∨ corner = 1 ∨ corner = 2 := by omega
  all_goals simp [update]

/-- The differences of the second list. -/
def readMvdsList1 (cs : CodingStructure) (pu : PredictionUnit) : BinReader PredictionUnit :=
  if cs.mvdL1ZeroFlag ∧ pu.interDir = 3 then pure (clearMvds pu) else readMvds .REF_PIC_LIST_1 pu

/-- The reference index and the differences of the second list, unless they are mirrored. -/
def readMotionList1 (cs : CodingStructure) (pu : PredictionUnit) : BinReader PredictionUnit :=
  if pu.cu.smvdMode ≠ 1 then do
    let pu ← refIdx cs .REF_PIC_LIST_1 pu
    readMvdsList1 cs pu
  else pure pu

/-- The second list. -/
def readList1 (cs : CodingStructure) (pu : PredictionUnit) : BinReader PredictionUnit :=
  if pu.interDir ≠ 1 then do
    let pu ← readMotionList1 cs pu
    mvpFlag .REF_PIC_LIST_1 pu
  else pure pu

/-- The motion of a unit with `MODE_INTER`. -/
def readInter (cs : CodingStructure) (pu : PredictionUnit) : BinReader PredictionUnit := do
  let pu ← interPredIdc cs pu
  let pu ← affineFlag cs pu
  let pu ← smvdMode cs pu
  let pu ← readList0 cs pu
  readList1 cs pu

/-- `mvp_flag` of a unit with `MODE_IBC`. -/
def readIbcMvpFlag (cs : CodingStructure) (pu : PredictionUnit) : BinReader PredictionUnit :=
  if cs.maxNumIBCMergeCand = 1 then pure (setMvpIdx pu .REF_PIC_LIST_0 0)
  else mvpFlag .REF_PIC_LIST_0 pu

/-- The block vector of a unit with `MODE_IBC`. -/
def readIbc (cs : CodingStructure) (pu : PredictionUnit) : BinReader PredictionUnit := do
  let pu := setRefIdx { pu with interDir := 1, cu.affine := false } .REF_PIC_LIST_0 MAX_NUM_REF
  let mvd ← mvdCoding
  readIbcMvpFlag cs (setMvd pu .REF_PIC_LIST_0 mvd)

/-- The part of a unit that is merged or not. -/
def readMotion (cs : CodingStructure) (pu : PredictionUnit) : BinReader PredictionUnit :=
  if pu.mergeFlag then mergeData cs pu
  else if pu.cu.isIBC then readIbc cs pu
  else readInter cs pu

/-- A unit of a restricted size keeps one list. -/
def restrictBi (pu : PredictionUnit) : PredictionUnit :=
  if pu.interDir = 3 ∧ isBipredRestriction pu.cu then
    { setRefIdx pu .REF_PIC_LIST_1 (-1) with
      mv := update pu.mv .REF_PIC_LIST_1 .zero
      interDir := 1
      cu.GBiIdx := Motion.GBI_DEFAULT }
  else pu

/-- `smvdMode - 1` as a list. -/
def curRefList (smvdMode : Nat) : RefPicList :=
  if smvdMode - 1 = 0 then .REF_PIC_LIST_0 else .REF_PIC_LIST_1

/-- The mirrored list of a symmetric unit. -/
def readSymmetric (cs : CodingStructure) (pu : PredictionUnit) : BinReader PredictionUnit :=
  if pu.cu.smvdMode ≠ 0 then do
    let eCurRefList := curRefList pu.cu.smvdMode
    let eTarRefList := otherList eCurRefList
    let mvd : Mv := ⟨-(pu.mvd eCurRefList).hor, -(pu.mvd eCurRefList).ver⟩
    check (¬ LegalMvd mvd) "Illegal MVD value"
    return setRefIdx (setMvd pu eTarRefList mvd) eTarRefList (cs.symRefIdx eTarRefList)
  else pure pu

/-- `prediction_unit`. -/
def predictionUnit (cs : CodingStructure) (pu : PredictionUnit) : BinReader PredictionUnit := do
  let pu ← readMergeFlag pu
  let pu ← readMotion cs pu
  readSymmetric cs (restrictBi pu)

end Vtm.CABACReader

namespace Vtm.DecCu

open InterSyntax
open Function (update)
open Motion (Mv EAffineModel listBit)
open RefPics (RefPicList)

/-- The predictor lists of a unit: `fillMvpCand`, or `fillIBCMvpCand` for a unit with `MODE_IBC`, and
`fillAffineMvpCand` by candidate and control point. -/
structure AMVP where
  mvCand : RefPicList → Nat → Mv
  mvCandAffi : RefPicList → Nat → Nat → Mv

/-- The vector of a list from its predictor and its difference. -/
def addMvd (amvp : AMVP) (X : RefPicList) (pu : PredictionUnit) (mvd : Mv) :
    Checked PredictionUnit := do
  let mv ← (amvp.mvCand X (pu.mvpIdx X) + mvd).mvCliptoStorageBitDepth
  return { pu with mv := update pu.mv X mv }

/-- Change the difference of a list to the internal precision. -/
def changeMvd (X : RefPicList) (pu : PredictionUnit) : Checked PredictionUnit := do
  let mvd ← (pu.mvd X).changeTransPrecAmvr2Internal pu.cu.imv
  return CABACReader.setMvd pu X mvd

/-- The first list of `applyImv`. -/
def applyImvList0 (amvp : AMVP) (pu : PredictionUnit) : Checked PredictionUnit :=
  if pu.interDir ≠ 2 then do
    let pu ← changeMvd .REF_PIC_LIST_0 pu
    addMvd amvp .REF_PIC_LIST_0 pu (pu.mvd .REF_PIC_LIST_0)
  else pure pu

/-- The difference of the second list in `applyImv`. -/
def changeMvdList1 (cs : CodingStructure) (pu : PredictionUnit) : Checked PredictionUnit :=
  if ¬ (cs.mvdL1ZeroFlag ∧ pu.interDir = 3) ∧ pu.cu.imv ≠ 0 then changeMvd .REF_PIC_LIST_1 pu
  else pure pu

/-- The second list of `applyImv`. -/
def applyImvList1 (cs : CodingStructure) (amvp : AMVP) (pu : PredictionUnit) :
    Checked PredictionUnit :=
  if pu.interDir ≠ 1 then do
    let pu ← changeMvdList1 cs pu
    addMvd amvp .REF_PIC_LIST_1 pu (pu.mvd .REF_PIC_LIST_1)
  else pure pu

/-- `PU::applyImv`, of a unit that is not merged. -/
def applyImv (cs : CodingStructure) (amvp : AMVP) (pu : PredictionUnit) : Checked PredictionUnit := do
  let pu ← applyImvList0 amvp pu
  applyImvList1 cs amvp pu

/-- Whether a unit uses a list. -/
@[grind =] def usesList (interDir : Nat) (X : RefPicList) : Bool := interDir &&& listBit X ≠ 0

/-- The third control point as it is stored. -/
def clipLB (pu : PredictionUnit) (affLB : Mv) : Checked Mv :=
  if pu.cu.affineType = .AFFINEMODEL_6PARAM then affLB.mvCliptoStorageBitDepth else pure affLB

/-- `setAllAffineMv`, as far as the control points are concerned. -/
def setAllAffineMv (X : RefPicList) (pu : PredictionUnit) (affLT affRT affLB : Mv) :
    Checked PredictionUnit := do
  let affLT ← affLT.mvCliptoStorageBitDepth
  let affRT ← affRT.mvCliptoStorageBitDepth
  let affLB ← clipLB pu affLB
  let corner : Nat → Mv
    | 0 => affLT
    | 1 => affRT
    | 2 => affLB
    | corner => pu.mvAffi X corner
  return { pu with mvAffi := update pu.mvAffi X corner }

/-- Change the difference of a control point to the internal precision. -/
def changeMvdAffi (X : RefPicList) (corner : Nat) (pu : PredictionUnit) : Checked PredictionUnit := do
  let mvd ← (pu.mvdAffi X corner).changeAffinePrecAmvr2Internal pu.cu.imv
  return CABACReader.setMvdAffi pu X corner mvd

/-- The differences of the control points in the internal precision. -/
def changeMvdsAffi (X : RefPicList) (pu : PredictionUnit) : Checked PredictionUnit := do
  let pu ← changeMvdAffi X 0 pu
  let pu ← changeMvdAffi X 1 pu
  if pu.cu.affineType = .AFFINEMODEL_6PARAM then changeMvdAffi X 2 pu else return pu

/-- The control points of a list. -/
def deriveAffine (cs : CodingStructure) (amvp : AMVP) (X : RefPicList) (pu : PredictionUnit) :
    Checked PredictionUnit :=
  if 0 < cs.numRefIdx X ∧ usesList pu.interDir X then
    if pu.refIdx X < 0 then .error "Unexpected negative refIdx."
    else do
      let pu ← changeMvdsAffi X pu
      let cand := amvp.mvCandAffi X (pu.mvpIdx X)
      let mvd := pu.mvdAffi X
      let mvLB :=
        if pu.cu.affineType = .AFFINEMODEL_6PARAM then cand 2 + mvd 2 + mvd 0 else .zero
      setAllAffineMv X pu (cand 0 + mvd 0) (cand 1 + mvd 1 + mvd 0) mvLB
  else pure pu

/-- The block vector of a unit with `MODE_IBC` and `imv` 0. -/
def deriveIbc (cs : CodingStructure) (amvp : AMVP) (pu : PredictionUnit) : Checked PredictionUnit := do
  let mvd ← (pu.mvd .REF_PIC_LIST_0).changeIbcPrecAmvr2Internal pu.cu.imv
  if cs.maxNumIBCMergeCand = 1 ∧ pu.mvpIdx .REF_PIC_LIST_0 ≠ 0 then
    .error "mvpIdx for IBC mode should be 0"
  else addMvd amvp .REF_PIC_LIST_0 pu mvd

/-- The vector of a list with `imv` 0. -/
def deriveList (cs : CodingStructure) (amvp : AMVP) (X : RefPicList) (pu : PredictionUnit) :
    Checked PredictionUnit :=
  if (0 < cs.numRefIdx X ∨ (X = .REF_PIC_LIST_0 ∧ pu.cu.isIBC)) ∧ usesList pu.interDir X then do
    let pu ← changeMvd X pu
    addMvd amvp X pu (pu.mvd X)
  else pure pu

/-- `xDeriveCUMV` of a unit that is not merged. -/
@[grind =] def xDeriveCUMV (cs : CodingStructure) (amvp : AMVP) (pu : PredictionUnit) : Checked PredictionUnit :=
  if pu.cu.imv ≠ 0 ∧ ¬ pu.cu.affine then applyImv cs amvp pu
  else if pu.cu.affine then do
    let pu ← deriveAffine cs amvp .REF_PIC_LIST_0 pu
    deriveAffine cs amvp .REF_PIC_LIST_1 pu
  else if pu.cu.isIBC ∧ pu.interDir = 1 then deriveIbc cs amvp pu
  else do
    let pu ← deriveList cs amvp .REF_PIC_LIST_0 pu
    deriveList cs amvp .REF_PIC_LIST_1 pu

end Vtm.DecCu
