import Vtm.Common.Bins
import Vtm.Common.MotionInfo

/-!
# Inter prediction units in the slice data

The fields of coding and prediction units that the syntax of a prediction unit reads and sets,
and what that syntax depends on.
-/

namespace Vtm.InterSyntax

open Motion (Mv EAffineModel PredMode MAX_CU_DEPTH GBI_DEFAULT)
open RefPics (RefPicList SliceType)

def MAX_CU_SIZE : Nat := 1 <<< MAX_CU_DEPTH

def MAX_NUM_REF : Nat := 16

def MMVD_REFINE_STEP : Nat := 8

def MMVD_MAX_REFINE_NUM : Nat := MMVD_REFINE_STEP * 4

def DC_IDX : Nat := 1

def PLANAR_IDX : Nat := 0

def DM_CHROMA_IDX : Nat := 70

def MAX_UCHAR : Nat := 255

def MAX_UINT : Nat := 2 ^ 32 - 1

structure CodingUnit where
  lwidth : Nat
  lheight : Nat
  predMode : PredMode
  skip : Bool
  mmvdSkip : Bool
  affine : Bool
  affineType : EAffineModel
  triangle : Bool
  imv : Nat
  smvdMode : Nat
  GBiIdx : Nat

structure PredictionUnit where
  cu : CodingUnit
  intraDir : Bool → Nat
  mergeFlag : Bool
  regularMergeFlag : Bool
  mergeIdx : Nat
  triangleSplitDir : Nat
  triangleMergeIdx0 : Nat
  triangleMergeIdx1 : Nat
  mmvdMergeFlag : Bool
  mmvdMergeIdx : Nat
  mhIntraFlag : Bool
  interDir : Nat
  mvpIdx : RefPicList → Nat
  refIdx : RefPicList → Int
  mv : RefPicList → Mv
  mvd : RefPicList → Mv
  mvdAffi : RefPicList → Nat → Mv
  mvAffi : RefPicList → Nat → Mv

/-- `CodingUnit::initData`, and the fields that are known in front of the prediction unit. -/
def CodingUnit.initData (lwidth lheight : Nat) (predMode : PredMode) (skip : Bool) : CodingUnit where
  lwidth := lwidth
  lheight := lheight
  predMode := predMode
  skip := skip
  mmvdSkip := false
  affine := false
  affineType := .AFFINEMODEL_4PARAM
  triangle := false
  imv := 0
  smvdMode := 0
  GBiIdx := GBI_DEFAULT

def CodingUnit.isIBC (cu : CodingUnit) : Bool := cu.predMode = .MODE_IBC

/-- `PredictionUnit::initData`. The index of `intraDir` tells the chroma mode from the luma mode. -/
def PredictionUnit.initData (cu : CodingUnit) : PredictionUnit where
  cu := cu
  intraDir chroma := if chroma then PLANAR_IDX else DC_IDX
  mergeFlag := false
  regularMergeFlag := false
  mergeIdx := MAX_UCHAR
  triangleSplitDir := MAX_UCHAR
  triangleMergeIdx0 := MAX_UCHAR
  triangleMergeIdx1 := MAX_UCHAR
  mmvdMergeFlag := false
  mmvdMergeIdx := MAX_UINT
  mhIntraFlag := false
  interDir := MAX_UCHAR
  mvpIdx _ := MAX_UCHAR
  refIdx _ := -1
  mv _ := .zero
  mvd _ := .zero
  mvdAffi _ _ := .zero
  mvAffi _ _ := .zero

/-- `CodingStructure` as one unit sees it: what is read of the parameter sets, the picture header,
the slice, and the coding units to the left and above. -/
structure CodingStructure where
  sliceType : SliceType
  IBCFlag : Bool
  useAffine : Bool
  useAffineType : Bool
  useMMVD : Bool
  useMHIntra : Bool
  useTriangle : Bool
  maxNumMergeCand : Nat
  maxNumAffineMergeCand : Nat
  maxNumIBCMergeCand : Nat
  maxNumTriangleCand : Nat
  mvdL1ZeroFlag : Bool
  numRefIdx : RefPicList → Nat
  biDirPred : Bool
  symRefIdx : RefPicList → Int
  cuLeft : Option CodingUnit
  cuAbove : Option CodingUnit

namespace CodingStructure

variable (cs : CodingStructure)

def isIntra : Bool := cs.sliceType = .I_SLICE
def isInterB : Bool := cs.sliceType = .B_SLICE
def isInterP : Bool := cs.sliceType = .P_SLICE

def CtxAffineFlag : Nat :=
  (if cs.cuLeft.any CodingUnit.affine then 1 else 0) + if cs.cuAbove.any CodingUnit.affine then 1 else 0

/-- Whether `subblock_merge_flag` is present. -/
def hasSubblockMergeFlag (cu : CodingUnit) : Bool :=
  ¬ cs.isIntra ∧ 0 < cs.maxNumAffineMergeCand ∧ 8 ≤ cu.lwidth ∧ 8 ≤ cu.lheight

def triangleAvailable : Bool := cs.useTriangle ∧ cs.isInterB ∧ 1 < cs.maxNumTriangleCand

def ciipAvailable (cu : CodingUnit) : Bool :=
  cs.useMHIntra ∧ ¬ cu.skip ∧ cu.lwidth < MAX_CU_SIZE ∧ cu.lheight < MAX_CU_SIZE

/-- Whether `regular_merge_flag` is present. -/
def hasRegularMergeFlag (cu : CodingUnit) : Bool :=
  64 ≤ cu.lwidth * cu.lheight ∧ (cs.triangleAvailable ∨ cs.ciipAvailable cu)

/-- Whether `affine_flag` is present. -/
def hasAffineFlag (cu : CodingUnit) : Bool :=
  ¬ cs.isIntra ∧ cs.useAffine ∧ 8 < cu.lwidth ∧ 8 < cu.lheight

end CodingStructure

def isBipredRestriction (cu : CodingUnit) : Bool :=
  (cu.lwidth = 4 ∧ cu.lheight = 4) ∨ cu.lwidth + cu.lheight = 12

def CtxInterDir (cu : CodingUnit) : Nat :=
  7 - (Nat.log2 cu.lwidth + Nat.log2 cu.lheight + 1) >>> 1

end Vtm.InterSyntax
