import Vtm.Slice.RefPicList
import Vtm.Common.ChromaQpMapping

/-!
# Motion

Motion vectors, the motion that is stored for a position, and what the derivations of
motion candidates read of the picture: the neighbouring prediction units, the history, and
the motion of the collocated picture.
-/

namespace Vtm.Motion

open ChromaQpMappingTableParams (Clip3)
open RefPics (RefPicList)

def NOT_VALID : Int := -1

def GBI_DEFAULT : Nat := 2

def MAX_CU_DEPTH : Nat := 7

@[ext] structure Mv where
  hor : Int
  ver : Int
deriving DecidableEq, Repr

namespace Mv

/-- `Mv()`. -/
def zero : Mv := ⟨0, 0⟩

instance : Add Mv := ⟨fun mv other => ⟨mv.hor + other.hor, mv.ver + other.ver⟩⟩

instance : Sub Mv := ⟨fun mv other => ⟨mv.hor - other.hor, mv.ver - other.ver⟩⟩

def clipToStorageBitDepth (mv : Mv) : Mv :=
  ⟨Clip3 (-2 ^ 17) (2 ^ 17 - 1) mv.hor, Clip3 (-2 ^ 17) (2 ^ 17 - 1) mv.ver⟩

end Mv

def roundAffineMv (mv : Mv) (nShift : Nat) : Mv :=
  let nOffset : Int := 2 ^ (nShift - 1)
  ⟨(mv.hor + nOffset - if 0 ≤ mv.hor then 1 else 0) >>> nShift,
    (mv.ver + nOffset - if 0 ≤ mv.ver then 1 else 0) >>> nShift⟩

structure MvField where
  mv : Mv
  refIdx : Int
deriving DecidableEq, Repr

def MvField.setMvField (mv : Mv) (refIdx : Int) : Checked MvField :=
  if refIdx = NOT_VALID ∧ mv ≠ .zero then .error "Must not happen." else .ok ⟨mv, refIdx⟩

/-- `MotionInfo`, without the block vector. -/
structure MotionInfo where
  isInter : Bool
  isIBCmot : Bool
  interDir : Nat
  useAltHpelIf : Bool
  sliceIdx : Nat
  mv : RefPicList → Mv
  refIdx : RefPicList → Int
  GBiIdx : Nat

namespace MotionInfo

/-- `MotionInfo()`. -/
def default : MotionInfo where
  isInter := false
  isIBCmot := false
  interDir := 0
  useAltHpelIf := false
  sliceIdx := 0
  mv _ := .zero
  refIdx _ := NOT_VALID
  GBiIdx := 0

/-- `operator==`. -/
@[grind =] def same (mi other : MotionInfo) : Bool :=
  let sameField (X : RefPicList) : Bool := mi.refIdx X = other.refIdx X ∧ mi.mv X = other.mv X
  mi.isInter = other.isInter ∧ mi.isIBCmot = other.isIBCmot ∧
    (mi.isInter = true →
      mi.sliceIdx = other.sliceIdx ∧ mi.interDir = other.interDir ∧
        (mi.interDir ≠ 2 → sameField .REF_PIC_LIST_0) ∧
          (mi.interDir ≠ 1 → sameField .REF_PIC_LIST_1))

end MotionInfo

structure Position where
  x : Int
  y : Int
deriving DecidableEq, Repr

def Position.offset (pos : Position) (x y : Int) : Position := ⟨pos.x + x, pos.y + y⟩

structure Area extends Position where
  width : Int
  height : Int

namespace Area

variable (area : Area)

def topLeft : Position := area.toPosition
def topRight : Position := ⟨area.x + area.width - 1, area.y⟩
def bottomLeft : Position := ⟨area.x, area.y + area.height - 1⟩
def bottomRight : Position := ⟨area.x + area.width - 1, area.y + area.height - 1⟩
def center : Position := ⟨area.x + area.width / 2, area.y + area.height / 2⟩

end Area

inductive PredMode where
  | MODE_INTER
  | MODE_INTRA
  | MODE_IBC
  | MODE_PLT
deriving DecidableEq, Repr

inductive EAffineModel where
  | AFFINEMODEL_4PARAM
  | AFFINEMODEL_6PARAM
  | AFFINE_MODEL_NUM
deriving DecidableEq, Repr

inductive MergeType where
  | MRG_TYPE_DEFAULT_N
  | MRG_TYPE_SUBPU_ATMVP
  | MRG_TYPE_IBC
deriving DecidableEq, Repr

/-- `CodingUnit`. Units are compared by their addresses. -/
structure CodingUnit where
  address : Nat
  predMode : PredMode
  affine : Bool
  affineType : EAffineModel
  GBiIdx : Nat
  imv : Nat

namespace CodingUnit

variable (cu : CodingUnit)

def isInter : Bool := cu.predMode = .MODE_INTER
def isIBC : Bool := cu.predMode = .MODE_IBC

end CodingUnit

structure PredictionUnit where
  Y : Area
  cu : CodingUnit
  mergeType : MergeType
  interDir : Nat
  refIdx : RefPicList → Int
  mvAffi : RefPicList → Nat → Mv
  getMotionInfo : Position → MotionInfo

def isDiffMER (pu1 pu2 : PredictionUnit) : Bool :=
  pu1.Y.x / 4 ≠ pu2.Y.x / 4 ∨ pu1.Y.y / 4 ≠ pu2.Y.y / 4

/-- `Slice`, with what is read of the parameter sets and the picture header. `getRefPOC` is the POC
of a reference picture. -/
structure Slice where
  isInterB : Bool
  isIRAP : Bool
  getPOC : Int
  getNumRefIdx : RefPicList → Nat
  getRefPOC : RefPicList → Int → Int
  maxNumMergeCand : Nat
  maxNumIBCMergeCand : Nat
  maxNumAffineMergeCand : Nat
  enableTMVPFlag : Bool
  sbtmvpEnabledFlag : Bool
  useAffine : Bool
  useAffineType : Bool
  ctuSize : Int

structure PreCalcValues where
  minCUWidth : Int
  minCUHeight : Int
  lumaWidth : Int
  lumaHeight : Int
  maxCUHeight : Int

/-- The picture as one prediction unit sees it: `getPURestricted` for that unit, the motion
candidate tables, and `getColocatedMVP`. -/
structure CodingStructure where
  slice : Slice
  pcv : PreCalcValues
  getPURestricted : Position → Option PredictionUnit
  lut : List MotionInfo
  lutIbc : List MotionInfo
  getColocatedMVP : RefPicList → Position → Int → Option Mv

/-- `posC0`, if `C0Avail`. -/
def CodingStructure.posC0 (cs : CodingStructure) (pu : PredictionUnit) : Option Position :=
  let posRB := pu.Y.bottomRight.offset (-3) (-3)
  if posRB.x + cs.pcv.minCUWidth < cs.pcv.lumaWidth ∧
      posRB.y + cs.pcv.minCUHeight < cs.pcv.lumaHeight ∧
        posRB.y % cs.pcv.maxCUHeight + 4 < cs.pcv.maxCUHeight then
    some (posRB.offset 4 4)
  else none

/-- The motion at the position below and right of the unit, or else at its centre. -/
def CodingStructure.temporalMv (cs : CodingStructure) (pu : PredictionUnit) (X : RefPicList)
    (refIdx : Int) : Option Mv :=
  ((cs.posC0 pu).bind fun posC0 => cs.getColocatedMVP X posC0 refIdx) <|>
    cs.getColocatedMVP X pu.Y.center refIdx

end Vtm.Motion

/-!
## The motion history

`addMiToLut` and `saveMotionInHMVP`. The stored motions are kept from the oldest to the latest, those
of inter units and those of units with intra block copy in tables of their own.
-/

namespace Vtm.Motion

def MAX_NUM_HMVP_CANDS : Nat := 5

/-- `addMiToLut`. Without an entry that is the same, `sameCandIdx` is 0. -/
def addMiToLut (lut : List MotionInfo) (mi : MotionInfo) : List MotionInfo :=
  let currCnt := lut.length
  let sameCandIdx := lut.findIdx? fun other => other.same mi
  let lut :=
    if sameCandIdx.isSome ∨ currCnt = MAX_NUM_HMVP_CANDS then lut.eraseIdx (sameCandIdx.getD 0) else lut
  lut ++ [mi]

structure LutMotionCand where
  lut : List MotionInfo
  lutIbc : List MotionInfo

/-- What `saveMotionInHMVP` reads of a coding unit and its first prediction unit. -/
structure SavedUnit where
  isIBC : Bool
  triangle : Bool
  affine : Bool
  GBiIdx : Nat
  getMotionInfo : MotionInfo
  isToBeDone : Bool

namespace SavedUnit

variable (cu : SavedUnit)

/-- The motion of the unit as it is saved. -/
def motion : MotionInfo :=
  let mi := cu.getMotionInfo
  { mi with GBiIdx := if mi.interDir = 3 then cu.GBiIdx else GBI_DEFAULT }

/-- The units whose motion is saved. -/
def isSaved : Bool := !cu.triangle && !cu.affine && !cu.isToBeDone

end SavedUnit

def saveMotionInHMVP (motionLut : LutMotionCand) (cu : SavedUnit) : LutMotionCand :=
  if cu.isSaved then
    if cu.isIBC then { motionLut with lutIbc := addMiToLut motionLut.lutIbc cu.motion }
    else { motionLut with lut := addMiToLut motionLut.lut cu.motion }
  else motionLut

end Vtm.Motion
