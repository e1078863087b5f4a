import Vtm.Common.MotionInfo
import Vtm.Std.Listing

/-!
# Merge candidates

`getInterMergeCandidates`, `getIBCMergeCandidates` and `getTriangleMergeCandidates`. The
parallel arrays of `MergeCtx` are one buffer of candidates, and `cnt` counts those that
belong to the list. `mrgCandIdx` is the candidate that is asked for, or -1 for all.
-/

namespace Vtm.Motion

open RefPics (RefPicList)
open Vtm.Std (Listing Stage)

/-- A candidate of `MergeCtx`. -/
structure MergeCand where
  interDirNeighbours : Nat
  GBiIdx : Nat
  mrgTypeNeighbours : MergeType
  useAltHpelIf : Bool
  mvFieldNeighbours : RefPicList → MvField

structure MergeCtx where
  cand : Nat → MergeCand
  numValidMergeCand : Nat

namespace MergeCand

/-- The fields that the derivations reset. -/
def reset (mrgType : MergeType) (cand : MergeCand) : MergeCand where
  interDirNeighbours := 0
  GBiIdx := GBI_DEFAULT
  mrgTypeNeighbours := mrgType
  useAltHpelIf := false
  mvFieldNeighbours X := { cand.mvFieldNeighbours X with refIdx := NOT_VALID }

/-- Set the field of a list. -/
def setMvField (X : RefPicList) (mv : Mv) (refIdx : Int) (cand : MergeCand) : Checked MergeCand := do
  let field ← MvField.setMvField mv refIdx
  return { cand with mvFieldNeighbours := Function.update cand.mvFieldNeighbours X field }

/-- Set the fields of the lists that the slice uses to those of a stored motion. -/
def setMotion (isInterB : Bool) (mi : MotionInfo) (cand : MergeCand) : Checked MergeCand := do
  let cand ← cand.setMvField .REF_PIC_LIST_0 (mi.mv .REF_PIC_LIST_0) (mi.refIdx .REF_PIC_LIST_0)
  if isInterB then
    cand.setMvField .REF_PIC_LIST_1 (mi.mv .REF_PIC_LIST_1) (mi.refIdx .REF_PIC_LIST_1)
  else return cand

end MergeCand

/-- The buffer at the start of a derivation. -/
def MergeCtx.start (mrgCtx : MergeCtx) (maxNumMergeCand : Nat) (mrgType : MergeType) :
    Listing MergeCand where
  entry ui := if ui < maxNumMergeCand then (mrgCtx.cand ui).reset mrgType else mrgCtx.cand ui
  count := 0

/-! ## Spatial neighbours -/

section

variable (cs : CodingStructure) (pu : PredictionUnit)

/-- The unit at a position, if it is in another region for merge estimation. -/
def neighbour (pos : Position) (available : PredictionUnit → Bool) : Option PredictionUnit :=
  (cs.getPURestricted pos).filter fun other => isDiffMER pu other ∧ available other

/-- The motion of a neighbour, or `MotionInfo()`. -/
def motionOf (other : Option PredictionUnit) (pos : Position) : MotionInfo :=
  (other.map fun other => other.getMotionInfo pos).getD .default

def posB1 : Position := pu.Y.topRight.offset 0 (-1)
def posA1 : Position := pu.Y.bottomLeft.offset (-1) 0
def posB0 : Position := pu.Y.topRight.offset 1 (-1)
def posA0 : Position := pu.Y.bottomLeft.offset (-1) 1
def posB2 : Position := pu.Y.topLeft.offset (-1) (-1)

/-- The stored motions of the neighbours. -/
structure Neighbours where
  isAvailableB1 : Bool
  miAbove : MotionInfo
  isAvailableA1 : Bool
  miLeft : MotionInfo

/-- The neighbours above and left in their own coding units. -/
def neighboursOf (mode : CodingUnit → Bool) : Neighbours :=
  let other (pos : Position) :=
    neighbour cs pu pos fun other => pu.cu.address ≠ other.cu.address ∧ mode other.cu
  { isAvailableB1 := (other (posB1 pu)).isSome
    miAbove := motionOf (other (posB1 pu)) (posB1 pu)
    isAvailableA1 := (other (posA1 pu)).isSome
    miLeft := motionOf (other (posA1 pu)) (posA1 pu) }

end

/-- The candidate of a spatial neighbour. -/
def spatialCand (isInterB : Bool) (other : PredictionUnit) (mi : MotionInfo) (cand : MergeCand) :
    Checked MergeCand :=
  { cand with
    interDirNeighbours := mi.interDir
    useAltHpelIf := mi.useAltHpelIf
    GBiIdx := if mi.interDir = 3 then other.cu.GBiIdx else GBI_DEFAULT }.setMotion isInterB mi

/-! ## History -/

/-- The candidate of a stored motion. -/
def historyCand (isInterB ibcFlag : Bool) (mi : MotionInfo) (cand : MergeCand) :
    Checked MergeCand :=
  { cand with
    interDirNeighbours := mi.interDir
    useAltHpelIf := !ibcFlag && mi.useAltHpelIf
    GBiIdx := if mi.interDir = 3 then mi.GBiIdx else GBI_DEFAULT }.setMotion isInterB mi

/-- The condition for a stored motion to be taken. -/
def takesHistory (n : Neighbours) (ibcFlag isGt4x4 : Bool) (mrgIdx : Nat) (mi : MotionInfo) : Bool :=
  2 < mrgIdx ∨ ((1 < mrgIdx ∨ ¬ isGt4x4) ∧ ibcFlag) ∨
    ((¬ n.isAvailableA1 ∨ ¬ n.miLeft.same mi) ∧ (¬ n.isAvailableB1 ∨ ¬ n.miAbove.same mi))

section

variable (isInterB : Bool) (n : Neighbours) (ibcFlag isGt4x4 : Bool) (mrgCandIdx : Int)
  (maxNumMergeCandMin1 : Nat)

/-- The loop of `addMergeHMVPCand` over the stored motions, the latest first. -/
def historyLoop : Nat → List MotionInfo → Stage MergeCand
  | _, [] => .running
  | mrgIdx, mi :: older =>
      if takesHistory n ibcFlag isGt4x4 mrgIdx mi then
        (Stage.append mrgCandIdx fun list =>
            historyCand isInterB ibcFlag mi (list.entry list.count)).followedBy
          (Stage.choose (fun list => list.count = maxNumMergeCandMin1) .running
            (historyLoop (mrgIdx + 1) older))
      else historyLoop (mrgIdx + 1) older

def addMergeHMVPCand (lut : List MotionInfo) : Stage MergeCand :=
  (historyLoop isInterB n ibcFlag isGt4x4 mrgCandIdx maxNumMergeCandMin1 1 lut.reverse).followedBy
    (Stage.when (fun list => list.count < maxNumMergeCandMin1) fun list =>
      .running (list.store { list.entry list.count with useAltHpelIf := false }))

end

/-! ## Inter -/

section

variable (cs : CodingStructure) (pu : PredictionUnit) (mrgCandIdx : Int)

/-- The stage of a spatial neighbour that is not pruned. -/
def spatialStage (pos : Position) (available : PredictionUnit → Bool) (differs : MotionInfo → Bool) :
    Stage MergeCand :=
  match neighbour cs pu pos available with
  | some other =>
      if differs (other.getMotionInfo pos) then
        Stage.append mrgCandIdx fun list =>
          spatialCand cs.slice.isInterB other (other.getMotionInfo pos) (list.entry list.count)
      else .running
  | none => .running

/-- The field of a temporal motion, if there is one. -/
def MergeCand.setTemporal (X : RefPicList) (mv : Option Mv) (cand : MergeCand) :
    Checked MergeCand :=
  match mv with
  | some mv => cand.setMvField X mv 0
  | none => .ok cand

/-- `dir` and the fields of the temporal candidate. -/
def temporalCand (cand : MergeCand) : Checked MergeCand := do
  let mv0 := cs.temporalMv pu .REF_PIC_LIST_0 0
  let mv1 := if cs.slice.isInterB then cs.temporalMv pu .REF_PIC_LIST_1 0 else none
  let cand ← cand.setTemporal .REF_PIC_LIST_0 mv0
  let cand ← cand.setTemporal .REF_PIC_LIST_1 mv1
  return { cand with
    interDirNeighbours := (if mv0.isSome then 1 else 0) + if mv1.isSome then 2 else 0
    GBiIdx := GBI_DEFAULT
    useAltHpelIf := false }

/-- `dir != 0`. -/
def hasTemporal : Bool :=
  (cs.temporalMv pu .REF_PIC_LIST_0 0).isSome ∨
    (cs.slice.isInterB ∧ (cs.temporalMv pu .REF_PIC_LIST_1 0).isSome)

/-- The temporal candidate. -/
def temporalStage : Stage MergeCand :=
  if cs.slice.enableTMVPFlag ∧ pu.Y.width + pu.Y.height > 12 ∧ hasTemporal cs pu then
    Stage.append mrgCandIdx fun list => temporalCand cs pu (list.entry list.count)
  else .running

/-- The field of the pairwise average. -/
def pairwiseField (fieldI fieldJ : MvField) : Option MvField :=
  if fieldI.refIdx = NOT_VALID ∧ fieldJ.refIdx = NOT_VALID then none
  else if fieldI.refIdx ≠ NOT_VALID ∧ fieldJ.refIdx ≠ NOT_VALID then
    some ⟨roundAffineMv (fieldI.mv + fieldJ.mv) 1, fieldI.refIdx⟩
  else if fieldI.refIdx ≠ NOT_VALID then some fieldI
  else some fieldJ

/-- The pairwise average of the first two candidates. -/
def pairwiseCand (isInterB : Bool) (first second cand : MergeCand) : MergeCand :=
  let field (X : RefPicList) := pairwiseField (first.mvFieldNeighbours X) (second.mvFieldNeighbours X)
  let used (X : RefPicList) : Bool := (X = .REF_PIC_LIST_0 ∨ isInterB) ∧ (field X).isSome
  { cand with
    mvFieldNeighbours := fun X => if used X then (field X).getD ⟨.zero, NOT_VALID⟩ else ⟨.zero, NOT_VALID⟩
    useAltHpelIf := if first.useAltHpelIf = second.useAltHpelIf then first.useAltHpelIf else false
    interDirNeighbours := (if used .REF_PIC_LIST_0 then 1 else 0) +
      if used .REF_PIC_LIST_1 then 2 else 0 }

/-- The pairwise average candidate. It is not asked for on its own. -/
def pairwiseStage (maxNumMergeCand : Nat) : Stage MergeCand :=
  Stage.when (fun list => 1 < list.count ∧ list.count < maxNumMergeCand) fun list =>
    let cand := pairwiseCand cs.slice.isInterB (list.entry 0) (list.entry 1) (list.entry list.count)
    .running (if cand.interDirNeighbours > 0 then list.push cand else list.store cand)

/-- A zero candidate. -/
def zeroCand (r : Int) (cand : MergeCand) : Checked MergeCand := do
  let cand := { cand with
    interDirNeighbours := 1
    GBiIdx := GBI_DEFAULT
    useAltHpelIf := false }
  let cand ← cand.setMvField .REF_PIC_LIST_0 .zero r
  let cand ← if cs.slice.isInterB then
      ({ cand with interDirNeighbours := 3 } : MergeCand).setMvField .REF_PIC_LIST_1 .zero r
    else pure cand
  if cand.interDirNeighbours = 1 ∧
      cs.slice.getRefPOC .REF_PIC_LIST_0 (cand.mvFieldNeighbours .REF_PIC_LIST_0).refIdx =
        cs.slice.getPOC then
    return { cand with mrgTypeNeighbours := .MRG_TYPE_IBC }
  else return cand

def iNumRefIdx : Int :=
  if cs.slice.isInterB then
    min (cs.slice.getNumRefIdx .REF_PIC_LIST_0) (cs.slice.getNumRefIdx .REF_PIC_LIST_1)
  else cs.slice.getNumRefIdx .REF_PIC_LIST_0

/-- The loop over the zero candidates. -/
def zeroLoop : Nat → Int → Int → Stage MergeCand
  | 0, _, _ => .running
  | left + 1, r, refcnt =>
      (Stage.append (-1) fun list => zeroCand cs r (list.entry list.count)).followedBy
        (if refcnt = iNumRefIdx cs - 1 then zeroLoop left 0 refcnt
          else zeroLoop left (r + 1) (refcnt + 1))

/-- The stages of `getInterMergeCandidates`. -/
def interStages : List (Stage MergeCand) :=
  let maxNumMergeCand := cs.slice.maxNumMergeCand
  let n := neighboursOf cs pu CodingUnit.isInter
  let apart (other : PredictionUnit) : Bool := pu.cu.address ≠ other.cu.address ∧ other.cu.isInter
  let differsAbove (mi : MotionInfo) : Bool := !n.isAvailableB1 || !n.miAbove.same mi
  let differsLeft (mi : MotionInfo) : Bool := !n.isAvailableA1 || !mi.same n.miLeft
  [spatialStage cs pu mrgCandIdx (posB1 pu) apart fun _ => true,
    Stage.limit maxNumMergeCand,
    spatialStage cs pu mrgCandIdx (posA1 pu) apart differsAbove,
    Stage.limit maxNumMergeCand,
    spatialStage cs pu mrgCandIdx (posB0 pu) (·.cu.isInter) differsAbove,
    Stage.limit maxNumMergeCand,
    spatialStage cs pu mrgCandIdx (posA0 pu) (·.cu.isInter) differsLeft,
    Stage.limit maxNumMergeCand,
    Stage.when (fun list => list.count < 4)
      (spatialStage cs pu mrgCandIdx (posB2 pu) (·.cu.isInter) fun mi =>
        (!n.isAvailableA1 || !n.miLeft.same mi) && differsAbove mi),
    Stage.limit maxNumMergeCand,
    temporalStage cs pu mrgCandIdx,
    Stage.limit maxNumMergeCand,
    Stage.when (fun list => list.count ≠ maxNumMergeCand - 1)
      (addMergeHMVPCand cs.slice.isInterB n pu.cu.isIBC true mrgCandIdx (maxNumMergeCand - 1)
        (if pu.cu.isIBC then cs.lutIbc else cs.lut)),
    pairwiseStage cs maxNumMergeCand,
    Stage.limit maxNumMergeCand,
    fun list => zeroLoop cs (maxNumMergeCand - list.count) 0 0 list]

/-- `getInterMergeCandidates`. A return leaves `numValidMergeCand` at its first value. -/
def getInterMergeCandidates (mrgCtx : MergeCtx) : Checked MergeCtx :=
  let maxNumMergeCand := cs.slice.maxNumMergeCand
  match Stage.inOrder (interStages cs pu mrgCandIdx)
      (mrgCtx.start maxNumMergeCand .MRG_TYPE_DEFAULT_N) with
  | .failed message => .error message
  | .returned list => .ok ⟨list.entry, maxNumMergeCand⟩
  | .running list => .ok ⟨list.entry, list.count⟩

end

/-! ## Intra block copy -/

section

variable (cs : CodingStructure) (pu : PredictionUnit) (mrgCandIdx : Int)

def MAX_NUM_REF : Int := 16

/-- The candidate of a neighbour. -/
def ibcSpatialCand (mi : MotionInfo) (cand : MergeCand) : Checked MergeCand :=
  { cand with interDirNeighbours := mi.interDir }.setMvField .REF_PIC_LIST_0
    (mi.mv .REF_PIC_LIST_0) (mi.refIdx .REF_PIC_LIST_0)

/-- The stage of a neighbour that is taken. -/
def ibcSpatialStage (taken : Bool) (mi : MotionInfo) : Stage MergeCand :=
  if taken then Stage.append mrgCandIdx fun list => ibcSpatialCand mi (list.entry list.count)
  else .running

/-- The loop over the zero candidates; `left` of them are missing. The count is compared
with the index behind its increment. -/
@[grind =] def ibcZeroLoop : Nat → Stage MergeCand
  | 0, list => .running list
  | left + 1, list =>
      match { list.entry list.count with interDirNeighbours := 1 }.setMvField .REF_PIC_LIST_0 .zero
          MAX_NUM_REF with
      | .error message => .failed message
      | .ok cand =>
          let list := list.push cand
          if mrgCandIdx = list.count then .returned list else ibcZeroLoop left list

def isGt4x4 : Bool := pu.Y.width * pu.Y.height > 16

/-- The stages of `getIBCMergeCandidates` before the zero candidates. Where the unit is small, the
motions of the neighbours are not read. -/
def ibcStages : List (Stage MergeCand) :=
  let maxNumMergeCand := cs.slice.maxNumIBCMergeCand
  let n := neighboursOf cs pu CodingUnit.isIBC
  let read := if isGt4x4 pu then n else { n with miAbove := .default, miLeft := .default }
  [ibcSpatialStage mrgCandIdx (isGt4x4 pu && n.isAvailableA1) n.miLeft,
    Stage.limit maxNumMergeCand,
    ibcSpatialStage mrgCandIdx
      (isGt4x4 pu && n.isAvailableB1 && (!n.isAvailableA1 || !n.miAbove.same n.miLeft)) n.miAbove,
    Stage.limit maxNumMergeCand,
    addMergeHMVPCand cs.slice.isInterB read true (isGt4x4 pu) mrgCandIdx maxNumMergeCand cs.lutIbc]

def getIBCMergeCandidates (mrgCtx : MergeCtx) : Checked MergeCtx :=
  let maxNumMergeCand := cs.slice.maxNumIBCMergeCand
  let zeros : Stage MergeCand := fun list =>
    ibcZeroLoop mrgCandIdx (maxNumMergeCand - list.count) list
  match (Stage.inOrder (ibcStages cs pu mrgCandIdx)).followedBy zeros
      (mrgCtx.start maxNumMergeCand .MRG_TYPE_IBC) with
  | .failed message => .error message
  | .returned list => .ok ⟨list.entry, maxNumMergeCand⟩
  | .running list => .ok ⟨list.entry, list.count⟩

end

/-! ## Triangles -/

def TRIANGLE_MAX_NUM_UNI_CANDS : Nat := 6

/-- The other list. -/
def otherList : RefPicList → RefPicList
  | .REF_PIC_LIST_0 => .REF_PIC_LIST_1
  | .REF_PIC_LIST_1 => .REF_PIC_LIST_0

/-- Bit of a list in `interDirNeighbours`. -/
@[grind =] def listBit : RefPicList → Nat
  | .REF_PIC_LIST_0 => 1
  | .REF_PIC_LIST_1 => 2

/-- The candidate that is left of another one with a single list. -/
def uniCand (X : RefPicList) (from_ cand : MergeCand) : MergeCand :=
  { cand with
    interDirNeighbours := listBit X
    mrgTypeNeighbours := .MRG_TYPE_DEFAULT_N
    mvFieldNeighbours := fun Y => if Y = X then from_.mvFieldNeighbours X else ⟨.zero, -1⟩ }

/-- The list whose field a candidate gives: that of its parity if it has it. -/
def uniList (i interDir : Nat) : Option RefPicList :=
  let X := if i % 2 = 0 then RefPicList.REF_PIC_LIST_0 else .REF_PIC_LIST_1
  if interDir / listBit X % 2 = 1 then some X
  else if interDir / listBit (otherList X) % 2 = 1 then some (otherList X)
  else none

/-- A round of the loop over the candidates. -/
def triangleStage (i : Nat) (cand : MergeCand) : Stage MergeCand :=
  match uniList i cand.interDirNeighbours with
  | some X => fun list =>
      let list := list.push (uniCand X cand (list.entry list.count))
      if list.count = TRIANGLE_MAX_NUM_UNI_CANDS then .returned list else .running list
  | none => .running

/-- The candidates at the start of `getTriangleMergeCandidates`. -/
def MergeCtx.startTriangle (triangleMrgCtx : MergeCtx) : Listing MergeCand where
  entry i :=
    if i < TRIANGLE_MAX_NUM_UNI_CANDS then
      { interDirNeighbours := 0
        GBiIdx := GBI_DEFAULT
        mrgTypeNeighbours := .MRG_TYPE_DEFAULT_N
        useAltHpelIf := false
        mvFieldNeighbours := fun _ => ⟨.zero, NOT_VALID⟩ }
    else triangleMrgCtx.cand i
  count := 0

/-- `getTriangleMergeCandidates`. `tmpMergeCtx` is what the local context holds at first. -/
def getTriangleMergeCandidates (cs : CodingStructure) (pu : PredictionUnit)
    (tmpMergeCtx triangleMrgCtx : MergeCtx) : Checked MergeCtx := do
  let tmpMergeCtx ← getInterMergeCandidates cs pu (-1) tmpMergeCtx
  match Stage.inOrder ((List.range cs.slice.maxNumMergeCand).map fun i =>
      triangleStage i (tmpMergeCtx.cand i)) triangleMrgCtx.startTriangle with
  | .failed message => .error message
  | .returned list => return ⟨list.entry, list.count⟩
  | .running list => return ⟨list.entry, list.count⟩

end Vtm.Motion
