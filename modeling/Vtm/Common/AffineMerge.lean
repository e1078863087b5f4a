import Vtm.Common.MergeCandidates
import Vtm.Std.Int32

/-!
# Affine merge candidates

`xInheritedAffineMv`, `getAffineControlPointCand`, `getAffineMergeCand` and `setAllAffineMv`. The
arithmetic on vectors fails where a 32-bit integer overflows.
-/

namespace Vtm.Motion

open RefPics (RefPicList)
open Vtm.Std (Listing Stage add32 sub32 mul32 neg32 shl32 int32)

def floorLog2 (x : Int) : Nat := Nat.log2 x.toNat

/-- A component of `roundAffineMv`. -/
def roundAffine32 (v : Int) (nShift : Nat) : Checked Int := do
  let nOffset ← shl32 1 (nShift - 1)
  let v' ← add32 v nOffset
  let v' ← sub32 v' (if 0 ≤ v then 1 else 0)
  return v' >>> nShift

/-- The shifted difference of two components. -/
def shiftedDelta (v v' : Int) (shift : Nat) : Checked Int := do
  let d ← sub32 v v'
  shl32 d shift

/-- The difference of two components, by the size of the block. -/
def scaledDelta (v v' : Int) (size : Int) : Checked Int :=
  shiftedDelta v v' (MAX_CU_DEPTH - floorLog2 size)

/-- An affine model: the scaled first vector and its differences. -/
structure AffineDeltas where
  scaleHor : Int
  scaleVer : Int
  horX : Int
  horY : Int
  verX : Int
  verY : Int

/-- The vertical differences of an affine model: those of the third vector, or the rotated horizontal
ones. -/
def verticalDeltas (lt : Mv) (lb : Option Mv) (horX horY height : Int) : Checked (Int × Int) :=
  match lb with
  | some lb => do
      let verX ← scaledDelta lb.hor lt.hor height
      let verY ← scaledDelta lb.ver lt.ver height
      return (verX, verY)
  | none => do
      let verX ← neg32 horY
      return (verX, horX)

/-- The differences of an affine model; `lb` is the third vector if the model has one. -/
def affineDeltas (lt rt : Mv) (lb : Option Mv) (width height : Int) : Checked AffineDeltas := do
  let horX ← scaledDelta rt.hor lt.hor width
  let horY ← scaledDelta rt.ver lt.ver width
  let (verX, verY) ← verticalDeltas lt lb horX horY height
  let scaleHor ← shl32 lt.hor MAX_CU_DEPTH
  let scaleVer ← shl32 lt.ver MAX_CU_DEPTH
  return ⟨scaleHor, scaleVer, horX, horY, verX, verY⟩

namespace AffineDeltas

/-- A component of the scaled vector at an offset. -/
def component (scale hor ver dx dy : Int) : Checked Int := do
  let h ← mul32 hor dx
  let s ← add32 scale h
  let v ← mul32 ver dy
  add32 s v

/-- The vector at an offset, rounded and clipped. -/
def mvAt (deltas : AffineDeltas) (dx dy : Int) : Checked Mv := do
  let horTmp ← component deltas.scaleHor deltas.horX deltas.verX dx dy
  let verTmp ← component deltas.scaleVer deltas.horY deltas.verY dx dy
  let hor ← roundAffine32 horTmp MAX_CU_DEPTH
  let ver ← roundAffine32 verTmp MAX_CU_DEPTH
  return (Mv.mk hor ver).clipToStorageBitDepth

end AffineDeltas

/-- The first vectors of a block that are inherited where it borders on the coding tree unit above,
and its lower position there. -/
def isTopCtuBoundary (slice : Slice) (pu puNeighbour : PredictionUnit) : Bool :=
  (puNeighbour.Y.y + puNeighbour.Y.height) % slice.ctuSize = 0 ∧
    puNeighbour.Y.y + puNeighbour.Y.height = pu.Y.y

/-- `xInheritedAffineMv`. `rcMv` is zero at first. -/
def xInheritedAffineMv (slice : Slice) (pu puNeighbour : PredictionUnit) (X : RefPicList) :
    Checked (Nat → Mv) := do
  let boundary := isTopCtuBoundary slice pu puNeighbour
  let posNeiX := puNeighbour.Y.x
  let posNeiY := if boundary then puNeighbour.Y.y + puNeighbour.Y.height else puNeighbour.Y.y
  let mvLT :=
    if boundary then (puNeighbour.getMotionInfo puNeighbour.Y.bottomLeft).mv X
    else puNeighbour.mvAffi X 0
  let mvRT :=
    if boundary then (puNeighbour.getMotionInfo puNeighbour.Y.bottomRight).mv X
    else puNeighbour.mvAffi X 1
  let mvLB :=
    if puNeighbour.cu.affineType = .AFFINEMODEL_6PARAM ∧ ¬ boundary then some (puNeighbour.mvAffi X 2)
    else none
  let deltas ← affineDeltas mvLT mvRT mvLB puNeighbour.Y.width puNeighbour.Y.height
  let v0 ← deltas.mvAt (pu.Y.x - posNeiX) (pu.Y.y - posNeiY)
  let v1 ← deltas.mvAt (pu.Y.x + pu.Y.width - posNeiX) (pu.Y.y - posNeiY)
  let v2 ← if pu.cu.affineType = .AFFINEMODEL_6PARAM then
      deltas.mvAt (pu.Y.x - posNeiX) (pu.Y.y + pu.Y.height - posNeiY)
    else pure .zero
  return fun n => if n = 0 then v0 else if n = 1 then v1 else if n = 2 then v2 else .zero

/-- A candidate of `AffineMergeCtx`. -/
structure AffineMergeCand where
  mvFieldNeighbours : RefPicList → Nat → MvField
  interDirNeighbours : Nat
  affineType : EAffineModel
  mergeType : MergeType
  GBiIdx : Nat

structure AffineMergeCtx where
  cand : Nat → AffineMergeCand
  numValidMergeCand : Nat

namespace AffineMergeCand

/-- The candidates at the start of the derivation. -/
def reset : AffineMergeCand where
  mvFieldNeighbours _ _ := ⟨.zero, -1⟩
  interDirNeighbours := 0
  affineType := .AFFINEMODEL_4PARAM
  mergeType := .MRG_TYPE_DEFAULT_N
  GBiIdx := GBI_DEFAULT

/-- `setMvField` for a control point. -/
def setMvField (X : RefPicList) (mvNum : Nat) (mv : Mv) (refIdx : Int) (cand : AffineMergeCand) :
    Checked AffineMergeCand := do
  let field ← MvField.setMvField mv refIdx
  return { cand with mvFieldNeighbours := fun Y n =>
    if Y = X ∧ n = mvNum then field else cand.mvFieldNeighbours Y n }

/-- Set the fields of both lists for the three control points. -/
def setMvFields (mv : RefPicList → Nat → Mv) (refIdx : RefPicList → Int) (cand : AffineMergeCand) :
    Checked AffineMergeCand :=
  [0, 1, 2].foldlM (fun cand mvNum => do
    let cand ← cand.setMvField .REF_PIC_LIST_0 mvNum (mv .REF_PIC_LIST_0 mvNum) (refIdx .REF_PIC_LIST_0)
    cand.setMvField .REF_PIC_LIST_1 mvNum (mv .REF_PIC_LIST_1 mvNum) (refIdx .REF_PIC_LIST_1)) cand

end AffineMergeCand

/-! ## Inherited candidates -/

section

variable (cs : CodingStructure) (pu : PredictionUnit)

/-- An affine neighbour that is not derived for sub-blocks. -/
def affineNeighbour (pos : Position) : Option PredictionUnit :=
  (cs.getPURestricted pos).filter fun other => other.cu.affine ∧ other.mergeType = .MRG_TYPE_DEFAULT_N

def getAvailableAffineNeighboursForLeftPredictor : Option PredictionUnit :=
  affineNeighbour cs (posA0 pu) <|> affineNeighbour cs (posA1 pu)

def getAvailableAffineNeighboursForAbovePredictor : Option PredictionUnit :=
  affineNeighbour cs (posB0 pu) <|> affineNeighbour cs (posB1 pu) <|> affineNeighbour cs (posB2 pu)

def npu : List PredictionUnit :=
  (getAvailableAffineNeighboursForLeftPredictor cs pu).toList ++
    (getAvailableAffineNeighboursForAbovePredictor cs pu).toList

/-- The candidate of a neighbour. The coding unit takes over its model first. -/
def inheritedCand (puNeigh : PredictionUnit) (cand : AffineMergeCand) : Checked AffineMergeCand := do
  let pu := { pu with cu := { pu.cu with affineType := puNeigh.cu.affineType } }
  let cMv0 ← if puNeigh.interDir ≠ 2 then xInheritedAffineMv cs.slice pu puNeigh .REF_PIC_LIST_0
    else pure fun _ => .zero
  let cMv1 ← if cs.slice.isInterB ∧ puNeigh.interDir ≠ 1 then
      xInheritedAffineMv cs.slice pu puNeigh .REF_PIC_LIST_1
    else pure fun _ => .zero
  let cMv (X : RefPicList) : Nat → Mv := match X with
    | .REF_PIC_LIST_0 => cMv0
    | .REF_PIC_LIST_1 => cMv1
  let cand ← cand.setMvFields cMv puNeigh.refIdx
  return { cand with
    interDirNeighbours := puNeigh.interDir
    affineType := puNeigh.cu.affineType
    GBiIdx := puNeigh.cu.GBiIdx }

/-! ## Constructed candidates -/

/-- The first of some positions in an inter unit. -/
def firstInter (positions : List Position) : Option (PredictionUnit × Position) :=
  positions.findSome? fun pos =>
    ((cs.getPURestricted pos).filter fun other => other.cu.isInter).map fun other => (other, pos)

def posLT : List Position :=
  [pu.Y.topLeft.offset (-1) (-1), pu.Y.topLeft.offset 0 (-1), pu.Y.topLeft.offset (-1) 0]
def posRT : List Position := [pu.Y.topRight.offset 0 (-1), pu.Y.topRight.offset 1 (-1)]
def posLB : List Position := [pu.Y.bottomLeft.offset (-1) 0, pu.Y.bottomLeft.offset (-1) 1]

/-- The motion at the position below and right of the unit, for each list of the slice. -/
def colocatedRB (X : RefPicList) : Option Mv :=
  if X = .REF_PIC_LIST_0 ∨ cs.slice.isInterB then
    (cs.posC0 pu).bind fun posC0 => cs.getColocatedMVP X posC0 0
  else none

/-- `mi`, where it is available: left above, right above, left below, right below. -/
def controlPoint (n : Nat) : Option MotionInfo :=
  match n with
  | 0 => (firstInter cs (posLT pu)).map fun other => other.1.getMotionInfo other.2
  | 1 => (firstInter cs (posRT pu)).map fun other => other.1.getMotionInfo other.2
  | 2 => (firstInter cs (posLB pu)).map fun other => other.1.getMotionInfo other.2
  | 3 =>
      if cs.slice.enableTMVPFlag ∧
          ((colocatedRB cs pu .REF_PIC_LIST_0).isSome ∨ (colocatedRB cs pu .REF_PIC_LIST_1).isSome) then
        some { MotionInfo.default with
          mv := fun X => (colocatedRB cs pu X).getD .zero
          refIdx := fun X => if (colocatedRB cs pu X).isSome then 0 else NOT_VALID }
      else none
  | _ => none

def neighGbi (positions : List Position) : Nat :=
  ((firstInter cs positions).map fun other => other.1.cu.GBiIdx).getD GBI_DEFAULT

/-- `model`, with `verNum` vertices each. -/
def verIdx (modelIdx : Nat) : List Nat :=
  match modelIdx with
  | 0 => [0, 1, 2]
  | 1 => [0, 1, 3]
  | 2 => [0, 2, 3]
  | 3 => [1, 2, 3]
  | 4 => [0, 1]
  | _ => [0, 2]

/-- The common reference of the vertices. -/
def commonRefIdx (mi : List MotionInfo) (X : RefPicList) : Option Int :=
  match mi with
  | [] => none
  | first :: others =>
      if 0 ≤ first.refIdx X ∧ ∀ other ∈ others, 0 ≤ other.refIdx X ∧ first.refIdx X = other.refIdx X
      then some (first.refIdx X) else none

/-- The vector that completes a parallelogram. -/
def parallelogram (a b c : Mv) : Checked Mv := do
  let hor ← add32 a.hor b.hor
  let hor ← sub32 hor c.hor
  let ver ← add32 a.ver b.ver
  let ver ← sub32 ver c.ver
  return (Mv.mk hor ver).clipToStorageBitDepth

/-- The conversion to the first three control points. -/
def convertModel (width height : Int) (modelIdx : Nat) (cMv : Nat → Mv) : Checked (Nat → Mv) :=
  match modelIdx with
  | 0 | 4 => .ok cMv
  | 1 => do
      let mv ← parallelogram (cMv 3) (cMv 0) (cMv 1)
      return Function.update cMv 2 mv
  | 2 => do
      let mv ← parallelogram (cMv 3) (cMv 0) (cMv 2)
      return Function.update cMv 1 mv
  | 3 => do
      let mv ← parallelogram (cMv 1) (cMv 2) (cMv 3)
      return Function.update cMv 0 mv
  | 5 => do
      let shiftHtoW := MAX_CU_DEPTH + floorLog2 width - floorLog2 height
      let hor ← shl32 (cMv 0).hor MAX_CU_DEPTH
      let dVer ← shiftedDelta (cMv 2).ver (cMv 0).ver shiftHtoW
      let vx ← add32 hor dVer
      let ver ← shl32 (cMv 0).ver MAX_CU_DEPTH
      let dHor ← shiftedDelta (cMv 2).hor (cMv 0).hor shiftHtoW
      let vy ← sub32 ver dHor
      let hor ← roundAffine32 vx MAX_CU_DEPTH
      let ver ← roundAffine32 vy MAX_CU_DEPTH
      return Function.update cMv 1 (Mv.mk hor ver).clipToStorageBitDepth
  | _ => .error "Invalid model index!\n"

/-- The vectors of a list: those of the vertices, converted, or zero. -/
def constructedMv (mi : Nat → Option MotionInfo) (modelIdx : Nat) (X : RefPicList) :
    Checked (Nat → Mv) :=
  if (commonRefIdx ((verIdx modelIdx).filterMap mi) X).isSome then
    convertModel pu.Y.width pu.Y.height modelIdx fun n =>
      if n ∈ verIdx modelIdx then ((mi n).getD .default).mv X else .zero
  else .ok fun _ => .zero

/-- `getAffineControlPointCand`, as far as it makes a candidate of `cand`. -/
def getAffineControlPointCand (mi : Nat → Option MotionInfo) (gbiIdx modelIdx : Nat)
    (cand : AffineMergeCand) : Checked (Option AffineMergeCand) := do
  let vertices := (verIdx modelIdx).filterMap mi
  let refIdx (X : RefPicList) := commonRefIdx vertices X
  let dir := (if (refIdx .REF_PIC_LIST_0).isSome then 1 else 0) +
    if (refIdx .REF_PIC_LIST_1).isSome then 2 else 0
  if vertices.length < (verIdx modelIdx).length ∨ dir = 0 then return none
  else
    let cMv0 ← constructedMv pu mi modelIdx .REF_PIC_LIST_0
    let cMv1 ← constructedMv pu mi modelIdx .REF_PIC_LIST_1
    return some { cand with
      mvFieldNeighbours := fun X n => if n < 3 then
          ⟨match X with
            | .REF_PIC_LIST_0 => cMv0 n
            | .REF_PIC_LIST_1 => cMv1 n, (refIdx X).getD (-1)⟩
        else cand.mvFieldNeighbours X n
      interDirNeighbours := dir
      affineType := if (verIdx modelIdx).length = 2 then .AFFINEMODEL_4PARAM else .AFFINEMODEL_6PARAM
      GBiIdx := if dir = 3 then gbiIdx else GBI_DEFAULT }

/-! ## The list -/

variable (mrgCandIdx : Int)

/-- The stage of a model. The index is compared behind the increment, whether there is a candidate
or not. -/
def constructedStage (modelIdx : Nat) : Stage AffineMergeCand := fun list =>
  match getAffineControlPointCand pu (controlPoint cs pu)
      (if modelIdx = 3 then neighGbi cs (posRT pu) else neighGbi cs (posLT pu)) modelIdx
      (list.entry list.count) with
  | .error message => .failed message
  | .ok cand =>
      let list := match cand with
        | some cand => list.push cand
        | none => list
      if list.count ≠ 0 ∧ (list.count : Int) - 1 = mrgCandIdx then .returned list else .running list

/-- The spatial neighbour that the sub-block candidate is derived from. -/
def subPuLeft : Checked (Option MergeCand) :=
  match neighbour cs pu (posA1 pu) fun other =>
      pu.cu.address ≠ other.cu.address ∧ other.cu.isInter with
  | none => .ok none
  | some other => do
      let mi := other.getMotionInfo (posA1 pu)
      let blank : MergeCand :=
        ⟨0, GBI_DEFAULT, .MRG_TYPE_DEFAULT_N, false, fun _ => ⟨.zero, NOT_VALID⟩⟩
      let cand ← ({ blank with interDirNeighbours := mi.interDir } : MergeCand).setMotion
        cs.slice.isInterB mi
      return some cand

/-- `getInterMergeSubPuMvpCand`: the candidate that it derives from the left neighbour, if any. -/
abbrev SubPuMvp : Type := Option MergeCand → Option MergeCand

/-- The sub-block candidate. -/
def subPuCand (derived : MergeCand) (cand : AffineMergeCand) : Checked AffineMergeCand := do
  let cand ← cand.setMvFields (fun X _ => (derived.mvFieldNeighbours X).mv)
    fun X => (derived.mvFieldNeighbours X).refIdx
  return { cand with
    interDirNeighbours := derived.interDirNeighbours
    affineType := .AFFINE_MODEL_NUM
    mergeType := .MRG_TYPE_SUBPU_ATMVP }

/-- The stage of the sub-block candidate. -/
def subPuStage (getInterMergeSubPuMvpCand : SubPuMvp) : Stage AffineMergeCand :=
  let enableSubPuMvp := cs.slice.sbtmvpEnabledFlag ∧
    ¬ (cs.slice.getPOC = cs.slice.getRefPOC .REF_PIC_LIST_0 0 ∧ cs.slice.isIRAP)
  if enableSubPuMvp ∧ cs.slice.enableTMVPFlag then
    match subPuLeft cs pu with
    | .error message => fun _ => .failed message
    | .ok left =>
        match getInterMergeSubPuMvpCand left with
        | none => .running
        | some derived =>
            (Stage.append mrgCandIdx fun list => subPuCand derived (list.entry list.count)).followedBy
              (Stage.limit cs.slice.maxNumAffineMergeCand)
  else .running

/-- A zero candidate. -/
def affineZeroCand (cand : AffineMergeCand) : Checked AffineMergeCand := do
  let cand ← [0, 1, 2].foldlM (fun (cand : AffineMergeCand) mvNum =>
    cand.setMvField .REF_PIC_LIST_0 mvNum .zero 0) cand
  let cand ← if cs.slice.isInterB then do
      let cand ← [0, 1, 2].foldlM (fun (cand : AffineMergeCand) mvNum =>
        cand.setMvField .REF_PIC_LIST_1 mvNum .zero 0) cand
      pure { cand with interDirNeighbours := 3 }
    else pure { cand with interDirNeighbours := 1 }
  return { cand with affineType := .AFFINEMODEL_4PARAM }

/-- The stages of `getAffineMergeCand`. -/
def affineStages (getInterMergeSubPuMvpCand : SubPuMvp) : List (Stage AffineMergeCand) :=
  let maxNumAffineMergeCand := cs.slice.maxNumAffineMergeCand
  let startIdx := if cs.slice.useAffineType then 0 else 4
  [subPuStage cs pu mrgCandIdx getInterMergeSubPuMvpCand,
    if cs.slice.useAffine then
      (Stage.inOrder ((npu cs pu).map fun puNeigh =>
        (Stage.append mrgCandIdx fun list =>
          inheritedCand cs pu puNeigh (list.entry list.count)).followedBy
            (Stage.limit maxNumAffineMergeCand))).followedBy
      (Stage.inOrder ((List.range' startIdx (6 - startIdx)).map fun modelIdx =>
        (constructedStage cs pu mrgCandIdx modelIdx).followedBy (Stage.limit maxNumAffineMergeCand)))
    else .running,
    fun list => Stage.inOrder (List.replicate (maxNumAffineMergeCand - list.count)
      (Stage.append mrgCandIdx fun list => affineZeroCand cs (list.entry list.count))) list]

def getAffineMergeCand (getInterMergeSubPuMvpCand : SubPuMvp) (affMrgCtx : AffineMergeCtx) :
    Checked AffineMergeCtx :=
  match Stage.inOrder (affineStages cs pu mrgCandIdx getInterMergeSubPuMvpCand)
      { entry := fun i =>
          if i < cs.slice.maxNumAffineMergeCand then .reset else affMrgCtx.cand i
        count := 0 } with
  | .failed message => .error message
  | .returned list => .ok ⟨list.entry, list.count⟩
  | .running list => .ok ⟨list.entry, list.count⟩

end

/-! ## Sub-blocks -/

/-- A component of `mvCliptoStorageBitDepth`. -/
def clipToPeriod (v : Int) : Checked Int := do
  let v ← add32 v (2 ^ 18)
  let v := v % 2 ^ 18
  return if v ≥ 2 ^ 17 then v - 2 ^ 18 else v

def Mv.mvCliptoStorageBitDepth (mv : Mv) : Checked Mv := do
  let hor ← clipToPeriod mv.hor
  let ver ← clipToPeriod mv.ver
  return ⟨hor, ver⟩

/-- `refBlkWidth * refBlkHeight`. -/
def refBlkArea (width height : Int) : Checked Int :=
  mul32 (width >>> (11 : Nat) + 6 + 3) (height >>> (11 : Nat) + 6 + 3)

def isSubblockVectorSpreadOverLimit (a b c d : Int) (predType : Nat) : Checked Bool := do
  let s4 : Int := 4 * 2 ^ 11
  let a4 ← mul32 4 a
  let b4 ← mul32 4 b
  let c4 ← mul32 4 c
  let d4 ← mul32 4 d
  let aS ← add32 a4 s4
  let dS ← add32 d4 s4
  if predType = 3 then
    let ac ← add32 a4 c4
    let acS ← add32 ac s4
    let bd ← add32 b4 d4
    let bdS ← add32 bd s4
    let width ← sub32 (max (max 0 aS) (max c4 acS)) (min (min 0 aS) (min c4 acS))
    let height ← sub32 (max (max 0 b4) (max dS bdS)) (min (min 0 b4) (min dS bdS))
    let refBlk ← refBlkArea width height
    return refBlk > (6 + 9) * (6 + 9)
  else
    let width ← sub32 (max 0 aS) (min 0 aS)
    let height ← sub32 (max 0 b4) (min 0 b4)
    let refBlk ← refBlkArea width height
    if refBlk > (6 + 9) * (6 + 5) then return true
    else
      let width ← sub32 (max 0 c4) (min 0 c4)
      let height ← sub32 (max 0 dS) (min 0 dS)
      let refBlk ← refBlkArea width height
      return refBlk > (6 + 5) * (6 + 9)

/-- What `setAllAffineMv` stores: the vectors of the sub-blocks, by their columns and rows, and the
control points. -/
structure AffineMotion where
  mv : Nat → Nat → Mv
  mvAffi : Nat → Mv

/-- The positions of the sub-blocks along a side. -/
def subBlocks (size : Int) : List Nat := (List.range ((size.toNat + 3) / 4)).map (4 * ·)

/-- The units of the motion buffer that a sub-block covers along a side. -/
def motionUnits (pos : Nat) : List Nat := List.range' (pos / 4) ((pos + 4) / 4 - pos / 4)

/-- Store the vector of a sub-block. -/
def storeSubBlock (w h : Nat) (curMv : Mv) (mb : Nat → Nat → Mv) : Nat → Nat → Mv :=
  fun x y => if x ∈ motionUnits w ∧ y ∈ motionUnits h then curMv else mb x y

/-- The control point vectors as they are stored. -/
def clipControlPoints (pu : PredictionUnit) (clipCPMVs : Bool) (affLT affRT affLB : Mv) :
    Checked (Mv × Mv × Mv) :=
  if clipCPMVs then do
    let affLT ← affLT.mvCliptoStorageBitDepth
    let affRT ← affRT.mvCliptoStorageBitDepth
    let affLB ← if pu.cu.affineType = .AFFINEMODEL_6PARAM then affLB.mvCliptoStorageBitDepth
      else pure affLB
    return (affLT, affRT, affLB)
  else pure (affLT, affRT, affLB)

/-- The vector of a sub-block: that of the centre of the unit if the spread is over the limit. -/
def subBlockMv (deltas : AffineDeltas) (subblkMVSpreadOverLimit : Bool) (width height : Int)
    (w h : Nat) : Checked Mv :=
  if subblkMVSpreadOverLimit then deltas.mvAt (width >>> (1 : Nat)) (height >>> (1 : Nat))
  else deltas.mvAt (2 + w) (2 + h)

/-- `setAllAffineMv`. `mb` is the motion buffer of the unit. -/
def setAllAffineMv (pu : PredictionUnit) (affLT affRT affLB : Mv) (clipCPMVs : Bool)
    (mb : Nat → Nat → Mv) : Checked AffineMotion := do
  let (affLT, affRT, affLB) ← clipControlPoints pu clipCPMVs affLT affRT affLB
  let deltas ← affineDeltas affLT affRT
    (if pu.cu.affineType = .AFFINEMODEL_6PARAM then some affLB else none) pu.Y.width pu.Y.height
  let subblkMVSpreadOverLimit ← isSubblockVectorSpreadOverLimit deltas.horX deltas.horY deltas.verX
    deltas.verY pu.interDir
  let mv ← (subBlocks pu.Y.height).foldlM (fun mb (h : Nat) =>
    (subBlocks pu.Y.width).foldlM (fun mb (w : Nat) => do
      let curMv ← subBlockMv deltas subblkMVSpreadOverLimit pu.Y.width pu.Y.height w h
      return storeSubBlock w h curMv mb) mb) mb
  return ⟨mv, fun n => if n = 0 then affLT else if n = 1 then affRT else affLB⟩

end Vtm.Motion
