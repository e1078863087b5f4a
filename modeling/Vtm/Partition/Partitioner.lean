import Vtm.Common.UnitPartitioner

/-!
# The partitioner

`QTBTPartitioner`: the stack of splits that led to the current area, the depth
counters and the positions of the quantisation groups. The last level of the stack is
kept apart: there always is one.
-/

namespace Vtm

structure PartLevel where
  split : PartSplit
  parts : List UnitArea
  idx : Nat
  checkdIfImplicit : Bool
  isImplicit : Bool
  implicitSplit : PartSplit
  firstSubPartSplit : PartSplit
  canQtSplit : Bool
  qgEnable : Bool
  qgChromaEnable : Bool
  modeType : ModeType
deriving DecidableEq, Repr

/-- The constructor from a split and its parts. -/
def PartLevel.ofParts (split : PartSplit) (parts : List UnitArea) : PartLevel where
  split := split
  parts := parts
  idx := 0
  checkdIfImplicit := false
  isImplicit := false
  implicitSplit := .CU_DONT_SPLIT
  firstSubPartSplit := .CU_DONT_SPLIT
  canQtSplit := true
  qgEnable := true
  qgChromaEnable := true
  modeType := .MODE_TYPE_ALL

/-- `QTBTPartitioner`; `back` is the last level of `m_partStack`. -/
structure Partitioner where
  back : PartLevel
  below : List PartLevel
  currDepth : Nat
  currQtDepth : Nat
  currTrDepth : Nat
  currBtDepth : Nat
  currMtDepth : Nat
  currSubdiv : Nat
  currQgPos : Position
  currQgChromaPos : Position
  currImplicitBtDepth : Nat
  chType : ChannelType
  treeType : TreeType
  modeType : ModeType
deriving DecidableEq, Repr

namespace Partitioner

def partStack (p : Partitioner) : List PartLevel := p.back :: p.below

def currArea (p : Partitioner) : Checked UnitArea :=
  match p.back.parts[p.back.idx]? with
  | some area => .ok area
  | none => .error "read behind the last part"

def initCtu (ctuArea : UnitArea) (chType : ChannelType) : Partitioner where
  back := .ofParts .CTU_LEVEL [ctuArea]
  below := []
  currDepth := 0
  currQtDepth := 0
  currTrDepth := 0
  currBtDepth := 0
  currMtDepth := 0
  currSubdiv := 0
  currQgPos := ctuArea.lumaPos
  currQgChromaPos := ctuArea.chromaPos
  currImplicitBtDepth := 0
  chType := chType
  treeType := .TREE_D
  modeType := .MODE_TYPE_ALL

/-- The split `getImplicitSplit` finds for an area that it has not looked at. -/
def implicitSplitOf (cs : PartitionParams) (p : Partitioner) (area : CompArea) : PartSplit :=
  let isBlInPic := cs.pictureY.contains area.bottomLeft
  let isTrInPic := cs.pictureY.contains area.topRight
  let maxBtSize := cs.maxBtSize p.chType
  let isBtAllowed := area.width ≤ maxBtSize ∧ area.height ≤ maxBtSize
  let minQtSize := cs.minQtSize p.chType
  let isQtAllowed := area.width > minQtSize ∧ area.height > minQtSize ∧ p.currBtDepth = 0
  let split : PartSplit :=
    if !isBlInPic ∧ !isTrInPic ∧ isQtAllowed then .CU_QUAD_SPLIT
    else if !isBlInPic ∧ isBtAllowed then .CU_HORZ_SPLIT
    else if !isTrInPic ∧ isBtAllowed then .CU_VERT_SPLIT
    else if !isBlInPic ∨ !isTrInPic then .CU_QUAD_SPLIT
    else .CU_DONT_SPLIT
  let split : PartSplit :=
    if cs.isDualITree ∧ (area.width > 64 ∨ area.height > 64) then .CU_QUAD_SPLIT else split
  if (!isBlInPic ∨ !isTrInPic) ∧ (area.width > MAX_TB_SIZEY ∨ area.height > MAX_TB_SIZEY) then
    .CU_QUAD_SPLIT
  else split

/-- `getImplicitSplit`: the result is kept in the level. -/
def getImplicitSplit (cs : PartitionParams) (p : Partitioner) : Checked (PartSplit × Partitioner) :=
  if p.back.checkdIfImplicit then .ok (p.back.implicitSplit, p)
  else do
    let area ← p.currArea
    let split := implicitSplitOf cs p area.Y
    return (split, { p with back := { p.back with
      checkdIfImplicit := true
      isImplicit := split ≠ .CU_DONT_SPLIT
      implicitSplit := split } })

def isSplitImplicit (cs : PartitionParams) (split : PartSplit) (p : Partitioner) :
    Checked (Bool × Partitioner) := do
  let (implicit, p) ← p.getImplicitSplit cs
  return (split = implicit, p)

/-- The output arguments of `canSplit`. -/
structure CanSplit where
  canNo : Bool
  canQt : Bool
  canBh : Bool
  canBv : Bool
  canTh : Bool
  canTv : Bool
deriving DecidableEq, Repr

/-- `canSplit`, with the implicit split of the level. -/
def canSplitOf (cs : PartitionParams) (p : Partitioner) (implicitSplit : PartSplit)
    (unitArea : UnitArea) : CanSplit :=
  let maxBTD := cs.maxBtDepth p.chType + p.currImplicitBtDepth
  let maxBtSize := cs.maxBtSize p.chType
  let minBtSize := cs.minBtSize p.chType
  let maxTtSize := cs.maxTtSize p.chType
  let minTtSize := cs.minTtSize p.chType
  let minQtSize := cs.minQtSize p.chType
  let isChroma := p.chType = .CHANNEL_TYPE_CHROMA
  let area := unitArea.Y
  let areaC := unitArea.Cb
  let chromaSize := areaC.width * areaC.height
  let lastSplit := p.back.split
  let parlSplit : PartSplit :=
    if lastSplit = .CU_TRIH_SPLIT then .CU_HORZ_SPLIT else .CU_VERT_SPLIT
  -- don't allow QT-splitting below a BT split
  let canQt := ¬ (lastSplit ≠ .CTU_LEVEL ∧ lastSplit ≠ .CU_QUAD_SPLIT) ∧
    ¬ area.width ≤ minQtSize ∧ ¬ (isChroma ∧ areaC.width ≤ MIN_DUALTREE_CHROMA_WIDTH)
  if p.treeType = .TREE_C then ⟨true, false, false, false, false, false⟩
  else if implicitSplit ≠ .CU_DONT_SPLIT then
    { canNo := false
      canQt
      canBh := implicitSplit = .CU_HORZ_SPLIT
      canBv := implicitSplit = .CU_VERT_SPLIT ∧ ¬ (isChroma ∧ areaC.width = 4)
      canTh := false
      canTv := false }
  else
    let middle := lastSplit.isTernary ∧ p.back.idx = 1
    let canBtt := p.currMtDepth < maxBTD ∧
      ¬ (area.width ≤ minBtSize ∧ area.height ≤ minBtSize ∧
        area.width ≤ minTtSize ∧ area.height ≤ minTtSize) ∧
      ¬ ((area.width > maxBtSize ∨ area.height > maxBtSize) ∧
        (area.width > maxTtSize ∨ area.height > maxTtSize))
    if ¬ canBtt then ⟨true, canQt, false, false, false, false⟩
    else
      let fitsBt := ¬ (area.width > maxBtSize ∨ area.height > maxBtSize)
      let inter (size : Nat) := p.modeType = .MODE_TYPE_INTER ∧ area.width * area.height = size
      { canNo := true
        canQt
        canBh := ¬ (middle ∧ parlSplit = .CU_HORZ_SPLIT) ∧ fitsBt ∧ ¬ area.height ≤ minBtSize ∧
          ¬ (area.width > MAX_TB_SIZEY ∧ area.height ≤ MAX_TB_SIZEY) ∧
          ¬ (isChroma ∧ chromaSize ≤ MIN_DUALTREE_CHROMA_SIZE) ∧ ¬ inter 32
        canBv := ¬ (middle ∧ parlSplit = .CU_VERT_SPLIT) ∧ fitsBt ∧ ¬ area.width ≤ minBtSize ∧
          ¬ (area.width ≤ MAX_TB_SIZEY ∧ area.height > MAX_TB_SIZEY) ∧
          ¬ (isChroma ∧ (chromaSize ≤ MIN_DUALTREE_CHROMA_SIZE ∨ areaC.width = 4)) ∧
          ¬ inter 32
        canTh := ¬ (area.height ≤ 2 * minTtSize ∨ area.height > maxTtSize ∨
            area.width > maxTtSize) ∧
          ¬ (area.width > MAX_TB_SIZEY ∨ area.height > MAX_TB_SIZEY) ∧
          ¬ (isChroma ∧ chromaSize ≤ MIN_DUALTREE_CHROMA_SIZE * 2) ∧ ¬ inter 64
        canTv := ¬ (area.width ≤ 2 * minTtSize ∨ area.width > maxTtSize ∨
            area.height > maxTtSize) ∧
          ¬ (area.width > MAX_TB_SIZEY ∨ area.height > MAX_TB_SIZEY) ∧
          ¬ (isChroma ∧ (chromaSize ≤ MIN_DUALTREE_CHROMA_SIZE * 2 ∨ areaC.width = 8)) ∧
          ¬ inter 64 }

/-- `canSplit` with output arguments. -/
def canSplitAll (cs : PartitionParams) (p : Partitioner) : Checked (CanSplit × Partitioner) := do
  let (implicitSplit, p) ← p.getImplicitSplit cs
  let area ← p.currArea
  return (canSplitOf cs p implicitSplit area, p)

/-- `canSplit` of one split. -/
def canSplit (cs : PartitionParams) (split : PartSplit) (p : Partitioner) :
    Checked (Bool × Partitioner) := do
  let area ← p.currArea
  let (can, p) ← p.canSplitAll cs
  match split with
  | .CTU_LEVEL => .error "Checking if top level split is possible"
  | .TU_MAX_TR_SPLIT =>
      return (area.Y.width > cs.maxTbSize ∨ area.Y.height > cs.maxTbSize, p)
  | .CU_QUAD_SPLIT => return (can.canQt, p)
  | .CU_DONT_SPLIT => return (can.canNo, p)
  | .CU_HORZ_SPLIT => return (can.canBh, p)
  | .CU_VERT_SPLIT => return (can.canBv, p)
  | .CU_TRIH_SPLIT => return (can.canTh, p)
  | .CU_TRIV_SPLIT => return (can.canTv, p)
  | .CU_MT_SPLIT => return (can.canBh || can.canTh || can.canBv || can.canTv, p)
  | .CU_BT_SPLIT => return (can.canBh || can.canBv, p)
  | .SBT_VER_HALF_POS0_SPLIT | .SBT_VER_HALF_POS1_SPLIT | .SBT_HOR_HALF_POS0_SPLIT
  | .SBT_HOR_HALF_POS1_SPLIT | .SBT_VER_QUAD_POS0_SPLIT | .SBT_VER_QUAD_POS1_SPLIT
  | .SBT_HOR_QUAD_POS0_SPLIT | .SBT_HOR_QUAD_POS1_SPLIT => return (p.currTrDepth = 0, p)
  | .TU_NO_ISP | .TU_1D_HORZ_SPLIT | .TU_1D_VERT_SPLIT => .error "Unknown split mode"

/-- The quantisation group moves to the current area while the level enables it. -/
def moveQgPos (p : Partitioner) : Checked Partitioner :=
  if p.back.qgEnable then do
    let area ← p.currArea
    return { p with currQgPos := area.lumaPos }
  else .ok p

def moveQgChromaPos (p : Partitioner) : Checked Partitioner :=
  if p.back.qgChromaEnable then do
    let area ← p.currArea
    return { p with currQgChromaPos := area.chromaPos }
  else .ok p

def moveQg (p : Partitioner) : Checked Partitioner := do
  let p ← p.moveQgPos
  p.moveQgChromaPos

/-- The parts of the current area, as `splitCurrArea` gets them. -/
def partsOf (cs : PartitionParams) (split : PartSplit) (area : UnitArea) :
    Checked (List UnitArea) :=
  if split = .CU_QUAD_SPLIT ∨ split.isMultiType then
    PartitionerImpl.getCUSubPartitions area split
  else if split = .TU_MAX_TR_SPLIT then PartitionerImpl.getMaxTuTiling area cs.maxTbSize
  else if split.isSbt then .ok (PartitionerImpl.getSbtTuTiling area split)
  else .error "Unknown split mode"

/-- `m_partStack.push_back`, with `modeType` set for the splits of coding units. -/
def pushLevel (split : PartSplit) (parts : List UnitArea) (p : Partitioner) : Partitioner :=
  let level := PartLevel.ofParts split parts
  { p with
    back := if split = .CU_QUAD_SPLIT ∨ split.isMultiType then { level with modeType := p.modeType }
      else level
    below := p.back :: p.below }

/-- The depth counters after a split. -/
def enterSplit (split : PartSplit) (isImplicit canQtSplit : Bool) (p : Partitioner) :
    Checked Partitioner := do
  let p := { p with
    currDepth := p.currDepth + 1
    currSubdiv := p.currSubdiv + 1
    currTrDepth := if split.isTransform then p.currTrDepth + 1 else 0 }
  if split.isMultiType then
    -- first and last part of triple split are equivalent to double bt split
    let more := if split.isTernary then 1 else 0
    return { p with
      back := { p.back with canQtSplit }
      currBtDepth := p.currBtDepth + 1 + more
      currImplicitBtDepth := if isImplicit then p.currImplicitBtDepth + 1 else p.currImplicitBtDepth
      currMtDepth := p.currMtDepth + 1
      currSubdiv := p.currSubdiv + more }
  else if split = .CU_QUAD_SPLIT then
    CHECK (p.currBtDepth > 0) "Cannot split a non-square area other than with a binary split"
    CHECK (p.currMtDepth > 0) "Cannot split a non-square area other than with a binary split"
    return { p with
      currMtDepth := 0
      currBtDepth := 0
      currQtDepth := p.currQtDepth + 1
      currSubdiv := p.currSubdiv + 1 }
  else return p

def splitCurrArea (cs : PartitionParams) (split : PartSplit) (p : Partitioner) :
    Checked Partitioner := do
  let (isImplicit, p) ← p.isSplitImplicit cs split
  let (canQtSplit, p) ← p.canSplit cs .CU_QUAD_SPLIT
  let qgEnable := p.back.qgEnable
  let qgChromaEnable := p.back.qgChromaEnable
  let area ← p.currArea
  let parts ← partsOf cs split area
  let p ← enterSplit split isImplicit canQtSplit (p.pushLevel split parts)
  moveQg { p with back := { p.back with
    qgEnable := qgEnable && p.currSubdiv ≤ cs.cuQpDeltaSubdiv
    qgChromaEnable := qgChromaEnable && p.currSubdiv ≤ cs.cuChromaQpOffsetSubdiv } }

/-- The depth counters when a split is left after its part `currIdx`. -/
def leaveSplit (currSplit : PartSplit) (currIdx : Nat) (p : Partitioner) : Checked Partitioner := do
  if currSplit.isMultiType then
    CHECK (p.back.checkdIfImplicit = false) "Didn't check if the current split is implicit"
    CHECK (p.currBtDepth = 0) "BT depth is '0', athough a BT split was performed"
    CHECK (p.currMtDepth = 0) "MT depth is '0', athough a BT split was performed"
    let p := { p with
      currMtDepth := p.currMtDepth - 1
      currImplicitBtDepth :=
        if p.back.isImplicit then p.currImplicitBtDepth - 1 else p.currImplicitBtDepth
      currBtDepth := p.currBtDepth - 1 }
    if currSplit.isTernary ∧ currIdx ≠ 1 then
      CHECK (p.currBtDepth = 0) "BT depth is '0', athough a TT split was performed"
      return { p with currBtDepth := p.currBtDepth - 1, currSubdiv := p.currSubdiv - 1 }
    else return p
  else if currSplit.isTransform then
    CHECK (p.currTrDepth = 0) "TR depth is '0', although a TU split was performed"
    return { p with currTrDepth := p.currTrDepth - 1 }
  else
    CHECK (p.currTrDepth > 0) "RQT found with QTBT partitioner"
    CHECK (p.currQtDepth = 0) "QT depth is '0', although a QT split was performed"
    return { p with currQtDepth := p.currQtDepth - 1, currSubdiv := p.currSubdiv - 1 }

/-- `m_partStack.pop_back`. -/
def popLevel (p : Partitioner) : Checked Partitioner :=
  match p.below with
  | [] => .error "no level left"
  | back :: below => .ok { p with back, below }

def exitCurrSplit (p : Partitioner) : Checked Partitioner := do
  let currSplit := p.back.split
  let currIdx := p.back.idx
  let p ← p.popLevel
  CHECK (p.currDepth = 0) "depth is '0', although a split was performed"
  let p ← moveQg { p with currDepth := p.currDepth - 1, currSubdiv := p.currSubdiv - 1 }
  leaveSplit currSplit currIdx p

/-- The split of the first part, for `firstSubPartSplit`. -/
def splitOfFirstPart (cs : PartitionParams) (p : Partitioner) : Checked PartSplit := do
  let area ← p.currArea
  match cs.getCU (area.block p.chType).toPosition p.chType with
  | some prevCU => getSplitAtDepth prevCU p.currDepth
  | none => return .CU_DONT_SPLIT

/-- The level behind `nextPart`. -/
def nextLevel (cs : PartitionParams) (p : Partitioner) : Checked PartLevel := do
  let currIdx := (p.back.idx + 1) % 2 ^ 32
  let level := { p.back with idx := currIdx, checkdIfImplicit := false, isImplicit := false }
  if currIdx = 1 then return { level with firstSubPartSplit := ← p.splitOfFirstPart cs }
  else return level

/-- The bt depth of a ternary split follows the part. -/
def enterPart (p : Partitioner) : Partitioner :=
  if p.back.split.isTernary then
    if p.back.idx = 1 then
      { p with currBtDepth := p.currBtDepth - 1, currSubdiv := p.currSubdiv - 1 }
    else { p with currBtDepth := p.currBtDepth + 1, currSubdiv := p.currSubdiv + 1 }
  else p

/-- `nextPart`, and whether there is one. -/
def nextPart (cs : PartitionParams) (autoPop : Bool) (p : Partitioner) :
    Checked (Bool × Partitioner) := do
  let back ← p.nextLevel cs
  let p := { p with back }
  if p.back.idx < p.back.parts.length then return (true, ← p.enterPart.moveQg)
  else if autoPop then return (false, ← p.exitCurrSplit)
  else return (false, p)

end Partitioner

end Vtm
