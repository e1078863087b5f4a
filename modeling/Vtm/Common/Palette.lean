import Vtm.Common.Bins
import Vtm.Common.Scan

/-!
# Palette coding units

What the palette syntax reads and writes: the parameters both sides know before
it starts, the palette members of a coding unit, and the index map of its
transform unit.
-/

namespace Vtm

open Vtm.Std

def MAXPLTSIZE : Nat := 31
def MAXPLTPREDSIZE : Nat := 63
def LOG2_PALETTE_CG_SIZE : Nat := 4
def RUN_IDX_THRE : Nat := 4
def MAX_QP : Nat := 63
def CU_DQP_TU_CMAX : Nat := 5
def CU_DQP_EG_k : Nat := 0
def MAX_INT : Nat := 2 ^ 31 - 1

/-- A two-dimensional array. -/
def Grid (α : Type) : Type := Nat → Nat → α

/-- Assignment to one element. -/
def Grid.set {α : Type} (grid : Grid α) (i j : Nat) (value : α) : Grid α :=
  fun i' j' => if i' = i ∧ j' = j then value else grid i' j'

@[simp] theorem Grid.set_self {α : Type} (grid : Grid α) (i j : Nat) (value : α) :
    grid.set i j value i j = value := by
  simp [Grid.set]

/-- Assigning the element of another array keeps every agreement with it. -/
theorem Grid.set_agrees {α : Type} {grid other : Grid α} {i j : Nat} (i' j' : Nat)
    (agrees : grid i' j' = other i' j') : grid.set i j (other i j) i' j' = other i' j' := by
  unfold Grid.set
  split
  · rename_i same
    rw [same.1, same.2]
  · exact agrees

inductive TreeType where
  | TREE_D
  | TREE_L
  | TREE_C
deriving DecidableEq, Repr

inductive ChannelType where
  | CHANNEL_TYPE_LUMA
  | CHANNEL_TYPE_CHROMA
deriving DecidableEq, Repr

inductive PLTRunMode where
  | PLT_RUN_INDEX
  | PLT_RUN_COPY
deriving DecidableEq, Repr

/-- The parameter sets, the slice, the palette predictor, and the area and tree
of the coding unit. Components are numbered as in `ComponentID`. -/
structure PLTParams where
  width : Nat
  height : Nat
  treeType : TreeType
  chType : ChannelType
  isDualITree : Bool
  bitDepth : ChannelType → Nat
  qpBDOffset : Nat
  scaleX : Nat
  scaleY : Nat
  useDQP : Bool
  useChromaQpAdj : Bool
  chromaQpOffsetListLen : Nat
  prevPLTSize : Nat
  prevPLT : Grid Nat

/-- The palette members of a `CodingUnit`, for the channel type that the
palette is indexed by, and its quantizer members. -/
structure CodingUnit where
  lastPLTSize : Nat
  reuseflag : Nat → Bool
  reusePLTSize : Nat
  curPLTSize : Nat
  curPLT : Grid Nat
  useEscape : Bool
  useRotation : Bool
  qp : Int
  chromaQpAdj : Nat

/-- The palette buffers of a `TransformUnit`; escape values by component. -/
structure TransformUnit where
  runType : Grid PLTRunMode
  curPLTIdx : Grid Nat
  escapeValue : Nat → Grid Nat

/-- `CUCtx`, as far as the palette syntax uses it. -/
structure CUCtx where
  qp : Int
  isDQPCoded : Bool
  isChromaQpAdjCoded : Bool
deriving DecidableEq, Repr

def toChannelType (compID : Nat) : ChannelType :=
  if compID = 0 then .CHANNEL_TYPE_LUMA else .CHANNEL_TYPE_CHROMA

namespace PLTParams

variable (p : PLTParams)

def isSepTree : Bool := p.treeType ≠ .TREE_D ∨ p.isDualITree

def isLuma : Bool := p.chType = .CHANNEL_TYPE_LUMA
def isChroma : Bool := p.chType = .CHANNEL_TYPE_CHROMA

/-- The first component that `coding_unit` passes to `cu_palette_info`. -/
def compBegin : Nat := if p.isSepTree ∧ p.isChroma then 1 else 0

/-- The number of components that `coding_unit` passes to `cu_palette_info`. -/
def numComp : Nat := if p.isSepTree then (if p.isLuma then 1 else 2) else 3

def compBitDepth (compID : Nat) : Nat := p.bitDepth (toChannelType compID)

/-- The index groups of `1 << LOG2_PALETTE_CG_SIZE` positions. -/
def numSubsets : Nat := (p.height * p.width - 1) >>> LOG2_PALETTE_CG_SIZE + 1

def minSubPos (subSetId : Nat) : Nat := subSetId <<< LOG2_PALETTE_CG_SIZE

def maxSubPos (subSetId : Nat) : Nat :=
  min (minSubPos subSetId + 1 <<< LOG2_PALETTE_CG_SIZE) (p.height * p.width)

/-- The positions of a group. -/
@[grind =] def subPositions (subSetId : Nat) : List Nat :=
  List.range' (minSubPos subSetId) (p.maxSubPos subSetId - minSubPos subSetId)

/-- `m_scanOrder`. -/
def scan (useRotation : Bool) (curPos : Nat) : ScanElement :=
  scanOrder (if useRotation then .SCAN_TRAV_VER else .SCAN_TRAV_HOR) p.width p.height curPos

/-- The position in front of `curPos`. -/
def scanPrev (useRotation : Bool) (curPos : Nat) : ScanElement :=
  if curPos = 0 then ⟨0, 0⟩ else p.scan useRotation (curPos - 1)

end PLTParams

/-- `indexMaxSize`: escape is one more index. -/
@[grind =] def CodingUnit.indexMaxSize (cu : CodingUnit) : Nat :=
  if cu.useEscape then cu.curPLTSize + 1 else cu.curPLTSize

/-- The first line of the scan: nothing to copy from. -/
def onFirstLine (useRotation : Bool) (pos : ScanElement) : Prop :=
  (pos.y = 0 ∧ useRotation = false) ∨ (pos.x = 0 ∧ useRotation = true)

instance (useRotation : Bool) (pos : ScanElement) : Decidable (onFirstLine useRotation pos) :=
  inferInstanceAs (Decidable (_ ∨ _))

/-- The neighbour that a copied index comes from. -/
def copySource (useRotation : Bool) (pos : ScanElement) : ScanElement :=
  if useRotation then ⟨pos.x - 1, pos.y⟩ else ⟨pos.x, pos.y - 1⟩

/-- `g_paletteRunTopLut`. -/
def paletteRunTopLut : List Nat := [0, 1, 1, 2, 2]

/-- `g_paletteRunLeftLut`. -/
def paletteRunLeftLut : List Nat := [0, 1, 2, 3, 4]

def ctxPltCopyFlag (prevRunType : PLTRunMode) (dist : Nat) : Nat :=
  let ucCtxLut := if prevRunType = .PLT_RUN_INDEX then paletteRunLeftLut else paletteRunTopLut
  if dist ≤ RUN_IDX_THRE then ucCtxLut.getD dist 0 else ucCtxLut.getD RUN_IDX_THRE 0

/-- What the run loop carries: the copy flags of the group and the last run. -/
structure RunState where
  runCopyFlag : Nat → Nat
  prevRunPos : Nat
  prevRunType : PLTRunMode

namespace RunState

/-- The state in front of a group. -/
def start (minSubPos prevRunPos : Nat) (prevRunType : PLTRunMode) : RunState :=
  { runCopyFlag := fun i => if minSubPos = 0 ∧ i = 0 then 0 else MAX_INT, prevRunPos, prevRunType }

/-- The context of the copy flag at `curPos`. -/
def copyFlagCtx (st : RunState) (curPos : Nat) : Ctx :=
  ⟨if st.prevRunType = .PLT_RUN_INDEX then .IdxRunModel else .CopyRunModel,
    ctxPltCopyFlag st.prevRunType (curPos - st.prevRunPos - 1)⟩

/-- `runCopyFlag[curPos - minSubPos] = identityFlag`. -/
def setFlag (st : RunState) (i : Nat) (identityFlag : Bool) : RunState :=
  { st with runCopyFlag := Function.update st.runCopyFlag i identityFlag.toNat }

end RunState

/-- The level that index coding leaves out: the left neighbour's, or behind a
copied run the copy source's. Escape counts as the last symbol. -/
def refLevel (p : PLTParams) (cu : CodingUnit) (runType : Grid PLTRunMode) (paletteIdx : Grid Nat)
    (maxSymbol idx : Nat) : StateT (List Bin) Checked Nat :=
  let pos := p.scan cu.useRotation idx
  let prevpos := p.scan cu.useRotation (idx - 1)
  let level := fun at' : ScanElement =>
    if paletteIdx at'.x at'.y = cu.curPLTSize then maxSymbol - 1 else paletteIdx at'.x at'.y
  if runType prevpos.x prevpos.y = .PLT_RUN_INDEX then pure (level prevpos)
  else if cu.useRotation then do
    check (¬ prevpos.x > 0) "prevposx > 0"
    return level (copySource true pos)
  else do
    check (¬ prevpos.y > 0) "prevposy > 0"
    return level (copySource false pos)

end Vtm
