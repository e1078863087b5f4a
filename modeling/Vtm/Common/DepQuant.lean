import Vtm.Common.Scan

/-!
# Dependent quantisation

`DepQuant::quant` fills a trellis with one row of decisions for each scan
position, from the first test position down to the DC coefficient, and reads the
levels off the cheapest path. `Quantizer::dequantBlock` follows the four states
of the quantiser from the parities of the levels. What `initQuantBlock` computes
from the QP and, in floating point, from lambda is an input, and so are the rates
that `updateState` and `CommonCtx::update` select for a state.
-/

namespace Vtm.DQIntern

/-- The value of a 32-bit word. -/
def int32 (z : Int) : Int := z.bmod (2 ^ 32)

/-- The value of a 64-bit word. -/
def int64 (z : Int) : Int := z.bmod (2 ^ 64)

/-- `g_log2SbbSize`. -/
def gLog2SbbSize (log2Width log2Height : Nat) : Nat × Nat :=
  let wide : Nat → List (Nat × Nat) := fun first => (first, 0) :: (3, 1) :: List.replicate 6 (2, 2)
  let table : List (List (Nat × Nat)) :=
    [[(0, 0), (0, 1), (0, 2), (0, 3), (0, 4), (0, 4), (0, 4), (0, 4)],
     [(1, 0), (1, 1), (1, 1), (1, 3), (1, 3), (1, 3), (1, 3), (1, 3)],
     (2, 0) :: (1, 1) :: List.replicate 6 (2, 2),
     wide 3, wide 4, wide 4, wide 4, wide 4]
  (table.getD log2Width []).getD log2Height (0, 0)

/-- The fields of `TransformUnit`, its `CodingUnit` and the SPS that `quant` reads,
for one component. `Rom` has parameters for the sizes up to 64 samples a side
except the smallest. -/
structure TransformUnit where
  log2Width : Nat
  log2Height : Nat
  luma : Bool
  mtsIdx : Nat
  lfnstIdx : Nat
  sbtInfo : Nat
  useMTS : Bool
  transQuantBypass : Bool
  width_le : log2Width ≤ 6
  height_le : log2Height ≤ 6
  supported : ¬ (log2Width = 0 ∧ log2Height ≤ 1 ∨ log2Width ≤ 1 ∧ log2Height = 0)

def MTS_SKIP : Nat := 1

inductive ScanPosType where
  | SCAN_ISCSBB
  | SCAN_SOCSBB
  | SCAN_EOCSBB
deriving DecidableEq, Repr

namespace TransformUnit

variable (tu : TransformUnit)

def width : Nat := 2 ^ tu.log2Width
def height : Nat := 2 ^ tu.log2Height

/-- `numCoeff` of `quant`: the samples of the block. -/
def area : Nat := tu.width * tu.height

/-- `m_numCoeff` of `TUParameters`: the samples that are not zeroed out. -/
def numCoeff : Nat := min ZERO_OUT_TH tu.width * min ZERO_OUT_TH tu.height

def log2SbbWidth : Nat := (gLog2SbbSize tu.log2Width tu.log2Height).1
def log2SbbHeight : Nat := (gLog2SbbSize tu.log2Width tu.log2Height).2
def sbbSize : Nat := 1 <<< (tu.log2SbbWidth + tu.log2SbbHeight)

/-- `m_scanId2BlkPos`. -/
def scanId2BlkPos (scanIdx : Nat) : ScanElement :=
  scanGrouped tu.log2SbbWidth tu.log2SbbHeight tu.width tu.height scanIdx

/-- `m_scanId2BlkPos[scanIdx].idx`. -/
@[grind =] def rasterPos (scanIdx : Nat) : Nat :=
  (tu.scanId2BlkPos scanIdx).y * tu.width + (tu.scanId2BlkPos scanIdx).x

/-- `insidePos` of `xSetScanInfo`: `scanIdx & m_sbbMask`. -/
def insidePos (scanIdx : Nat) : Nat := scanIdx % tu.sbbSize

def eosbb (scanIdx : Nat) : Bool := tu.insidePos scanIdx = 0

/-- `spt` of `xSetScanInfo`. -/
@[grind =] def spt (scanIdx : Nat) : ScanPosType :=
  if tu.insidePos scanIdx = tu.sbbSize - 1 ∧ scanIdx > tu.sbbSize ∧ scanIdx < tu.numCoeff - 1 then
    .SCAN_SOCSBB
  else if tu.eosbb scanIdx ∧ scanIdx > 0 ∧ scanIdx < tu.numCoeff - tu.sbbSize then .SCAN_EOCSBB
  else .SCAN_ISCSBB

/-- The blocks whose transform keeps 16 of 32 coefficients a side. -/
def shortTransform : Bool :=
  (tu.mtsIdx > MTS_SKIP ∨
    (tu.useMTS ∧ tu.sbtInfo ≠ 0 ∧ tu.height ≤ 32 ∧ tu.width ≤ 32)) ∧
    ¬ tu.transQuantBypass ∧ tu.luma

def effWidth : Nat := if tu.shortTransform ∧ tu.width = 32 then 16 else tu.width
def effHeight : Nat := if tu.shortTransform ∧ tu.height = 32 then 16 else tu.height

def zeroOut : Bool := tu.effHeight < tu.height ∨ tu.effWidth < tu.width

def zeroOutforThres : Bool := tu.zeroOut ∨ 32 < tu.height ∨ 32 < tu.width

/-- The `zeroOut` that `quant` passes to `xDecideAndUpdate`. -/
@[grind =] def zeroOutAt (scanIdx : Nat) : Bool :=
  tu.zeroOut ∧
    ((tu.scanId2BlkPos scanIdx).x ≥ tu.effWidth ∨ (tu.scanId2BlkPos scanIdx).y ≥ tu.effHeight)

/-- The positions that the search for the first test position skips. -/
def skipsTest (scanIdx : Nat) : Bool :=
  tu.zeroOutforThres ∧
    ((tu.scanId2BlkPos scanIdx).x ≥ (if tu.width = 32 ∧ tu.zeroOut then 16 else 32) ∨
      (tu.scanId2BlkPos scanIdx).y ≥ (if tu.height = 32 ∧ tu.zeroOut then 16 else 32))

/-- The position at which the search for the first test position begins. -/
def lastTestPos : Nat :=
  if tu.lfnstIdx > 0 ∧ tu.mtsIdx ≠ MTS_SKIP ∧ tu.width ≥ 4 ∧ tu.height ≥ 4 then
    if (tu.width = 4 ∧ tu.height = 4) ∨ (tu.width = 8 ∧ tu.height = 8) then 7 else 15
  else tu.area - 1

end TransformUnit

structure PQData where
  absLevel : Int
  deltaDist : Int
deriving DecidableEq, Repr

structure Decision where
  rdCost : Int
  absLevel : Int
  prevId : Int
deriving DecidableEq, Repr

/-- Four entries, one for each state of the quantiser. -/
structure Four (α : Type) where
  s0 : α
  s1 : α
  s2 : α
  s3 : α
deriving DecidableEq, Repr

namespace Four

variable {α β : Type}

def get (f : Four α) : Nat → α
  | 0 => f.s0
  | 1 => f.s1
  | 2 => f.s2
  | _ => f.s3

def map (g : α → β) (f : Four α) : Four β := ⟨g f.s0, g f.s1, g f.s2, g f.s3⟩

end Four

/-- What `initQuantBlock` leaves in a `Quantizer`. The bit depth of the largest
index is at most `maxLog2TrDynamicRange + 1`, which is 16. -/
structure Quantizer where
  QShift : Nat
  QAdd : Int
  QScale : Int
  maxQIdx : Int
  thresLast : Int
  DistShift : Nat
  DistAdd : Int
  DistStepAdd : Int
  DistOrgFact : Int
  maxQIdx_le : maxQIdx ≤ 2 ^ 15 - 4

namespace Quantizer

variable (m : Quantizer)

/-- The first index that `preQuantCoeff` considers. -/
def qIdx (absCoeff quanCoeff : Int) : Int :=
  max 1 (min m.maxQIdx (int32 ((absCoeff * quanCoeff + m.QAdd) >>> m.QShift)))

/-- The level and the distortion of the index `qIdx`. -/
def candidate (absCoeff quanCoeff qIdx : Int) : PQData where
  absLevel := (qIdx + 1) / 2
  deltaDist :=
    int64 ((qIdx * m.DistStepAdd - absCoeff * quanCoeff * m.DistOrgFact) * qIdx + m.DistAdd) >>>
      m.DistShift

/-- `preQuantCoeff`: the four indices from `qIdx` on, by their remainders modulo 4. -/
def preQuantCoeff (absCoeff quanCoeff : Int) (k : Nat) : PQData :=
  let qIdx := m.qIdx absCoeff quanCoeff
  if qIdx % 4 = k then m.candidate absCoeff quanCoeff qIdx
  else if (qIdx + 1) % 4 = k then m.candidate absCoeff quanCoeff (qIdx + 1)
  else if (qIdx + 2) % 4 = k then m.candidate absCoeff quanCoeff (qIdx + 2)
  else m.candidate absCoeff quanCoeff (qIdx + 3)

end Quantizer

structure BinFracBits where
  intBits0 : UInt32
  intBits1 : UInt32

def RICEMAX : Nat := 32

/-- `g_goRiceBits`. -/
def gGoRiceBits (goRicePar value : Nat) : Int32 :=
  let table : List (List Int32) :=
    [[32768, 65536, 98304, 131072, 163840, 196608, 262144, 262144, 327680, 327680, 327680, 327680] ++
       List.replicate 8 393216 ++ List.replicate 12 458752,
     [65536, 65536, 98304, 98304, 131072, 131072, 163840, 163840, 196608, 196608, 229376, 229376] ++
       List.replicate 4 294912 ++ List.replicate 8 360448 ++ List.replicate 8 425984,
     List.replicate 4 98304 ++ List.replicate 4 131072 ++ List.replicate 4 163840 ++
       List.replicate 4 196608 ++ List.replicate 4 229376 ++ List.replicate 4 262144 ++
       List.replicate 8 327680,
     List.replicate 8 131072 ++ List.replicate 8 163840 ++ List.replicate 8 196608 ++
       List.replicate 8 229376]
  (table.getD goRicePar []).getD value 0

/-- The fields of a `State` that its rates depend on. -/
structure StateCtx where
  numSigSbb : Int
  remRegBins : Int
  sbbFracBits : BinFracBits
  sigFracBits : BinFracBits
  coeffFracBits : Nat → Int32
  goRicePar : Nat
  goRiceZero : Int

structure State where
  stateId : Nat
  rdCost : Int
  ctx : StateCtx

namespace Decision

/-- The comparison that every candidate for a decision goes through. -/
@[grind =] def offer (decision : Decision) (rdCost absLevel prevId : Int) : Decision :=
  if rdCost < decision.rdCost then ⟨rdCost, absLevel, prevId⟩ else decision

end Decision

namespace StateCtx

variable (ctx : StateCtx)

/-- The regular bins of a level. -/
def levelBits (absLevel : Int) : Int32 :=
  if absLevel < 4 then ctx.coeffFracBits absLevel.toNat
  else
    let value := ((absLevel - 4) / 2).toNat
    ctx.coeffFracBits (absLevel.toNat - value * 2) +
      gGoRiceBits ctx.goRicePar (if value < RICEMAX then value else RICEMAX - 1)

/-- The bins of a level once the regular ones are used up. -/
def escapeBits (absLevel : Int) : Int32 :=
  ((1 : Int32) <<< 15) + gGoRiceBits ctx.goRicePar
    (if absLevel ≤ ctx.goRiceZero then (absLevel - 1).toNat
      else if absLevel.toNat < RICEMAX then absLevel.toNat else RICEMAX - 1)

/-- The rate of a level that is not zero. -/
def rate (spt : ScanPosType) (absLevel : Int) : Int :=
  if ctx.remRegBins ≥ 4 then
    (ctx.levelBits absLevel).toInt +
      match spt with
      | .SCAN_ISCSBB => ctx.sigFracBits.intBits1.toNat
      | .SCAN_SOCSBB => (ctx.sbbFracBits.intBits1 + ctx.sigFracBits.intBits1).toNat
      | .SCAN_EOCSBB => if ctx.numSigSbb ≠ 0 then ctx.sigFracBits.intBits1.toNat else 0
  else (ctx.escapeBits absLevel).toInt

/-- The rate of a zero, where it may be chosen. -/
def rateZero (spt : ScanPosType) : Option Int :=
  if ctx.remRegBins ≥ 4 then
    match spt with
    | .SCAN_ISCSBB => some ctx.sigFracBits.intBits0.toNat
    | .SCAN_SOCSBB => some (ctx.sbbFracBits.intBits1 + ctx.sigFracBits.intBits0).toNat
    | .SCAN_EOCSBB => if ctx.numSigSbb ≠ 0 then some ctx.sigFracBits.intBits0.toNat else none
  else some (gGoRiceBits ctx.goRicePar ctx.goRiceZero.toNat).toInt

end StateCtx

namespace State

variable (s : State)

/-- `rdCostZ` of `checkRdCosts`. -/
def rdCostZ (spt : ScanPosType) (decisionA : Decision) : Int :=
  match s.ctx.rateZero spt with
  | some bits => int64 (s.rdCost + bits)
  | none => decisionA.rdCost

def checkRdCosts (spt : ScanPosType) (pqDataA pqDataB : PQData) (decisionA decisionB : Decision) :
    Decision × Decision :=
  let rdCostA := int64 (s.rdCost + pqDataA.deltaDist + s.ctx.rate spt pqDataA.absLevel)
  let rdCostB := int64 (s.rdCost + pqDataB.deltaDist + s.ctx.rate spt pqDataB.absLevel)
  ((decisionA.offer rdCostA pqDataA.absLevel s.stateId).offer (s.rdCostZ spt decisionA) 0 s.stateId,
    decisionB.offer rdCostB pqDataB.absLevel s.stateId)

def checkRdCostStart (lastOffset : Int32) (pqData : PQData) (decision : Decision) : Decision :=
  decision.offer
    (int64 (pqData.deltaDist + lastOffset.toInt + (s.ctx.levelBits pqData.absLevel).toInt))
    pqData.absLevel (-1)

/-- The cost of a sub-block without levels. -/
def rdCostSkipSbb : Int := int64 (s.rdCost + s.ctx.sbbFracBits.intBits0.toNat)

def checkRdCostSkipSbb (decision : Decision) : Decision :=
  decision.offer s.rdCostSkipSbb 0 (4 + s.stateId)

def checkRdCostSkipSbbZeroOut : Decision := ⟨s.rdCostSkipSbb, 0, 4 + s.stateId⟩

end State

/-- `std::numeric_limits<int64_t>::max() >> 1`, the cost of a state before the
first test position. -/
@[grind =] def initCost : Int := 2 ^ 62 - 1

/-- `std::numeric_limits<int64_t>::max() >> 2`, the cost of a decision that is not
taken yet. -/
@[grind =] def startCost : Int := 2 ^ 61 - 1

/-- The eight decisions for a scan position: those for the states, and those for
the states before the sub-block. -/
structure Decisions where
  states : Four Decision
  skips : Four Decision
deriving DecidableEq, Repr

/-- `decisions[id]`. -/
def Decisions.get (d : Decisions) (id : Nat) : Decision :=
  if id < 4 then d.states.get id else d.skips.get (id - 4)

def startDec : Decisions where
  states := let none := ⟨startCost, -1, -2⟩; ⟨none, none, none, none⟩
  skips := ⟨⟨startCost, 0, 4⟩, ⟨startCost, 0, 5⟩, ⟨startCost, 0, 6⟩, ⟨startCost, 0, 7⟩⟩

/-- The rates of the states at each scan position. -/
structure RateEstimator where
  prevCtx : Nat → Nat → StateCtx
  skipCtx : Nat → Nat → StateCtx
  startCtx : StateCtx
  lastOffset : Nat → Int32

/-- What `DepQuant::quant` gets. Without scaling lists the quantiser is set up
once, with them for the entry of the list at each position. -/
structure DepQuantInput where
  tu : TransformUnit
  tCoeff : Nat → Int
  enableScalingLists : Bool
  quantCoeff : Nat → Int
  quantizer : Option Int → Quantizer
  rates : RateEstimator

/-- The trellis while it is populated: the costs of the states, and the decisions
of the positions done, the latest first. -/
structure Trellis where
  currStates : Four Int
  prevStates : Four Int
  skipStates : Four Int
  rows : List Decisions
deriving DecidableEq, Repr

namespace DepQuantInput

variable (block : DepQuantInput)

/-- The factor for the coefficient at a scan position. -/
def quanCoeffAt (scanIdx : Nat) : Int :=
  if block.enableScalingLists then block.quantCoeff (block.tu.rasterPos scanIdx)
  else (block.quantizer none).QScale

/-- The quantiser for a scan position. -/
def quantizerAt (scanIdx : Nat) : Quantizer :=
  if block.enableScalingLists then
    block.quantizer (some (block.quantCoeff (block.tu.rasterPos scanIdx)))
  else block.quantizer none

def absCoeffAt (scanIdx : Nat) : Int := (block.tCoeff (block.tu.rasterPos scanIdx)).natAbs

/-- The first of the four candidate indices at a scan position. -/
def qIdxAt (scanIdx : Nat) : Int :=
  (block.quantizerAt scanIdx).qIdx (block.absCoeffAt scanIdx) (block.quanCoeffAt scanIdx)

def pqDataAt (scanIdx k : Nat) : PQData :=
  (block.quantizerAt scanIdx).preQuantCoeff (block.absCoeffAt scanIdx) (block.quanCoeffAt scanIdx) k

/-- Whether the search for the first test position ends at a scan position. -/
def exceedsThres (scanIdx : Nat) : Bool :=
  ¬ block.tu.skipsTest scanIdx ∧
    block.absCoeffAt scanIdx > (block.quantizer none).thresLast.tdiv (4 * block.quanCoeffAt scanIdx)

/-- The search for the first test position, downwards. -/
def findTestPos : Nat → Option Nat
  | 0 => if block.exceedsThres 0 then some 0 else none
  | scanIdx + 1 => if block.exceedsThres (scanIdx + 1) then some (scanIdx + 1) else
      findTestPos scanIdx

def firstTestPos : Option Nat := block.findTestPos block.tu.lastTestPos

def xDecide (scanIdx : Nat) (prevStates skipStates : Four Int) : Decisions :=
  let spt := block.tu.spt scanIdx
  let skip (k : Nat) : State := ⟨k, skipStates.get k, block.rates.skipCtx scanIdx k⟩
  if block.tu.zeroOutAt scanIdx then
    if spt = .SCAN_EOCSBB then
      ⟨⟨(skip 0).checkRdCostSkipSbbZeroOut, (skip 1).checkRdCostSkipSbbZeroOut,
        (skip 2).checkRdCostSkipSbbZeroOut, (skip 3).checkRdCostSkipSbbZeroOut⟩, startDec.skips⟩
    else startDec
  else
    let pqData := block.pqDataAt scanIdx
    let prev (k : Nat) : State := ⟨k, prevStates.get k, block.rates.prevCtx scanIdx k⟩
    let start : State := ⟨0, initCost, block.rates.startCtx⟩
    let lastOffset := block.rates.lastOffset scanIdx
    let none : Decision := startDec.states.s0
    let from0 := (prev 0).checkRdCosts spt (pqData 0) (pqData 2) none none
    let from1 := (prev 1).checkRdCosts spt (pqData 0) (pqData 2) from0.2 from0.1
    let from2 := (prev 2).checkRdCosts spt (pqData 3) (pqData 1) none none
    let from3 := (prev 3).checkRdCosts spt (pqData 3) (pqData 1) from2.2 from2.1
    let skipped (k : Nat) (decision : Decision) : Decision :=
      if spt = .SCAN_EOCSBB then (skip k).checkRdCostSkipSbb decision else decision
    ⟨⟨start.checkRdCostStart lastOffset (pqData 0) (skipped 0 from1.2), skipped 1 from3.2,
      start.checkRdCostStart lastOffset (pqData 2) (skipped 2 from1.1), skipped 3 from3.1⟩,
      startDec.skips⟩

/-- `xDecideAndUpdate`. `updateState` and `updateStateEOS` copy the costs of the
decisions; a position that is zeroed out leaves the states as they are. -/
def xDecideAndUpdate (scanIdx : Nat) (t : Trellis) : Trellis :=
  let prevStates := t.currStates
  let decisions := block.xDecide scanIdx prevStates t.skipStates
  if scanIdx = 0 then ⟨t.prevStates, prevStates, t.skipStates, decisions :: t.rows⟩
  else
    let costs := decisions.states.map Decision.rdCost
    let currStates :=
      if block.tu.eosbb scanIdx ∨ ¬ block.tu.zeroOutAt scanIdx then costs else t.prevStates
    let decisions :=
      if block.tu.eosbb scanIdx then ⟨decisions.states, decisions.states⟩ else decisions
    if block.tu.spt scanIdx = .SCAN_SOCSBB then
      ⟨currStates, t.skipStates, prevStates, decisions :: t.rows⟩
    else ⟨currStates, prevStates, t.skipStates, decisions :: t.rows⟩

/-- The loop that populates the trellis, from `scanIdx` down to 0. -/
def populate : Nat → Trellis → Trellis
  | 0, t => block.xDecideAndUpdate 0 t
  | scanIdx + 1, t => populate scanIdx (block.xDecideAndUpdate (scanIdx + 1) t)

/-- The states after `init`. -/
def initTrellis : Trellis :=
  let init : Four Int := ⟨initCost, initCost, initCost, initCost⟩
  ⟨init, init, init, []⟩

end DepQuantInput

/-- The cheapest state at the DC position, if its path costs less than a block
without levels. -/
def bestState (decisions : Four Decision) : Int :=
  let pick (best : Int × Int) (stateId : Nat) : Int × Int :=
    if (decisions.get stateId).rdCost < best.2 then (stateId, (decisions.get stateId).rdCost)
    else best
  ([0, 1, 2, 3].foldl pick (-2, 0)).1

/-- The backward scan: the decisions from the DC position on. There is none if the
scan reads a row that was not populated. -/
def backwardScan : List Decisions → Int → Option (List Decision)
  | rows, prevId =>
      if prevId < 0 then some []
      else match rows with
        | [] => none
        | row :: rest =>
            let decision := row.get prevId.toNat
            (backwardScan rest decision.prevId).map (decision :: ·)

/-- What `quant` leaves: the levels by raster position, their sum, and the
decisions of the selected path by scan position. -/
structure QuantResult where
  qCoeff : Nat → Int
  absSum : Int
  path : List Decision

namespace DepQuantInput

variable (block : DepQuantInput)

/-- The level with the sign of its coefficient. -/
@[grind =] def signedLevel (blkpos : Nat) (absLevel : Int) : Int :=
  if block.tCoeff blkpos < 0 then -absLevel else absLevel

/-- The writes of the backward scan, from `scanIdx` on. -/
@[grind =] def writeLevels : Nat → List Decision → (Nat → Int) → Nat → Int
  | _, [], qCoeff => qCoeff
  | scanIdx, decision :: path, qCoeff =>
      let blkpos := block.tu.rasterPos scanIdx
      writeLevels (scanIdx + 1) path
        (Function.update qCoeff blkpos (block.signedLevel blkpos decision.absLevel))

def quant : Option QuantResult :=
  match block.firstTestPos with
  | none => some ⟨fun _ => 0, 0, []⟩
  | some firstTestPos =>
      let trellis := block.populate firstTestPos initTrellis
      let best := match trellis.rows with
        | [] => -2
        | row :: _ => bestState row.states
      (backwardScan trellis.rows best).map fun path =>
        ⟨block.writeLevels 0 path (fun _ => 0), (path.map Decision.absLevel).sum, path⟩

end DepQuantInput

/-- The transition of the quantiser, packed into one number. -/
def nextState (state : Nat) (level : Int) : Nat :=
  (32040 >>> ((state <<< 2) + ((level % 2).toNat <<< 1))) &&& 3

/-- The parameters of `dequantBlock`. -/
structure DequantParams where
  shift : Int
  invQScale : Int
  maxLog2TrDynamicRange : Nat
  enableScalingLists : Bool
  piDequantCoef : Nat → Int

/-- What `dequantBlock` computes at a scan position. -/
structure DequantStep where
  scanIdx : Nat
  state : Nat
  level : Int
  qIdx : Int
  tCoeff : Int
deriving DecidableEq, Repr

/-- The index that `dequantBlock` forms from a level. -/
def dequantIdx (state : Nat) (level : Int) : Int :=
  level * 2 + if level > 0 then -((state >>> 1 : Nat) : Int) else ((state >>> 1 : Nat) : Int)

namespace TransformUnit

variable (tu : TransformUnit)

/-- The search for the last level, downwards. -/
def lastScanIdx (qCoeff : Nat → Int) : Nat → Option Nat
  | 0 => none
  | scanIdx + 1 => if qCoeff (tu.rasterPos scanIdx) ≠ 0 then some scanIdx else
      lastScanIdx qCoeff scanIdx

/-- `invQScale` at a scan position. -/
def scaleAt (p : DequantParams) (last scanIdx : Nat) (invQScale : Int) : Int :=
  let scale := if p.enableScalingLists then p.piDequantCoef (tu.rasterPos scanIdx) else invQScale
  if p.shift < 0 ∧ (p.enableScalingLists ∨ scanIdx = last) then
    int32 (scale * 2 ^ (-p.shift).toNat)
  else scale

/-- The reconstruction of an index. -/
def dequantCoeff (p : DequantParams) (invQScale qIdx : Int) : Int :=
  let add : Int := if p.shift < 0 then 0 else (1 <<< p.shift.toNat) >>> 1
  let nomTCoeff := (qIdx * invQScale + add) >>> (if p.shift < 0 then 0 else p.shift.toNat)
  max (-(2 ^ p.maxLog2TrDynamicRange)) (min (2 ^ p.maxLog2TrDynamicRange - 1) nomTCoeff)

/-- The loop of `dequantBlock`, from `scanIdx` down to 0. -/
def dequantLoop (p : DequantParams) (qCoeff : Nat → Int) (last : Nat) :
    Nat → Nat → Int → List DequantStep
  | scanIdx, state, invQScale =>
      let level := qCoeff (tu.rasterPos scanIdx)
      let scale := if level ≠ 0 then tu.scaleAt p last scanIdx invQScale else invQScale
      let qIdx := dequantIdx state level
      let step : DequantStep :=
        ⟨scanIdx, state, level, qIdx, if level ≠ 0 then dequantCoeff p scale qIdx else 0⟩
      match scanIdx with
      | 0 => [step]
      | next + 1 => step :: dequantLoop p qCoeff last next (nextState state level) scale

def dequantBlock (p : DequantParams) (qCoeff : Nat → Int) : List DequantStep :=
  match tu.lastScanIdx qCoeff tu.area with
  | none => []
  | some last => tu.dequantLoop p qCoeff last last 0 p.invQScale

end TransformUnit

end Vtm.DQIntern
