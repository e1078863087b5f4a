import Vtm.Quant.ScanPositions
import Mathlib.Algebra.Order.BigOperators.Group.Finset

/-!
# Paths through the trellis

A decision is as cheap as the decision it comes from, up to the distortion and
the rate of one coefficient. While these add up to less than the cost of a
decision that is not taken, a path that costs less than nothing cannot go through
such a decision: it leads back to a start, through states that the quantiser goes
through as well.
-/

namespace Vtm.DQIntern

theorem int64_eq {z : Int} (lower : -2 ^ 63 ≤ z) (upper : z < 2 ^ 63) : int64 z = z := by
  unfold int64
  refine Int.bmod_eq_of_le ?_ ?_
  · simpa using lower
  · simpa using upper

section States

theorem nextState_congr {level : Int} (state : Nat) (level' : Int) (same : level % 2 = level' % 2) :
    nextState state level = nextState state level' := by
  rw [nextState, nextState, same]

theorem nextState_lt (state : Nat) (level : Int) : nextState state level < 4 := by
  unfold nextState
  exact Nat.lt_of_le_of_lt Nat.and_le_right (by decide)

/-- The state after a run of zeros. -/
def zeroRun : Nat → Nat → Nat
  | 0, state => state
  | count + 1, state => nextState (zeroRun count state) 0

theorem zeroRun_even {count state : Nat} (even : count % 2 = 0) (small : state < 4) :
    zeroRun count state = state := by
  obtain ⟨half, rfl⟩ : ∃ half, count = 2 * half := ⟨count / 2, by omega⟩
  have twice : ∀ s < 4, nextState (nextState s 0) 0 = s := by decide
  induction half with
  | zero => rfl
  | succ half ih =>
      rw [Nat.mul_succ, zeroRun, zeroRun, ih (by omega)]
      exact twice state small

/-- The state in which the quantiser arrives behind a path, from the start of the
path. -/
def stateAfter : List Decision → Nat
  | [] => 0
  | decision :: path => nextState (stateAfter path) decision.absLevel

end States

namespace TransformUnit

variable (tu : TransformUnit)

/-- The state that an entry of a row stands for: an entry for a state before the
sub-block stands for the run of zeros from there. -/
def nodeState (scanIdx : Nat) (id : Int) : Nat :=
  if id < 0 then 0
  else if id < 4 then id.toNat
  else zeroRun (tu.sbbSize - tu.insidePos scanIdx) (id.toNat - 4)

variable {tu}

theorem nodeState_state {scanIdx s : Nat} (small : s < 4) : tu.nodeState scanIdx s = s := by
  rw [nodeState, if_neg (by omega), if_pos (by omega), Int.toNat_natCast]

theorem nodeState_skip (scanIdx j : Nat) :
    tu.nodeState scanIdx (4 + j : Nat) = zeroRun (tu.sbbSize - tu.insidePos scanIdx) j := by
  rw [nodeState, if_neg (by omega), if_neg (by omega), Int.toNat_natCast, Nat.add_sub_cancel_left]

theorem nodeState_eosbb {scanIdx j : Nat} (last : tu.insidePos scanIdx = 0) (small : j < 4) :
    tu.nodeState scanIdx (4 + j : Nat) = j := by
  rw [nodeState_skip, last, Nat.sub_zero, zeroRun_even tu.sbbSize_even small]

theorem insidePos_lt (scanIdx : Nat) : tu.insidePos scanIdx < tu.sbbSize :=
  Nat.mod_lt _ tu.sbbSize_pos

theorem insidePos_succ (scanIdx : Nat) :
    tu.insidePos (scanIdx + 1) =
      if tu.insidePos scanIdx = tu.sbbSize - 1 then 0 else tu.insidePos scanIdx + 1 := by
  have small := tu.insidePos_lt scanIdx
  have room := tu.two_le_sbbSize
  unfold insidePos at *
  rw [Nat.add_mod, Nat.mod_eq_of_lt (by omega : 1 < tu.sbbSize)]
  split
  next top =>
    have whole : scanIdx % tu.sbbSize + 1 = tu.sbbSize := by omega
    rw [whole, Nat.mod_self]
  next inner => exact Nat.mod_eq_of_lt (by omega)

/-- One more zero of a run that began before the sub-block. -/
theorem nodeState_zero (scanIdx : Nat) {j : Nat} (small : j < 4) :
    tu.nodeState scanIdx (4 + j : Nat) = nextState (tu.nodeState (scanIdx + 1) (4 + j : Nat)) 0 := by
  have inside := tu.insidePos_lt scanIdx
  have succ := tu.insidePos_succ scanIdx
  rw [nodeState_skip]
  by_cases top : tu.insidePos scanIdx = tu.sbbSize - 1
  · rw [if_pos top] at succ
    have one : tu.sbbSize - tu.insidePos scanIdx = 1 := by omega
    rw [one, nodeState_eosbb succ small]
    rfl
  · rw [if_neg top] at succ
    have more : tu.sbbSize - tu.insidePos scanIdx =
        tu.sbbSize - tu.insidePos (scanIdx + 1) + 1 := by omega
    rw [nodeState_skip, more, zeroRun]

end TransformUnit

namespace DepQuantInput

variable (block : DepQuantInput)

/-- A level whose index in a state is one of the four candidates. -/
structure Admits (scanIdx state : Nat) (absLevel : Int) : Prop where
  positive : 0 < absLevel
  lower : block.qIdxAt scanIdx ≤ 2 * absLevel - (state >>> 1 : Nat)
  upper : 2 * absLevel - (state >>> 1 : Nat) ≤ block.qIdxAt scanIdx + 3

/-- A path of decisions from a scan position up to a start: every decision comes
from the state that the quantiser is in, and its level is one of the candidates
there. -/
def Valid : Nat → List Decision → Prop
  | _, [] => True
  | scanIdx, decision :: path =>
      stateAfter path = block.tu.nodeState (scanIdx + 1) decision.prevId ∧
        (decision.absLevel = 0 ∨ block.Admits scanIdx (stateAfter path) decision.absLevel) ∧
        (path = [] → decision.prevId = -1 ∧ decision.absLevel ≠ 0) ∧ Valid (scanIdx + 1) path

/-- A decision with a path behind it, on top of the rows above. -/
def Extends (scanIdx : Nat) (rows : List Decisions) (s : Nat) (decision : Decision) : Prop :=
  ∃ path, backwardScan rows decision.prevId = some path ∧ block.Valid scanIdx (decision :: path) ∧
    stateAfter (decision :: path) = s

/-- An entry of the newest row with a path behind it. -/
def Sound (scanIdx : Nat) (rows : List Decisions) (id : Nat) : Prop :=
  ∃ path, path ≠ [] ∧ backwardScan rows id = some path ∧ block.Valid scanIdx path ∧
    stateAfter path = block.tu.nodeState scanIdx id

/-- The largest change of the distortion by a candidate at a scan position. -/
def distortionAt (scanIdx : Nat) : Int :=
  ([0, 1, 2, 3].map fun k => ((block.pqDataAt scanIdx k).deltaDist.natAbs : Int)).foldr max 0

/-- The most by which the costs change at a scan position. No sum of rates exceeds
34 bits. -/
@[grind =] def slackAt (scanIdx : Nat) : Int := block.distortionAt scanIdx + 2 ^ 34

/-- A decision that costs no less than what costs and rates allow, and that has a
path behind it unless it is as expensive as one that is not taken. -/
structure Node (bound : Int) (scanIdx : Nat) (rows : List Decisions) (s : Nat)
    (decision : Decision) : Prop where
  lower : -bound ≤ decision.rdCost
  upper : decision.rdCost ≤ initCost + bound
  sound : decision.rdCost < startCost - bound → block.Extends scanIdx rows s decision

variable {block}

theorem distortionAt_spec (block : DepQuantInput) (scanIdx : Nat) {k : Nat} (small : k < 4) :
    -block.distortionAt scanIdx ≤ (block.pqDataAt scanIdx k).deltaDist ∧
      (block.pqDataAt scanIdx k).deltaDist ≤ block.distortionAt scanIdx := by
  have all : (block.pqDataAt scanIdx k).deltaDist.natAbs ≤ block.distortionAt scanIdx := by
    simp only [distortionAt, List.map_cons, List.map_nil, List.foldr_cons, List.foldr_nil,
      le_max_iff]
    interval_cases k <;> simp
  omega

theorem distortionAt_nonneg (block : DepQuantInput) (scanIdx : Nat) :
    0 ≤ block.distortionAt scanIdx := by
  have least := block.distortionAt_spec scanIdx (by decide : 0 < 4)
  omega

theorem backwardScan_cons (row : Decisions) (rows : List Decisions) (id : Nat) :
    backwardScan (row :: rows) id =
      (backwardScan rows (row.get id).prevId).map (row.get id :: ·) := by
  rw [backwardScan, if_neg (by omega)]
  rfl

theorem backwardScan_neg (rows : List Decisions) {prevId : Int} (negative : prevId < 0) :
    backwardScan rows prevId = some [] := by
  cases rows <;> simp [backwardScan, negative]

theorem Extends.sound {scanIdx s id : Nat} {rows : List Decisions} {row : Decisions}
    (extends_ : block.Extends scanIdx rows s (row.get id))
    (state : block.tu.nodeState scanIdx id = s) : block.Sound scanIdx (row :: rows) id := by
  obtain ⟨path, scan, valid, after⟩ := extends_
  refine ⟨row.get id :: path, List.cons_ne_nil _ _, ?_, valid, by rw [after, state]⟩
  rw [backwardScan_cons, scan]
  rfl

/-- A decision that comes from an entry with a path behind it. -/
theorem Sound.extends_ {scanIdx id : Nat} {rows : List Decisions}
    (sound : block.Sound (scanIdx + 1) rows id) (rdCost : Int) {absLevel : Int}
    (level : absLevel = 0 ∨
      block.Admits scanIdx (block.tu.nodeState (scanIdx + 1) id) absLevel) :
    block.Extends scanIdx rows (nextState (block.tu.nodeState (scanIdx + 1) id) absLevel)
      ⟨rdCost, absLevel, id⟩ := by
  obtain ⟨path, some, scan, valid, after⟩ := sound
  refine ⟨path, scan, ⟨after, ?_, fun none => absurd none some, valid⟩, ?_⟩
  · rwa [after]
  · rw [stateAfter, after]

theorem Node.offer {bound : Int} {scanIdx s : Nat} {rows : List Decisions} {decision : Decision}
    {rdCost absLevel prevId : Int} (old : block.Node bound scanIdx rows s decision)
    (new : block.Node bound scanIdx rows s ⟨rdCost, absLevel, prevId⟩) :
    block.Node bound scanIdx rows s (decision.offer rdCost absLevel prevId) := by
  unfold Decision.offer
  split
  · exact new
  · exact old

theorem node_none {bound : Int} (block : DepQuantInput) (scanIdx s : Nat) (rows : List Decisions) (least : 0 ≤ bound) :
    block.Node bound scanIdx rows s ⟨startCost, -1, -2⟩ where
  lower := by
    simp only [startCost]
    omega
  upper := by
    simp only [startCost, initCost]
    omega
  sound low := by
    simp only at low
    omega

section Candidates

/-- The four indices that `preQuantCoeff` considers, in order of their remainders. -/
theorem preQuantCoeff_spec (m : Quantizer) (absCoeff quanCoeff : Int) {k : Nat} (small : k < 4) :
    ∃ q : Int, q % 4 = k ∧ m.qIdx absCoeff quanCoeff ≤ q ∧ q ≤ m.qIdx absCoeff quanCoeff + 3 ∧
      m.preQuantCoeff absCoeff quanCoeff k = m.candidate absCoeff quanCoeff q := by
  unfold Quantizer.preQuantCoeff
  simp only
  generalize m.qIdx absCoeff quanCoeff = first
  by_cases zero : first % 4 = k
  · exact ⟨first, zero, by omega, by omega, by rw [if_pos zero]⟩
  by_cases one : (first + 1) % 4 = k
  · exact ⟨first + 1, one, by omega, by omega, by rw [if_neg zero, if_pos one]⟩
  by_cases two : (first + 2) % 4 = k
  · exact ⟨first + 2, two, by omega, by omega, by rw [if_neg zero, if_neg one, if_pos two]⟩
  · exact ⟨first + 3, by omega, by omega, by omega, by rw [if_neg zero, if_neg one, if_neg two]⟩

theorem qIdx_pos (m : Quantizer) (absCoeff quanCoeff : Int) : 1 ≤ m.qIdx absCoeff quanCoeff :=
  le_max_left _ _

/-- The level of a candidate in a state whose quantiser has its parity, and the
parity of the level. -/
theorem pqDataAt_spec (block : DepQuantInput) (scanIdx : Nat) {k state : Nat} (small : k < 4)
    (parity : state >>> 1 = k % 2) :
    block.Admits scanIdx state (block.pqDataAt scanIdx k).absLevel ∧
      (block.pqDataAt scanIdx k).absLevel % 2 = (if k = 0 ∨ k = 3 then 0 else 1) := by
  obtain ⟨q, remainder, least, most, data⟩ := preQuantCoeff_spec (block.quantizerAt scanIdx)
    (block.absCoeffAt scanIdx) (block.quanCoeffAt scanIdx) small
  have positive := qIdx_pos (block.quantizerAt scanIdx) (block.absCoeffAt scanIdx)
    (block.quanCoeffAt scanIdx)
  have level : (block.pqDataAt scanIdx k).absLevel = (q + 1) / 2 := by
    rw [pqDataAt, data]
    rfl
  rw [← qIdxAt] at least most positive
  rw [level]
  refine ⟨⟨by omega, ?_, ?_⟩, ?_⟩
  · rw [parity]
    omega
  · rw [parity]
    omega
  · split <;> omega

end Candidates

section Rates

theorem toInt32_bounds (bits : Int32) : -2 ^ 31 ≤ bits.toInt ∧ bits.toInt < 2 ^ 31 :=
  ⟨Int32.le_toInt bits, Int32.toInt_lt bits⟩

theorem rate_bounds (ctx : StateCtx) (spt : ScanPosType) (absLevel : Int) :
    -2 ^ 33 ≤ ctx.rate spt absLevel ∧ ctx.rate spt absLevel ≤ 2 ^ 33 := by
  have level := toInt32_bounds (ctx.levelBits absLevel)
  have escape := toInt32_bounds (ctx.escapeBits absLevel)
  have sig := ctx.sigFracBits.intBits1.toNat_lt
  have both := (ctx.sbbFracBits.intBits1 + ctx.sigFracBits.intBits1).toNat_lt
  unfold StateCtx.rate
  split
  · cases spt with
    | SCAN_ISCSBB => simp only; omega
    | SCAN_SOCSBB => simp only; omega
    | SCAN_EOCSBB =>
        simp only
        split <;> omega
  · omega

theorem rateZero_bounds {ctx : StateCtx} {spt : ScanPosType} {bits : Int}
    (zero : ctx.rateZero spt = some bits) : -2 ^ 33 ≤ bits ∧ bits ≤ 2 ^ 33 := by
  have rice := toInt32_bounds (gGoRiceBits ctx.goRicePar ctx.goRiceZero.toNat)
  have sig := ctx.sigFracBits.intBits0.toNat_lt
  have both := (ctx.sbbFracBits.intBits1 + ctx.sigFracBits.intBits0).toNat_lt
  unfold StateCtx.rateZero at zero
  split at zero
  · cases spt with
    | SCAN_ISCSBB => cases zero; omega
    | SCAN_SOCSBB => cases zero; omega
    | SCAN_EOCSBB =>
        simp only at zero
        split at zero
        · cases zero; omega
        · cases zero
  · cases zero; omega

end Rates

section Decide

variable {bound cost : Int} {scanIdx : Nat} {rows : List Decisions}

/-- A level in a state with a path behind it. -/
theorem node_level {j k : Nat} (ctx : StateCtx) (spt : ScanPosType)
    (room : bound + block.slackAt scanIdx < startCost)
    (within : -bound ≤ cost ∧ cost ≤ initCost + bound)
    (sound : cost < startCost - bound → block.Sound (scanIdx + 1) rows j)
    (smallJ : j < 4) (smallK : k < 4) (parity : j >>> 1 = k % 2) :
    block.Node (bound + block.slackAt scanIdx) scanIdx rows
      (nextState j (block.pqDataAt scanIdx k).absLevel)
      ⟨int64 (cost + (block.pqDataAt scanIdx k).deltaDist +
        ctx.rate spt (block.pqDataAt scanIdx k).absLevel), (block.pqDataAt scanIdx k).absLevel, j⟩ := by
  have distortion := block.distortionAt_spec scanIdx smallK
  have rate := rate_bounds ctx spt (block.pqDataAt scanIdx k).absLevel
  have exact_ : int64 (cost + (block.pqDataAt scanIdx k).deltaDist +
      ctx.rate spt (block.pqDataAt scanIdx k).absLevel) =
        cost + (block.pqDataAt scanIdx k).deltaDist +
          ctx.rate spt (block.pqDataAt scanIdx k).absLevel := by
    unfold slackAt startCost at room
    unfold initCost at within
    exact int64_eq (by omega) (by omega)
  rw [exact_]
  unfold slackAt at room ⊢
  refine ⟨?_, ?_, fun low => ?_⟩
  · simp only
    omega
  · simp only
    omega
  · simp only at low
    have level := (block.pqDataAt_spec scanIdx smallK parity).1
    have extends_ := (sound (by omega)).extends_ (cost +
      (block.pqDataAt scanIdx k).deltaDist + ctx.rate spt (block.pqDataAt scanIdx k).absLevel)
      (Or.inr (by rwa [TransformUnit.nodeState_state smallJ]))
    rwa [TransformUnit.nodeState_state smallJ] at extends_

/-- A zero in a state with a path behind it. -/
theorem node_zero {j : Nat} {bits : Int}
    (room : bound + block.slackAt scanIdx < startCost)
    (within : -bound ≤ cost ∧ cost ≤ initCost + bound) (rate : -2 ^ 33 ≤ bits ∧ bits ≤ 2 ^ 33)
    (sound : cost < startCost - bound → block.Sound (scanIdx + 1) rows j) :
    block.Node (bound + block.slackAt scanIdx) scanIdx rows
      (nextState (block.tu.nodeState (scanIdx + 1) j) 0) ⟨int64 (cost + bits), 0, j⟩ := by
  have distortion := block.distortionAt_nonneg scanIdx
  have exact_ : int64 (cost + bits) = cost + bits := by
    unfold slackAt startCost at room
    unfold initCost at within
    exact int64_eq (by omega) (by omega)
  rw [exact_]
  unfold slackAt at room ⊢
  refine ⟨?_, ?_, fun low => ?_⟩
  · simp only
    omega
  · simp only
    omega
  · simp only at low
    exact (sound (by omega)).extends_ _ (Or.inl rfl)

/-- A level that starts a path. -/
theorem node_start {k : Nat} (s : State) (lastOffset : Int32) (rows : List Decisions)
    (least : 0 ≤ bound)
    (room : bound + block.slackAt scanIdx < startCost) (smallK : k < 4) (even : k % 2 = 0) :
    block.Node (bound + block.slackAt scanIdx) scanIdx rows
      (nextState 0 (block.pqDataAt scanIdx k).absLevel)
      ⟨int64 ((block.pqDataAt scanIdx k).deltaDist + lastOffset.toInt +
        (s.ctx.levelBits (block.pqDataAt scanIdx k).absLevel).toInt),
        (block.pqDataAt scanIdx k).absLevel, -1⟩ := by
  have distortion := block.distortionAt_spec scanIdx smallK
  have offset := toInt32_bounds lastOffset
  have bits := toInt32_bounds (s.ctx.levelBits (block.pqDataAt scanIdx k).absLevel)
  have exact_ : int64 ((block.pqDataAt scanIdx k).deltaDist + lastOffset.toInt +
      (s.ctx.levelBits (block.pqDataAt scanIdx k).absLevel).toInt) =
        (block.pqDataAt scanIdx k).deltaDist + lastOffset.toInt +
          (s.ctx.levelBits (block.pqDataAt scanIdx k).absLevel).toInt := by
    unfold slackAt startCost at room
    exact int64_eq (by omega) (by omega)
  have level := (block.pqDataAt_spec scanIdx smallK
    (by rw [even]; rfl : 0 >>> 1 = k % 2)).1
  have scan : backwardScan rows (-1) = some [] := backwardScan_neg rows (by decide)
  rw [exact_]
  unfold slackAt startCost at room
  unfold slackAt
  refine ⟨?_, ?_, fun _ => ⟨[], scan, ⟨rfl, Or.inr level, fun _ => ⟨rfl, ?_⟩, trivial⟩, rfl⟩⟩
  · simp only
    omega
  · simp only [initCost]
    omega
  · exact level.positive.ne'

theorem offer_le (decision : Decision) (rdCost absLevel prevId : Int) :
    (decision.offer rdCost absLevel prevId).rdCost ≤ decision.rdCost := by
  unfold Decision.offer
  split
  next less => exact less.le
  next => exact le_refl _

theorem offer_eq {decision : Decision} {rdCost : Int} (absLevel prevId : Int)
    (above : decision.rdCost ≤ rdCost) : decision.offer rdCost absLevel prevId = decision := by
  rw [Decision.offer, if_neg (by omega)]

/-- The candidates that fit a state, by the remainders of their indices, and the
states they lead to: an even level leads where a zero does. -/
def Arcs (j kA kB sA sB : Nat) : Prop :=
  j < 4 ∧ (kA = 0 ∨ kA = 3) ∧ (kB = 1 ∨ kB = 2) ∧ j >>> 1 = kA % 2 ∧ j >>> 1 = kB % 2 ∧
    nextState j 0 = sA ∧ nextState j 1 = sB

instance (j kA kB sA sB : Nat) : Decidable (Arcs j kA kB sA sB) :=
  inferInstanceAs (Decidable (_ ∧ _))

theorem checkRdCosts_node {j kA kB sA sB : Nat} (arcs : Arcs j kA kB sA sB) (ctx : StateCtx)
    (spt : ScanPosType) {decisionA decisionB : Decision}
    (room : bound + block.slackAt scanIdx < startCost)
    (within : -bound ≤ cost ∧ cost ≤ initCost + bound)
    (sound : cost < startCost - bound → block.Sound (scanIdx + 1) rows j)
    (nodeA : block.Node (bound + block.slackAt scanIdx) scanIdx rows sA decisionA)
    (nodeB : block.Node (bound + block.slackAt scanIdx) scanIdx rows sB decisionB) :
    let found := (State.mk j cost ctx).checkRdCosts spt (block.pqDataAt scanIdx kA)
      (block.pqDataAt scanIdx kB) decisionA decisionB
    block.Node (bound + block.slackAt scanIdx) scanIdx rows sA found.1 ∧
      block.Node (bound + block.slackAt scanIdx) scanIdx rows sB found.2 := by
  obtain ⟨small, even, odd, parityA, parityB, nextA, nextB⟩ := arcs
  have smallA : kA < 4 := by omega
  have smallB : kB < 4 := by omega
  have levelA := (block.pqDataAt_spec scanIdx smallA parityA).2
  have levelB := (block.pqDataAt_spec scanIdx smallB parityB).2
  rw [if_pos even] at levelA
  rw [if_neg (by omega)] at levelB
  have newA := node_level ctx spt room within sound small smallA parityA
  have newB := node_level ctx spt room within sound small smallB parityB
  rw [nextState_congr j 0 levelA, nextA] at newA
  rw [nextState_congr j 1 levelB, nextB] at newB
  refine ⟨?_, nodeB.offer newB⟩
  simp only [State.checkRdCosts, State.rdCostZ]
  cases zero : ctx.rateZero spt with
  | none =>
      simp only
      rw [offer_eq _ _ (offer_le _ _ _ _)]
      exact nodeA.offer newA
  | some bits =>
      have newZ := node_zero room within (rateZero_bounds zero) sound
      rw [TransformUnit.nodeState_state small, nextA] at newZ
      exact (nodeA.offer newA).offer newZ

/-- The costs of four states lie between what the slack so far allows. -/
def Within (bound : Int) (costs : Four Int) : Prop :=
  ∀ k < 4, -bound ≤ costs.get k ∧ costs.get k ≤ initCost + bound

theorem skip_node {k : Nat} (ctx : StateCtx) {skipStates : Four Int}
    (room : bound + block.slackAt scanIdx < startCost) (within : Within bound skipStates)
    (sound : skipStates.get k < startCost - bound → block.Sound (scanIdx + 1) rows (4 + k))
    (small : k < 4) (last : block.tu.insidePos scanIdx = 0) :
    block.Node (bound + block.slackAt scanIdx) scanIdx rows k
      ⟨(State.mk k (skipStates.get k) ctx).rdCostSkipSbb, 0, 4 + k⟩ := by
  have bits := ctx.sbbFracBits.intBits0.toNat_lt
  have rate : -2 ^ 33 ≤ (ctx.sbbFracBits.intBits0.toNat : Int) ∧
      (ctx.sbbFracBits.intBits0.toNat : Int) ≤ 2 ^ 33 := by omega
  have node := node_zero room (within k small) rate sound
  rwa [← TransformUnit.nodeState_zero scanIdx small, TransformUnit.nodeState_eosbb last small,
    Nat.cast_add] at node

theorem eosbb_of_spt {scanIdx : Nat} (last : block.tu.spt scanIdx = .SCAN_EOCSBB) :
    block.tu.insidePos scanIdx = 0 ∧ 0 < scanIdx := by
  unfold TransformUnit.spt TransformUnit.eosbb at last
  split at last
  · cases last
  · split at last
    next inner => exact ⟨of_decide_eq_true inner.1, inner.2.1⟩
    next => cases last

/-- Every decision of `xDecide` for a state is a node. -/
theorem xDecide_node {prevStates skipStates : Four Int} (least : 0 ≤ bound)
    (room : bound + block.slackAt scanIdx < startCost)
    (withinPrev : Within bound prevStates) (withinSkip : Within bound skipStates)
    (fromStates : block.tu.zeroOutAt scanIdx = false → ∀ k < 4,
      prevStates.get k < startCost - bound → block.Sound (scanIdx + 1) rows k)
    (fromSkips : block.tu.spt scanIdx = .SCAN_EOCSBB → ∀ k < 4,
      skipStates.get k < startCost - bound → block.Sound (scanIdx + 1) rows (4 + k))
    {k : Nat} (small : k < 4) :
    block.Node (bound + block.slackAt scanIdx) scanIdx rows k
      ((block.xDecide scanIdx prevStates skipStates).states.get k) := by
  have distortion := block.distortionAt_nonneg scanIdx
  have positive : 0 ≤ bound + block.slackAt scanIdx := by
    unfold slackAt
    omega
  have none (s : Nat) := node_none block scanIdx s rows positive
  have skipped (last : block.tu.spt scanIdx = .SCAN_EOCSBB) {j : Nat} (smallJ : j < 4)
      (ctx : StateCtx) := skip_node ctx room withinSkip (fromSkips last j smallJ) smallJ
        (eosbb_of_spt last).1
  unfold xDecide
  simp only
  cases zero : block.tu.zeroOutAt scanIdx with
  | true =>
      simp only [if_true]
      by_cases last : block.tu.spt scanIdx = .SCAN_EOCSBB
      · rw [if_pos last]
        interval_cases k <;> exact skipped last (by decide) _
      · rw [if_neg last]
        interval_cases k <;> exact none _
  | false =>
      simp only [Bool.false_eq_true, if_false]
      have step {j kA kB sA sB : Nat} {decisionA decisionB : Decision}
          (arcs : Arcs j kA kB sA sB)
          (nodeA : block.Node (bound + block.slackAt scanIdx) scanIdx rows sA decisionA)
          (nodeB : block.Node (bound + block.slackAt scanIdx) scanIdx rows sB decisionB) :=
        checkRdCosts_node arcs (block.rates.prevCtx scanIdx j) (block.tu.spt scanIdx) room
          (withinPrev j arcs.1) (fromStates zero j arcs.1) nodeA nodeB
      have offered {s : Nat} {decision : Decision} (smallS : s < 4)
          (node : block.Node (bound + block.slackAt scanIdx) scanIdx rows s decision) :
          block.Node (bound + block.slackAt scanIdx) scanIdx rows s
            (if block.tu.spt scanIdx = .SCAN_EOCSBB then
              (State.mk s (skipStates.get s) (block.rates.skipCtx scanIdx s)).checkRdCostSkipSbb
                decision else decision) := by
        split
        next last => exact node.offer (skipped last smallS _)
        next => exact node
      obtain ⟨zero0, two0⟩ := step (by decide : Arcs 0 0 2 0 2) (none 0) (none 2)
      obtain ⟨two1, zero1⟩ := step (by decide : Arcs 1 0 2 2 0) two0 zero0
      obtain ⟨one2, three2⟩ := step (by decide : Arcs 2 3 1 1 3) (none 1) (none 3)
      obtain ⟨three3, one3⟩ := step (by decide : Arcs 3 3 1 3 1) three2 one2
      have even := node_start ⟨0, initCost, block.rates.startCtx⟩ (block.rates.lastOffset scanIdx)
        rows least room (by decide : 0 < 4) rfl
      have odd := node_start ⟨0, initCost, block.rates.startCtx⟩ (block.rates.lastOffset scanIdx)
        rows least room (by decide : 2 < 4) rfl
      have evenLevel := (block.pqDataAt_spec scanIdx (by decide : 0 < 4)
        (by decide : 0 >>> 1 = 0 % 2)).2
      have oddLevel := (block.pqDataAt_spec scanIdx (by decide : 2 < 4)
        (by decide : 0 >>> 1 = 2 % 2)).2
      rw [nextState_congr 0 0 evenLevel] at even
      rw [nextState_congr 0 1 oddLevel] at odd
      interval_cases k
      · exact (offered (by decide) zero1).offer even
      · exact offered (by decide) one3
      · exact (offered (by decide) two1).offer odd
      · exact offered (by decide) three3

end Decide

section Populate

variable (block)

/-- What holds of the trellis before a scan position is decided: a cheap state has a
path behind it, and so has a cheap state before the sub-block. -/
structure Ready (bound : Int) (scanIdx : Nat) (t : Trellis) : Prop where
  least : 0 ≤ bound
  curr : Within bound t.currStates
  prev : Within bound t.prevStates
  skip : Within bound t.skipStates
  fromStates : block.tu.zeroOutAt scanIdx = false → ∀ k < 4,
    t.currStates.get k < startCost - bound → block.Sound (scanIdx + 1) t.rows k
  fromSkips : block.tu.insidePos scanIdx ≠ block.tu.sbbSize - 1 → block.tu.sbbSize ≤ scanIdx →
    ∀ k < 4, t.skipStates.get k < startCost - bound → block.Sound (scanIdx + 1) t.rows (4 + k)
  fromEos : block.tu.insidePos scanIdx = block.tu.sbbSize - 1 → block.tu.sbbSize ≤ scanIdx →
    ∀ k < 4, t.currStates.get k < startCost - bound → block.Sound (scanIdx + 1) t.rows (4 + k)
  last : scanIdx = block.tu.numCoeff - 1 → ∀ k < 4, t.skipStates.get k = initCost

variable {block} {bound : Int} {scanIdx : Nat} {t : Trellis}

theorem get_init {k : Nat} (small : k < 4) :
    (⟨initCost, initCost, initCost, initCost⟩ : Four Int).get k = initCost := by
  interval_cases k <;> rfl

theorem get_map {α β : Type} (g : α → β) (f : Four α) {k : Nat} (small : k < 4) :
    (f.map g).get k = g (f.get k) := by
  interval_cases k <;> rfl

theorem ready_init (block : DepQuantInput) (scanIdx : Nat) :
    block.Ready 0 scanIdx initTrellis where
  least := le_refl 0
  curr k small := by
    rw [initTrellis, get_init small]
    decide
  prev k small := by
    rw [initTrellis, get_init small]
    decide
  skip k small := by
    rw [initTrellis, get_init small]
    decide
  fromStates _ k small low := by
    rw [initTrellis, get_init small] at low
    exact absurd low (by decide)
  fromSkips _ _ k small low := by
    rw [initTrellis, get_init small] at low
    exact absurd low (by decide)
  fromEos _ _ k small low := by
    rw [initTrellis, get_init small] at low
    exact absurd low (by decide)
  last _ k small := get_init small

theorem Within.mono {bound' : Int} {costs : Four Int} (within : Within bound costs)
    (more : bound ≤ bound') : Within bound' costs := by
  intro k small
  obtain ⟨lower, upper⟩ := within k small
  constructor <;> omega

theorem sbbSize_le_of_last {tu : TransformUnit} {scanIdx : Nat} (last : tu.insidePos scanIdx = 0)
    (positive : 0 < scanIdx) : tu.sbbSize ≤ scanIdx :=
  Nat.le_of_dvd positive (Nat.dvd_of_mod_eq_zero last)

/-- The decisions at a scan position are nodes. -/
theorem Ready.node (ready : block.Ready bound scanIdx t)
    (room : bound + block.slackAt scanIdx < startCost) {k : Nat} (small : k < 4) :
    block.Node (bound + block.slackAt scanIdx) scanIdx t.rows k
      ((block.xDecide scanIdx t.currStates t.skipStates).states.get k) := by
  refine xDecide_node ready.least room ready.curr ready.skip ready.fromStates ?_ small
  intro last
  obtain ⟨inside, positive⟩ := eosbb_of_spt last
  have wide := block.tu.two_le_sbbSize
  exact ready.fromSkips (by omega) (sbbSize_le_of_last inside positive)

theorem xDecide_skips (block : DepQuantInput) (scanIdx : Nat) (prevStates skipStates : Four Int) :
    (block.xDecide scanIdx prevStates skipStates).skips = startDec.skips := by
  unfold xDecide
  simp only
  split
  · split <;> rfl
  · rfl

theorem startDec_skips {k : Nat} (small : k < 4) :
    startDec.skips.get k = ⟨startCost, 0, ((4 + k : Nat) : Int)⟩ := by
  interval_cases k <;> rfl

theorem get_states (d : Decisions) {k : Nat} (small : k < 4) : d.get k = d.states.get k := by
  rw [Decisions.get, if_pos small]

theorem get_skips (d : Decisions) (k : Nat) : d.get (4 + k) = d.skips.get k := by
  rw [Decisions.get, if_neg (by omega), Nat.add_sub_cancel_left]

/-- A row inside a sub-block hands an entry for a state before it on. -/
theorem Sound.skip {row : Decisions} {rows : List Decisions} {k : Nat}
    (sound : block.Sound (scanIdx + 1) rows (4 + k)) (small : k < 4)
    (skips : row.skips = startDec.skips) : block.Sound scanIdx (row :: rows) (4 + k) := by
  have extends_ := sound.extends_ startCost (Or.inl (rfl : (0 : Int) = 0))
  rw [← startDec_skips small, ← skips, ← get_skips] at extends_
  exact extends_.sound (TransformUnit.nodeState_zero scanIdx small)

/-- The costs and the row that `xDecideAndUpdate` leaves behind the DC position. -/
theorem xDecideAndUpdate_succ (block : DepQuantInput) (scanIdx : Nat) (t : Trellis) :
    ∃ row : Decisions, (block.xDecideAndUpdate (scanIdx + 1) t).rows = row :: t.rows ∧
      row.states = (block.xDecide (scanIdx + 1) t.currStates t.skipStates).states ∧
      (block.xDecideAndUpdate (scanIdx + 1) t).currStates =
        (if block.tu.eosbb (scanIdx + 1) ∨ ¬ block.tu.zeroOutAt (scanIdx + 1) then
          row.states.map Decision.rdCost else t.prevStates) ∧
      row.skips = (if block.tu.eosbb (scanIdx + 1) then row.states else startDec.skips) ∧
      (block.xDecideAndUpdate (scanIdx + 1) t).prevStates =
        (if block.tu.spt (scanIdx + 1) = .SCAN_SOCSBB then t.skipStates else t.currStates) ∧
      (block.xDecideAndUpdate (scanIdx + 1) t).skipStates =
        (if block.tu.spt (scanIdx + 1) = .SCAN_SOCSBB then t.currStates else t.skipStates) := by
  unfold xDecideAndUpdate
  simp only [Nat.add_eq_zero_iff, Nat.one_ne_zero, and_false, if_false]
  have skips := block.xDecide_skips (scanIdx + 1) t.currStates t.skipStates
  refine ⟨if block.tu.eosbb (scanIdx + 1) then
    ⟨(block.xDecide (scanIdx + 1) t.currStates t.skipStates).states,
      (block.xDecide (scanIdx + 1) t.currStates t.skipStates).states⟩
    else block.xDecide (scanIdx + 1) t.currStates t.skipStates, ?_⟩
  by_cases first : block.tu.spt (scanIdx + 1) = .SCAN_SOCSBB
  · cases eos : block.tu.eosbb (scanIdx + 1) <;> simp [first, skips]
  · cases eos : block.tu.eosbb (scanIdx + 1) <;> simp [first, skips]

theorem spt_last {tu : TransformUnit} {scanIdx : Nat}
    (top : tu.insidePos scanIdx = tu.sbbSize - 1) (inside : scanIdx < tu.numCoeff)
    (behind : tu.sbbSize < scanIdx) (none : tu.spt scanIdx ≠ .SCAN_SOCSBB) :
    scanIdx = tu.numCoeff - 1 := by
  by_contra more
  exact none (by rw [TransformUnit.spt, if_pos ⟨top, behind, by omega⟩])

theorem Ready.step (ready : block.Ready bound (scanIdx + 1) t)
    (inside : scanIdx + 1 < block.tu.numCoeff)
    (room : bound + block.slackAt (scanIdx + 1) < startCost) :
    block.Ready (bound + block.slackAt (scanIdx + 1)) scanIdx
      (block.xDecideAndUpdate (scanIdx + 1) t) := by
  have distortion := block.distortionAt_nonneg (scanIdx + 1)
  have more : bound ≤ bound + block.slackAt (scanIdx + 1) := by
    unfold slackAt
    omega
  have wide := block.tu.two_le_sbbSize
  have least := ready.least
  have node {k : Nat} (small : k < 4) := ready.node room small
  have succ := block.tu.insidePos_succ scanIdx
  have within := block.tu.insidePos_lt scanIdx
  obtain ⟨row, rows, states, curr, skips, prev, skip⟩ := block.xDecideAndUpdate_succ scanIdx t
  -- the entries for the states, at a position that updates them
  have cost {k : Nat} (small : k < 4) : (row.states.map Decision.rdCost).get k =
      ((block.xDecide (scanIdx + 1) t.currStates t.skipStates).states.get k).rdCost := by
    rw [get_map _ _ small, states]
  have sound {k : Nat} (small : k < 4) (low : (row.states.map Decision.rdCost).get k <
      startCost - (bound + block.slackAt (scanIdx + 1))) :
      block.Extends (scanIdx + 1) t.rows k (row.states.get k) := by
    rw [cost small] at low
    rw [states]
    exact (node small).sound low
  have update : block.tu.eosbb (scanIdx + 1) = true →
      (block.xDecideAndUpdate (scanIdx + 1) t).currStates = row.states.map Decision.rdCost := by
    intro eos
    rw [curr, if_pos (Or.inl eos)]
  refine ⟨by omega, ?_, ?_, ?_, ?_, ?_, ?_, fun last => by omega⟩
  · rw [curr]
    split
    · intro k small
      rw [cost small]
      exact ⟨(node small).lower, (node small).upper⟩
    · exact ready.prev.mono more
  · rw [prev]
    split
    · exact ready.skip.mono more
    · exact ready.curr.mono more
  · rw [skip]
    split
    · exact ready.curr.mono more
    · exact ready.skip.mono more
  · intro tested k small low
    have updated : block.tu.eosbb (scanIdx + 1) = true ∨
        ¬ block.tu.zeroOutAt (scanIdx + 1) = true := by
      by_cases eos : block.tu.eosbb (scanIdx + 1) = true
      · exact Or.inl eos
      · have same := TransformUnit.zeroOutAt_pred inside (by simpa using eos)
        rw [tested] at same
        exact Or.inr (by simp [← same])
    rw [curr, if_pos updated] at low
    rw [rows]
    have extends_ := sound small low
    rw [← get_states row small] at extends_
    exact extends_.sound (TransformUnit.nodeState_state small)
  · intro inner behind k small low
    rw [if_neg inner] at succ
    have noEos : block.tu.eosbb (scanIdx + 1) = false := by
      rw [TransformUnit.eosbb, succ]
      simp
    rw [noEos] at skips
    have handed (sound : block.Sound (scanIdx + 1 + 1) t.rows (4 + k)) :
        block.Sound (scanIdx + 1) (block.xDecideAndUpdate (scanIdx + 1) t).rows (4 + k) := by
      rw [rows]
      exact sound.skip small (by simpa using skips)
    rw [skip] at low
    by_cases first : block.tu.spt (scanIdx + 1) = .SCAN_SOCSBB
    · rw [if_pos first] at low
      have top : block.tu.insidePos (scanIdx + 1) = block.tu.sbbSize - 1 := by
        unfold TransformUnit.spt at first
        split at first
        next conditions => exact conditions.1
        next => split at first <;> cases first
      exact handed (ready.fromEos top (by omega) k small (by omega))
    · rw [if_neg first] at low
      by_cases top : block.tu.insidePos (scanIdx + 1) = block.tu.sbbSize - 1
      · -- the last sub-block: there are no states before it
        have last := ready.last (spt_last top inside (by omega) first) k small
        unfold slackAt startCost at low
        unfold initCost at last
        omega
      · exact handed (ready.fromSkips top (by omega) k small (by omega))
  · intro top behind k small low
    rw [if_pos top] at succ
    have eos : block.tu.eosbb (scanIdx + 1) = true := by
      rw [TransformUnit.eosbb, succ]
      simp
    rw [eos] at skips
    rw [update eos] at low
    have extends_ := sound small low
    rw [rows]
    refine Extends.sound ?_ (TransformUnit.nodeState_eosbb succ small)
    rw [get_skips, skips]
    simpa using extends_

/-- The populated trellis: the decisions at the DC position are nodes. -/
theorem Ready.populate (ready : block.Ready bound scanIdx t) (inside : scanIdx < block.tu.numCoeff)
    (room : bound + ∑ u ∈ Finset.range (scanIdx + 1), block.slackAt u < startCost) :
    ∃ row rows, (block.populate scanIdx t).rows = row :: rows ∧
      rows.length = t.rows.length + scanIdx ∧
      ∀ k < 4, block.Node (bound + ∑ u ∈ Finset.range (scanIdx + 1), block.slackAt u) 0 rows k
        (row.states.get k) := by
  induction scanIdx generalizing bound t with
  | zero =>
      rw [Finset.sum_range_one] at room ⊢
      refine ⟨block.xDecide 0 t.currStates t.skipStates, t.rows, rfl, rfl, ?_⟩
      intro k small
      exact ready.node room small
  | succ scanIdx ih =>
      have nonneg : 0 ≤ ∑ u ∈ Finset.range (scanIdx + 1), block.slackAt u := by
        refine Finset.sum_nonneg fun u _ => ?_
        have distortion := block.distortionAt_nonneg u
        unfold slackAt
        omega
      rw [Finset.sum_range_succ, Int.add_comm (∑ u ∈ _, _), ← Int.add_assoc] at room ⊢
      have next := ready.step inside (by omega)
      obtain ⟨row, rows, populated, length, nodes⟩ := ih next (by omega) room
      obtain ⟨first, filled, _⟩ := block.xDecideAndUpdate_succ scanIdx t
      refine ⟨row, rows, populated, ?_, nodes⟩
      rw [length, filled, List.length_cons]
      omega

end Populate

end DepQuantInput

end Vtm.DQIntern
