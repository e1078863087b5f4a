import Vtm.Quant.Trellis
import Mathlib.Algebra.BigOperators.Group.Finset.Piecewise

/-!
# What the trellis chose is what the decoder dequantises

The levels of the selected path, written in scan order, bring the state machine of
`dequantBlock` through the states of the path. This needs distortions that stay
below the cost of a decision that is not taken: with a lambda so small that they
exceed it, the cheapest path can end in such a decision.
-/

namespace Vtm.DQIntern

open Function (update update_self update_of_ne)

namespace DepQuantInput

variable (block : DepQuantInput)

/-- The result of `quant` fits the decoder: the backward scan ends in a start and
stays at or behind the first test position, the sum is the sum of the levels, no
level has the other sign than its coefficient, and the decoder forms one of the
candidate indices of every level, in the state of the selected path. -/
structure Agrees (p : DequantParams) (result : QuantResult) : Prop where
  inside : ∀ scanIdx < result.path.length,
    ∃ firstTestPos, block.firstTestPos = some firstTestPos ∧ scanIdx ≤ firstTestPos
  start : ∀ decision, result.path.getLast? = some decision → decision.prevId = -1
  absSum_eq : result.absSum = ∑ blkpos ∈ Finset.range block.tu.area, |result.qCoeff blkpos|
  absSum_zero : result.absSum = 0 ↔ ∀ blkpos < block.tu.area, result.qCoeff blkpos = 0
  sign : ∀ blkpos < block.tu.area, (block.tCoeff blkpos < 0 → result.qCoeff blkpos ≤ 0) ∧
    (0 ≤ block.tCoeff blkpos → 0 ≤ result.qCoeff blkpos)
  index : ∀ step ∈ block.tu.dequantBlock p result.qCoeff, step.level ≠ 0 →
    |step.qIdx| = 2 * |step.level| - (step.state >>> 1 : Nat) ∧
      block.qIdxAt step.scanIdx ≤ |step.qIdx| ∧ |step.qIdx| ≤ block.qIdxAt step.scanIdx + 3
  state : ∀ step ∈ block.tu.dequantBlock p result.qCoeff, ∃ decision,
    result.path[step.scanIdx]? = some decision ∧
      step.state = block.tu.nodeState (step.scanIdx + 1) decision.prevId

/-- The distortions of the tested coefficients add up to at most half of the cost of
a decision that is not taken. -/
def InRange : Prop :=
  ∀ firstTestPos, block.firstTestPos = some firstTestPos →
    ∑ scanIdx ∈ Finset.range (firstTestPos + 1), block.distortionAt scanIdx ≤ 2 ^ 60

variable {block}

section Path

theorem bestState_spec (decisions : Four Decision) :
    bestState decisions = -2 ∨
      ∃ k < 4, bestState decisions = (k : Nat) ∧ (decisions.get k).rdCost < 0 := by
  unfold bestState
  simp only [List.foldl_cons, List.foldl_nil]
  grind

/-- What a valid path says about one of its decisions. -/
theorem Valid.get {scanIdx k : Nat} {path : List Decision} {decision : Decision}
    (valid : block.Valid scanIdx path) (at_ : path[k]? = some decision) :
    stateAfter (path.drop (k + 1)) = block.tu.nodeState (scanIdx + k + 1) decision.prevId ∧
      (decision.absLevel = 0 ∨
        block.Admits (scanIdx + k) (stateAfter (path.drop (k + 1))) decision.absLevel) ∧
      (path.drop (k + 1) = [] → decision.prevId = -1 ∧ decision.absLevel ≠ 0) := by
  induction path generalizing scanIdx k with
  | nil => simp at at_
  | cons first rest ih =>
      obtain ⟨state, level, start, valid⟩ := valid
      cases k with
      | zero =>
          simp only [List.getElem?_cons_zero, Option.some.injEq] at at_
          subst at_
          exact ⟨state, level, start⟩
      | succ k =>
          have found := ih valid (by simpa using at_)
          rw [Nat.add_right_comm scanIdx 1 k, Nat.add_assoc scanIdx k 1] at found
          exact found

theorem Valid.absLevel_nonneg {scanIdx : Nat} {path : List Decision}
    (valid : block.Valid scanIdx path) {decision : Decision} (member : decision ∈ path) :
    0 ≤ decision.absLevel := by
  obtain ⟨k, at_⟩ := List.mem_iff_getElem?.mp member
  rcases (valid.get at_).2.1 with zero | admits
  · rw [zero]
  · exact admits.positive.le

theorem backwardScan_length {rows : List Decisions} {prevId : Int} {path : List Decision}
    (scan : backwardScan rows prevId = some path) : path.length ≤ rows.length := by
  induction rows generalizing prevId path with
  | nil =>
      rw [backwardScan] at scan
      split at scan
      · cases scan
        exact Nat.le_refl _
      · cases scan
  | cons row rows ih =>
      rw [backwardScan] at scan
      split at scan
      · cases scan
        exact Nat.zero_le _
      · obtain ⟨rest, found, rfl⟩ := Option.map_eq_some_iff.mp scan
        exact Nat.succ_le_succ (ih found)

end Path

section Levels

/-- The level of a path at a scan position; there are none beyond its start. -/
@[grind =] def levelAt (path : List Decision) (scanIdx : Nat) : Int :=
  (path[scanIdx]?.map Decision.absLevel).getD 0

theorem levelAt_cons_succ (decision : Decision) (path : List Decision) (k : Nat) :
    levelAt (decision :: path) (k + 1) = levelAt path k := by
  rw [levelAt, levelAt, List.getElem?_cons_succ]

theorem levelAt_eq {path : List Decision} {k : Nat} {decision : Decision}
    (at_ : path[k]? = some decision) : levelAt path k = decision.absLevel := by
  rw [levelAt, at_]
  rfl

theorem levelAt_beyond {path : List Decision} {k : Nat} (beyond : path.length ≤ k) :
    levelAt path k = 0 := by
  rw [levelAt, List.getElem?_eq_none beyond]
  rfl

/-- The writes of the backward scan reach the samples of their scan positions only. -/
theorem writeLevels_other {scanIdx blkpos : Nat} (path : List Decision) (qCoeff : Nat → Int)
    (other : ∀ k < path.length, block.tu.rasterPos (scanIdx + k) ≠ blkpos) :
    block.writeLevels scanIdx path qCoeff blkpos = qCoeff blkpos := by
  induction path generalizing scanIdx qCoeff with
  | nil => rfl
  | cons decision path ih =>
      rw [writeLevels, ih]
      · exact update_of_ne (other 0 (Nat.succ_pos _)).symm _ _
      · intro k small
        rw [Nat.add_assoc, Nat.add_comm 1 k]
        exact other (k + 1) (Nat.succ_lt_succ small)

theorem writeLevels_at (block : DepQuantInput) (scanIdx : Nat) {k : Nat} (path : List Decision) (qCoeff : Nat → Int)
    (inside : scanIdx + path.length ≤ block.tu.numCoeff) (small : k < path.length) :
    block.writeLevels scanIdx path qCoeff (block.tu.rasterPos (scanIdx + k)) =
      block.signedLevel (block.tu.rasterPos (scanIdx + k)) (levelAt path k) := by
  induction path generalizing scanIdx k qCoeff with
  | nil => cases small
  | cons decision path ih =>
      rw [List.length_cons] at inside small
      rw [writeLevels]
      cases k with
      | zero =>
          rw [writeLevels_other, Nat.add_zero, update_self]
          · rfl
          · intro k below same
            have := TransformUnit.rasterPos_inj (by omega) (by omega) same
            omega
      | succ k =>
          have next : scanIdx + (k + 1) = scanIdx + 1 + k := by omega
          rw [levelAt_cons_succ, next]
          exact ih _ _ (by omega) (by omega)

theorem abs_signedLevel (blkpos : Nat) (absLevel : Int) :
    |block.signedLevel blkpos absLevel| = |absLevel| := by
  unfold signedLevel
  split
  · exact abs_neg _
  · rfl

/-- The levels add up to what the backward scan has counted. -/
theorem sum_writeLevels {scanIdx : Nat} (path : List Decision) (qCoeff : Nat → Int)
    (inside : scanIdx + path.length ≤ block.tu.numCoeff)
    (clear : ∀ k < path.length, qCoeff (block.tu.rasterPos (scanIdx + k)) = 0)
    (nonneg : ∀ decision ∈ path, 0 ≤ decision.absLevel) :
    ∑ blkpos ∈ Finset.range block.tu.area, |block.writeLevels scanIdx path qCoeff blkpos| =
      ∑ blkpos ∈ Finset.range block.tu.area, |qCoeff blkpos| +
        (path.map Decision.absLevel).sum := by
  induction path generalizing scanIdx qCoeff with
  | nil => simp [writeLevels]
  | cons decision path ih =>
      rw [List.length_cons] at inside
      have member : block.tu.rasterPos scanIdx ∈ Finset.range block.tu.area :=
        Finset.mem_range.mpr (TransformUnit.rasterPos_lt (by omega))
      have empty : qCoeff (block.tu.rasterPos scanIdx) = 0 := clear 0 (Nat.succ_pos _)
      have written : (fun blkpos => |update qCoeff (block.tu.rasterPos scanIdx)
          (block.signedLevel (block.tu.rasterPos scanIdx) decision.absLevel) blkpos|) =
          update (fun blkpos => |qCoeff blkpos|) (block.tu.rasterPos scanIdx)
            decision.absLevel := by
        funext blkpos
        by_cases same : blkpos = block.tu.rasterPos scanIdx
        · subst same
          rw [update_self, update_self, abs_signedLevel,
            abs_of_nonneg (nonneg decision List.mem_cons_self)]
        · rw [update_of_ne same, update_of_ne same]
      have before : ∑ blkpos ∈ Finset.range block.tu.area, |qCoeff blkpos| =
          ∑ blkpos ∈ Finset.range block.tu.area \ {block.tu.rasterPos scanIdx}, |qCoeff blkpos| := by
        rw [← Finset.sum_sdiff (Finset.singleton_subset_iff.mpr member), Finset.sum_singleton,
          empty, abs_zero, add_zero]
      rw [writeLevels, ih _ (by omega) ?clear fun d mem => nonneg d (List.mem_cons_of_mem _ mem),
        written, Finset.sum_update_of_mem member, before, List.map_cons, List.sum_cons]
      · ring
      case clear =>
        intro k small
        have apart : block.tu.rasterPos (scanIdx + 1 + k) ≠ block.tu.rasterPos scanIdx := by
          intro same
          have := TransformUnit.rasterPos_inj (by omega) (by omega) same
          omega
        rw [update_of_ne apart, Nat.add_assoc, Nat.add_comm 1 k]
        exact clear (k + 1) (Nat.succ_lt_succ small)

/-- The level that `quant` leaves at a scan position. -/
theorem writeLevels_scan {path : List Decision} (inside : path.length ≤ block.tu.numCoeff)
    {scanIdx : Nat} (small : scanIdx < block.tu.numCoeff) :
    block.writeLevels 0 path (fun _ => 0) (block.tu.rasterPos scanIdx) =
      block.signedLevel (block.tu.rasterPos scanIdx) (levelAt path scanIdx) := by
  by_cases within : scanIdx < path.length
  · have written := block.writeLevels_at 0 path (fun _ => 0) (by omega) within
    rwa [Nat.zero_add] at written
  · rw [writeLevels_other, levelAt_beyond (by omega)]
    · unfold signedLevel
      split <;> rfl
    · intro k below same
      rw [Nat.zero_add] at same
      have := TransformUnit.rasterPos_inj (by omega) small same
      omega

theorem writeLevels_cases (path : List Decision) (inside : path.length ≤ block.tu.numCoeff)
    (blkpos : Nat) :
    block.writeLevels 0 path (fun _ => 0) blkpos = 0 ∨
      ∃ decision ∈ path, block.writeLevels 0 path (fun _ => 0) blkpos =
        block.signedLevel blkpos decision.absLevel := by
  by_cases reached : ∃ k < path.length, block.tu.rasterPos k = blkpos
  · obtain ⟨k, small, rfl⟩ := reached
    refine Or.inr ⟨path[k], List.getElem_mem small, ?_⟩
    rw [writeLevels_scan inside (by omega), levelAt_eq (List.getElem?_eq_getElem small)]
  · refine Or.inl (writeLevels_other _ _ fun k small same => reached ⟨k, small, ?_⟩)
    rwa [Nat.zero_add] at same

end Levels

section Decoder

variable {tu : TransformUnit}

theorem lastScanIdx_eq {qCoeff : Nat → Int} {last count : Nat} (inside : last < count)
    (level : qCoeff (tu.rasterPos last) ≠ 0)
    (zeros : ∀ scanIdx, last < scanIdx → scanIdx < count → qCoeff (tu.rasterPos scanIdx) = 0) :
    tu.lastScanIdx qCoeff count = some last := by
  induction count with
  | zero => cases inside
  | succ count ih =>
      rw [TransformUnit.lastScanIdx]
      by_cases top : last = count
      · subst top
        rw [if_pos level]
      · rw [if_neg (not_not.mpr (zeros count (by omega) (Nat.lt_succ_self _)))]
        exact ih (by omega) fun scanIdx above below => zeros scanIdx above (by omega)

theorem lastScanIdx_none {qCoeff : Nat → Int} {count : Nat}
    (zeros : ∀ scanIdx < count, qCoeff (tu.rasterPos scanIdx) = 0) :
    tu.lastScanIdx qCoeff count = none := by
  induction count with
  | zero => rfl
  | succ count ih =>
      rw [TransformUnit.lastScanIdx, if_neg (not_not.mpr (zeros count (Nat.lt_succ_self _)))]
      exact ih fun scanIdx below => zeros scanIdx (by omega)

/-- The loop of the decoder goes through the states of a path whose levels it reads. -/
theorem dequantLoop_spec (p : DequantParams) {qCoeff : Nat → Int} {path : List Decision}
    (last : Nat) {scanIdx : Nat} (inside : scanIdx < path.length)
    (levels : ∀ k < path.length, qCoeff (tu.rasterPos k) = levelAt path k ∨
      qCoeff (tu.rasterPos k) = -levelAt path k) (invQScale : Int) :
    ∀ step ∈ tu.dequantLoop p qCoeff last scanIdx (stateAfter (path.drop (scanIdx + 1))) invQScale,
      step.scanIdx < path.length ∧ step.state = stateAfter (path.drop (step.scanIdx + 1)) ∧
        step.level = qCoeff (tu.rasterPos step.scanIdx) ∧
        step.qIdx = dequantIdx step.state step.level := by
  induction scanIdx generalizing invQScale with
  | zero =>
      intro step member
      rw [TransformUnit.dequantLoop] at member
      simp only [List.mem_singleton] at member
      subst member
      exact ⟨inside, rfl, rfl, rfl⟩
  | succ scanIdx ih =>
      have next : nextState (stateAfter (path.drop (scanIdx + 1 + 1)))
          (qCoeff (tu.rasterPos (scanIdx + 1))) = stateAfter (path.drop (scanIdx + 1)) := by
        rw [List.drop_eq_getElem_cons inside, stateAfter]
        refine nextState_congr _ _ ?_
        have level := levelAt_eq (List.getElem?_eq_getElem inside)
        rcases levels (scanIdx + 1) inside with same | negated
        · rw [same, level]
        · rw [negated, level]
          omega
      intro step member
      rw [TransformUnit.dequantLoop] at member
      simp only [List.mem_cons] at member
      rcases member with rfl | later
      · exact ⟨inside, rfl, rfl, rfl⟩
      · rw [next] at later
        exact ih (by omega) _ step later

end Decoder

section Quant

/-- The size of the index that the decoder forms from a level. -/
theorem abs_dequantIdx {state : Nat} {level : Int} (small : state < 4) (some : level ≠ 0) :
    |dequantIdx state level| = 2 * |level| - (state >>> 1 : Nat) := by
  have half : state >>> 1 ≤ 1 := by
    interval_cases state <;> decide
  unfold dequantIdx
  generalize state >>> 1 = offset at *
  rcases lt_or_gt_of_ne some with negative | positive
  · rw [if_neg (by omega), abs_of_neg negative, abs_of_neg (by omega)]
    ring
  · rw [if_pos positive, abs_of_pos positive, abs_of_pos (by omega)]
    ring

theorem stateAfter_lt (path : List Decision) : stateAfter path < 4 := by
  cases path with
  | nil => decide
  | cons decision path => exact nextState_lt _ _

/-- What the decoder finds at each scan position of a valid path. -/
theorem Valid.steps {path : List Decision} (valid : block.Valid 0 path)
    (inside : path.length ≤ block.tu.numCoeff) (p : DequantParams) :
    ∀ step ∈ block.tu.dequantBlock p (block.writeLevels 0 path fun _ => 0),
      step.scanIdx < path.length ∧ step.state = stateAfter (path.drop (step.scanIdx + 1)) ∧
        step.level = block.signedLevel (block.tu.rasterPos step.scanIdx)
          (levelAt path step.scanIdx) ∧ step.qIdx = dequantIdx step.state step.level := by
  have area := block.tu.numCoeff_le_area
  have scanned {k : Nat} (small : k < path.length) :=
    writeLevels_scan inside (by omega : k < block.tu.numCoeff)
  have zeros {scanIdx : Nat} (beyond : path.length ≤ scanIdx) (within : scanIdx < block.tu.area) :
      block.writeLevels 0 path (fun _ => 0) (block.tu.rasterPos scanIdx) = 0 := by
    refine writeLevels_other _ _ fun k small same => ?_
    rw [Nat.zero_add] at same
    by_cases near : scanIdx < block.tu.numCoeff
    · have := TransformUnit.rasterPos_inj (by omega) near same
      omega
    · exact TransformUnit.rasterPos_beyond (by omega) (by omega) within same
  intro step member
  generalize block.writeLevels 0 path (fun _ => 0) = qCoeff at *
  unfold TransformUnit.dequantBlock at member
  by_cases empty : path = []
  · subst empty
    rw [lastScanIdx_none fun scanIdx within => zeros (Nat.zero_le _) within] at member
    cases member
  · have some : 0 < path.length := List.length_pos_iff.mpr empty
    have top : path.length - 1 < path.length := by omega
    have start := (valid.get (List.getElem?_eq_getElem top)).2.2
      (List.drop_eq_nil_of_le (by omega))
    have level : qCoeff (block.tu.rasterPos (path.length - 1)) ≠ 0 := by
      rw [scanned top, levelAt_eq (List.getElem?_eq_getElem top), ← abs_pos, abs_signedLevel,
        abs_pos]
      exact start.2
    have initial : stateAfter (path.drop (path.length - 1 + 1)) = 0 := by
      rw [List.drop_eq_nil_of_le (by omega)]
      rfl
    have levels : ∀ k < path.length, qCoeff (block.tu.rasterPos k) = levelAt path k ∨
        qCoeff (block.tu.rasterPos k) = -levelAt path k := by
      intro k small
      rw [scanned small]
      unfold signedLevel
      split
      · exact Or.inr rfl
      · exact Or.inl rfl
    rw [lastScanIdx_eq (by omega : path.length - 1 < block.tu.area) level
      fun scanIdx above within => zeros (by omega) within] at member
    simp only at member
    rw [← initial] at member
    obtain ⟨small, state, written, index⟩ :=
      dequantLoop_spec p (path.length - 1) top levels p.invQScale step member
    exact ⟨small, state, by rw [written, scanned small], index⟩

/-- The levels of a valid path fit the decoder. -/
theorem Valid.agrees {path : List Decision} (valid : block.Valid 0 path)
    (reach : ∀ scanIdx < path.length,
      ∃ firstTestPos, block.firstTestPos = some firstTestPos ∧ scanIdx ≤ firstTestPos)
    (p : DequantParams) :
    block.Agrees p
      ⟨block.writeLevels 0 path (fun _ => 0), (path.map Decision.absLevel).sum, path⟩ := by
  have inside : path.length ≤ block.tu.numCoeff := by
    by_contra long
    obtain ⟨first, found, above⟩ := reach block.tu.numCoeff (by omega)
    have := (firstTestPos_spec found).1
    omega
  have sum := sum_writeLevels path (fun _ => 0) (by omega : 0 + path.length ≤ block.tu.numCoeff)
    (fun _ _ => rfl) fun decision member => valid.absLevel_nonneg member
  rw [Finset.sum_congr rfl (fun _ _ => abs_zero), Finset.sum_const_zero, zero_add] at sum
  have steps := valid.steps inside p
  refine ⟨reach, ?_, sum.symm, ?_, ?_, ?_, ?_⟩
  · intro decision last
    rw [List.getLast?_eq_getElem?] at last
    exact ((valid.get last).2.2 (List.drop_eq_nil_of_le (by simp only; omega))).1
  · simp only
    rw [← sum, Finset.sum_eq_zero_iff_of_nonneg fun _ _ => abs_nonneg _]
    simp only [Finset.mem_range, abs_eq_zero]
  · intro blkpos _
    simp only
    rcases writeLevels_cases path inside blkpos with zero | ⟨decision, member, written⟩
    · rw [zero]
      exact ⟨fun _ => le_refl _, fun _ => le_refl _⟩
    · have nonneg := valid.absLevel_nonneg member
      rw [written]
      unfold signedLevel
      constructor
      · intro negative
        rw [if_pos negative]
        omega
      · intro positive
        rw [if_neg (by omega)]
        exact nonneg
  · intro step member some
    obtain ⟨small, state, level, index⟩ := steps step member
    have inRange : step.state < 4 := by
      rw [state]
      exact stateAfter_lt _
    rw [index, abs_dequantIdx inRange some]
    refine ⟨rfl, ?_⟩
    rw [level, levelAt_eq (List.getElem?_eq_getElem small)] at some ⊢
    rw [abs_signedLevel, state]
    rcases (valid.get (List.getElem?_eq_getElem small)).2.1 with zero | admits
    · rw [← abs_pos, abs_signedLevel, zero] at some
      exact absurd some (by decide)
    · rw [abs_of_pos admits.positive]
      rw [Nat.zero_add] at admits
      exact ⟨admits.lower, admits.upper⟩
  · intro step member
    obtain ⟨small, state, _, _⟩ := steps step member
    have decision := valid.get (List.getElem?_eq_getElem small)
    refine ⟨path[step.scanIdx], List.getElem?_eq_getElem small, ?_⟩
    rw [state, decision.1, Nat.zero_add]

/-- A block without levels fits the decoder. -/
theorem agrees_nil (block : DepQuantInput) (p : DequantParams) :
    block.Agrees p ⟨fun _ => 0, 0, []⟩ :=
  @Valid.agrees block [] trivial (fun _ small => by cases small) p

/-- Dependent quantisation: while the distortions of the tested coefficients stay
below the cost of a decision that is not taken, the trellis returns a path, and the
levels of the path bring the decoder through the states of the path, at every level
with one of the candidate indices. -/
theorem quant_agrees (block : DepQuantInput) (range : block.InRange) :
    ∃ result, block.quant = some result ∧ ∀ p, block.Agrees p result := by
  unfold quant
  cases found : block.firstTestPos with
  | none => exact ⟨_, rfl, fun p => block.agrees_nil p⟩
  | some firstTestPos =>
      obtain ⟨inside, _⟩ := firstTestPos_spec found
      have count := block.tu.numCoeff_le
      have slack : ∑ u ∈ Finset.range (firstTestPos + 1), block.slackAt u ≤ 2 ^ 60 + 2 ^ 44 := by
        have distortions := range firstTestPos found
        simp only [slackAt, Finset.sum_add_distrib, Finset.sum_const, Finset.card_range,
          nsmul_eq_mul]
        push_cast
        omega
      obtain ⟨row, rows, populated, length, nodes⟩ := (block.ready_init firstTestPos).populate inside
        (by unfold startCost; omega)
      simp only [populated]
      rcases bestState_spec row.states with none | ⟨k, small, best, cheap⟩
      · rw [none, backwardScan_neg _ (by decide)]
        exact ⟨_, rfl, fun p => block.agrees_nil p⟩
      · have low : (row.states.get k).rdCost <
            startCost - (0 + ∑ u ∈ Finset.range (firstTestPos + 1), block.slackAt u) := by
          unfold startCost
          omega
        obtain ⟨path, scan, valid, _⟩ := (nodes k small).sound low
        have whole : backwardScan (row :: rows) (k : Nat) = some (row.states.get k :: path) := by
          rw [backwardScan_cons, get_states row small, scan]
          rfl
        rw [best, whole]
        refine ⟨_, rfl, fun p => valid.agrees (fun scanIdx within => ⟨firstTestPos, found, ?_⟩) p⟩
        have short := backwardScan_length whole
        simp only [List.length_cons, length, initTrellis, List.length_nil] at short within
        omega

end Quant

section Lambda

/-- An 8-bit luma block of 4x4 samples. -/
def smallBlock : TransformUnit where
  log2Width := 2
  log2Height := 2
  luma := true
  mtsIdx := 0
  lfnstIdx := 0
  sbtInfo := 0
  useMTS := false
  transQuantBypass := false
  width_le := Nat.le_add_right 2 4
  height_le := Nat.le_add_right 2 4
  supported := fun narrow => by omega

/-- A quantiser of that block at QP 63. -/
def quantizer63 (DistShift : Nat) (DistAdd DistStepAdd DistOrgFact : Int) : Quantizer where
  QShift := 28
  QAdd := -402653184
  QScale := 16384
  maxQIdx := 32764
  thresLast := 1073741824
  DistShift := DistShift
  DistAdd := DistAdd
  DistStepAdd := DistStepAdd
  DistOrgFact := DistOrgFact
  maxQIdx_le := by decide

/-- The context of a state if every bin costs one bit. -/
def oneBitCtx (numSigSbb remRegBins goRiceZero : Int) : StateCtx where
  numSigSbb := numSigSbb
  remRegBins := remRegBins
  sbbFracBits := ⟨0, 0⟩
  sigFracBits := ⟨32768, 32768⟩
  coeffFracBits k := [0, 65536, 131072, 131072, 131072, 131072].getD k 0
  goRicePar := 0
  goRiceZero := goRiceZero

/-- The contexts in which the states of the eight positions below are. -/
def oneBitRates : RateEstimator where
  prevCtx scanIdx k :=
    let table : List (List StateCtx) :=
      [[oneBitCtx 4 19 0, oneBitCtx 6 14 1, oneBitCtx 5 18 2, oneBitCtx 5 (-2) 2],
       [oneBitCtx 4 20 1, oneBitCtx 3 21 0, oneBitCtx 4 (-1) 2, oneBitCtx 5 16 2],
       [oneBitCtx 4 21 0, oneBitCtx 4 0 1, oneBitCtx 3 22 2, oneBitCtx 5 17 0],
       [oneBitCtx 3 21 1, oneBitCtx 3 23 0, oneBitCtx 4 19 0, oneBitCtx 3 1 2],
       [oneBitCtx 3 21 0, oneBitCtx 2 23 0, oneBitCtx 2 2 2, oneBitCtx 2 25 0],
       [oneBitCtx 1 3 1, oneBitCtx 2 23 0, oneBitCtx 1 27 0, oneBitCtx 2 25 0],
       [oneBitCtx 1 25 0, oneBitCtx 0 4 0, oneBitCtx 1 27 0, oneBitCtx 0 4 0],
       List.replicate 4 (oneBitCtx 0 4 0)]
    (table.getD scanIdx []).getD k (oneBitCtx 0 4 0)
  skipCtx _ _ := oneBitCtx 0 4 0
  startCtx := oneBitCtx 0 4 0
  lastOffset _ := 131072

/-- A block with a scaling list and the parameters that `initQuantBlock` computes
from a lambda of 8.5e-9. -/
def smallLambda : DepQuantInput where
  tu := smallBlock
  tCoeff blkpos :=
    [13367, 0, 25545, 0, 16109, 24218, 0, 0, 18168, 1364, 0, 0, 31527, 0, 0, 0].getD blkpos 0
  enableScalingLists := true
  quantCoeff blkpos :=
    [18724, 23831, 23831, 16384, 16384, 13797, 16384, 16384, 15420, 262144, 16384, 16384, 15420,
      16384, 16384, 16384].getD blkpos 0
  quantizer gValue :=
    match gValue with
    | some 262144 => quantizer63 0 0 3947580235294118 29411765
    | some 23831 => quantizer63 0 0 477668141364145792 3558904986
    | some 18724 => quantizer63 0 0 773772952750087936 5765057748
    | some 15420 => quantizer63 0 0 1140885504796891136 8500259405
    | some 13797 => quantizer63 0 0 1425087337473977856 10617728066
    | _ => quantizer63 0 0 1010580540235294080 7529411765
  rates := oneBitRates

/-- With a small lambda the cheapest path ends in a decision that is not taken: its
level is -1, the first of the tested coefficients is positive, and the sum of the
levels is too small by two. -/
theorem untaken_decision_is_selected :
    ¬ ∃ result, smallLambda.quant = some result ∧ ∀ p, smallLambda.Agrees p result := by
  rintro ⟨result, found, agrees⟩
  have values : smallLambda.quant.map (fun r => (r.absSum, (List.range 16).map r.qCoeff)) =
      some (5, [1, 0, 1, 0, 1, 1, 0, 0, 1, -1, 0, 0, 1, 0, 0, 0]) := by
    decide +kernel
  rw [found, Option.map_some, Option.some.injEq, Prod.mk.injEq] at values
  have sign := ((agrees ⟨0, 0, 15, false, fun _ => 0⟩).sign 9 (by decide)).2 (by decide)
  have level := congrArg (·.getD 9 0) values.2
  simp [List.getD] at level
  omega

/-- The same coefficients without a scaling list and with a lambda of 65536, as for
this QP. -/
def ordinaryLambda : DepQuantInput where
  tu := smallBlock
  tCoeff := smallLambda.tCoeff
  enableScalingLists := false
  quantCoeff _ := 0
  quantizer _ := quantizer63 42 2199023255552 576460752303423488 4294967296
  rates := oneBitRates

theorem ordinaryLambda_firstTestPos : ordinaryLambda.firstTestPos = some 6 := by
  decide

theorem ordinaryLambda_inRange : ordinaryLambda.InRange := by
  intro firstTestPos found
  rw [ordinaryLambda_firstTestPos] at found
  cases found
  decide

theorem quant_agrees_ordinaryLambda :
    ordinaryLambda.firstTestPos = some 6 ∧ ordinaryLambda.InRange ∧
      ∃ result, ordinaryLambda.quant = some result ∧ ∀ p, ordinaryLambda.Agrees p result :=
  ⟨ordinaryLambda_firstTestPos, ordinaryLambda_inRange,
    quant_agrees ordinaryLambda ordinaryLambda_inRange⟩

end Lambda

end DepQuantInput

end Vtm.DQIntern
