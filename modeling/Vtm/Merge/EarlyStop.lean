import Vtm.Common.AffineMerge
import Vtm.Merge.InterCandidates

/-!
# Merge candidates that are asked for

The candidate that a derivation returns early is the one of its whole list: for inter and affine
candidates always, for intra block copy up to the first zero candidate. `mrgCandIdx_early` puts
this together.
-/

namespace Vtm.Motion

open RefPics (RefPicList)
open Vtm.Std (Listing Stage Outcome)
open Vtm.Std.Stage (StopsEarly Keeps Permits)

section

variable {cs : CodingStructure} {pu : PredictionUnit}

/-! ## Inter -/

theorem spatialStage_stopsEarly (pos : Position) (available : PredictionUnit → Bool)
    (differs : MotionInfo → Bool) :
    StopsEarly fun stop => spatialStage cs pu stop pos available differs := by
  unfold spatialStage
  cases neighbour cs pu pos available with
  | none => exact Keeps.running.stopsEarly
  | some other =>
      cases taken : differs (other.getMotionInfo pos) with
      | false => simpa only [taken, Bool.false_eq_true, if_false] using Keeps.running.stopsEarly
      | true => simpa only [taken, if_true] using StopsEarly.append _

theorem temporalStage_stopsEarly : StopsEarly fun stop => temporalStage cs pu stop := by
  unfold temporalStage
  by_cases taken : cs.slice.enableTMVPFlag = true ∧ pu.Y.width + pu.Y.height > 12 ∧
      hasTemporal cs pu = true
  · simp only [if_pos taken]
    exact StopsEarly.append _
  · simp only [if_neg taken]
    exact Keeps.running.stopsEarly

theorem historyLoop_stopsEarly (isInterB : Bool) (n : Neighbours) (ibcFlag isGt4x4 : Bool)
    (bound mrgIdx : Nat) (lut : List MotionInfo) :
    StopsEarly fun stop => historyLoop isInterB n ibcFlag isGt4x4 stop bound mrgIdx lut := by
  induction lut generalizing mrgIdx with
  | nil => exact Keeps.running.stopsEarly
  | cons mi older ih =>
      unfold historyLoop
      cases taken : takesHistory n ibcFlag isGt4x4 mrgIdx mi with
      | false => simpa only [taken, Bool.false_eq_true, if_false] using ih (mrgIdx + 1)
      | true =>
          simp only [if_true]
          exact (StopsEarly.append _).followedBy (Keeps.running.stopsEarly.choose (ih (mrgIdx + 1)))

theorem keeps_store {stage : Stage α} (f : Listing α → α)
    (stores : ∀ list, stage list = .running (list.store (f list))) : Keeps stage := by
  intro list i inside
  rw [stores]
  exact ⟨inside, Listing.store_entry_of_ne (Nat.ne_of_lt inside)⟩

theorem addMergeHMVPCand_stopsEarly (isInterB : Bool) (n : Neighbours) (ibcFlag isGt4x4 : Bool)
    (bound : Nat) (lut : List MotionInfo) :
    StopsEarly fun stop => addMergeHMVPCand isInterB n ibcFlag isGt4x4 stop bound lut :=
  (historyLoop_stopsEarly isInterB n ibcFlag isGt4x4 bound 1 lut.reverse).followedBy
    (keeps_store _ fun _ => rfl).stopsEarly.when

theorem pairwiseStage_keeps (most : Nat) : Keeps (pairwiseStage cs most) := by
  refine (Keeps.stopsEarly fun list i inside => ?_).when.keeps
  dsimp only
  split
  · exact ⟨Nat.lt_succ_of_lt inside, Listing.push_entry_of_ne (Nat.ne_of_lt inside)⟩
  · exact ⟨inside, Listing.store_entry_of_ne (Nat.ne_of_lt inside)⟩

theorem zeroLoop_keeps (left : Nat) (r refcnt : Int) : Keeps (zeroLoop cs left r refcnt) := by
  induction left generalizing r refcnt with
  | zero => exact Keeps.running
  | succ left ih =>
      unfold zeroLoop
      refine (StopsEarly.append _).keeps.followedBy ?_
      split
      · exact ih 0 refcnt
      · exact ih (r + 1) (refcnt + 1)

theorem interStages_stopsEarly : StopsEarly fun stop => Stage.inOrder (interStages cs pu stop) := by
  have limit : StopsEarly fun _ => Stage.limit (α := MergeCand) cs.slice.maxNumMergeCand :=
    (Keeps.limit _).stopsEarly
  unfold interStages
  refine (spatialStage_stopsEarly _ _ _).next (limit.next ?_)
  refine (spatialStage_stopsEarly _ _ _).next (limit.next ?_)
  refine (spatialStage_stopsEarly _ _ _).next (limit.next ?_)
  refine (spatialStage_stopsEarly _ _ _).next (limit.next ?_)
  refine (spatialStage_stopsEarly _ _ _).when.next (limit.next ?_)
  refine temporalStage_stopsEarly.next (limit.next ?_)
  refine (addMergeHMVPCand_stopsEarly _ _ _ _ _ _).when.next ?_
  refine (pairwiseStage_keeps _).stopsEarly.next (limit.next ?_)
  exact (Keeps.stopsEarly fun list => zeroLoop_keeps _ _ _ list).next StopsEarly.done

theorem getInterMergeCandidates_eq (stop : Int) (mrgCtx : MergeCtx) :
    getInterMergeCandidates cs pu stop mrgCtx =
      (Stage.inOrder (interStages cs pu stop)
        (mrgCtx.start cs.slice.maxNumMergeCand .MRG_TYPE_DEFAULT_N)).finish
          (fun list => ⟨list.entry, cs.slice.maxNumMergeCand⟩) fun list => ⟨list.entry, list.count⟩ := by
  unfold getInterMergeCandidates
  dsimp only
  cases Stage.inOrder (interStages cs pu stop)
    (mrgCtx.start cs.slice.maxNumMergeCand .MRG_TYPE_DEFAULT_N) <;> rfl

theorem getInterMergeCandidates_early {mrgCtx full : MergeCtx} (i : Nat)
    (run : getInterMergeCandidates cs pu (-1) mrgCtx = .ok full) :
    ∃ part, getInterMergeCandidates cs pu i mrgCtx = .ok part ∧ part.cand i = full.cand i := by
  rw [getInterMergeCandidates_eq] at run ⊢
  exact interStages_stopsEarly.finish MergeCtx.cand (fun _ => rfl) (fun _ => rfl) i run

/-! ## Affine -/

theorem subPuStage_stopsEarly (getInterMergeSubPuMvpCand : SubPuMvp) :
    StopsEarly fun stop => subPuStage cs pu stop getInterMergeSubPuMvpCand := by
  unfold subPuStage
  dsimp only
  split
  · cases subPuLeft cs pu with
    | error message => exact Keeps.stopsEarly fun _ _ _ => trivial
    | ok left =>
        dsimp only
        cases getInterMergeSubPuMvpCand left with
        | none => exact Keeps.running.stopsEarly
        | some derived => exact (StopsEarly.append _).followedBy (Keeps.limit _).stopsEarly
  · exact Keeps.running.stopsEarly

/-- A stage that compares the index with the last candidate of its list. -/
theorem stopsEarly_of_last {stage : Int → Stage AffineMergeCand}
    {edit : Listing AffineMergeCand → Checked (Option AffineMergeCand)}
    (eq : ∀ stop list, stage stop list =
      match edit list with
      | .error message => .failed message
      | .ok cand =>
          let after := match cand with
            | some cand => list.push cand
            | none => list
          if after.count ≠ 0 ∧ (after.count : Int) - 1 = stop then .returned after
          else .running after) : StopsEarly stage := by
  have keeps : Keeps (stage (-1)) := by
    intro list i inside
    rw [eq]
    cases edit list with
    | error => trivial
    | ok cand =>
        have off (count : Nat) : ¬ (count ≠ 0 ∧ (count : Int) - 1 = -1) := by omega
        dsimp only
        rw [if_neg (off _)]
        cases cand with
        | none => exact ⟨inside, rfl⟩
        | some cand =>
            exact ⟨Nat.lt_succ_of_lt inside, Listing.push_entry_of_ne (Nat.ne_of_lt inside)⟩
  refine ⟨keeps, fun list i => ?_⟩
  rw [eq, eq]
  have step (after : Listing AffineMergeCand) :
      (if after.count ≠ 0 ∧ (after.count : Int) - 1 = i then Outcome.returned after
          else .running after) =
        (if after.count ≠ 0 ∧ (after.count : Int) - 1 = -1 then .returned after else .running after) ∨
      ∃ early, (if after.count ≠ 0 ∧ (after.count : Int) - 1 = i then Outcome.returned after
          else .running after) = .returned early ∧
        Outcome.Holds i (early.entry i) (if after.count ≠ 0 ∧ (after.count : Int) - 1 = -1 then
          .returned after else .running after) := by
    have off : ¬ (after.count ≠ 0 ∧ (after.count : Int) - 1 = -1) := by omega
    rw [if_neg off]
    by_cases last : after.count ≠ 0 ∧ (after.count : Int) - 1 = i
    · rw [if_pos last]
      exact Or.inr ⟨after, rfl, by omega, rfl⟩
    · exact Or.inl (if_neg last)
  cases edit list with
  | error => exact Or.inl rfl
  | ok cand => exact step _

theorem constructedStage_stopsEarly (modelIdx : Nat) :
    StopsEarly fun stop => constructedStage cs pu stop modelIdx :=
  stopsEarly_of_last fun _ _ => rfl

theorem affineStages_stopsEarly (getInterMergeSubPuMvpCand : SubPuMvp) :
    StopsEarly fun stop => Stage.inOrder (affineStages cs pu stop getInterMergeSubPuMvpCand) := by
  have limit : StopsEarly fun _ =>
      Stage.limit (α := AffineMergeCand) cs.slice.maxNumAffineMergeCand :=
    (Keeps.limit _).stopsEarly
  unfold affineStages
  dsimp only
  refine (subPuStage_stopsEarly _).next (StopsEarly.next ?_ (StopsEarly.next ?_ StopsEarly.done))
  · cases cs.slice.useAffine with
    | false => simpa only [Bool.false_eq_true, if_false] using Keeps.running.stopsEarly
    | true =>
        simp only [if_true]
        refine (StopsEarly.all _ fun puNeigh => (StopsEarly.append _).followedBy limit).followedBy
          (StopsEarly.all _ fun modelIdx => (constructedStage_stopsEarly modelIdx).followedBy limit)
  · refine @StopsEarly.dependent _ _ (fun stop left => Stage.inOrder (List.replicate left
      (Stage.append stop fun list => affineZeroCand cs (list.entry list.count))))
        (fun list => cs.slice.maxNumAffineMergeCand - list.count) fun left => ?_
    induction left with
    | zero => exact StopsEarly.done
    | succ left ih => exact (StopsEarly.append _).next ih

/-- The buffer at the start of the derivation. -/
def AffineMergeCtx.start (affMrgCtx : AffineMergeCtx) (most : Nat) : Listing AffineMergeCand where
  entry i := if i < most then .reset else affMrgCtx.cand i
  count := 0

theorem getAffineMergeCand_eq (stop : Int) (getInterMergeSubPuMvpCand : SubPuMvp)
    (affMrgCtx : AffineMergeCtx) :
    getAffineMergeCand cs pu stop getInterMergeSubPuMvpCand affMrgCtx =
      (Stage.inOrder (affineStages cs pu stop getInterMergeSubPuMvpCand)
        (affMrgCtx.start cs.slice.maxNumAffineMergeCand)).finish
          (fun list => ⟨list.entry, list.count⟩) fun list => ⟨list.entry, list.count⟩ := by
  have start : affMrgCtx.start cs.slice.maxNumAffineMergeCand =
      ⟨fun i => if i < cs.slice.maxNumAffineMergeCand then .reset else affMrgCtx.cand i, 0⟩ := rfl
  unfold getAffineMergeCand
  rw [start]
  cases Stage.inOrder (affineStages cs pu stop getInterMergeSubPuMvpCand)
    ⟨fun i => if i < cs.slice.maxNumAffineMergeCand then .reset else affMrgCtx.cand i, 0⟩ <;> rfl

theorem getAffineMergeCand_early (getInterMergeSubPuMvpCand : SubPuMvp)
    {affMrgCtx full : AffineMergeCtx} (i : Nat)
    (run : getAffineMergeCand cs pu (-1) getInterMergeSubPuMvpCand affMrgCtx = .ok full) :
    ∃ part, getAffineMergeCand cs pu i getInterMergeSubPuMvpCand affMrgCtx = .ok part ∧
      part.cand i = full.cand i := by
  rw [getAffineMergeCand_eq] at run ⊢
  exact (affineStages_stopsEarly _).finish AffineMergeCtx.cand (fun _ => rfl)
    (fun _ => rfl) i run

/-! ## Intra block copy -/

theorem ibcSpatialStage_stopsEarly (taken : Bool) (mi : MotionInfo) :
    StopsEarly fun stop => ibcSpatialStage stop taken mi := by
  unfold ibcSpatialStage
  cases taken with
  | false => simpa only [Bool.false_eq_true, if_false] using Keeps.running.stopsEarly
  | true => simpa only [if_true] using StopsEarly.append _

theorem ibcStages_stopsEarly : StopsEarly fun stop => Stage.inOrder (ibcStages cs pu stop) := by
  have limit : StopsEarly fun _ => Stage.limit (α := MergeCand) cs.slice.maxNumIBCMergeCand :=
    (Keeps.limit _).stopsEarly
  unfold ibcStages
  refine (ibcSpatialStage_stopsEarly _ _).next (limit.next ?_)
  refine (ibcSpatialStage_stopsEarly _ _).next (limit.next ?_)
  exact (addMergeHMVPCand_stopsEarly _ _ _ _ _ _).next StopsEarly.done

/-- The stored motions that are taken, from the `mrgIdx`-th latest on. -/
def takenHistory (n : Neighbours) (isGt4x4 : Bool) : Nat → List MotionInfo → Nat
  | _, [] => 0
  | mrgIdx, mi :: older =>
      (if takesHistory n true isGt4x4 mrgIdx mi then 1 else 0) +
        takenHistory n isGt4x4 (mrgIdx + 1) older

/-- The candidates that the neighbours give. -/
def ibcSpatialFound (cs : CodingStructure) (pu : PredictionUnit) : Nat :=
  let n := neighboursOf cs pu CodingUnit.isIBC
  (if isGt4x4 pu && n.isAvailableA1 then 1 else 0) +
    if isGt4x4 pu && n.isAvailableB1 && (!n.isAvailableA1 || !n.miAbove.same n.miLeft) then 1 else 0

/-- The candidates that are found in front of the zero candidates. -/
def ibcFound (cs : CodingStructure) (pu : PredictionUnit) : Nat :=
  let n := neighboursOf cs pu CodingUnit.isIBC
  let read := if isGt4x4 pu then n else { n with miAbove := .default, miLeft := .default }
  min cs.slice.maxNumIBCMergeCand
    (ibcSpatialFound cs pu + takenHistory read (isGt4x4 pu) 1 cs.lutIbc.reverse)

/-- A list of a length, and behind it candidates as they are reset. -/
def FoundList (most count : Nat) (list : Listing MergeCand) : Prop :=
  list.count = count ∧ ∀ j, count ≤ j → j < most → (list.entry j).interDirNeighbours = 0

theorem FoundList.push {most count : Nat} {list : Listing MergeCand}
    (found : FoundList most count list) (cand : MergeCand) :
    FoundList most (count + 1) (list.push cand) := by
  refine ⟨congrArg (· + 1) found.1, fun j behind inside => ?_⟩
  have apart : j ≠ list.count := by
    have same := found.1
    omega
  rw [Listing.push_entry_of_ne apart]
  exact found.2 j (by omega) inside

variable {most found : Nat}

theorem ibcSpatialStage_permits (taken : Bool) (mi : MotionInfo) (Q : Listing MergeCand → Prop) :
    Permits (FoundList most found) (ibcSpatialStage (-1) taken mi) Q
      (FoundList most (found + if taken then 1 else 0)) := by
  unfold ibcSpatialStage
  cases taken with
  | false => exact fun list inv => inv
  | true => exact Permits.append fun list cand inv _ => inv.push cand

theorem historyLoop_permits (isInterB : Bool) (n : Neighbours) (isGt4x4 : Bool) (mrgIdx : Nat)
    (lut : List MotionInfo) (room : found < most) (Q : Listing MergeCand → Prop) :
    Permits (FoundList most found) (historyLoop isInterB n true isGt4x4 (-1) most mrgIdx lut) Q
      (FoundList most (min most (found + takenHistory n isGt4x4 mrgIdx lut))) := by
  induction lut generalizing mrgIdx found with
  | nil =>
      have same : min most (found + takenHistory n isGt4x4 mrgIdx []) = found := by
        unfold takenHistory
        omega
      rw [same]
      exact fun list inv => inv
  | cons mi older ih =>
      unfold historyLoop takenHistory
      cases taken : takesHistory n true isGt4x4 mrgIdx mi with
      | false =>
          simp only [Bool.false_eq_true, if_false, Nat.zero_add]
          exact ih (mrgIdx + 1) room
      | true =>
          simp only [if_true]
          refine Permits.followedBy (R := FoundList most (found + 1))
            (Permits.append fun list cand inv _ => inv.push cand) fun list inv => ?_
          unfold Stage.choose
          by_cases full : list.count = most
          · have same : min most (found + (1 + takenHistory n isGt4x4 (mrgIdx + 1) older)) =
                found + 1 := by
              have count := inv.1
              omega
            rw [if_pos full, same]
            exact inv
          · have count := inv.1
            rw [if_neg full, ← Nat.add_assoc]
            exact ih (mrgIdx + 1) (by omega) list inv

theorem addMergeHMVPCand_permits (isInterB : Bool) (n : Neighbours) (isGt4x4 : Bool)
    (lut : List MotionInfo) (room : found < most) (Q : Listing MergeCand → Prop) :
    Permits (FoundList most found) (addMergeHMVPCand isInterB n true isGt4x4 (-1) most lut) Q
      (FoundList most (min most (found + takenHistory n isGt4x4 1 lut.reverse))) := by
  refine (historyLoop_permits isInterB n isGt4x4 1 lut.reverse room Q).followedBy fun list inv => ?_
  unfold Stage.when Stage.choose
  split
  · refine ⟨inv.1, fun j behind inside => ?_⟩
    by_cases here : j = list.count
    · rw [here, Listing.store_entry_count]
      exact inv.2 list.count (Nat.le_of_eq inv.1.symm) (here ▸ inside)
    · rw [Listing.store_entry_of_ne here]
      exact inv.2 j behind inside
  · exact inv

/-- The stages in front of the zero candidates, without a candidate that is asked for. -/
theorem ibcStages_permits (some : 1 ≤ cs.slice.maxNumIBCMergeCand) :
    let most := cs.slice.maxNumIBCMergeCand
    Permits (FoundList most 0) (Stage.inOrder (ibcStages cs pu (-1)))
      (fun list => list.count = most ∧ ibcFound cs pu = most) (FoundList most (ibcFound cs pu)) := by
  intro most
  unfold ibcStages
  dsimp only
  set n := neighboursOf cs pu CodingUnit.isIBC with n_eq
  set left : Bool := isGt4x4 pu && n.isAvailableA1 with left_eq
  set above : Bool := isGt4x4 pu && n.isAvailableB1 && (!n.isAvailableA1 || !n.miAbove.same n.miLeft)
    with above_eq
  have spatial : ibcSpatialFound cs pu = (if left then 1 else 0) + if above then 1 else 0 := rfl
  have leftOne : (if left then 1 else 0) ≤ 1 := by split <;> omega
  have aboveOne : (if above then 1 else 0) ≤ 1 := by split <;> omega
  obtain ⟨taken, total⟩ : ∃ taken, ibcFound cs pu = min most (ibcSpatialFound cs pu + taken) :=
    ⟨_, rfl⟩
  refine (ibcSpatialStage_permits left n.miLeft _).next
    (Permits.next (Permits.limit ?_) fun list inv => ?_)
  · rintro list ⟨count, -⟩ full
    refine ⟨full, ?_⟩
    omega
  have within : ibcSpatialFound cs pu ≤ most := by
    have count := inv.1.1
    have short := inv.2
    omega
  have both : Permits (FoundList most (0 + if left then 1 else 0))
      (ibcSpatialStage (-1) above n.miAbove) (fun list => list.count = most ∧ ibcFound cs pu = most)
      (FoundList most (ibcSpatialFound cs pu)) := by
    have sum : ibcSpatialFound cs pu = 0 + (if left then 1 else 0) + if above then 1 else 0 := by
      rw [spatial, Nat.zero_add]
    rw [sum]
    exact ibcSpatialStage_permits above n.miAbove _
  refine both.next (Permits.next (Permits.limit ?_)
    (Permits.next (fun list inv => ?_) Permits.done)) list inv.1
  · rintro list ⟨count, -⟩ full
    refine ⟨full, ?_⟩
    omega
  · obtain ⟨found, short⟩ := inv
    have room : ibcSpatialFound cs pu < most := by
      have count := found.1
      omega
    exact addMergeHMVPCand_permits _ _ _ _ room _ list found

theorem ibcZeroLoop_full (left : Nat) (list : Listing MergeCand) :
    ∃ full, ibcZeroLoop (-1) left list = .running full ∧
      (∀ j < list.count, full.entry j = list.entry j) ∧
      ∀ j, list.count ≤ j → j < list.count + left → (full.entry j).interDirNeighbours = 1 := by
  induction left generalizing list with
  | zero => exact ⟨list, rfl, fun _ _ => rfl, fun j low high => absurd high (by omega)⟩
  | succ left ih =>
      have off (count : Nat) : ¬ (-1 : Int) = count := by omega
      unfold ibcZeroLoop
      rw [setMvField_eq fun _ => rfl]
      dsimp only
      rw [if_neg (off _)]
      obtain ⟨full, run, before, zeros⟩ := ih (list.push
        { list.entry list.count with
          interDirNeighbours := 1
          mvFieldNeighbours := Function.update (list.entry list.count).mvFieldNeighbours
            .REF_PIC_LIST_0 ⟨.zero, MAX_NUM_REF⟩ })
      refine ⟨full, run, fun j inside => ?_, fun j low high => ?_⟩
      · rw [before j (Nat.lt_succ_of_lt inside), Listing.push_entry_of_ne (Nat.ne_of_lt inside)]
      · by_cases here : j = list.count
        · rw [here, before list.count (Nat.lt_succ_self _), Listing.push_entry_count]
        · exact zeros j (by rw [Listing.push_count]; omega) (by rw [Listing.push_count]; omega)

/-- The loop does not stop for a candidate in front of it, nor for its first one. -/
theorem ibcZeroLoop_of_le (left : Nat) {i : Nat} {list : Listing MergeCand} (before : i ≤ list.count) :
    ibcZeroLoop i left list = ibcZeroLoop (-1) left list := by
  induction left generalizing list with
  | zero => rfl
  | succ left ih =>
      unfold ibcZeroLoop
      rw [setMvField_eq fun _ => rfl]
      dsimp only
      rw [if_neg (by rw [Listing.push_count]; omega), if_neg (by rw [Listing.push_count]; omega)]
      exact ih (Nat.le_succ_of_le before)

/-- The loop stops in front of a later candidate. -/
theorem ibcZeroLoop_of_gt {left i : Nat} {list : Listing MergeCand} (behind : list.count < i)
    (inside : i < list.count + left) :
    ∃ early, ibcZeroLoop i left list = .returned early ∧ early.entry i = list.entry i := by
  induction left generalizing list with
  | zero => omega
  | succ left ih =>
      unfold ibcZeroLoop
      rw [setMvField_eq fun _ => rfl]
      dsimp only
      by_cases last : (i : Int) = (list.count + 1 : Nat)
      · rw [Listing.push_count, if_pos last]
        exact ⟨_, rfl, Listing.push_entry_of_ne (by omega)⟩
      · rw [Listing.push_count, if_neg last]
        obtain ⟨early, run, same⟩ := @ih (list.push
          { list.entry list.count with
            interDirNeighbours := 1
            mvFieldNeighbours := Function.update (list.entry list.count).mvFieldNeighbours
              .REF_PIC_LIST_0 ⟨.zero, MAX_NUM_REF⟩ }) (by rw [Listing.push_count]; omega)
          (by rw [Listing.push_count]; omega)
        exact ⟨early, run, same.trans (Listing.push_entry_of_ne (by omega))⟩

theorem getIBCMergeCandidates_eq (stop : Int) (mrgCtx : MergeCtx) :
    getIBCMergeCandidates cs pu stop mrgCtx =
      ((Stage.inOrder (ibcStages cs pu stop)).followedBy
        (fun list => ibcZeroLoop stop (cs.slice.maxNumIBCMergeCand - list.count) list)
          (mrgCtx.start cs.slice.maxNumIBCMergeCand .MRG_TYPE_IBC)).finish
            (fun list => ⟨list.entry, cs.slice.maxNumIBCMergeCand⟩)
              fun list => ⟨list.entry, list.count⟩ := by
  unfold getIBCMergeCandidates
  dsimp only
  cases (Stage.inOrder (ibcStages cs pu stop)).followedBy
    (fun list => ibcZeroLoop stop (cs.slice.maxNumIBCMergeCand - list.count) list)
      (mrgCtx.start cs.slice.maxNumIBCMergeCand .MRG_TYPE_IBC) <;> rfl

/-- The candidate that is asked for is the one of the whole list as far as the first zero
candidate. -/
theorem getIBCMergeCandidates_early {mrgCtx full : MergeCtx} {i : Nat}
    (inside : i < cs.slice.maxNumIBCMergeCand)
    (run : getIBCMergeCandidates cs pu (-1) mrgCtx = .ok full) :
    ∃ part, getIBCMergeCandidates cs pu i mrgCtx = .ok part ∧
      (part.cand i = full.cand i ↔ i ≤ ibcFound cs pu) := by
  have start : FoundList cs.slice.maxNumIBCMergeCand 0
      (mrgCtx.start cs.slice.maxNumIBCMergeCand .MRG_TYPE_IBC) := by
    refine ⟨rfl, fun j _ within => ?_⟩
    unfold MergeCtx.start
    dsimp only
    rw [if_pos within]
    rfl
  have stages := @ibcStages_permits cs pu (by omega) _ start
  have asked := (@ibcStages_stopsEarly cs pu).agrees
    (mrgCtx.start cs.slice.maxNumIBCMergeCand .MRG_TYPE_IBC) i
  rw [getIBCMergeCandidates_eq] at run ⊢
  unfold Stage.followedBy at run ⊢
  cases whole : Stage.inOrder (ibcStages cs pu (-1))
      (mrgCtx.start cs.slice.maxNumIBCMergeCand .MRG_TYPE_IBC) with
  | failed message =>
      rw [whole] at run
      cases run
  | returned list =>
      -- the list is full without a zero candidate
      rw [whole] at run stages asked
      obtain ⟨-, all⟩ := stages
      have below : i ≤ ibcFound cs pu := by omega
      have result : full.cand i = list.entry i := by rw [← Except.ok.inj run]
      rcases asked with same | ⟨early, stopped, held⟩
      · rw [same]
        exact ⟨_, rfl, iff_of_true result.symm below⟩
      · rw [stopped]
        exact ⟨_, rfl, iff_of_true (held.symm.trans result.symm) below⟩
  | running list =>
      rw [whole] at run stages asked
      obtain ⟨count, blank⟩ := stages
      obtain ⟨after, loop, before, zeros⟩ :=
        ibcZeroLoop_full (cs.slice.maxNumIBCMergeCand - list.count) list
      dsimp only [Outcome.andThen] at run
      rw [loop] at run
      have result : full.cand i = after.entry i := by rw [← Except.ok.inj run]
      rcases asked with same | ⟨early, stopped, held⟩
      · rw [same]
        dsimp only [Outcome.andThen]
        by_cases below : i ≤ ibcFound cs pu
        · rw [ibcZeroLoop_of_le _ (count ▸ below), loop]
          exact ⟨_, rfl, iff_of_true result.symm below⟩
        · obtain ⟨early, stopped, untouched⟩ := @ibcZeroLoop_of_gt
            (cs.slice.maxNumIBCMergeCand - list.count) i list (by omega) (by omega)
          rw [stopped]
          refine ⟨_, rfl, iff_of_false (fun equal => ?_) below⟩
          have reset := blank i (by omega) inside
          have zero := zeros i (by omega) (by omega)
          rw [← untouched] at reset
          rw [result] at equal
          dsimp only at equal
          rw [equal, zero] at reset
          exact one_ne_zero reset
      · rw [stopped]
        have below : i ≤ ibcFound cs pu := by
          have reached := held.1
          omega
        refine ⟨_, rfl, iff_of_true ?_ below⟩
        rw [result, before i held.1]
        exact held.2.symm

end

/-- A picture without neighbours and history. -/
def nothingAround : CodingStructure :=
  { aboveOnly with
    getPURestricted := fun _ => none
    lut := []
    lutIbc := [] }

/-- The second zero candidate is not stored when it is asked for. -/
theorem nothingAround_second :
    ∃ full part, getIBCMergeCandidates nothingAround (interUnit 0) (-1) emptyMergeCtx = .ok full ∧
      getIBCMergeCandidates nothingAround (interUnit 0) (1 : Nat) emptyMergeCtx = .ok part ∧
      (full.cand 1).interDirNeighbours = 1 ∧ (part.cand 1).interDirNeighbours = 0 :=
  ⟨_, _, rfl, rfl, rfl, rfl⟩

/-- The candidate that is asked for, against the one of the whole list: the same for inter and
affine candidates, and for intra block copy up to the first zero candidate. -/
theorem mrgCandIdx_early (cs : CodingStructure) (pu : PredictionUnit) :
    (∀ (mrgCtx full : MergeCtx) (i : Nat), getInterMergeCandidates cs pu (-1) mrgCtx = .ok full →
      ∃ part, getInterMergeCandidates cs pu i mrgCtx = .ok part ∧ part.cand i = full.cand i) ∧
    (∀ (getInterMergeSubPuMvpCand : SubPuMvp) (affMrgCtx full : AffineMergeCtx) (i : Nat),
      getAffineMergeCand cs pu (-1) getInterMergeSubPuMvpCand affMrgCtx = .ok full →
        ∃ part, getAffineMergeCand cs pu i getInterMergeSubPuMvpCand affMrgCtx = .ok part ∧
          part.cand i = full.cand i) ∧
    ∀ (mrgCtx full : MergeCtx) (i : Nat), i < cs.slice.maxNumIBCMergeCand →
      getIBCMergeCandidates cs pu (-1) mrgCtx = .ok full →
        ∃ part, getIBCMergeCandidates cs pu i mrgCtx = .ok part ∧
          (part.cand i = full.cand i ↔ i ≤ ibcFound cs pu) :=
  ⟨fun _ _ i run => getInterMergeCandidates_early i run,
    fun _ _ _ i run => getAffineMergeCand_early _ i run,
    fun _ _ _ inside run => getIBCMergeCandidates_early inside run⟩

/-- A motion of the first list. -/
def uniMotion (hor : Int) : MotionInfo :=
  { biMotion with
    interDir := 1
    mv := fun X => if X = .REF_PIC_LIST_0 then ⟨hor, 16⟩ else .zero
    refIdx := fun X => if X = .REF_PIC_LIST_0 then 0 else NOT_VALID }

/-- A stored block vector. -/
def blockVector (hor : Int) : MotionInfo :=
  { uniMotion hor with
    isIBCmot := true
    refIdx := fun X => if X = .REF_PIC_LIST_0 then MAX_NUM_REF else NOT_VALID }

def ibcUnit (address : Nat) : PredictionUnit :=
  { interUnit address with
    cu := { (interUnit address).cu with predMode := .MODE_IBC }
    interDir := 1
    getMotionInfo := fun _ => blockVector (-320) }

/-- An affine unit above, a unit with intra block copy to the left, and two motions in
either history. -/
def surrounded : CodingStructure :=
  { aboveOnly with
    slice := { aboveOnly.slice with sbtmvpEnabledFlag := true }
    getPURestricted := fun pos =>
      if pos.y < 64 then some { interUnit 1 with
        Y := ⟨⟨64, 48⟩, 16, 16⟩
        cu := { (interUnit 1).cu with affine := true }
        mvAffi := fun _ n => ⟨16 + n, -16⟩ }
      else if pos.x < 64 then some { ibcUnit 2 with Y := ⟨⟨56, 64⟩, 8, 8⟩ }
      else none
    lut := [uniMotion 24, uniMotion 32]
    lutIbc := [blockVector (-640), blockVector (-960)] }

def emptyAffineMergeCtx : AffineMergeCtx := ⟨fun _ => .reset, 0⟩

/-- A collocated motion for the sub-blocks. -/
def colocatedCand : MergeCand :=
  ⟨3, GBI_DEFAULT, .MRG_TYPE_SUBPU_ATMVP, false, fun _ => ⟨⟨4, 4⟩, 0⟩⟩

theorem exists_of_toOption {α β : Type} {run : Checked α} {f : α → β} {value : β}
    (result : run.toOption.map f = some value) : ∃ full, run = .ok full ∧ f full = value := by
  cases run with
  | error message => cases result
  | ok full => exact ⟨full, rfl, Option.some.inj result⟩

/-- The older motion of the history, the inherited model and the older block vector. -/
theorem mrgCandIdx_early_surrounded :
    (∃ full part, getInterMergeCandidates surrounded (interUnit 0) (-1) emptyMergeCtx = .ok full ∧
      getInterMergeCandidates surrounded (interUnit 0) (3 : Nat) emptyMergeCtx = .ok part ∧
      part.cand 3 = full.cand 3 ∧
      (full.cand 3).mvFieldNeighbours .REF_PIC_LIST_0 = ⟨⟨24, 16⟩, 0⟩) ∧
    (∃ full part, getAffineMergeCand surrounded (interUnit 0) (-1) (fun _ => some colocatedCand)
        emptyAffineMergeCtx = .ok full ∧
      getAffineMergeCand surrounded (interUnit 0) (1 : Nat) (fun _ => some colocatedCand)
        emptyAffineMergeCtx = .ok part ∧
      part.cand 1 = full.cand 1 ∧
      (full.cand 1).mvFieldNeighbours .REF_PIC_LIST_0 0 = ⟨⟨16, -15⟩, 0⟩) ∧
    ∃ full part, getIBCMergeCandidates surrounded (ibcUnit 0) (-1) emptyMergeCtx = .ok full ∧
      getIBCMergeCandidates surrounded (ibcUnit 0) (2 : Nat) emptyMergeCtx = .ok part ∧
      part.cand 2 = full.cand 2 ∧
      (full.cand 2).mvFieldNeighbours .REF_PIC_LIST_0 = ⟨⟨-640, 16⟩, MAX_NUM_REF⟩ := by
  obtain ⟨inter, affine, -⟩ := mrgCandIdx_early surrounded (interUnit 0)
  obtain ⟨-, -, ibc⟩ := mrgCandIdx_early surrounded (ibcUnit 0)
  refine ⟨?_, ?_, ?_⟩
  · have older : (getInterMergeCandidates surrounded (interUnit 0) (-1) emptyMergeCtx).toOption.map
        (fun full => (full.cand 3).mvFieldNeighbours .REF_PIC_LIST_0) = some ⟨⟨24, 16⟩, 0⟩ := by
      decide +kernel
    obtain ⟨full, run, found⟩ := exists_of_toOption older
    obtain ⟨part, asked, same⟩ := inter emptyMergeCtx full 3 run
    exact ⟨full, part, run, asked, same, found⟩
  · have inherited : (getAffineMergeCand surrounded (interUnit 0) (-1) (fun _ => some colocatedCand)
        emptyAffineMergeCtx).toOption.map
          (fun full => (full.cand 1).mvFieldNeighbours .REF_PIC_LIST_0 0) =
            some ⟨⟨16, -15⟩, 0⟩ := by
      decide +kernel
    obtain ⟨full, run, found⟩ := exists_of_toOption inherited
    obtain ⟨part, asked, same⟩ := affine _ emptyAffineMergeCtx full 1 run
    exact ⟨full, part, run, asked, same, found⟩
  · have older : (getIBCMergeCandidates surrounded (ibcUnit 0) (-1) emptyMergeCtx).toOption.map
        (fun full => (full.cand 2).mvFieldNeighbours .REF_PIC_LIST_0) =
          some ⟨⟨-640, 16⟩, MAX_NUM_REF⟩ := by
      decide +kernel
    obtain ⟨full, run, found⟩ := exists_of_toOption older
    obtain ⟨part, asked, same⟩ := ibc emptyMergeCtx full 2 (by decide) run
    have two : 2 ≤ ibcFound surrounded (ibcUnit 0) := by decide
    exact ⟨full, part, run, asked, same.mpr two, found⟩

/-- Not every candidate for intra block copy is the one of the whole list. -/
theorem not_ibc_early : ¬ ∀ (cs : CodingStructure) (pu : PredictionUnit) (mrgCtx full : MergeCtx)
    (i : Nat), i < cs.slice.maxNumIBCMergeCand → getIBCMergeCandidates cs pu (-1) mrgCtx = .ok full →
      ∃ part, getIBCMergeCandidates cs pu i mrgCtx = .ok part ∧ part.cand i = full.cand i := by
  intro always
  obtain ⟨full, early, run, asked, one, zero⟩ := nothingAround_second
  obtain ⟨part, asked', same⟩ := always nothingAround (interUnit 0) emptyMergeCtx full 1 (by decide) run
  rw [asked] at asked'
  rw [← Except.ok.inj asked'] at same
  rw [same, one] at zero
  exact one_ne_zero zero

end Vtm.Motion
