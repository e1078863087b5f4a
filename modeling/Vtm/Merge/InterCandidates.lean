import Vtm.Common.MergeCandidates

/-!
# The inter merge list

Every list of `getInterMergeCandidates` is complete, and its candidates are valid if the motions
that are stored for the neighbours and in the history are: `getInterMergeCandidates_complete`.
-/

namespace Vtm.Motion

open RefPics (RefPicList)
open Vtm.Std (Listing Stage)

/-- The active reference pictures of a list that the slice uses. -/
def Slice.activeCount (slice : Slice) : RefPicList → Nat
  | .REF_PIC_LIST_0 => slice.getNumRefIdx .REF_PIC_LIST_0
  | .REF_PIC_LIST_1 => if slice.isInterB then slice.getNumRefIdx .REF_PIC_LIST_1 else 0

/-- A direction names a list. -/
def Names (interDir : Nat) (X : RefPicList) : Prop := interDir / listBit X % 2 = 1

instance (interDir : Nat) (X : RefPicList) : Decidable (Names interDir X) :=
  inferInstanceAs (Decidable (_ = _))

/-- Active references exactly for the lists that the direction names, and it names one. -/
structure ValidMotion (slice : Slice) (interDir : Nat) (refIdx : RefPicList → Int) : Prop where
  direction : 1 ≤ interDir ∧ interDir ≤ 3
  named : ∀ X, Names interDir X → 0 ≤ refIdx X ∧ refIdx X < slice.activeCount X
  other : ∀ X, ¬ Names interDir X → refIdx X = NOT_VALID

/-- A stored motion is valid, without a vector for a list that it does not use. -/
structure ValidStored (slice : Slice) (mi : MotionInfo) : Prop where
  motion : ValidMotion slice mi.interDir mi.refIdx
  unused : ∀ X, mi.refIdx X = NOT_VALID → mi.mv X = .zero

/-- A candidate is valid, and has a weight only if it is bi-predicted. -/
structure ValidCand (slice : Slice) (cand : MergeCand) : Prop where
  motion : ValidMotion slice cand.interDirNeighbours fun X => (cand.mvFieldNeighbours X).refIdx
  weight : cand.GBiIdx ≠ GBI_DEFAULT → cand.interDirNeighbours = 3

/-- A candidate as it is reset. -/
structure Fresh (cand : MergeCand) : Prop where
  refIdx : ∀ X, (cand.mvFieldNeighbours X).refIdx = NOT_VALID
  weight : cand.GBiIdx = GBI_DEFAULT

/-! ## Directions -/

/-- The direction that names the lists with a reference. -/
@[grind =] def dirOf (refIdx : RefPicList → Int) : Nat :=
  (if refIdx .REF_PIC_LIST_0 ≠ NOT_VALID then 1 else 0) +
    if refIdx .REF_PIC_LIST_1 ≠ NOT_VALID then 2 else 0

section

variable {slice : Slice} {interDir : Nat} {refIdx : RefPicList → Int}

theorem names_dirOf (X : RefPicList) : Names (dirOf refIdx) X ↔ refIdx X ≠ NOT_VALID := by
  unfold Names dirOf
  cases X with
  | REF_PIC_LIST_0 =>
      simp only [listBit]
      split <;> split <;> simp_all
  | REF_PIC_LIST_1 =>
      simp only [listBit]
      split <;> split <;> simp_all

/-- A valid motion by its references. -/
theorem validMotion_iff :
    ValidMotion slice interDir refIdx ↔ interDir = dirOf refIdx ∧ interDir ≠ 0 ∧
      ∀ X, refIdx X = NOT_VALID ∨ 0 ≤ refIdx X ∧ refIdx X < slice.activeCount X := by
  constructor
  · rintro ⟨⟨low, high⟩, named, other⟩
    have reference (X : RefPicList) : Names interDir X ↔ refIdx X ≠ NOT_VALID := by
      constructor
      · intro names
        have active := (named X names).1
        unfold NOT_VALID
        omega
      · intro valid
        by_contra names
        exact valid (other X names)
    refine ⟨?_, by omega, fun X => ?_⟩
    · have first := reference .REF_PIC_LIST_0
      have second := reference .REF_PIC_LIST_1
      simp only [Names, listBit] at first second
      unfold dirOf
      simp only [← first, ← second]
      split <;> split <;> omega
    · by_cases names : Names interDir X
      · exact Or.inr (named X names)
      · exact Or.inl (other X names)
  · rintro ⟨rfl, some, active⟩
    refine ⟨?_, fun X names => ?_, fun X names => ?_⟩
    · have most : dirOf refIdx ≤ 3 := by
        unfold dirOf
        split <;> split <;> omega
      omega
    · exact (active X).resolve_left ((names_dirOf X).mp names)
    · by_contra valid
      exact names ((names_dirOf X).mpr valid)

/-- In a P slice only the first list is used. -/
theorem ValidMotion.interDir_eq_one (valid : ValidMotion slice interDir refIdx)
    (single : slice.isInterB = false) : interDir = 1 := by
  obtain ⟨⟨low, high⟩, named, -⟩ := valid
  have single_ : ¬ Names interDir .REF_PIC_LIST_1 := fun names => by
    have active := named .REF_PIC_LIST_1 names
    simp only [Slice.activeCount, single] at active
    exact absurd (lt_of_le_of_lt active.1 active.2) (lt_irrefl 0)
  simp only [Names, listBit] at single_
  omega

end

/-! ## The fields of a candidate -/

section

variable {slice : Slice} {mi : MotionInfo} {cand : MergeCand}

theorem setMvField_eq {X : RefPicList} {mv : Mv} {refIdx : Int}
    (unused : refIdx = NOT_VALID → mv = .zero) :
    cand.setMvField X mv refIdx =
      .ok { cand with mvFieldNeighbours := Function.update cand.mvFieldNeighbours X ⟨mv, refIdx⟩ } := by
  have passes : ¬ (refIdx = NOT_VALID ∧ mv ≠ .zero) := fun both => both.2 (unused both.1)
  unfold MergeCand.setMvField MvField.setMvField
  rw [if_neg passes]
  rfl

/-- The references of a stored motion, whichever lists the slice uses. -/
theorem setMotion_spec (stored : ValidStored slice mi)
    (unset : ∀ X, (cand.mvFieldNeighbours X).refIdx = NOT_VALID) :
    ∃ after, cand.setMotion slice.isInterB mi = .ok after ∧
      (∀ X, (after.mvFieldNeighbours X).refIdx = mi.refIdx X) ∧
        after.interDirNeighbours = cand.interDirNeighbours ∧ after.GBiIdx = cand.GBiIdx := by
  unfold MergeCand.setMotion
  rw [setMvField_eq (stored.unused .REF_PIC_LIST_0)]
  cases twoLists : slice.isInterB with
  | true =>
      refine ⟨_, setMvField_eq (stored.unused .REF_PIC_LIST_1), fun X => ?_, rfl, rfl⟩
      cases X <;> rfl
  | false =>
      refine ⟨_, rfl, fun X => ?_, rfl, rfl⟩
      cases X with
      | REF_PIC_LIST_0 => rfl
      | REF_PIC_LIST_1 =>
          have one := stored.motion.interDir_eq_one twoLists
          have none : mi.refIdx .REF_PIC_LIST_1 = NOT_VALID :=
            stored.motion.other _ (by rw [one]; decide)
          rw [none]
          exact unset .REF_PIC_LIST_1

theorem validCand_of_motion (stored : ValidStored slice mi)
    (refIdx : ∀ X, (cand.mvFieldNeighbours X).refIdx = mi.refIdx X)
    (interDir : cand.interDirNeighbours = mi.interDir)
    (weight : cand.GBiIdx ≠ GBI_DEFAULT → mi.interDir = 3) : ValidCand slice cand := by
  refine ⟨?_, fun weighted => interDir.trans (weight weighted)⟩
  have same : (fun X => (cand.mvFieldNeighbours X).refIdx) = mi.refIdx := funext refIdx
  rw [interDir, same]
  exact stored.motion

theorem weight_of_ite {interDir weight : Nat}
    (weighted : (if interDir = 3 then weight else GBI_DEFAULT) ≠ GBI_DEFAULT) : interDir = 3 := by
  by_contra single
  exact weighted (if_neg single)

theorem spatialCand_spec (other : PredictionUnit) (stored : ValidStored slice mi)
    (fresh : Fresh cand) :
    ∃ after, spatialCand slice.isInterB other mi cand = .ok after ∧ ValidCand slice after := by
  obtain ⟨after, run, refIdx, interDir, weight⟩ := @setMotion_spec slice mi
    { cand with
      interDirNeighbours := mi.interDir
      useAltHpelIf := mi.useAltHpelIf
      GBiIdx := if mi.interDir = 3 then other.cu.GBiIdx else GBI_DEFAULT } stored fresh.refIdx
  exact ⟨after, run, validCand_of_motion stored refIdx interDir
    fun weighted => weight_of_ite (weight ▸ weighted)⟩

theorem historyCand_spec (ibcFlag : Bool) (stored : ValidStored slice mi) (fresh : Fresh cand) :
    ∃ after, historyCand slice.isInterB ibcFlag mi cand = .ok after ∧ ValidCand slice after := by
  obtain ⟨after, run, refIdx, interDir, weight⟩ := @setMotion_spec slice mi
    { cand with
      interDirNeighbours := mi.interDir
      useAltHpelIf := !ibcFlag && mi.useAltHpelIf
      GBiIdx := if mi.interDir = 3 then mi.GBiIdx else GBI_DEFAULT } stored fresh.refIdx
  exact ⟨after, run, validCand_of_motion stored refIdx interDir
    fun weighted => weight_of_ite (weight ▸ weighted)⟩

/-- The slice has an active reference in each list that it uses. -/
structure HasReferences (slice : Slice) : Prop where
  list0 : 1 ≤ slice.getNumRefIdx .REF_PIC_LIST_0
  list1 : slice.isInterB = true → 1 ≤ slice.getNumRefIdx .REF_PIC_LIST_1

theorem activeCount_list1 (twoLists : slice.isInterB = true) :
    slice.activeCount .REF_PIC_LIST_1 = slice.getNumRefIdx .REF_PIC_LIST_1 := if_pos twoLists

theorem setTemporal_spec (X : RefPicList) (mv : Option Mv) :
    ∃ after, cand.setTemporal X mv = .ok after ∧
      (after.mvFieldNeighbours X).refIdx =
        (if mv.isSome then 0 else (cand.mvFieldNeighbours X).refIdx) ∧
      ∀ Y ≠ X, after.mvFieldNeighbours Y = cand.mvFieldNeighbours Y := by
  cases mv with
  | none => exact ⟨cand, rfl, rfl, fun _ _ => rfl⟩
  | some mv =>
      have valid : (0 : Int) ≠ NOT_VALID := by decide
      refine ⟨_, setMvField_eq fun none => absurd none valid, ?_, fun Y other => ?_⟩
      · dsimp only
        rw [Function.update_self]
        rfl
      · exact Function.update_of_ne other _ _

theorem temporalCand_spec {cs : CodingStructure} {pu : PredictionUnit}
    (references : HasReferences cs.slice) (exists_ : hasTemporal cs pu = true) (fresh : Fresh cand) :
    ∃ after, temporalCand cs pu cand = .ok after ∧ ValidCand cs.slice after := by
  have first : (0 : Int) < cs.slice.activeCount .REF_PIC_LIST_0 := Int.ofNat_lt.mpr references.list0
  obtain ⟨cand0, run0, here0, rest0⟩ :=
    @setTemporal_spec cand .REF_PIC_LIST_0 (cs.temporalMv pu .REF_PIC_LIST_0 0)
  set mv1 := if cs.slice.isInterB then cs.temporalMv pu .REF_PIC_LIST_1 0 else none with mv1_eq
  have second : mv1.isSome = true → (0 : Int) < cs.slice.activeCount .REF_PIC_LIST_1 := by
    intro some
    cases twoLists : cs.slice.isInterB with
    | true =>
        rw [activeCount_list1 twoLists]
        exact Int.ofNat_lt.mpr (references.list1 twoLists)
    | false => simp [mv1_eq, twoLists] at some
  have either : (cs.temporalMv pu .REF_PIC_LIST_0 0).isSome = true ∨ mv1.isSome = true := by
    simp only [hasTemporal, decide_eq_true_eq] at exists_
    refine exists_.imp_right fun both => ?_
    rw [mv1_eq, if_pos both.1]
    exact both.2
  obtain ⟨cand1, run1, here1, rest1⟩ := @setTemporal_spec cand0 .REF_PIC_LIST_1 mv1
  have field0 : (cand1.mvFieldNeighbours .REF_PIC_LIST_0).refIdx =
      if (cs.temporalMv pu .REF_PIC_LIST_0 0).isSome then 0 else NOT_VALID := by
    rw [rest1 _ (by decide), here0, fresh.refIdx]
  have field1 : (cand1.mvFieldNeighbours .REF_PIC_LIST_1).refIdx =
      if mv1.isSome then 0 else NOT_VALID := by
    rw [here1, rest0 _ (by decide), fresh.refIdx]
  have direction : (if (cs.temporalMv pu .REF_PIC_LIST_0 0).isSome then 1 else 0) +
      (if mv1.isSome then 2 else 0) = dirOf fun X => (cand1.mvFieldNeighbours X).refIdx := by
    rw [dirOf, field0, field1]
    cases (cs.temporalMv pu .REF_PIC_LIST_0 0).isSome <;> cases mv1.isSome <;> rfl
  refine ⟨{ cand1 with
    interDirNeighbours := (if (cs.temporalMv pu .REF_PIC_LIST_0 0).isSome then 1 else 0) +
      if mv1.isSome then 2 else 0
    GBiIdx := GBI_DEFAULT
    useAltHpelIf := false }, ?_, validMotion_iff.mpr ⟨direction, ?_, fun X => ?_⟩,
    fun weighted => absurd rfl weighted⟩
  · unfold temporalCand
    dsimp only
    rw [← mv1_eq, run0]
    simp only [bind, Except.bind]
    rw [run1]
    rfl
  · dsimp only
    rcases either with some | some <;> rw [some] <;> simp
  · cases X with
    | REF_PIC_LIST_0 =>
        dsimp only
        rw [field0]
        split
        · exact Or.inr ⟨le_rfl, first⟩
        · exact Or.inl rfl
    | REF_PIC_LIST_1 =>
        dsimp only
        rw [field1]
        split
        · rename_i some
          exact Or.inr ⟨le_rfl, second some⟩
        · exact Or.inl rfl

theorem zeroCand_spec {cs : CodingStructure} {r : Int} (low : 0 ≤ r)
    (high : r < iNumRefIdx cs) (fresh : Fresh cand) :
    ∃ after, zeroCand cs r cand = .ok after ∧ ValidCand cs.slice after := by
  have set (cand : MergeCand) (X : RefPicList) : cand.setMvField X .zero r =
      .ok { cand with mvFieldNeighbours := Function.update cand.mvFieldNeighbours X ⟨.zero, r⟩ } :=
    setMvField_eq fun _ => rfl
  have valid (dir : Nat) (fields : RefPicList → MvField) (mrgType : MergeType)
      (motion : ValidMotion cs.slice dir fun X => (fields X).refIdx) :
      ValidCand cs.slice ⟨dir, GBI_DEFAULT, mrgType, false, fields⟩ :=
    ⟨motion, fun weighted => absurd rfl weighted⟩
  have reference : r ≠ NOT_VALID := by
    unfold NOT_VALID
    omega
  unfold zeroCand
  unfold iNumRefIdx at high
  cases twoLists : cs.slice.isInterB with
  | true =>
      simp only [twoLists, if_true] at high
      simp only [set, bind, Except.bind, if_true]
      refine ⟨_, rfl, valid 3 _ _ ?_⟩
      refine ⟨by decide, fun X _ => ?_, fun X names => absurd ?_ names⟩
      · cases X with
        | REF_PIC_LIST_0 => exact ⟨low, lt_of_lt_of_le high (min_le_left _ _)⟩
        | REF_PIC_LIST_1 =>
            rw [activeCount_list1 twoLists]
            exact ⟨low, lt_of_lt_of_le high (min_le_right _ _)⟩
      · cases X <;> decide
  | false =>
      simp only [twoLists, Bool.false_eq_true, if_false] at high
      have motion : ValidMotion cs.slice 1 fun X =>
          (Function.update cand.mvFieldNeighbours .REF_PIC_LIST_0 ⟨.zero, r⟩ X).refIdx := by
        refine ⟨by decide, fun X names => ?_, fun X names => ?_⟩
        · cases X with
          | REF_PIC_LIST_0 => exact ⟨low, high⟩
          | REF_PIC_LIST_1 => exact absurd names (by decide)
        · cases X with
          | REF_PIC_LIST_0 => exact absurd (by decide) names
          | REF_PIC_LIST_1 => exact fresh.refIdx .REF_PIC_LIST_1
      simp only [set, bind, Except.bind, Bool.false_eq_true, if_false, pure, Except.pure]
      split
      · exact ⟨_, rfl, valid 1 _ _ motion⟩
      · exact ⟨_, rfl, valid 1 _ _ motion⟩

/-- The field of the average of two fields that are unused or have an active reference. -/
theorem pairwiseField_spec {fieldI fieldJ : MvField} {active : Nat}
    (first : fieldI.refIdx = NOT_VALID ∨ 0 ≤ fieldI.refIdx ∧ fieldI.refIdx < active)
    (second : fieldJ.refIdx = NOT_VALID ∨ 0 ≤ fieldJ.refIdx ∧ fieldJ.refIdx < active) :
    (pairwiseField fieldI fieldJ = none ∧ fieldI.refIdx = NOT_VALID ∧ fieldJ.refIdx = NOT_VALID) ∨
      ∃ field, pairwiseField fieldI fieldJ = some field ∧ 0 ≤ field.refIdx ∧
        field.refIdx < active := by
  unfold pairwiseField
  by_cases noI : fieldI.refIdx = NOT_VALID
  · by_cases noJ : fieldJ.refIdx = NOT_VALID
    · exact Or.inl ⟨if_pos ⟨noI, noJ⟩, noI, noJ⟩
    · rw [if_neg fun both => noJ both.2, if_neg fun both => both.1 noI,
        if_neg (not_not.mpr noI)]
      exact Or.inr ⟨_, rfl, second.resolve_left noJ⟩
  · rw [if_neg fun both => noI both.1]
    by_cases noJ : fieldJ.refIdx = NOT_VALID
    · rw [if_neg fun both => both.2 noJ, if_pos noI]
      exact Or.inr ⟨_, rfl, first.resolve_left noI⟩
    · rw [if_pos ⟨noI, noJ⟩]
      exact Or.inr ⟨_, rfl, first.resolve_left noI⟩

theorem pairwiseCand_spec {first second : MergeCand} (valid : ValidCand slice first)
    (valid' : ValidCand slice second) (fresh : Fresh cand) :
    ValidCand slice (pairwiseCand slice.isInterB first second cand) ∧
      0 < (pairwiseCand slice.isInterB first second cand).interDirNeighbours := by
  obtain ⟨direction, some, active⟩ := validMotion_iff.mp valid.motion
  obtain ⟨-, -, active'⟩ := validMotion_iff.mp valid'.motion
  have field (X : RefPicList) := pairwiseField_spec (active X) (active' X)
  set after := pairwiseCand slice.isInterB first second cand with named
  -- the lists that the average uses
  obtain ⟨used, fields, interDir⟩ : ∃ used : RefPicList → Bool,
      (∀ X, used X = false ∧ (after.mvFieldNeighbours X).refIdx = NOT_VALID ∧
          (first.mvFieldNeighbours X).refIdx = NOT_VALID ∨
        used X = true ∧ 0 ≤ (after.mvFieldNeighbours X).refIdx ∧
          (after.mvFieldNeighbours X).refIdx < slice.activeCount X) ∧
      after.interDirNeighbours =
        (if used .REF_PIC_LIST_0 then 1 else 0) + if used .REF_PIC_LIST_1 then 2 else 0 := by
    refine ⟨fun X => decide ((X = .REF_PIC_LIST_0 ∨ slice.isInterB) ∧
      (pairwiseField (first.mvFieldNeighbours X) (second.mvFieldNeighbours X)).isSome),
      fun X => ?_, rfl⟩
    rcases field X with ⟨none, unused, -⟩ | ⟨average, average_eq, low, high⟩
    · refine Or.inl ⟨?_, ?_, unused⟩
      · simp [none]
      · simp [named, pairwiseCand, none]
    · have taken : X = .REF_PIC_LIST_0 ∨ slice.isInterB = true := by
        cases X with
        | REF_PIC_LIST_0 => exact Or.inl rfl
        | REF_PIC_LIST_1 =>
            cases twoLists : slice.isInterB with
            | true => exact Or.inr rfl
            | false =>
                simp only [Slice.activeCount, twoLists] at high
                exact absurd (lt_of_le_of_lt low high) (lt_irrefl 0)
      have here : after.mvFieldNeighbours X = average := by
        simp [named, pairwiseCand, average_eq, taken]
      refine Or.inr ⟨?_, by rw [here]; exact low, by rw [here]; exact high⟩
      simp [average_eq, taken]
  have reference (X : RefPicList) :
      (after.mvFieldNeighbours X).refIdx ≠ NOT_VALID ↔ used X = true := by
    rcases fields X with ⟨off, unused, -⟩ | ⟨on, low, -⟩
    · simp [off, unused]
    · have valid : (after.mvFieldNeighbours X).refIdx ≠ NOT_VALID := by
        unfold NOT_VALID
        omega
      simp [on, valid]
  have motion : ValidMotion slice after.interDirNeighbours
      fun X => (after.mvFieldNeighbours X).refIdx := by
    refine validMotion_iff.mpr ⟨?_, ?_, fun X => ?_⟩
    · simp only [interDir, dirOf, reference]
    · -- the lists of the first candidate are used
      intro none
      have off (X : RefPicList) (unused : used X = false) :
          (first.mvFieldNeighbours X).refIdx = NOT_VALID := by
        rcases fields X with ⟨-, -, here⟩ | ⟨on, -⟩
        · exact here
        · rw [unused] at on
          cases on
      rw [interDir] at none
      apply some
      rw [direction, dirOf, off .REF_PIC_LIST_0 (by by_contra on; simp_all),
        off .REF_PIC_LIST_1 (by by_contra on; simp_all)]
      rfl
    · rcases fields X with ⟨-, unused, -⟩ | ⟨-, active⟩
      · exact Or.inl unused
      · exact Or.inr active
  exact ⟨⟨motion, fun weighted => absurd fresh.weight weighted⟩, motion.direction.1⟩

end

/-! ## The invariant of the derivation -/

/-- The entries of the list are valid, those behind it are as they were reset, and the rest of the
buffer is untouched. -/
structure PartialList (slice : Slice) (most : Nat) (initial : Nat → MergeCand)
    (list : Listing MergeCand) : Prop where
  count_le : list.count ≤ most
  valid : ∀ n < list.count, ValidCand slice (list.entry n)
  fresh : ∀ n, list.count ≤ n → n < most → Fresh (list.entry n)
  untouched : ∀ n, most ≤ n → list.entry n = initial n

section Stages

variable {slice : Slice} {most : Nat} {initial : Nat → MergeCand} {list : Listing MergeCand}

theorem PartialList.next (inv : PartialList slice most initial list) (room : list.count < most) :
    Fresh (list.entry list.count) := inv.fresh list.count le_rfl room

theorem PartialList.push (inv : PartialList slice most initial list) (room : list.count < most)
    {cand : MergeCand} (valid : ValidCand slice cand) :
    PartialList slice most initial (list.push cand) := by
  refine ⟨room, fun n inside => ?_, fun n behind inside => ?_, fun n outside => ?_⟩
  · rcases Nat.lt_succ_iff_lt_or_eq.mp inside with earlier | rfl
    · rw [Listing.push_entry_of_ne (Nat.ne_of_lt earlier)]
      exact inv.valid n earlier
    · rw [Listing.push_entry_count]
      exact valid
  · rw [Listing.push_count] at behind
    rw [Listing.push_entry_of_ne (by omega)]
    exact inv.fresh n (Nat.le_of_succ_le behind) inside
  · rw [Listing.push_entry_of_ne (by omega)]
    exact inv.untouched n outside

theorem PartialList.store (inv : PartialList slice most initial list) (room : list.count < most)
    {cand : MergeCand} (fresh : Fresh cand) :
    PartialList slice most initial (list.store cand) := by
  refine ⟨inv.count_le, fun n inside => ?_, fun n behind inside => ?_, fun n outside => ?_⟩
  · rw [Listing.store_count] at inside
    rw [Listing.store_entry_of_ne (Nat.ne_of_lt inside)]
    exact inv.valid n inside
  · by_cases here : n = list.count
    · rw [here, Listing.store_entry_count]
      exact fresh
    · rw [Listing.store_entry_of_ne here]
      exact inv.fresh n behind inside
  · rw [Listing.store_entry_of_ne (by omega)]
    exact inv.untouched n outside

theorem PartialList.start (slice : Slice) (mrgCtx : MergeCtx) (most : Nat) (mrgType : MergeType) :
    PartialList slice most mrgCtx.cand (mrgCtx.start most mrgType) := by
  refine ⟨Nat.zero_le _, fun n inside => absurd inside (Nat.not_lt_zero n), fun n _ inside => ?_,
    fun n outside => if_neg (Nat.not_lt_of_le outside)⟩
  have entry : (mrgCtx.start most mrgType).entry n = (mrgCtx.cand n).reset mrgType := if_pos inside
  rw [entry]
  exact ⟨fun _ => rfl, rfl⟩

/-- A full list. -/
def FullList (slice : Slice) (most : Nat) (initial : Nat → MergeCand)
    (list : Listing MergeCand) : Prop :=
  PartialList slice most initial list ∧ list.count = most

/-- The list is full, or there is room for another candidate. -/
theorem limit_ensures : Stage.Ensures (PartialList slice most initial) (Stage.limit most)
    (FullList slice most initial) fun list => PartialList slice most initial list ∧ list.count < most :=
  (Stage.Ensures.limit fun _ inv full => ⟨inv, full⟩).weaken (fun _ inv => inv)
    fun _ inv => ⟨inv.1, Nat.lt_of_le_of_ne inv.1.count_le inv.2⟩

/-- A stage that appends a valid candidate. -/
theorem append_ensures {edit : Listing MergeCand → Checked MergeCand} {bound : Nat}
    (within : bound ≤ most)
    (spec : ∀ list, PartialList slice most initial list → list.count < bound →
      ∃ cand, edit list = .ok cand ∧ ValidCand slice cand) :
    Stage.Ensures (fun list => PartialList slice most initial list ∧ list.count < bound)
      (Stage.append (-1) edit) (FullList slice most initial)
      fun list => PartialList slice most initial list ∧ list.count ≤ bound :=
  Stage.Ensures.append fun list inv => by
    obtain ⟨cand, edited, valid⟩ := spec list inv.1 inv.2
    exact ⟨cand, edited, inv.1.push (lt_of_lt_of_le inv.2 within) valid, inv.2⟩

/-! ## The stages -/

/-- The stored motions that the derivation reads are valid, and so are the references. -/
structure ValidState (cs : CodingStructure) (pu : PredictionUnit) : Prop where
  references : HasReferences cs.slice
  neighbours : ∀ pos other, cs.getPURestricted pos = some other → other.cu.isInter = true →
    ValidStored cs.slice (other.getMotionInfo pos)
  history : ∀ mi ∈ (if pu.cu.isIBC then cs.lutIbc else cs.lut), ValidStored cs.slice mi

variable {cs : CodingStructure} {pu : PredictionUnit}

theorem neighbour_eq_some {pos : Position} {available : PredictionUnit → Bool}
    {other : PredictionUnit} (here : neighbour cs pu pos available = some other) :
    cs.getPURestricted pos = some other ∧ available other = true := by
  obtain ⟨found, taken⟩ := Option.filter_eq_some_iff.mp here
  exact ⟨found, (of_decide_eq_true taken).2⟩

theorem spatialStage_ensures (state : ValidState cs pu) (pos : Position)
    {available : PredictionUnit → Bool}
    (inter : ∀ other, available other = true → other.cu.isInter = true)
    (differs : MotionInfo → Bool) :
    Stage.Ensures (fun list => PartialList cs.slice most initial list ∧ list.count < most)
      (spatialStage cs pu (-1) pos available differs) (FullList cs.slice most initial)
      (PartialList cs.slice most initial) := by
  unfold spatialStage
  cases here : neighbour cs pu pos available with
  | none => exact fun list inv => inv.1
  | some other =>
      obtain ⟨found, taken⟩ := neighbour_eq_some here
      have stored := state.neighbours pos other found (inter other taken)
      dsimp only
      split
      · refine (append_ensures le_rfl fun list inv room => ?_).weaken (fun _ inv => inv)
          fun _ inv => inv.1
        exact spatialCand_spec other stored (inv.next room)
      · exact fun list inv => inv.1

theorem temporalStage_ensures (state : ValidState cs pu) :
    Stage.Ensures (fun list => PartialList cs.slice most initial list ∧ list.count < most)
      (temporalStage cs pu (-1)) (FullList cs.slice most initial)
      (PartialList cs.slice most initial) := by
  unfold temporalStage
  split
  · rename_i taken
    refine (append_ensures le_rfl fun list inv room => ?_).weaken (fun _ inv => inv)
      fun _ inv => inv.1
    exact temporalCand_spec state.references taken.2.2 (inv.next room)
  · exact fun list inv => inv.1

theorem historyLoop_ensures (n : Neighbours) (ibcFlag isGt4x4 : Bool) {bound : Nat}
    (within : bound ≤ most) {lut : List MotionInfo} (stored : ∀ mi ∈ lut, ValidStored slice mi)
    (mrgIdx : Nat) :
    Stage.Ensures (fun list => PartialList slice most initial list ∧ list.count < bound)
      (historyLoop slice.isInterB n ibcFlag isGt4x4 (-1) bound mrgIdx lut)
      (FullList slice most initial)
      fun list => PartialList slice most initial list ∧ list.count ≤ bound := by
  induction lut generalizing mrgIdx with
  | nil => exact fun list inv => ⟨inv.1, le_of_lt inv.2⟩
  | cons mi older ih =>
      obtain ⟨here, later⟩ := List.forall_mem_cons.mp stored
      unfold historyLoop
      split
      · refine (append_ensures within fun list inv room =>
          historyCand_spec ibcFlag here (inv.next (lt_of_lt_of_le room within))).followedBy ?_
        refine Stage.Ensures.choose (fun list inv => inv.1) ?_
        exact (ih later (mrgIdx + 1)).weaken
          (fun list inv => ⟨inv.1.1, Nat.lt_of_le_of_ne inv.1.2 inv.2⟩) fun _ inv => inv
      · exact ih later (mrgIdx + 1)

theorem addMergeHMVPCand_ensures (n : Neighbours) (ibcFlag isGt4x4 : Bool) {bound : Nat}
    (within : bound ≤ most) {lut : List MotionInfo} (stored : ∀ mi ∈ lut, ValidStored slice mi) :
    Stage.Ensures (fun list => PartialList slice most initial list ∧ list.count < bound)
      (addMergeHMVPCand slice.isInterB n ibcFlag isGt4x4 (-1) bound lut)
      (FullList slice most initial) (PartialList slice most initial) := by
  refine (historyLoop_ensures n ibcFlag isGt4x4 within
    (fun mi member => stored mi (List.mem_reverse.mp member)) 1).followedBy ?_
  refine Stage.Ensures.when (fun list inv => ?_) fun list inv _ => inv.1
  have room : list.count < most := lt_of_lt_of_le inv.2 within
  have fresh := inv.1.1.next room
  exact inv.1.1.store room ⟨fresh.refIdx, fresh.weight⟩

theorem pairwiseStage_ensures :
    Stage.Ensures (PartialList cs.slice most initial) (pairwiseStage cs most)
      (FullList cs.slice most initial) (PartialList cs.slice most initial) := by
  refine Stage.Ensures.when (fun list inv => ?_) fun list inv _ => inv
  obtain ⟨inv, some, room⟩ := inv
  obtain ⟨valid, used⟩ := pairwiseCand_spec (inv.valid 0 (by omega)) (inv.valid 1 some)
    (inv.next room)
  have pushed := inv.push room valid
  dsimp only
  rw [if_pos used]
  exact pushed

theorem zeroLoop_ensures (left : Nat) {r refcnt : Int} (low : 0 ≤ r) (below : r ≤ refcnt)
    (high : refcnt < iNumRefIdx cs) :
    Stage.Ensures (fun list => PartialList cs.slice most initial list ∧ list.count + left = most)
      (zeroLoop cs left r refcnt) (FullList cs.slice most initial)
      (FullList cs.slice most initial) := by
  induction left generalizing r refcnt with
  | zero => exact fun list inv => inv
  | succ left ih =>
      unfold zeroLoop
      refine Stage.Ensures.followedBy
        (R := fun list => PartialList cs.slice most initial list ∧ list.count + left = most) ?_ ?_
      · refine Stage.Ensures.append fun list inv => ?_
        have room : list.count < most := by omega
        obtain ⟨cand, stored, valid⟩ :=
          zeroCand_spec low (lt_of_le_of_lt below high) (inv.1.next room)
        refine ⟨cand, stored, inv.1.push room valid, ?_⟩
        have total := inv.2
        rw [Listing.push_count]
        omega
      · split
        · exact ih le_rfl (by omega) high
        · exact ih (by omega) (by omega) (by omega)

theorem iNumRefIdx_pos (references : HasReferences cs.slice) : 0 < iNumRefIdx cs := by
  unfold iNumRefIdx
  split
  · rename_i twoLists
    exact lt_min (Int.ofNat_lt.mpr references.list0) (Int.ofNat_lt.mpr (references.list1 twoLists))
  · exact Int.ofNat_lt.mpr references.list0

/-- The whole derivation, without a candidate that is asked for. -/
theorem interStages_ensures (state : ValidState cs pu) (some : 1 ≤ cs.slice.maxNumMergeCand) :
    let most := cs.slice.maxNumMergeCand
    Stage.Ensures
      (fun list => PartialList cs.slice most initial list ∧ list.count < most)
      (Stage.inOrder (interStages cs pu (-1))) (FullList cs.slice most initial)
      (FullList cs.slice most initial) := by
  intro most
  have apart (other : PredictionUnit)
      (taken : decide (pu.cu.address ≠ other.cu.address ∧ other.cu.isInter = true) = true) :
      other.cu.isInter = true := (of_decide_eq_true taken).2
  unfold interStages
  refine (spatialStage_ensures state _ apart _).next (limit_ensures.next ?_)
  refine (spatialStage_ensures state _ apart _).next (limit_ensures.next ?_)
  refine (spatialStage_ensures state _ (fun _ taken => taken) _).next (limit_ensures.next ?_)
  refine (spatialStage_ensures state _ (fun _ taken => taken) _).next (limit_ensures.next ?_)
  refine Stage.Ensures.next (R := PartialList cs.slice most initial) ?_ (limit_ensures.next ?_)
  · refine Stage.Ensures.when ?_ fun _ inv _ => inv.1
    exact (spatialStage_ensures state _ (fun _ taken => taken) _).weaken (fun _ inv => inv.1)
      fun _ inv => inv
  refine (temporalStage_ensures state).next (limit_ensures.next ?_)
  refine Stage.Ensures.next (R := PartialList cs.slice most initial) ?_
    (pairwiseStage_ensures.next (limit_ensures.next ?_))
  · refine Stage.Ensures.when ?_ fun _ inv _ => inv.1
    refine (addMergeHMVPCand_ensures _ _ _ (Nat.sub_le _ _) state.history).weaken
      (fun list inv => ⟨inv.1.1, ?_⟩) fun _ inv => inv
    have room := inv.1.2
    have more := inv.2
    omega
  refine Stage.Ensures.next (R := FullList cs.slice most initial) (fun list inv => ?_)
    Stage.Ensures.done
  exact zeroLoop_ensures _ le_rfl le_rfl (iNumRefIdx_pos state.references) list
    ⟨inv.1, Nat.add_sub_cancel' inv.1.count_le⟩

end Stages

/-- A complete merge list over what its buffer held before. -/
structure CompleteList (slice : Slice) (mrgCtx after : MergeCtx) : Prop where
  numValidMergeCand : after.numValidMergeCand = slice.maxNumMergeCand
  valid : ∀ n < slice.maxNumMergeCand, ValidCand slice (after.cand n)
  single : slice.isInterB = false → ∀ n < slice.maxNumMergeCand,
    (after.cand n).interDirNeighbours = 1
  untouched : ∀ n, slice.maxNumMergeCand ≤ n → after.cand n = mrgCtx.cand n

/-- A candidate with a single list. -/
structure UniPredicted (slice : Slice) (X : RefPicList) (cand : MergeCand) : Prop where
  direction : cand.interDirNeighbours = listBit X
  reference : 0 ≤ (cand.mvFieldNeighbours X).refIdx ∧
    (cand.mvFieldNeighbours X).refIdx < slice.activeCount X
  other : cand.mvFieldNeighbours (otherList X) = ⟨.zero, NOT_VALID⟩

theorem completeList_of_fullList {slice : Slice} {mrgCtx : MergeCtx} {list : Listing MergeCand}
    (full : FullList slice slice.maxNumMergeCand mrgCtx.cand list) {count : Nat}
    (counted : count = slice.maxNumMergeCand) : CompleteList slice mrgCtx ⟨list.entry, count⟩ := by
  obtain ⟨inv, length⟩ := full
  have valid : ∀ n < slice.maxNumMergeCand, ValidCand slice (list.entry n) :=
    fun n inside => inv.valid n (length ▸ inside)
  exact ⟨counted, valid, fun single n inside => (valid n inside).motion.interDir_eq_one single,
    inv.untouched⟩

/-- The list of `getInterMergeCandidates`. -/
theorem getInterMergeCandidates_spec {cs : CodingStructure} {pu : PredictionUnit}
    (state : ValidState cs pu) (some : 1 ≤ cs.slice.maxNumMergeCand) (mrgCtx : MergeCtx) :
    ∃ after, getInterMergeCandidates cs pu (-1) mrgCtx = .ok after ∧
      CompleteList cs.slice mrgCtx after := by
  have start := PartialList.start cs.slice mrgCtx cs.slice.maxNumMergeCand .MRG_TYPE_DEFAULT_N
  have ends := interStages_ensures state some _ ⟨start, some⟩
  unfold getInterMergeCandidates
  dsimp only
  cases run : Stage.inOrder (interStages cs pu (-1))
      (mrgCtx.start cs.slice.maxNumMergeCand .MRG_TYPE_DEFAULT_N) with
  | failed message =>
      rw [run] at ends
      exact absurd ends not_false
  | returned list =>
      rw [run] at ends
      exact ⟨_, rfl, completeList_of_fullList ends rfl⟩
  | running list =>
      rw [run] at ends
      exact ⟨_, rfl, completeList_of_fullList ends ends.2⟩

/-! ## Triangles -/

/-- As many candidates as rounds, with a single list each. -/
def UniList (slice : Slice) (i : Nat) (list : Listing MergeCand) : Prop :=
  list.count = i ∧ ∀ n < list.count, ∃ X, UniPredicted slice X (list.entry n)

/-- The list of a candidate that names one. -/
theorem uniList_spec (i : Nat) {interDir : Nat} (direction : 1 ≤ interDir ∧ interDir ≤ 3) :
    ∃ X, uniList i interDir = some X ∧ Names interDir X := by
  unfold uniList
  dsimp only
  generalize (if i % 2 = 0 then RefPicList.REF_PIC_LIST_0 else .REF_PIC_LIST_1) = X
  by_cases own : interDir / listBit X % 2 = 1
  · exact ⟨X, if_pos own, own⟩
  · have other : interDir / listBit (otherList X) % 2 = 1 := by
      cases X with
      | REF_PIC_LIST_0 =>
          simp only [listBit, otherList] at own ⊢
          omega
      | REF_PIC_LIST_1 =>
          simp only [listBit, otherList] at own ⊢
          omega
    exact ⟨otherList X, by rw [if_neg own, if_pos other], other⟩

theorem triangleStage_ensures {slice : Slice} {cand : MergeCand} (valid : ValidCand slice cand)
    (i : Nat) :
    Stage.Ensures (UniList slice i) (triangleStage i cand)
      (fun list => list.count = TRIANGLE_MAX_NUM_UNI_CANDS ∧ UniList slice (i + 1) list)
      (UniList slice (i + 1)) := by
  obtain ⟨X, here, names⟩ := uniList_spec i valid.motion.direction
  unfold triangleStage
  rw [here]
  intro list inv
  have pushed : UniList slice (i + 1) (list.push (uniCand X cand (list.entry list.count))) := by
    refine ⟨congrArg (· + 1) inv.1, fun n inside => ?_⟩
    rcases Nat.lt_succ_iff_lt_or_eq.mp inside with earlier | rfl
    · rw [Listing.push_entry_of_ne (Nat.ne_of_lt earlier)]
      exact inv.2 n earlier
    · rw [Listing.push_entry_count]
      have field : (uniCand X cand (list.entry list.count)).mvFieldNeighbours X =
          cand.mvFieldNeighbours X := if_pos rfl
      refine ⟨X, rfl, ?_, ?_⟩
      · rw [field]
        exact valid.motion.named X names
      · cases X <;> rfl
  dsimp only
  split
  · rename_i full
    exact ⟨full, pushed⟩
  · exact pushed

/-- The candidates of `getTriangleMergeCandidates`, as many as in the merge list. -/
theorem getTriangleMergeCandidates_spec {cs : CodingStructure} {pu : PredictionUnit}
    (state : ValidState cs pu)
    (range : 1 ≤ cs.slice.maxNumMergeCand ∧ cs.slice.maxNumMergeCand ≤ 6)
    (tmpMergeCtx triangleMrgCtx : MergeCtx) :
    ∃ after, getTriangleMergeCandidates cs pu tmpMergeCtx triangleMrgCtx = .ok after ∧
      after.numValidMergeCand = cs.slice.maxNumMergeCand ∧
      ∀ n < after.numValidMergeCand, ∃ X, UniPredicted cs.slice X (after.cand n) := by
  obtain ⟨merged, run, complete⟩ := getInterMergeCandidates_spec state range.1 tmpMergeCtx
  have rounds (i : Nat) (inside : i < 0 + cs.slice.maxNumMergeCand) :
      Stage.Ensures (UniList cs.slice i) (triangleStage i (merged.cand i))
        (UniList cs.slice cs.slice.maxNumMergeCand) (UniList cs.slice (i + 1)) := by
    rw [Nat.zero_add] at inside
    refine fun list inv =>
      (triangleStage_ensures (complete.valid i inside) i list inv).exits fun list full => ?_
    -- only the sixth candidate fills the list, so the round is the last one
    have last : i + 1 = cs.slice.maxNumMergeCand := by
      have count := full.2.1
      have filled := full.1
      unfold TRIANGLE_MAX_NUM_UNI_CANDS at filled
      omega
    exact last ▸ full.2
  have ends := Stage.Ensures.range 0 cs.slice.maxNumMergeCand (fun i _ inside => rounds i inside)
    triangleMrgCtx.startTriangle ⟨rfl, fun n inside => absurd inside (Nat.not_lt_zero n)⟩
  rw [Nat.zero_add, ← List.range_eq_range'] at ends
  unfold getTriangleMergeCandidates
  rw [run]
  simp only [bind, Except.bind]
  cases step : Stage.inOrder ((List.range cs.slice.maxNumMergeCand).map fun i =>
      triangleStage i (merged.cand i)) triangleMrgCtx.startTriangle with
  | failed message =>
      rw [step] at ends
      exact absurd ends not_false
  | returned list =>
      rw [step] at ends
      exact ⟨_, rfl, ends⟩
  | running list =>
      rw [step] at ends
      exact ⟨_, rfl, ends⟩

/-- Every merge list is complete and valid, and so are the candidates for triangles. -/
theorem getInterMergeCandidates_complete (cs : CodingStructure) (pu : PredictionUnit)
    (state : ValidState cs pu)
    (range : 1 ≤ cs.slice.maxNumMergeCand ∧ cs.slice.maxNumMergeCand ≤ 6)
    (mrgCtx tmpMergeCtx triangleMrgCtx : MergeCtx) :
    (∃ after, getInterMergeCandidates cs pu (-1) mrgCtx = .ok after ∧
        CompleteList cs.slice mrgCtx after) ∧
      ∃ after, getTriangleMergeCandidates cs pu tmpMergeCtx triangleMrgCtx = .ok after ∧
        after.numValidMergeCand = cs.slice.maxNumMergeCand ∧
          ∀ n < after.numValidMergeCand, ∃ X, UniPredicted cs.slice X (after.cand n) :=
  ⟨getInterMergeCandidates_spec state range.1 mrgCtx,
    getTriangleMergeCandidates_spec state range tmpMergeCtx triangleMrgCtx⟩

/-- A bi-predicted motion, equally weighted. -/
def biMotion : MotionInfo :=
  { MotionInfo.default with
    isInter := true
    interDir := 3
    mv := fun _ => ⟨16, -16⟩
    refIdx := fun _ => 0
    GBiIdx := GBI_DEFAULT }

/-- An 8x8 inter unit. -/
def interUnit (address : Nat) : PredictionUnit where
  Y := ⟨⟨64, 64⟩, 8, 8⟩
  cu := ⟨address, .MODE_INTER, false, .AFFINEMODEL_4PARAM, GBI_DEFAULT, 0⟩
  mergeType := .MRG_TYPE_DEFAULT_N
  interDir := 3
  refIdx _ := 0
  mvAffi _ _ := .zero
  getMotionInfo _ := biMotion

/-- A B slice with one reference in each list, where only the unit above is available. -/
def aboveOnly : CodingStructure where
  slice :=
    { isInterB := true, isIRAP := false, getPOC := 2, getNumRefIdx := fun _ => 1
      getRefPOC := fun _ _ => 0, maxNumMergeCand := 6, maxNumIBCMergeCand := 6
      maxNumAffineMergeCand := 5, enableTMVPFlag := true, sbtmvpEnabledFlag := false
      useAffine := true, useAffineType := true, ctuSize := 128 }
  pcv := ⟨4, 4, 416, 240, 128⟩
  getPURestricted pos :=
    if pos.y < 64 then some { interUnit 1 with Y := ⟨⟨64, 56⟩, 8, 8⟩ } else none
  lut := [biMotion]
  lutIbc := []
  getColocatedMVP _ _ _ := some ⟨4, 4⟩

theorem biMotion_stored : ValidStored aboveOnly.slice biMotion := by
  refine ⟨⟨by decide, fun X _ => ?_, fun X names => ?_⟩, fun X unused => ?_⟩
  · cases X <;> decide
  · cases X <;> exact absurd (by decide) names
  · cases X <;> exact absurd unused (by decide)

theorem aboveOnly_validState : ValidState aboveOnly (interUnit 0) := by
  refine ⟨⟨by decide, fun _ => by decide⟩, fun pos other found _ => ?_, fun mi listed => ?_⟩
  · obtain ⟨-, above⟩ := Option.ite_none_right_eq_some.mp found
    rw [← Option.some.inj above]
    exact biMotion_stored
  · rw [List.mem_singleton.mp listed]
    exact biMotion_stored

/-- A context that nothing was derived into. -/
def emptyMergeCtx : MergeCtx :=
  ⟨fun _ => ⟨0, GBI_DEFAULT, .MRG_TYPE_DEFAULT_N, false, fun _ => ⟨.zero, NOT_VALID⟩⟩, 0⟩

theorem getInterMergeCandidates_complete_aboveOnly :
    (∃ after, getInterMergeCandidates aboveOnly (interUnit 0) (-1) emptyMergeCtx = .ok after ∧
        CompleteList aboveOnly.slice emptyMergeCtx after) ∧
      ∃ after, getTriangleMergeCandidates aboveOnly (interUnit 0) emptyMergeCtx emptyMergeCtx =
          .ok after ∧
        after.numValidMergeCand = aboveOnly.slice.maxNumMergeCand ∧
          ∀ n < after.numValidMergeCand, ∃ X, UniPredicted aboveOnly.slice X (after.cand n) :=
  getInterMergeCandidates_complete aboveOnly (interUnit 0) aboveOnly_validState (by decide)
    emptyMergeCtx emptyMergeCtx emptyMergeCtx

end Vtm.Motion
