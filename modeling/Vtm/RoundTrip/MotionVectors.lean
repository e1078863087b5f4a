import Vtm.RoundTrip.PredictionUnit

/-!
# Motion vectors behind the round trip

With predictors and vectors in the precision of the mode, no bit of a difference is shifted out, and
`xDeriveCUMV` makes the vectors of the encoder of what the reader has stored, modulo `2 ^ 18`.
-/

namespace Vtm.RoundTrip.MotionVectors

open Vtm.Std Vtm.Bin InterSyntax DecCu
open Motion (Mv MvPrecision)
open Motion.MvPrecision
open RefPics (RefPicList)
open RoundTrip.Mvd RoundTrip.PredictionUnit
open Function (update update_self update_of_ne)

variable {cs : CodingStructure} {amvp : AMVP} {p : MvPrecision} {pu r r' : PredictionUnit}
  {X : RefPicList}

/-! ## Vectors of 18 bits -/

/-- Far from the ends of `int`, so that no sum of the derivation overflows. -/
def Small (mv : Mv) : Prop := |mv.hor| ≤ 2 ^ 28 ∧ |mv.ver| ≤ 2 ^ 28

theorem clipToPeriod_small {v : Int} (small : |v| ≤ 2 ^ 28) :
    ∃ stored, Motion.clipToPeriod v = .ok stored ∧ (-2 ^ 17 ≤ v → v ≤ 2 ^ 17 - 1 → stored = v) := by
  have sum : |v + 2 ^ 18| ≤ 2 ^ 28 + 2 ^ 18 := abs_add_le_add small (by decide)
  have exact32 : add32 v (2 ^ 18) = .ok (v + 2 ^ 18) :=
    int32_eq (fits32_of_abs_le sum (by decide))
  unfold Motion.clipToPeriod
  rw [exact32]
  refine ⟨_, rfl, fun low high => ?_⟩
  split <;> omega

/-- What is stored of a vector. -/
structure Stores (mv stored : Mv) : Prop where
  clipped : mv.mvCliptoStorageBitDepth = .ok stored
  exact : mv.InRange → stored = mv

theorem exists_stores {mv : Mv} (small : Small mv) : ∃ stored, Stores mv stored := by
  obtain ⟨hor, horOk, horSame⟩ := clipToPeriod_small small.1
  obtain ⟨ver, verOk, verSame⟩ := clipToPeriod_small small.2
  refine ⟨⟨hor, ver⟩, ?_, fun range => ?_⟩
  · unfold Mv.mvCliptoStorageBitDepth
    rw [horOk, verOk]
    rfl
  · exact Mv.ext (horSame range.1.1 range.1.2) (verSame range.2.1 range.2.2)

/-! ## What the search of the encoder leaves -/

/-- A vector of a list, its predictor and their difference. -/
structure SearchedList (amvp : AMVP) (p : MvPrecision) (pu : PredictionUnit) (X : RefPicList) :
    Prop where
  predictor : (amvp.mvCand X (pu.mvpIdx X)).OnGrid p
  vector : (pu.mv X).OnGrid p
  small : Small (pu.mv X)
  mvd : pu.mvd X = pu.mv X - amvp.mvCand X (pu.mvpIdx X)

/-- The control points of a list. The differences behind the first one are without it. -/
structure SearchedAffine (amvp : AMVP) (p : MvPrecision) (pu : PredictionUnit) (X : RefPicList) :
    Prop where
  predictor : ∀ corner < corners pu.cu, (amvp.mvCandAffi X (pu.mvpIdx X) corner).OnGrid p
  vector : ∀ corner < corners pu.cu, (pu.mvAffi X corner).OnGrid p
  small : ∀ corner < corners pu.cu, Small (pu.mvAffi X corner)
  first : pu.mvdAffi X 0 = pu.mvAffi X 0 - amvp.mvCandAffi X (pu.mvpIdx X) 0
  next : ∀ corner < corners pu.cu, 0 < corner → pu.mvdAffi X corner =
    pu.mvAffi X corner - amvp.mvCandAffi X (pu.mvpIdx X) corner - pu.mvdAffi X 0

/-- The unit behind the search, in the precision of its mode. -/
structure Searched (cs : CodingStructure) (amvp : AMVP) (p : MvPrecision) (pu : PredictionUnit) :
    Prop where
  entry : (precisionTable pu.cu)[pu.cu.imv]? = some p
  list : pu.cu.affine = false → ∀ X, usesList pu.interDir X = true → SearchedList amvp p pu X
  affine : pu.cu.affine = true → ∀ X, usesList pu.interDir X = true → SearchedAffine amvp p pu X
  symmetric : pu.cu.smvdMode = 1 → pu.mv .REF_PIC_LIST_1 = (pu.mv .REF_PIC_LIST_0).getSymmvdMv
    (amvp.mvCand .REF_PIC_LIST_0 (pu.mvpIdx .REF_PIC_LIST_0))
    (amvp.mvCand .REF_PIC_LIST_1 (pu.mvpIdx .REF_PIC_LIST_1))
  mvdL1Zero : cs.mvdL1ZeroFlag = true → pu.interDir = 3 →
    ∀ mvd ∈ mvds pu .REF_PIC_LIST_1, mvd = .zero

theorem SearchedList.onGrid (list : SearchedList amvp p pu X) : (pu.mvd X).OnGrid p := by
  rw [list.mvd]
  exact list.vector.sub list.predictor

theorem SearchedAffine.onGrid (list : SearchedAffine amvp p pu X) {corner : Nat}
    (inside : corner < corners pu.cu) : (pu.mvdAffi X corner).OnGrid p := by
  have zero : 0 < corners pu.cu := lt_of_lt_of_le Nat.zero_lt_two (two_le_corners pu.cu)
  have first : (pu.mvdAffi X 0).OnGrid p := by
    rw [list.first]
    exact (list.vector 0 zero).sub (list.predictor 0 zero)
  obtain rfl | behind := Nat.eq_zero_or_pos corner
  · exact first
  · rw [list.next corner inside behind]
    exact ((list.vector corner inside).sub (list.predictor corner inside)).sub first

/-- All differences of a list have the precision of the mode. -/
theorem Searched.onGrid (searched : Searched cs amvp p pu) (uses : usesList pu.interDir X = true)
    {mvd : Mv} (mem : mvd ∈ mvds pu X) : mvd.OnGrid p := by
  unfold mvds at mem
  by_cases affine : pu.cu.affine = true
  · rw [if_pos affine] at mem
    obtain ⟨corner, inside, rfl⟩ := List.mem_map.mp mem
    exact (searched.affine affine X uses).onGrid (List.mem_range.mp inside)
  · rw [if_neg affine] at mem
    rw [List.mem_singleton.mp mem]
    exact (searched.list (by simpa using affine) X uses).onGrid

/-- A difference that is signalled for both lists is the mirrored one in the second. -/
theorem Searched.mirrored (searched : Searched cs amvp p pu) (plain : pu.cu.affine = false)
    (dir : pu.interDir = 3) (on : pu.cu.smvdMode = 1) :
    coded p (pu.mvd .REF_PIC_LIST_1) =
      ⟨-(coded p (pu.mvd .REF_PIC_LIST_0)).hor, -(coded p (pu.mvd .REF_PIC_LIST_0)).ver⟩ := by
  have list0 := searched.list plain .REF_PIC_LIST_0 (by rw [dir]; decide)
  have list1 := searched.list plain .REF_PIC_LIST_1 (by rw [dir]; decide)
  have neg : pu.mvd .REF_PIC_LIST_1 =
      ⟨-(pu.mvd .REF_PIC_LIST_0).hor, -(pu.mvd .REF_PIC_LIST_0).ver⟩ := by
    rw [list1.mvd, list0.mvd, searched.symmetric on]
    unfold Mv.getSymmvdMv
    refine Mv.ext ?_ ?_
    · simp only [Mv.sub_hor]
      omega
    · simp only [Mv.sub_ver]
      omega
  obtain ⟨⟨hor, horEq⟩, ⟨ver, verEq⟩⟩ := list0.onGrid
  have component (w : Int) : Motion.changePrecisionComp MV_PRECISION_INTERNAL p (-(p.step * w)) =
      -Motion.changePrecisionComp MV_PRECISION_INTERNAL p (p.step * w) := by
    rw [mul_comm, ← neg_mul, Motion.changePrecisionComp_mul, Motion.changePrecisionComp_mul]
  rw [neg]
  unfold coded Mv.changePrecision
  rw [horEq, verEq, component, component]

/-! ## The derivation -/

/-- What the derivation of a list must leave: the vectors of the encoder as they are stored. -/
structure StoredList (pu : PredictionUnit) (X : RefPicList) (r : PredictionUnit) : Prop where
  mv : pu.cu.affine = false → Stores (pu.mv X) (r.mv X)
  mvAffi : pu.cu.affine = true → ∀ corner < corners pu.cu,
    Stores (pu.mvAffi X corner) (r.mvAffi X corner)

/-- Nothing but one list has changed, its vectors included. -/
structure OnlyMotion (X : RefPicList) (r r' : PredictionUnit) : Prop extends OnlyList X r r' where
  mv : ∀ Y, Y ≠ X → r'.mv Y = r.mv Y
  mvAffi : ∀ Y, Y ≠ X → r'.mvAffi Y = r.mvAffi Y

theorem OnlyMotion.refl (X : RefPicList) (r : PredictionUnit) : OnlyMotion X r r :=
  ⟨OnlyList.refl X r, fun _ _ => rfl, fun _ _ => rfl⟩

theorem OnlyMotion.trans {r'' : PredictionUnit} (first : OnlyMotion X r r')
    (second : OnlyMotion X r' r'') : OnlyMotion X r r'' where
  toOnlyList := first.toOnlyList.trans second.toOnlyList
  mv Y other := (second.mv Y other).trans (first.mv Y other)
  mvAffi Y other := (second.mvAffi Y other).trans (first.mvAffi Y other)

theorem setMvd_onlyMotion (r : PredictionUnit) (X : RefPicList) (mvd : Mv) :
    OnlyMotion X r (CABACReader.setMvd r X mvd) :=
  ⟨setMvd_only r X mvd, fun _ _ => rfl, fun _ _ => rfl⟩

theorem setMvdAffi_onlyMotion (r : PredictionUnit) (X : RefPicList) (corner : Nat) (mvd : Mv) :
    OnlyMotion X r (CABACReader.setMvdAffi r X corner mvd) :=
  ⟨setMvdAffi_only r X corner mvd, fun _ _ => rfl, fun _ _ => rfl⟩

/-- The unit of the decoder in front of the derivation of a list. -/
structure Ready (p : MvPrecision) (pu : PredictionUnit) (X : RefPicList) (r : PredictionUnit) :
    Prop where
  head : HeadRead pu r
  imv : r.cu.imv = pu.cu.imv
  list : usesList pu.interDir X = true → ListRead p pu X r

theorem Ready.of_only {Y : RefPicList} (ready : Ready p pu Y r) (only : OnlyList X r r')
    (other : Y ≠ X) : Ready p pu Y r' where
  head := ready.head.of_only only
  imv := by rw [only.cu, ready.imv]
  list uses := (ready.list uses).of_only only other

/-- The sum of a predictor and a difference is stored as the vector of the list. -/
theorem addMvd_run {mvd : Mv} (plain : pu.cu.affine = false) (small : Small (pu.mv X))
    (sum : amvp.mvCand X (r.mvpIdx X) + mvd = pu.mv X) :
    ∃ r', addMvd amvp X r mvd = .ok r' ∧ OnlyMotion X r r' ∧ StoredList pu X r' := by
  obtain ⟨stored, stores⟩ := exists_stores small
  refine ⟨{ r with mv := update r.mv X stored }, ?_, ?_, ?_⟩
  · unfold addMvd
    rw [sum, stores.clipped]
    rfl
  · exact ⟨⟨rfl, rfl, fun _ _ => rfl, fun _ _ => rfl, fun _ _ => rfl, fun _ _ => rfl⟩,
      fun Y other => update_of_ne other .., fun _ _ => rfl⟩
  · refine ⟨fun _ => ?_, fun affine => ?_⟩
    · show Stores _ (update r.mv X stored X)
      rw [update_self]
      exact stores
    · simp [plain] at affine

theorem sum_eq {cand mv mvd : Mv} (difference : mvd = mv - cand) : cand + mvd = mv := by
  rw [difference]
  refine Mv.ext ?_ ?_
  · simp only [Mv.add_hor, Mv.sub_hor]
    omega
  · simp only [Mv.add_ver, Mv.sub_ver]
    omega

/-- The difference in the internal precision, and the vector from it. -/
theorem change_and_add (plain : pu.cu.affine = false) (list : SearchedList amvp p pu X)
    (entry : Motion.m_amvrPrecision[pu.cu.imv]? = some p) (imv : r.cu.imv = pu.cu.imv)
    (read : ListRead p pu X r) :
    ∃ r', (do let r ← changeMvd X r
              addMvd amvp X r (r.mvd X)) = .ok r' ∧ OnlyMotion X r r' ∧ StoredList pu X r' := by
  have back : (r.mvd X).changeTransPrecAmvr2Internal r.cu.imv = .ok (pu.mvd X) := by
    rw [Mv.changeTransPrecAmvr2Internal, amvr2Internal_ok _ (imv ▸ entry), read.mvd plain, coded,
      Motion.changePrecision_exact list.onGrid]
  have changed : changeMvd X r = .ok (CABACReader.setMvd r X (pu.mvd X)) := by
    rw [changeMvd, back]
    rfl
  have sum : amvp.mvCand X ((CABACReader.setMvd r X (pu.mvd X)).mvpIdx X) +
      (CABACReader.setMvd r X (pu.mvd X)).mvd X = pu.mv X := by
    rw [CABACReader.setMvd_self, show (CABACReader.setMvd r X (pu.mvd X)).mvpIdx X = pu.mvpIdx X from
      read.mvpIdx]
    exact sum_eq list.mvd
  obtain ⟨r', run, only, stored⟩ := addMvd_run plain list.small sum
  refine ⟨r', ?_, (setMvd_onlyMotion r X _).trans only, stored⟩
  rw [changed]
  exact run

/-- What the derivation of one list does: the list of a used one is stored, and no other changes. -/
def Derives (pu : PredictionUnit) (X : RefPicList) (r : PredictionUnit)
    (step : Checked PredictionUnit) : Prop :=
  ∃ r', step = .ok r' ∧ OnlyMotion X r r' ∧ (usesList pu.interDir X = true → StoredList pu X r')

theorem Derives.skip (unused : usesList pu.interDir X ≠ true) : Derives pu X r (pure r) :=
  ⟨r, rfl, OnlyMotion.refl X r, fun uses => absurd uses unused⟩

/-- Both lists, one after the other. -/
theorem derives_both {step : RefPicList → PredictionUnit → Checked PredictionUnit}
    (derives : ∀ X r, Ready p pu X r → Derives pu X r (step X r)) (ready : ∀ X, Ready p pu X r) :
    ∃ r', (do let r ← step .REF_PIC_LIST_0 r
              step .REF_PIC_LIST_1 r) = .ok r' ∧
      ∀ X, usesList pu.interDir X = true → StoredList pu X r' := by
  obtain ⟨r1, run0, only0, stored0⟩ := derives _ _ (ready .REF_PIC_LIST_0)
  have ready1 := (ready .REF_PIC_LIST_1).of_only only0.toOnlyList nofun
  obtain ⟨r2, run1, only1, stored1⟩ := derives _ _ ready1
  refine ⟨r2, ?_, fun X uses => ?_⟩
  · rw [run0]
    exact run1
  cases X with
  | REF_PIC_LIST_1 => exact stored1 uses
  | REF_PIC_LIST_0 =>
      have before := stored0 uses
      refine ⟨fun plain => ?_, fun affine corner inside => ?_⟩
      · rw [only1.mv .REF_PIC_LIST_0 nofun]
        exact before.mv plain
      · rw [only1.mvAffi .REF_PIC_LIST_0 nofun]
        exact before.mvAffi affine corner inside

/-! ### Units without control points -/

theorem derives_list (plain : pu.cu.affine = false)
    (lists : ∀ X, usesList pu.interDir X = true → SearchedList amvp p pu X)
    (refs : ∀ X, usesList pu.interDir X = true → 0 < cs.numRefIdx X)
    (entry : Motion.m_amvrPrecision[pu.cu.imv]? = some p) (ready : Ready p pu X r) :
    Derives pu X r (deriveList cs amvp X r) := by
  unfold deriveList
  rw [ready.head.interDir]
  by_cases uses : usesList pu.interDir X = true
  · rw [if_pos ⟨.inl (refs X uses), uses⟩]
    obtain ⟨r', run, only, stored⟩ :=
      change_and_add plain (lists X uses) entry ready.imv (ready.list uses)
    exact ⟨r', run, only, fun _ => stored⟩
  · rw [if_neg fun both => uses both.2]
    exact .skip uses

/-- `applyImv` for a list. -/
def applyImvList (cs : CodingStructure) (amvp : AMVP) :
    RefPicList → PredictionUnit → Checked PredictionUnit
  | .REF_PIC_LIST_0 => applyImvList0 amvp
  | .REF_PIC_LIST_1 => applyImvList1 cs amvp

theorem derives_applyImv (dir : pu.interDir = 1 ∨ pu.interDir = 2 ∨ pu.interDir = 3)
    (plain : pu.cu.affine = false) (searched : Searched cs amvp p pu) (imv : pu.cu.imv ≠ 0)
    (entry : Motion.m_amvrPrecision[pu.cu.imv]? = some p) (ready : Ready p pu X r) :
    Derives pu X r (applyImvList cs amvp X r) := by
  cases X with
  | REF_PIC_LIST_0 =>
      show Derives pu .REF_PIC_LIST_0 r (applyImvList0 amvp r)
      unfold applyImvList0
      rw [ready.head.interDir]
      by_cases uses : usesList pu.interDir .REF_PIC_LIST_0 = true
      · rw [if_pos ((uses_list0_iff dir).mp uses)]
        obtain ⟨r', run, only, stored⟩ :=
          change_and_add plain (searched.list plain _ uses) entry ready.imv (ready.list uses)
        exact ⟨r', run, only, fun _ => stored⟩
      · rw [if_neg fun other => uses ((uses_list0_iff dir).mpr other)]
        exact .skip uses
  | REF_PIC_LIST_1 =>
      show Derives pu .REF_PIC_LIST_1 r (applyImvList1 cs amvp r)
      unfold applyImvList1
      rw [ready.head.interDir]
      by_cases uses : usesList pu.interDir .REF_PIC_LIST_1 = true
      · rw [if_pos ((uses_list1_iff dir).mp uses)]
        have list := searched.list plain _ uses
        have read := ready.list uses
        unfold changeMvdList1
        rw [ready.head.interDir, ready.imv]
        by_cases left : cs.mvdL1ZeroFlag = true ∧ pu.interDir = 3
        · -- the difference is zero in every precision
          have zero : pu.mvd .REF_PIC_LIST_1 = .zero :=
            searched.mvdL1Zero left.1 left.2 _ (mem_mvds_plain plain)
          have sum : amvp.mvCand .REF_PIC_LIST_1 (r.mvpIdx .REF_PIC_LIST_1) +
              r.mvd .REF_PIC_LIST_1 = pu.mv .REF_PIC_LIST_1 := by
            rw [read.mvpIdx, read.mvd plain, zero, coded_zero, ← zero]
            exact sum_eq list.mvd
          obtain ⟨r', run, only, stored⟩ := addMvd_run plain list.small sum
          refine ⟨r', ?_, only, fun _ => stored⟩
          rw [if_neg fun both => both.1 left]
          exact run
        · rw [if_pos ⟨left, imv⟩]
          obtain ⟨r', run, only, stored⟩ := change_and_add plain list entry ready.imv read
          exact ⟨r', run, only, fun _ => stored⟩
      · rw [if_neg fun other => uses ((uses_list1_iff dir).mpr other)]
        exact .skip uses

theorem deriveIbc_run (plain : pu.cu.affine = false) (list : SearchedList amvp p pu .REF_PIC_LIST_0)
    (entry : Motion.m_amvrPrecIbc[pu.cu.imv]? = some p) (imv : r.cu.imv = pu.cu.imv)
    (single : cs.maxNumIBCMergeCand = 1 → pu.mvpIdx .REF_PIC_LIST_0 = 0)
    (read : ListRead p pu .REF_PIC_LIST_0 r) :
    ∃ r', deriveIbc cs amvp r = .ok r' ∧ StoredList pu .REF_PIC_LIST_0 r' := by
  have back : (r.mvd .REF_PIC_LIST_0).changeIbcPrecAmvr2Internal r.cu.imv =
      .ok (pu.mvd .REF_PIC_LIST_0) := by
    rw [Mv.changeIbcPrecAmvr2Internal, amvr2Internal_ok _ (imv ▸ entry), read.mvd plain, coded,
      Motion.changePrecision_exact list.onGrid]
  have sum : amvp.mvCand .REF_PIC_LIST_0 (r.mvpIdx .REF_PIC_LIST_0) + pu.mvd .REF_PIC_LIST_0 =
      pu.mv .REF_PIC_LIST_0 := by
    rw [read.mvpIdx]
    exact sum_eq list.mvd
  obtain ⟨r', run, _, stored⟩ := addMvd_run plain list.small sum
  refine ⟨r', ?_, stored⟩
  unfold deriveIbc
  rw [back]
  have legal : ¬ (cs.maxNumIBCMergeCand = 1 ∧ r.mvpIdx .REF_PIC_LIST_0 ≠ 0) := by
    rintro ⟨one, other⟩
    exact other (read.mvpIdx.trans (single one))
  show (if _ then _ else _) = _
  rw [if_neg legal]
  exact run

/-! ### Units with control points -/

/-- What the differences of a list look like behind the change of their precision. -/
structure Changed (pu : PredictionUnit) (X : RefPicList) (r r' : PredictionUnit) : Prop where
  only : OnlyMotion X r r'
  mvpIdx : r'.mvpIdx = r.mvpIdx
  mvdAffi : ∀ corner < corners pu.cu, r'.mvdAffi X corner = pu.mvdAffi X corner

theorem changeMvdAffi_run {corner : Nat} (entry : Motion.m_amvrPrecAffine[r.cu.imv]? = some p)
    (grid : (pu.mvdAffi X corner).OnGrid p)
    (read : r.mvdAffi X corner = coded p (pu.mvdAffi X corner)) :
    changeMvdAffi X corner r = .ok (CABACReader.setMvdAffi r X corner (pu.mvdAffi X corner)) := by
  unfold changeMvdAffi
  rw [Mv.changeAffinePrecAmvr2Internal, amvr2Internal_ok _ entry, read, coded,
    Motion.changePrecision_exact grid]
  rfl

theorem setMvdAffi_of_ne (r : PredictionUnit) (X : RefPicList) {corner other : Nat} (mvd : Mv)
    (ne : other ≠ corner) :
    (CABACReader.setMvdAffi r X corner mvd).mvdAffi X other = r.mvdAffi X other := by
  rw [CABACReader.setMvdAffi_self, update_of_ne ne]

theorem setMvdAffi_at (r : PredictionUnit) (X : RefPicList) (corner : Nat) (mvd : Mv) :
    (CABACReader.setMvdAffi r X corner mvd).mvdAffi X corner = mvd := by
  rw [CABACReader.setMvdAffi_self, update_self]

theorem changeMvdsAffi_run (affine : pu.cu.affine = true)
    (grid : ∀ corner < corners pu.cu, (pu.mvdAffi X corner).OnGrid p)
    (entry : Motion.m_amvrPrecAffine[r.cu.imv]? = some p) (head : HeadRead pu r)
    (read : ListRead p pu X r) : ∃ r', changeMvdsAffi X r = .ok r' ∧ Changed pu X r r' := by
  have two := two_le_corners pu.cu
  let r1 := CABACReader.setMvdAffi r X 0 (pu.mvdAffi X 0)
  let r2 := CABACReader.setMvdAffi r1 X 1 (pu.mvdAffi X 1)
  have first : changeMvdAffi X 0 r = .ok r1 :=
    changeMvdAffi_run entry (grid 0 (by omega)) (read.mvdAffi affine 0 (by omega))
  have second : changeMvdAffi X 1 r1 = .ok r2 := by
    refine changeMvdAffi_run entry (grid 1 (by omega)) ?_
    rw [setMvdAffi_of_ne r X _ (by decide)]
    exact read.mvdAffi affine 1 (by omega)
  have only : OnlyMotion X r r2 :=
    (setMvdAffi_onlyMotion r X 0 _).trans (setMvdAffi_onlyMotion r1 X 1 _)
  have zero : r2.mvdAffi X 0 = pu.mvdAffi X 0 := by
    rw [setMvdAffi_of_ne r1 X _ (by decide)]
    exact setMvdAffi_at ..
  have one : r2.mvdAffi X 1 = pu.mvdAffi X 1 := setMvdAffi_at ..
  have type : r2.cu.affineType = pu.cu.affineType := head.affineType affine
  unfold changeMvdsAffi
  rw [first]
  show ∃ r', (do let r ← changeMvdAffi X 1 r1
                 if r.cu.affineType = Motion.EAffineModel.AFFINEMODEL_6PARAM then changeMvdAffi X 2 r
                 else return r) = .ok r' ∧ _
  rw [second]
  show ∃ r', (if r2.cu.affineType = .AFFINEMODEL_6PARAM then changeMvdAffi X 2 r2 else return r2) =
    .ok r' ∧ _
  rw [type]
  by_cases six : pu.cu.affineType = .AFFINEMODEL_6PARAM
  · have three : corners pu.cu = 3 := if_pos six
    have third : changeMvdAffi X 2 r2 = .ok (CABACReader.setMvdAffi r2 X 2 (pu.mvdAffi X 2)) := by
      refine changeMvdAffi_run entry (grid 2 (by omega)) ?_
      rw [setMvdAffi_of_ne r1 X _ (by decide), setMvdAffi_of_ne r X _ (by decide)]
      exact read.mvdAffi affine 2 (by omega)
    rw [if_pos six]
    refine ⟨_, third, only.trans (setMvdAffi_onlyMotion r2 X 2 _), rfl, fun corner inside => ?_⟩
    obtain rfl | rfl | rfl : corner = 0 ∨ corner = 1 ∨ corner = 2 := by omega
    · rw [setMvdAffi_of_ne r2 X _ (by decide), zero]
    · rw [setMvdAffi_of_ne r2 X _ (by decide), one]
    · exact setMvdAffi_at ..
  · have pair : corners pu.cu = 2 := if_neg six
    rw [if_neg six]
    refine ⟨r2, rfl, only, rfl, fun corner inside => ?_⟩
    obtain rfl | rfl : corner = 0 ∨ corner = 1 := by omega
    · exact zero
    · exact one

/-- The control points are stored. -/
theorem setAllAffineMv_run (affine : pu.cu.affine = true) (type : r.cu.affineType = pu.cu.affineType)
    (small : ∀ corner < corners pu.cu, Small (pu.mvAffi X corner)) {affLT affRT affLB : Mv}
    (zero : affLT = pu.mvAffi X 0) (one : affRT = pu.mvAffi X 1)
    (two : pu.cu.affineType = .AFFINEMODEL_6PARAM → affLB = pu.mvAffi X 2) :
    ∃ r', setAllAffineMv X r affLT affRT affLB = .ok r' ∧ OnlyMotion X r r' ∧
      StoredList pu X r' := by
  have few := two_le_corners pu.cu
  obtain ⟨lt, storesLT⟩ := exists_stores (small 0 (by omega))
  obtain ⟨rt, storesRT⟩ := exists_stores (small 1 (by omega))
  obtain ⟨lb, clipped, storesLB⟩ : ∃ lb, clipLB r affLB = .ok lb ∧
      (pu.cu.affineType = .AFFINEMODEL_6PARAM → Stores (pu.mvAffi X 2) lb) := by
    unfold clipLB
    rw [type]
    by_cases six : pu.cu.affineType = .AFFINEMODEL_6PARAM
    · have three : corners pu.cu = 3 := if_pos six
      obtain ⟨lb, stores⟩ := exists_stores (small 2 (by omega))
      rw [if_pos six, two six]
      exact ⟨lb, stores.clipped, fun _ => stores⟩
    · rw [if_neg six]
      exact ⟨affLB, rfl, fun is => absurd is six⟩
  unfold setAllAffineMv
  rw [zero, one, storesLT.clipped, storesRT.clipped, clipped]
  refine ⟨_, rfl, ?_, fun plain => ?_, fun _ corner inside => ?_⟩
  · exact ⟨⟨rfl, rfl, fun _ _ => rfl, fun _ _ => rfl, fun _ _ => rfl, fun _ _ => rfl⟩,
      fun _ _ => rfl, fun Y other => update_of_ne other ..⟩
  · simp [affine] at plain
  · dsimp only
    rw [update_self]
    obtain rfl | rfl | behind : corner = 0 ∨ corner = 1 ∨ 2 ≤ corner := by omega
    · exact storesLT
    · exact storesRT
    · unfold corners at inside
      split at inside
      · next six =>
          obtain rfl : corner = 2 := by omega
          exact storesLB six
      · omega

theorem sum_next {cand mv mvd first : Mv} (difference : mvd = mv - cand - first) :
    cand + mvd + first = mv := by
  rw [difference]
  refine Mv.ext ?_ ?_
  · simp only [Mv.add_hor, Mv.sub_hor]
    omega
  · simp only [Mv.add_ver, Mv.sub_ver]
    omega

theorem derives_affine (affine : pu.cu.affine = true)
    (lists : ∀ X, usesList pu.interDir X = true → SearchedAffine amvp p pu X)
    (refs : ∀ X, usesList pu.interDir X = true → 0 < cs.numRefIdx X ∧ 0 ≤ pu.refIdx X)
    (entry : Motion.m_amvrPrecAffine[pu.cu.imv]? = some p) (ready : Ready p pu X r) :
    Derives pu X r (deriveAffine cs amvp X r) := by
  unfold deriveAffine
  rw [ready.head.interDir]
  by_cases uses : usesList pu.interDir X = true
  · have list := lists X uses
    have read := ready.list uses
    have legal : ¬ r.refIdx X < 0 := by
      rw [read.refIdx]
      exact not_lt.mpr (refs X uses).2
    have few := two_le_corners pu.cu
    rw [if_pos ⟨(refs X uses).1, uses⟩, if_neg legal]
    obtain ⟨r1, run, changed⟩ := changeMvdsAffi_run affine (fun corner inside => list.onGrid inside)
      (by rw [ready.imv]; exact entry) ready.head read
    rw [run]
    have type : r1.cu.affineType = pu.cu.affineType := by
      rw [changed.only.cu]
      exact ready.head.affineType affine
    have mvpIdx : r1.mvpIdx X = pu.mvpIdx X := by
      rw [changed.mvpIdx]
      exact read.mvpIdx
    have zero : amvp.mvCandAffi X (r1.mvpIdx X) 0 + r1.mvdAffi X 0 = pu.mvAffi X 0 := by
      rw [mvpIdx, changed.mvdAffi 0 (by omega)]
      exact sum_eq list.first
    have one : amvp.mvCandAffi X (r1.mvpIdx X) 1 + r1.mvdAffi X 1 + r1.mvdAffi X 0 =
        pu.mvAffi X 1 := by
      rw [mvpIdx, changed.mvdAffi 1 (by omega), changed.mvdAffi 0 (by omega)]
      exact sum_next (list.next 1 (by omega) Nat.zero_lt_one)
    have two : pu.cu.affineType = .AFFINEMODEL_6PARAM →
        (if r1.cu.affineType = .AFFINEMODEL_6PARAM then
          amvp.mvCandAffi X (r1.mvpIdx X) 2 + r1.mvdAffi X 2 + r1.mvdAffi X 0 else .zero) =
        pu.mvAffi X 2 := by
      intro six
      have three : corners pu.cu = 3 := if_pos six
      rw [if_pos (type.trans six), mvpIdx, changed.mvdAffi 2 (by omega),
        changed.mvdAffi 0 (by omega)]
      exact sum_next (list.next 2 (by omega) Nat.zero_lt_two)
    obtain ⟨r', stored, only, points⟩ := setAllAffineMv_run affine type list.small zero one two
    exact ⟨r', stored, changed.only.trans only, fun _ => points⟩
  · rw [if_neg fun both => uses both.2]
    exact .skip uses

/-! ## All units -/

/-- The unit of the reader behind `imv_mode`. -/
def withImv (pu r : PredictionUnit) : PredictionUnit := { r with cu.imv := pu.cu.imv }

theorem ready_withImv (read : ListsRead p pu r) (X : RefPicList) : Ready p pu X (withImv pu r) := by
  obtain ⟨⟨interDir, lwidth, lheight, predMode, affine, affineType, smvdMode⟩, lists⟩ := read
  refine ⟨⟨interDir, lwidth, lheight, predMode, affine, affineType, smvdMode⟩, rfl, fun uses => ?_⟩
  obtain ⟨refIdx, mvpIdx, mvd, mvdAffi⟩ := lists X uses
  exact ⟨refIdx, mvpIdx, mvd, mvdAffi⟩

/-- Both tables have the same precisions behind the first one. -/
theorem trans_of_ibc {imv : Nat} (entry : Motion.m_amvrPrecIbc[imv]? = some p) (nonzero : imv ≠ 0) :
    Motion.m_amvrPrecision[imv]? = some p := by
  match imv with
  | 0 => exact absurd rfl nonzero
  | 1 => exact entry
  | 2 => exact entry
  | imv + 3 => cases entry

theorem derives_plain (dir : pu.interDir = 1 ∨ pu.interDir = 2 ∨ pu.interDir = 3)
    (plain : pu.cu.affine = false) (searched : Searched cs amvp p pu) (imv : pu.cu.imv ≠ 0)
    (entry : Motion.m_amvrPrecision[pu.cu.imv]? = some p) (read : ListsRead p pu r) :
    ∃ r', xDeriveCUMV cs amvp (withImv pu r) = .ok r' ∧
      ∀ X, usesList pu.interDir X = true → StoredList pu X r' := by
  have ready := ready_withImv read
  have branch : (withImv pu r).cu.imv ≠ 0 ∧ ¬ (withImv pu r).cu.affine = true := by
    refine ⟨imv, ?_⟩
    rw [(ready .REF_PIC_LIST_0).head.affine, plain]
    decide
  rw [xDeriveCUMV, if_pos branch]
  exact derives_both (fun X r => derives_applyImv dir plain searched imv entry) ready

theorem derives_inter (valid : Inter cs pu) (searched : Searched cs amvp p pu)
    (read : ListsRead p pu r) :
    ∃ r', xDeriveCUMV cs amvp (withImv pu r) = .ok r' ∧
      ∀ X, usesList pu.interDir X = true → StoredList pu X r' := by
  have entry := searched.entry
  rw [precisionTable, if_neg (by simp [valid.mode])] at entry
  have refs (X : RefPicList) (uses : usesList pu.interDir X = true) :
      0 < cs.numRefIdx X ∧ 0 ≤ pu.refIdx X := by
    have range := valid.refIdx X uses
    omega
  have ready := ready_withImv read
  have head := (ready .REF_PIC_LIST_0).head
  by_cases affine : pu.cu.affine = true
  · rw [if_pos affine] at entry
    have isAffine : (withImv pu r).cu.affine = true := head.affine.trans affine
    rw [xDeriveCUMV, if_neg fun branch => branch.2 isAffine, if_pos isAffine]
    exact derives_both
      (fun X r => derives_affine affine (searched.affine affine) refs entry) ready
  · rw [if_neg affine] at entry
    have plain : pu.cu.affine = false := by simpa using affine
    by_cases imv : pu.cu.imv ≠ 0
    · exact derives_plain valid.dir plain searched imv entry read
    · have notAffine : ¬ (withImv pu r).cu.affine = true := by
        rw [head.affine]
        exact affine
      have notIbc : ¬ ((withImv pu r).cu.isIBC = true ∧ (withImv pu r).interDir = 1) := by
        have mode : (withImv pu r).cu.isIBC = pu.cu.isIBC := by
          simp only [InterSyntax.CodingUnit.isIBC, head.predMode]
        simp [mode, valid.mode]
      rw [xDeriveCUMV, if_neg fun branch => imv branch.1, if_neg notAffine, if_neg notIbc]
      exact derives_both
        (fun X r => derives_list plain (searched.list plain) (fun X uses => (refs X uses).1) entry)
        ready

theorem derives_ibc (valid : Ibc cs pu) (searched : Searched cs amvp p pu)
    (read : ListsRead p pu r) :
    ∃ r', xDeriveCUMV cs amvp (withImv pu r) = .ok r' ∧
      ∀ X, usesList pu.interDir X = true → StoredList pu X r' := by
  have entry := searched.entry
  rw [precisionTable, if_pos valid.mode] at entry
  by_cases imv : pu.cu.imv ≠ 0
  · exact derives_plain (.inl valid.dir) valid.affine searched imv (trans_of_ibc entry imv) read
  · have ready := ready_withImv read .REF_PIC_LIST_0
    have uses : usesList pu.interDir .REF_PIC_LIST_0 = true := by
      rw [valid.dir]
      decide
    have notAffine : ¬ (withImv pu r).cu.affine = true := by
      rw [ready.head.affine, valid.affine]
      decide
    have isIbc : (withImv pu r).cu.isIBC = true ∧ (withImv pu r).interDir = 1 := by
      refine ⟨?_, ready.head.interDir.trans valid.dir⟩
      rw [← valid.mode]
      simp only [InterSyntax.CodingUnit.isIBC, ready.head.predMode]
    rw [xDeriveCUMV, if_neg fun branch => imv branch.1, if_neg notAffine, if_pos isIbc]
    obtain ⟨r', run, stored⟩ := deriveIbc_run valid.affine (searched.list valid.affine _ uses) entry
      ready.imv valid.single (ready.list uses)
    refine ⟨r', run, fun X uses => ?_⟩
    cases X with
    | REF_PIC_LIST_0 => exact stored
    | REF_PIC_LIST_1 => simp [valid.dir, usesList, Motion.listBit] at uses

theorem derives_unit (valid : Explicit cs pu) (searched : Searched cs amvp p pu)
    (read : ListsRead p pu r) :
    ∃ r', xDeriveCUMV cs amvp (withImv pu r) = .ok r' ∧
      ∀ X, usesList pu.interDir X = true → StoredList pu X r' := by
  rcases valid.kind with inter | ibc
  · exact derives_inter inter searched read
  · exact derives_ibc ibc searched read

/-- The mirrored list is that of a symmetric unit. -/
theorem mirrored_of_searched (valid : Explicit cs pu) (searched : Searched cs amvp p pu)
    (on : pu.cu.smvdMode = 1) :
    coded p (pu.mvd .REF_PIC_LIST_1) =
      ⟨-(coded p (pu.mvd .REF_PIC_LIST_0)).hor, -(coded p (pu.mvd .REF_PIC_LIST_0)).ver⟩ := by
  rcases valid.kind with inter | ibc
  · rcases inter.symmetric with off | ⟨_, dir, plain, _⟩
    · omega
    · exact searched.mirrored plain dir on
  · have off := ibc.smvdMode
    omega

/-- The writer appends `bins`, and the reader takes them in front of anything and makes `r`. -/
structure Taken (cs : CodingStructure) (pu : PredictionUnit) (bins : List Bin)
    (r : PredictionUnit) : Prop where
  written : CABACWriter.predictionUnit cs pu [] = .ok ((), bins)
  read : ∀ rest, CABACReader.predictionUnit cs (start pu) (bins ++ rest) = .ok (r, rest)

/-- Differences whose components are below `2 ^ 17` in the precision of the mode are exact in that
precision, and the decoder makes the vectors of the encoder of them. -/
theorem motionVectors_survive (valid : Explicit cs pu) (searched : Searched cs amvp p pu)
    (codable : ∀ X, usesList pu.interDir X = true → ∀ mvd ∈ mvds pu X, Codable (coded p mvd)) :
    (∀ X, usesList pu.interDir X = true → ∀ mvd ∈ mvds pu X,
      (coded p mvd).changePrecision p MV_PRECISION_INTERNAL = mvd) ∧
    ∃ bins r r', Taken cs pu bins r ∧ xDeriveCUMV cs amvp (withImv pu r) = .ok r' ∧
      ∀ X, usesList pu.interDir X = true → StoredList pu X r' := by
  refine ⟨fun X uses mvd mem => Motion.changePrecision_exact (searched.onGrid uses mem), ?_⟩
  obtain ⟨bins, _, r, run, lists, read⟩ := taken_of_reads
    (reads_predictionUnit valid searched.entry codable searched.mvdL1Zero
      (mirrored_of_searched valid searched))
  obtain ⟨r', derived, stored⟩ := derives_unit valid searched lists
  exact ⟨bins, r, r', ⟨run, read⟩, derived, stored⟩

/-- A slice with two lists. -/
def sampleSlice : CodingStructure where
  sliceType := .B_SLICE
  IBCFlag := true
  useAffine := true
  useAffineType := true
  useMMVD := true
  useMHIntra := true
  useTriangle := true
  maxNumMergeCand := 6
  maxNumAffineMergeCand := 5
  maxNumIBCMergeCand := 6
  maxNumTriangleCand := 5
  mvdL1ZeroFlag := false
  numRefIdx _ := 2
  biDirPred := true
  symRefIdx _ := 0
  cuLeft := none
  cuAbove := none

/-- Predictors in whole samples. -/
def sampleAmvp : AMVP where
  mvCand X _ := if X = .REF_PIC_LIST_0 then ⟨32, -16⟩ else ⟨0, 48⟩
  mvCandAffi _ _ _ := .zero

/-- A symmetric unit in whole samples, with a component at the end of the range. -/
def sampleUnit : PredictionUnit :=
  { PredictionUnit.initData (.initData 16 16 .MODE_INTER false) with
    cu.imv := 1
    cu.smvdMode := 1
    interDir := 3
    mvpIdx := fun _ => 1
    refIdx := fun _ => 0
    mv := fun X => if X = .REF_PIC_LIST_0 then ⟨2097168, -32⟩ else ⟨-2097136, 64⟩
    mvd := fun X => if X = .REF_PIC_LIST_0 then ⟨2097136, -16⟩ else ⟨-2097136, 16⟩ }

theorem motionVectors_survive_symmetric :
    (∀ X, usesList sampleUnit.interDir X = true → ∀ mvd ∈ mvds sampleUnit X,
      (coded MV_PRECISION_INT mvd).changePrecision MV_PRECISION_INT MV_PRECISION_INTERNAL = mvd) ∧
    ∃ bins r r', Taken sampleSlice sampleUnit bins r ∧
      xDeriveCUMV sampleSlice sampleAmvp (withImv sampleUnit r) = .ok r' ∧
      ∀ X, usesList sampleUnit.interDir X = true → StoredList sampleUnit X r' := by
  have inter : Inter sampleSlice sampleUnit := {
    mode := rfl
    dir := .inr (.inr rfl)
    slice := by decide
    single := by decide
    restricted := by decide
    refIdx := fun _ _ => show (0 : Int) ≤ 0 ∧ (0 : Int) < 2 by decide
    mvpIdx := fun _ _ => le_refl 1
    affine := by decide
    affineType := by decide
    symmetric := .inr ⟨rfl, rfl, rfl, rfl⟩
    symRefIdx := fun _ _ => rfl }
  have list (X : RefPicList) : SearchedList sampleAmvp MV_PRECISION_INT sampleUnit X := by
    cases X
    all_goals exact ⟨⟨by decide, by decide⟩, ⟨by decide, by decide⟩, ⟨by decide, by decide⟩, rfl⟩
  have searched : Searched sampleSlice sampleAmvp MV_PRECISION_INT sampleUnit := {
    entry := rfl
    list := fun _ X _ => list X
    affine := nofun
    symmetric := fun _ => rfl
    mvdL1Zero := nofun }
  refine motionVectors_survive ⟨rfl, rfl, .inl inter⟩ searched fun X _ mvd mem => ?_
  rw [List.mem_singleton.mp mem]
  cases X
  all_goals exact ⟨by decide, by decide⟩

end Vtm.RoundTrip.MotionVectors
