import Vtm.Merge.AffineRange
import Vtm.RoundTrip.Mvd

/-!
# The prediction unit round trip

The syntax of a unit that is not merged is read back, and the motion vectors that the decoder makes
of its differences are those of the encoder.
-/

namespace Vtm.RoundTrip.PredictionUnit

open Vtm.Std Vtm.Bin InterSyntax
open Motion (Mv MvPrecision otherList)
open Motion.MvPrecision
open RefPics (RefPicList)
open RoundTrip.Mvd
open Function (update update_self update_of_ne)

/-! ## The elements -/

section

variable {cs : CodingStructure} {pu r : PredictionUnit} {X : RefPicList}

theorem reads_mvpFlag (bit : pu.mvpIdx X ≤ 1) :
    Reads (CABACWriter.mvpFlag pu X) (CABACReader.mvpFlag X r)
      (fun _ r' => r' = CABACReader.setMvpIdx r X (pu.mvpIdx X)) := by
  refine Codes.readerMap _ (reads_bin _ _) ?_
  rintro _ _ rfl
  have same : (decide (pu.mvpIdx X ≠ 0)).toNat = pu.mvpIdx X := by
    obtain zero | one : pu.mvpIdx X = 0 ∨ pu.mvpIdx X = 1 := by omega
    · rw [zero]
      rfl
    · rw [one]
      rfl
  rw [same]

theorem reads_refIdxLoop {refIdx : Int} {left idx : Nat} (low : (idx : Int) - 1 ≤ refIdx)
    (high : refIdx ≤ (idx : Int) + left - 1) :
    Reads (CABACWriter.refIdxLoop refIdx left idx) (CABACReader.refIdxLoop left idx)
      (fun _ value => value = refIdx) := by
  induction left generalizing idx with
  | zero => exact Codes.pure (by omega)
  | succ left ih =>
      unfold CABACWriter.refIdxLoop CABACReader.refIdxLoop
      by_cases more : refIdx > (idx : Int) - 1
      · rw [if_pos more]
        refine Codes.bind (reads_binEP true) ?_
        rintro _ _ rfl
        exact ih (by omega) (by omega)
      · rw [if_neg more]
        refine (reads_binEP false).readerAfter ?_
        rintro _ _ rfl
        exact ⟨(idx : Int) - 1, Accepts.pure _, by omega⟩

theorem reads_refIdxBins {refIdx : Int} {numRef : Nat} (range : 0 ≤ refIdx ∧ refIdx < numRef) :
    Reads (CABACWriter.codeRefIdx refIdx numRef) (CABACReader.readRefIdx numRef)
      (fun _ value => value = refIdx) := by
  unfold CABACWriter.codeRefIdx CABACReader.readRefIdx
  by_cases single : numRef ≤ 1
  · rw [if_pos single, if_pos single]
    exact Codes.pure (by omega)
  rw [if_neg single, if_neg single]
  refine Codes.bind (reads_bin _ _) ?_
  rintro _ _ rfl
  by_cases zero : refIdx = 0
  · rw [if_pos (.inr zero), if_pos (by simp [zero])]
    exact Codes.pure zero.symm
  have positive : ¬ decide (refIdx > 0) = false := by
    simpa using (by omega : 0 < refIdx)
  rw [if_neg positive]
  by_cases two : numRef ≤ 2
  · rw [if_pos (.inl two), if_pos two]
    exact Codes.pure (by omega)
  have more : ¬ (numRef ≤ 2 ∨ refIdx = 0) := by omega
  rw [if_neg more, if_neg two]
  refine Codes.bind (reads_bin _ _) ?_
  rintro _ _ rfl
  by_cases one : refIdx = 1
  · rw [if_pos (.inr one), if_pos (by simp [one])]
    exact Codes.pure one.symm
  have above : ¬ decide (refIdx > 1) = false := by
    simpa using (by omega : 1 < refIdx)
  rw [if_neg above]
  by_cases three : numRef ≤ 3
  · rw [if_pos (.inl three), Nat.sub_eq_zero_of_le three]
    exact Codes.pure (by omega)
  · have longer : ¬ (numRef ≤ 3 ∨ refIdx = 1) := by omega
    rw [if_neg longer]
    exact reads_refIdxLoop (by omega) (by omega)

/-- The reference index of a list that a unit with `MODE_INTER` uses. -/
theorem reads_refIdx (inter : pu.cu.isIBC = false) (mode : r.cu.smvdMode = pu.cu.smvdMode)
    (symmetric : pu.cu.smvdMode ≠ 0 → pu.refIdx X = cs.symRefIdx X)
    (range : 0 ≤ pu.refIdx X ∧ pu.refIdx X < cs.numRefIdx X) :
    Reads (CABACWriter.refIdx cs pu X) (CABACReader.refIdx cs X r)
      (fun _ r' => r' = CABACReader.setRefIdx r X (pu.refIdx X)) := by
  unfold CABACWriter.refIdx CABACReader.refIdx
  rw [mode]
  by_cases smvd : pu.cu.smvdMode ≠ 0
  · rw [if_pos smvd, if_pos smvd]
    exact Codes.writerGuard (.inr (not_not.mpr (symmetric smvd))) fun _ => by rw [symmetric smvd]
  · have notIbc : ¬ (X = .REF_PIC_LIST_0 ∧ cs.IBCFlag = true ∧ pu.cu.isIBC = true) := by
      simp [inter]
    rw [if_neg smvd, if_neg smvd, if_neg notIbc]
    refine Codes.readerMap (CABACReader.setRefIdx r X) (reads_refIdxBins range) ?_
    rintro _ _ rfl
    rfl

theorem reads_interPredIdc (dir : pu.interDir = 1 ∨ pu.interDir = 2 ∨ pu.interDir = 3)
    (slice : cs.sliceType ≠ .I_SLICE) (single : cs.isInterP = true → pu.interDir = 1)
    (restricted : isBipredRestriction pu.cu = true → pu.interDir ≠ 3)
    (width : r.cu.lwidth = pu.cu.lwidth) (height : r.cu.lheight = pu.cu.lheight) :
    Reads (CABACWriter.interPredIdc cs pu) (CABACReader.interPredIdc cs r)
      (fun _ r' => r' = { r with interDir := pu.interDir }) := by
  have sizes : isBipredRestriction r.cu = isBipredRestriction pu.cu ∧
      CtxInterDir r.cu = CtxInterDir pu.cu := by
    simp only [isBipredRestriction, CtxInterDir, width, height, and_self]
  -- one list: the last bin tells which
  have uni (one : pu.interDir ≠ 3) : Reads (CABACWriter.encodeBin (pu.interDir = 2) ⟨.InterDir, 5⟩)
      (CABACReader.readUniDir >>= fun interDir => pure { r with interDir })
      (fun _ r' => r' = { r with interDir := pu.interDir }) := by
    unfold CABACReader.readUniDir
    simp only [bind_assoc, pure_bind]
    refine Codes.readerMap (fun second : Bool => { r with interDir := if second then 2 else 1 })
      (reads_bin _ _) ?_
    rintro _ _ rfl
    by_cases second : pu.interDir = 2
    · simp [second]
    · have first : pu.interDir = 1 := by omega
      simp [first]
  unfold CABACWriter.interPredIdc CABACReader.interPredIdc
  rw [sizes.1, sizes.2]
  cases type : cs.sliceType with
  | I_SLICE => exact absurd type slice
  | P_SLICE =>
      have inP : cs.isInterP = true := by simp [CodingStructure.isInterP, type]
      have notB : ¬ cs.isInterB = true := by simp [CodingStructure.isInterB, type]
      rw [if_pos notB, if_pos inP]
      exact Codes.pure (by rw [single inP])
  | B_SLICE =>
      have notP : ¬ cs.isInterP = true := by simp [CodingStructure.isInterP, type]
      have inB : ¬ ¬ cs.isInterB = true := by simp [CodingStructure.isInterB, type]
      rw [if_neg inB, if_neg notP]
      by_cases small : isBipredRestriction pu.cu = true
      · rw [if_neg (not_not.mpr small), if_neg (not_not.mpr small)]
        exact uni (restricted small)
      · rw [if_pos small, if_pos small]
        by_cases both : pu.interDir = 3
        · rw [if_pos both]
          refine (reads_bin true _).readerAfter ?_
          rintro _ _ rfl
          exact ⟨{ r with interDir := 3 }, Accepts.pure _, by rw [both]⟩
        · rw [if_neg both]
          refine Codes.bind (reads_bin false _) ?_
          rintro _ _ rfl
          exact uni both

/-- The unit with the affine fields of another one. -/
def withAffine (pu r : PredictionUnit) : PredictionUnit :=
  { r with
    cu.affine := pu.cu.affine
    cu.affineType := if pu.cu.affine then pu.cu.affineType else .AFFINEMODEL_4PARAM }

theorem reads_affineFlag (width : r.cu.lwidth = pu.cu.lwidth)
    (height : r.cu.lheight = pu.cu.lheight) (plain : r.cu.affine = false)
    (fourParam : r.cu.affineType = .AFFINEMODEL_4PARAM)
    (allowed : pu.cu.affine = true → cs.hasAffineFlag pu.cu = true)
    (type : pu.cu.affine = true → pu.cu.affineType = .AFFINEMODEL_4PARAM ∨
      (pu.cu.affineType = .AFFINEMODEL_6PARAM ∧ cs.useAffineType = true)) :
    Reads (CABACWriter.affineFlag cs pu.cu) (CABACReader.affineFlag cs r)
      (fun _ r' => r' = withAffine pu r) := by
  have same : cs.hasAffineFlag r.cu = cs.hasAffineFlag pu.cu := by
    simp only [CodingStructure.hasAffineFlag, width, height]
  unfold CABACWriter.affineFlag CABACReader.affineFlag
  rw [same]
  by_cases present : cs.hasAffineFlag pu.cu = true
  · rw [if_pos present, if_pos present]
    refine Codes.bind (reads_bin _ _) ?_
    rintro _ _ rfl
    unfold CABACWriter.codeAffineType CABACReader.readAffineType withAffine
    by_cases coded : pu.cu.affine = true ∧ cs.useAffineType = true
    · rw [if_pos coded, if_pos coded]
      refine Codes.readerMap _ (reads_bin _ _) ?_
      rintro _ _ rfl
      obtain four | ⟨six, _⟩ := type coded.1
      · simp [four]
      · simp [six, coded.1]
    · rw [if_neg coded, if_neg coded]
      refine Codes.pure ?_
      by_cases affine : pu.cu.affine = true
      · have four : pu.cu.affineType = .AFFINEMODEL_4PARAM :=
          (type affine).resolve_right fun six => coded ⟨affine, six.2⟩
        rw [if_pos affine, four]
      · rw [if_neg affine]
  · rw [if_neg present, if_neg present]
    have none : pu.cu.affine = false := by
      simpa using fun affine => present (allowed affine)
    have same : { r.cu with affine := false, affineType := .AFFINEMODEL_4PARAM } = r.cu := by
      rw [← fourParam, ← plain]
    refine Codes.pure ?_
    simp only [withAffine, none, Bool.false_eq_true, if_false, same]

theorem reads_smvdMode (dir : r.interDir = pu.interDir) (affine : r.cu.affine = pu.cu.affine)
    (symmetric : pu.cu.smvdMode = 0 ∨ (pu.cu.smvdMode = 1 ∧ pu.interDir = 3 ∧ pu.cu.affine = false ∧
      cs.biDirPred = true)) :
    Reads (CABACWriter.smvdMode cs pu) (CABACReader.smvdMode cs r)
      (fun _ r' => r' = { r with cu.smvdMode := pu.cu.smvdMode }) := by
  unfold CABACWriter.smvdMode CABACReader.smvdMode
  rw [dir, affine]
  by_cases other : pu.interDir ≠ 3 ∨ pu.cu.affine = true
  · rw [if_pos other, if_pos other]
    have off : pu.cu.smvdMode = 0 := symmetric.resolve_right fun mode => by
      simp [mode.2.1, mode.2.2.1] at other
    exact Codes.pure (by rw [off])
  rw [if_neg other, if_neg other]
  by_cases none : cs.biDirPred = false
  · rw [if_pos none, if_pos none]
    have off : pu.cu.smvdMode = 0 := symmetric.resolve_right fun mode => by
      simp [mode.2.2.2] at none
    exact Codes.pure (by rw [off])
  · rw [if_neg none, if_neg none]
    refine Codes.readerMap _ (reads_bin _ _) ?_
    rintro _ _ rfl
    rcases symmetric with zero | ⟨one, _⟩
    · simp [zero]
    · simp [one]

/-! ## The differences of a list -/

/-- A difference in the precision in which it is signalled. -/
def coded (p : MvPrecision) (mvd : Mv) : Mv := mvd.changePrecision MV_PRECISION_INTERNAL p

/-- The number of control points. -/
@[grind =] def corners (cu : InterSyntax.CodingUnit) : Nat :=
  if cu.affineType = .AFFINEMODEL_6PARAM then 3 else 2

/-- The table of a unit. -/
def precisionTable (cu : InterSyntax.CodingUnit) : List MvPrecision :=
  if cu.isIBC then Motion.m_amvrPrecIbc
  else if cu.affine then Motion.m_amvrPrecAffine
  else Motion.m_amvrPrecision

/-- The differences of a list. -/
def mvds (pu : PredictionUnit) (X : RefPicList) : List Mv :=
  if pu.cu.affine then (List.range (corners pu.cu)).map (pu.mvdAffi X) else [pu.mvd X]

/-- What the reader has stored of a list. -/
structure ListRead (p : MvPrecision) (pu : PredictionUnit) (X : RefPicList) (r : PredictionUnit) :
    Prop where
  refIdx : r.refIdx X = pu.refIdx X
  mvpIdx : r.mvpIdx X = pu.mvpIdx X
  mvd : pu.cu.affine = false → r.mvd X = coded p (pu.mvd X)
  mvdAffi : pu.cu.affine = true → ∀ corner < corners pu.cu,
    r.mvdAffi X corner = coded p (pu.mvdAffi X corner)

/-- Nothing but one list has changed. -/
structure OnlyList (X : RefPicList) (r r' : PredictionUnit) : Prop where
  cu : r'.cu = r.cu
  interDir : r'.interDir = r.interDir
  refIdx : ∀ Y, Y ≠ X → r'.refIdx Y = r.refIdx Y
  mvpIdx : ∀ Y, Y ≠ X → r'.mvpIdx Y = r.mvpIdx Y
  mvd : ∀ Y, Y ≠ X → r'.mvd Y = r.mvd Y
  mvdAffi : ∀ Y, Y ≠ X → r'.mvdAffi Y = r.mvdAffi Y

theorem ListRead.of_only {p : MvPrecision} {Y : RefPicList} {r' : PredictionUnit}
    (read : ListRead p pu Y r) (only : OnlyList X r r') (other : Y ≠ X) : ListRead p pu Y r' where
  refIdx := (only.refIdx Y other).trans read.refIdx
  mvpIdx := (only.mvpIdx Y other).trans read.mvpIdx
  mvd plain := (only.mvd Y other).trans (read.mvd plain)
  mvdAffi affine corner inside := by
    rw [only.mvdAffi Y other]
    exact read.mvdAffi affine corner inside

/-- The differences of a list in the unit of the reader. -/
@[grind =] def gotMvds (p : MvPrecision) (pu : PredictionUnit) (X : RefPicList) (r : PredictionUnit) :
    PredictionUnit :=
  if pu.cu.affine then
    let r := CABACReader.setMvdAffi r X 0 (coded p (pu.mvdAffi X 0))
    let r := CABACReader.setMvdAffi r X 1 (coded p (pu.mvdAffi X 1))
    if pu.cu.affineType = .AFFINEMODEL_6PARAM then
      CABACReader.setMvdAffi r X 2 (coded p (pu.mvdAffi X 2))
    else r
  else CABACReader.setMvd r X (coded p (pu.mvd X))

/-- A list of the unit of the reader. -/
def gotList (p : MvPrecision) (pu : PredictionUnit) (X : RefPicList) (r : PredictionUnit) :
    PredictionUnit :=
  CABACReader.setMvpIdx (gotMvds p pu X (CABACReader.setRefIdx r X (pu.refIdx X))) X (pu.mvpIdx X)

theorem setMvdAffi_only (r : PredictionUnit) (X : RefPicList) (corner : Nat) (mvd : Mv) :
    OnlyList X r (CABACReader.setMvdAffi r X corner mvd) where
  cu := rfl
  interDir := rfl
  refIdx _ _ := rfl
  mvpIdx _ _ := rfl
  mvd _ _ := rfl
  mvdAffi _ other := update_of_ne other ..

theorem setMvd_only (r : PredictionUnit) (X : RefPicList) (mvd : Mv) :
    OnlyList X r (CABACReader.setMvd r X mvd) where
  cu := rfl
  interDir := rfl
  refIdx _ _ := rfl
  mvpIdx _ _ := rfl
  mvd _ other := update_of_ne other ..
  mvdAffi _ _ := rfl

theorem setMvpIdx_only (r : PredictionUnit) (X : RefPicList) (mvpIdx : Nat) :
    OnlyList X r (CABACReader.setMvpIdx r X mvpIdx) where
  cu := rfl
  interDir := rfl
  refIdx _ _ := rfl
  mvpIdx _ other := update_of_ne other ..
  mvd _ _ := rfl
  mvdAffi _ _ := rfl

theorem setRefIdx_only (r : PredictionUnit) (X : RefPicList) (refIdx : Int) :
    OnlyList X r (CABACReader.setRefIdx r X refIdx) where
  cu := rfl
  interDir := rfl
  refIdx _ other := update_of_ne other ..
  mvpIdx _ _ := rfl
  mvd _ _ := rfl
  mvdAffi _ _ := rfl

theorem OnlyList.trans {r r' r'' : PredictionUnit} (first : OnlyList X r r')
    (second : OnlyList X r' r'') : OnlyList X r r'' where
  cu := second.cu.trans first.cu
  interDir := second.interDir.trans first.interDir
  refIdx Y other := (second.refIdx Y other).trans (first.refIdx Y other)
  mvpIdx Y other := (second.mvpIdx Y other).trans (first.mvpIdx Y other)
  mvd Y other := (second.mvd Y other).trans (first.mvd Y other)
  mvdAffi Y other := (second.mvdAffi Y other).trans (first.mvdAffi Y other)

theorem gotMvds_only (p : MvPrecision) (pu : PredictionUnit) (X : RefPicList) (r : PredictionUnit) :
    OnlyList X r (gotMvds p pu X r) := by
  unfold gotMvds
  dsimp only
  split
  · have two := (setMvdAffi_only r X 0 (coded p (pu.mvdAffi X 0))).trans
      (setMvdAffi_only _ X 1 (coded p (pu.mvdAffi X 1)))
    split
    · exact two.trans (setMvdAffi_only ..)
    · exact two
  · exact setMvd_only ..

theorem gotMvds_mvd {p : MvPrecision} (plain : pu.cu.affine = false) :
    (gotMvds p pu X r).mvd X = coded p (pu.mvd X) := by
  unfold gotMvds
  rw [if_neg (by simp [plain])]
  exact update_self ..

theorem gotMvds_mvdAffi {p : MvPrecision} (affine : pu.cu.affine = true) {corner : Nat}
    (inside : corner < corners pu.cu) :
    (gotMvds p pu X r).mvdAffi X corner = coded p (pu.mvdAffi X corner) := by
  unfold gotMvds corners at *
  rw [if_pos affine]
  dsimp only
  split at inside
  · next six =>
      rw [if_pos six, CABACReader.setMvdAffi_self, CABACReader.setMvdAffi_self,
      CABACReader.setMvdAffi_self]
      obtain rfl | rfl | rfl : corner = 0 ∨ corner = 1 ∨ corner = 2 := by omega
      all_goals simp [update]
  · next four =>
      rw [if_neg four, CABACReader.setMvdAffi_self, CABACReader.setMvdAffi_self]
      obtain rfl | rfl : corner = 0 ∨ corner = 1 := by omega
      all_goals simp [update]

theorem gotMvds_rest (p : MvPrecision) (pu : PredictionUnit) (X : RefPicList) (r : PredictionUnit) :
    (gotMvds p pu X r).refIdx = r.refIdx ∧ (gotMvds p pu X r).mvpIdx = r.mvpIdx := by
  unfold gotMvds
  dsimp only
  split
  · split
    · exact ⟨rfl, rfl⟩
    · exact ⟨rfl, rfl⟩
  · exact ⟨rfl, rfl⟩

theorem gotList_spec (p : MvPrecision) (pu : PredictionUnit) (X : RefPicList) (r : PredictionUnit) :
    ListRead p pu X (gotList p pu X r) ∧ OnlyList X r (gotList p pu X r) := by
  have rest := gotMvds_rest p pu X (CABACReader.setRefIdx r X (pu.refIdx X))
  have only := (setRefIdx_only r X (pu.refIdx X)).trans (gotMvds_only p pu X _)
  refine ⟨⟨?_, CABACReader.setMvpIdx_self .., fun plain => gotMvds_mvd plain, fun affine corner inside =>
    gotMvds_mvdAffi affine inside⟩, only.trans (setMvpIdx_only _ X _)⟩
  show (gotMvds p pu X _).refIdx X = _
  rw [rest.1, CABACReader.setRefIdx_self]

theorem reads_changed {x : Checked Mv} {mvd : Mv} (run : x = .ok mvd) (codable : Codable mvd) :
    Reads (do let mvd ← x
              CABACWriter.mvdCoding mvd) CABACReader.mvdCoding (fun _ value => value = mvd) := by
  refine Codes.writerStep (· = mvd) (fun bins => .inr ⟨mvd, ?_, rfl⟩) ?_
  · rw [run]
    rfl
  · rintro _ rfl
    exact reads_mvdCoding codable

theorem mem_mvds_affine (affine : pu.cu.affine = true) {corner : Nat} (inside : corner < corners pu.cu) :
    pu.mvdAffi X corner ∈ mvds pu X := by
  rw [mvds, if_pos affine]
  exact List.mem_map_of_mem (List.mem_range.mpr inside)

theorem mem_mvds_plain (plain : pu.cu.affine = false) : pu.mvd X ∈ mvds pu X := by
  rw [mvds, if_neg (by simp [plain])]
  exact List.mem_singleton_self _

theorem two_le_corners (cu : InterSyntax.CodingUnit) : 2 ≤ corners cu := by
  unfold corners
  split
  · decide
  · decide

variable {p : MvPrecision}

theorem reads_mvdAffi (entry : Motion.m_amvrPrecAffine[pu.cu.imv]? = some p) {corner : Nat}
    (codable : Codable (coded p (pu.mvdAffi X corner))) :
    Reads (CABACWriter.codeMvdAffi pu X corner) (CABACReader.readMvdAffi X corner r)
      (fun _ r' => r' = CABACReader.setMvdAffi r X corner (coded p (pu.mvdAffi X corner))) := by
  refine Codes.readerMap (fun mvd => CABACReader.setMvdAffi r X corner mvd)
    (reads_changed (internal2Amvr_ok _ entry) codable) ?_
  rintro _ _ rfl
  rfl

theorem reads_mvds (inter : pu.cu.isIBC = false)
    (entry : (precisionTable pu.cu)[pu.cu.imv]? = some p)
    (codable : ∀ mvd ∈ mvds pu X, Codable (coded p mvd)) (affine : r.cu.affine = pu.cu.affine)
    (type : pu.cu.affine = true → r.cu.affineType = pu.cu.affineType) :
    Reads (CABACWriter.codeMvds pu X) (CABACReader.readMvds X r)
      (fun _ r' => r' = gotMvds p pu X r) := by
  unfold CABACWriter.codeMvds CABACReader.readMvds gotMvds
  rw [precisionTable, if_neg (by simp [inter])] at entry
  rw [affine]
  by_cases isAffine : pu.cu.affine = true
  · rw [if_pos isAffine] at entry
    rw [if_pos isAffine, if_pos isAffine, if_pos isAffine]
    have atCorner {corner : Nat} (inside : corner < corners pu.cu) :=
      codable _ (mem_mvds_affine isAffine inside)
    have two := two_le_corners pu.cu
    refine Codes.bind (reads_mvdAffi entry (atCorner (by omega))) ?_
    rintro _ _ rfl
    refine Codes.bind (reads_mvdAffi entry (atCorner (by omega))) ?_
    rintro _ _ rfl
    unfold CABACWriter.codeMvdAffiLB CABACReader.readMvdAffiLB
    simp only [CABACReader.setMvdAffi_cu, type isAffine]
    by_cases six : pu.cu.affineType = .AFFINEMODEL_6PARAM
    · have inside : 2 < corners pu.cu := by
        rw [corners, if_pos six]
        decide
      simp only [six, if_true]
      exact reads_mvdAffi entry (atCorner inside)
    · simp only [six, if_false]
      exact Codes.pure rfl
  · rw [if_neg isAffine] at entry
    rw [if_neg isAffine, if_neg isAffine, if_neg isAffine]
    have inside := codable _ (mem_mvds_plain (X := X) (by simpa using isAffine))
    refine Codes.readerMap (fun mvd => CABACReader.setMvd r X mvd)
      (reads_changed (internal2Amvr_ok _ entry) inside) ?_
    rintro _ _ rfl
    rfl

/-! ## Units with `MODE_INTER` -/

/-- The units with `MODE_INTER` that are not merged and that the settings allow. -/
structure Inter (cs : CodingStructure) (pu : PredictionUnit) : Prop where
  mode : pu.cu.isIBC = false
  dir : pu.interDir = 1 ∨ pu.interDir = 2 ∨ pu.interDir = 3
  slice : cs.sliceType ≠ .I_SLICE
  single : cs.isInterP = true → pu.interDir = 1
  restricted : isBipredRestriction pu.cu = true → pu.interDir ≠ 3
  refIdx : ∀ X, DecCu.usesList pu.interDir X = true →
    0 ≤ pu.refIdx X ∧ pu.refIdx X < cs.numRefIdx X
  mvpIdx : ∀ X, DecCu.usesList pu.interDir X = true → pu.mvpIdx X ≤ 1
  affine : pu.cu.affine = true → cs.hasAffineFlag pu.cu = true
  affineType : pu.cu.affine = true → pu.cu.affineType = .AFFINEMODEL_4PARAM ∨
    (pu.cu.affineType = .AFFINEMODEL_6PARAM ∧ cs.useAffineType = true)
  symmetric : pu.cu.smvdMode = 0 ∨ (pu.cu.smvdMode = 1 ∧ pu.interDir = 3 ∧ pu.cu.affine = false ∧
    cs.biDirPred = true)
  symRefIdx : pu.cu.smvdMode ≠ 0 → ∀ X, pu.refIdx X = cs.symRefIdx X

/-- What the reader has stored of a unit besides its lists. -/
structure HeadRead (pu r : PredictionUnit) : Prop where
  interDir : r.interDir = pu.interDir
  lwidth : r.cu.lwidth = pu.cu.lwidth
  lheight : r.cu.lheight = pu.cu.lheight
  predMode : r.cu.predMode = pu.cu.predMode
  affine : r.cu.affine = pu.cu.affine
  affineType : pu.cu.affine = true → r.cu.affineType = pu.cu.affineType
  smvdMode : r.cu.smvdMode = pu.cu.smvdMode

theorem HeadRead.of_only {r' : PredictionUnit} (head : HeadRead pu r) (only : OnlyList X r r') :
    HeadRead pu r' := by
  obtain ⟨interDir, lwidth, lheight, predMode, affine, affineType, smvdMode⟩ := head
  constructor
  · exact only.interDir.trans interDir
  all_goals rwa [only.cu]

theorem OnlyList.refl (X : RefPicList) (r : PredictionUnit) : OnlyList X r r :=
  ⟨rfl, rfl, fun _ _ => rfl, fun _ _ => rfl, fun _ _ => rfl, fun _ _ => rfl⟩

theorem uses_list0_iff (dir : pu.interDir = 1 ∨ pu.interDir = 2 ∨ pu.interDir = 3) :
    DecCu.usesList pu.interDir .REF_PIC_LIST_0 = true ↔ pu.interDir ≠ 2 := by
  rcases dir with one | two | three
  · simp [DecCu.usesList, Motion.listBit, one]
  · simp [DecCu.usesList, Motion.listBit, two]
  · simp [DecCu.usesList, Motion.listBit, three]

theorem uses_list1_iff (dir : pu.interDir = 1 ∨ pu.interDir = 2 ∨ pu.interDir = 3) :
    DecCu.usesList pu.interDir .REF_PIC_LIST_1 = true ↔ pu.interDir ≠ 1 := by
  rcases dir with one | two | three
  · simp [DecCu.usesList, Motion.listBit, one]
  · simp [DecCu.usesList, Motion.listBit, two]
  · simp [DecCu.usesList, Motion.listBit, three]

theorem coded_zero (p : MvPrecision) : coded p .zero = .zero := by
  have component : Motion.changePrecisionComp MV_PRECISION_INTERNAL p 0 = 0 := by
    have whole := Motion.changePrecisionComp_mul (p := p) 0
    rwa [zero_mul] at whole
  exact Mv.ext component component

/-- The second list in the unit of the reader, without differences. -/
def gotCleared (pu r : PredictionUnit) : PredictionUnit :=
  CABACReader.setMvpIdx
    (CABACReader.clearMvds
      (CABACReader.setRefIdx r .REF_PIC_LIST_1 (pu.refIdx .REF_PIC_LIST_1)))
    .REF_PIC_LIST_1 (pu.mvpIdx .REF_PIC_LIST_1)

theorem listRead_cleared (zero : ∀ mvd ∈ mvds pu .REF_PIC_LIST_1, mvd = .zero) (r : PredictionUnit) :
    ListRead p pu .REF_PIC_LIST_1 (gotCleared pu r) where
  refIdx := by
    rw [gotCleared, CABACReader.setMvpIdx_refIdx, CABACReader.clearMvds_refIdx,
      CABACReader.setRefIdx_self]
  mvpIdx := CABACReader.setMvpIdx_self ..
  mvd plain := by
    rw [zero _ (mem_mvds_plain plain), coded_zero, gotCleared, CABACReader.setMvpIdx_mvd,
      CABACReader.clearMvds_mvd]
  mvdAffi affine corner inside := by
    have few : corner < 3 := by
      unfold corners at inside
      split at inside <;> omega
    rw [zero _ (mem_mvds_affine affine inside), coded_zero, gotCleared,
      CABACReader.setMvpIdx_mvdAffi, CABACReader.clearMvds_mvdAffi _ few]

theorem clearMvds_only (r : PredictionUnit) : OnlyList .REF_PIC_LIST_1 r (CABACReader.clearMvds r) :=
  (setMvd_only r _ .zero).trans ((setMvdAffi_only _ _ 0 .zero).trans
    ((setMvdAffi_only _ _ 1 .zero).trans (setMvdAffi_only _ _ 2 .zero)))

theorem reads_list0 (valid : Inter cs pu) (entry : (precisionTable pu.cu)[pu.cu.imv]? = some p)
    (codable : pu.interDir ≠ 2 → ∀ mvd ∈ mvds pu .REF_PIC_LIST_0, Codable (coded p mvd))
    (head : HeadRead pu r) :
    Reads (CABACWriter.codeList0 cs pu) (CABACReader.readList0 cs r) (fun _ r' =>
      OnlyList .REF_PIC_LIST_0 r r' ∧ (pu.interDir ≠ 2 → ListRead p pu .REF_PIC_LIST_0 r')) := by
  unfold CABACWriter.codeList0 CABACReader.readList0
  rw [head.interDir]
  by_cases used : pu.interDir ≠ 2
  · have uses := (uses_list0_iff valid.dir).mpr used
    rw [if_pos used, if_pos used]
    refine Codes.bind (reads_refIdx valid.mode head.smvdMode (fun on => valid.symRefIdx on _)
      (valid.refIdx _ uses)) ?_
    rintro _ _ rfl
    refine Codes.bind (reads_mvds valid.mode entry (codable used) head.affine head.affineType) ?_
    rintro _ _ rfl
    refine (reads_mvpFlag (valid.mvpIdx _ uses)).weaken ?_
    rintro _ _ rfl
    have spec := gotList_spec p pu .REF_PIC_LIST_0 r
    exact ⟨spec.2, fun _ => spec.1⟩
  · rw [if_neg used, if_neg used]
    exact Codes.pure ⟨OnlyList.refl _ r, fun one => absurd one used⟩

/-- The second list, whose differences may be mirrored or left out. -/
theorem reads_list1 (valid : Inter cs pu) (entry : (precisionTable pu.cu)[pu.cu.imv]? = some p)
    (codable : pu.interDir ≠ 1 → ∀ mvd ∈ mvds pu .REF_PIC_LIST_1, Codable (coded p mvd))
    (zero : cs.mvdL1ZeroFlag = true → pu.interDir = 3 →
      ∀ mvd ∈ mvds pu .REF_PIC_LIST_1, mvd = .zero) (head : HeadRead pu r) :
    Reads (CABACWriter.codeList1 cs pu) (CABACReader.readList1 cs r) (fun _ r' =>
      OnlyList .REF_PIC_LIST_1 r r' ∧ (pu.interDir ≠ 1 →
        r'.mvpIdx .REF_PIC_LIST_1 = pu.mvpIdx .REF_PIC_LIST_1 ∧
          (pu.cu.smvdMode ≠ 1 → ListRead p pu .REF_PIC_LIST_1 r'))) := by
  unfold CABACWriter.codeList1 CABACReader.readList1
  rw [head.interDir]
  by_cases used : pu.interDir ≠ 1
  · have uses := (uses_list1_iff valid.dir).mpr used
    rw [if_pos used, if_pos used]
    unfold CABACWriter.codeMotionList1 CABACReader.readMotionList1
    rw [head.smvdMode]
    by_cases coded : pu.cu.smvdMode ≠ 1
    · rw [if_pos coded, if_pos coded, bind_assoc, bind_assoc]
      refine Codes.bind (reads_refIdx valid.mode head.smvdMode (fun on => valid.symRefIdx on _)
        (valid.refIdx _ uses)) ?_
      rintro _ _ rfl
      unfold CABACWriter.codeMvdsList1 CABACReader.readMvdsList1
      rw [show (CABACReader.setRefIdx r .REF_PIC_LIST_1 _).interDir = pu.interDir from head.interDir]
      by_cases left : cs.mvdL1ZeroFlag = true ∧ pu.interDir = 3
      · have notCoded : ¬ (¬ cs.mvdL1ZeroFlag = true ∨ pu.interDir ≠ 3) := by simp [left.1, left.2]
        rw [if_neg notCoded, if_pos left, pure_bind, pure_bind]
        refine (reads_mvpFlag (valid.mvpIdx _ uses)).weaken ?_
        rintro _ _ rfl
        have read := listRead_cleared (p := p) (zero left.1 left.2) r
        have only := ((setRefIdx_only r .REF_PIC_LIST_1 (pu.refIdx .REF_PIC_LIST_1)).trans
          (clearMvds_only _)).trans (setMvpIdx_only _ .REF_PIC_LIST_1 (pu.mvpIdx .REF_PIC_LIST_1))
        exact ⟨only, fun _ => ⟨read.mvpIdx, fun _ => read⟩⟩
      · have isCoded : ¬ cs.mvdL1ZeroFlag = true ∨ pu.interDir ≠ 3 := by
          by_cases flag : cs.mvdL1ZeroFlag = true
          · exact .inr fun both => left ⟨flag, both⟩
          · exact .inl flag
        rw [if_pos isCoded, if_neg left]
        refine Codes.bind (reads_mvds valid.mode entry (codable used) head.affine head.affineType) ?_
        rintro _ _ rfl
        refine (reads_mvpFlag (valid.mvpIdx _ uses)).weaken ?_
        rintro _ _ rfl
        have spec := gotList_spec p pu .REF_PIC_LIST_1 r
        exact ⟨spec.2, fun _ => ⟨spec.1.mvpIdx, fun _ => spec.1⟩⟩
    · rw [if_neg coded, if_neg coded, pure_bind, pure_bind]
      refine (reads_mvpFlag (valid.mvpIdx _ uses)).weaken ?_
      rintro _ _ rfl
      exact ⟨setMvpIdx_only _ _ _, fun _ => ⟨CABACReader.setMvpIdx_self .., fun one =>
        absurd one coded⟩⟩
  · rw [if_neg used, if_neg used]
    exact Codes.pure ⟨OnlyList.refl _ r, fun one => absurd one used⟩

/-- What the reader has stored of the lists of a unit. -/
structure ListsRead (p : MvPrecision) (pu r : PredictionUnit) : Prop where
  head : HeadRead pu r
  list : ∀ X, DecCu.usesList pu.interDir X = true → ListRead p pu X r

/-- The second list of a symmetric unit is still to be made from the first one. -/
structure InterRead (p : MvPrecision) (pu r : PredictionUnit) : Prop where
  head : HeadRead pu r
  list0 : pu.interDir ≠ 2 → ListRead p pu .REF_PIC_LIST_0 r
  mvpIdx1 : pu.interDir ≠ 1 → r.mvpIdx .REF_PIC_LIST_1 = pu.mvpIdx .REF_PIC_LIST_1
  list1 : pu.interDir ≠ 1 → pu.cu.smvdMode ≠ 1 → ListRead p pu .REF_PIC_LIST_1 r

/-- A unit of the reader in front of the prediction unit. -/
def start (pu : PredictionUnit) : PredictionUnit :=
  .initData (.initData pu.cu.lwidth pu.cu.lheight pu.cu.predMode pu.cu.skip)

/-- The unit of the reader with the direction, the model and the mode of another one. -/
def gotHead (pu r : PredictionUnit) : PredictionUnit :=
  { withAffine pu { r with interDir := pu.interDir } with cu.smvdMode := pu.cu.smvdMode }

theorem headRead_gotHead (pu : PredictionUnit) :
    HeadRead pu (gotHead pu { start pu with mergeFlag := pu.mergeFlag }) where
  interDir := rfl
  lwidth := rfl
  lheight := rfl
  predMode := rfl
  affine := rfl
  affineType affine := if_pos affine
  smvdMode := rfl

theorem reads_inter (valid : Inter cs pu) (entry : (precisionTable pu.cu)[pu.cu.imv]? = some p)
    (codable : ∀ X, DecCu.usesList pu.interDir X = true → ∀ mvd ∈ mvds pu X, Codable (coded p mvd))
    (zero : cs.mvdL1ZeroFlag = true → pu.interDir = 3 →
      ∀ mvd ∈ mvds pu .REF_PIC_LIST_1, mvd = .zero) :
    Reads (CABACWriter.codeInter cs pu)
      (CABACReader.readInter cs { start pu with mergeFlag := pu.mergeFlag })
      (fun _ r => InterRead p pu r) := by
  unfold CABACWriter.codeInter CABACReader.readInter
  refine Codes.bind (reads_interPredIdc valid.dir valid.slice valid.single valid.restricted rfl rfl) ?_
  rintro _ _ rfl
  refine Codes.bind (reads_affineFlag rfl rfl rfl rfl valid.affine valid.affineType) ?_
  rintro _ _ rfl
  refine Codes.bind (reads_smvdMode rfl rfl valid.symmetric) ?_
  rintro _ _ rfl
  have head := headRead_gotHead pu
  refine Codes.bind (reads_list0 valid entry
    (fun used => codable _ ((uses_list0_iff valid.dir).mpr used)) head) ?_
  rintro _ r ⟨only, list0⟩
  refine Codes.weaken (reads_list1 valid entry
    (fun used => codable _ ((uses_list1_iff valid.dir).mpr used)) zero (head.of_only only)) ?_
  rintro _ r' ⟨only', list1⟩
  exact {
    head := (head.of_only only).of_only only'
    list0 := fun used => (list0 used).of_only only' nofun
    mvpIdx1 := fun used => (list1 used).1
    list1 := fun used => (list1 used).2 }

/-- A unit of a restricted size that has one list is left alone. -/
theorem restrictBi_eq (head : HeadRead pu r)
    (restricted : isBipredRestriction pu.cu = true → pu.interDir ≠ 3) :
    CABACReader.restrictBi r = r := by
  have same : isBipredRestriction r.cu = isBipredRestriction pu.cu := by
    simp only [isBipredRestriction, head.lwidth, head.lheight]
  have one : ¬ (r.interDir = 3 ∧ isBipredRestriction r.cu = true) := by
    rintro ⟨both, small⟩
    exact restricted (same ▸ small) (head.interDir ▸ both)
  rw [CABACReader.restrictBi, if_neg one]

/-- The reader makes the second list of a symmetric unit. -/
theorem accepts_symmetric (valid : Inter cs pu) (read : InterRead p pu r)
    (codable : pu.interDir ≠ 2 → ∀ mvd ∈ mvds pu .REF_PIC_LIST_0, Codable (coded p mvd))
    (mirrored : pu.cu.smvdMode = 1 → coded p (pu.mvd .REF_PIC_LIST_1) =
      ⟨-(coded p (pu.mvd .REF_PIC_LIST_0)).hor, -(coded p (pu.mvd .REF_PIC_LIST_0)).ver⟩) :
    ∃ r', Accepts (.list Bin) (CABACReader.readSymmetric cs r) [] r' ∧ ListsRead p pu r' := by
  unfold CABACReader.readSymmetric
  rw [read.head.smvdMode]
  rcases valid.symmetric with off | ⟨on, dir, plain, _⟩
  · rw [if_neg (by simp [off])]
    refine ⟨r, Accepts.pure r, read.head, fun X uses => ?_⟩
    cases X with
    | REF_PIC_LIST_0 => exact read.list0 ((uses_list0_iff valid.dir).mp uses)
    | REF_PIC_LIST_1 => exact read.list1 ((uses_list1_iff valid.dir).mp uses) (by omega)
  · rw [if_pos (by omega), on]
    have first := read.list0 (by omega)
    have codableMvd := codable (by omega) _ (mem_mvds_plain plain)
    have tarRefList : otherList (CABACReader.curRefList 1) = .REF_PIC_LIST_1 := rfl
    have symRefIdx := valid.symRefIdx (by omega) .REF_PIC_LIST_1
    dsimp only
    rw [show r.mvd (CABACReader.curRefList 1) = coded p (pu.mvd .REF_PIC_LIST_0) from first.mvd plain,
      tarRefList, ← symRefIdx]
    refine ⟨_, (Accepts.check _ (not_not.mpr codableMvd.neg.legal)).step (Accepts.pure _), ?_⟩
    rw [← mirrored on]
    have only := (setMvd_only r .REF_PIC_LIST_1 (coded p (pu.mvd .REF_PIC_LIST_1))).trans
      (setRefIdx_only _ .REF_PIC_LIST_1 (pu.refIdx .REF_PIC_LIST_1))
    refine ⟨read.head.of_only only, fun X _ => ?_⟩
    cases X with
    | REF_PIC_LIST_0 => exact first.of_only only nofun
    | REF_PIC_LIST_1 =>
        refine ⟨CABACReader.setRefIdx_self .., read.mvpIdx1 (by omega), fun _ =>
          CABACReader.setMvd_self r .REF_PIC_LIST_1 _, fun affine => ?_⟩
        simp [plain] at affine

/-! ## Units with `MODE_IBC` -/

/-- The units with `MODE_IBC` that are not merged. -/
structure Ibc (cs : CodingStructure) (pu : PredictionUnit) : Prop where
  mode : pu.cu.isIBC = true
  enabled : cs.IBCFlag = true
  dir : pu.interDir = 1
  refIdx : pu.refIdx .REF_PIC_LIST_0 = MAX_NUM_REF
  mvpIdx : pu.mvpIdx .REF_PIC_LIST_0 ≤ 1
  single : cs.maxNumIBCMergeCand = 1 → pu.mvpIdx .REF_PIC_LIST_0 = 0
  affine : pu.cu.affine = false
  smvdMode : pu.cu.smvdMode = 0

theorem reads_ibcMvpFlag (valid : Ibc cs pu) :
    Reads (CABACWriter.codeIbcMvpFlag cs pu) (CABACReader.readIbcMvpFlag cs r)
      (fun _ r' => r' = CABACReader.setMvpIdx r .REF_PIC_LIST_0 (pu.mvpIdx .REF_PIC_LIST_0)) := by
  unfold CABACWriter.codeIbcMvpFlag CABACReader.readIbcMvpFlag
  by_cases single : cs.maxNumIBCMergeCand = 1
  · rw [if_pos single, if_pos single]
    have zero := valid.single single
    exact Codes.writerGuard (.inr (not_not.mpr zero)) fun _ => by rw [zero]
  · rw [if_neg single, if_neg single]
    exact reads_mvpFlag valid.mvpIdx

theorem reads_ibc (valid : Ibc cs pu) (entry : (precisionTable pu.cu)[pu.cu.imv]? = some p)
    (codable : ∀ mvd ∈ mvds pu .REF_PIC_LIST_0, Codable (coded p mvd)) :
    Reads (CABACWriter.codeIbc cs pu)
      (CABACReader.readIbc cs { start pu with mergeFlag := pu.mergeFlag })
      (fun _ r => ListsRead p pu r) := by
  rw [precisionTable, if_pos valid.mode] at entry
  have noRefIdx : CABACWriter.refIdx cs pu .REF_PIC_LIST_0 = pure () := by
    rw [CABACWriter.refIdx, if_neg (not_not.mpr valid.smvdMode),
      if_pos ⟨rfl, valid.enabled, valid.mode⟩]
  unfold CABACWriter.codeIbc CABACReader.readIbc
  rw [noRefIdx, pure_bind, ← bind_assoc]
  refine Codes.bind (reads_changed (internal2Amvr_ok _ entry)
    (codable _ (mem_mvds_plain valid.affine))) ?_
  rintro _ _ rfl
  refine Codes.weaken (reads_ibcMvpFlag valid) ?_
  rintro _ _ rfl
  refine ⟨⟨valid.dir.symm, rfl, rfl, rfl, valid.affine.symm, ?_, valid.smvdMode.symm⟩, fun X uses => ?_⟩
  · rw [valid.affine]
    nofun
  cases X with
  | REF_PIC_LIST_0 =>
      refine ⟨?_, CABACReader.setMvpIdx_self .., fun _ => ?_, fun affine => ?_⟩
      · rw [CABACReader.setMvpIdx_refIdx, valid.refIdx]
        rfl
      · rw [CABACReader.setMvpIdx_mvd, CABACReader.setMvd_self]
        rfl
      · simp [valid.affine] at affine
  | REF_PIC_LIST_1 => simp [valid.dir, DecCu.usesList, Motion.listBit] at uses

/-! ## All units -/

/-- The units that are not merged and that the settings allow. -/
structure Explicit (cs : CodingStructure) (pu : PredictionUnit) : Prop where
  mergeFlag : pu.mergeFlag = false
  skip : pu.cu.skip = false
  kind : Inter cs pu ∨ Ibc cs pu

theorem reads_mergeFlag (valid : Explicit cs pu) :
    Reads (CABACWriter.codeMergeFlag pu) (CABACReader.readMergeFlag (start pu))
      (fun _ r => r = { start pu with mergeFlag := pu.mergeFlag }) := by
  have notSkipped : ¬ (start pu).cu.skip = true := by simp [start, PredictionUnit.initData,
    InterSyntax.CodingUnit.initData, valid.skip]
  unfold CABACWriter.codeMergeFlag CABACReader.readMergeFlag
  rw [if_neg (by simp [valid.skip]), if_neg notSkipped]
  refine Codes.readerMap _ (reads_bin _ _) ?_
  rintro _ _ rfl
  have plain : ¬ (pu.mergeFlag = true ∧ (start pu).cu.isIBC = true) := by simp [valid.mergeFlag]
  rw [if_neg plain]

/-- The reader takes exactly the bins of the writer. -/
theorem reads_predictionUnit (valid : Explicit cs pu)
    (entry : (precisionTable pu.cu)[pu.cu.imv]? = some p)
    (codable : ∀ X, DecCu.usesList pu.interDir X = true → ∀ mvd ∈ mvds pu X, Codable (coded p mvd))
    (zero : cs.mvdL1ZeroFlag = true → pu.interDir = 3 →
      ∀ mvd ∈ mvds pu .REF_PIC_LIST_1, mvd = .zero)
    (mirrored : pu.cu.smvdMode = 1 → coded p (pu.mvd .REF_PIC_LIST_1) =
      ⟨-(coded p (pu.mvd .REF_PIC_LIST_0)).hor, -(coded p (pu.mvd .REF_PIC_LIST_0)).ver⟩) :
    Reads (CABACWriter.predictionUnit cs pu) (CABACReader.predictionUnit cs (start pu))
      (fun _ r => ListsRead p pu r) := by
  have merged : ¬ pu.mergeFlag = true := by simp [valid.mergeFlag]
  unfold CABACWriter.predictionUnit CABACReader.predictionUnit
  refine Codes.bind (reads_mergeFlag valid) ?_
  rintro _ _ rfl
  have mode : ({ start pu with mergeFlag := pu.mergeFlag } : PredictionUnit).cu.isIBC = pu.cu.isIBC :=
    rfl
  unfold CABACReader.readMotion
  rw [if_neg merged, if_neg merged, mode]
  rcases valid.kind with inter | ibc
  · rw [if_neg (by simp [inter.mode]), if_neg (by simp [inter.mode])]
    refine (reads_inter inter entry codable zero).readerAfter ?_
    rintro _ r read
    rw [restrictBi_eq read.head inter.restricted]
    exact accepts_symmetric inter read
      (fun used => codable _ ((uses_list0_iff inter.dir).mpr used)) mirrored
  · rw [if_pos ibc.mode, if_pos ibc.mode]
    have uses : DecCu.usesList pu.interDir .REF_PIC_LIST_0 = true := by
      rw [ibc.dir]
      decide
    refine (reads_ibc ibc entry (codable _ uses)).readerAfter ?_
    rintro _ r read
    rw [restrictBi_eq read.head (fun _ => by rw [ibc.dir]; decide), CABACReader.readSymmetric,
      if_neg (by rw [read.head.smvdMode]; exact not_not.mpr ibc.smvdMode)]
    exact ⟨r, Accepts.pure r, read⟩

end

end Vtm.RoundTrip.PredictionUnit
