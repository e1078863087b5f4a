import Vtm.Common.DepQuant
import Vtm.Std.Tiling
import Mathlib.Tactic.IntervalCases

/-!
# The scan positions of a transform block

The grouped scan visits every sample that is not zeroed out once, a sub-block is
zeroed out as a whole, and the first test position lies outside what is zeroed
out.
-/

namespace Vtm.DQIntern

private theorem gLog2SbbSize_fin : ∀ w : Fin 7, ∀ h : Fin 7,
    ¬ (w.val = 0 ∧ h.val ≤ 1 ∨ w.val ≤ 1 ∧ h.val = 0) →
      (gLog2SbbSize w h).1 ≤ min 5 w.val ∧ (gLog2SbbSize w h).2 ≤ min 5 h.val ∧
        (gLog2SbbSize w h).1 ≤ 4 ∧ (gLog2SbbSize w h).2 ≤ 4 ∧
          1 ≤ (gLog2SbbSize w h).1 + (gLog2SbbSize w h).2 := by
  decide

private theorem min_zeroOut {log2 : Nat} (small : log2 ≤ 6) :
    min ZERO_OUT_TH (2 ^ log2) = 2 ^ min 5 log2 := by
  unfold ZERO_OUT_TH
  interval_cases log2 <;> rfl

namespace TransformUnit

variable (tu : TransformUnit)

/-- The sub-blocks fit into what is not zeroed out and have an even size. -/
theorem log2Sbb_le : tu.log2SbbWidth ≤ min 5 tu.log2Width ∧ tu.log2SbbHeight ≤ min 5 tu.log2Height ∧
    tu.log2SbbWidth ≤ 4 ∧ tu.log2SbbHeight ≤ 4 ∧ 1 ≤ tu.log2SbbWidth + tu.log2SbbHeight :=
  gLog2SbbSize_fin ⟨tu.log2Width, by have := tu.width_le; omega⟩
    ⟨tu.log2Height, by have := tu.height_le; omega⟩ tu.supported

theorem sbbSize_eq : tu.sbbSize = 2 ^ tu.log2SbbWidth * 2 ^ tu.log2SbbHeight := by
  rw [sbbSize, Nat.one_shiftLeft, pow_add]

theorem sbbSize_pos : 0 < tu.sbbSize := by
  rw [sbbSize_eq]
  positivity

theorem sbbSize_even : tu.sbbSize % 2 = 0 := by
  obtain ⟨_, _, _, _, some⟩ := tu.log2Sbb_le
  rw [sbbSize, Nat.one_shiftLeft]
  obtain ⟨n, sum⟩ := Nat.exists_eq_add_of_le' some
  rw [sum, pow_succ, Nat.mul_mod_left]

theorem two_le_sbbSize : 2 ≤ tu.sbbSize := by
  have positive := tu.sbbSize_pos
  have even := tu.sbbSize_even
  omega

/-- The number of sub-blocks in a row. -/
def widthInGroups : Nat := 2 ^ (min 5 tu.log2Width - tu.log2SbbWidth)

/-- The number of sub-blocks in a column. -/
def heightInGroups : Nat := 2 ^ (min 5 tu.log2Height - tu.log2SbbHeight)

theorem widthInGroups_mul : tu.widthInGroups * 2 ^ tu.log2SbbWidth = min ZERO_OUT_TH tu.width := by
  rw [width, min_zeroOut tu.width_le, widthInGroups, ← pow_add,
    Nat.sub_add_cancel tu.log2Sbb_le.1]

theorem heightInGroups_mul :
    tu.heightInGroups * 2 ^ tu.log2SbbHeight = min ZERO_OUT_TH tu.height := by
  rw [height, min_zeroOut tu.height_le, heightInGroups, ← pow_add,
    Nat.sub_add_cancel tu.log2Sbb_le.2.1]

theorem numCoeff_eq : tu.numCoeff = tu.widthInGroups * tu.heightInGroups * tu.sbbSize := by
  rw [numCoeff, ← widthInGroups_mul, ← heightInGroups_mul, sbbSize_eq]
  ring

theorem numCoeff_le : tu.numCoeff ≤ 1024 := by
  have width : min ZERO_OUT_TH tu.width ≤ 32 := Nat.min_le_left _ _
  have height : min ZERO_OUT_TH tu.height ≤ 32 := Nat.min_le_left _ _
  exact Nat.mul_le_mul width height

theorem numCoeff_le_area : tu.numCoeff ≤ tu.area :=
  Nat.mul_le_mul (Nat.min_le_right _ _) (Nat.min_le_right _ _)

/-- The sub-block of a scan position. -/
@[grind =] def groupAt (scanIdx : Nat) : ScanGenerator :=
  ScanGenerator.after .SCAN_DIAG tu.widthInGroups tu.heightInGroups (scanIdx / tu.sbbSize)

/-- The place of a scan position in its sub-block. -/
def innerAt (scanIdx : Nat) : ScanGenerator :=
  ScanGenerator.after .SCAN_DIAG (2 ^ tu.log2SbbWidth) (2 ^ tu.log2SbbHeight) (scanIdx % tu.sbbSize)

variable {tu}

theorem groupAt_inside {scanIdx : Nat} (inside : scanIdx < tu.numCoeff) :
    (tu.groupAt scanIdx).column < tu.widthInGroups ∧
      (tu.groupAt scanIdx).line < tu.heightInGroups := by
  refine after_diag_inside ?_
  rw [numCoeff_eq] at inside
  exact Nat.div_lt_of_lt_mul (by rwa [Nat.mul_comm])

theorem innerAt_inside (tu : TransformUnit) (scanIdx : Nat) :
    (tu.innerAt scanIdx).column < 2 ^ tu.log2SbbWidth ∧
      (tu.innerAt scanIdx).line < 2 ^ tu.log2SbbHeight := by
  refine after_diag_inside ?_
  rw [← sbbSize_eq]
  exact Nat.mod_lt _ tu.sbbSize_pos

/-- The table of the grouped scan in terms of sub-blocks. -/
theorem scanId2BlkPos_table (scanIdx : Nat) :
    tu.scanId2BlkPos scanIdx =
      if scanIdx < tu.numCoeff then
        let group := tu.groupAt scanIdx
        let inner := tu.innerAt scanIdx
        let rasterPos := (inner.line + group.line * 2 ^ tu.log2SbbHeight) * tu.width + inner.column +
          group.column * 2 ^ tu.log2SbbWidth
        ⟨rasterPos - rasterPos / tu.width * tu.width, rasterPos / tu.width⟩
      else ⟨tu.width - 1, tu.height - 1⟩ := by
  have widthGroups : min ZERO_OUT_TH tu.width >>> tu.log2SbbWidth = tu.widthInGroups := by
    rw [← widthInGroups_mul, Nat.shiftRight_eq_div_pow, Nat.mul_div_cancel _ (by positivity)]
  have heightGroups : min ZERO_OUT_TH tu.height >>> tu.log2SbbHeight = tu.heightInGroups := by
    rw [← heightInGroups_mul, Nat.shiftRight_eq_div_pow, Nat.mul_div_cancel _ (by positivity)]
  unfold scanId2BlkPos scanGrouped groupAt innerAt
  simp only [widthGroups, heightGroups, Nat.one_shiftLeft, ← sbbSize_eq, ← numCoeff_eq]

theorem scanId2BlkPos_eq {scanIdx : Nat} (inside : scanIdx < tu.numCoeff) :
    tu.scanId2BlkPos scanIdx =
      ⟨(tu.innerAt scanIdx).column + (tu.groupAt scanIdx).column * 2 ^ tu.log2SbbWidth,
        (tu.innerAt scanIdx).line + (tu.groupAt scanIdx).line * 2 ^ tu.log2SbbHeight⟩ := by
  have column : (tu.innerAt scanIdx).column + (tu.groupAt scanIdx).column * 2 ^ tu.log2SbbWidth <
      tu.width := by
    have group := (groupAt_inside inside).1
    have inner := (tu.innerAt_inside scanIdx).1
    have most : tu.widthInGroups * 2 ^ tu.log2SbbWidth ≤ tu.width := by
      rw [widthInGroups_mul]
      exact Nat.min_le_right _ _
    have row := Nat.mul_le_mul_right (2 ^ tu.log2SbbWidth) (Nat.succ_le_of_lt group)
    rw [Nat.succ_mul] at row
    omega
  rw [scanId2BlkPos_table, if_pos inside]
  simp only
  rw [Nat.add_assoc, Nat.mul_comm _ tu.width,
    Nat.mul_add_div (Nat.zero_lt_of_lt column), Nat.div_eq_of_lt column, Nat.add_zero,
    Nat.mul_comm _ tu.width, Nat.add_sub_cancel_left]

theorem scanId2BlkPos_inside {scanIdx : Nat} (inside : scanIdx < tu.numCoeff) :
    (tu.scanId2BlkPos scanIdx).x < min ZERO_OUT_TH tu.width ∧
      (tu.scanId2BlkPos scanIdx).y < min ZERO_OUT_TH tu.height := by
  obtain ⟨column, line⟩ := groupAt_inside inside
  obtain ⟨x, y⟩ := tu.innerAt_inside scanIdx
  have across := Nat.mul_le_mul_right (2 ^ tu.log2SbbWidth) (Nat.succ_le_of_lt column)
  have down := Nat.mul_le_mul_right (2 ^ tu.log2SbbHeight) (Nat.succ_le_of_lt line)
  rw [Nat.succ_mul] at across down
  rw [scanId2BlkPos_eq inside, ← widthInGroups_mul, ← heightInGroups_mul]
  constructor
  · simp only
    omega
  · simp only
    omega

theorem rasterPos_lt {scanIdx : Nat} (inside : scanIdx < tu.numCoeff) :
    tu.rasterPos scanIdx < tu.area := by
  obtain ⟨x, y⟩ := scanId2BlkPos_inside inside
  have column : (tu.scanId2BlkPos scanIdx).x < tu.width := lt_of_lt_of_le x (Nat.min_le_right _ _)
  have line : (tu.scanId2BlkPos scanIdx).y < tu.height := lt_of_lt_of_le y (Nat.min_le_right _ _)
  have below := Nat.mul_le_mul_right tu.width (Nat.succ_le_of_lt line)
  rw [Nat.succ_mul] at below
  rw [rasterPos, area, Nat.mul_comm tu.width]
  omega

private theorem split_eq {unit a a' b b' : Nat} (small : a < unit) (small' : a' < unit)
    (same : a + b * unit = a' + b' * unit) : a = a' ∧ b = b' := by
  have rest := congrArg (· % unit) same
  have count := congrArg (· / unit) same
  have positive : 0 < unit := Nat.zero_lt_of_lt small
  simp only [Nat.add_mul_mod_self_right, Nat.mod_eq_of_lt small, Nat.mod_eq_of_lt small'] at rest
  simp only [Nat.add_mul_div_right _ _ positive, Nat.div_eq_of_lt small,
    Nat.div_eq_of_lt small', Nat.zero_add] at count
  exact ⟨rest, count⟩

private theorem after_diag_inj {blockWidth blockHeight m n : Nat}
    (insideM : m < blockWidth * blockHeight) (insideN : n < blockWidth * blockHeight)
    (same : ScanGenerator.after .SCAN_DIAG blockWidth blockHeight m =
      ScanGenerator.after .SCAN_DIAG blockWidth blockHeight n) : m = n := by
  refine Nat.le_antisymm ?_ ?_
  · exact after_diag_mono insideM (by rw [same]) (by rw [same])
  · exact after_diag_mono insideN (by rw [same]) (by rw [same])

theorem rasterPos_inj {m n : Nat} (insideM : m < tu.numCoeff) (insideN : n < tu.numCoeff)
    (same : tu.rasterPos m = tu.rasterPos n) : m = n := by
  obtain ⟨x, y⟩ := scanId2BlkPos_inside insideM
  obtain ⟨x', y'⟩ := scanId2BlkPos_inside insideN
  have narrow : min ZERO_OUT_TH tu.width ≤ tu.width := Nat.min_le_right _ _
  rw [rasterPos, rasterPos, Nat.add_comm, Nat.add_comm (_ * _)] at same
  obtain ⟨sameX, sameY⟩ := split_eq (by omega) (by omega) same
  rw [scanId2BlkPos_eq insideM, scanId2BlkPos_eq insideN] at sameX sameY
  obtain ⟨innerX, groupX⟩ := split_eq (tu.innerAt_inside m).1 (tu.innerAt_inside n).1 sameX
  obtain ⟨innerY, groupY⟩ := split_eq (tu.innerAt_inside m).2 (tu.innerAt_inside n).2 sameY
  have group : m / tu.sbbSize = n / tu.sbbSize := by
    rw [numCoeff_eq] at insideM insideN
    refine after_diag_inj (Nat.div_lt_of_lt_mul ?_) (Nat.div_lt_of_lt_mul ?_)
      (ScanGenerator.ext groupY groupX)
    · rwa [Nat.mul_comm]
    · rwa [Nat.mul_comm]
  have inner : m % tu.sbbSize = n % tu.sbbSize := by
    refine after_diag_inj ?_ ?_ (ScanGenerator.ext innerY innerX)
    · rw [← sbbSize_eq]
      exact Nat.mod_lt _ tu.sbbSize_pos
    · rw [← sbbSize_eq]
      exact Nat.mod_lt _ tu.sbbSize_pos
  rw [← Nat.div_add_mod m tu.sbbSize, ← Nat.div_add_mod n tu.sbbSize, group, inner]

private theorem ge_unit_iff {unit inner group limit : Nat} (small : inner < unit) :
    limit * unit ≤ inner + group * unit ↔ limit ≤ group := by
  constructor
  · intro above
    by_contra less
    have below := Nat.mul_le_mul_right unit (Nat.succ_le_of_lt (Nat.lt_of_not_le less))
    rw [Nat.succ_mul] at below
    omega
  · intro above
    exact le_trans (Nat.mul_le_mul_right unit above) (Nat.le_add_left _ _)

private theorem pow_dvd_eff {log2Sbb log2 eff : Nat} (fits : log2Sbb ≤ log2) (narrow : log2Sbb ≤ 4)
    (eff_eq : eff = 16 ∨ eff = 2 ^ log2) : ∃ limit, eff = limit * 2 ^ log2Sbb := by
  rcases eff_eq with rfl | rfl
  · exact ⟨2 ^ (4 - log2Sbb), by rw [← pow_add, Nat.sub_add_cancel narrow]; rfl⟩
  · exact ⟨2 ^ (log2 - log2Sbb), by rw [← pow_add, Nat.sub_add_cancel fits]⟩

/-- The positions of a sub-block are zeroed out together. -/
theorem zeroOutAt_congr {m n : Nat} (insideM : m < tu.numCoeff) (insideN : n < tu.numCoeff)
    (same : m / tu.sbbSize = n / tu.sbbSize) : tu.zeroOutAt m = tu.zeroOutAt n := by
  obtain ⟨fitsX, fitsY, narrowX, narrowY, _⟩ := tu.log2Sbb_le
  have effX : tu.effWidth = 16 ∨ tu.effWidth = 2 ^ tu.log2Width := by
    unfold effWidth width
    split <;> simp
  have effY : tu.effHeight = 16 ∨ tu.effHeight = 2 ^ tu.log2Height := by
    unfold effHeight height
    split <;> simp
  obtain ⟨limitX, eqX⟩ := pow_dvd_eff (fitsX.trans (Nat.min_le_right _ _)) narrowX effX
  obtain ⟨limitY, eqY⟩ := pow_dvd_eff (fitsY.trans (Nat.min_le_right _ _)) narrowY effY
  have group : tu.groupAt m = tu.groupAt n := by rw [groupAt, groupAt, same]
  have right : tu.effWidth ≤ (tu.scanId2BlkPos m).x ↔ tu.effWidth ≤ (tu.scanId2BlkPos n).x := by
    rw [eqX, scanId2BlkPos_eq insideM, scanId2BlkPos_eq insideN]
    simp only
    rw [ge_unit_iff (tu.innerAt_inside m).1, ge_unit_iff (tu.innerAt_inside n).1, group]
  have below : tu.effHeight ≤ (tu.scanId2BlkPos m).y ↔ tu.effHeight ≤ (tu.scanId2BlkPos n).y := by
    rw [eqY, scanId2BlkPos_eq insideM, scanId2BlkPos_eq insideN]
    simp only
    rw [ge_unit_iff (tu.innerAt_inside m).2, ge_unit_iff (tu.innerAt_inside n).2, group]
  unfold zeroOutAt
  simp only [ge_iff_le, right, below]

theorem zeroOutAt_pred {scanIdx : Nat} (inside : scanIdx + 1 < tu.numCoeff)
    (within : tu.eosbb (scanIdx + 1) = false) :
    tu.zeroOutAt scanIdx = tu.zeroOutAt (scanIdx + 1) := by
  refine zeroOutAt_congr (by omega) inside ?_
  have inner : ¬ tu.sbbSize ∣ scanIdx + 1 := fun divides =>
    of_decide_eq_false within (Nat.mod_eq_zero_of_dvd divides)
  rw [Nat.succ_div, if_neg inner]
  rfl

/-- A position that the search does not skip is not zeroed out. -/
theorem zeroOutAt_eq_false {scanIdx : Nat} (inside : scanIdx < tu.numCoeff)
    (tested : tu.skipsTest scanIdx = false) : tu.zeroOutAt scanIdx = false := by
  obtain ⟨x, y⟩ := scanId2BlkPos_inside inside
  have column : (tu.scanId2BlkPos scanIdx).x < tu.width := lt_of_lt_of_le x (Nat.min_le_right _ _)
  have line : (tu.scanId2BlkPos scanIdx).y < tu.height := lt_of_lt_of_le y (Nat.min_le_right _ _)
  simp only [skipsTest, zeroOutforThres, decide_eq_false_iff_not, decide_eq_true_eq] at tested
  simp only [zeroOutAt, decide_eq_false_iff_not]
  rintro ⟨zero, outside⟩
  refine tested ⟨Or.inl zero, ?_⟩
  rw [zero]
  unfold effWidth effHeight at outside
  grind

/-- Beyond what is not zeroed out the scan stays at the last sample. -/
theorem scanId2BlkPos_beyond {scanIdx : Nat} (beyond : tu.numCoeff ≤ scanIdx) :
    tu.scanId2BlkPos scanIdx = ⟨tu.width - 1, tu.height - 1⟩ := by
  rw [scanId2BlkPos_table, if_neg (by omega)]

theorem large_of_numCoeff_lt (tu : TransformUnit) (less : tu.numCoeff < tu.area) : 32 < tu.width ∨ 32 < tu.height := by
  by_contra small
  rw [not_or, not_lt, not_lt] at small
  have whole : tu.numCoeff = tu.area := by
    rw [numCoeff, area, ZERO_OUT_TH, Nat.min_eq_right small.1, Nat.min_eq_right small.2]
  omega

theorem skipsTest_beyond {scanIdx : Nat} (beyond : tu.numCoeff ≤ scanIdx)
    (within : scanIdx < tu.area) : tu.skipsTest scanIdx = true := by
  have large := tu.large_of_numCoeff_lt (by omega)
  simp only [skipsTest, zeroOutforThres, scanId2BlkPos_beyond beyond, decide_eq_true_eq]
  grind

/-- The last sample of a large block is not reached by the rest of the scan. -/
theorem rasterPos_beyond {m n : Nat} (inside : m < tu.numCoeff) (beyond : tu.numCoeff ≤ n)
    (within : n < tu.area) : tu.rasterPos m ≠ tu.rasterPos n := by
  obtain ⟨x, y⟩ := scanId2BlkPos_inside inside
  have large := tu.large_of_numCoeff_lt (by omega)
  have positive : 0 < tu.width := by
    unfold width
    positivity
  intro same
  rw [rasterPos, rasterPos, scanId2BlkPos_beyond beyond, Nat.add_comm,
    Nat.add_comm (_ * _)] at same
  obtain ⟨sameX, sameY⟩ := split_eq (lt_of_lt_of_le x (Nat.min_le_right _ _)) (by simp only; omega)
    same
  simp only at sameX sameY
  unfold ZERO_OUT_TH at x y
  omega

theorem rasterPos_lt_area (tu : TransformUnit) (scanIdx : Nat) :
    tu.rasterPos scanIdx < tu.area := by
  by_cases coded : scanIdx < tu.numCoeff
  · exact rasterPos_lt coded
  · have width : 0 < tu.width := Nat.two_pow_pos _
    have height : 0 < tu.height := Nat.two_pow_pos _
    rw [rasterPos, scanId2BlkPos_beyond (Nat.not_lt.mp coded), area]
    exact Std.raster_lt (Nat.sub_lt width Nat.one_pos) (Nat.sub_lt height Nat.one_pos)

theorem lastTestPos_lt : tu.lastTestPos < tu.area := by
  unfold lastTestPos
  have positive : 0 < tu.area := Nat.mul_pos (by unfold width; positivity)
    (by unfold height; positivity)
  split
  next large =>
    have most : 4 * 4 ≤ tu.area := Nat.mul_le_mul large.2.2.1 large.2.2.2
    split <;> omega
  next => omega

end TransformUnit

namespace DepQuantInput

variable {block : DepQuantInput}

theorem findTestPos_spec {from_ scanIdx : Nat} (found : block.findTestPos from_ = some scanIdx) :
    scanIdx ≤ from_ ∧ block.tu.skipsTest scanIdx = false := by
  induction from_ with
  | zero =>
      rw [findTestPos] at found
      split at found
      next exceeds =>
        cases found
        simp only [exceedsThres, decide_eq_true_eq] at exceeds
        exact ⟨Nat.le_refl _, by simpa using exceeds.1⟩
      next => cases found
  | succ from_ ih =>
      rw [findTestPos] at found
      split at found
      next exceeds =>
        cases found
        simp only [exceedsThres, decide_eq_true_eq] at exceeds
        exact ⟨Nat.le_refl _, by simpa using exceeds.1⟩
      next =>
        obtain ⟨least, tested⟩ := ih found
        exact ⟨by omega, tested⟩

/-- The first test position has parameters and is not zeroed out. -/
theorem firstTestPos_spec {scanIdx : Nat} (found : block.firstTestPos = some scanIdx) :
    scanIdx < block.tu.numCoeff ∧ block.tu.zeroOutAt scanIdx = false := by
  obtain ⟨least, tested⟩ := findTestPos_spec found
  have within : scanIdx < block.tu.area := lt_of_le_of_lt least TransformUnit.lastTestPos_lt
  have inside : scanIdx < block.tu.numCoeff := by
    by_contra beyond
    rw [TransformUnit.skipsTest_beyond (by omega) within] at tested
    cases tested
  exact ⟨inside, TransformUnit.zeroOutAt_eq_false inside tested⟩

end DepQuantInput

end Vtm.DQIntern
