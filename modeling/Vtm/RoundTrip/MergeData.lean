import Vtm.Encoder.MergeData
import Vtm.Decoder.MergeData

/-!
# The merge data round trip

Whatever `merge_data` writes for a consistent unit is read back bin by bin. The reader stores
`mmvdSkip` in a copy of the coding unit, so the real unit keeps the value that it was made with.
-/

namespace Vtm.RoundTrip.MergeData

open Vtm.Std Vtm.Bin InterSyntax

/-! ## Indices -/

theorem reads_idxLoop {mrgIdx left idx : Nat} (low : idx ≤ mrgIdx) (high : mrgIdx ≤ idx + left) :
    Reads (CABACWriter.codeIdxLoop mrgIdx left idx) (CABACReader.readIdxLoop left idx)
      (fun _ value => value = mrgIdx) := by
  induction left generalizing idx with
  | zero => exact Codes.pure (by omega)
  | succ left ih =>
      refine Codes.bind (reads_binEP _) ?_
      rintro _ _ rfl
      by_cases here : mrgIdx = idx
      · simp only [here, ne_eq, not_true_eq_false, decide_false, if_true, Bool.false_eq_true, if_false]
        exact Codes.pure rfl
      · simp only [ne_eq, here, not_false_eq_true, decide_true, if_false, if_true]
        exact ih (by omega) (by omega)

theorem reads_idx {mrgIdx numCandminus1 : Nat} (ctxId : Ctx) (fits : mrgIdx ≤ numCandminus1) :
    Reads (CABACWriter.codeIdx ctxId mrgIdx numCandminus1) (CABACReader.readIdx ctxId numCandminus1)
      (fun _ value => value = mrgIdx) := by
  unfold CABACWriter.codeIdx CABACReader.readIdx
  by_cases first : mrgIdx = 0
  · rw [if_pos first]
    exact (reads_bin false ctxId).readerAfter fun _ _ same => ⟨0, by
      rw [same]
      exact Accepts.pure 0, first.symm⟩
  · rw [if_neg first]
    refine Codes.bind (reads_bin _ _) ?_
    rintro _ _ rfl
    exact reads_idxLoop (by omega) (by omega)

theorem reads_oneIdx {mrgIdx numCandminus1 : Nat} (fits : mrgIdx ≤ numCandminus1) :
    Reads (CABACWriter.encodeOneIdx mrgIdx numCandminus1) (CABACReader.decodeOneIdx numCandminus1)
      (fun _ value => value = mrgIdx) := by
  unfold CABACWriter.encodeOneIdx CABACReader.decodeOneIdx
  by_cases none : numCandminus1 = 0
  · rw [if_pos none, if_neg (by omega)]
    exact Codes.writerGuard (.inr (by omega)) fun _ => by omega
  · rw [if_neg none, if_pos (by omega)]
    exact reads_idx _ fits

section

variable {cs : CodingStructure} {pu r : PredictionUnit}

/-- The two indices of a triangle unit, the second one relative to the first. -/
theorem reads_triangle (enough : 2 ≤ cs.maxNumTriangleCand) (dir : pu.triangleSplitDir ≤ 1)
    (first : pu.triangleMergeIdx0 < cs.maxNumTriangleCand)
    (second : pu.triangleMergeIdx1 < cs.maxNumTriangleCand) (byte : pu.triangleMergeIdx1 < 2 ^ 8)
    (differ : pu.triangleMergeIdx0 ≠ pu.triangleMergeIdx1) :
    Reads (CABACWriter.codeTriangle cs pu) (CABACReader.readTriangle cs r) (fun _ r' =>
      r' = { r with
        triangleSplitDir := pu.triangleSplitDir
        triangleMergeIdx0 := pu.triangleMergeIdx0
        triangleMergeIdx1 := pu.triangleMergeIdx1 }) := by
  unfold CABACWriter.codeTriangle CABACReader.readTriangle
  dsimp only
  -- what is written of the second index, and how the reader undoes it
  set coded := if pu.triangleMergeIdx1 < pu.triangleMergeIdx0 then pu.triangleMergeIdx1
    else (pu.triangleMergeIdx1 + MAX_UCHAR) % 2 ^ 8 with codedDef
  have fewer : coded ≤ cs.maxNumTriangleCand - 2 := by
    rw [codedDef, MAX_UCHAR]
    split <;> omega
  have back : (coded + if coded ≥ pu.triangleMergeIdx0 then 1 else 0) = pu.triangleMergeIdx1 := by
    rw [codedDef, MAX_UCHAR]
    split <;> split <;> omega
  refine Codes.bind (reads_binEP _) ?_
  rintro _ _ rfl
  refine Codes.writerCheck (.inr (by omega)) fun _ => ?_
  refine Codes.writerCheck (.inr (by omega)) fun _ => ?_
  refine Codes.writerCheck (.inr (by omega)) fun _ => ?_
  refine Codes.readerStep (Accepts.check _ (by omega)) ?_
  refine Codes.bind (reads_oneIdx (by omega)) ?_
  rintro _ _ rfl
  refine Codes.readerMap _ (reads_oneIdx fewer) ?_
  rintro _ _ rfl
  have sameDir : (decide (pu.triangleSplitDir ≠ 0)).toNat = pu.triangleSplitDir := by
    obtain zero | one : pu.triangleSplitDir = 0 ∨ pu.triangleSplitDir = 1 := by omega
    · rw [zero]
      rfl
    · rw [one]
      rfl
  rw [back, sameDir]

/-- An index below a count, coded where there are several. -/
theorem reads_idxBelow (ctx : Ctx) {count : Nat} (fits : pu.mergeIdx < count) :
    Reads (if 0 < count - 1 then CABACWriter.codeIdx ctx pu.mergeIdx (count - 1) else pure ())
      (if 0 < count - 1 then do
        let mergeIdx ← CABACReader.readIdx ctx (count - 1)
        return { r with mergeIdx }
      else pure { r with mergeIdx := 0 })
      (fun _ r' => r' = { r with mergeIdx := pu.mergeIdx }) := by
  by_cases several : 0 < count - 1
  · rw [if_pos several, if_pos several]
    refine Codes.readerMap _ (reads_idx _ (by omega)) ?_
    rintro _ _ rfl
    rfl
  · rw [if_neg several, if_neg several]
    have zero : pu.mergeIdx = 0 := by omega
    exact Codes.pure (by rw [zero])

theorem reads_mergeIdx_affine (affine : pu.cu.affine = true) (affine' : r.cu.affine = true)
    (fits : pu.mergeIdx < cs.maxNumAffineMergeCand) :
    Reads (CABACWriter.mergeIdx cs pu) (CABACReader.mergeIdx cs r)
      (fun _ r' => r' = { r with mergeIdx := pu.mergeIdx }) := by
  unfold CABACWriter.mergeIdx CABACReader.mergeIdx
  rw [if_pos affine, if_pos affine']
  exact reads_idxBelow _ fits

/-- The largest merge index of the prediction mode, plus one. -/
@[grind =] def numCand (cs : CodingStructure) (cu : InterSyntax.CodingUnit) : Nat :=
  if cu.isIBC then cs.maxNumIBCMergeCand else cs.maxNumMergeCand

theorem reads_mergeIdx (translational : pu.cu.affine = false) (translational' : r.cu.affine = false)
    (whole : pu.cu.triangle = false) (whole' : r.cu.triangle = false)
    (mode : r.cu.predMode = pu.cu.predMode) (fits : pu.mergeIdx < numCand cs pu.cu) :
    Reads (CABACWriter.mergeIdx cs pu) (CABACReader.mergeIdx cs r)
      (fun _ r' => r' = { r with mergeIdx := pu.mergeIdx }) := by
  unfold CABACWriter.mergeIdx CABACReader.mergeIdx
  simp only [translational, translational', whole, whole', mode, Bool.false_eq_true, if_false]
  have number : (if pu.cu.predMode = .MODE_IBC then cs.maxNumIBCMergeCand - 1
      else cs.maxNumMergeCand - 1) = numCand cs pu.cu - 1 := by
    unfold numCand InterSyntax.CodingUnit.isIBC
    by_cases ibc : pu.cu.predMode = .MODE_IBC
    · simp [ibc]
    · simp [ibc]
  rw [number]
  exact reads_idxBelow _ fits

theorem reads_mergeIdx_triangle (translational : pu.cu.affine = false)
    (translational' : r.cu.affine = false) (triangle : pu.cu.triangle = true)
    (triangle' : r.cu.triangle = true) (enough : 2 ≤ cs.maxNumTriangleCand)
    (dir : pu.triangleSplitDir ≤ 1) (first : pu.triangleMergeIdx0 < cs.maxNumTriangleCand)
    (second : pu.triangleMergeIdx1 < cs.maxNumTriangleCand) (byte : pu.triangleMergeIdx1 < 2 ^ 8)
    (differ : pu.triangleMergeIdx0 ≠ pu.triangleMergeIdx1) :
    Reads (CABACWriter.mergeIdx cs pu) (CABACReader.mergeIdx cs r) (fun _ r' =>
      r' = { r with
        mergeIdx := 0
        triangleSplitDir := pu.triangleSplitDir
        triangleMergeIdx0 := pu.triangleMergeIdx0
        triangleMergeIdx1 := pu.triangleMergeIdx1 }) := by
  unfold CABACWriter.mergeIdx CABACReader.mergeIdx
  simp only [translational, translational', triangle, triangle', Bool.false_eq_true, if_false, if_true]
  exact reads_triangle enough dir first second byte differ

/-! ## MMVD -/

theorem reads_mmvdBase {var0 : Nat} (low : var0 < 2) (single : cs.maxNumMergeCand ≤ 1 → var0 = 0) :
    Reads (CABACWriter.codeMmvdBase cs var0) (CABACReader.readMmvdBase cs)
      (fun _ value => value = var0) := by
  unfold CABACWriter.codeMmvdBase CABACReader.readMmvdBase
  by_cases several : cs.maxNumMergeCand > 1
  · rw [if_pos several, if_pos several]
    refine Codes.writerCheck (.inr (by omega)) fun _ => ?_
    refine Codes.readerMap Bool.toNat (reads_bin _ _) ?_
    rintro _ _ rfl
    obtain rfl | rfl : var0 = 0 ∨ var0 = 1 := by omega
    · rfl
    · rfl
  · rw [if_neg several, if_neg several]
    exact Codes.pure (single (by omega)).symm

/-- Two bypass bins at once against one after the other. -/
theorem reads_position {var2 : Nat} (fits : var2 < 4) :
    Reads (CABACWriter.encodeBinsEP var2 2) (do
      let high ← CABACReader.decodeBinEP
      let low ← CABACReader.decodeBinEP
      return (if high then 2 else 0) + if low then 1 else 0) (fun _ value => value = var2) := by
  intro bins _
  refine .inr ⟨(), _, _, var2, encodeBinsEP_run bins (by decide) fits, trivial, rfl, rfl, ?_⟩
  have split : (toBits 2 var2).map Bin.ep =
      [.ep (decide (2 ≤ var2))] ++ ([.ep (decide (var2 % 2 = 1))] ++ []) := by
    have four : ∀ n < 4, (toBits 2 n).map Bin.ep =
        [.ep (decide (2 ≤ n))] ++ ([.ep (decide (n % 2 = 1))] ++ []) := by decide
    exact four var2 fits
  have value : ((if decide (2 ≤ var2) then 2 else 0) +
      if decide (var2 % 2 = 1) then 1 else 0) = var2 := by
    have four : ∀ n < 4, ((if decide (2 ≤ n) then 2 else 0) +
      if decide (n % 2 = 1) then 1 else 0) = n := by decide
    exact four var2 fits
  have ends : Accepts view (pure ((if decide (2 ≤ var2) then 2 else 0) +
      if decide (var2 % 2 = 1) then 1 else 0) : BinReader Nat) [] var2 := by
    rw [value]
    exact Accepts.pure var2
  rw [split]
  exact (decodeBinEP_accepts _).bind ((decodeBinEP_accepts _).bind ends)

theorem reads_mmvdMergeIdx (low : pu.mmvdMergeIdx < 2 * MMVD_MAX_REFINE_NUM)
    (single : cs.maxNumMergeCand ≤ 1 → pu.mmvdMergeIdx < MMVD_MAX_REFINE_NUM) :
    Reads (CABACWriter.mmvdMergeIdx cs pu) (CABACReader.mmvdMergeIdx cs r)
      (fun _ r' => r' = { r with mmvdMergeIdx := pu.mmvdMergeIdx }) := by
  unfold CABACWriter.mmvdMergeIdx CABACReader.mmvdMergeIdx
  simp only [show MMVD_MAX_REFINE_NUM = 32 from rfl] at low single ⊢
  set var0 := pu.mmvdMergeIdx / 32 with var0Def
  set var1 := (pu.mmvdMergeIdx - var0 * 32) / 4 with var1Def
  set var2 := pu.mmvdMergeIdx - var0 * 32 - var1 * 4 with var2Def
  have total : var0 * 32 + var1 * 4 + var2 = pu.mmvdMergeIdx := by omega
  refine Codes.bind (reads_mmvdBase (by omega) fun few => ?_) ?_
  · have small := single few
    omega
  rintro _ _ rfl
  have steps : var1 ≤ MMVD_REFINE_STEP - 1 := by
    rw [show MMVD_REFINE_STEP = 8 from rfl]
    omega
  refine Codes.bind (reads_idx _ steps) ?_
  rintro _ _ rfl
  have last : Reads (CABACWriter.encodeBinsEP var2 2)
      ((do
        let high ← CABACReader.decodeBinEP
        let low ← CABACReader.decodeBinEP
        return (if high then 2 else 0) + if low then 1 else 0) >>= fun value =>
          pure { r with mmvdMergeIdx := var0 * 32 + var1 * 4 + value })
      (fun _ r' => r' = { r with mmvdMergeIdx := pu.mmvdMergeIdx }) := by
    refine Codes.readerMap _ (reads_position (by omega)) ?_
    rintro _ _ rfl
    rw [total]
  simpa only [bind_assoc, pure_bind] using last

/-! ## Flags -/

theorem reads_subblockMergeFlag (width : r.cu.lwidth = pu.cu.lwidth)
    (height : r.cu.lheight = pu.cu.lheight)
    (allowed : pu.cu.affine = true → cs.hasSubblockMergeFlag pu.cu = true) :
    Reads (CABACWriter.subblockMergeFlag cs pu.cu) (CABACReader.subblockMergeFlag cs r)
      (fun _ r' => r' = { r with cu.affine := pu.cu.affine }) := by
  have same : cs.hasSubblockMergeFlag r.cu = cs.hasSubblockMergeFlag pu.cu := by
    simp only [CodingStructure.hasSubblockMergeFlag, width, height]
  unfold CABACWriter.subblockMergeFlag CABACReader.subblockMergeFlag
  rw [same]
  by_cases present : cs.hasSubblockMergeFlag pu.cu = true
  · rw [if_pos present, if_pos present]
    refine Codes.readerMap _ (reads_bin _ _) ?_
    rintro _ _ rfl
    rfl
  · rw [if_neg present, if_neg present]
    have translational : pu.cu.affine = false := by
      simpa using fun affine => present (allowed affine)
    exact Codes.pure (by rw [translational])

theorem ciipAvailable_congr (width : r.cu.lwidth = pu.cu.lwidth)
    (height : r.cu.lheight = pu.cu.lheight) (skip : r.cu.skip = pu.cu.skip) :
    cs.ciipAvailable r.cu = cs.ciipAvailable pu.cu := by
  simp only [CodingStructure.ciipAvailable, width, height, skip]

theorem hasRegularMergeFlag_congr (width : r.cu.lwidth = pu.cu.lwidth)
    (height : r.cu.lheight = pu.cu.lheight) (skip : r.cu.skip = pu.cu.skip) :
    cs.hasRegularMergeFlag r.cu = cs.hasRegularMergeFlag pu.cu := by
  simp only [CodingStructure.hasRegularMergeFlag, width, height,
    ciipAvailable_congr width height skip]

theorem reads_regularMergeFlag (width : r.cu.lwidth = pu.cu.lwidth)
    (height : r.cu.lheight = pu.cu.lheight) (skip : r.cu.skip = pu.cu.skip)
    (allowed : pu.regularMergeFlag = false → cs.hasRegularMergeFlag pu.cu = true) :
    Reads (CABACWriter.codeRegularMergeFlag cs pu)
      (CABACReader.readRegularMergeFlag cs pu.cu.skip r)
      (fun _ r' => r' = { r with regularMergeFlag := pu.regularMergeFlag }) := by
  unfold CABACWriter.codeRegularMergeFlag CABACReader.readRegularMergeFlag
  rw [hasRegularMergeFlag_congr width height skip]
  by_cases present : cs.hasRegularMergeFlag pu.cu = true
  · rw [if_pos present, if_pos present]
    refine Codes.readerMap _ (reads_bin _ _) ?_
    rintro _ _ rfl
    rfl
  · rw [if_neg present, if_neg present]
    have regular : pu.regularMergeFlag = true := by
      simpa using fun irregular => present (allowed irregular)
    exact Codes.pure (by rw [regular])

/-- The flag reaches the unit; the copy of the coding unit is dropped. -/
theorem reads_mmvdMergeFlag {cu : InterSyntax.CodingUnit}
    (allowed : pu.mmvdMergeFlag = true → cs.useMMVD = true) :
    Reads (CABACWriter.codeMmvdMergeFlag cs pu) (CABACReader.readMmvdMergeFlag cs cu r)
      (fun _ result => result.2 = { r with mmvdMergeFlag := pu.mmvdMergeFlag }) := by
  unfold CABACWriter.codeMmvdMergeFlag CABACReader.readMmvdMergeFlag
  by_cases present : cs.useMMVD = true
  · simp only [present, if_true, pure_bind]
    refine Codes.readerMap _ (reads_bin _ _) ?_
    rintro _ _ rfl
    rfl
  · have none : pu.mmvdMergeFlag = false := by
      simpa using fun mmvd => present (allowed mmvd)
    simp only [present, Bool.false_eq_true, if_false, pure_bind]
    exact Codes.pure (by rw [none])

theorem reads_mhIntraFlag (width : r.cu.lwidth = pu.cu.lwidth)
    (height : r.cu.lheight = pu.cu.lheight) (skip : r.cu.skip = pu.cu.skip)
    (allowed : pu.mhIntraFlag = true → cs.ciipAvailable pu.cu = true)
    (needed : pu.mhIntraFlag = false → cs.triangleAvailable = true) :
    Reads (CABACWriter.codeMHIntraFlag cs pu) (CABACReader.readMHIntraFlag cs r)
      (fun _ r' => r' = { r with mhIntraFlag := pu.mhIntraFlag }) := by
  unfold CABACWriter.codeMHIntraFlag CABACReader.readMHIntraFlag
  rw [ciipAvailable_congr width height skip]
  by_cases ciip : cs.ciipAvailable pu.cu = true
  · have tools : cs.useMHIntra = true ∧ pu.cu.skip = false := by
      unfold CodingStructure.ciipAvailable at ciip
      simp only [Bool.not_eq_true, decide_eq_true_eq] at ciip
      exact ⟨ciip.1, ciip.2.1⟩
    by_cases triangle : cs.triangleAvailable = true
    · rw [if_pos ⟨triangle, ciip⟩, if_pos ⟨triangle, ciip⟩]
      unfold CABACWriter.mhIntraFlag CABACReader.mhIntraFlag
      simp only [tools.1, skip, tools.2, not_true_eq_false, Bool.false_eq_true, if_false]
      refine Codes.readerMap _ (reads_bin _ _) ?_
      rintro _ _ rfl
      rfl
    · rw [if_neg fun both => triangle both.1, if_neg fun both => triangle both.1, if_pos ciip]
      have flag : pu.mhIntraFlag = true := by
        simpa using fun unset => triangle (needed unset)
      exact Codes.pure (by rw [flag])
  · rw [if_neg fun both => ciip both.2, if_neg fun both => ciip both.2, if_neg ciip]
    have flag : pu.mhIntraFlag = false := by
      simpa using fun set => ciip (allowed set)
    exact Codes.pure (by rw [flag])

end

/-! ## Units -/

/-- The flags of a merged unit. `mmvdSkip` repeats `mmvdMergeFlag` for a skipped unit. -/
structure Flags (pu : PredictionUnit) (affine regular mmvd ciip triangle : Bool) : Prop where
  affine : pu.cu.affine = affine
  regularMergeFlag : pu.regularMergeFlag = regular
  mmvdMergeFlag : pu.mmvdMergeFlag = mmvd
  mmvdSkip : pu.cu.mmvdSkip = (mmvd && pu.cu.skip)
  mhIntraFlag : pu.mhIntraFlag = ciip
  triangle : pu.cu.triangle = triangle

/-- The merged units that the settings allow. The encoder sets `regularMergeFlag` with the motion of
a `MODE_IBC` unit, where it has no meaning. -/
inductive Consistent (cs : CodingStructure) (pu : PredictionUnit) : Prop
  | ibc (mode : pu.cu.isIBC = true) (regular : Bool) (flags : Flags pu false regular false false false)
      (idx : pu.mergeIdx < cs.maxNumIBCMergeCand)
  | affine (mode : pu.cu.isIBC = false) (flags : Flags pu true false false false false)
      (allowed : cs.hasSubblockMergeFlag pu.cu = true) (idx : pu.mergeIdx < cs.maxNumAffineMergeCand)
  | regular (mode : pu.cu.isIBC = false) (flags : Flags pu false true false false false)
      (idx : pu.mergeIdx < cs.maxNumMergeCand)
  | mmvd (mode : pu.cu.isIBC = false) (flags : Flags pu false true true false false)
      (allowed : cs.useMMVD = true) (idx : pu.mmvdMergeIdx < 2 * MMVD_MAX_REFINE_NUM)
      (single : cs.maxNumMergeCand ≤ 1 → pu.mmvdMergeIdx < MMVD_MAX_REFINE_NUM)
  | ciip (mode : pu.cu.isIBC = false) (flags : Flags pu false false false true false)
      (present : cs.hasRegularMergeFlag pu.cu = true) (allowed : cs.ciipAvailable pu.cu = true)
      (idx : pu.mergeIdx < cs.maxNumMergeCand)
  | triangle (mode : pu.cu.isIBC = false) (flags : Flags pu false false false false true)
      (present : cs.hasRegularMergeFlag pu.cu = true) (allowed : cs.triangleAvailable = true)
      (dir : pu.triangleSplitDir ≤ 1) (first : pu.triangleMergeIdx0 < cs.maxNumTriangleCand)
      (second : pu.triangleMergeIdx1 < cs.maxNumTriangleCand) (byte : pu.triangleMergeIdx1 < 2 ^ 8)
      (differ : pu.triangleMergeIdx0 ≠ pu.triangleMergeIdx1)

/-- Two units agree on the flags and on the indices that their mode has. -/
structure SameMerge (pu' pu : PredictionUnit) : Prop where
  affine : pu'.cu.affine = pu.cu.affine
  regularMergeFlag : pu'.regularMergeFlag = pu.regularMergeFlag
  mmvdMergeFlag : pu'.mmvdMergeFlag = pu.mmvdMergeFlag
  mmvdSkip : pu'.cu.mmvdSkip = pu.cu.mmvdSkip
  mhIntraFlag : pu'.mhIntraFlag = pu.mhIntraFlag
  triangle : pu'.cu.triangle = pu.cu.triangle
  triangleIdx : pu.cu.triangle = true → pu'.triangleSplitDir = pu.triangleSplitDir ∧
    pu'.triangleMergeIdx0 = pu.triangleMergeIdx0 ∧ pu'.triangleMergeIdx1 = pu.triangleMergeIdx1
  mmvdMergeIdx : pu.mmvdMergeFlag = true → pu'.mmvdMergeIdx = pu.mmvdMergeIdx
  mergeIdx : pu.cu.triangle = false → pu.mmvdMergeFlag = false → pu'.mergeIdx = pu.mergeIdx

/-- The unit of the reader in front of `merge_data`. -/
def start (pu : PredictionUnit) : PredictionUnit :=
  { PredictionUnit.initData (.initData pu.cu.lwidth pu.cu.lheight pu.cu.predMode pu.cu.skip) with
    mergeFlag := true }

/-- What the reader stores of a unit: never `mmvdSkip`, and no `regularMergeFlag` in `MODE_IBC`. -/
def stored (pu : PredictionUnit) : PredictionUnit :=
  { pu with regularMergeFlag := !pu.cu.isIBC && pu.regularMergeFlag, cu.mmvdSkip := false }

/-- The units that lose no field. -/
def Kept (pu : PredictionUnit) : Prop :=
  ¬ (pu.cu.skip = true ∧ pu.mmvdMergeFlag = true) ∧
    ¬ (pu.cu.isIBC = true ∧ pu.regularMergeFlag = true)

section

variable {cs : CodingStructure} {pu : PredictionUnit}

theorem Consistent.mmvdSkip (ok : Consistent cs pu) :
    pu.cu.mmvdSkip = (pu.mmvdMergeFlag && pu.cu.skip) := by
  cases ok with
  | ibc _ _ flags | affine _ flags | regular _ flags | mmvd _ flags | ciip _ flags
  | triangle _ flags => rw [flags.mmvdSkip, flags.mmvdMergeFlag]

theorem same_stored_iff (skip : pu.cu.mmvdSkip = (pu.mmvdMergeFlag && pu.cu.skip))
    {r : PredictionUnit} (same : SameMerge r (stored pu)) : SameMerge r pu ↔ Kept pu := by
  have regular : r.regularMergeFlag = (!pu.cu.isIBC && pu.regularMergeFlag) := same.regularMergeFlag
  have none : r.cu.mmvdSkip = false := same.mmvdSkip
  constructor
  · intro whole
    refine ⟨fun both => ?_, fun both => ?_⟩
    · have lost := whole.mmvdSkip
      rw [none, skip, both.1, both.2] at lost
      cases lost
    · have lost := whole.regularMergeFlag
      rw [regular, both.1, both.2] at lost
      cases lost
  · rintro ⟨notSkipped, notIbc⟩
    refine ⟨same.affine, regular.trans ?_, same.mmvdMergeFlag, none.trans ?_, same.mhIntraFlag,
      same.triangle, same.triangleIdx, same.mmvdMergeIdx, same.mergeIdx⟩
    · cases flag : pu.regularMergeFlag with
      | false => rw [Bool.and_false]
      | true =>
          cases mode : pu.cu.isIBC with
          | false => rfl
          | true => exact absurd ⟨mode, flag⟩ notIbc
    · rw [skip]
      cases flag : pu.mmvdMergeFlag with
      | false => rfl
      | true =>
          cases skipped : pu.cu.skip with
          | false => rfl
          | true => exact absurd ⟨skipped, flag⟩ notSkipped

/-- The result of a reader with the flags and the index of a unit. -/
theorem sameMerge_of_flags {r : PredictionUnit} {affine regular mmvd ciip triangle : Bool}
    (flags : Flags pu affine regular mmvd ciip triangle) (affine' : r.cu.affine = affine)
    (regular' : r.regularMergeFlag = (!pu.cu.isIBC && regular)) (mmvd' : r.mmvdMergeFlag = mmvd)
    (skip' : r.cu.mmvdSkip = false) (ciip' : r.mhIntraFlag = ciip) (triangle' : r.cu.triangle = triangle)
    (triangleIdx : triangle = true → r.triangleSplitDir = pu.triangleSplitDir ∧
      r.triangleMergeIdx0 = pu.triangleMergeIdx0 ∧ r.triangleMergeIdx1 = pu.triangleMergeIdx1)
    (mmvdMergeIdx : mmvd = true → r.mmvdMergeIdx = pu.mmvdMergeIdx)
    (mergeIdx : triangle = false → mmvd = false → r.mergeIdx = pu.mergeIdx) :
    SameMerge r (stored pu) where
  affine := affine'.trans flags.affine.symm
  regularMergeFlag := regular'.trans (by rw [stored, flags.regularMergeFlag])
  mmvdMergeFlag := mmvd'.trans flags.mmvdMergeFlag.symm
  mmvdSkip := skip'
  mhIntraFlag := ciip'.trans flags.mhIntraFlag.symm
  triangle := triangle'.trans flags.triangle.symm
  triangleIdx set := triangleIdx (flags.triangle.symm.trans set)
  mmvdMergeIdx set := mmvdMergeIdx (flags.mmvdMergeFlag.symm.trans set)
  mergeIdx unset unset' :=
    mergeIdx (flags.triangle.symm.trans unset) (flags.mmvdMergeFlag.symm.trans unset')

/-! ## Every mode -/

/-- The unit of the reader behind `regular_merge_flag`. -/
def flagged (pu : PredictionUnit) : PredictionUnit :=
  { start pu with regularMergeFlag := pu.regularMergeFlag }

/-- A unit that is neither `MODE_IBC` nor affine, up to `regular_merge_flag`. -/
theorem reads_front (mode : pu.cu.isIBC = false) (translational : pu.cu.affine = false)
    (allowed : pu.regularMergeFlag = false → cs.hasRegularMergeFlag pu.cu = true)
    {post : Unit → PredictionUnit → Prop}
    (regular : pu.regularMergeFlag = true → Reads
      (do CABACWriter.codeMmvdMergeFlag cs pu
          CABACWriter.codeRegularIdx cs pu)
      (do let result ← CABACReader.readMmvdMergeFlag cs (start pu).cu (flagged pu)
          CABACReader.readRegularIdx cs result.2) post)
    (irregular : pu.regularMergeFlag = false → Reads
      (do CABACWriter.codeMHIntraFlag cs pu
          CABACWriter.mergeIdx cs pu)
      (do let r ← CABACReader.readMHIntraFlag cs (flagged pu)
          CABACReader.readRegularIdx cs (CABACReader.setIrregular r)) post) :
    Reads (CABACWriter.mergeData cs pu) (CABACReader.mergeData cs (start pu)) post := by
  unfold CABACWriter.mergeData CABACReader.mergeData
  have mode' : (start pu).cu.isIBC = false := mode
  have inter : ¬ pu.cu.isIBC = true := by simp [mode]
  have inter' : ¬ (start pu).cu.isIBC = true := by simp [mode']
  rw [if_neg inter, if_neg inter']
  refine Codes.bind (reads_subblockMergeFlag rfl rfl (by simp [translational])) ?_
  rintro _ _ rfl
  have plain : ¬ pu.cu.affine = true := by simp [translational]
  rw [if_neg plain, if_neg plain]
  refine Codes.bind (reads_regularMergeFlag rfl rfl rfl allowed) ?_
  rintro _ _ rfl
  rw [translational]
  by_cases flag : pu.regularMergeFlag = true
  · rw [if_pos flag, if_pos flag]
    exact regular flag
  · rw [if_neg flag, if_neg flag]
    exact irregular (by simpa using flag)

/-- The reader takes exactly the bins that are written of a unit. -/
abbrev MergeRead (cs : CodingStructure) (pu : PredictionUnit) : Prop :=
  Reads (CABACWriter.mergeData cs pu) (CABACReader.mergeData cs (start pu))
    (fun _ r => SameMerge r (stored pu))

theorem reads_ibc {regular : Bool} (mode : pu.cu.isIBC = true)
    (flags : Flags pu false regular false false false) (idx : pu.mergeIdx < cs.maxNumIBCMergeCand) :
    MergeRead cs pu := by
  unfold MergeRead CABACWriter.mergeData CABACReader.mergeData
  have mode' : (start pu).cu.isIBC = true := mode
  have fits : pu.mergeIdx < numCand cs pu.cu := by
    rwa [numCand, if_pos mode]
  rw [if_pos mode, if_pos mode']
  refine Codes.weaken (reads_mergeIdx flags.affine rfl flags.triangle rfl rfl fits) ?_
  rintro _ _ rfl
  refine sameMerge_of_flags flags rfl ?_ rfl rfl rfl rfl nofun nofun fun _ _ => rfl
  rw [mode]
  rfl

theorem reads_affine (mode : pu.cu.isIBC = false) (flags : Flags pu true false false false false)
    (allowed : cs.hasSubblockMergeFlag pu.cu = true) (idx : pu.mergeIdx < cs.maxNumAffineMergeCand) :
    MergeRead cs pu := by
  unfold MergeRead CABACWriter.mergeData CABACReader.mergeData
  have mode' : (start pu).cu.isIBC = false := mode
  have inter : ¬ pu.cu.isIBC = true := by simp [mode]
  have inter' : ¬ (start pu).cu.isIBC = true := by simp [mode']
  rw [if_neg inter, if_neg inter']
  refine Codes.bind (reads_subblockMergeFlag rfl rfl fun _ => allowed) ?_
  rintro _ _ rfl
  rw [if_pos flags.affine, if_pos flags.affine]
  refine Codes.readerMap _ (reads_mergeIdx_affine flags.affine flags.affine idx) ?_
  rintro _ _ rfl
  refine sameMerge_of_flags flags flags.affine ?_ rfl rfl rfl rfl nofun nofun fun _ _ => rfl
  rw [Bool.and_false]

theorem reads_regular (mode : pu.cu.isIBC = false) (flags : Flags pu false true false false false)
    (idx : pu.mergeIdx < cs.maxNumMergeCand) : MergeRead cs pu := by
  have fits : pu.mergeIdx < numCand cs pu.cu := by
    rwa [numCand, if_neg (by simp [mode])]
  refine reads_front mode flags.affine (by simp [flags.regularMergeFlag]) (fun _ => ?_)
    (by simp [flags.regularMergeFlag])
  refine Codes.bind (reads_mmvdMergeFlag (by simp [flags.mmvdMergeFlag])) ?_
  rintro _ ⟨_, r⟩ rfl
  unfold CABACWriter.codeRegularIdx CABACReader.readRegularIdx
  have skip : pu.cu.mmvdSkip = false := flags.mmvdSkip
  rw [if_neg (by simp [flags.mmvdMergeFlag, skip]),
    if_neg (by simp [flags.mmvdMergeFlag, flagged, start, PredictionUnit.initData,
      InterSyntax.CodingUnit.initData])]
  refine Codes.weaken (reads_mergeIdx flags.affine rfl flags.triangle rfl rfl fits) ?_
  rintro _ _ rfl
  refine sameMerge_of_flags flags rfl ?_ flags.mmvdMergeFlag rfl rfl rfl nofun nofun fun _ _ => rfl
  rw [mode]
  exact flags.regularMergeFlag

theorem reads_mmvd (mode : pu.cu.isIBC = false) (flags : Flags pu false true true false false)
    (allowed : cs.useMMVD = true) (idx : pu.mmvdMergeIdx < 2 * MMVD_MAX_REFINE_NUM)
    (single : cs.maxNumMergeCand ≤ 1 → pu.mmvdMergeIdx < MMVD_MAX_REFINE_NUM) :
    MergeRead cs pu := by
  refine reads_front mode flags.affine (by simp [flags.regularMergeFlag]) (fun _ => ?_)
    (by simp [flags.regularMergeFlag])
  refine Codes.bind (reads_mmvdMergeFlag fun _ => allowed) ?_
  rintro _ ⟨_, r⟩ rfl
  unfold CABACWriter.codeRegularIdx CABACReader.readRegularIdx
  rw [if_pos (.inl flags.mmvdMergeFlag), if_pos (.inl flags.mmvdMergeFlag)]
  refine Codes.weaken (reads_mmvdMergeIdx idx single) ?_
  rintro _ _ rfl
  refine sameMerge_of_flags flags rfl ?_ flags.mmvdMergeFlag rfl rfl rfl nofun (fun _ => rfl) nofun
  rw [mode]
  exact flags.regularMergeFlag

/-- Behind `mhIntraFlag`, a unit with combined prediction has a merge index. -/
theorem reads_ciip (mode : pu.cu.isIBC = false) (flags : Flags pu false false false true false)
    (present : cs.hasRegularMergeFlag pu.cu = true) (allowed : cs.ciipAvailable pu.cu = true)
    (idx : pu.mergeIdx < cs.maxNumMergeCand) : MergeRead cs pu := by
  have fits : pu.mergeIdx < numCand cs pu.cu := by
    rwa [numCand, if_neg (by simp [mode])]
  refine reads_front mode flags.affine (fun _ => present) (by simp [flags.regularMergeFlag])
    fun _ => ?_
  refine Codes.bind (reads_mhIntraFlag rfl rfl rfl (fun _ => allowed) (by simp [flags.mhIntraFlag])) ?_
  rintro _ _ rfl
  unfold CABACReader.setIrregular CABACReader.readRegularIdx
  simp only [flags.mhIntraFlag, if_true]
  rw [if_neg (by simp [flagged, start, PredictionUnit.initData, InterSyntax.CodingUnit.initData])]
  refine Codes.weaken (reads_mergeIdx flags.affine rfl flags.triangle rfl rfl fits) ?_
  rintro _ _ rfl
  refine sameMerge_of_flags flags rfl ?_ rfl rfl rfl rfl nofun nofun fun _ _ => rfl
  rw [mode]
  exact flags.regularMergeFlag

theorem reads_triangleUnit (mode : pu.cu.isIBC = false)
    (flags : Flags pu false false false false true)
    (present : cs.hasRegularMergeFlag pu.cu = true) (allowed : cs.triangleAvailable = true)
    (dir : pu.triangleSplitDir ≤ 1) (first : pu.triangleMergeIdx0 < cs.maxNumTriangleCand)
    (second : pu.triangleMergeIdx1 < cs.maxNumTriangleCand) (byte : pu.triangleMergeIdx1 < 2 ^ 8)
    (differ : pu.triangleMergeIdx0 ≠ pu.triangleMergeIdx1) : MergeRead cs pu := by
  refine reads_front mode flags.affine (fun _ => present) (by simp [flags.regularMergeFlag])
    fun _ => ?_
  refine Codes.bind (reads_mhIntraFlag rfl rfl rfl (by simp [flags.mhIntraFlag]) fun _ => allowed) ?_
  rintro _ _ rfl
  unfold CABACReader.setIrregular CABACReader.readRegularIdx
  simp only [flags.mhIntraFlag, Bool.false_eq_true, if_false]
  rw [if_neg (by simp [flagged, start, PredictionUnit.initData, InterSyntax.CodingUnit.initData])]
  refine Codes.weaken (reads_mergeIdx_triangle flags.affine rfl flags.triangle rfl (by omega) dir first
    second byte differ) ?_
  rintro _ _ rfl
  refine sameMerge_of_flags flags rfl ?_ rfl rfl rfl rfl (fun _ => ⟨rfl, rfl, rfl⟩) nofun nofun
  rw [mode]
  exact flags.regularMergeFlag

theorem reads_mergeData (ok : Consistent cs pu) : MergeRead cs pu := by
  cases ok with
  | ibc mode regular flags idx => exact reads_ibc mode flags idx
  | affine mode flags allowed idx => exact reads_affine mode flags allowed idx
  | regular mode flags idx => exact reads_regular mode flags idx
  | mmvd mode flags allowed idx single => exact reads_mmvd mode flags allowed idx single
  | ciip mode flags present allowed idx => exact reads_ciip mode flags present allowed idx
  | triangle mode flags present allowed dir first second byte differ =>
      exact reads_triangleUnit mode flags present allowed dir first second byte differ

/-! ## What is lost -/

/-- The writer appends `bins`, and the reader takes them in front of anything and makes `r`. -/
def Taken (cs : CodingStructure) (pu : PredictionUnit) (bins : List Bin) (r : PredictionUnit) : Prop :=
  CABACWriter.mergeData cs pu [] = .ok ((), bins) ∧
    ∀ rest, CABACReader.mergeData cs (start pu) (bins ++ rest) = .ok (r, rest)

theorem exists_taken (ok : Consistent cs pu) :
    ∃ bins r, Taken cs pu bins r ∧ SameMerge r (stored pu) := by
  obtain ⟨bins, _, r, run, same, read⟩ := taken_of_reads (reads_mergeData ok)
  exact ⟨bins, r, ⟨run, read⟩, same⟩

theorem Taken.unique {bins bins' : List Bin} {r r' : PredictionUnit} (taken : Taken cs pu bins r)
    (taken' : Taken cs pu bins' r') : r = r' := by
  have written := taken.1.symm.trans taken'.1
  obtain rfl : bins = bins' := congrArg Prod.snd (Except.ok.inj written)
  have read := (taken.2 []).symm.trans (taken'.2 [])
  exact congrArg Prod.fst (Except.ok.inj read)

theorem kept_of_taken (ok : Consistent cs pu) {bins : List Bin} {r : PredictionUnit}
    (taken : Taken cs pu bins r) : SameMerge r pu ↔ Kept pu := by
  obtain ⟨bins', r', taken', same⟩ := exists_taken ok
  rw [taken.unique taken']
  exact same_stored_iff ok.mmvdSkip same

/-- The bins of a consistent unit are taken, each under its context. The unit of the reader agrees
with that of the writer unless the unit is skipped and has an MMVD index, or is a `MODE_IBC` unit
whose `regularMergeFlag` is set. -/
theorem mergeData_same_iff (ok : Consistent cs pu) :
    ∃ bins r, Taken cs pu bins r ∧ (SameMerge r pu ↔ Kept pu) := by
  obtain ⟨bins, r, taken, _⟩ := exists_taken ok
  exact ⟨bins, r, taken, kept_of_taken ok taken⟩

end

/-- All tools, in a slice with two lists. -/
def sampleSlice : CodingStructure where
  sliceType := .B_SLICE
  IBCFlag := true
  useAffine := true
  useAffineType := true
  useMMVD := true
  useMHIntra := true
  useTriangle := true
  maxNumMergeCand := 6
  maxNumAffineMergeCand := 5
  maxNumIBCMergeCand := 6
  maxNumTriangleCand := 5
  mvdL1ZeroFlag := false
  numRefIdx _ := 2
  biDirPred := true
  symRefIdx _ := 0
  cuLeft := none
  cuAbove := none

/-- A unit of 16 x 16 samples with no flag set. -/
def sampleUnit (skip : Bool) : PredictionUnit := .initData (.initData 16 16 .MODE_INTER skip)

/-- Two triangles, with the larger index first. -/
def sampleTriangle : PredictionUnit :=
  { sampleUnit true with
    cu.triangle := true, triangleSplitDir := 1, triangleMergeIdx0 := 4, triangleMergeIdx1 := 2 }

theorem mergeData_same_triangle :
    ∃ bins r, Taken sampleSlice sampleTriangle bins r ∧ (SameMerge r sampleTriangle ↔
      Kept sampleTriangle) :=
  mergeData_same_iff (.triangle rfl ⟨rfl, rfl, rfl, rfl, rfl, rfl⟩ (by decide) (by decide) (by decide)
    (by decide) (by decide) (by decide) (by decide))

/-- A skipped unit with an MMVD index. -/
def sampleMmvd : PredictionUnit :=
  { sampleUnit true with
    cu.mmvdSkip := true, regularMergeFlag := true, mmvdMergeFlag := true, mmvdMergeIdx := 37 }

theorem mmvdSkip_is_lost :
    Consistent sampleSlice sampleMmvd ∧
      ¬ ∃ bins r, Taken sampleSlice sampleMmvd bins r ∧ SameMerge r sampleMmvd := by
  have ok : Consistent sampleSlice sampleMmvd :=
    .mmvd rfl ⟨rfl, rfl, rfl, rfl, rfl, rfl⟩ rfl (by decide) (by decide)
  refine ⟨ok, ?_⟩
  rintro ⟨bins, r, taken, same⟩
  exact ((kept_of_taken ok taken).mp same).1 ⟨rfl, rfl⟩

end Vtm.RoundTrip.MergeData
