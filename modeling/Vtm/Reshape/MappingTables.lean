import Vtm.Reshape.Construct
import Vtm.Reshape.LumaMapping

/-!
# The tables of the luma mapping

`constructReshaper` tabulates a `LumaMapping` and its way back: neither table falls, and bins with
enough code words come back to within one. The exception is the way back in the last bin, where a
value beyond 16 bits wraps before it is clipped: `mappingTables_iff`.
-/

namespace Vtm.Reshape

open Vtm.Std
open Vtm.AdaptationSets (SliceReshapeInfo PIC_CODE_CW_BINS)

/-- The code words of the bins are between an eighth and eight times the samples of a bin, and the
sum is less than the number of samples. -/
structure ValidCounts (bitDepth : Nat) (info : SliceReshapeInfo) : Prop where
  depth : 8 ≤ bitDepth ∧ bitDepth ≤ 12
  min_lt : info.reshaperModelMinBinIdx < 16
  max_lt : info.reshaperModelMaxBinIdx < 16
  count : ∀ i, info.reshaperModelMinBinIdx ≤ i → i ≤ info.reshaperModelMaxBinIdx →
    2 ^ (bitDepth - 4) / 8 ≤ info.reshaperModelBinCWDelta i + 2 ^ (bitDepth - 4) ∧
      info.reshaperModelBinCWDelta i + 2 ^ (bitDepth - 4) ≤ 8 * 2 ^ (bitDepth - 4) - 1
  total : ∑ i ∈ Finset.Icc info.reshaperModelMinBinIdx info.reshaperModelMaxBinIdx,
    (info.reshaperModelBinCWDelta i + 2 ^ (bitDepth - 4)) ≤ 2 ^ bitDepth - 1

namespace ValidCounts

variable {bitDepth : Nat} {info : SliceReshapeInfo} (valid : ValidCounts bitDepth info)
include valid

/-- The number of samples of a bin. -/
theorem length_mem : (16 : Int) ≤ 2 ^ (bitDepth - 4) ∧ (2 : Int) ^ (bitDepth - 4) ≤ 256 ∧
    (2 : Int) ^ bitDepth = 16 * 2 ^ (bitDepth - 4) := by
  obtain ⟨low, high⟩ := valid.depth
  have least : (2 : Int) ^ 4 ≤ 2 ^ (bitDepth - 4) := pow_le_pow_right₀ (by decide) (by omega)
  have most : (2 : Int) ^ (bitDepth - 4) ≤ 2 ^ 8 := pow_le_pow_right₀ (by decide) (by omega)
  have whole : (2 : Int) ^ bitDepth = 2 ^ 4 * 2 ^ (bitDepth - 4) := by
    rw [← pow_add, Nat.add_sub_cancel' (by omega)]
  exact ⟨least, most, whole⟩

theorem binCount_eq {i : Nat} (low : info.reshaperModelMinBinIdx ≤ i)
    (high : i ≤ info.reshaperModelMaxBinIdx) : binCount info (2 ^ (bitDepth - 4)) i =
      info.reshaperModelBinCWDelta i + 2 ^ (bitDepth - 4) := by
  obtain ⟨least, most, -⟩ := valid.length_mem
  obtain ⟨lower, upper⟩ := valid.count i low high
  rw [binCount, if_pos ⟨low, high⟩]
  exact Int.emod_eq_of_lt (by omega) (by omega)

theorem binCount_mem {i : Nat} (low : info.reshaperModelMinBinIdx ≤ i)
    (high : i ≤ info.reshaperModelMaxBinIdx) :
    2 ^ (bitDepth - 4) / 8 ≤ binCount info (2 ^ (bitDepth - 4)) i ∧
      binCount info (2 ^ (bitDepth - 4)) i ≤ 8 * 2 ^ (bitDepth - 4) - 1 := by
  rw [valid.binCount_eq low high]
  exact valid.count i low high

/-- The mapping that the code words stand for. -/
def mapping : LumaMapping where
  length := 2 ^ (bitDepth - 4)
  bins := 16
  count := binCount info (2 ^ (bitDepth - 4))
  first := info.reshaperModelMinBinIdx
  last := info.reshaperModelMaxBinIdx
  length_pos := Nat.two_pow_pos _
  first_lt := valid.min_lt
  last_lt := valid.max_lt
  outside _ out := if_neg out
  inside i low high := by
    have least := valid.length_mem.1
    have count := (valid.binCount_mem low high).1
    omega

theorem mapping_length : (valid.mapping.length : Int) = 2 ^ (bitDepth - 4) := by
  change ((2 ^ (bitDepth - 4) : Nat) : Int) = 2 ^ (bitDepth - 4)
  push_cast
  rfl

theorem level_bins_le : valid.mapping.level 16 ≤ 2 ^ bitDepth - 1 := by
  have within : valid.mapping.level 16 =
      ∑ i ∈ Finset.Icc info.reshaperModelMinBinIdx info.reshaperModelMaxBinIdx,
        (info.reshaperModelBinCWDelta i + 2 ^ (bitDepth - 4)) := by
    have subset : Finset.Icc info.reshaperModelMinBinIdx info.reshaperModelMaxBinIdx ⊆
        Finset.range 16 := fun i member => by
      have high := (Finset.mem_Icc.mp member).2
      have last := valid.max_lt
      exact Finset.mem_range.mpr (by omega)
    rw [LumaMapping.level, ← Finset.sum_subset subset fun i _ outside =>
      valid.mapping.outside i fun within => outside (Finset.mem_Icc.mpr within)]
    exact Finset.sum_congr rfl fun i member =>
      valid.binCount_eq (Finset.mem_Icc.mp member).1 (Finset.mem_Icc.mp member).2
  rw [within]
  exact valid.total

theorem level_mem (i : Nat) : 0 ≤ valid.mapping.level i ∧ valid.mapping.level i ≤ 4095 := by
  obtain ⟨-, most, whole⟩ := valid.length_mem
  have le := valid.mapping.level_le i
  have total := valid.level_bins_le
  have bins : valid.mapping.bins = 16 := rfl
  rw [bins] at le
  exact ⟨valid.mapping.level_nonneg i, by omega⟩

end ValidCounts

theorem toPel_of_mem {z : Int} (low : -2 ^ 15 ≤ z) (high : z < 2 ^ 15) : toPel z = z :=
  Int.bmod_eq_of_le (by omega) (by omega)

/-! ## The entries of the bins -/

section Bins

variable {r : Reshape} {info : SliceReshapeInfo} (valid : ValidCounts r.lumaBD info)

include valid in
theorem pivots_mapping {i : Nat} (le : i ≤ 16) :
    pivots (binCount info (2 ^ (r.lumaBD - 4))) i = valid.mapping.level i := by
  induction i with
  | zero => rfl
  | succ i ih =>
      have step := valid.mapping.level_succ i
      have count : valid.mapping.count i = binCount info (2 ^ (r.lumaBD - 4)) i := rfl
      obtain ⟨low, high⟩ := valid.level_mem (i + 1)
      rw [pivots, ih (by omega), ← count, ← step]
      exact toPel_of_mem (by omega) (by omega)

include valid in
theorem pivots_length {i : Nat} (le : i ≤ 16) :
    pivots (fun _ => 2 ^ (r.lumaBD - 4)) i = (i * valid.mapping.length : Int) := by
  obtain ⟨least, most, -⟩ := valid.length_mem
  rw [valid.mapping_length]
  induction i with
  | zero => exact (zero_mul _).symm
  | succ i ih =>
      have step : ((i + 1 : Nat) : Int) * 2 ^ (r.lumaBD - 4) =
          i * 2 ^ (r.lumaBD - 4) + 2 ^ (r.lumaBD - 4) := by
        push_cast
        ring
      have bound : ((i + 1 : Nat) : Int) * 2 ^ (r.lumaBD - 4) ≤ 16 * 256 :=
        Int.mul_le_mul (by omega) most (by omega) (by decide)
      have nonneg : (0 : Int) ≤ ((i + 1 : Nat) : Int) * 2 ^ (r.lumaBD - 4) := by positivity
      rw [pivots, ih (by omega), ← step]
      exact toPel_of_mem (by omega) (by omega)

theorem pivots_congr {count count' : Nat → Int} {n : Nat} (same : ∀ i < n, count i = count' i) :
    pivots count n = pivots count' n := by
  induction n with
  | zero => rfl
  | succ n ih =>
      rw [pivots, pivots, ih fun i less => same i (Nat.lt_succ_of_lt less),
        same n (Nat.lt_succ_self n)]

end Bins

/-- A reshaper that was built for valid code words. -/
structure Mapped (r : Reshape) : Prop where
  sized : r.Sized
  valid : ValidCounts r.lumaBD r.sliceReshapeInfo
  binCW : ∀ i < 16, r.binCW.entry i = binCount r.sliceReshapeInfo r.initCW i
  bins : r.BinTables 16
  fwd : ∀ v < r.reshapeLUTSize, r.fwdLUT.entry v = r.fwdValue v
  inv : ∀ v < r.reshapeLUTSize, r.invLUT.entry v = r.invValue v

namespace Mapped

variable {r : Reshape} (mapped : r.Mapped)

/-- The mapping that the tables are built from. -/
abbrev mapping : LumaMapping := mapped.valid.mapping

include mapped

theorem range : BinRange r.sliceReshapeInfo := ⟨le_of_lt mapped.valid.min_lt, mapped.valid.max_lt⟩

theorem count_entry {i : Nat} (inside : i < 16) : r.binCW.entry i = mapped.mapping.count i := by
  rw [mapped.binCW i inside, mapped.sized.initCW]
  rfl

theorem reshapePivot_entry {i : Nat} (le : i ≤ 16) :
    r.reshapePivot.entry i = mapped.mapping.level i := by
  rw [mapped.bins.reshapePivot i le, ← pivots_mapping mapped.valid le]
  exact pivots_congr fun k less => mapped.count_entry (by omega)

theorem inputPivot_entry {i : Nat} (le : i ≤ 16) :
    r.inputPivot.entry i = (i * mapped.mapping.length : Int) := by
  rw [mapped.bins.inputPivot i le, mapped.sized.initCW, pivots_length mapped.valid le]

theorem invScaleCoef_entry {i : Nat} (inside : i < 16) :
    r.invScaleCoef.entry i = mapped.mapping.slope 1024 i := by
  have least := mapped.valid.length_mem.1
  rw [mapped.bins.invScaleCoef i inside, mapped.count_entry inside, invScale, LumaMapping.slope,
    mapped.sized.initCW, Int.tdiv_eq_ediv_of_nonneg (by positivity), LinearPiece.slope,
    mapped.valid.mapping_length]
  rfl

/-- The forward slope is exact, as the bins have a power of two of samples below the precision. -/
theorem fwdScaleCoef_entry {i : Nat} (inside : i < 16) (offset : Int) :
    (r.fwdScaleCoef.entry i * offset + 2 ^ (FP_PREC - 1)) >>> FP_PREC =
      LinearPiece.forward mapped.mapping.length (mapped.mapping.count i) offset := by
  obtain ⟨low, high⟩ := mapped.valid.depth
  rw [mapped.bins.fwdScaleCoef i inside, mapped.count_entry inside, LinearPiece.forward,
    mapped.valid.mapping_length, fwdScale]
  generalize mapped.mapping.count i = count
  have product (k : Int) : count * k * offset = k * (count * offset) := by ring
  unfold FP_PREC
  have exact_ (k : Int) (same : (count * 2 ^ 11 + 2 ^ (r.lumaBD - 5)) >>> (r.lumaBD - 4) = count * k) :
      ((count * 2 ^ 11 + 2 ^ (r.lumaBD - 5)) >>> (r.lumaBD - 4) * offset + 2 ^ 10) >>> (11 : Nat) =
        (k * (count * offset) + 1024) / 2048 := by
    rw [same, product, Int.shiftRight_eq_div_pow]
    rfl
  generalize count * offset = p at exact_
  have depths : r.lumaBD = 8 ∨ r.lumaBD = 9 ∨ r.lumaBD = 10 ∨ r.lumaBD = 11 ∨ r.lumaBD = 12 := by
    omega
  rcases depths with depth | depth | depth | depth | depth
  · rw [exact_ 128 (by rw [depth, Int.shiftRight_eq_div_pow]; omega), depth]
    omega
  · rw [exact_ 64 (by rw [depth, Int.shiftRight_eq_div_pow]; omega), depth]
    omega
  · rw [exact_ 32 (by rw [depth, Int.shiftRight_eq_div_pow]; omega), depth]
    omega
  · rw [exact_ 16 (by rw [depth, Int.shiftRight_eq_div_pow]; omega), depth]
    omega
  · rw [exact_ 8 (by rw [depth, Int.shiftRight_eq_div_pow]; omega), depth]
    omega

theorem pwlIdxInv_eq (v : Int) : r.pwlIdxInv v = mapped.mapping.bin v := by
  have min_lt := mapped.valid.min_lt
  have max_lt := mapped.valid.max_lt
  unfold pwlIdxInv LumaMapping.bin
  dsimp only
  rw [pieceOf_congr v fun k more le => mapped.reshapePivot_entry (i := k) (by omega)]
  rfl

theorem fwdValue_eq {v : Nat} (inside : v < r.reshapeLUTSize) :
    r.fwdValue v = r.clipPel (mapped.mapping.there v) := by
  have bin : r.inputBin v = v / mapped.mapping.length := rfl
  have less := mapped.sized.inputBin_lt inside
  have offset : (v : Int) - (v / mapped.mapping.length : Nat) * mapped.mapping.length =
      (v % mapped.mapping.length : Nat) := by
    have split := Nat.div_add_mod v mapped.mapping.length
    rw [Nat.mul_comm] at split
    have split' : ((v / mapped.mapping.length : Nat) : Int) * mapped.mapping.length +
        (v % mapped.mapping.length : Nat) = v := by exact_mod_cast split
    omega
  rw [bin] at less
  unfold fwdValue pieceValue
  dsimp only
  rw [bin, mapped.fwdScaleCoef_entry less, mapped.reshapePivot_entry (by omega),
    mapped.inputPivot_entry (by omega), offset]
  rfl

theorem invValue_eq (v : Nat) : r.invValue v = r.clipPel (mapped.mapping.back 1024 v) := by
  have less : mapped.mapping.bin v < 16 := mapped.mapping.bin_lt v
  unfold invValue pieceValue
  dsimp only
  rw [mapped.pwlIdxInv_eq, mapped.reshapePivot_entry (by omega), mapped.inputPivot_entry (by omega),
    mapped.invScaleCoef_entry less, Int.shiftRight_eq_div_pow]
  rfl

/-! ## The clip -/

theorem lutSize_eq : (r.reshapeLUTSize : Int) = 2 ^ r.lumaBD := by
  rw [mapped.sized.lutSize]
  push_cast
  rfl

theorem toPel_most : toPel (2 ^ r.lumaBD - 1) = 2 ^ r.lumaBD - 1 := by
  obtain ⟨least, most, whole⟩ := mapped.valid.length_mem
  exact toPel_of_mem (by omega) (by omega)

/-- A value of 16 bits is clipped to the samples. -/
theorem clipPel_eq {z : Int} (low : 0 ≤ z) (high : z < 2 ^ 15) :
    r.clipPel z = min z (2 ^ r.lumaBD - 1) := by
  have zero : toPel 0 = 0 := rfl
  have value : toPel z = z := toPel_of_mem (by omega) high
  unfold clipPel ChromaQpMappingTableParams.Clip3
  rw [zero, mapped.toPel_most, value, max_eq_right low]

/-- A larger value wraps, and is clipped to zero. -/
theorem clipPel_wraps {z : Int} (low : 2 ^ 15 ≤ z) (high : z < 2 ^ 16) : r.clipPel z = 0 := by
  obtain ⟨least, most, whole⟩ := mapped.valid.length_mem
  have zero : toPel 0 = 0 := rfl
  have wrapped : toPel z = z - 2 ^ 16 := by
    simp only [toPel, Int.bmod]
    omega
  unfold clipPel ChromaQpMappingTableParams.Clip3
  rw [zero, mapped.toPel_most, wrapped]
  omega

end Mapped

/-! ## The tables -/

/-- What the tables are to be: neither falls, all values are samples, each value is in a bin, and a
sample of a bin with enough code words comes back to within one. -/
structure MappingTables (r : Reshape) : Prop where
  fwd_mono : ∀ v w, v ≤ w → w < r.reshapeLUTSize → r.fwdLUT.entry v ≤ r.fwdLUT.entry w
  inv_mono : ∀ v w, v ≤ w → w < r.reshapeLUTSize → r.invLUT.entry v ≤ r.invLUT.entry w
  fwd_range : ∀ v < r.reshapeLUTSize, 0 ≤ r.fwdLUT.entry v ∧ r.fwdLUT.entry v ≤ 2 ^ r.lumaBD - 1
  inv_range : ∀ v < r.reshapeLUTSize, 0 ≤ r.invLUT.entry v ∧ r.invLUT.entry v ≤ 2 ^ r.lumaBD - 1
  bin : ∀ lumaVal, ∃ idx : Nat, r.getPWLIdxInv lumaVal = .ok (idx : Int) ∧ idx < 16
  near : ∀ x < r.reshapeLUTSize, r.initCW ≤ r.binCW.entry (r.inputBin x) →
    |r.invLUT.entry (r.fwdLUT.entry x).toNat - x| ≤ 1

/-- If the last bin is used, the way back of the largest sample in it fits 16 bits before it is
clipped. -/
def LastBinFits (bitDepth : Nat) (info : SliceReshapeInfo) : Prop :=
  let initCW : Int := 2 ^ (bitDepth - 4)
  let count := binCount info initCW
  info.reshaperModelMaxBinIdx = 15 →
    15 * initCW + (initCW * 2 ^ 11 / count 15 *
      (2 ^ bitDepth - 1 - ∑ i ∈ Finset.range 15, count i) + 2 ^ 10) / 2 ^ 11 < 2 ^ 15

namespace Mapped

variable {r : Reshape} (mapped : r.Mapped)
include mapped

theorem back_nonneg (v : Nat) : 0 ≤ mapped.mapping.back 1024 v :=
  mapped.mapping.back_nonneg (by decide) (Int.natCast_nonneg v)

/-- The way back of the last sample decides whether a value wraps. -/
theorem lastBinFits_iff : LastBinFits r.lumaBD r.sliceReshapeInfo ↔
    mapped.mapping.back 1024 (2 ^ r.lumaBD - 1) < 2 ^ 15 := by
  obtain ⟨least, most, whole⟩ := mapped.valid.length_mem
  have min_lt : mapped.mapping.first < 16 := mapped.valid.min_lt
  have max_lt : mapped.mapping.last < 16 := mapped.valid.max_lt
  have bin : mapped.mapping.bin (2 ^ r.lumaBD - 1) = min _ 15 :=
    mapped.mapping.bin_above mapped.valid.level_bins_le
  have max_eq : mapped.mapping.last = r.sliceReshapeInfo.reshaperModelMaxBinIdx := rfl
  unfold LastBinFits LumaMapping.back LumaMapping.backFrom
  dsimp only
  rw [← max_eq]
  by_cases last : mapped.mapping.last = 15
  · have used : 0 < mapped.mapping.count 15 := mapped.mapping.inside 15 (by omega) (by omega)
    have slope : mapped.mapping.slope 1024 15 =
        2 ^ (r.lumaBD - 4) * 2 ^ 11 / binCount r.sliceReshapeInfo (2 ^ (r.lumaBD - 4)) 15 := by
      rw [LumaMapping.slope, if_neg used.ne', LinearPiece.slope, mapped.valid.mapping_length]
      rfl
    have here : mapped.mapping.bin (2 ^ r.lumaBD - 1) = 15 := by omega
    rw [here, slope, mapped.valid.mapping_length]
    exact ⟨fun fits => fits last, fun fits _ => fits⟩
  · have none : mapped.mapping.count (mapped.mapping.bin (2 ^ r.lumaBD - 1)) = 0 :=
      mapped.mapping.outside _ (by omega)
    have bound : (mapped.mapping.bin (2 ^ r.lumaBD - 1) : Int) * mapped.mapping.length ≤ 15 * 256 :=
      Int.mul_le_mul (by omega) (by rw [mapped.valid.mapping_length]; exact most) (by omega)
        (by decide)
    rw [LumaMapping.slope, if_pos none, LinearPiece.backward, zero_mul]
    constructor
    · intro _
      omega
    · exact fun _ here => absurd here last

/-- No value of the way back has 17 bits. -/
theorem back_lt {v : Nat} (inside : v < r.reshapeLUTSize) :
    mapped.mapping.back 1024 v < 2 ^ 16 := by
  obtain ⟨least, most, whole⟩ := mapped.valid.length_mem
  have size := mapped.lutSize_eq
  have bin : mapped.mapping.bin v < 16 := mapped.mapping.bin_lt v
  have level : 0 ≤ mapped.mapping.level (mapped.mapping.bin v) := mapped.mapping.level_nonneg _
  have start : (mapped.mapping.bin v : Int) * mapped.mapping.length ≤ 15 * 256 :=
    Int.mul_le_mul (by omega) (by rw [mapped.valid.mapping_length]; exact most) (by omega)
      (by decide)
  have flat : mapped.mapping.slope 1024 (mapped.mapping.bin v) ≤ 2 ^ 14 := by
    unfold LumaMapping.slope
    split
    · decide
    · rename_i some
      have within := mapped.mapping.within_of_count some
      have count : 2 ^ (r.lumaBD - 4) / 8 ≤ mapped.mapping.count (mapped.mapping.bin v) :=
        (mapped.valid.binCount_mem within.1 within.2).1
      obtain ⟨k, eighth⟩ : (8 : Int) ∣ 2 ^ (r.lumaBD - 4) := by
        have low := mapped.valid.depth.1
        exact pow_dvd_pow (2 : Int) (show 3 ≤ r.lumaBD - 4 by omega)
      rw [LinearPiece.slope, mapped.valid.mapping_length]
      refine Int.ediv_le_of_le_mul (by omega) ?_
      omega
  have offset : (v : Int) - mapped.mapping.level (mapped.mapping.bin v) ≤ 4095 := by omega
  have above : 0 ≤ (v : Int) - mapped.mapping.level (mapped.mapping.bin v) := by
    have spec := (mapped.mapping.bin_spec (Int.natCast_nonneg v)).1
    omega
  have product := Int.mul_le_mul flat offset above (by decide)
  have back : LinearPiece.backward 1024 (mapped.mapping.slope 1024 (mapped.mapping.bin v))
      (v - mapped.mapping.level (mapped.mapping.bin v)) ≤ 32761 := by
    unfold LinearPiece.backward
    omega
  unfold LumaMapping.back LumaMapping.backFrom
  omega

section Entries

theorem fwd_entry {v : Nat} (inside : v < r.reshapeLUTSize) :
    r.fwdLUT.entry v = mapped.mapping.there v := by
  obtain ⟨least, most, whole⟩ := mapped.valid.length_mem
  have nonneg := mapped.mapping.there_nonneg v
  have total := (mapped.mapping.there_le v).trans mapped.valid.level_bins_le
  rw [mapped.fwd v inside, mapped.fwdValue_eq inside, mapped.clipPel_eq nonneg (by omega)]
  exact min_eq_left total

theorem inv_entry {v : Nat} (inside : v < r.reshapeLUTSize)
    (fits : mapped.mapping.back 1024 v < 2 ^ 15) :
    r.invLUT.entry v = min (mapped.mapping.back 1024 v) (2 ^ r.lumaBD - 1) := by
  rw [mapped.inv v inside, mapped.invValue_eq, mapped.clipPel_eq (mapped.back_nonneg v) fits]

theorem inv_entry_wraps {v : Nat} (inside : v < r.reshapeLUTSize)
    (large : 2 ^ 15 ≤ mapped.mapping.back 1024 v) : r.invLUT.entry v = 0 := by
  rw [mapped.inv v inside, mapped.invValue_eq, mapped.clipPel_wraps large (mapped.back_lt inside)]

end Entries

/-- The tables are as they are to be if no value of the way back wraps. -/
theorem mappingTables (fits : LastBinFits r.lumaBD r.sliceReshapeInfo) : r.MappingTables := by
  obtain ⟨least, most, whole⟩ := mapped.valid.length_mem
  have size := mapped.lutSize_eq
  have last := mapped.lastBinFits_iff.mp fits
  have fit {v : Nat} (inside : v < r.reshapeLUTSize) : mapped.mapping.back 1024 v < 2 ^ 15 := by
    have order := @LumaMapping.back_mono mapped.mapping 1024 (by decide) v (r.reshapeLUTSize - 1)
      (by omega)
    have top : ((r.reshapeLUTSize - 1 : Nat) : Int) = 2 ^ r.lumaBD - 1 := by omega
    dsimp only at order
    rw [top] at order
    exact lt_of_le_of_lt order last
  exact
    { fwd_mono := fun v w le inside => by
        rw [mapped.fwd_entry inside, mapped.fwd_entry (lt_of_le_of_lt le inside)]
        exact mapped.mapping.there_mono le
      inv_mono := fun v w le inside => by
        have outside := lt_of_le_of_lt le inside
        rw [mapped.inv_entry inside (fit inside), mapped.inv_entry outside (fit outside)]
        exact min_le_min_right _ (mapped.mapping.back_mono (by decide) le)
      fwd_range := fun v inside => by
        rw [mapped.fwd_entry inside]
        exact ⟨mapped.mapping.there_nonneg v,
          (mapped.mapping.there_le v).trans mapped.valid.level_bins_le⟩
      inv_range := fun v inside => by
        rw [mapped.inv_entry inside (fit inside)]
        exact ⟨le_min (mapped.back_nonneg v) (by omega), min_le_right _ _⟩
      bin := fun lumaVal => ⟨_, getPWLIdxInv_eq mapped.sized mapped.range lumaVal, by
        rw [mapped.pwlIdxInv_eq]
        exact mapped.mapping.bin_lt lumaVal⟩
      near := fun x inside enough => by
        have bin := mapped.sized.inputBin_lt inside
        rw [mapped.count_entry bin, mapped.sized.initCW, ← mapped.valid.mapping_length] at enough
        have nonneg := mapped.mapping.there_nonneg x
        have total := (mapped.mapping.there_le x).trans mapped.valid.level_bins_le
        obtain ⟨value, mapsTo⟩ := Int.eq_ofNat_of_zero_le nonneg
        have small : mapped.mapping.count (x / mapped.mapping.length) < 2 * 1024 := by
          by_cases within : mapped.mapping.first ≤ x / mapped.mapping.length ∧
              x / mapped.mapping.length ≤ mapped.mapping.last
          · have count := (mapped.valid.binCount_mem within.1 within.2).2
            exact lt_of_le_of_lt count (by omega)
          · rw [mapped.mapping.outside _ within]
            decide
        have near := mapped.mapping.back_there (by decide) enough small
        have less : value < r.reshapeLUTSize := by omega
        rw [mapped.fwd_entry inside, mapsTo, Int.toNat_natCast, mapped.inv_entry less (fit less)]
        rw [mapsTo, abs_le] at near
        rw [abs_le]
        omega }

/-- A value that wraps makes the inverse table fall. -/
theorem lastBinFits (tables : r.MappingTables) : LastBinFits r.lumaBD r.sliceReshapeInfo := by
  obtain ⟨least, most, whole⟩ := mapped.valid.length_mem
  have size := mapped.lutSize_eq
  by_contra wraps
  have last : mapped.mapping.last = 15 := by
    by_contra other
    exact wraps fun here => absurd here other
  rw [mapped.lastBinFits_iff, not_lt] at wraps
  have top : ((r.reshapeLUTSize - 1 : Nat) : Int) = 2 ^ r.lumaBD - 1 := by omega
  rw [← top] at wraps
  have used : 0 < mapped.mapping.count 15 :=
    mapped.mapping.inside 15 (Nat.lt_succ_iff.mp mapped.valid.min_lt) (le_of_eq last.symm)
  obtain ⟨start, level⟩ := Int.eq_ofNat_of_zero_le (mapped.mapping.level_nonneg 15)
  have below : mapped.mapping.level 15 < 2 ^ r.lumaBD - 1 := by
    have next := mapped.mapping.level_succ 15
    have total : mapped.mapping.level (15 + 1) ≤ 2 ^ r.lumaBD - 1 := mapped.valid.level_bins_le
    omega
  have back : mapped.mapping.back 1024 start = 15 * 2 ^ (r.lumaBD - 4) := by
    rw [← mapped.valid.mapping_length, ← level]
    exact mapped.mapping.back_level (by decide) used
  have falls := tables.inv_mono start (r.reshapeLUTSize - 1) (by omega) (by omega)
  rw [mapped.inv_entry (by omega) (by omega), mapped.inv_entry_wraps (by omega) wraps, back] at falls
  omega

end Mapped

/-- A reshaper that was built is `Mapped`. -/
theorem Constructed.mapped {r r' : Reshape} (built : Constructed r r')
    (valid : ValidCounts r.lumaBD r.sliceReshapeInfo) : r'.Mapped where
  sized := built.sized
  valid := by
    rw [built.lumaBD, built.info]
    exact valid
  binCW := by
    rw [built.info, built.initCW]
    exact built.binCW
  bins := built.bins
  fwd := built.fwd
  inv := built.inv

/-- For valid code words `constructReshaper` builds the tables as they are to be exactly if it does
not fail and the way back fits 16 bits in the last bin. -/
theorem mappingTables_iff {r : Reshape} (reachable : Reachable r) {info : SliceReshapeInfo}
    (valid : ValidCounts r.lumaBD info) :
    (∃ r', (r.setInfo info).constructReshaper = .ok r' ∧ r'.MappingTables) ↔
      Constructible r info ∧ LastBinFits r.lumaBD info := by
  have sized := reachable.sized.setInfo info
  constructor
  · rintro ⟨r', run, tables⟩
    have constructible := (constructReshaper_ok_iff sized).mp ⟨r', run⟩
    obtain ⟨r₂, run₂, built⟩ := constructReshaper_ok sized constructible
    rw [run] at run₂
    cases run₂
    obtain ⟨range, fits, divides⟩ := constructible
    have last := (built.mapped valid).lastBinFits tables
    rw [built.lumaBD, built.info] at last
    exact ⟨⟨range, fits, divides⟩, last⟩
  · rintro ⟨⟨range, fits, divides⟩, last⟩
    obtain ⟨r', run, built⟩ := constructReshaper_ok sized ⟨range, fits, divides⟩
    refine ⟨r', run, (built.mapped valid).mappingTables ?_⟩
    rw [built.lumaBD, built.info]
    exact last

/-- Bins with the same number of code words. -/
def evenBins (first last : Nat) (delta : Int) : SliceReshapeInfo where
  reshaperModelMinBinIdx := first
  reshaperModelMaxBinIdx := last
  reshaperModelBinCWDelta := fun _ => delta
  maxNbitsNeededDeltaCW := 1
  chrResScalingOffset := 0

/-- Large bins in front of small ones, with a chroma offset. -/
def unevenBins : SliceReshapeInfo where
  reshaperModelMinBinIdx := 1
  reshaperModelMaxBinIdx := 14
  reshaperModelBinCWDelta := fun i => if i < 7 then 4 else -3
  maxNbitsNeededDeltaCW := 3
  chrResScalingOffset := -2

theorem mappingTables_unevenBins :
    ∃ r', (((empty unevenBins).createDec 8).setInfo unevenBins).constructReshaper = .ok r' ∧
      r'.MappingTables :=
  (mappingTables_iff (Reachable.created unevenBins (by decide))
    ⟨by decide, by decide, by decide, by decide, by decide⟩).mpr
    ⟨⟨⟨by decide, by decide⟩, by decide, by decide⟩, fun last => absurd last (by decide)⟩

/-- With twelve bits and the last bin only, with an eighth of the code words, the way back of the
last sample wraps, and the inverse table ends in a zero. -/
theorem not_mappingTables_lastBin :
    ¬ ∃ r', (((empty (evenBins 15 15 (-224))).createDec 12).setInfo
      (evenBins 15 15 (-224))).constructReshaper = .ok r' ∧ r'.MappingTables := by
  rintro ⟨r', run, tables⟩
  have sized := (@Reachable.created (evenBins 15 15 (-224)) 12 (by decide)).sized.setInfo
    (evenBins 15 15 (-224))
  obtain ⟨r₂, run₂, built⟩ := constructReshaper_ok sized
    ((constructReshaper_ok_iff sized).mp ⟨r', run⟩)
  rw [run] at run₂
  cases run₂
  have valid : ValidCounts 12 (evenBins 15 15 (-224)) :=
    ⟨by decide, by decide, by decide,
      fun _ _ _ => (by decide : (2 : Int) ^ 8 / 8 ≤ -224 + 2 ^ 8 ∧ (-224 : Int) + 2 ^ 8 ≤ 8 * 2 ^ 8 - 1),
      by decide⟩
  have last := (built.mapped valid).lastBinFits tables
  rw [built.lumaBD, built.info] at last
  revert last
  unfold LastBinFits
  decide

end Vtm.Reshape
