import Vtm.Common.Reshape
import Vtm.Std.Pieces

/-!
# Construction of the luma mapping

What a round of each loop of `constructReshaper` stores, and when none of them fails:
`constructReshaper_ok_iff`.
-/

namespace Vtm.Reshape

open Vtm.Std
open Vtm.AdaptationSets (SliceReshapeInfo PIC_CODE_CW_BINS)
open CheckedArray (get_of_lt put_of_ne put_self resizeEmpty_size set_of_lt)

/-- The sizes of the arrays of a reshaper that was created. -/
structure Sized (r : Reshape) : Prop where
  depth : 8 ≤ r.lumaBD ∧ r.lumaBD ≤ 16
  lutSize : r.reshapeLUTSize = 2 ^ r.lumaBD
  initCW : r.initCW = 2 ^ (r.lumaBD - 4)
  tables : r.invLUT.size = r.fwdLUT.size
  binCW : r.binCW.size = 16
  reshapePivot : r.reshapePivot.size = 17
  inputPivot : r.inputPivot.size = 17
  fwdScaleCoef : r.fwdScaleCoef.size = 16
  invScaleCoef : r.invScaleCoef.size = 16
  chromaAdjHelpLUT : r.chromaAdjHelpLUT.size = 16
  firstPivot : r.reshapePivot.entry 0 = 0
  firstInput : r.inputPivot.entry 0 = 0

/-- The bins of a mapping model are bins of the tables. -/
structure BinRange (info : SliceReshapeInfo) : Prop where
  min_le : info.reshaperModelMinBinIdx ≤ 16
  max_lt : info.reshaperModelMaxBinIdx < 16

/-! ## The code words of the bins -/

/-- `m_binCW` of a mapping model. -/
def binCount (info : SliceReshapeInfo) (initCW : Int) (i : Nat) : Int :=
  if info.reshaperModelMinBinIdx ≤ i ∧ i ≤ info.reshaperModelMaxBinIdx then
    toUInt16 (info.reshaperModelBinCWDelta i + initCW)
  else 0

theorem fails_bind {α β : Type} (first : Checked α) {next : α → Checked β}
    (fails : ∀ a, ∃ e, next a = .error e) : ∃ e, (first >>= next) = .error e := by
  cases first with
  | error e => exact ⟨e, rfl⟩
  | ok a => exact fails a

section SetBinCW

variable {r : Reshape} (size : r.binCW.size = 16)
include size

theorem setBinCW_ok (range : BinRange r.sliceReshapeInfo) :
    ∃ binCW, r.setBinCW = .ok binCW ∧ binCW.size = 16 ∧
      ∀ i < 16, binCW.entry i = binCount r.sliceReshapeInfo r.initCW i := by
  obtain ⟨minLe, maxLt⟩ := range
  set info := r.sliceReshapeInfo with named
  set low := info.reshaperModelMinBinIdx with lowest
  set high := info.reshaperModelMaxBinIdx with highest
  obtain ⟨a, run, sizeA, entriesA⟩ := @forRange_writes _ r.binCW 0 low (by omega) (fun _ => 0)
    (fun binCW i => binCW.set i 0) (fun _ _ _ _ => rfl)
  obtain ⟨b, run', sizeB, entriesB⟩ := @forRange_writes _ a (high + 1) PIC_CODE_CW_BINS
    (fun _ => by rw [sizeA, size]; decide) (fun _ => 0) (fun binCW i => binCW.set i 0)
    (fun _ _ _ _ => rfl)
  obtain ⟨c, run₂, sizeC, entriesC⟩ := @forRange_writes _ b low (high + 1) (by omega)
    (fun i => toUInt16 (info.reshaperModelBinCWDelta i + r.initCW))
    (fun binCW i => do
      binCW.set i (toUInt16 ((← (CheckedArray.mk PIC_CODE_CW_BINS
        info.reshaperModelBinCWDelta).get i) + r.initCW)))
    (fun binCW i _ less => by
      have inside : i < PIC_CODE_CW_BINS := by
        unfold PIC_CODE_CW_BINS
        omega
      rw [get_of_lt inside]
      rfl)
  refine ⟨c, ?_, by omega, fun i inside => ?_⟩
  · have start : uintToInt ((high + 1) % 2 ^ 32) = ((high + 1 : Nat) : Int) := by
      rw [Nat.mod_eq_of_lt (by omega)]
      exact Int.bmod_eq_of_le (by omega) (by omega)
    have stop : ((high + 1 : Nat) : Int) = (high : Int) + 1 := Int.natCast_add high 1
    rw [stop] at run₂
    unfold setBinCW
    dsimp only
    rw [← named, ← lowest, ← highest, start]
    exact bind_eq_ok_iff.mpr ⟨a, run, bind_eq_ok_iff.mpr ⟨b, run', run₂⟩⟩
  · have bins : PIC_CODE_CW_BINS = 16 := rfl
    rw [entriesC i, entriesB i, entriesA i]
    unfold binCount
    by_cases within : low ≤ i ∧ i ≤ high
    · rw [if_pos (by omega), if_pos within]
    · rw [if_neg (by omega), if_neg within]
      by_cases above : high + 1 ≤ i ∧ i < PIC_CODE_CW_BINS
      · rw [if_pos above]
      · rw [if_neg above, if_pos (by omega)]

theorem setBinCW_error (outside : ¬ BinRange r.sliceReshapeInfo) : ∃ e, r.setBinCW = .error e := by
  have keeps (v : Int) (start stop : Int) (a : CheckedArray Int) (i : Int) (b : CheckedArray Int)
      (_ : start ≤ i) (_ : i < stop) (sized : a.size = 16) (run : a.set i v = .ok b) :
      b.size = 16 := by
    unfold CheckedArray.set at run
    split at run
    · cases run
      exact sized
    · cases run
  have full (v : Int) (a : CheckedArray Int) (sized : a.size = 16) :
      ∃ e, a.set 16 v = .error e :=
    ⟨_, CheckedArray.set_outside (Or.inr (by omega)) v⟩
  unfold setBinCW
  by_cases minLe : r.sliceReshapeInfo.reshaperModelMinBinIdx ≤ 16
  · have maxGe : 16 ≤ r.sliceReshapeInfo.reshaperModelMaxBinIdx := by
      by_contra less
      exact outside ⟨minLe, by omega⟩
    refine fails_bind _ fun a => fails_bind _ fun b => ?_
    refine @forRange_error _ _ _ _ _ (fun _ => True) (fun _ _ _ _ _ _ _ => trivial) 16 (by omega)
      (by omega) (fun c _ => ?_) b trivial
    exact ⟨_, rfl⟩
  · obtain ⟨e, failed⟩ := @forRange_error _ _ (fun (a : CheckedArray Int) i => a.set i 0) 0
      r.sliceReshapeInfo.reshaperModelMinBinIdx (fun a => a.size = 16) (keeps 0 _ _) 16 (by decide)
      (by omega) (full 0) r.binCW size
    exact ⟨e, by simp only [failed, bind, Except.bind]⟩

end SetBinCW

/-! ## The pivots and the scales -/

theorem lutSize_div {bitDepth : Nat} (low : 4 ≤ bitDepth) :
    2 ^ bitDepth / PIC_CODE_CW_BINS = 2 ^ (bitDepth - 4) := by
  change 2 ^ bitDepth / 2 ^ 4 = 2 ^ (bitDepth - 4)
  exact Nat.pow_div low (by decide)

/-- `m_fwdScaleCoef` of a bin with so many code words. -/
def fwdScale (r : Reshape) (binCW : Int) : Int :=
  (binCW * 2 ^ FP_PREC + 2 ^ (r.lumaBD - 5)) >>> (r.lumaBD - 4)

/-- `m_invScaleCoef` of a bin with so many code words. -/
def invScale (initCW binCW : Int) : Int :=
  if binCW = 0 then 0 else (initCW * 2 ^ FP_PREC).tdiv binCW

/-- `m_chromaAdjHelpLUT` of a bin with so many code words. -/
def chromaScale (initCW binCW chrResScalingOffset : Int) : Int :=
  if binCW = 0 then 2 ^ CSCALE_FP_PREC
  else (initCW * 2 ^ FP_PREC).tdiv (binCW + chrResScalingOffset)

/-- The divisor of the chroma scale of a bin. -/
def Divides (binCW chrResScalingOffset : Int) : Prop :=
  binCW ≠ 0 → binCW + chrResScalingOffset ≠ 0

instance (binCW chrResScalingOffset : Int) : Decidable (Divides binCW chrResScalingOffset) :=
  inferInstanceAs (Decidable (_ → _))

/-- The reshaper behind the round of a bin. -/
def withBin (r : Reshape) (i : Nat) : Reshape :=
  let binCW := r.binCW.entry i
  { r with
    reshapePivot := r.reshapePivot.put (i + 1) (toPel (r.reshapePivot.entry i + binCW))
    inputPivot := r.inputPivot.put (i + 1) (toPel (r.inputPivot.entry i + r.initCW))
    fwdScaleCoef := r.fwdScaleCoef.put i (r.fwdScale binCW)
    invScaleCoef := r.invScaleCoef.put i (invScale r.initCW binCW)
    chromaAdjHelpLUT := r.chromaAdjHelpLUT.put i
      (chromaScale r.initCW binCW r.sliceReshapeInfo.chrResScalingOffset) }

section SetBin

variable {r : Reshape} (sized : r.Sized)
include sized

theorem Sized.withBin (i : Nat) : (r.withBin i).Sized where
  depth := sized.depth
  lutSize := sized.lutSize
  initCW := sized.initCW
  tables := sized.tables
  binCW := sized.binCW
  reshapePivot := sized.reshapePivot
  inputPivot := sized.inputPivot
  fwdScaleCoef := sized.fwdScaleCoef
  invScaleCoef := sized.invScaleCoef
  chromaAdjHelpLUT := sized.chromaAdjHelpLUT
  firstPivot := (put_of_ne (Nat.succ_ne_zero i).symm _).trans sized.firstPivot
  firstInput := (put_of_ne (Nat.succ_ne_zero i).symm _).trans sized.firstInput

theorem Sized.log2BinLen : floorLog2 (r.reshapeLUTSize / PIC_CODE_CW_BINS) = (r.lumaBD - 4 : Nat) := by
  obtain ⟨low, -⟩ := sized.depth
  rw [sized.lutSize, lutSize_div (by omega), floorLog2, if_neg (Nat.two_pow_pos _).ne', Nat.log2_two_pow]

/-- The round of a bin fails exactly at a divisor that is zero. -/
theorem setBin_eq {i : Nat} (inside : i < 16) :
    r.setBin i = if Divides (r.binCW.entry i) r.sliceReshapeInfo.chrResScalingOffset then
      .ok (r.withBin i) else .error "division by zero" := by
  obtain ⟨low, -⟩ := sized.depth
  have next : (i : Int) + 1 = (i + 1 : Nat) := (Int.natCast_add i 1).symm
  have count := get_of_lt (show i < r.binCW.size by rw [sized.binCW]; exact inside)
  have pivot := get_of_lt (show i < r.reshapePivot.size by rw [sized.reshapePivot]; omega)
  have input := get_of_lt (show i < r.inputPivot.size by rw [sized.inputPivot]; omega)
  have putPivot := set_of_lt
    (show i + 1 < r.reshapePivot.size by rw [sized.reshapePivot]; omega)
  have putInput := set_of_lt
    (show i + 1 < r.inputPivot.size by rw [sized.inputPivot]; omega)
  have putFwd := set_of_lt
    (show i < r.fwdScaleCoef.size by rw [sized.fwdScaleCoef]; exact inside)
  have putInv := set_of_lt
    (show i < r.invScaleCoef.size by rw [sized.invScaleCoef]; exact inside)
  have putChroma := set_of_lt
    (show i < r.chromaAdjHelpLUT.size by rw [sized.chromaAdjHelpLUT]; exact inside)
  have half : oneShiftLeft (((r.lumaBD - 4 : Nat) : Int) - 1) = .ok (2 ^ (r.lumaBD - 5)) := by
    have amount : (((r.lumaBD - 4 : Nat) : Int) - 1).toNat = r.lumaBD - 5 := by omega
    rw [oneShiftLeft, if_pos (by omega), amount]
  have shift (a : Int) : shiftRight a (r.lumaBD - 4 : Nat) = .ok (a >>> (r.lumaBD - 4)) :=
    if_pos (Int.natCast_nonneg _)
  unfold setBin
  simp only [sized.log2BinLen, next, half, shift, count, pivot, input, putPivot, putInput, putFwd,
    bind, Except.bind]
  unfold setScales withBin
  simp only [count, putInv, putChroma, bind, Except.bind]
  by_cases zero : r.binCW.entry i = 0
  · have divides : Divides (r.binCW.entry i) r.sliceReshapeInfo.chrResScalingOffset :=
      fun some => absurd zero some
    rw [if_pos zero, if_pos divides, invScale, if_pos zero, chromaScale, if_pos zero]
    rfl
  · rw [if_neg zero]
    unfold divide
    rw [if_neg zero]
    by_cases sum : r.binCW.entry i + r.sliceReshapeInfo.chrResScalingOffset = 0
    · rw [if_pos sum, if_neg fun divides => divides zero sum]
    · have divides : Divides (r.binCW.entry i) r.sliceReshapeInfo.chrResScalingOffset := fun _ => sum
      rw [if_neg sum, if_pos divides, invScale, if_neg zero, chromaScale, if_neg zero]
      rfl

end SetBin

/-- What the loop over the bins leaves as it is. -/
structure SameModel (r r' : Reshape) : Prop where
  info : r'.sliceReshapeInfo = r.sliceReshapeInfo
  binCW : r'.binCW = r.binCW
  initCW : r'.initCW = r.initCW
  lumaBD : r'.lumaBD = r.lumaBD
  tableSize : r'.fwdLUT.size = r.fwdLUT.size

/-- The pivots of bins with so many code words. -/
@[grind =] def pivots (count : Nat → Int) : Nat → Int
  | 0 => 0
  | i + 1 => toPel (pivots count i + count i)

/-- The entries of `count` bins. -/
structure BinTables (r : Reshape) (count : Nat) : Prop where
  reshapePivot : ∀ i ≤ count, r.reshapePivot.entry i = pivots r.binCW.entry i
  inputPivot : ∀ i ≤ count, r.inputPivot.entry i = pivots (fun _ => r.initCW) i
  fwdScaleCoef : ∀ i < count, r.fwdScaleCoef.entry i = r.fwdScale (r.binCW.entry i)
  invScaleCoef : ∀ i < count, r.invScaleCoef.entry i = invScale r.initCW (r.binCW.entry i)
  chromaAdjHelpLUT : ∀ i < count, r.chromaAdjHelpLUT.entry i =
    chromaScale r.initCW (r.binCW.entry i) r.sliceReshapeInfo.chrResScalingOffset

theorem BinTables.withBin {r : Reshape} {i : Nat} (tables : r.BinTables i) :
    (r.withBin i).BinTables (i + 1) := by
  have entry (table : CheckedArray Int) (expected : Nat → Int)
      (entries : ∀ k < i, table.entry k = expected k) :
      ∀ k < i + 1, (table.put i (expected i)).entry k = expected k := fun k less => by
    by_cases here : k = i
    · rw [here, put_self]
    · rw [put_of_ne here, entries k (by omega)]
  have pivot (table : CheckedArray Int) (steps : Nat → Int)
      (entries : ∀ k ≤ i, table.entry k = pivots steps k) :
      ∀ k ≤ i + 1, (table.put (i + 1) (toPel (table.entry i + steps i))).entry k =
        pivots steps k := fun k le => by
    by_cases here : k = i + 1
    · rw [here, put_self, entries i le_rfl]
      rfl
    · rw [put_of_ne here, entries k (by omega)]
  exact
    { reshapePivot := pivot r.reshapePivot r.binCW.entry tables.reshapePivot
      inputPivot := pivot r.inputPivot (fun _ => r.initCW) tables.inputPivot
      fwdScaleCoef := entry r.fwdScaleCoef (fun k => r.fwdScale (r.binCW.entry k))
        tables.fwdScaleCoef
      invScaleCoef := entry r.invScaleCoef (fun k => invScale r.initCW (r.binCW.entry k))
        tables.invScaleCoef
      chromaAdjHelpLUT := entry r.chromaAdjHelpLUT
        (fun k => chromaScale r.initCW (r.binCW.entry k) r.sliceReshapeInfo.chrResScalingOffset)
        tables.chromaAdjHelpLUT }

section Bins

variable {r : Reshape} (sized : r.Sized)
include sized

theorem setBins_ok (divides : ∀ i < 16,
      Divides (r.binCW.entry i) r.sliceReshapeInfo.chrResScalingOffset) :
    ∃ r', forRange 0 PIC_CODE_CW_BINS setBin r = .ok r' ∧ r'.Sized ∧ SameModel r r' ∧
      r'.BinTables 16 := by
  have loop := @forRange_ok _ _ setBin 0 16
    (fun i r' => r'.Sized ∧ SameModel r r' ∧ r'.BinTables i)
    (by
      rintro i r' less ⟨sized', same, tables⟩
      refine ⟨r'.withBin i, ?_, sized'.withBin i,
        ⟨same.info, same.binCW, same.initCW, same.lumaBD, same.tableSize⟩, tables.withBin⟩
      rw [zero_add, setBin_eq sized' less, if_pos]
      rw [same.binCW, same.info]
      exact divides i less)
    r ⟨sized, ⟨rfl, rfl, rfl, rfl, rfl⟩,
      { reshapePivot := fun i le => by
          rw [Nat.le_zero.mp le]
          exact sized.firstPivot
        inputPivot := fun i le => by
          rw [Nat.le_zero.mp le]
          exact sized.firstInput
        fwdScaleCoef := fun i less => absurd less (Nat.not_lt_zero i)
        invScaleCoef := fun i less => absurd less (Nat.not_lt_zero i)
        chromaAdjHelpLUT := fun i less => absurd less (Nat.not_lt_zero i) }⟩
  exact loop

theorem setBins_error {bad : Nat} (inside : bad < 16)
    (zero : ¬ Divides (r.binCW.entry bad) r.sliceReshapeInfo.chrResScalingOffset) :
    ∃ e, forRange 0 PIC_CODE_CW_BINS setBin r = .error e := by
  refine @forRange_error _ _ setBin 0 PIC_CODE_CW_BINS
    (fun r' => r'.Sized ∧ r'.binCW = r.binCW ∧ r'.sliceReshapeInfo = r.sliceReshapeInfo)
    ?_ bad (Int.natCast_nonneg bad) (Int.ofNat_lt.mpr inside) ?_ r ⟨sized, rfl, rfl⟩
  · rintro r' i r₂ low high ⟨sized', binCW, info⟩ run
    obtain ⟨k, rfl⟩ := Int.eq_ofNat_of_zero_le low
    rw [setBin_eq sized' (Int.ofNat_lt.mp high)] at run
    split at run
    · cases run
      exact ⟨sized'.withBin k, binCW, info⟩
    · cases run
  · rintro r' ⟨sized', binCW, info⟩
    refine ⟨"division by zero", ?_⟩
    rw [setBin_eq sized' inside, if_neg]
    rw [binCW, info]
    exact zero

end Bins

/-! ## The tables -/

/-- `getPWLIdxInv`. -/
def pwlIdxInv (r : Reshape) (lumaVal : Int) : Nat :=
  let info := r.sliceReshapeInfo
  min (pieceOf r.reshapePivot.entry lumaVal
    (info.reshaperModelMaxBinIdx + 1 - info.reshaperModelMinBinIdx) info.reshaperModelMinBinIdx) 15

theorem searchPivot_eq (r : Reshape) (lumaVal : Int) {count first : Nat}
    (fits : 0 < count → first + count < r.reshapePivot.size) :
    r.searchPivot lumaVal count first = .ok (pieceOf r.reshapePivot.entry lumaVal count first) := by
  induction count generalizing first with
  | zero => rfl
  | succ count ih =>
      have room := fits (Nat.succ_pos count)
      have next : (first : Int) + 1 = (first + 1 : Nat) := (Int.natCast_add first 1).symm
      rw [searchPivot, pieceOf, next, get_of_lt (by omega), ih fun _ => by omega]
      simp only [bind, Except.bind]
      split <;> rfl

section Tables

variable {r : Reshape} (sized : r.Sized) (range : BinRange r.sliceReshapeInfo)
include sized range

theorem getPWLIdxInv_eq (lumaVal : Int) : r.getPWLIdxInv lumaVal = .ok (r.pwlIdxInv lumaVal : Int) := by
  obtain ⟨minLe, maxLt⟩ := range
  have start : uintToInt r.sliceReshapeInfo.reshaperModelMinBinIdx =
      (r.sliceReshapeInfo.reshaperModelMinBinIdx : Int) :=
    Int.bmod_eq_of_le (by omega) (by omega)
  have pivot := sized.reshapePivot
  unfold getPWLIdxInv pwlIdxInv
  dsimp only
  rw [start, searchPivot_eq r lumaVal fun _ => by omega]
  simp only [bind, Except.bind, pure, Except.pure, Nat.cast_min]
  rfl

end Tables

/-- The bin of a sample of the input. -/
def inputBin (r : Reshape) (lumaSample : Nat) : Nat := lumaSample / 2 ^ (r.lumaBD - 4)

/-- An entry of `m_fwdLUT`. -/
def fwdValue (r : Reshape) (lumaSample : Nat) : Int :=
  let idxY := r.inputBin lumaSample
  r.clipPel (pieceValue (r.reshapePivot.entry idxY) (r.fwdScaleCoef.entry idxY)
    (lumaSample - r.inputPivot.entry idxY))

/-- An entry of `m_invLUT`. -/
def invValue (r : Reshape) (lumaSample : Nat) : Int :=
  let idxYInv := r.pwlIdxInv lumaSample
  r.clipPel (pieceValue (r.inputPivot.entry idxYInv) (r.invScaleCoef.entry idxYInv)
    (lumaSample - r.reshapePivot.entry idxYInv))

/-- The reshaper behind the round of a sample. -/
def withSample (r : Reshape) (lumaSample : Nat) : Reshape :=
  { r with
    fwdLUT := r.fwdLUT.put lumaSample (r.fwdValue lumaSample)
    invLUT := r.invLUT.put lumaSample (r.invValue lumaSample) }

section Samples

variable {r : Reshape} (sized : r.Sized)

include sized in
theorem Sized.inputBin_lt {lumaSample : Nat} (inside : lumaSample < r.reshapeLUTSize) :
    r.inputBin lumaSample < 16 := by
  obtain ⟨low, -⟩ := sized.depth
  have size : 2 ^ r.lumaBD = 2 ^ (r.lumaBD - 4) * 2 ^ 4 := by
    rw [← pow_add, Nat.sub_add_cancel (by omega)]
  rw [sized.lutSize, size] at inside
  exact Nat.div_lt_of_lt_mul inside

variable (range : BinRange r.sliceReshapeInfo)
include sized range

/-- The round of a sample fails exactly at the end of the tables. -/
theorem setSample_eq {lumaSample : Nat} (inside : lumaSample < r.reshapeLUTSize) :
    r.setSample lumaSample = if lumaSample < r.fwdLUT.size then .ok (r.withSample lumaSample)
      else .error "index out of range" := by
  have bin := sized.inputBin_lt inside
  have binInv : r.pwlIdxInv lumaSample < 16 := Nat.lt_succ_of_le (Nat.min_le_right _ _)
  have quotient : divide lumaSample r.initCW = .ok (r.inputBin lumaSample : Int) := by
    have some : (2 : Int) ^ (r.lumaBD - 4) ≠ 0 := by positivity
    have power : (2 : Int) ^ (r.lumaBD - 4) = (2 ^ (r.lumaBD - 4) : Nat) := by push_cast; rfl
    rw [divide, sized.initCW, if_neg some, power, Int.tdiv_eq_ediv_of_nonneg (Int.natCast_nonneg _)]
    rfl
  have pivot {i : Nat} (less : i < 16) := get_of_lt
    (show i < r.reshapePivot.size by rw [sized.reshapePivot]; omega)
  have input {i : Nat} (less : i < 16) := get_of_lt
    (show i < r.inputPivot.size by rw [sized.inputPivot]; omega)
  have fwd := get_of_lt
    (show r.inputBin lumaSample < r.fwdScaleCoef.size by rw [sized.fwdScaleCoef]; exact bin)
  have inv := get_of_lt
    (show r.pwlIdxInv lumaSample < r.invScaleCoef.size by rw [sized.invScaleCoef]; exact binInv)
  unfold setSample
  simp only [quotient, pivot bin, input bin, fwd, bind, Except.bind]
  by_cases fits : lumaSample < r.fwdLUT.size
  · have fits' : lumaSample < r.invLUT.size := by rw [sized.tables]; exact fits
    rw [set_of_lt fits, if_pos fits, getPWLIdxInv_eq sized range]
    simp only [pivot binInv, input binInv, inv, set_of_lt fits']
    rfl
  · rw [CheckedArray.set_outside (Or.inr (by omega)), if_neg fits]

end Samples

/-- Nothing but the entries of the tables changed. -/
structure OnlyTables (r r' : Reshape) : Prop where
  rest : r' = { r with fwdLUT := r'.fwdLUT, invLUT := r'.invLUT }
  fwdSize : r'.fwdLUT.size = r.fwdLUT.size
  invSize : r'.invLUT.size = r.invLUT.size

namespace OnlyTables

variable {r r' : Reshape} (only : OnlyTables r r')
include only

theorem withSample (v : Nat) : OnlyTables r (r'.withSample v) := by
  have rest := only.rest
  refine ⟨?_, only.fwdSize, only.invSize⟩
  unfold Reshape.withSample
  rw [rest]

theorem sized (sized : r.Sized) : r'.Sized := by
  rw [only.rest]
  exact
    { depth := sized.depth
      lutSize := sized.lutSize
      initCW := sized.initCW
      tables := by rw [only.invSize, only.fwdSize, sized.tables]
      binCW := sized.binCW
      reshapePivot := sized.reshapePivot
      inputPivot := sized.inputPivot
      fwdScaleCoef := sized.fwdScaleCoef
      invScaleCoef := sized.invScaleCoef
      chromaAdjHelpLUT := sized.chromaAdjHelpLUT
      firstPivot := sized.firstPivot
      firstInput := sized.firstInput }

theorem range (range : BinRange r.sliceReshapeInfo) : BinRange r'.sliceReshapeInfo := by
  rw [only.rest]
  exact range

theorem lutSize : r'.reshapeLUTSize = r.reshapeLUTSize := by rw [only.rest]

/-- The values do not depend on the tables. -/
theorem values : r'.fwdValue = r.fwdValue ∧ r'.invValue = r.invValue := by
  rw [only.rest]
  exact ⟨rfl, rfl⟩

end OnlyTables

/-- The tables filled for `count` samples. -/
structure Filled (r r' : Reshape) (count : Nat) : Prop extends OnlyTables r r' where
  fwd : ∀ v < count, r'.fwdLUT.entry v = r.fwdValue v
  inv : ∀ v < count, r'.invLUT.entry v = r.invValue v

theorem Filled.withSample {r r' : Reshape} {v : Nat} (filled : Filled r r' v) :
    Filled r (r'.withSample v) (v + 1) := by
  obtain ⟨fwdValue, invValue⟩ := filled.values
  have entry {table : CheckedArray Int} {expected : Nat → Int}
      (entries : ∀ k < v, table.entry k = expected k) :
      ∀ k < v + 1, (table.put v (expected v)).entry k = expected k := fun k less => by
    by_cases here : k = v
    · rw [here, put_self]
    · rw [put_of_ne here, entries k (by omega)]
  refine ⟨filled.toOnlyTables.withSample v, ?_, ?_⟩
  · unfold Reshape.withSample
    rw [fwdValue]
    exact entry filled.fwd
  · unfold Reshape.withSample
    rw [invValue]
    exact entry filled.inv

section Loop

variable {r : Reshape} (sized : r.Sized) (range : BinRange r.sliceReshapeInfo)
include sized range

theorem setSamples_ok (fits : r.reshapeLUTSize ≤ r.fwdLUT.size) :
    ∃ r', forRange 0 r.reshapeLUTSize setSample r = .ok r' ∧ Filled r r' r.reshapeLUTSize := by
  have loop := @forRange_ok _ _ setSample 0 r.reshapeLUTSize (fun v r' => Filled r r' v)
    (by
      intro v r' less filled
      refine ⟨r'.withSample v, ?_, filled.withSample⟩
      rw [zero_add, setSample_eq (filled.sized sized) (filled.range range)
        (by rw [filled.lutSize]; exact less), if_pos]
      rw [filled.fwdSize]
      omega)
    r ⟨⟨rfl, rfl, rfl⟩, fun v less => absurd less (Nat.not_lt_zero v),
      fun v less => absurd less (Nat.not_lt_zero v)⟩
  rw [zero_add] at loop
  exact loop

theorem setSamples_error (short : r.fwdLUT.size < r.reshapeLUTSize) :
    ∃ e, forRange 0 r.reshapeLUTSize setSample r = .error e := by
  refine @forRange_error _ _ setSample 0 r.reshapeLUTSize (OnlyTables r) ?_ r.fwdLUT.size
    (Int.natCast_nonneg _) (Int.ofNat_lt.mpr short) ?_ r ⟨rfl, rfl, rfl⟩
  · intro r' i r₂ low high only run
    obtain ⟨v, rfl⟩ := Int.eq_ofNat_of_zero_le low
    rw [setSample_eq (only.sized sized) (only.range range)
      (by rw [only.lutSize]; exact Int.ofNat_lt.mp high)] at run
    split at run
    · cases run
      exact only.withSample v
    · cases run
  · intro r' only
    refine ⟨"index out of range", ?_⟩
    rw [setSample_eq (only.sized sized) (only.range range) (by rw [only.lutSize]; exact short),
      if_neg]
    rw [only.fwdSize]
    exact Nat.lt_irrefl _

end Loop

/-! ## The construction as a whole -/

/-- What `constructReshaper` makes of a reshaper. -/
structure Constructed (r r' : Reshape) : Prop where
  sized : r'.Sized
  info : r'.sliceReshapeInfo = r.sliceReshapeInfo
  initCW : r'.initCW = r.initCW
  lumaBD : r'.lumaBD = r.lumaBD
  tableSize : r'.fwdLUT.size = r.fwdLUT.size
  binCW : ∀ i < 16, r'.binCW.entry i = binCount r.sliceReshapeInfo r.initCW i
  bins : r'.BinTables 16
  fwd : ∀ v < r'.reshapeLUTSize, r'.fwdLUT.entry v = r'.fwdValue v
  inv : ∀ v < r'.reshapeLUTSize, r'.invLUT.entry v = r'.invValue v

/-- A mapping model that a reshaper can be built for: the bins are in range, the tables have been
created for the bit depth or a larger one, and no divisor is zero. -/
structure Constructible (r : Reshape) (info : SliceReshapeInfo) : Prop extends BinRange info where
  tables : 2 ^ r.lumaBD ≤ r.fwdLUT.size
  divides : ∀ i, info.reshaperModelMinBinIdx ≤ i → i ≤ info.reshaperModelMaxBinIdx →
    Divides (binCount info r.initCW i) info.chrResScalingOffset

section Construct

variable {r : Reshape} (sized : r.Sized)
include sized

theorem Sized.withCounts {binCW : CheckedArray Int} (size : binCW.size = 16) :
    Sized { r with binCW := binCW } where
  depth := sized.depth
  lutSize := sized.lutSize
  initCW := sized.initCW
  tables := sized.tables
  binCW := size
  reshapePivot := sized.reshapePivot
  inputPivot := sized.inputPivot
  fwdScaleCoef := sized.fwdScaleCoef
  invScaleCoef := sized.invScaleCoef
  chromaAdjHelpLUT := sized.chromaAdjHelpLUT
  firstPivot := sized.firstPivot
  firstInput := sized.firstInput

theorem constructReshaper_ok (constructible : Constructible r r.sliceReshapeInfo) :
    ∃ r', r.constructReshaper = .ok r' ∧ Constructed r r' := by
  obtain ⟨binCW, counts, size, entries⟩ := setBinCW_ok sized.binCW constructible.toBinRange
  have sized₁ := sized.withCounts size
  obtain ⟨r₂, bins, sized₂, same, tables⟩ := setBins_ok sized₁ fun i inside => by
    change Divides (binCW.entry i) _
    rw [entries i inside]
    by_cases within : r.sliceReshapeInfo.reshaperModelMinBinIdx ≤ i ∧
        i ≤ r.sliceReshapeInfo.reshaperModelMaxBinIdx
    · exact constructible.divides i within.1 within.2
    · exact fun some => absurd (if_neg within) some
  obtain ⟨r₃, samples, filled⟩ := setSamples_ok sized₂ (by rw [same.info]; exact constructible.toBinRange)
    (by
      rw [sized₂.lutSize, same.lumaBD, same.tableSize]
      exact constructible.tables)
  obtain ⟨fwdValue, invValue⟩ := filled.values
  have rest := filled.rest
  refine ⟨r₃, ?_, ?_⟩
  · exact bind_eq_ok_iff.mpr ⟨binCW, counts, bind_eq_ok_iff.mpr ⟨r₂, bins, samples⟩⟩
  · exact
      { sized := filled.sized sized₂
        info := by rw [rest]; exact same.info
        initCW := by rw [rest]; exact same.initCW
        lumaBD := by rw [rest]; exact same.lumaBD
        tableSize := by rw [filled.fwdSize]; exact same.tableSize
        binCW := fun i inside => by
          have counted : r₃.binCW = binCW := by
            rw [rest]
            exact same.binCW
          rw [counted]
          exact entries i inside
        bins := by
          rw [rest]
          exact ⟨tables.reshapePivot, tables.inputPivot, tables.fwdScaleCoef, tables.invScaleCoef,
            tables.chromaAdjHelpLUT⟩
        fwd := by
          rw [fwdValue, filled.lutSize]
          exact filled.fwd
        inv := by
          rw [invValue, filled.lutSize]
          exact filled.inv }

theorem constructReshaper_error (not : ¬ Constructible r r.sliceReshapeInfo) :
    ∃ e, r.constructReshaper = .error e := by
  by_cases range : BinRange r.sliceReshapeInfo
  · obtain ⟨binCW, counts, size, entries⟩ := setBinCW_ok sized.binCW range
    have sized₁ := sized.withCounts size
    have first (next : CheckedArray Int → Checked Reshape) (fails : ∃ e, next binCW = .error e) :
        ∃ e, (r.setBinCW >>= next) = .error e := by
      rw [counts]
      exact fails
    refine first _ ?_
    by_cases divides : ∀ i < 16, Divides (binCW.entry i) r.sliceReshapeInfo.chrResScalingOffset
    · obtain ⟨r₂, bins, sized₂, same, -⟩ := setBins_ok sized₁ divides
      have short : r₂.fwdLUT.size < r₂.reshapeLUTSize := by
        by_contra fits
        rw [sized₂.lutSize, same.lumaBD, same.tableSize] at fits
        refine not ⟨range, not_lt.mp fits, fun i low high => ?_⟩
        have inside := Nat.lt_of_le_of_lt high range.max_lt
        rw [← entries i inside]
        exact divides i inside
      obtain ⟨e, failed⟩ := setSamples_error sized₂ (by rw [same.info]; exact range) short
      exact ⟨e, by rw [bins]; exact failed⟩
    · push Not at divides
      obtain ⟨bad, inside, zero⟩ := divides
      obtain ⟨e, failed⟩ := setBins_error sized₁ inside zero
      exact ⟨e, by rw [failed]; rfl⟩
  · obtain ⟨e, failed⟩ := setBinCW_error sized.binCW range
    exact ⟨e, by rw [constructReshaper, failed]; rfl⟩

theorem constructReshaper_ok_iff :
    (∃ r', r.constructReshaper = .ok r') ↔ Constructible r r.sliceReshapeInfo := by
  constructor
  · rintro ⟨r', run⟩
    by_contra not
    obtain ⟨e, failed⟩ := constructReshaper_error sized not
    rw [failed] at run
    cases run
  · intro constructible
    obtain ⟨r', run, -⟩ := constructReshaper_ok sized constructible
    exact ⟨r', run⟩

end Construct

/-! ## The states of a decoder -/

theorem createDec_initCW (r : Reshape) {bitDepth : Nat} (depth : 8 ≤ bitDepth ∧ bitDepth ≤ 16) :
    (r.createDec bitDepth).initCW = 2 ^ (bitDepth - 4) := by
  obtain ⟨low, high⟩ := depth
  have small : 2 ^ (bitDepth - 4) < 2 ^ 16 := Nat.pow_lt_pow_right (by decide) (by omega)
  unfold createDec toUInt16
  dsimp only
  rw [lutSize_div (by omega)]
  rw [Int.emod_eq_of_lt (Int.natCast_nonneg _) (by exact_mod_cast small)]
  push_cast
  rfl

theorem Sized.setInfo {r : Reshape} (sized : r.Sized) (info : SliceReshapeInfo) :
    (r.setInfo info).Sized :=
  ⟨sized.depth, sized.lutSize, sized.initCW, sized.tables, sized.binCW, sized.reshapePivot,
    sized.inputPivot, sized.fwdScaleCoef, sized.invScaleCoef, sized.chromaAdjHelpLUT,
    sized.firstPivot, sized.firstInput⟩

/-- The arrays of a decoder's reshaper have their sizes. -/
theorem Reachable.sized {r : Reshape} (reachable : Reachable r) : r.Sized := by
  induction reachable with
  | created info depth =>
      exact
        { depth := depth
          lutSize := rfl
          initCW := createDec_initCW _ depth
          tables := rfl
          binCW := rfl
          reshapePivot := rfl
          inputPivot := rfl
          fwdScaleCoef := rfl
          invScaleCoef := rfl
          chromaAdjHelpLUT := rfl
          firstPivot := rfl
          firstInput := rfl }
  | @createDec r _ bitDepth depth sized =>
      have kept {table : CheckedArray Int} {size : Nat} (known : table.size = size + 1) (size' : Nat)
          (v : Int) : table.resizeEmpty size' v = table := by
        unfold CheckedArray.resizeEmpty
        rw [if_neg (by omega)]
      exact
        { depth := depth
          lutSize := rfl
          initCW := createDec_initCW r depth
          tables := by
            have tables := sized.tables
            unfold Reshape.createDec CheckedArray.resizeEmpty
            dsimp only
            rw [tables]
            split
            · rfl
            · exact tables
          binCW := resizeEmpty_size (Or.inr sized.binCW) _
          reshapePivot := resizeEmpty_size (Or.inr sized.reshapePivot) _
          inputPivot := resizeEmpty_size (Or.inr sized.inputPivot) _
          fwdScaleCoef := resizeEmpty_size (Or.inr sized.fwdScaleCoef) _
          invScaleCoef := resizeEmpty_size (Or.inr sized.invScaleCoef) _
          chromaAdjHelpLUT := resizeEmpty_size (Or.inr sized.chromaAdjHelpLUT) _
          firstPivot := by
            unfold Reshape.createDec
            dsimp only
            rw [kept sized.reshapePivot]
            exact sized.firstPivot
          firstInput := by
            unfold Reshape.createDec
            dsimp only
            rw [kept sized.inputPivot]
            exact sized.firstInput }
  | @constructReshaper r r' _ info run sized =>
      obtain ⟨r₂, run₂, built⟩ := constructReshaper_ok (sized.setInfo info)
        ((constructReshaper_ok_iff (sized.setInfo info)).mp ⟨r', run⟩)
      rw [run] at run₂
      cases run₂
      exact built.sized

end Vtm.Reshape
