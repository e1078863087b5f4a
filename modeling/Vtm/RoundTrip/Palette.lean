import Vtm.Encoder.Palette
import Vtm.Decoder.Palette
import Vtm.RoundTrip.Symbols

/-!
# Palette coding units: round trip

`ValidPalette` says when the palette members and the index map of a coding unit
are what the encoder builds and asserts, and `SamePalette` when the reader has
rebuilt them. What `cu_palette_info` writes for a valid unit is read back exactly
when the chroma quantizer offset is not lost between the two sides.
-/

namespace Vtm.RoundTrip.Palette

open Vtm.Std Vtm.Bin
open Function (update update_self update_of_ne)

/-- The components that the palette covers. -/
def Covers (p : PLTParams) (comp : Nat) : Prop :=
  p.compBegin ≤ comp ∧ comp < p.compBegin + p.numComp

/-- A component has an escape value at its sample `x`, `y`. -/
@[grind =] def HasEscape (p : PLTParams) (cu : CodingUnit) (tu : TransformUnit) (comp x y : Nat) : Prop :=
  if comp = 0 ∨ p.compBegin ≠ 0 then
    x < p.width ∧ y < p.height ∧ tu.curPLTIdx x y = cu.curPLTSize
  else
    x <<< p.scaleX < p.width ∧ y <<< p.scaleY < p.height ∧
      tu.curPLTIdx (x <<< p.scaleX) (y <<< p.scaleY) = cu.curPLTSize

/-- The palette members are consistent with the predictor. -/
structure ValidEntries (p : PLTParams) (cu : CodingUnit) : Prop where
  depth : ∀ channel, p.bitDepth channel ≤ 16
  last : cu.lastPLTSize = p.prevPLTSize
  lastLe : cu.lastPLTSize ≤ MAXPLTPREDSIZE
  reusedLe : CABACWriter.reusedBelow cu cu.lastPLTSize ≤ MAXPLTSIZE
  reusedSize : cu.reusePLTSize = CABACWriter.reusedBelow cu cu.lastPLTSize
  sizeGe : cu.reusePLTSize ≤ cu.curPLTSize
  sizeLe : cu.curPLTSize ≤ MAXPLTSIZE
  reused : ∀ idx < cu.lastPLTSize, cu.reuseflag idx = true → ∀ comp, Covers p comp →
    cu.curPLT comp (CABACWriter.reusedBelow cu idx) = p.prevPLT comp idx
  fits : ∀ comp, Covers p comp → ∀ idx, cu.reusePLTSize ≤ idx → idx < cu.curPLTSize →
    cu.curPLT comp idx < 2 ^ p.compBitDepth comp

/-- The index map is one that the encoder asserts: the first line has no copied
run, a copied index is its source's, and an index behind a copied run is not. -/
structure ValidMap (p : PLTParams) (cu : CodingUnit) (tu : TransformUnit) : Prop where
  width : 0 < p.width
  height : 0 < p.height
  rotation : cu.indexMaxSize ≤ 1 → cu.useRotation = false
  index : ∀ x < p.width, ∀ y < p.height, tu.curPLTIdx x y < cu.indexMaxSize
  single : cu.indexMaxSize ≤ 1 → ∀ x < p.width, ∀ y < p.height,
    tu.runType x y = .PLT_RUN_INDEX
  firstLine : ∀ x < p.width, ∀ y < p.height, onFirstLine cu.useRotation ⟨x, y⟩ →
    tu.runType x y = .PLT_RUN_INDEX
  copied : ∀ x < p.width, ∀ y < p.height, tu.runType x y = .PLT_RUN_COPY →
    tu.curPLTIdx x y = tu.curPLTIdx (copySource cu.useRotation ⟨x, y⟩).x
      (copySource cu.useRotation ⟨x, y⟩).y
  starts : ∀ curPos, 0 < curPos → curPos < p.height * p.width →
    tu.runType (p.scan cu.useRotation curPos).x (p.scan cu.useRotation curPos).y =
      .PLT_RUN_INDEX →
    tu.runType (p.scan cu.useRotation (curPos - 1)).x (p.scan cu.useRotation (curPos - 1)).y =
      .PLT_RUN_COPY →
    tu.curPLTIdx (p.scan cu.useRotation curPos).x (p.scan cu.useRotation curPos).y ≠
      tu.curPLTIdx (copySource cu.useRotation (p.scan cu.useRotation curPos)).x
        (copySource cu.useRotation (p.scan cu.useRotation curPos)).y
  escape : ∀ comp, Covers p comp → ∀ x y, HasEscape p cu tu comp x y →
    tu.escapeValue comp x y < 1 <<< (p.compBitDepth comp + 1)

/-- The quantizer members are in range. -/
structure ValidQp (p : PLTParams) (cu : CodingUnit) (cuCtx : CUCtx) : Prop where
  offset : p.qpBDOffset ≤ 48
  low : -(p.qpBDOffset : Int) ≤ cu.qp
  high : cu.qp ≤ MAX_QP
  predLow : -(p.qpBDOffset : Int) ≤ cuCtx.qp
  predHigh : cuCtx.qp ≤ MAX_QP
  chroma : cu.chromaQpAdj ≤ p.chromaQpOffsetListLen
  -- `chromaQpAdj` is an `int8_t`
  chromaByte : cu.chromaQpAdj < 2 ^ 7

section Predictor

variable {cu : CodingUnit}

theorem reusedBelow_succ (idx : Nat) :
    CABACWriter.reusedBelow cu (idx + 1) =
      CABACWriter.reusedBelow cu idx + (cu.reuseflag idx).toNat := by
  unfold CABACWriter.reusedBelow
  rw [List.range_succ, List.filter_append, List.length_append]
  cases flag : cu.reuseflag idx <;> simp [flag]

theorem reusedBelow_mono {low high : Nat} (within : low ≤ high) :
    CABACWriter.reusedBelow cu low ≤ CABACWriter.reusedBelow cu high := by
  induction high, within using Nat.le_induction with
  | base => exact Nat.le_refl _
  | succ high _ ih =>
      rw [reusedBelow_succ]
      omega

theorem reusedBelow_clear {low high : Nat} (within : low ≤ high)
    (clear : ∀ k, low ≤ k → k < high → cu.reuseflag k = false) :
    CABACWriter.reusedBelow cu high = CABACWriter.reusedBelow cu low := by
  induction high, within using Nat.le_induction with
  | base => rfl
  | succ high within ih =>
      rw [reusedBelow_succ, clear high within (by omega),
        ih fun k least most => clear k least (by omega)]
      rfl

/-- `predEnd` lies right behind the last flag that is set. -/
theorem predEnd_spec (cu : CodingUnit) :
    CABACWriter.predEnd cu ≤ cu.lastPLTSize ∧
      (∀ idx, CABACWriter.predEnd cu ≤ idx → idx < cu.lastPLTSize → cu.reuseflag idx = false) ∧
      (0 < CABACWriter.predEnd cu → cu.reuseflag (CABACWriter.predEnd cu - 1) = true) := by
  unfold CABACWriter.predEnd
  induction cu.lastPLTSize with
  | zero => simp
  | succ size ih =>
      obtain ⟨within, clear, last⟩ := ih
      rw [List.range_succ, List.foldl_append, List.foldl_cons, List.foldl_nil]
      cases flag : cu.reuseflag size with
      | true =>
          rw [if_pos rfl]
          exact ⟨Nat.le_refl _, fun idx low high => absurd low (by omega), fun _ => flag⟩
      | false =>
          rw [if_neg (by simp)]
          refine ⟨by omega, fun idx low high => ?_, last⟩
          by_cases here : idx = size
          · rw [here]
            exact flag
          · exact clear idx low (by omega)

/-- The reader's loop with a read in every round. -/
@[grind =] def steadyLoop (lastPLTSize maxPLTSize : Nat) :
    Nat → Nat → Nat → (Nat → Bool) → BinReader (Nat → Bool)
  | 0, _, _, reuseflag => pure reuseflag
  | fuel + 1, idx, numPltPredicted, reuseflag =>
      if idx < lastPLTSize ∧ numPltPredicted < maxPLTSize then do
        let symbol ← CABACReader.expGolombEqprob 0
        if symbol = 1 then return reuseflag
        else
          let idx := if symbol ≠ 0 then idx + (symbol - 1) else idx
          steadyLoop lastPLTSize maxPLTSize fuel (idx + 1) (numPltPredicted + 1)
            (update reuseflag idx true)
      else pure reuseflag

theorem predLoop_steady (lastPLTSize maxPLTSize fuel symbol idx num : Nat)
    (reuseflag : Nat → Bool) (positive : 0 < idx) :
    CABACReader.predLoop lastPLTSize maxPLTSize fuel symbol idx num reuseflag =
      steadyLoop lastPLTSize maxPLTSize fuel idx num reuseflag := by
  induction fuel generalizing symbol idx num reuseflag with
  | zero => rfl
  | succ fuel ih =>
      simp only [CABACReader.predLoop, steadyLoop, CABACReader.nextPredSymbol, if_pos positive,
        ih _ _ _ _ (Nat.succ_pos _)]

/-- The symbol in front of the loop is the one of its first round. -/
theorem xDecodePLTPredIndicator_steady {lastPLTSize maxPLTSize : Nat} (reuseflag : Nat → Bool)
    (some : 0 < lastPLTSize) (room : 0 < maxPLTSize) :
    CABACReader.xDecodePLTPredIndicator lastPLTSize maxPLTSize reuseflag =
      steadyLoop lastPLTSize maxPLTSize lastPLTSize 0 0 reuseflag := by
  obtain ⟨size, rfl⟩ := Nat.exists_eq_succ_of_ne_zero some.ne'
  rw [steadyLoop, if_pos ⟨some, room⟩, CABACReader.xDecodePLTPredIndicator]
  refine congrArg _ (funext fun symbol => ?_)
  by_cases stop : symbol = 1
  · simp [stop]
  · simp only [ne_eq, stop, not_false_eq_true, if_true, if_false]
    rw [CABACReader.predLoop, if_pos ⟨some, room⟩]
    simp only [CABACReader.nextPredSymbol, Nat.lt_irrefl, if_false, pure_bind, stop]
    exact predLoop_steady _ _ _ _ _ _ _ (Nat.succ_pos _)

/-- Between two flags that are set the writer counts a run and the reader waits:
it stands `run` entries behind. -/
theorem reads_predRuns {maxPLTSize : Nat}
    (reusedLe : CABACWriter.reusedBelow cu cu.lastPLTSize ≤ maxPLTSize)
    (lastLe : cu.lastPLTSize ≤ MAXPLTPREDSIZE) (some : 0 < cu.lastPLTSize) (room : 0 < maxPLTSize)
    (left idx run fuel : Nat) (reuseflag : Nat → Bool)
    (rounds : idx + left = CABACWriter.predEnd cu) (behind : run ≤ idx)
    (clear : ∀ k, idx - run ≤ k → k < idx → cu.reuseflag k = false)
    (same : ∀ k < idx, reuseflag k = cu.reuseflag k) (unset : ∀ k, idx ≤ k → reuseflag k = false)
    (enough : cu.lastPLTSize ≤ idx - run + fuel) :
    Reads (do
        let _ ← (List.range' idx left).foldlM (CABACWriter.codePredRun cu) run
        CABACWriter.codePredEnd cu maxPLTSize)
      (steadyLoop cu.lastPLTSize maxPLTSize fuel (idx - run)
        (CABACWriter.reusedBelow cu idx) reuseflag)
      (fun _ flags => ∀ k < cu.lastPLTSize, flags k = cu.reuseflag k) := by
  obtain ⟨endLe, endClear, endSet⟩ := predEnd_spec cu
  induction left generalizing idx run fuel reuseflag with
  | zero =>
      -- all flags are passed; the last one ended its run
      have noRun : run = 0 := by
        by_contra waiting
        have last := endSet (by omega)
        rw [← rounds, Nat.add_zero, clear (idx - 1) (by omega) (by omega)] at last
        cases last
      subst noRun
      have all : ∀ k < cu.lastPLTSize, reuseflag k = cu.reuseflag k := by
        intro k inside
        by_cases passed : k < idx
        · exact same k passed
        · rw [unset k (by omega), endClear k (by omega) inside]
      have total : CABACWriter.reusedBelow cu cu.lastPLTSize = CABACWriter.reusedBelow cu idx :=
        reusedBelow_clear (by omega) fun k low high => endClear k (by omega) high
      rw [Nat.sub_zero] at enough ⊢
      show Reads (CABACWriter.codePredEnd cu maxPLTSize) _ _
      simp only [CABACWriter.codePredEnd, total, ← rounds, Nat.add_zero]
      by_cases more : idx < cu.lastPLTSize ∧ CABACWriter.reusedBelow cu idx < maxPLTSize
      · obtain ⟨fuel, rfl⟩ := Nat.exists_eq_succ_of_ne_zero (by omega : fuel ≠ 0)
        rw [if_pos (Or.inl ⟨more.2, more.1⟩), steadyLoop, if_pos more]
        refine (reads_expGolomb (by decide)).readerAfter ?_
        rintro _ _ rfl
        exact ⟨reuseflag, Accepts.pure reuseflag, all⟩
      · have stop : ¬ ((CABACWriter.reusedBelow cu idx < maxPLTSize ∧ idx < cu.lastPLTSize) ∨
            CABACWriter.reusedBelow cu idx = 0) := by
          rintro (⟨left, right⟩ | none)
          · exact more ⟨right, left⟩
          · refine more ⟨?_, by omega⟩
            by_contra full
            obtain ⟨k, rfl⟩ := Nat.exists_eq_succ_of_ne_zero (by omega : idx ≠ 0)
            have last := endSet (by omega)
            rw [← rounds, Nat.add_zero, Nat.succ_sub_one] at last
            rw [reusedBelow_succ, last] at none
            cases none
        rw [if_neg stop]
        cases fuel with
        | zero => exact Codes.pure all
        | succ fuel =>
            rw [steadyLoop, if_neg more]
            exact Codes.pure all
  | succ left ih =>
      rw [List.range'_succ, List.foldlM_cons]
      cases flag : cu.reuseflag idx with
      | false =>
          have next := ih (idx + 1) (run + 1) fuel reuseflag (by omega) (by omega)
            (fun k low high => ?_) (fun k passed => ?_) (fun k ahead => unset k (by omega)) (by omega)
          · have count : CABACWriter.reusedBelow cu (idx + 1) = CABACWriter.reusedBelow cu idx := by
              rw [reusedBelow_succ, flag]
              rfl
            rw [count, Nat.add_sub_add_right] at next
            simpa only [CABACWriter.codePredRun, flag, Bool.false_eq_true, if_false, pure_bind]
              using next
          · by_cases here : k = idx
            · rw [here, flag]
            · exact clear k (by omega) (by omega)
          · by_cases here : k = idx
            · rw [here, flag, unset idx (Nat.le_refl _)]
            · exact same k (by omega)
      | true =>
          have room' : CABACWriter.reusedBelow cu idx < maxPLTSize := by
            have upto : CABACWriter.reusedBelow cu (idx + 1) ≤
                CABACWriter.reusedBelow cu cu.lastPLTSize := reusedBelow_mono (by omega)
            rw [reusedBelow_succ, flag, Bool.toNat_true] at upto
            omega
          obtain ⟨fuel, rfl⟩ := Nat.exists_eq_succ_of_ne_zero (by omega : fuel ≠ 0)
          rw [steadyLoop, if_pos ⟨by omega, room'⟩]
          simp only [CABACWriter.codePredRun, flag, if_true, bind_assoc, pure_bind]
          have small : (if run ≠ 0 then run + 1 else run) + 2 ^ 0 < 2 ^ 32 := by
            have bound : cu.lastPLTSize ≤ 63 := lastLe
            split <;> omega
          refine Codes.bind (reads_expGolomb small) ?_
          rintro _ _ rfl
          have symbol : (if run ≠ 0 then run + 1 else run) ≠ 1 := by
            split <;> omega
          have target : (if (if run ≠ 0 then run + 1 else run) ≠ 0 then
              idx - run + ((if run ≠ 0 then run + 1 else run) - 1) else idx - run) = idx := by
            by_cases waiting : run = 0
            · simp [waiting]
            · simp only [ne_eq, waiting, not_false_eq_true, if_true, Nat.succ_ne_zero,
                Nat.add_sub_cancel]
              omega
          rw [if_neg symbol]
          simp only [target]
          have next := ih (idx + 1) 0 fuel (update reuseflag idx true) (by omega) (by omega)
            (fun k low high => absurd low (by omega)) (fun k passed => ?_) (fun k ahead => ?_)
            (by omega)
          · rwa [reusedBelow_succ, flag, Nat.sub_zero] at next
          · by_cases here : k = idx
            · rw [here, update_self, flag]
            · rw [update_of_ne here]
              exact same k (by omega)
          · rw [update_of_ne (by omega)]
            exact unset k (by omega)

theorem reads_predIndicator {p : PLTParams} (entries : ValidEntries p cu) {reuseflag : Nat → Bool}
    (unset : ∀ k, reuseflag k = false) :
    Reads (CABACWriter.codePredIndicator cu)
      (CABACReader.parsePredIndicator p.prevPLTSize reuseflag)
      (fun _ flags => ∀ k < cu.lastPLTSize, flags k = cu.reuseflag k) := by
  unfold CABACWriter.codePredIndicator CABACReader.parsePredIndicator
  rw [← entries.last]
  by_cases none : cu.lastPLTSize = 0
  · simp only [none, ne_eq, not_true_eq_false, if_false]
    exact Codes.pure fun k inside => absurd inside (by omega)
  · have room : 0 < MAXPLTSIZE := by decide
    simp only [ne_eq, none, not_false_eq_true, if_true]
    rw [xDecodePLTPredIndicator_steady reuseflag (Nat.pos_of_ne_zero none) room]
    exact reads_predRuns entries.reusedLe entries.lastLe (Nat.pos_of_ne_zero none) room
      (CABACWriter.predEnd cu) 0 0 cu.lastPLTSize reuseflag (Nat.zero_add _) (Nat.le_refl _)
      (fun k low high => absurd high (by omega)) (fun k inside => absurd inside (by omega))
      (fun k _ => unset k) (by omega)

end Predictor

section Entries

variable {p : PLTParams} {cu : CodingUnit}

theorem mem_comps {comp : Nat} : comp ∈ List.range' p.compBegin p.numComp ↔ Covers p comp := by
  rw [List.mem_range'_1]
  rfl

theorem foldl_set (comps : List Nat) (grid : Grid Nat) (idx : Nat) (value : Nat → Nat)
    (comp k : Nat) :
    comps.foldl (fun (grid : Grid Nat) comp => grid.set comp idx (value comp)) grid comp k =
      if comp ∈ comps ∧ k = idx then value comp else grid comp k := by
  induction comps generalizing grid with
  | nil => simp
  | cons first rest ih =>
      rw [List.foldl_cons, ih]
      by_cases later : comp ∈ rest ∧ k = idx
      · rw [if_pos later, if_pos ⟨by simp [later.1], later.2⟩]
      · rw [if_neg later]
        by_cases here : comp = first ∧ k = idx
        · obtain ⟨rfl, rfl⟩ := here
          simp
        · have outside : ¬ (comp ∈ first :: rest ∧ k = idx) := by
            rintro ⟨member, same⟩
            rcases List.mem_cons.mp member with first' | rest'
            · exact here ⟨first', same⟩
            · exact later ⟨rest', same⟩
          rw [if_neg outside, Grid.set, if_neg here]

/-- The reused entries land in front of the palette, in their order. -/
theorem copyReused_spec (entries : ValidEntries p cu) {flags : Nat → Bool}
    (same : ∀ k < cu.lastPLTSize, flags k = cu.reuseflag k) (grid : Grid Nat) {size : Nat}
    (within : size ≤ cu.lastPLTSize) :
    ∃ grid', (List.range' 0 size).foldl (CABACReader.copyReused p flags) (grid, 0) =
        (grid', CABACWriter.reusedBelow cu size) ∧
      ∀ comp, Covers p comp → ∀ k < CABACWriter.reusedBelow cu size,
        grid' comp k = cu.curPLT comp k := by
  induction size with
  | zero => exact ⟨grid, rfl, fun comp _ k inside => absurd inside (Nat.not_lt_zero k)⟩
  | succ size ih =>
      obtain ⟨grid', run, agrees⟩ := ih (by omega)
      rw [List.range'_concat, List.foldl_append, run, List.foldl_cons, List.foldl_nil,
        reusedBelow_succ]
      simp only [CABACReader.copyReused, Nat.zero_add, Nat.one_mul, same size (by omega)]
      cases flag : cu.reuseflag size with
      | false => exact ⟨grid', by simp, fun comp covered k inside => agrees comp covered k inside⟩
      | true =>
          refine ⟨_, by rw [if_pos rfl]; rfl, fun comp covered k inside => ?_⟩
          rw [foldl_set]
          by_cases here : k = CABACWriter.reusedBelow cu size
          · rw [if_pos ⟨mem_comps.mpr covered, here⟩, here]
            exact (entries.reused size (by omega) flag comp covered).symm
          · rw [if_neg fun both => here both.2]
            refine agrees comp covered k ?_
            rw [Bool.toNat_true] at inside
            omega

/-- What is known of the new entries in the middle of the two loops: whole
components in front, then the entries of `comp` below `idx`. -/
theorem reads_newEntries (entries : ValidEntries p cu) {grid : Grid Nat}
    (front : ∀ comp, Covers p comp → ∀ k < cu.reusePLTSize, grid comp k = cu.curPLT comp k) :
    Reads (CABACWriter.codeNewEntries p cu)
      (CABACReader.parseNewEntries p cu.reusePLTSize cu.curPLTSize grid)
      (fun _ grid' => ∀ comp, Covers p comp → ∀ k < cu.curPLTSize,
        grid' comp k = cu.curPLT comp k) := by
  unfold CABACWriter.codeNewEntries CABACReader.parseNewEntries
  -- agreement only grows: every assignment is of the writer's own value
  refine (Codes.range' (fun (comp : Nat) (_ : Unit) (grid' : Grid Nat) =>
    (∀ comp', Covers p comp' → ∀ k < cu.reusePLTSize, grid' comp' k = cu.curPLT comp' k) ∧
      ∀ comp', Covers p comp' → comp' < comp → ∀ k < cu.curPLTSize,
        grid' comp' k = cu.curPLT comp' k) ?_ ⟨front, ?_⟩).weaken ?_
  · rintro comp _ grid₁ low high ⟨kept, done⟩
    refine (Codes.range' (fun (idx : Nat) (_ : Unit) (grid' : Grid Nat) =>
      (∀ comp' k, grid₁ comp' k = cu.curPLT comp' k → grid' comp' k = cu.curPLT comp' k) ∧
        ∀ k < idx, grid' comp k = cu.curPLT comp k) ?_
      ⟨fun _ _ agrees => agrees, kept comp ⟨low, high⟩⟩).weaken ?_
    · rintro idx _ grid₂ start stop ⟨grows, below⟩
      have bits := entries.fits comp ⟨low, high⟩ idx start (by omega)
      have depth : p.compBitDepth comp ≤ 16 := entries.depth _
      refine Codes.readerMap (fun entry => grid₂.set comp idx entry)
        (reads_binsEP (by omega) bits) ?_
      rintro _ _ rfl
      refine ⟨fun comp' k agrees => Grid.set_agrees comp' k (grows comp' k agrees),
        fun k upto => ?_⟩
      by_cases here : k = idx
      · rw [here, Grid.set_self]
      · exact Grid.set_agrees comp k (below k (by omega))
    · rintro _ grid₂ ⟨grows, below⟩
      refine ⟨fun comp' covered k inside => grows comp' k (kept comp' covered k inside),
        fun comp' covered upto k inside => ?_⟩
      by_cases here : comp' = comp
      · rw [here]
        have size := entries.sizeGe
        exact below k (by omega)
      · exact grows comp' k (done comp' covered (by omega) k inside)
  · intro comp' covered below
    exact absurd below (Nat.not_lt.mpr covered.1)
  · rintro _ grid' ⟨_, done⟩ comp covered k inside
    exact done comp covered covered.2 k inside

/-- The palette members of the reader's unit are the writer's. -/
structure PaletteRead (p : PLTParams) (cu cu' : CodingUnit) : Prop where
  last : cu'.lastPLTSize = cu.lastPLTSize
  size : cu'.curPLTSize = cu.curPLTSize
  flags : ∀ k < cu.lastPLTSize, cu'.reuseflag k = cu.reuseflag k
  entries : ∀ comp, Covers p comp → ∀ k < cu.curPLTSize, cu'.curPLT comp k = cu.curPLT comp k

theorem reads_numNew (entries : ValidEntries p cu) :
    Reads (CABACWriter.codeNumNew cu)
      (CABACReader.parseNumNew (CABACWriter.reusedBelow cu cu.lastPLTSize))
      (fun _ count => count = cu.curPLTSize - CABACWriter.reusedBelow cu cu.lastPLTSize) := by
  unfold CABACWriter.codeNumNew CABACReader.parseNumNew
  have most : cu.curPLTSize ≤ 31 := entries.sizeLe
  by_cases room : CABACWriter.reusedBelow cu cu.lastPLTSize < MAXPLTSIZE
  · simp only [room, if_true]
    exact reads_expGolomb (by omega)
  · simp only [room, if_false]
    have full : 31 ≤ CABACWriter.reusedBelow cu cu.lastPLTSize := Nat.not_lt.mp room
    exact Codes.pure (by omega)

theorem reads_palette (entries : ValidEntries p cu) {cu₀ : CodingUnit}
    (unset : ∀ k, cu₀.reuseflag k = false) :
    Reads (CABACWriter.codePalette p cu) (CABACReader.parsePalette p cu₀)
      (fun _ cu' => PaletteRead p cu cu') := by
  unfold CABACWriter.codePalette CABACReader.parsePalette
  refine Codes.bind (reads_predIndicator entries unset) ?_
  intro _ flags same
  obtain ⟨grid, run, front⟩ := copyReused_spec entries same cu₀.curPLT (Nat.le_refl _)
  rw [entries.last] at run
  simp only [run]
  rw [← entries.last]
  refine Codes.bind (reads_numNew entries) ?_
  rintro _ _ rfl
  have size : CABACWriter.reusedBelow cu cu.lastPLTSize +
      (cu.curPLTSize - CABACWriter.reusedBelow cu cu.lastPLTSize) = cu.curPLTSize := by
    have least := entries.sizeGe
    rw [entries.reusedSize] at least
    omega
  rw [size, ← entries.reusedSize]
  rw [← entries.reusedSize] at front
  refine Codes.readerMap _ (reads_newEntries entries front) ?_
  intro _ grid' agrees
  exact ⟨rfl, rfl, same, agrees⟩

end Entries

section Flags

variable {p : PLTParams} {cu : CodingUnit} {tu : TransformUnit}

theorem ValidMap.positive (map : ValidMap p cu tu) : 0 < cu.indexMaxSize :=
  Nat.zero_lt_of_lt (map.index 0 map.width 0 map.height)

theorem reads_escapeFlag (map : ValidMap p cu tu) :
    Reads (CABACWriter.codeEscapeFlag cu) (CABACReader.parseEscapeFlag cu.curPLTSize)
      (fun _ useEscape => useEscape = cu.useEscape) := by
  unfold CABACWriter.codeEscapeFlag CABACReader.parseEscapeFlag
  by_cases some : cu.curPLTSize > 0
  · simp only [some, if_true]
    exact reads_binEP _
  · -- an empty palette leaves only escape
    have positive := map.positive
    have escape : cu.useEscape = true := by
      by_contra none
      rw [CodingUnit.indexMaxSize, if_neg none] at positive
      exact some positive
    simp only [some, if_false]
    exact Codes.pure escape.symm

theorem reads_rotation (map : ValidMap p cu tu) :
    Reads (CABACWriter.codeRotation cu) (CABACReader.parseRotation cu.indexMaxSize)
      (fun _ useRotation => useRotation = cu.useRotation) := by
  unfold CABACWriter.codeRotation CABACReader.parseRotation
  by_cases several : cu.indexMaxSize > 1
  · simp only [several, if_true]
    exact reads_bin _ _
  · have none := map.rotation (by omega)
    simp only [several, if_false]
    exact Codes.writerGuard (Or.inr (by simp [none])) fun _ => none.symm

theorem reads_flags (map : ValidMap p cu tu) {cu₁ : CodingUnit}
    (size : cu₁.curPLTSize = cu.curPLTSize) :
    Reads (CABACWriter.codeFlags cu) (CABACReader.parseFlags cu₁)
      (fun _ cu' => cu' = { cu₁ with useEscape := cu.useEscape, useRotation := cu.useRotation }) := by
  unfold CABACWriter.codeFlags CABACReader.parseFlags
  rw [size]
  refine Codes.bind (reads_escapeFlag map) ?_
  rintro _ _ rfl
  refine Codes.readerMap _ (reads_rotation map) ?_
  rintro _ _ rfl
  rfl

end Flags

section Quantizer

variable {p : PLTParams} {cu : CodingUnit} {cuCtx : CUCtx}

/-- A quantizer that eight bits hold and its predictor, over an offset for which the
sums of `cu_qp_delta` stay in an `int`. -/
structure QpRange (p : PLTParams) (predQP qp : Int) : Prop where
  offset : p.qpBDOffset ≤ 2 ^ 29
  byte : -2 ^ 7 ≤ qp
  low : -(p.qpBDOffset : Int) ≤ qp
  high : qp ≤ MAX_QP
  predLow : -(p.qpBDOffset : Int) ≤ predQP
  predHigh : predQP ≤ MAX_QP

theorem ValidQp.range (valid : ValidQp p cu cuCtx) : QpRange p cuCtx.qp cu.qp := by
  obtain ⟨offset, low, high, predLow, predHigh, _, _⟩ := valid
  exact ⟨by omega, by omega, low, high, predLow, predHigh⟩

/-- The difference is small and leads back to the quantizer. -/
theorem wrappedDQp_spec {predQP qp : Int} (range : QpRange p predQP qp) :
    (CABACWriter.wrappedDQp p predQP qp).natAbs < 2 ^ 30 ∧
      (predQP + CABACWriter.wrappedDQp p predQP qp + (MAX_QP + 1) +
        2 * (p.qpBDOffset : Int)).tmod ((MAX_QP + 1) + p.qpBDOffset) - p.qpBDOffset = qp := by
  obtain ⟨offset, -, low, high, predLow, predHigh⟩ := range
  have maxQp : (MAX_QP : Int) = 63 := rfl
  rw [maxQp] at high predHigh
  have half : (((MAX_QP + 1) / 2 : Nat) : Int) = 32 := rfl
  simp only [CABACWriter.wrappedDQp, maxQp, half]
  set n : Int := 63 + 1 + (p.qpBDOffset : Int) with nDef
  set a : Int := qp - predQP + (63 + 1) + 32 + (p.qpBDOffset : Int) +
    ((p.qpBDOffset / 2 : Nat) : Int) with aDef
  have halfLe : p.qpBDOffset / 2 ≤ p.qpBDOffset := Nat.div_le_self _ _
  have positive : 0 < n := by omega
  rw [Int.tmod_eq_emod_of_nonneg (by omega : 0 ≤ a)]
  have rem := Int.emod_nonneg a positive.ne'
  have small := Int.emod_lt_of_pos a positive
  have back : predQP + (a % n - 32 - ((p.qpBDOffset / 2 : Nat) : Int)) + (63 + 1) +
      2 * (p.qpBDOffset : Int) = qp + p.qpBDOffset + n * (2 - a / n) := by
    have split := Int.emod_add_mul_ediv a n
    linarith
  refine ⟨by omega, ?_⟩
  rw [Int.tmod_eq_emod_of_nonneg (by omega), back, Int.add_mul_emod_self_left,
    Int.emod_eq_of_lt (by omega) (by omega)]
  omega

theorem reads_dqpSuffix {absDQP : Nat} (small : absDQP < 2 ^ 30) :
    Reads (CABACWriter.codeDQpSuffix absDQP)
      (CABACReader.parseDQpSuffix (min absDQP CU_DQP_TU_CMAX)) (fun _ DQp => DQp = absDQP) := by
  have five : CU_DQP_TU_CMAX = 5 := rfl
  unfold CABACWriter.codeDQpSuffix CABACReader.parseDQpSuffix
  rw [five]
  by_cases large : absDQP ≥ 5
  · rw [if_pos large, if_pos (by omega)]
    refine Codes.readerMap _ (reads_expGolomb ?_) ?_
    · have order : CU_DQP_EG_k = 0 := rfl
      rw [order]
      omega
    · rintro _ _ rfl
      omega
  · rw [if_neg large, if_neg (by omega)]
    exact Codes.pure (by omega)

theorem reads_cuQpDelta {predQP qp : Int} (range : QpRange p predQP qp) :
    Reads (CABACWriter.cuQpDelta p predQP qp) (CABACReader.cuQpDelta p predQP)
      (fun _ read => read = qp) := by
  obtain ⟨small, back⟩ := wrappedDQp_spec range
  unfold CABACWriter.cuQpDelta CABACReader.cuQpDelta
  simp only
  generalize CABACWriter.wrappedDQp p predQP qp = DQp at *
  have word : min DQp.natAbs CU_DQP_TU_CMAX < 2 ^ 32 - 1 :=
    Nat.lt_of_le_of_lt (Nat.min_le_right _ _) (by decide)
  refine Codes.bind (reads_unaryMax (Nat.min_le_right _ _) word _ _) ?_
  rintro _ _ rfl
  refine Codes.bind (reads_dqpSuffix small) ?_
  rintro _ _ rfl
  have byte : qp.bmod (2 ^ 8) = qp := by
    obtain ⟨_, byte, _, high, _⟩ := range
    have maxQp : (MAX_QP : Int) = 63 := rfl
    rw [Int.bmod_eq_of_le] <;> omega
  have sign : Reads (CABACWriter.codeDQpSign DQp)
      (CABACReader.parseDQpSign p predQP DQp.natAbs) (fun _ read => read = qp) := by
    unfold CABACWriter.codeDQpSign CABACReader.parseDQpSign
    by_cases moves : DQp.natAbs > 0
    · rw [if_pos moves, if_pos moves]
      refine Codes.readerMap _ (reads_binEP _) ?_
      rintro _ _ rfl
      have signed : (if decide (DQp < 0) = true then -(DQp.natAbs : Int) else (DQp.natAbs : Int)) =
          DQp := by
        by_cases negative : DQp < 0
        · simp only [negative, decide_true, if_true]
          omega
        · simp only [negative, decide_false, Bool.false_eq_true, if_false]
          omega
      simp only [signed]
      exact back
    · rw [if_neg moves, if_neg moves]
      have none : DQp = 0 := by omega
      refine Codes.pure ?_
      obtain ⟨offset, -, low, high, predLow, predHigh⟩ := range
      have maxQp : (MAX_QP : Int) = 63 := rfl
      have around : predQP + DQp + ((MAX_QP : Int) + 1) + 2 * (p.qpBDOffset : Int) =
          predQP + p.qpBDOffset + ((MAX_QP : Int) + 1 + p.qpBDOffset) * 1 := by omega
      rw [around, Int.tmod_eq_emod_of_nonneg (by omega), Int.add_mul_emod_self_left,
        Int.emod_eq_of_lt (by omega) (by omega)] at back
      omega
  refine Codes.readerMap _ sign ?_
  rintro _ _ rfl
  exact byte

theorem reads_chromaQpOffset (valid : ValidQp p cu cuCtx) :
    Reads (CABACWriter.cuChromaQpOffset p cu) (CABACReader.cuChromaQpOffset p)
      (fun _ chromaQpAdj => chromaQpAdj = cu.chromaQpAdj) := by
  have bound := valid.chroma
  have byte := valid.chromaByte
  unfold CABACWriter.cuChromaQpOffset CABACReader.cuChromaQpOffset
  by_cases off : cu.chromaQpAdj = 0
  · rw [if_pos off]
    refine (reads_bin _ _).readerAfter ?_
    rintro _ _ rfl
    exact ⟨0, by simpa using Accepts.pure 0, off.symm⟩
  · rw [if_neg off]
    refine Codes.bind (reads_bin _ _) ?_
    rintro _ _ rfl
    unfold CABACWriter.codeChromaQpIdx
    by_cases several : p.chromaQpOffsetListLen > 1
    · simp only [several, and_self, if_true]
      refine Codes.readerMap _ (reads_unaryMax (by omega) (by omega) _ _) ?_
      rintro _ _ rfl
      simp only [Bool.toNat_true]
      omega
    · simp only [several, and_false, if_false]
      exact Codes.pure (by simp only [Bool.toNat_true]; omega)

end Quantizer

section Scan

variable {p : PLTParams}

/-- The length of the lines that the scan goes along. -/
def lineLength (p : PLTParams) (rotation : Bool) : Nat := if rotation then p.height else p.width

/-- The number of those lines. -/
def lineCount (p : PLTParams) (rotation : Bool) : Nat := if rotation then p.width else p.height

/-- The element of a line. -/
def cell (rotation : Bool) (line along : Nat) : ScanElement :=
  if rotation then ⟨line, along⟩ else ⟨along, line⟩

theorem lineCount_mul (rotation : Bool) :
    lineCount p rotation * lineLength p rotation = p.height * p.width := by
  cases rotation
  · rfl
  · exact Nat.mul_comm _ _

theorem scan_cell {rotation : Bool} {line offset : Nat} (inside : offset < lineLength p rotation)
    (within : line < lineCount p rotation) :
    p.scan rotation (line * lineLength p rotation + offset) =
      cell rotation line (foldback (lineLength p rotation) line offset) := by
  cases rotation
  · exact scanOrder_travHor p.height line inside
  · exact scanOrder_travVer inside within

theorem scan_line (rotation : Bool) {curPos : Nat} (inside : curPos < p.height * p.width) :
    curPos % lineLength p rotation < lineLength p rotation ∧
      curPos / lineLength p rotation < lineCount p rotation ∧
      p.scan rotation curPos = cell rotation (curPos / lineLength p rotation)
        (foldback (lineLength p rotation) (curPos / lineLength p rotation)
          (curPos % lineLength p rotation)) := by
  rw [← lineCount_mul rotation] at inside
  have positive : 0 < lineLength p rotation := Nat.pos_of_mul_pos_left (Nat.zero_lt_of_lt inside)
  have offset := Nat.mod_lt curPos positive
  have line := Nat.div_lt_of_lt_mul (by rwa [Nat.mul_comm] at inside)
  have whole := scan_cell offset line
  rw [Nat.div_add_mod'] at whole
  exact ⟨offset, line, whole⟩

theorem cell_inside {rotation : Bool} {line along : Nat} (within : line < lineCount p rotation)
    (inside : along < lineLength p rotation) :
    (cell rotation line along).x < p.width ∧ (cell rotation line along).y < p.height := by
  cases rotation
  · exact ⟨inside, within⟩
  · exact ⟨within, inside⟩

theorem scan_inside (rotation : Bool) {curPos : Nat} (inside : curPos < p.height * p.width) :
    (p.scan rotation curPos).x < p.width ∧ (p.scan rotation curPos).y < p.height := by
  obtain ⟨offset, line, position⟩ := scan_line rotation inside
  rw [position]
  exact cell_inside line (foldback_lt offset)

theorem onFirstLine_cell {rotation : Bool} {line along : Nat} :
    onFirstLine rotation (cell rotation line along) ↔ line = 0 := by
  cases rotation <;> simp [onFirstLine, cell]

theorem copySource_cell (rotation : Bool) (line along : Nat) :
    copySource rotation (cell rotation (line + 1) along) = cell rotation line along := by
  cases rotation <;> rfl

/-- The scan reaches every sample. -/
theorem scan_covers (rotation : Bool) {x y : Nat} (width : x < p.width) (height : y < p.height) :
    ∃ curPos < p.height * p.width, p.scan rotation curPos = ⟨x, y⟩ := by
  obtain ⟨line, along, within, inside, same⟩ : ∃ line along, line < lineCount p rotation ∧
      along < lineLength p rotation ∧ cell rotation line along = ⟨x, y⟩ := by
    cases rotation
    · exact ⟨y, x, height, width, rfl⟩
    · exact ⟨x, y, width, height, rfl⟩
  refine ⟨line * lineLength p rotation + foldback (lineLength p rotation) line along, ?_, ?_⟩
  · have back : foldback (lineLength p rotation) line along < lineLength p rotation :=
      foldback_lt inside
    rw [← lineCount_mul rotation]
    calc line * lineLength p rotation + foldback (lineLength p rotation) line along
        < line * lineLength p rotation + lineLength p rotation := by omega
      _ = (line + 1) * lineLength p rotation := (Nat.succ_mul _ _).symm
      _ ≤ lineCount p rotation * lineLength p rotation := Nat.mul_le_mul_right _ within
  · rw [scan_cell (foldback_lt inside) within, foldback_foldback inside, same]

/-- Off the first line, the copy source comes earlier in the scan. -/
theorem scan_source {rotation : Bool} {curPos : Nat} (inside : curPos < p.height * p.width)
    (below : ¬ onFirstLine rotation (p.scan rotation curPos)) :
    ∃ source < curPos, p.scan rotation source = copySource rotation (p.scan rotation curPos) := by
  obtain ⟨offset, within, position⟩ := scan_line rotation inside
  rw [position] at below ⊢
  rw [onFirstLine_cell] at below
  obtain ⟨line, lineEq⟩ := Nat.exists_eq_succ_of_ne_zero below
  rw [lineEq] at within ⊢
  set along := foldback (lineLength p rotation) (line + 1) (curPos % lineLength p rotation)
  have alongLt : along < lineLength p rotation := foldback_lt offset
  refine ⟨line * lineLength p rotation + foldback (lineLength p rotation) line along, ?_, ?_⟩
  · have back : foldback (lineLength p rotation) line along < lineLength p rotation :=
      foldback_lt alongLt
    have split := Nat.div_add_mod' curPos (lineLength p rotation)
    rw [lineEq, Nat.succ_mul] at split
    omega
  · rw [scan_cell (foldback_lt alongLt) (by omega), foldback_foldback alongLt, copySource_cell]

theorem scan_below {rotation : Bool} {curPos : Nat} (inside : curPos < p.height * p.width)
    (below : ¬ onFirstLine rotation (p.scan rotation (curPos - 1))) :
    ¬ onFirstLine rotation (p.scan rotation curPos) := by
  obtain ⟨_, _, position⟩ := scan_line rotation inside
  obtain ⟨_, _, before⟩ := scan_line rotation (by omega : curPos - 1 < p.height * p.width)
  rw [before, onFirstLine_cell] at below
  rw [position, onFirstLine_cell]
  have grows : (curPos - 1) / lineLength p rotation ≤ curPos / lineLength p rotation :=
    Nat.div_le_div_right (by omega)
  exact fun first => below (Nat.le_zero.mp (first ▸ grows))

end Scan

/-- Two arrays agree on the first `bound` positions of the scan. -/
def Agrees {α : Type} (p : PLTParams) (rotation : Bool) (bound : Nat) (grid grid' : Grid α) : Prop :=
  ∀ k < bound, grid' (p.scan rotation k).x (p.scan rotation k).y =
    grid (p.scan rotation k).x (p.scan rotation k).y

/-- The assignment of the writer's value at the next position. -/
theorem Agrees.set {α : Type} {p : PLTParams} {rotation : Bool} {bound : Nat} {grid grid' : Grid α}
    (agrees : Agrees p rotation bound grid grid') {value : α}
    (same : value = grid (p.scan rotation bound).x (p.scan rotation bound).y) :
    Agrees p rotation (bound + 1) grid
      (grid'.set (p.scan rotation bound).x (p.scan rotation bound).y value) := by
  intro k inside
  rw [same]
  by_cases here : k = bound
  · rw [here, Grid.set_self]
  · exact Grid.set_agrees _ _ (agrees k (by omega))

section Runs

variable {p : PLTParams} {cu : CodingUnit} {tu : TransformUnit}

theorem scanPrev_of_pos {curPos : Nat} (positive : curPos ≠ 0) (rotation : Bool) :
    p.scanPrev rotation curPos = p.scan rotation (curPos - 1) := if_neg positive

/-- A run that goes on keeps its type, and an index run its index. -/
theorem identityFlag_iff (curPos : Nat) :
    CABACWriter.identityFlag p cu tu curPos = true ↔
      tu.runType (p.scan cu.useRotation curPos).x (p.scan cu.useRotation curPos).y =
        tu.runType (p.scanPrev cu.useRotation curPos).x (p.scanPrev cu.useRotation curPos).y ∧
      (tu.runType (p.scan cu.useRotation curPos).x (p.scan cu.useRotation curPos).y =
          .PLT_RUN_INDEX →
        tu.curPLTIdx (p.scan cu.useRotation curPos).x (p.scan cu.useRotation curPos).y =
          tu.curPLTIdx (p.scanPrev cu.useRotation curPos).x
            (p.scanPrev cu.useRotation curPos).y) := by
  simp only [CABACWriter.identityFlag, Bool.not_eq_true', decide_eq_false_iff_not, not_or, not_and,
    ne_eq, not_not]

/-- What the context coded loops of both sides know in front of `curPos`. -/
structure RunInv (p : PLTParams) (cu : CodingUnit) (tu : TransformUnit) (minSubPos curPos : Nat)
    (st : RunState) (acc : RunState × Grid PLTRunMode) : Prop where
  same : acc.1 = st
  agrees : Agrees p cu.useRotation curPos tu.runType acc.2
  first : minSubPos = 0 → st.runCopyFlag 0 = 0
  flags : ∀ k, minSubPos ≤ k → k < curPos → k ≠ 0 →
    st.runCopyFlag (k - minSubPos) = (CABACWriter.identityFlag p cu tu k).toNat

theorem reads_copyFlag (minSubPos curPos : Nat) (flag : Bool) (st : RunState) :
    Reads (CABACWriter.codeCopyFlag minSubPos curPos flag st)
      (CABACReader.parseCopyFlag minSubPos curPos st)
      (fun st' read => read = (if curPos > 0 then flag else true, st') ∧
        st' = if curPos > 0 then st.setFlag (curPos - minSubPos) flag else st) := by
  unfold CABACWriter.codeCopyFlag CABACReader.parseCopyFlag
  by_cases positive : curPos > 0
  · simp only [positive, if_true]
    refine Codes.bind (reads_bin _ _) ?_
    rintro _ _ rfl
    exact Codes.pure ⟨rfl, rfl⟩
  · simp only [positive, if_false]
    exact Codes.pure ⟨rfl, rfl⟩

/-- The type of a run is read, or both sides know that it is no copied run. -/
theorem reads_runType (map : ValidMap p cu tu) {curPos : Nat} (inside : curPos < p.height * p.width)
    {runType : Grid PLTRunMode} (agrees : Agrees p cu.useRotation curPos tu.runType runType)
    (starts : CABACWriter.identityFlag p cu tu curPos = false ∨ curPos = 0) :
    Reads (CABACWriter.codeRunType p cu tu curPos) (CABACReader.parseRunType p cu curPos runType)
      (fun _ type => type =
        tu.runType (p.scan cu.useRotation curPos).x (p.scan cu.useRotation curPos).y) := by
  obtain ⟨width, height⟩ := scan_inside cu.useRotation inside
  unfold CABACWriter.codeRunType CABACReader.parseRunType
  by_cases firstLine : onFirstLine cu.useRotation (p.scan cu.useRotation curPos)
  · have index := map.firstLine _ width _ height firstLine
    simp only [firstLine, if_true]
    exact Codes.writerGuard (Or.inr (by simp [index])) fun _ => index.symm
  · simp only [firstLine, if_false]
    by_cases origin : curPos = 0
    · simp only [origin, ne_eq, not_true_eq_false, false_and, if_false]
      refine Codes.readerMap _ (reads_bin _ _) ?_
      rintro _ _ rfl
      cases tu.runType (p.scan cu.useRotation 0).x (p.scan cu.useRotation 0).y <;> rfl
    · have before := agrees (curPos - 1) (by omega)
      rw [← scanPrev_of_pos origin] at before
      simp only [ne_eq, origin, not_false_eq_true, true_and, before]
      by_cases copied : tu.runType (p.scanPrev cu.useRotation curPos).x
          (p.scanPrev cu.useRotation curPos).y = .PLT_RUN_COPY
      · -- a copied run behind a copied run would be the same run
        have index : tu.runType (p.scan cu.useRotation curPos).x
            (p.scan cu.useRotation curPos).y = .PLT_RUN_INDEX := by
          by_contra other
          have moves := starts.resolve_right origin
          rw [← Bool.not_eq_true, identityFlag_iff] at moves
          refine moves ⟨?_, fun index => absurd index other⟩
          rw [copied]
          cases type : tu.runType (p.scan cu.useRotation curPos).x (p.scan cu.useRotation curPos).y
          · exact absurd type other
          · rfl
        simp only [copied, if_true]
        exact Codes.writerGuard (Or.inr (by simp [index])) fun _ => index.symm
      · simp only [copied, if_false]
        refine Codes.readerMap _ (reads_bin _ _) ?_
        rintro _ _ rfl
        cases tu.runType (p.scan cu.useRotation curPos).x (p.scan cu.useRotation curPos).y <;> rfl

theorem reads_run (map : ValidMap p cu tu) {minSubPos curPos : Nat} (least : minSubPos ≤ curPos)
    (inside : curPos < p.height * p.width) {st : RunState} {acc : RunState × Grid PLTRunMode}
    (inv : RunInv p cu tu minSubPos curPos st acc) :
    Reads (CABACWriter.codeRun p cu tu minSubPos st curPos)
      (CABACReader.parseRun p cu minSubPos acc curPos)
      (RunInv p cu tu minSubPos (curPos + 1)) := by
  obtain ⟨same, agrees, first, flags⟩ := inv
  obtain ⟨st', runType⟩ := acc
  change st' = st at same
  subst st'
  unfold CABACWriter.codeRun CABACReader.parseRun
  refine Codes.bind (reads_copyFlag minSubPos curPos _ st) ?_
  rintro _ _ ⟨rfl, rfl⟩
  set st₁ := if curPos > 0 then
    st.setFlag (curPos - minSubPos) (CABACWriter.identityFlag p cu tu curPos) else st with st₁Def
  -- the flags after this position
  have first₁ : minSubPos = 0 → st₁.runCopyFlag 0 = 0 := by
    intro start
    by_cases positive : curPos > 0
    · rw [st₁Def, if_pos positive, RunState.setFlag]
      simp only
      rw [update_of_ne (by omega)]
      exact first start
    · rw [st₁Def, if_neg positive]
      exact first start
  have flags₁ : ∀ k, minSubPos ≤ k → k < curPos + 1 → k ≠ 0 →
      st₁.runCopyFlag (k - minSubPos) = (CABACWriter.identityFlag p cu tu k).toNat := by
    intro k low high positive
    rw [st₁Def, if_pos (by omega), RunState.setFlag]
    by_cases here : k = curPos
    · simp only [here, update_self]
    · simp only
      rw [update_of_ne (by omega)]
      exact flags k low (by omega) positive
  by_cases starts : CABACWriter.identityFlag p cu tu curPos = false ∨ curPos = 0
  · have starts' : (if curPos > 0 then CABACWriter.identityFlag p cu tu curPos else true) = false ∨
        curPos = 0 := by
      by_cases origin : curPos = 0
      · exact Or.inr origin
      · rw [if_pos (by omega)]
        exact starts
    simp only [starts, starts', if_true]
    refine Codes.bind (reads_runType map inside agrees starts) ?_
    rintro _ _ rfl
    exact Codes.pure ⟨rfl, agrees.set rfl, first₁, flags₁⟩
  · have goesOn : CABACWriter.identityFlag p cu tu curPos = true := by
      cases flag : CABACWriter.identityFlag p cu tu curPos
      · exact absurd (Or.inl flag) starts
      · rfl
    have origin : curPos ≠ 0 := fun zero => starts (Or.inr zero)
    have goesOn' : ¬ ((if curPos > 0 then CABACWriter.identityFlag p cu tu curPos else true) = false
        ∨ curPos = 0) := by
      rw [if_pos (by omega)]
      exact starts
    simp only [starts, goesOn', if_false]
    refine Codes.pure ⟨rfl, agrees.set ?_, first₁, flags₁⟩
    rw [((identityFlag_iff curPos).mp goesOn).1, scanPrev_of_pos origin]
    exact agrees (curPos - 1) (by omega)

end Runs

section Indices

variable {p : PLTParams} {cu : CodingUnit} {tu : TransformUnit}

/-- Escape is the last symbol already, so its special case changes nothing. -/
theorem level_eq {index : Nat} (fits : index < cu.indexMaxSize) :
    (if index = cu.curPLTSize then cu.indexMaxSize - 1 else index) = index := by
  unfold CodingUnit.indexMaxSize at *
  split <;> split at fits <;> simp_all

/-- The index that cannot stand at the start of an index run. -/
@[grind =] def redundant (p : PLTParams) (cu : CodingUnit) (tu : TransformUnit) (curPos : Nat) : Nat :=
  let prev := p.scan cu.useRotation (curPos - 1)
  let source := copySource cu.useRotation (p.scan cu.useRotation curPos)
  if tu.runType prev.x prev.y = .PLT_RUN_INDEX then tu.curPLTIdx prev.x prev.y
  else tu.curPLTIdx source.x source.y

/-- Behind a copied run, neither position lies on the first line. -/
theorem ValidMap.below (map : ValidMap p cu tu) {curPos : Nat} (inside : curPos < p.height * p.width)
    (copied : tu.runType (p.scan cu.useRotation curPos).x (p.scan cu.useRotation curPos).y ≠
      .PLT_RUN_INDEX) :
    ¬ onFirstLine cu.useRotation (p.scan cu.useRotation curPos) := by
  intro firstLine
  obtain ⟨width, height⟩ := scan_inside cu.useRotation inside
  exact copied (map.firstLine _ width _ height firstLine)

theorem check_pass {c : Prop} [Decidable c] {e : String} (passes : ¬ c) :
    (check c e : StateT (List Bin) Checked Unit) = pure () :=
  funext fun _ => check_run passes

/-- Both sides find the same redundant index. -/
theorem refLevel_eq (map : ValidMap p cu tu) {curPos : Nat} (positive : curPos ≠ 0)
    (inside : curPos < p.height * p.width) {runType : Grid PLTRunMode} {paletteIdx : Grid Nat}
    (types : Agrees p cu.useRotation curPos tu.runType runType)
    (indices : Agrees p cu.useRotation curPos tu.curPLTIdx paletteIdx) :
    refLevel p cu runType paletteIdx cu.indexMaxSize curPos = pure (redundant p cu tu curPos) := by
  have before : curPos - 1 < p.height * p.width := by omega
  obtain ⟨width, height⟩ := scan_inside cu.useRotation before
  unfold refLevel redundant
  simp only [types (curPos - 1) (by omega)]
  by_cases index : tu.runType (p.scan cu.useRotation (curPos - 1)).x
      (p.scan cu.useRotation (curPos - 1)).y = .PLT_RUN_INDEX
  · simp only [index, if_true, indices (curPos - 1) (by omega)]
    rw [level_eq (map.index _ width _ height)]
  · have below := map.below before index
    obtain ⟨source, earlier, position⟩ := scan_source inside (scan_below inside below)
    obtain ⟨sourceWidth, sourceHeight⟩ :=
      scan_inside cu.useRotation (by omega : source < p.height * p.width)
    have agrees := indices source earlier
    rw [position] at agrees sourceWidth sourceHeight
    have level := level_eq (map.index _ sourceWidth _ sourceHeight)
    simp only [index, if_false]
    cases rotation : cu.useRotation with
    | false =>
        rw [rotation] at agrees level below
        have passes : (p.scan false (curPos - 1)).y > 0 := by
          simp only [onFirstLine, and_true, Bool.false_eq_true, and_false, or_false] at below
          omega
        simp only [Bool.false_eq_true, if_false, check_pass (not_not.mpr passes), pure_bind, agrees,
          level]
    | true =>
        rw [rotation] at agrees level below
        have passes : (p.scan true (curPos - 1)).x > 0 := by
          simp only [onFirstLine, and_true, Bool.true_eq_false, and_false, false_or] at below
          omega
        simp only [if_true, check_pass (not_not.mpr passes), pure_bind, agrees, level]

/-- At the start of an index run the redundant index is another one. -/
theorem redundant_ne (map : ValidMap p cu tu) {curPos : Nat} (positive : curPos ≠ 0)
    (inside : curPos < p.height * p.width)
    (index : tu.runType (p.scan cu.useRotation curPos).x (p.scan cu.useRotation curPos).y =
      .PLT_RUN_INDEX)
    (starts : CABACWriter.identityFlag p cu tu curPos = false) :
    redundant p cu tu curPos ≠
      tu.curPLTIdx (p.scan cu.useRotation curPos).x (p.scan cu.useRotation curPos).y := by
  unfold redundant
  rw [← Bool.not_eq_true, identityFlag_iff, scanPrev_of_pos positive] at starts
  by_cases left : tu.runType (p.scan cu.useRotation (curPos - 1)).x
      (p.scan cu.useRotation (curPos - 1)).y = .PLT_RUN_INDEX
  · simp only [left, if_true]
    exact fun same => starts ⟨index.trans left.symm, fun _ => same.symm⟩
  · simp only [left, if_false]
    have copied : tu.runType (p.scan cu.useRotation (curPos - 1)).x
        (p.scan cu.useRotation (curPos - 1)).y = .PLT_RUN_COPY := by
      cases type : tu.runType (p.scan cu.useRotation (curPos - 1)).x
        (p.scan cu.useRotation (curPos - 1)).y
      · exact absurd type left
      · rfl
    exact (map.starts curPos (Nat.pos_of_ne_zero positive) inside index copied).symm

theorem redundant_lt (map : ValidMap p cu tu) {curPos : Nat}
    (inside : curPos < p.height * p.width) :
    redundant p cu tu curPos < cu.indexMaxSize := by
  have before : curPos - 1 < p.height * p.width := by omega
  obtain ⟨width, height⟩ := scan_inside cu.useRotation before
  unfold redundant
  by_cases left : tu.runType (p.scan cu.useRotation (curPos - 1)).x
      (p.scan cu.useRotation (curPos - 1)).y = .PLT_RUN_INDEX
  · simp only [left, if_true]
    exact map.index _ width _ height
  · obtain ⟨source, earlier, position⟩ :=
      scan_source inside (scan_below inside (map.below before left))
    obtain ⟨sourceWidth, sourceHeight⟩ :=
      scan_inside cu.useRotation (by omega : source < p.height * p.width)
    rw [position] at sourceWidth sourceHeight
    simp only [left, if_false]
    exact map.index _ sourceWidth _ sourceHeight

/-- A symbol out of `maxSymbol`; a single one takes no bins. -/
theorem reads_symbol {symbol maxSymbol : Nat} (fits : symbol < maxSymbol)
    (word : maxSymbol < 2 ^ 31) :
    Reads (if maxSymbol > 1 then CABACWriter.xWriteTruncBinCode symbol maxSymbol else pure ())
      (CABACReader.xReadTruncBinCode maxSymbol) (fun _ value => value = symbol) := by
  by_cases several : maxSymbol > 1
  · rw [if_pos several]
    exact reads_truncBinCode fits word
  · rw [if_neg several]
    obtain rfl : maxSymbol = 1 := by omega
    intro bins _
    exact Or.inr ⟨(), bins, [], 0, rfl, trivial, by simp, by omega, xReadTruncBinCode_one⟩

/-- An index at the start of an index run. -/
theorem reads_pltIndex (map : ValidMap p cu tu) (small : cu.indexMaxSize < 2 ^ 31 - 1)
    (several : cu.indexMaxSize > 1) {curPos : Nat} (inside : curPos < p.height * p.width)
    (index : tu.runType (p.scan cu.useRotation curPos).x (p.scan cu.useRotation curPos).y =
      .PLT_RUN_INDEX)
    (starts : CABACWriter.identityFlag p cu tu curPos = false ∨ curPos = 0)
    {runType : Grid PLTRunMode} {paletteIdx : Grid Nat}
    (types : Agrees p cu.useRotation curPos tu.runType runType)
    (indices : Agrees p cu.useRotation curPos tu.curPLTIdx paletteIdx) :
    Reads (CABACWriter.writePLTIndex p cu tu curPos cu.indexMaxSize)
      (do
        let symbol ← CABACReader.xReadTruncBinCode
          (cu.indexMaxSize - if curPos > 0 then 1 else 0)
        CABACReader.xAdjustPLTIndex p cu symbol curPos paletteIdx runType cu.indexMaxSize)
      (fun _ grid => Agrees p cu.useRotation (curPos + 1) tu.curPLTIdx grid) := by
  obtain ⟨width, height⟩ := scan_inside cu.useRotation inside
  have fits := map.index _ width _ height
  unfold CABACWriter.writePLTIndex CABACReader.xAdjustPLTIndex
  simp only [level_eq fits]
  unfold CABACWriter.pltSymbol CABACReader.indexRefLevel
  by_cases origin : curPos = 0
  · simp only [origin, ne_eq, not_true_eq_false, if_false, Nat.lt_irrefl, Nat.sub_zero, pure_bind]
    rw [← origin]
    refine Codes.writerCheck (Or.inr (by omega)) fun _ => ?_
    refine Codes.writerCheck (Or.inr (by omega)) fun _ => ?_
    refine Codes.readerMap _ (reads_symbol fits (by omega)) ?_
    rintro _ _ rfl
    refine indices.set (if_neg ?_)
    have top : MAX_INT = 2 ^ 31 - 1 := rfl
    omega
  · have other := redundant_ne map origin inside index (starts.resolve_right origin)
    have bound := redundant_lt map inside
    simp only [ne_eq, origin, not_false_eq_true, if_true, Nat.pos_of_ne_zero origin,
      refLevel_eq map origin inside types indices,
      refLevel_eq map origin inside (fun _ _ => rfl) (fun _ _ => rfl), pure_bind,
      check_pass other]
    generalize redundant p cu tu curPos = level at *
    set cur := tu.curPLTIdx (p.scan cu.useRotation curPos).x (p.scan cu.useRotation curPos).y
      with curDef
    have short : (if cur > level then cur - 1 else cur) < cu.indexMaxSize - 1 := by
      split <;> omega
    refine Codes.writerCheck (Or.inr (by omega)) fun _ => ?_
    refine Codes.writerCheck (Or.inr (by omega)) fun _ => ?_
    refine Codes.readerMap _ (reads_symbol short (by omega)) ?_
    rintro _ _ rfl
    refine indices.set ?_
    rw [← curDef]
    by_cases above : cur > level
    · rw [if_pos above, if_pos (by omega)]
      omega
    · rw [if_neg above, if_neg (by omega)]

/-- One position of the index loop. -/
theorem reads_index (map : ValidMap p cu tu) (small : cu.indexMaxSize < 2 ^ 31 - 1)
    (several : cu.indexMaxSize > 1) {minSubPos maxSubPos curPos : Nat} (least : minSubPos ≤ curPos)
    (most : curPos < maxSubPos) (inside : curPos < p.height * p.width) {st : RunState}
    {acc : RunState × Grid PLTRunMode} (inv : RunInv p cu tu minSubPos maxSubPos st acc)
    {paletteIdx : Grid Nat} (indices : Agrees p cu.useRotation curPos tu.curPLTIdx paletteIdx) :
    Reads (CABACWriter.codeIndex p cu tu minSubPos st curPos)
      (CABACReader.parseIndex p cu minSubPos st acc.2 paletteIdx curPos)
      (fun _ grid => Agrees p cu.useRotation (curPos + 1) tu.curPLTIdx grid) := by
  obtain ⟨width, height⟩ := scan_inside cu.useRotation inside
  have types : Agrees p cu.useRotation curPos tu.runType acc.2 :=
    fun k earlier => inv.agrees k (by omega)
  have flag : st.runCopyFlag (curPos - minSubPos) = 0 ↔
      CABACWriter.identityFlag p cu tu curPos = false ∨ curPos = 0 := by
    by_cases origin : curPos = 0
    · obtain rfl : minSubPos = 0 := by omega
      simp [origin, inv.first rfl]
    · rw [inv.flags curPos least most origin]
      cases CABACWriter.identityFlag p cu tu curPos <;> simp [origin]
  unfold CABACWriter.codeIndex CABACReader.parseIndex
  simp only [inv.agrees curPos most, flag]
  by_cases index : tu.runType (p.scan cu.useRotation curPos).x
      (p.scan cu.useRotation curPos).y = .PLT_RUN_INDEX
  · by_cases starts : CABACWriter.identityFlag p cu tu curPos = false ∨ curPos = 0
    · simp only [starts, index, and_self, if_true]
      exact reads_pltIndex map small several inside index starts types indices
    · -- the run goes on with its index
      have origin : curPos ≠ 0 := fun zero => starts (Or.inr zero)
      have goesOn : CABACWriter.identityFlag p cu tu curPos = true := by
        cases moves : CABACWriter.identityFlag p cu tu curPos
        · exact absurd (Or.inl moves) starts
        · rfl
      have same := ((identityFlag_iff curPos).mp goesOn).2 index
      simp only [starts, index, false_and, if_false, if_true]
      refine Codes.pure (indices.set ?_)
      rw [same, scanPrev_of_pos origin]
      exact indices (curPos - 1) (by omega)
  · -- a copied index comes from the line before
    obtain ⟨source, earlier, position⟩ := scan_source inside (map.below inside index)
    have copied : tu.runType (p.scan cu.useRotation curPos).x (p.scan cu.useRotation curPos).y =
        .PLT_RUN_COPY := by
      cases type : tu.runType (p.scan cu.useRotation curPos).x (p.scan cu.useRotation curPos).y
      · exact absurd type index
      · rfl
    simp only [index, and_false, if_false]
    refine Codes.pure (indices.set ?_)
    have agrees := indices source earlier
    rw [position] at agrees
    exact agrees.trans (map.copied _ width _ height copied).symm

end Indices

section Groups

variable {p : PLTParams} {cu : CodingUnit} {tu : TransformUnit}

/-- The positions in front of group `subSetId`. -/
def groupBound (p : PLTParams) (subSetId : Nat) : Nat := min (16 * subSetId) (p.height * p.width)

theorem minSubPos_eq {subSetId : Nat} (inside : subSetId < p.numSubsets) (width : 0 < p.width)
    (height : 0 < p.height) :
    PLTParams.minSubPos subSetId = groupBound p subSetId ∧
      p.maxSubPos subSetId = groupBound p (subSetId + 1) ∧
      groupBound p subSetId ≤ groupBound p (subSetId + 1) ∧
      groupBound p (subSetId + 1) ≤ p.height * p.width := by
  have positive : 0 < p.height * p.width := Nat.mul_pos height width
  simp only [PLTParams.numSubsets, LOG2_PALETTE_CG_SIZE, Nat.shiftRight_eq_div_pow,
    Nat.reducePow] at inside
  simp only [PLTParams.minSubPos, PLTParams.maxSubPos, groupBound, LOG2_PALETTE_CG_SIZE,
    Nat.shiftLeft_eq, Nat.reducePow]
  omega

theorem groupBound_numSubsets : groupBound p p.numSubsets = p.height * p.width := by
  simp only [groupBound, PLTParams.numSubsets, LOG2_PALETTE_CG_SIZE, Nat.shiftRight_eq_div_pow,
    Nat.reducePow]
  omega

/-- The run types of a group: read, or none to read with a single index. -/
structure RunsRead (p : PLTParams) (cu : CodingUnit) (tu : TransformUnit) (subSetId : Nat)
    (start : RunState) (runType : Grid PLTRunMode) (st : RunState)
    (acc : RunState × Grid PLTRunMode) : Prop where
  same : acc.1 = st
  several : cu.indexMaxSize > 1 →
    RunInv p cu tu (groupBound p subSetId) (groupBound p (subSetId + 1)) st acc
  single : ¬ cu.indexMaxSize > 1 → st = start ∧ acc.2 = runType

theorem reads_runs (map : ValidMap p cu tu) {subSetId : Nat} (inside : subSetId < p.numSubsets)
    (prevRun : Nat × PLTRunMode) {runType : Grid PLTRunMode}
    (types : Agrees p cu.useRotation (groupBound p subSetId) tu.runType runType) :
    Reads (CABACWriter.codeRuns p cu tu subSetId
        (RunState.start (PLTParams.minSubPos subSetId) prevRun.1 prevRun.2))
      (CABACReader.parseRuns p cu subSetId
        (RunState.start (PLTParams.minSubPos subSetId) prevRun.1 prevRun.2) runType)
      (RunsRead p cu tu subSetId
        (RunState.start (PLTParams.minSubPos subSetId) prevRun.1 prevRun.2) runType) := by
  obtain ⟨least, most, grows, total⟩ := minSubPos_eq inside map.width map.height
  unfold CABACWriter.codeRuns CABACReader.parseRuns PLTParams.subPositions
  by_cases several : cu.indexMaxSize > 1
  · simp only [several, if_true, most, least]
    refine (Codes.range' (RunInv p cu tu (groupBound p subSetId)) ?_ ?_).weaken ?_
    · intro curPos st acc low high inv
      exact reads_run map low (by omega) inv
    · exact ⟨rfl, types, fun start => by simp [RunState.start, start],
        fun k low high => absurd high (by omega)⟩
    · intro st acc inv
      rw [Nat.add_sub_cancel' grows] at inv
      exact ⟨inv.same, fun _ => inv, fun single => absurd several single⟩
  · simp only [several, if_false]
    exact Codes.pure ⟨rfl, fun more => absurd more several, fun _ => ⟨rfl, rfl⟩⟩

/-- With a single index there is nothing to read: every position has it. -/
theorem inferIndex_agrees (map : ValidMap p cu tu) (single : ¬ cu.indexMaxSize > 1)
    {minSubPos : Nat} (prevRun : Nat × PLTRunMode) (acc : Grid PLTRunMode × Grid Nat)
    (types : Agrees p cu.useRotation minSubPos tu.runType acc.1)
    (indices : Agrees p cu.useRotation minSubPos tu.curPLTIdx acc.2) (count : Nat)
    (inside : minSubPos + count ≤ p.height * p.width) :
    Agrees p cu.useRotation (minSubPos + count) tu.runType
        ((List.range' minSubPos count).foldl (CABACReader.inferIndex p cu minSubPos
          (RunState.start minSubPos prevRun.1 prevRun.2)) acc).1 ∧
      Agrees p cu.useRotation (minSubPos + count) tu.curPLTIdx
        ((List.range' minSubPos count).foldl (CABACReader.inferIndex p cu minSubPos
          (RunState.start minSubPos prevRun.1 prevRun.2)) acc).2 := by
  induction count with
  | zero => exact ⟨types, indices⟩
  | succ count ih =>
      obtain ⟨types', indices'⟩ := ih (by omega)
      rw [List.range'_concat, List.foldl_append, List.foldl_cons, List.foldl_nil, Nat.one_mul]
      generalize (List.range' minSubPos count).foldl (CABACReader.inferIndex p cu minSubPos
        (RunState.start minSubPos prevRun.1 prevRun.2)) acc = acc' at *
      obtain ⟨width, height⟩ :=
        scan_inside cu.useRotation (by omega : minSubPos + count < p.height * p.width)
      have zero : ∀ k < p.height * p.width, tu.curPLTIdx (p.scan cu.useRotation k).x
          (p.scan cu.useRotation k).y = 0 := by
        intro k within
        obtain ⟨width, height⟩ := scan_inside cu.useRotation within
        have least := map.index _ width _ height
        omega
      refine ⟨types'.set (map.single (by omega) _ width _ height).symm, indices'.set ?_⟩
      rw [zero _ (by omega)]
      by_cases origin : minSubPos + count = 0
      · rw [if_pos]
        simp only [RunState.start]
        rw [if_pos (by omega)]
      · split
        · rfl
        · rw [scanPrev_of_pos origin, indices' (minSubPos + count - 1) (by omega), zero _ (by omega)]

theorem reads_indices (map : ValidMap p cu tu) (small : cu.indexMaxSize < 2 ^ 31 - 1)
    {subSetId : Nat} (inside : subSetId < p.numSubsets) (prevRun : Nat × PLTRunMode)
    {runType : Grid PLTRunMode}
    (types : Agrees p cu.useRotation (groupBound p subSetId) tu.runType runType)
    {paletteIdx : Grid Nat}
    (indices : Agrees p cu.useRotation (groupBound p subSetId) tu.curPLTIdx paletteIdx)
    {st : RunState} {acc : RunState × Grid PLTRunMode}
    (runs : RunsRead p cu tu subSetId
      (RunState.start (PLTParams.minSubPos subSetId) prevRun.1 prevRun.2) runType st acc) :
    Reads (CABACWriter.codeIndices p cu tu subSetId st)
      (CABACReader.parseIndices p cu subSetId acc.1 acc.2 paletteIdx)
      (fun _ read => Agrees p cu.useRotation (groupBound p (subSetId + 1)) tu.runType read.1 ∧
        Agrees p cu.useRotation (groupBound p (subSetId + 1)) tu.curPLTIdx read.2) := by
  obtain ⟨least, most, grows, total⟩ := minSubPos_eq inside map.width map.height
  unfold CABACWriter.codeIndices CABACReader.parseIndices PLTParams.subPositions
  rw [runs.same]
  by_cases several : cu.indexMaxSize > 1
  · have inv := runs.several several
    simp only [several, if_true, most, least]
    refine Codes.readerMap _ (Codes.range' (fun curPos (_ : Unit) (grid : Grid Nat) =>
      Agrees p cu.useRotation curPos tu.curPLTIdx grid) ?_ indices) ?_
    · intro curPos _ grid low high agrees
      exact reads_index map small several low (by omega) (by omega) inv agrees
    · intro _ grid agrees
      rw [Nat.add_sub_cancel' grows] at agrees
      exact ⟨inv.agrees, agrees⟩
  · obtain ⟨start, grid⟩ := runs.single several
    simp only [several, if_false, most, least, start, grid]
    refine Codes.pure ?_
    have agrees := inferIndex_agrees map several prevRun (runType, paletteIdx) types indices
      (groupBound p (subSetId + 1) - groupBound p subSetId) (by omega)
    rwa [Nat.add_sub_cancel' grows] at agrees

/-- The sample of a subsampled component at a position of the luma scan. -/
def onChromaGrid (p : PLTParams) (comp : Nat) (pos : ScanElement) : Prop :=
  p.compBegin = 0 ∧ comp ≠ 0 ∧ pos.y % 1 <<< p.scaleY = 0 ∧ pos.x % 1 <<< p.scaleX = 0

/-- The escape values of a component agree on the first `bound` positions. -/
def EscapesAgree (p : PLTParams) (cu : CodingUnit) (tu : TransformUnit) (comp bound : Nat)
    (values : Grid Nat) : Prop :=
  ∀ k < bound, tu.curPLTIdx (p.scan cu.useRotation k).x (p.scan cu.useRotation k).y =
      cu.curPLTSize →
    (comp = 0 ∨ p.compBegin ≠ 0 →
      values (p.scan cu.useRotation k).x (p.scan cu.useRotation k).y =
        tu.escapeValue comp (p.scan cu.useRotation k).x (p.scan cu.useRotation k).y) ∧
    (onChromaGrid p comp (p.scan cu.useRotation k) →
      values ((p.scan cu.useRotation k).x >>> p.scaleX) ((p.scan cu.useRotation k).y >>> p.scaleY) =
        tu.escapeValue comp ((p.scan cu.useRotation k).x >>> p.scaleX)
          ((p.scan cu.useRotation k).y >>> p.scaleY))

/-- Assignments of the writer's values keep the agreement. -/
theorem EscapesAgree.of_grows {comp bound : Nat} {values values' : Grid Nat}
    (agrees : EscapesAgree p cu tu comp bound values)
    (grows : ∀ x y, values x y = tu.escapeValue comp x y → values' x y = tu.escapeValue comp x y) :
    EscapesAgree p cu tu comp bound values' :=
  fun k inside escape => ⟨fun own => grows _ _ ((agrees k inside escape).1 own),
    fun chroma => grows _ _ ((agrees k inside escape).2 chroma)⟩

theorem shiftRight_shiftLeft {value scale : Nat} (aligned : value % 1 <<< scale = 0) :
    (value >>> scale) <<< scale = value := by
  rw [Nat.one_shiftLeft] at aligned
  rw [Nat.shiftRight_eq_div_pow, Nat.shiftLeft_eq]
  exact Nat.div_mul_cancel (Nat.dvd_of_mod_eq_zero aligned)

/-- A present escape value is read and stored; an absent one leaves the values. -/
theorem reads_escapeIf {present : Prop} [Decidable present] {comp x y : Nat}
    (depth : p.compBitDepth comp ≤ 16)
    (bound : present → tu.escapeValue comp x y < 1 <<< (p.compBitDepth comp + 1))
    (values : Grid Nat) :
    Reads (CABACWriter.codeEscapeIf present (tu.escapeValue comp x y))
      (CABACReader.parseEscapeIf p present comp x y values)
      (fun _ values' => (present → values' x y = tu.escapeValue comp x y) ∧
        ∀ x' y', values x' y' = tu.escapeValue comp x' y' →
          values' x' y' = tu.escapeValue comp x' y') := by
  unfold CABACWriter.codeEscapeIf CABACReader.parseEscapeIf
  by_cases here : present
  · have fits := bound here
    have wide : 2 ^ (p.compBitDepth comp + 1) ≤ 2 ^ 17 := Nat.pow_le_pow_right (by decide) (by omega)
    rw [if_pos here, if_pos here]
    rw [Nat.one_shiftLeft] at fits ⊢
    refine (reads_expGolomb (by omega)).readerAfter ?_
    rintro _ _ rfl
    refine ⟨values.set x y (tu.escapeValue comp x y), ?_, fun _ => Grid.set_self _ _ _ _,
      fun x' y' => Grid.set_agrees x' y'⟩
    rw [check_pass (not_not.mpr fits), pure_bind]
    exact Accepts.pure _
  · rw [if_neg here, if_neg here]
    exact Codes.pure ⟨fun present => absurd present here, fun _ _ agrees => agrees⟩

theorem reads_escape (entries : ValidEntries p cu) (map : ValidMap p cu tu) {comp curPos : Nat}
    (covered : Covers p comp) (inside : curPos < p.height * p.width) {paletteIdx values : Grid Nat}
    (index : paletteIdx (p.scan cu.useRotation curPos).x (p.scan cu.useRotation curPos).y =
      tu.curPLTIdx (p.scan cu.useRotation curPos).x (p.scan cu.useRotation curPos).y)
    (agrees : EscapesAgree p cu tu comp curPos values) :
    Reads (CABACWriter.codeEscape p cu tu comp curPos)
      (CABACReader.parseEscape p cu paletteIdx comp values curPos)
      (fun _ values' => EscapesAgree p cu tu comp (curPos + 1) values' ∧
        ∀ x y, values x y = tu.escapeValue comp x y → values' x y = tu.escapeValue comp x y) := by
  obtain ⟨width, height⟩ := scan_inside cu.useRotation inside
  have depth : p.compBitDepth comp ≤ 16 := entries.depth _
  unfold CABACWriter.codeEscape CABACReader.parseEscape
  simp only [index]
  by_cases escape : tu.curPLTIdx (p.scan cu.useRotation curPos).x
      (p.scan cu.useRotation curPos).y = cu.curPLTSize
  · simp only [escape, if_true]
    refine Codes.bind (reads_escapeIf depth ?_ values) ?_
    · intro own
      refine map.escape comp covered _ _ ?_
      rw [HasEscape, if_pos own]
      exact ⟨width, height, escape⟩
    rintro _ values₁ ⟨own, grows⟩
    refine (reads_escapeIf depth ?_ values₁).weaken ?_
    · rintro ⟨luma, other, rows, columns⟩
      refine map.escape comp covered _ _ ?_
      rw [HasEscape, if_neg (by omega), shiftRight_shiftLeft rows, shiftRight_shiftLeft columns]
      exact ⟨width, height, escape⟩
    · rintro _ values₂ ⟨chroma, grows'⟩
      refine ⟨fun k upto escape' => ?_, fun x y same => grows' x y (grows x y same)⟩
      by_cases here : k = curPos
      · rw [here]
        exact ⟨fun component => grows' _ _ (own component), chroma⟩
      · exact (agrees.of_grows fun x y same => grows' x y (grows x y same)) k (by omega) escape'
  · simp only [escape, if_false]
    refine Codes.pure ⟨fun k upto escape' => ?_, fun _ _ same => same⟩
    by_cases here : k = curPos
    · rw [here] at escape'
      exact absurd escape' escape
    · exact agrees k (by omega) escape'

theorem reads_escapes (entries : ValidEntries p cu) (map : ValidMap p cu tu) {subSetId : Nat}
    (inside : subSetId < p.numSubsets) {paletteIdx : Grid Nat}
    (indices : Agrees p cu.useRotation (groupBound p (subSetId + 1)) tu.curPLTIdx paletteIdx)
    {values : Nat → Grid Nat}
    (agrees : ∀ comp, Covers p comp →
      EscapesAgree p cu tu comp (groupBound p subSetId) (values comp)) :
    Reads (CABACWriter.codeEscapes p cu tu subSetId)
      (CABACReader.parseEscapes p cu subSetId paletteIdx values)
      (fun _ values' => ∀ comp, Covers p comp →
        EscapesAgree p cu tu comp (groupBound p (subSetId + 1)) (values' comp)) := by
  obtain ⟨least, most, grows, total⟩ := minSubPos_eq inside map.width map.height
  unfold CABACWriter.codeEscapes CABACReader.parseEscapes PLTParams.subPositions
  rw [least, most]
  -- components in front of `comp` are done with this group
  refine (Codes.range' (fun comp (_ : Unit) (values' : Nat → Grid Nat) => ∀ comp', Covers p comp' →
    EscapesAgree p cu tu comp' (if comp' < comp then groupBound p (subSetId + 1)
      else groupBound p subSetId) (values' comp')) ?_ ?_).weaken ?_
  · intro comp _ values₁ low high done
    have before := done comp ⟨low, high⟩
    rw [if_neg (Nat.lt_irrefl comp)] at before
    refine Codes.readerMap _ (Codes.range' (fun curPos (_ : Unit) (grid : Grid Nat) =>
      EscapesAgree p cu tu comp curPos grid) ?_ before) ?_
    · intro curPos _ grid start stop agrees
      exact (reads_escape entries map ⟨low, high⟩ (by omega) (indices curPos (by omega))
        agrees).weaken fun _ _ both => both.1
    · intro _ grid agrees comp' covered
      rw [Nat.add_sub_cancel' grows] at agrees
      by_cases here : comp' = comp
      · subst here
        rw [if_pos (Nat.lt_succ_self comp'), update_self]
        exact agrees
      · rw [update_of_ne here]
        have other := done comp' covered
        have order : comp' < comp + 1 ↔ comp' < comp := by omega
        simpa only [order] using other
  · intro comp covered
    rw [if_neg (Nat.not_lt.mpr covered.1)]
    exact agrees comp covered
  · intro _ values' done comp covered
    have both := done comp covered
    rwa [if_pos covered.2] at both

/-- What both sides know in front of a group. -/
structure GroupInv (p : PLTParams) (cu : CodingUnit) (tu : TransformUnit) (subSetId : Nat)
    (prevRun : Nat × PLTRunMode) (acc : TransformUnit × Nat × PLTRunMode) : Prop where
  run : acc.2 = prevRun
  types : Agrees p cu.useRotation (groupBound p subSetId) tu.runType acc.1.runType
  indices : Agrees p cu.useRotation (groupBound p subSetId) tu.curPLTIdx acc.1.curPLTIdx
  escapes : ∀ comp, Covers p comp →
    EscapesAgree p cu tu comp (groupBound p subSetId) (acc.1.escapeValue comp)

theorem reads_subblock (entries : ValidEntries p cu) (map : ValidMap p cu tu) {subSetId : Nat}
    (inside : subSetId < p.numSubsets) {prevRun : Nat × PLTRunMode}
    {acc : TransformUnit × Nat × PLTRunMode} (inv : GroupInv p cu tu subSetId prevRun acc) :
    Reads (CABACWriter.cuPaletteSubblockInfo p cu tu prevRun subSetId)
      (CABACReader.cuPaletteSubblockInfo p cu acc subSetId)
      (GroupInv p cu tu (subSetId + 1)) := by
  have small : cu.indexMaxSize < 2 ^ 31 - 1 := by
    have most : cu.curPLTSize ≤ 31 := entries.sizeLe
    unfold CodingUnit.indexMaxSize
    split <;> omega
  unfold CABACWriter.cuPaletteSubblockInfo CABACReader.cuPaletteSubblockInfo
  rw [inv.run]
  refine Codes.bind (reads_runs map inside prevRun inv.types) ?_
  intro st runs read
  refine Codes.bind (reads_indices map small inside prevRun inv.types inv.indices read) ?_
  rintro _ ⟨runType, paletteIdx⟩ ⟨types, indices⟩
  refine Codes.bind (reads_escapes entries map inside indices inv.escapes) ?_
  intro _ values agrees
  refine Codes.pure ⟨?_, types, indices, agrees⟩
  rw [← read.same]

/-- The buffers agree on the whole block. -/
structure MapRead (p : PLTParams) (cu : CodingUnit) (tu tu' : TransformUnit) : Prop where
  types : ∀ x < p.width, ∀ y < p.height, tu'.runType x y = tu.runType x y
  indices : ∀ x < p.width, ∀ y < p.height, tu'.curPLTIdx x y = tu.curPLTIdx x y
  escapes : ∀ comp, Covers p comp → ∀ x y, HasEscape p cu tu comp x y →
    tu'.escapeValue comp x y = tu.escapeValue comp x y

theorem Agrees.whole {α : Type} {rotation : Bool} {grid grid' : Grid α}
    (agrees : Agrees p rotation (p.height * p.width) grid grid') :
    ∀ x < p.width, ∀ y < p.height, grid' x y = grid x y := by
  intro x width y height
  obtain ⟨k, inside, position⟩ := scan_covers rotation width height
  have here := agrees k inside
  rwa [position] at here

theorem EscapesAgree.whole {comp : Nat} {values : Grid Nat}
    (agrees : EscapesAgree p cu tu comp (p.height * p.width) values) {x y : Nat}
    (escape : HasEscape p cu tu comp x y) : values x y = tu.escapeValue comp x y := by
  unfold HasEscape at escape
  split at escape
  · rename_i own
    obtain ⟨k, inside, position⟩ := scan_covers cu.useRotation escape.1 escape.2.1
    have here := agrees k inside
    rw [position] at here
    exact (here escape.2.2).1 own
  · rename_i other
    obtain ⟨k, inside, position⟩ := scan_covers cu.useRotation escape.1 escape.2.1
    have here := agrees k inside
    rw [position] at here
    have aligned : ∀ value scale, value <<< scale % 1 <<< scale = 0 := by
      intro value scale
      rw [Nat.one_shiftLeft, Nat.shiftLeft_eq]
      exact Nat.mul_mod_left _ _
    have chroma := (here escape.2.2).2 ⟨by omega, by omega, aligned _ _, aligned _ _⟩
    simpa using chroma

theorem reads_subblocks (entries : ValidEntries p cu) (map : ValidMap p cu tu)
    (tu₀ : TransformUnit) :
    Reads (CABACWriter.codeSubblocks p cu tu) (CABACReader.parseSubblocks p cu tu₀)
      (fun _ tu' => MapRead p cu tu tu') := by
  unfold CABACWriter.codeSubblocks CABACReader.parseSubblocks
  have none : groupBound p 0 = 0 := Nat.zero_min _
  refine Codes.bind (Codes.range' (GroupInv p cu tu) ?_ ⟨rfl, ?_, ?_, ?_⟩) ?_
  · intro subSetId prevRun acc _ high inv
    exact reads_subblock entries map (by omega) inv
  · rw [none]
    exact fun k inside => absurd inside (Nat.not_lt_zero k)
  · rw [none]
    exact fun k inside => absurd inside (Nat.not_lt_zero k)
  · intro comp _
    rw [none]
    exact fun k inside => absurd inside (Nat.not_lt_zero k)
  · intro prevRun acc inv
    rw [Nat.zero_add] at inv
    obtain ⟨_, types, indices, escapes⟩ := inv
    rw [groupBound_numSubsets] at types indices escapes
    exact Codes.pure ⟨types.whole, indices.whole,
      fun comp covered x y escape => (escapes comp covered).whole escape⟩

end Groups

/-- The reader has rebuilt the coding unit, with the quantizer elements that were
coded. -/
structure SamePalette (p : PLTParams) (cu : CodingUnit) (tu : TransformUnit) (cuCtx : CUCtx)
    (cu' : CodingUnit) (tu' : TransformUnit) : Prop where
  palette : PaletteRead p cu cu'
  escape : cu'.useEscape = cu.useEscape
  rotation : cu'.useRotation = cu.useRotation
  map : MapRead p cu tu tu'
  qp : CABACWriter.codesDQP p cu cuCtx = true → cu'.qp = cu.qp
  chroma : CABACWriter.codesChromaQp p cu cuCtx = true → cu'.chromaQpAdj = cu.chromaQpAdj

/-- What `cu_palette_info` writes, `cu_palette_info` reads bin by bin with the same
contexts, to the same unit and the same `CUCtx`; the reader starts from a unit
without reuse flags. -/
def ReadsBack (p : PLTParams) (cu : CodingUnit) (tu : TransformUnit) (cuCtx : CUCtx) : Prop :=
  ∃ bins cuCtx', CABACWriter.cuPaletteInfo p cu tu cuCtx [] = .ok (cuCtx', bins) ∧
    ∀ cu₀ tu₀ rest, (∀ k, cu₀.reuseflag k = false) → ∃ cu' tu',
      CABACReader.cuPaletteInfo p cu₀ tu₀ cuCtx (bins ++ rest) = .ok ((cu', tu', cuCtx'), rest) ∧
        SamePalette p cu tu cuCtx cu' tu'

/-- The writer codes a chroma quantizer offset that the reader does not expect: in
the luma tree of a block whose trees are separate only locally. -/
def ChromaQpLost (p : PLTParams) (cu : CodingUnit) (cuCtx : CUCtx) : Prop :=
  cu.useEscape = true ∧ p.useChromaQpAdj = true ∧ cuCtx.isChromaQpAdjCoded = false ∧
    p.treeType ≠ .TREE_D ∧ p.isDualITree = false ∧ p.chType = .CHANNEL_TYPE_LUMA

section Whole

variable {p : PLTParams} {cu : CodingUnit} {tu : TransformUnit} {cuCtx : CUCtx}

/-- The sub-block loops use three members of the unit. -/
theorem parseSubblocks_congr {cu' : CodingUnit} (size : cu'.curPLTSize = cu.curPLTSize)
    (escape : cu'.useEscape = cu.useEscape) (rotation : cu'.useRotation = cu.useRotation)
    (tu₀ : TransformUnit) :
    CABACReader.parseSubblocks p cu' tu₀ = CABACReader.parseSubblocks p cu tu₀ := by
  cases cu
  cases cu'
  cases size
  cases escape
  cases rotation
  rfl

theorem reads_dqp (valid : ValidQp p cu cuCtx) {cu₁ : CodingUnit}
    (escape : cu₁.useEscape = cu.useEscape) :
    Reads (CABACWriter.codeDQP p cu cuCtx) (CABACReader.parseDQP p cu₁ cuCtx)
      (fun cuCtx' read => read.2 = cuCtx' ∧ cuCtx'.isChromaQpAdjCoded = cuCtx.isChromaQpAdjCoded ∧
        read.1 = { cu₁ with qp := read.1.qp } ∧
        (CABACWriter.codesDQP p cu cuCtx = true → read.1.qp = cu.qp)) := by
  have same : CABACReader.parsesDQP p cu₁ cuCtx = CABACWriter.codesDQP p cu cuCtx := by
    simp only [CABACReader.parsesDQP, CABACWriter.codesDQP, escape]
  unfold CABACWriter.codeDQP CABACReader.parseDQP
  rw [same]
  cases coded : CABACWriter.codesDQP p cu cuCtx with
  | true =>
      simp only [if_true]
      refine Codes.bind (reads_cuQpDelta valid.range) ?_
      rintro _ _ rfl
      exact Codes.pure ⟨rfl, rfl, rfl, fun _ => rfl⟩
  | false =>
      simp only [Bool.false_eq_true, if_false]
      exact Codes.pure ⟨rfl, rfl, rfl, fun coded => nomatch coded⟩

/-- The two presence conditions differ only in the lost case. -/
theorem parsesChromaQp_eq (kept : ¬ ChromaQpLost p cu cuCtx) {cu₁ : CodingUnit}
    (escape : cu₁.useEscape = cu.useEscape) :
    CABACReader.parsesChromaQp p cu₁ cuCtx = CABACWriter.codesChromaQp p cu cuCtx := by
  simp only [ChromaQpLost, not_and] at kept
  simp only [CABACReader.parsesChromaQp, CABACWriter.codesChromaQp, escape, PLTParams.isSepTree,
    PLTParams.isChroma]
  cases useEscape : cu.useEscape <;> cases useChroma : p.useChromaQpAdj <;>
    cases coded : cuCtx.isChromaQpAdjCoded <;> cases dual : p.isDualITree <;>
    cases tree : p.treeType <;> cases channel : p.chType <;> simp_all

theorem reads_chromaQp (valid : ValidQp p cu cuCtx) {cuCtx₁ : CUCtx} {cu₁ : CodingUnit}
    (present : CABACReader.parsesChromaQp p cu₁ cuCtx₁ = CABACWriter.codesChromaQp p cu cuCtx₁) :
    Reads (CABACWriter.codeChromaQp p cu cuCtx₁) (CABACReader.parseChromaQp p cu₁ cuCtx₁)
      (fun cuCtx' read => read.2 = cuCtx' ∧
        read.1 = { cu₁ with chromaQpAdj := read.1.chromaQpAdj } ∧
        (CABACWriter.codesChromaQp p cu cuCtx₁ = true →
          read.1.chromaQpAdj = cu.chromaQpAdj)) := by
  unfold CABACWriter.codeChromaQp CABACReader.parseChromaQp
  rw [present]
  cases coded : CABACWriter.codesChromaQp p cu cuCtx₁ with
  | true =>
      simp only [if_true]
      refine Codes.bind (reads_chromaQpOffset valid) ?_
      rintro _ _ rfl
      exact Codes.pure ⟨rfl, rfl, fun _ => rfl⟩
  | false =>
      simp only [Bool.false_eq_true, if_false]
      exact Codes.pure ⟨rfl, rfl, fun coded => nomatch coded⟩

theorem reads_cuPaletteInfo (entries : ValidEntries p cu) (map : ValidMap p cu tu)
    (valid : ValidQp p cu cuCtx) (kept : ¬ ChromaQpLost p cu cuCtx) {cu₀ : CodingUnit}
    (unset : ∀ k, cu₀.reuseflag k = false) (tu₀ : TransformUnit) :
    Reads (CABACWriter.cuPaletteInfo p cu tu cuCtx) (CABACReader.cuPaletteInfo p cu₀ tu₀ cuCtx)
      (fun cuCtx' read => read.2.2 = cuCtx' ∧ SamePalette p cu tu cuCtx read.1 read.2.1) := by
  unfold CABACWriter.cuPaletteInfo CABACReader.cuPaletteInfo
  refine Codes.bind (reads_palette entries unset) ?_
  intro _ cu₁ palette
  refine Codes.bind (reads_flags map palette.size) ?_
  rintro _ _ rfl
  refine Codes.bind (reads_dqp valid rfl) ?_
  rintro _ ⟨cu₂, cuCtx₁⟩ ⟨rfl, coded, cu₂Eq, qp⟩
  simp only at cu₂Eq qp coded
  have kept₁ : ¬ ChromaQpLost p cu cuCtx₁ := by
    unfold ChromaQpLost at kept ⊢
    rwa [coded]
  have escape : cu₂.useEscape = cu.useEscape := by rw [cu₂Eq]
  refine Codes.bind (reads_chromaQp valid (parsesChromaQp_eq kept₁ escape)) ?_
  rintro _ ⟨cu₃, cuCtx₂⟩ ⟨rfl, cu₃Eq, chroma⟩
  simp only at cu₃Eq chroma
  have size : cu₃.curPLTSize = cu.curPLTSize := by
    rw [cu₃Eq, cu₂Eq]
    exact palette.size
  have escape₃ : cu₃.useEscape = cu.useEscape := by rw [cu₃Eq, cu₂Eq]
  have rotation : cu₃.useRotation = cu.useRotation := by rw [cu₃Eq, cu₂Eq]
  show Reads _ (CABACReader.parseSubblocks p cu₃ tu₀ >>= fun tu' => pure (cu₃, tu', cuCtx₂)) _
  rw [parseSubblocks_congr size escape₃ rotation]
  refine Codes.bind (reads_subblocks entries map tu₀) ?_
  intro _ tu' mapRead
  refine Codes.pure ⟨rfl, ⟨?_, size, ?_, ?_⟩, escape₃, rotation, mapRead, ?_, ?_⟩
  · rw [cu₃Eq, cu₂Eq]
    exact palette.last
  · rw [cu₃Eq, cu₂Eq]
    exact palette.flags
  · rw [cu₃Eq, cu₂Eq]
    exact palette.entries
  · rw [cu₃Eq]
    exact qp
  · intro present
    refine chroma ?_
    rw [← present]
    simp only [CABACWriter.codesChromaQp, coded]

end Whole

section Lost

/-- Every bin but the chroma offset flag. -/
def Other (bin : Bin) : Prop := ∀ value, bin ≠ .ctx ⟨.ChromaQpAdjFlag, 0⟩ value

theorem takes_bin {ctxId : Ctx} (other : ctxId.set ≠ .ChromaQpAdjFlag) :
    Takes Other (CABACReader.decodeBin ctxId) := by
  intro bins value rest run
  match bins with
  | .ctx id bin :: tail =>
      simp only [CABACReader.decodeBin] at run
      split at run
      · rename_i same
        cases run
        refine ⟨[.ctx id value], rfl, ?_⟩
        intro token member value' equal
        rw [List.mem_singleton.mp member] at equal
        cases equal
        exact other (by rw [← same])
      · cases run
  | .ep bin :: tail => cases run
  | [] => cases run

theorem takes_binEP : Takes Other CABACReader.decodeBinEP := by
  intro bins value rest run
  match bins with
  | .ctx id bin :: tail => cases run
  | .ep bin :: tail =>
      cases run
      refine ⟨[.ep value], rfl, ?_⟩
      intro token member value' equal
      rw [List.mem_singleton.mp member] at equal
      cases equal
  | [] => cases run

theorem takes_binsEP (numBins : Nat) : Takes Other (CABACReader.decodeBinsEP numBins) := by
  have below : ∀ value, Takes Other (CABACReader.decodeBelow value numBins) := by
    induction numBins with
    | zero => exact fun value => Takes.pure value
    | succ numBins ih => exact fun value => takes_binEP.bind fun bin => ih _
  exact below 0

theorem takes_expGolomb (count : Nat) : Takes Other (CABACReader.expGolombEqprob count) := by
  have front : ∀ fuel symbol count,
      Takes Other (CABACReader.expGolombPrefix fuel symbol count) := by
    intro fuel
    induction fuel with
    | zero => exact fun symbol count => Takes.error _
    | succ fuel ih =>
        exact fun symbol count => takes_binEP.bind fun bit => (ih _ _).ite (Takes.pure _)
  refine (front _ _ _).bind fun ⟨symbol, count⟩ => Takes.ite ?_ (Takes.pure _)
  exact (takes_binsEP _).bind fun bins => Takes.pure _

theorem takes_unaryMax {ctxId0 ctxIdN : Ctx} (other0 : ctxId0.set ≠ .ChromaQpAdjFlag)
    (otherN : ctxIdN.set ≠ .ChromaQpAdjFlag) (maxSymbol : Nat) :
    Takes Other (CABACReader.unaryMaxSymbol ctxId0 ctxIdN maxSymbol) := by
  have loop : ∀ left onesRead,
      Takes Other (CABACReader.unaryMaxLoop ctxId0 ctxIdN left onesRead) := by
    intro left
    induction left with
    | zero => exact fun onesRead => Takes.pure onesRead
    | succ left ih =>
        refine fun onesRead => (takes_bin ?_).bind fun bin => (ih _).ite (Takes.pure _)
        split
        · exact other0
        · exact otherN
  exact loop maxSymbol 0

theorem takes_truncBinCode (maxSymbol : Nat) :
    Takes Other (CABACReader.xReadTruncBinCode maxSymbol) := by
  refine (Takes.check _ _).bind fun _ => ?_
  refine (takes_binsEP _).bind fun symbol => Takes.ite ?_ (Takes.pure _)
  exact takes_binEP.bind fun altSymbol => Takes.pure _

variable {p : PLTParams} {cu : CodingUnit} {cuCtx : CUCtx}

theorem takes_predIndicator (lastPLTSize : Nat) (reuseflag : Nat → Bool) :
    Takes Other (CABACReader.parsePredIndicator lastPLTSize reuseflag) := by
  have loop : ∀ fuel symbol idx num flags, Takes Other
      (CABACReader.predLoop lastPLTSize MAXPLTSIZE fuel symbol idx num flags) := by
    intro fuel
    induction fuel with
    | zero => exact fun symbol idx num flags => Takes.pure flags
    | succ fuel ih =>
        refine fun symbol idx num flags => Takes.ite (Takes.bind ?_ fun symbol => ?_) (Takes.pure _)
        · exact (takes_expGolomb 0).ite (Takes.pure _)
        · exact (Takes.pure _).ite (ih _ _ _ _)
  refine Takes.ite ?_ (Takes.pure _)
  exact (takes_expGolomb 0).bind fun symbol => (loop _ _ _ _ _).ite (Takes.pure _)

theorem takes_palette (cu : CodingUnit) : Takes Other (CABACReader.parsePalette p cu) := by
  refine (takes_predIndicator _ _).bind fun reuseflag => ?_
  refine Takes.bind ((takes_expGolomb 0).ite (Takes.pure _)) fun recievedPLTnum => ?_
  refine Takes.bind (Takes.foldlM (fun grid comp => ?_) _ _) fun curPLT => Takes.pure _
  exact Takes.foldlM (fun grid idx => (takes_binsEP _).bind fun entry => Takes.pure _) _ _

theorem takes_flags (cu : CodingUnit) : Takes Other (CABACReader.parseFlags cu) := by
  refine Takes.bind (takes_binEP.ite (Takes.pure _)) fun useEscape => ?_
  exact Takes.bind ((takes_bin (by decide)).ite (Takes.pure _)) fun useRotation => Takes.pure _

theorem takes_dqp (cu : CodingUnit) (cuCtx : CUCtx) :
    Takes Other (CABACReader.parseDQP p cu cuCtx) := by
  refine Takes.ite (Takes.bind ?_ fun qp => Takes.pure _) (Takes.pure _)
  refine (takes_unaryMax (by decide) (by decide) _).bind fun DQp => ?_
  refine Takes.bind (Takes.ite ?_ (Takes.pure _)) fun DQp =>
    Takes.bind (Takes.ite ?_ (Takes.pure _)) fun qpY => Takes.pure _
  · exact (takes_expGolomb _).bind fun suffix => Takes.pure _
  · exact takes_binEP.bind fun negative => Takes.pure _

theorem takes_runs (subSetId : Nat) (st : RunState) (runType : Grid PLTRunMode) :
    Takes Other (CABACReader.parseRuns p cu subSetId st runType) := by
  refine Takes.ite (Takes.foldlM (fun acc curPos => ?_) _ _) (Takes.pure _)
  refine Takes.bind (Takes.ite ?_ (Takes.pure _)) fun ⟨flag, st⟩ => Takes.ite ?_ (Takes.pure _)
  · refine (takes_bin ?_).bind fun flag => Takes.pure _
    unfold RunState.copyFlagCtx
    split <;> simp
  · refine Takes.bind ?_ fun type => Takes.pure _
    refine (Takes.pure _).ite ((Takes.pure _).ite ?_)
    exact (takes_bin (by decide)).bind fun copy => Takes.pure _

theorem takes_refLevel (runType : Grid PLTRunMode) (paletteIdx : Grid Nat) (maxSymbol idx : Nat) :
    Takes Other (refLevel p cu runType paletteIdx maxSymbol idx) := by
  refine (Takes.pure _).ite (Takes.ite ?_ ?_)
  · exact (Takes.check _ _).bind fun _ => Takes.pure _
  · exact (Takes.check _ _).bind fun _ => Takes.pure _

theorem takes_indices (subSetId : Nat) (st : RunState) (runType : Grid PLTRunMode)
    (paletteIdx : Grid Nat) :
    Takes Other (CABACReader.parseIndices p cu subSetId st runType paletteIdx) := by
  refine Takes.ite (Takes.bind (Takes.foldlM (fun grid curPos => ?_) _ _) fun grid => Takes.pure _)
    (Takes.pure _)
  refine Takes.ite ?_ ((Takes.pure _).ite (Takes.pure _))
  refine (takes_truncBinCode _).bind fun symbol => Takes.bind ?_ fun level => Takes.pure _
  exact (takes_refLevel _ _ _ _).ite (Takes.pure _)

theorem takes_escapeIf {present : Prop} [Decidable present] (comp x y : Nat) (values : Grid Nat) :
    Takes Other (CABACReader.parseEscapeIf p present comp x y values) := by
  refine Takes.ite ?_ (Takes.pure _)
  exact (takes_expGolomb 3).bind fun value => (Takes.check _ _).bind fun _ => Takes.pure _

theorem takes_subblocks (tu : TransformUnit) : Takes Other (CABACReader.parseSubblocks p cu tu) := by
  refine Takes.bind (Takes.foldlM (fun acc subSetId => ?_) _ _) fun ⟨tu, run⟩ => Takes.pure _
  refine (takes_runs _ _ _).bind fun ⟨st, runType⟩ => ?_
  refine (takes_indices _ _ _ _).bind fun ⟨runType, curPLTIdx⟩ => ?_
  refine Takes.bind (Takes.foldlM (fun values comp => ?_) _ _) fun values => Takes.pure _
  refine Takes.bind (Takes.foldlM (fun grid curPos => ?_) _ _) fun grid => Takes.pure _
  refine Takes.ite ?_ (Takes.pure _)
  exact (takes_escapeIf _ _ _ _).bind fun values => takes_escapeIf _ _ _ _

/-- In the luma tree of separate trees the reader takes no chroma offset flag. -/
theorem takes_cuPaletteInfo (separate : p.isSepTree = true) (luma : p.isChroma = false)
    (cu : CodingUnit) (tu : TransformUnit) :
    Takes Other (CABACReader.cuPaletteInfo p cu tu cuCtx) := by
  refine (takes_palette cu).bind fun cu => (takes_flags cu).bind fun cu => ?_
  refine (takes_dqp cu cuCtx).bind fun read => Takes.bind ?_ fun read' => ?_
  · unfold CABACReader.parseChromaQp CABACReader.parsesChromaQp
    rw [separate, luma]
    simp only [Bool.not_true, Bool.or_self, Bool.and_false, Bool.false_eq_true, if_false]
    exact Takes.pure _
  · exact (takes_subblocks tu).bind fun tu => Takes.pure _

variable {tu : TransformUnit}

/-- What the writer appends for a chroma offset starts with its flag. -/
theorem cuChromaQpOffset_flag (valid : ValidQp p cu cuCtx) (bins : List Bin) :
    ∃ flag tail, CABACWriter.cuChromaQpOffset p cu bins =
      .ok ((), bins ++ .ctx ⟨.ChromaQpAdjFlag, 0⟩ flag :: tail) := by
  unfold CABACWriter.cuChromaQpOffset
  by_cases off : cu.chromaQpAdj = 0
  · rw [if_pos off]
    exact ⟨false, [], rfl⟩
  · rw [if_neg off]
    unfold CABACWriter.codeChromaQpIdx
    by_cases several : p.chromaQpOffsetListLen > 1
    · have bound := valid.chroma
      have byte := valid.chromaByte
      obtain ⟨never, _⟩ | ⟨_, bins', tail, _, run, _, appended, _⟩ :=
        reads_unaryMax (by omega : cu.chromaQpAdj - 1 ≤ p.chromaQpOffsetListLen - 1) (by omega)
          ⟨.ChromaQpAdjIdc, 0⟩ ⟨.ChromaQpAdjIdc, 0⟩
          (bins ++ [.ctx ⟨.ChromaQpAdjFlag, 0⟩ true]) trivial
      · exact never.elim
      · refine ⟨true, tail, ?_⟩
        rw [if_pos several]
        refine (bind_run rfl).trans (run.trans ?_)
        have whole : bins' = bins ++ [.ctx ⟨.ChromaQpAdjFlag, 0⟩ true] ++ tail := appended
        rw [whole, List.append_assoc]
        rfl
    · rw [if_neg several]
      exact ⟨true, [], rfl⟩

/-- In the lost case the flag is among the bins of the unit. -/
theorem flag_mem_of_lost (entries : ValidEntries p cu) (map : ValidMap p cu tu)
    (valid : ValidQp p cu cuCtx) (lost : ChromaQpLost p cu cuCtx) {cuCtx' : CUCtx} {bins : List Bin}
    (written : CABACWriter.cuPaletteInfo p cu tu cuCtx [] = .ok (cuCtx', bins)) :
    ∃ flag, Bin.ctx ⟨.ChromaQpAdjFlag, 0⟩ flag ∈ bins := by
  let blank : CodingUnit :=
    { lastPLTSize := 0, reuseflag := fun _ => false, reusePLTSize := 0, curPLTSize := cu.curPLTSize,
      curPLT := fun _ _ => 0, useEscape := cu.useEscape, useRotation := false, qp := 0,
      chromaQpAdj := 0 }
  -- every stage runs, whatever the reader would do
  obtain ⟨never, _⟩ | ⟨_, bins₁, _, _, run₁, _⟩ :=
    reads_palette entries (fun _ => rfl : ∀ k, blank.reuseflag k = false) [] trivial
  · exact never.elim
  obtain ⟨never, _⟩ | ⟨_, bins₂, _, _, run₂, _⟩ :=
    reads_flags map (rfl : blank.curPLTSize = cu.curPLTSize) bins₁ trivial
  · exact never.elim
  obtain ⟨never, _⟩ | ⟨cuCtx₁, bins₃, _, _, run₃, _, _, ⟨_, coded, _⟩, _⟩ :=
    reads_dqp valid (rfl : blank.useEscape = cu.useEscape) bins₂ trivial
  · exact never.elim
  have present : CABACWriter.codesChromaQp p cu cuCtx₁ = true := by
    obtain ⟨escape, enabled, first, _, single, _⟩ := lost
    simp [CABACWriter.codesChromaQp, escape, enabled, coded, first, single]
  obtain ⟨flag, tail, run₄⟩ := cuChromaQpOffset_flag valid bins₃
  have run₄' : CABACWriter.codeChromaQp p cu cuCtx₁ bins₃ =
      .ok ({ cuCtx₁ with isChromaQpAdjCoded := true },
        bins₃ ++ .ctx ⟨.ChromaQpAdjFlag, 0⟩ flag :: tail) := by
    unfold CABACWriter.codeChromaQp
    rw [if_pos present, bind_run run₄]
    rfl
  obtain ⟨never, _⟩ | ⟨_, bins₅, rest, _, run₅, _, appended, _⟩ :=
    reads_subblocks entries map tu (bins₃ ++ .ctx ⟨.ChromaQpAdjFlag, 0⟩ flag :: tail) trivial
  · exact never.elim
  have total : CABACWriter.cuPaletteInfo p cu tu cuCtx [] =
      .ok ({ cuCtx₁ with isChromaQpAdjCoded := true }, bins₅) := by
    unfold CABACWriter.cuPaletteInfo
    rw [bind_run run₁, bind_run run₂, bind_run run₃, bind_run run₄', bind_run run₅]
    rfl
  rw [total] at written
  cases written
  have whole : bins = bins₃ ++ .ctx ⟨.ChromaQpAdjFlag, 0⟩ flag :: tail ++ rest := appended
  exact ⟨flag, by simp [whole]⟩

theorem not_readsBack_of_lost (entries : ValidEntries p cu) (map : ValidMap p cu tu)
    (valid : ValidQp p cu cuCtx) (lost : ChromaQpLost p cu cuCtx) : ¬ ReadsBack p cu tu cuCtx := by
  rintro ⟨bins, cuCtx', written, reads⟩
  obtain ⟨flag, member⟩ := flag_mem_of_lost entries map valid lost written
  obtain ⟨cu', tu', run, _⟩ := reads { cu with reuseflag := fun _ => false } tu [] fun _ => rfl
  obtain ⟨_, _, _, tree, single, luma⟩ := lost
  have separate : p.isSepTree = true := by simp [PLTParams.isSepTree, tree]
  have notChroma : p.isChroma = false := by simp [PLTParams.isChroma, luma]
  obtain ⟨taken, whole, others⟩ := takes_cuPaletteInfo separate notChroma _ _ _ _ _ run
  rw [List.append_nil, List.append_nil] at whole
  exact others _ (whole ▸ member) flag rfl

theorem readsBack_of_kept (entries : ValidEntries p cu) (map : ValidMap p cu tu)
    (valid : ValidQp p cu cuCtx) (kept : ¬ ChromaQpLost p cu cuCtx) : ReadsBack p cu tu cuCtx := by
  obtain ⟨never, _⟩ | ⟨cuCtx', bins, _, _, written, _⟩ :=
    reads_cuPaletteInfo entries map valid kept
      (fun _ => rfl : ∀ k, ({ cu with reuseflag := fun _ => false } : CodingUnit).reuseflag k = false)
      tu [] trivial
  · exact never.elim
  refine ⟨bins, cuCtx', written, fun cu₀ tu₀ rest unset => ?_⟩
  obtain ⟨tokens, ⟨cu', tu', _⟩, _, appended, ⟨rfl, same⟩, accepts⟩ :=
    (reads_cuPaletteInfo entries map valid kept unset tu₀).of_run trivial written
  have whole : bins = tokens := appended
  obtain ⟨left, run, _, behind⟩ := accepts (bins ++ rest) rest trivial (by rw [whole]; rfl)
  have last : left = rest := behind
  exact ⟨cu', tu', by rw [run, last], same⟩

/-- What `cu_palette_info` writes for a valid unit is read back exactly when no
chroma quantizer offset is lost. -/
theorem readsBack_iff (entries : ValidEntries p cu) (map : ValidMap p cu tu)
    (valid : ValidQp p cu cuCtx) : ReadsBack p cu tu cuCtx ↔ ¬ ChromaQpLost p cu cuCtx := by
  constructor
  · exact fun reads lost => not_readsBack_of_lost entries map valid lost reads
  · exact readsBack_of_kept entries map valid

end Lost

/-- An 8x8 unit in the tree of the given type, with all quantizer elements on. -/
@[grind =] def sampleParams (treeType : TreeType) : PLTParams :=
  { width := 8, height := 8, treeType, chType := .CHANNEL_TYPE_LUMA, isDualITree := false,
    bitDepth := fun _ => 8, qpBDOffset := 0, scaleX := 1, scaleY := 1, useDQP := true,
    useChromaQpAdj := true, chromaQpOffsetListLen := 2, prevPLTSize := 2,
    prevPLT := fun comp idx => 16 * comp + idx }

/-- The second predictor entry reused, no new one, and escape. -/
def sampleUnit : CodingUnit :=
  { lastPLTSize := 2, reuseflag := fun idx => idx = 1, reusePLTSize := 1, curPLTSize := 1,
    curPLT := fun comp _ => 16 * comp + 1, useEscape := true, useRotation := false, qp := 30,
    chromaQpAdj := 2 }

/-- Columns of the entry and of escape in turn, copied from the first line on. -/
def sampleMap : TransformUnit :=
  { runType := fun _ y => if y = 0 then .PLT_RUN_INDEX else .PLT_RUN_COPY
    curPLTIdx := fun x _ => x % 2, escapeValue := fun comp x y => comp + x + 8 * y }

def sampleCtx : CUCtx := { qp := 26, isDQPCoded := false, isChromaQpAdjCoded := false }

theorem sample_entries (treeType : TreeType) :
    ValidEntries (sampleParams treeType) sampleUnit where
  depth := by simp [sampleParams]
  last := rfl
  lastLe := by decide
  reusedLe := by decide
  reusedSize := by decide
  sizeGe := by decide
  sizeLe := by decide
  reused := by
    intro idx _ reused comp _
    have one : idx = 1 := by simpa [sampleUnit] using reused
    subst one
    rfl
  fits := by
    intro comp _ idx low high
    exact absurd low (Nat.not_le.mpr high)

theorem sample_map (treeType : TreeType) :
    ValidMap (sampleParams treeType) sampleUnit sampleMap where
  width := Nat.succ_pos 7
  height := Nat.succ_pos 7
  rotation := fun _ => rfl
  index := fun x _ y _ => Nat.mod_lt x (by decide)
  single := fun single => absurd single (by decide)
  firstLine := by
    rintro x _ y _ (⟨first, _⟩ | ⟨_, rotated⟩)
    · exact if_pos first
    · cases rotated
  copied := fun _ _ _ _ _ => rfl
  starts := by
    -- behind a copied run the scan has left the first line
    intro curPos _ inside index copied
    have before : ¬ onFirstLine false ((sampleParams treeType).scan false (curPos - 1)) := by
      rintro (⟨first, _⟩ | ⟨_, rotated⟩)
      · exact absurd ((if_pos first).symm.trans copied) (by decide)
      · cases rotated
    have here := scan_below inside before
    have low : ((sampleParams treeType).scan false curPos).y ≠ 0 :=
      fun first => here (Or.inl ⟨first, rfl⟩)
    exact absurd ((if_neg low).symm.trans index) (by decide)
  escape := by
    intro comp covered x y escape
    have three : (sampleParams treeType).numComp ≤ 3 := by
      unfold PLTParams.numComp
      split
      · split <;> decide
      · decide
    have first : (sampleParams treeType).compBegin = 0 := by
      simp [PLTParams.compBegin, PLTParams.isChroma, sampleParams]
    have most : comp < 3 := by
      have upper := covered.2
      omega
    have column : x < 8 ∧ y < 8 := by
      unfold HasEscape at escape
      simp only [sampleParams, Nat.shiftLeft_eq] at escape
      split at escape <;> omega
    show comp + x + 8 * y < 1 <<< 9
    rw [Nat.one_shiftLeft]
    omega

theorem sample_qp (treeType : TreeType) :
    ValidQp (sampleParams treeType) sampleUnit sampleCtx := by
  constructor <;> simp [sampleParams, sampleUnit, sampleCtx, MAX_QP]

theorem readsBack_iff_singleTree :
    ReadsBack (sampleParams .TREE_D) sampleUnit sampleMap sampleCtx ∧
      ¬ ChromaQpLost (sampleParams .TREE_D) sampleUnit sampleCtx := by
  have kept : ¬ ChromaQpLost (sampleParams .TREE_D) sampleUnit sampleCtx :=
    fun lost => lost.2.2.2.1 rfl
  exact ⟨(readsBack_iff (sample_entries _) (sample_map _) (sample_qp _)).mpr kept, kept⟩

/-- The luma tree of a local separate tree: the flag is written and not read. -/
theorem localTree_not_readsBack :
    ValidEntries (sampleParams .TREE_L) sampleUnit ∧
      ValidMap (sampleParams .TREE_L) sampleUnit sampleMap ∧
      ValidQp (sampleParams .TREE_L) sampleUnit sampleCtx ∧
      ¬ ReadsBack (sampleParams .TREE_L) sampleUnit sampleMap sampleCtx := by
  have lost : ChromaQpLost (sampleParams .TREE_L) sampleUnit sampleCtx :=
    ⟨rfl, rfl, rfl, by decide, rfl, rfl⟩
  exact ⟨sample_entries _, sample_map _, sample_qp _,
    not_readsBack_of_lost (sample_entries _) (sample_map _) (sample_qp _) lost⟩

end Vtm.RoundTrip.Palette

/-!
## The binarizations together

The helpers of the symbol coder whose parameters are only known at run time: unary
codes, exponential Golomb codes, truncated binary codes and the quantizer difference.
-/

namespace Vtm.Bin

open Vtm.Std Vtm.RoundTrip.Palette

/-- The bins that the writer appends, whatever stands before. -/
def Writes (w : BinWriter Unit) (code : List Bin) : Prop := ∀ bins, w bins = .ok ((), bins ++ code)

/-- The bins of `xWriteTruncBinCode`. -/
def truncBinCode (symbol maxSymbol : Nat) : List Bin :=
  match CABACWriter.xWriteTruncBinCode symbol maxSymbol [] with
  | .ok (_, bins) => bins
  | .error _ => []

theorem truncBinCode_spec {symbol maxSymbol : Nat} (fits : symbol < maxSymbol)
    (word : maxSymbol < 2 ^ 31) :
    Writes (CABACWriter.xWriteTruncBinCode symbol maxSymbol) (truncBinCode symbol maxSymbol) ∧
      ((truncBinCode symbol maxSymbol).length = Nat.log2 maxSymbol ∨
        (truncBinCode symbol maxSymbol).length = Nat.log2 maxSymbol + 1) ∧
      Accepts view (CABACReader.xReadTruncBinCode maxSymbol) (truncBinCode symbol maxSymbol)
        symbol := by
  obtain ⟨code, writes, length, accepts⟩ := xWriteTruncBinCode_code fits word
  have same : truncBinCode symbol maxSymbol = code := by
    rw [truncBinCode, writes]
    rfl
  rw [same]
  exact ⟨writes, length, accepts⟩

/-- No code word of the alphabet leads another one. -/
theorem truncBinCode_prefix_free {symbol other maxSymbol : Nat} (fits : symbol < maxSymbol)
    (otherFits : other < maxSymbol) (word : maxSymbol < 2 ^ 31)
    (lead : truncBinCode symbol maxSymbol <+: truncBinCode other maxSymbol) : symbol = other :=
  (truncBinCode_spec fits word).2.2.eq_of_commonStart (truncBinCode_spec otherFits word).2.2 lead

/-- Every helper is read back over its whole range, and the truncated binary code has
code words of two neighbouring lengths, none of which leads another. -/
theorem binarizations_round_trip :
    (∀ (symbol maxSymbol : Nat) (ctxId0 ctxIdN : Ctx), 1 ≤ maxSymbol → symbol ≤ maxSymbol →
      symbol < 2 ^ 32 - 1 →
        Reads (CABACWriter.unaryMaxSymbol symbol ctxId0 ctxIdN maxSymbol)
          (CABACReader.unaryMaxSymbol ctxId0 ctxIdN maxSymbol) (fun _ value => value = symbol)) ∧
    (∀ symbol maxSymbol : Nat, 1 ≤ maxSymbol → maxSymbol ≤ 32 → symbol ≤ maxSymbol →
      Reads (CABACWriter.unaryMaxEqprob symbol maxSymbol) (CABACReader.unaryMaxEqprob maxSymbol)
        (fun _ value => value = symbol)) ∧
    (∀ symbol count : Nat, symbol + 2 ^ count < 2 ^ 31 →
      Reads (CABACWriter.expGolombEqprob symbol count) (CABACReader.expGolombEqprob count)
        (fun _ value => value = symbol)) ∧
    (∀ maxSymbol : Nat, 1 ≤ maxSymbol → maxSymbol < 2 ^ 31 →
      (∀ symbol < maxSymbol,
        Writes (CABACWriter.xWriteTruncBinCode symbol maxSymbol) (truncBinCode symbol maxSymbol) ∧
          ((truncBinCode symbol maxSymbol).length = Nat.log2 maxSymbol ∨
            (truncBinCode symbol maxSymbol).length = Nat.log2 maxSymbol + 1) ∧
          Accepts view (CABACReader.xReadTruncBinCode maxSymbol) (truncBinCode symbol maxSymbol)
            symbol) ∧
      ∀ symbol < maxSymbol, ∀ other < maxSymbol,
        truncBinCode symbol maxSymbol <+: truncBinCode other maxSymbol → symbol = other) ∧
    (∀ (p : PLTParams) (predQP qp : Int), QpRange p predQP qp →
      Reads (CABACWriter.cuQpDelta p predQP qp) (CABACReader.cuQpDelta p predQP)
        (fun _ read => read = qp)) := by
  refine ⟨?unary, ?eqprob, ?golomb, ?truncated, ?quantizer⟩
  case unary =>
    intro symbol maxSymbol ctxId0 ctxIdN _ fits word
    exact reads_unaryMax fits word ctxId0 ctxIdN
  case eqprob =>
    intro symbol maxSymbol _ word fits
    exact reads_unaryMaxEqprob fits word
  case golomb =>
    intro symbol count fits
    exact reads_expGolomb (Nat.lt_trans fits (by decide))
  case truncated =>
    intro maxSymbol _ word
    refine ⟨fun symbol fits => truncBinCode_spec fits word, ?_⟩
    intro symbol fits other otherFits lead
    exact truncBinCode_prefix_free fits otherFits word lead
  case quantizer =>
    intro p predQP qp range
    exact reads_cuQpDelta range

/-- The longest unary code of bypass bins, and the last symbol of an alphabet of five. -/
theorem binarizations_round_trip_sample :
    Reads (CABACWriter.unaryMaxEqprob 31 32) (CABACReader.unaryMaxEqprob 32)
      (fun _ value => value = 31) ∧
    Accepts view (CABACReader.xReadTruncBinCode 5) [.ep true, .ep true, .ep true] 4 := by
  obtain ⟨-, eqprob, -, truncated, -⟩ := binarizations_round_trip
  exact ⟨eqprob 31 32 (by decide) (by decide) (by decide),
    ((truncated 5 (by decide) (by decide)).1 4 (by decide)).2.2⟩

/-- The last 32-bit symbol of a unary code wraps and writes nothing, and an alphabet of
`2 ^ 31` symbols has no truncated binary code. -/
theorem binarizations_lose_extremes :
    (¬ ∀ (symbol maxSymbol : Nat) (ctxId0 ctxIdN : Ctx), 1 ≤ maxSymbol → maxSymbol < 2 ^ 32 →
      symbol ≤ maxSymbol →
        Reads (CABACWriter.unaryMaxSymbol symbol ctxId0 ctxIdN maxSymbol)
          (CABACReader.unaryMaxSymbol ctxId0 ctxIdN maxSymbol) (fun _ value => value = symbol)) ∧
    ¬ ∀ symbol maxSymbol : Nat, 1 ≤ maxSymbol → maxSymbol < 2 ^ 32 → symbol < maxSymbol →
      Reads (CABACWriter.xWriteTruncBinCode symbol maxSymbol)
        (CABACReader.xReadTruncBinCode maxSymbol) (fun _ value => value = symbol) := by
  constructor
  · intro claim
    let ctxId : Ctx := ⟨.DeltaQP, 0⟩
    have silent : CABACWriter.unaryMaxSymbol (2 ^ 32 - 1) ctxId ctxId (2 ^ 32 - 1) [] =
        .ok ((), []) := rfl
    have stuck (left : Nat) :
        CABACReader.unaryMaxLoop ctxId ctxId (left + 1) 0 [] = .error "no bins left" := rfl
    have reads := claim (2 ^ 32 - 1) (2 ^ 32 - 1) ctxId ctxId (by decide) (by decide) le_rfl
    obtain ⟨tokens, b, -, appended, -, accepts⟩ := reads.of_run trivial silent
    obtain rfl : tokens = [] := appended.symm
    obtain ⟨_, run, -⟩ := accepts [] [] trivial rfl
    cases (stuck (2 ^ 32 - 2)).symm.trans run
  · intro claim
    have stops : CABACWriter.xWriteTruncBinCode 0 (2 ^ 31) [] = .error "threshVal out of range" :=
      rfl
    obtain ⟨never, -⟩ | ⟨_, _, _, _, run, -⟩ :=
      claim 0 (2 ^ 31) (by decide) (by decide) (by decide) [] trivial
    · exact never
    · cases stops.symm.trans run

end Vtm.Bin
