import Vtm.RoundTrip.BitCount
import Vtm.Encoder.WeightPred
import Vtm.Decoder.WeightPred

/-!
# Reading back the weighted prediction table

The reader follows the writer through the whole table as long as the chroma offset
differences stay inside the window it checks. The first one outside stops it.
-/

namespace Vtm.WeightPred

open Vtm.Std Vtm.VLCWriter Vtm.VLCReader Vtm.RoundTrip.VLC Vtm.RoundTrip.BitCount

/-! ## Legal tables -/

/-- A weight and an offset that can be signalled. -/
structure LegalParam (range : Int) (param : WPScalingParam) : Prop where
  weightLow : -128 ≤ param.iWeight - 2 ^ param.uiLog2WeightDenom
  weightHigh : param.iWeight - 2 ^ param.uiLog2WeightDenom ≤ 127
  offsetLow : -range ≤ param.iOffset
  offsetHigh : param.iOffset ≤ range - 1

/-- The entry of an active reference. Both chroma components share one flag. -/
structure LegalEntry (slice : WPSlice) (luma chroma : Nat) (wp : Wp) : Prop where
  lumaDenom : (wp 0).uiLog2WeightDenom = luma
  chromaDenom : ∀ j, 1 ≤ j → j < slice.numValidComp → (wp j).uiLog2WeightDenom = chroma
  chromaFlag : ∀ j, 1 ≤ j → j < slice.numValidComp → (wp j).bPresentFlag = (wp 1).bPresentFlag
  lumaParam : (wp 0).bPresentFlag = true →
    LegalParam (slice.offsetRange slice.bitDepthLuma) (wp 0)
  chromaParam : ∀ j, 1 ≤ j → j < slice.numValidComp → (wp j).bPresentFlag = true →
    LegalParam (slice.offsetRange slice.bitDepthChroma) (wp j)

/-- The flags of one component set in the first `count` entries. -/
def flagCount (wps : Nat → Wp) (j : Nat) : Nat → Nat
  | 0 => 0
  | count + 1 => flagCount wps j count + (wps count j).bPresentFlag.toNat

/-- The flags of one list, a chroma flag counted twice. -/
def listFlags (slice : WPSlice) (table : WeightPredTable) (iNumRef : Nat) : Nat :=
  flagCount (table iNumRef) 0 (slice.numRefIdx iNumRef) +
    if slice.bChroma then 2 * flagCount (table iNumRef) 1 (slice.numRefIdx iNumRef) else 0

/-- The flags of the first `lists` lists. -/
def signalledFlags (slice : WPSlice) (table : WeightPredTable) : Nat → Nat
  | 0 => 0
  | lists + 1 => signalledFlags slice table lists + listFlags slice table lists

/-- A table that weighted prediction allows for the slice. -/
structure Legal (slice : WPSlice) (table : WeightPredTable) (luma chroma : Nat) : Prop where
  enabled : slice.enabled = true
  lumaDepth : slice.bitDepthLuma ≤ 16
  chromaDepth : slice.bitDepthChroma ≤ 16
  lumaDenom : luma ≤ 7
  chromaDenom : chroma ≤ 7
  entries : ∀ iNumRef < slice.iNbRef, ∀ iRefIdx < slice.numRefIdx iNumRef,
    LegalEntry slice luma chroma (table iNumRef iRefIdx)
  flags : signalledFlags slice table slice.iNbRef ≤ 24

/-- The difference that is sent for a chroma offset is inside the reader's window. -/
@[grind =] def InWindow (range : Int) (param : WPScalingParam) : Prop :=
  -4 * range ≤ param.iOffset - chromaPred range param ∧
    param.iOffset - chromaPred range param < 4 * range

/-- All differences sent for an entry are inside the window. -/
def EntryInWindow (slice : WPSlice) (wp : Wp) : Prop :=
  ∀ j, 1 ≤ j → j < slice.numValidComp → (wp j).bPresentFlag = true →
    InWindow (slice.offsetRange slice.bitDepthChroma) (wp j)

/-- What the reader makes of a signalled component: an absent one gets the default weight. -/
def received (param : WPScalingParam) : WPScalingParam :=
  if param.bPresentFlag then param
  else { param with iWeight := 2 ^ param.uiLog2WeightDenom, iOffset := 0 }

/-! ## Bounds -/

theorem numValidComp_of_chroma {slice : WPSlice} (chroma : slice.bChroma = true) :
    slice.numValidComp = 3 := if_pos chroma

theorem numValidComp_of_no_chroma {slice : WPSlice} (chroma : ¬ slice.bChroma = true) :
    slice.numValidComp = 1 := if_neg chroma

theorem offsetRange_bounds (slice : WPSlice) {bitDepth : Nat} (depth : bitDepth ≤ 16) :
    0 ≤ slice.offsetRange bitDepth ∧ slice.offsetRange bitDepth ≤ 2 ^ 15 := by
  unfold WPSlice.offsetRange
  split
  · have power : 2 ^ bitDepth ≤ 2 ^ 16 := Nat.pow_le_pow_right (by decide) depth
    generalize 2 ^ bitDepth = size at power ⊢
    omega
  · omega

/-- Division does not leave an interval around zero. -/
theorem ediv_bounds {x m bound : Int} (positive : 0 < m) (low : -bound ≤ x) (high : x ≤ bound) :
    -bound ≤ x / m ∧ x / m ≤ bound := by
  constructor
  · apply Int.le_ediv_of_mul_le positive
    nlinarith
  · apply Int.ediv_le_of_le_mul positive
    nlinarith

/-- The prediction of a chroma offset stays far inside a word. -/
theorem chromaPred_bounds {range : Int} {param : WPScalingParam} (low : 0 ≤ range)
    (high : range ≤ 2 ^ 15) (legal : LegalParam range param)
    (denom : param.uiLog2WeightDenom ≤ 7) :
    -2 ^ 24 ≤ chromaPred range param ∧ chromaPred range param ≤ 2 ^ 24 := by
  obtain ⟨weightLow, weightHigh, _, _⟩ := legal
  unfold chromaPred
  rw [Int.shiftRight_eq_div_pow]
  have power : (2 : Int) ^ param.uiLog2WeightDenom ≤ 2 ^ 7 := by
    exact_mod_cast Nat.pow_le_pow_right (by decide : 0 < 2) denom
  have positive : (0 : Int) < 2 ^ param.uiLog2WeightDenom := by positivity
  have upper : range * param.iWeight ≤ 2 ^ 23 := by nlinarith
  have lower : -2 ^ 23 ≤ range * param.iWeight := by nlinarith
  obtain ⟨quotientLow, quotientHigh⟩ := ediv_bounds positive lower upper
  have cast : ((2 ^ param.uiLog2WeightDenom : Nat) : Int) = 2 ^ param.uiLog2WeightDenom := by
    push_cast
    rfl
  rw [cast]
  omega

/-! ## One entry -/

section Entry

variable {fifo : List UInt8} {locations : List Nat} {slice : WPSlice} {luma chroma : Nat}
  {wp : Wp}

/-- What the first two loops have read of an entry. -/
structure HasFlags (slice : WPSlice) (luma chroma : Nat) (wp parsed : Wp) : Prop where
  lumaFlag : (parsed 0).bPresentFlag = (wp 0).bPresentFlag
  lumaDenom : (parsed 0).uiLog2WeightDenom = luma
  chromaDenom : ∀ j, 1 ≤ j → j < slice.numValidComp → (parsed j).uiLog2WeightDenom = chroma

/-- The flags of the chroma components have been read too. -/
def HasChromaFlags (slice : WPSlice) (wp parsed : Wp) : Prop :=
  ∀ j, 1 ≤ j → j < slice.numValidComp → (parsed j).bPresentFlag = (wp 1).bPresentFlag

/-- Behind the denominators, the luma flag. -/
theorem codes_lumaFlag (slice : WPSlice) (luma chroma : Nat) (wp old : Wp) (total : Nat) :
    Codes False outputView (inputView fifo locations) (codeLumaFlag slice wp (true, total))
      (parseLumaFlag slice luma chroma old)
      (fun state result => HasFlags slice luma chroma wp result.1 ∧
        result.2 = (wp 0).bPresentFlag.toNat ∧
        state = (true, total + (wp 0).bPresentFlag.toNat)) := by
  have coded : codeLumaFlag slice wp (true, total) = do
      xWriteBool (wp 0).bPresentFlag
      return (true, total + (wp 0).bPresentFlag.toNat) := rfl
  rw [coded]
  refine (codes_bool (wp 0).bPresentFlag).bind ?_
  rintro _ _ rfl
  refine Codes.pure ⟨⟨rfl, rfl, fun j low high => ?_⟩, rfl, rfl⟩
  have chromaComp : j ≠ 0 := by omega
  simp only [setComp, mapChroma, if_neg chromaComp, if_pos (And.intro low high)]

theorem codes_chromaFlag (enabled : slice.bChroma = true) (legal : LegalEntry slice luma chroma wp)
    {old : Wp} (flags : HasFlags slice luma chroma wp old) (total : Nat) :
    Codes False outputView (inputView fifo locations) (codeChromaFlag wp total)
      (parseChromaFlag slice old)
      (fun total' result => (HasFlags slice luma chroma wp result.1 ∧
          HasChromaFlags slice wp result.1) ∧
        result.2 = 2 * (wp 1).bPresentFlag.toNat ∧
        total' = total + 2 * (wp 1).bPresentFlag.toNat) := by
  have comps := numValidComp_of_chroma enabled
  have agree : ¬ (wp 1).bPresentFlag ≠ (wp 2).bPresentFlag := by
    rw [legal.chromaFlag 2 (by decide) (by omega)]
    exact not_not.mpr rfl
  refine Codes.writerCheck (Or.inr agree) fun _ => ?_
  refine Codes.bind (codes_bool (wp 1).bPresentFlag) ?_
  rintro _ _ rfl
  have set : ∀ j, 1 ≤ j → j < slice.numValidComp →
      mapChroma slice old (fun param => { param with bPresentFlag := (wp 1).bPresentFlag }) j =
        { old j with bPresentFlag := (wp 1).bPresentFlag } := by
    intro j low high
    exact if_pos ⟨low, high⟩
  refine Codes.pure ⟨⟨⟨?_, ?_, ?_⟩, ?_⟩, ?_, rfl⟩
  · exact flags.lumaFlag
  · exact flags.lumaDenom
  · intro j low high
    dsimp only
    rw [set j low high]
    exact flags.chromaDenom j low high
  · intro j low high
    dsimp only
    rw [set j low high]
  · dsimp only
    rw [set 1 (by decide) (by omega)]

/-- Weight and offset of the luma component pass every check. -/
theorem codes_lumaWeight (depth : slice.bitDepthLuma ≤ 16)
    (legal : LegalEntry slice luma chroma wp) {param : WPScalingParam}
    (flag : param.bPresentFlag = (wp 0).bPresentFlag) (same : param.uiLog2WeightDenom = luma) :
    Codes False outputView (inputView fifo locations) (codeLumaWeight wp)
      (parseLumaWeight slice param) (fun _ parsed => parsed = received (wp 0)) := by
  have denoms : param.uiLog2WeightDenom = (wp 0).uiLog2WeightDenom := same.trans legal.lumaDenom.symm
  unfold codeLumaWeight parseLumaWeight received
  by_cases present : (wp 0).bPresentFlag = true
  · obtain ⟨weightLow, weightHigh, offsetLow, offsetHigh⟩ := legal.lumaParam present
    obtain ⟨rangeLow, rangeHigh⟩ := offsetRange_bounds slice depth
    rw [if_pos present, if_pos (flag.trans present), if_pos present]
    refine (codes_svlc (by omega) (by omega)).bind ?_
    rintro _ _ rfl
    refine Codes.readerStep (Accepts.check _ (by omega)) ?_
    refine Codes.readerStep (Accepts.check _ (by omega)) ?_
    refine (codes_svlc (by omega) (by omega)).readerAfter ?_
    rintro _ _ rfl
    refine ⟨_, (Accepts.check _ (by omega)).step
      ((Accepts.check _ (by omega)).step (Accepts.pure _)), ?_⟩
    rw [flag, denoms, Int.sub_add_cancel]
  · rw [if_neg present, if_neg (fun yes => present (flag.symm.trans yes)), if_neg present]
    refine Codes.pure ?_
    rw [flag, denoms]

/-- Weight and offset of a chroma component: only the window of the offset can stop
the reader. -/
theorem guards_chromaWeight (depth : slice.bitDepthChroma ≤ 16) (denom : chroma ≤ 7)
    (legal : LegalEntry slice luma chroma wp) (enabled : slice.bChroma = true) {j : Nat}
    (low : 1 ≤ j) (high : j < slice.numValidComp) (present : (wp j).bPresentFlag = true)
    {old : Wp} (flag : (old j).bPresentFlag = (wp j).bPresentFlag)
    (same : (old j).uiLog2WeightDenom = chroma) :
    Guards outputView (inputView fifo locations) (codeChromaWeight slice wp j)
      (parseChromaWeight slice old j)
      (InWindow (slice.offsetRange slice.bitDepthChroma) (wp j)) "Invalid code"
      (fun _ parsed => parsed = setComp old j (wp j)) := by
  have comps := numValidComp_of_chroma enabled
  have denom₁ := legal.chromaDenom 1 (by decide) (by omega)
  have denom₂ := legal.chromaDenom 2 (by decide) (by omega)
  have denomj := legal.chromaDenom j low high
  have denoms : (old j).uiLog2WeightDenom = (wp j).uiLog2WeightDenom := same.trans denomj.symm
  have param := legal.chromaParam j low high present
  obtain ⟨weightLow, weightHigh, offsetLow, offsetHigh⟩ := param
  obtain ⟨rangeLow, rangeHigh⟩ := offsetRange_bounds slice depth
  obtain ⟨predLow, predHigh⟩ := chromaPred_bounds rangeLow rangeHigh
    (legal.chromaParam j low high present) (by omega)
  unfold codeChromaWeight parseChromaWeight InWindow
  rw [denom₁.trans denomj.symm]
  refine Guards.writerCheck (by rw [denom₂, denomj]; exact not_not.mpr rfl) ?_
  dsimp only
  generalize slice.offsetRange slice.bitDepthChroma = range at *
  refine Guards.after (codes_svlc (by omega) (by omega)) ?_
  rintro _ _ rfl
  refine Guards.readerStep (Accepts.check _ (by omega)) ?_
  refine Guards.readerStep (Accepts.check _ (by omega)) ?_
  refine Guards.last (codes_svlc (by omega) (by omega)) ?_
  rintro _ _ rfl
  have pred : ∀ offset, chromaPred range (WPScalingParam.mk (old j).bPresentFlag
      (old j).uiLog2WeightDenom
      ((wp j).iWeight - 2 ^ (wp j).uiLog2WeightDenom + 2 ^ (old j).uiLog2WeightDenom) offset) =
        chromaPred range (wp j) := by
    intro offset
    simp only [chromaPred, denoms, Int.sub_add_cancel]
  rw [pred, Int.sub_add_cancel, flag, denoms, Int.sub_add_cancel]
  refine (Guards.readerCheck (Guards.readerCheck (Codes.guards (Codes.pure ?_)))).congr ?_
  · have clipped : Clip3 (-range) (range - 1) (wp j).iOffset = (wp j).iOffset := by
      unfold Clip3
      omega
    rw [clipped]
  · rw [and_true, not_lt, ge_iff_le, not_le]

theorem guards_chromaWeights (depth : slice.bitDepthChroma ≤ 16) (denom : chroma ≤ 7)
    (legal : LegalEntry slice luma chroma wp) {old : Wp}
    (denoms : ∀ j, 1 ≤ j → j < slice.numValidComp → (old j).uiLog2WeightDenom = chroma)
    (flags : HasChromaFlags slice wp old) :
    Guards outputView (inputView fifo locations) (codeChromaWeights slice wp)
      (parseChromaWeights slice old) (EntryInWindow slice wp) "Invalid code"
      (fun _ parsed => parsed 0 = old 0 ∧
        ∀ j, 1 ≤ j → j < slice.numValidComp → parsed j = received (wp j)) := by
  unfold codeChromaWeights parseChromaWeights
  by_cases enabled : slice.bChroma = true
  · have comps := numValidComp_of_chroma enabled
    have flag₁ := flags 1 (by decide) (by omega)
    rw [if_pos enabled, flag₁]
    by_cases present : (wp 1).bPresentFlag = true
    · have presents : ∀ j, 1 ≤ j → j < slice.numValidComp → (wp j).bPresentFlag = true :=
        fun j low high => (legal.chromaFlag j low high).trans present
      rw [if_pos (by rw [enabled, present]; rfl), if_pos present]
      refine ((Guards.range' (fun k _ parsed => parsed 0 = old 0 ∧
        (∀ j, 1 ≤ j → j < k → parsed j = wp j) ∧ ∀ j, k ≤ j → parsed j = old j)
        (fun j => InWindow (slice.offsetRange slice.bitDepthChroma) (wp j)) ?_ ?_).congr ?_).weaken ?_
      · rintro k _ parsed low high ⟨first, before, ahead⟩
        have here := ahead k (Nat.le_refl k)
        have flagk : (parsed k).bPresentFlag = (wp k).bPresentFlag := by
          rw [here, flags k low (by omega), legal.chromaFlag k low (by omega)]
        refine (guards_chromaWeight depth denom legal enabled low (by omega)
          (presents k low (by omega)) flagk
          (by rw [here]; exact denoms k low (by omega))).weaken ?_
        rintro _ _ rfl
        refine ⟨?_, fun j above below => ?_, fun j above => ?_⟩
        · simp only [setComp, if_neg (by omega : ¬ 0 = k), first]
        · by_cases last : j = k
          · rw [last]
            exact if_pos rfl
          · simp only [setComp, if_neg last, before j above (by omega)]
        · simp only [setComp, if_neg (by omega : ¬ j = k), ahead j (by omega)]
      · exact ⟨rfl, fun j low high => by omega, fun _ _ => rfl⟩
      · constructor
        · intro window j low high
          exact window j low (by omega) (presents j low (by omega))
        · intro window j low high _
          exact window j low (by omega)
      · rintro _ parsed ⟨first, entries, _⟩
        refine ⟨first, fun j low high => ?_⟩
        rw [received, if_pos (presents j low high)]
        exact entries j low (by omega)
    · have absent : ∀ j, 1 ≤ j → j < slice.numValidComp → ¬ (wp j).bPresentFlag = true :=
        fun j low high yes => present ((legal.chromaFlag j low high).symm.trans yes)
      rw [if_neg (by simp [present]), if_neg present]
      refine (Codes.guards (Codes.pure ⟨rfl, fun j low high => ?_⟩)).congr
        (iff_of_true (fun j low high yes => absurd yes (absent j low high)) True.intro)
      have same : (old j).bPresentFlag = (wp j).bPresentFlag :=
        (flags j low high).trans (legal.chromaFlag j low high).symm
      have sameDenom := (denoms j low high).trans (legal.chromaDenom j low high).symm
      simp only [mapChroma, if_pos (And.intro low high), received, if_neg (absent j low high), same,
        sameDenom]
  · have comps := numValidComp_of_no_chroma enabled
    rw [if_neg (by simp [enabled]), if_neg enabled]
    refine (Codes.guards (Codes.pure ⟨rfl, fun j low high => ?_⟩)).congr
      (iff_of_true (fun j low high => ?_) True.intro)
    · omega
    · omega

/-- Weights and offsets of an entry whose flags have been read. -/
theorem guards_weights (lumaDepth : slice.bitDepthLuma ≤ 16)
    (chromaDepth : slice.bitDepthChroma ≤ 16) (denom : chroma ≤ 7)
    (legal : LegalEntry slice luma chroma wp) {old : Wp}
    (flags : HasFlags slice luma chroma wp old) (chromaFlags : HasChromaFlags slice wp old) :
    Guards outputView (inputView fifo locations) (codeWeights slice wp) (parseWeights slice old)
      (EntryInWindow slice wp) "Invalid code"
      (fun _ result => (∀ j < slice.numValidComp, result.1 j = received (wp j)) ∧
        result.2 = 0) := by
  refine Guards.after (codes_lumaWeight lumaDepth legal flags.lumaFlag flags.lumaDenom) ?_
  rintro _ _ rfl
  have other : ∀ j, 1 ≤ j → setComp old 0 (received (wp 0)) j = old j :=
    fun j low => if_neg (by omega)
  refine Guards.readerMap _ (guards_chromaWeights chromaDepth denom legal ?_ ?_) ?_
  · intro j low high
    rw [other j low]
    exact flags.chromaDenom j low high
  · intro j low high
    rw [other j low]
    exact chromaFlags j low high
  · rintro _ parsed ⟨first, entries⟩
    refine ⟨fun j below => ?_, rfl⟩
    by_cases lumaComp : j = 0
    · rw [lumaComp]
      exact first
    · exact entries j (by omega) below

end Entry

/-! ## One list -/

section Lists

variable {fifo : List UInt8} {locations : List Nat} {slice : WPSlice} {table : WeightPredTable}
  {luma chroma : Nat}

/-- A loop over the active references, given what it does to one entry. -/
theorem guards_overRefs {α : Type} {f : α → Nat → BitWriter α} {body : Wp → BitReader (Wp × Nat)}
    {c : Nat → Prop} {e : String} (before after : Nat → Wp → Prop) (counts : Nat → α → Nat → Prop)
    {iNumRef count : Nat}
    (step : ∀ i a total wp, i < count → before i wp → counts i a total →
      Guards outputView (inputView fifo locations) (f a i) (body wp) (c i) e
        (fun a' result => after i result.1 ∧ counts (i + 1) a' (total + result.2)))
    {a : α} {state : WeightPredTable × Nat} (ready : ∀ i < count, before i (state.1 iNumRef i))
    (start : counts 0 a state.2) :
    Guards outputView (inputView fifo locations) ((List.range' 0 count).foldlM f a)
      (overRefs iNumRef count body state) (∀ i < count, c i) e
      (fun a' state' => counts count a' state'.2 ∧
        (∀ i < count, after i (state'.1 iNumRef i)) ∧
        ∀ other, other ≠ iNumRef → state'.1 other = state.1 other) := by
  refine ((Guards.range' (fun k a' state' => counts k a' state'.2 ∧
    (∀ i < k, after i (state'.1 iNumRef i)) ∧
    (∀ i, k ≤ i → i < count → before i (state'.1 iNumRef i)) ∧
    ∀ other, other ≠ iNumRef → state'.1 other = state.1 other) c ?_ ?_).congr ?_).weaken ?_
  · rintro k a' state' _ below ⟨counted, done, ahead, others⟩
    refine Guards.readerMap _ (step k a' state'.2 _ (by omega)
      (ahead k (Nat.le_refl k) (by omega)) counted) ?_
    rintro a₂ result ⟨met, counted'⟩
    refine ⟨counted', fun i upTo => ?_, fun i above inside => ?_, fun other apart => ?_⟩
    · by_cases last : i = k
      · rw [last]
        simpa using met
      · simpa [last] using done i (by omega)
    · have later : i ≠ k := by omega
      simpa [later] using ahead i (by omega) inside
    · funext i
      simpa [apart] using congrFun (others other apart) i
  · exact ⟨start, fun i none => by omega, fun i _ below => ready i below, fun _ _ => rfl⟩
  · constructor
    · intro all i _ below
      exact all i (by omega)
    · intro all i below
      exact all i (Nat.zero_le i) (by omega)
  · rintro a' state' ⟨counted, done, _, others⟩
    rw [Nat.zero_add] at counted done
    exact ⟨counted, done, others⟩

/-- The first loop: denominators and luma flags. -/
theorem codes_lumaFlags (iNumRef count : Nat) (old : WeightPredTable) (total : Nat) :
    Codes False outputView (inputView fifo locations)
      ((List.range' 0 count).foldlM
        (fun state iRefIdx => codeLumaFlag slice (table iNumRef iRefIdx) state) (true, total))
      (overRefs iNumRef count (parseLumaFlag slice luma chroma) (old, total))
      (fun state result =>
        (state = (true, total + flagCount (table iNumRef) 0 count) ∧
          result.2 = total + flagCount (table iNumRef) 0 count) ∧
        (∀ i < count, HasFlags slice luma chroma (table iNumRef i) (result.1 iNumRef i)) ∧
        ∀ other, other ≠ iNumRef → result.1 other = old other) := by
  refine Guards.codes (guards_overRefs (c := fun _ => True) (e := "") (fun _ _ => True)
    (fun i => HasFlags slice luma chroma (table iNumRef i))
    (fun i state total' => state = (true, total + flagCount (table iNumRef) 0 i) ∧
      total' = total + flagCount (table iNumRef) 0 i) ?_
    (fun _ _ => True.intro) ⟨rfl, rfl⟩) (fun _ _ => True.intro)
  rintro i _ _ wp _ _ ⟨rfl, rfl⟩
  refine (Codes.guards (codes_lumaFlag slice luma chroma (table iNumRef i) wp _)).weaken ?_
  rintro state result ⟨flags, count, rfl⟩
  refine ⟨flags, ?_, ?_⟩
  · rw [flagCount, Nat.add_assoc]
  · rw [count, flagCount, Nat.add_assoc]

theorem codes_chromaFlags (legal : Legal slice table luma chroma) {iNumRef : Nat}
    (inside : iNumRef < slice.iNbRef) {old : WeightPredTable} (total : Nat)
    (flags : ∀ i < slice.numRefIdx iNumRef,
      HasFlags slice luma chroma (table iNumRef i) (old iNumRef i)) :
    Codes False outputView (inputView fifo locations)
      (codeChromaFlags slice (table iNumRef) (slice.numRefIdx iNumRef) total)
      (parseChromaFlags slice iNumRef (old, total))
      (fun total' result =>
        (total' = total + (if slice.bChroma then
            2 * flagCount (table iNumRef) 1 (slice.numRefIdx iNumRef) else 0) ∧
          result.2 = total + (if slice.bChroma then
            2 * flagCount (table iNumRef) 1 (slice.numRefIdx iNumRef) else 0)) ∧
        (∀ i < slice.numRefIdx iNumRef,
          HasFlags slice luma chroma (table iNumRef i) (result.1 iNumRef i) ∧
          HasChromaFlags slice (table iNumRef i) (result.1 iNumRef i)) ∧
        ∀ other, other ≠ iNumRef → result.1 other = old other) := by
  unfold codeChromaFlags parseChromaFlags
  by_cases enabled : slice.bChroma = true
  · have entries := legal.entries iNumRef inside
    rw [if_pos enabled, if_pos enabled, if_pos enabled]
    refine Guards.codes (guards_overRefs (c := fun _ => True) (e := "")
      (fun i => HasFlags slice luma chroma (table iNumRef i))
      (fun i parsed => HasFlags slice luma chroma (table iNumRef i) parsed ∧
        HasChromaFlags slice (table iNumRef i) parsed)
      (fun i total' read => total' = total + 2 * flagCount (table iNumRef) 1 i ∧
        read = total + 2 * flagCount (table iNumRef) 1 i) ?_ flags
      ⟨rfl, rfl⟩) (fun _ _ => True.intro)
    rintro i _ _ wp below has ⟨rfl, rfl⟩
    refine (Codes.guards (codes_chromaFlag enabled (entries i below) has _)).weaken ?_
    rintro _ result ⟨met, count, rfl⟩
    refine ⟨met, ?_, ?_⟩
    · rw [flagCount]
      omega
    · rw [count, flagCount]
      omega
  · have comps := numValidComp_of_no_chroma enabled
    rw [if_neg enabled, if_neg enabled, if_neg enabled]
    refine Codes.pure ⟨⟨rfl, rfl⟩, fun i below => ⟨flags i below, ?_⟩, fun _ _ => rfl⟩
    intro j low high
    omega

theorem guards_list (legal : Legal slice table luma chroma) {iNumRef : Nat}
    (inside : iNumRef < slice.iNbRef) (old : WeightPredTable) (total : Nat) :
    Guards outputView (inputView fifo locations) (codeList slice table (true, total) iNumRef)
      (parseList slice luma chroma (old, total) iNumRef)
      (∀ iRefIdx < slice.numRefIdx iNumRef, EntryInWindow slice (table iNumRef iRefIdx))
      "Invalid code"
      (fun state result => state = (true, total + listFlags slice table iNumRef) ∧
        result.2 = total + listFlags slice table iNumRef ∧
        (∀ iRefIdx < slice.numRefIdx iNumRef, ∀ j < slice.numValidComp,
          result.1 iNumRef iRefIdx j = received (table iNumRef iRefIdx j)) ∧
        ∀ other, other ≠ iNumRef → result.1 other = old other) := by
  have entries := legal.entries iNumRef inside
  refine Guards.after (codes_lumaFlags iNumRef _ old total) ?_
  rintro _ ⟨table₁, total₁⟩ ⟨⟨rfl, rfl⟩, flags, others₁⟩
  refine Guards.after (codes_chromaFlags legal inside _ flags) ?_
  rintro _ ⟨table₂, _⟩ ⟨⟨rfl, rfl⟩, flags₂, others₂⟩
  refine Guards.before (guards_overRefs (c := fun i => EntryInWindow slice (table iNumRef i))
    (fun i parsed => HasFlags slice luma chroma (table iNumRef i) parsed ∧
      HasChromaFlags slice (table iNumRef i) parsed)
    (fun i parsed => ∀ j < slice.numValidComp, parsed j = received (table iNumRef i j))
    (fun _ _ read => read = total + listFlags slice table iNumRef) ?_ flags₂ ?_) ?_
  · rintro i _ _ wp below ⟨has, hasChroma⟩ rfl
    refine (guards_weights legal.lumaDepth legal.chromaDepth legal.chromaDenom (entries i below) has
      hasChroma).weaken ?_
    rintro _ result ⟨met, none⟩
    exact ⟨met, by rw [none]; rfl⟩
  · exact Nat.add_assoc total _ _
  · rintro _ ⟨table₃, _⟩ ⟨rfl, met, others₃⟩
    refine Codes.pure ⟨?_, rfl, fun i below j comp => ?_, fun other apart => ?_⟩
    · rw [Nat.add_assoc, listFlags]
    · refine (if_neg ?_).trans (met i below j comp)
      omega
    · funext i j
      refine (if_neg fun same => apart same.1).trans ?_
      dsimp only at others₁ others₂ others₃ ⊢
      rw [others₃ other apart, others₂ other apart, others₁ other apart]

/-! ## The whole table -/

theorem codeList_inactive {iNumRef : Nat} (none : slice.numRefIdx iNumRef = 0)
    (state : Bool × Nat) : codeList slice table state iNumRef = pure state := by
  unfold codeList codeChromaFlags
  rw [none]
  dsimp only
  split <;> rfl

/-- The denominators are written in front of the flags of the first active reference. -/
theorem codeList_first {iNumRef : Nat} (some : 0 < slice.numRefIdx iNumRef) (total : Nat) :
    codeList slice table (false, total) iNumRef = (do
      codeDenoms slice (table iNumRef 0) false
      codeList slice table (true, total) iNumRef) := by
  obtain ⟨count, more⟩ : ∃ count, slice.numRefIdx iNumRef = count + 1 :=
    ⟨slice.numRefIdx iNumRef - 1, by omega⟩
  have first : codeLumaFlag slice (table iNumRef 0) (false, total) = (do
      codeDenoms slice (table iNumRef 0) false
      codeLumaFlag slice (table iNumRef 0) (true, total)) := rfl
  unfold codeList
  rw [more]
  dsimp only
  simp only [List.range'_succ, List.foldlM_cons, first, bind_assoc]

theorem codeLists_first (slice : WPSlice) (table : WeightPredTable) (lists : List Nat)
    (active : ∃ iNumRef ∈ lists, 0 < slice.numRefIdx iNumRef)
    (total : Nat) :
    ∃ iNumRef ∈ lists, 0 < slice.numRefIdx iNumRef ∧
      lists.foldlM (codeList slice table) (false, total) = (do
        codeDenoms slice (table iNumRef 0) false
        lists.foldlM (codeList slice table) (true, total)) := by
  induction lists with
  | nil => simp at active
  | cons iNumRef rest ih =>
      by_cases none : slice.numRefIdx iNumRef = 0
      · have later : ∃ other ∈ rest, 0 < slice.numRefIdx other := by
          obtain ⟨other, member, some⟩ := active
          rcases List.mem_cons.mp member with rfl | member
          · omega
          · exact ⟨other, member, some⟩
        obtain ⟨other, member, some, same⟩ := ih later
        refine ⟨other, List.mem_cons_of_mem _ member, some, ?_⟩
        rw [List.foldlM_cons, List.foldlM_cons, codeList_inactive none, codeList_inactive none]
        exact same
      · refine ⟨iNumRef, List.mem_cons_self, by omega, ?_⟩
        rw [List.foldlM_cons, List.foldlM_cons, codeList_first (by omega), bind_assoc]

/-- The chroma denominator is read back where there is one. -/
theorem codes_chromaDenom {wp : Wp} (lumaDenom : luma ≤ 7) (chromaDenom : chroma ≤ 7)
    (legal : LegalEntry slice luma chroma wp) :
    Codes False outputView (inputView fifo locations) (codeChromaDenom slice wp)
      (parseChromaDenom slice luma)
      (fun _ read => read = if slice.bChroma then chroma else 0) := by
  unfold codeChromaDenom parseChromaDenom
  by_cases enabled : slice.bChroma = true
  · have comps := numValidComp_of_chroma enabled
    have denom₁ := legal.chromaDenom 1 (by decide) (by omega)
    have denom₂ := legal.chromaDenom 2 (by decide) (by omega)
    rw [if_pos enabled, if_pos enabled, if_pos enabled, denom₁, denom₂, legal.lumaDenom]
    refine Codes.writerCheck (Or.inr (not_not.mpr rfl)) fun _ => ?_
    refine (codes_svlc (by omega) (by omega)).readerAfter ?_
    rintro _ _ rfl
    refine ⟨_, (Accepts.check _ (by omega)).step
      ((Accepts.check _ (by omega)).step (Accepts.pure _)), ?_⟩
    omega
  · rw [if_neg enabled, if_neg enabled, if_neg enabled]
    exact Codes.pure rfl

/-- All active references of a list are in the window. -/
def ListInWindow (slice : WPSlice) (table : WeightPredTable) (iNumRef : Nat) : Prop :=
  ∀ iRefIdx < slice.numRefIdx iNumRef, EntryInWindow slice (table iNumRef iRefIdx)

/-- Every active reference of the slice is received. -/
def Received (slice : WPSlice) (table parsed : WeightPredTable) (lists : Nat) : Prop :=
  ∀ iNumRef < lists, ∀ iRefIdx < slice.numRefIdx iNumRef, ∀ j < slice.numValidComp,
    parsed iNumRef iRefIdx j = received (table iNumRef iRefIdx j)

theorem guards_lists (legal : Legal slice table luma chroma) (old : WeightPredTable) :
    Guards outputView (inputView fifo locations)
      ((List.range' 0 slice.iNbRef).foldlM (codeList slice table) (true, 0))
      ((List.range' 0 slice.iNbRef).foldlM (parseList slice luma chroma) (old, 0))
      (∀ iNumRef < slice.iNbRef, ListInWindow slice table iNumRef) "Invalid code"
      (fun state result => state.2 = signalledFlags slice table slice.iNbRef ∧
        result.2 = signalledFlags slice table slice.iNbRef ∧
        Received slice table result.1 slice.iNbRef) := by
  refine ((Guards.range' (fun k state result => state = (true, signalledFlags slice table k) ∧
    result.2 = signalledFlags slice table k ∧ Received slice table result.1 k)
    (ListInWindow slice table) ?_ ?_).congr ?_).weaken ?_
  · rintro k _ ⟨parsed, _⟩ _ below ⟨rfl, rfl, done⟩
    refine (guards_list legal (by omega) parsed _).weaken ?_
    rintro _ result ⟨rfl, read, entries, others⟩
    refine ⟨rfl, read, fun iNumRef upTo => ?_⟩
    by_cases last : iNumRef = k
    · rw [last]
      exact entries
    · rw [others iNumRef last]
      exact done iNumRef (by omega)
  · exact ⟨rfl, rfl, fun iNumRef none => absurd none (Nat.not_lt_zero _)⟩
  · constructor
    · intro all i _ below
      exact all i (by omega)
    · intro all i below
      exact all i (Nat.zero_le i) (by omega)
  · rintro _ result ⟨rfl, read, entries⟩
    rw [Nat.zero_add] at read entries
    exact ⟨by rw [Nat.zero_add], read, entries⟩

/-- Where there is no chroma, nothing is asked of its denominator. -/
theorem Legal.chromaRead (legal : Legal slice table luma chroma) :
    Legal slice table luma (if slice.bChroma then chroma else 0) := by
  by_cases enabled : slice.bChroma = true
  · rw [if_pos enabled]
    exact legal
  · have comps := numValidComp_of_no_chroma enabled
    rw [if_neg enabled]
    refine { legal with chromaDenom := Nat.zero_le 7, entries := fun l inside i below => ?_ }
    refine { legal.entries l inside i below with chromaDenom := fun j low high => ?_ }
    omega

/-- Whatever the reader's table held before, it gives back every active reference if
the differences of all chroma offsets are inside its window, and stops otherwise. -/
theorem guards_predWeightTable (legal : Legal slice table luma chroma)
    (active : ∃ iNumRef < slice.iNbRef, 0 < slice.numRefIdx iNumRef) (old : WeightPredTable) :
    Guards outputView (inputView fifo locations) (xCodePredWeightTable slice table)
      (parsePredWeightTable slice old)
      (∀ iNumRef < slice.iNbRef, ListInWindow slice table iNumRef) "Invalid code"
      (fun _ parsed => Received slice table parsed slice.iNbRef) := by
  have some : ∃ iNumRef ∈ List.range' 0 slice.iNbRef, 0 < slice.numRefIdx iNumRef := by
    obtain ⟨iNumRef, inside, positive⟩ := active
    exact ⟨iNumRef, by rw [List.mem_range'_1]; omega, positive⟩
  obtain ⟨iNumRef, member, positive, first⟩ := codeLists_first slice table _ some 0
  rw [List.mem_range'_1] at member
  have entry := legal.entries iNumRef (by omega) 0 positive
  have lumaDenom := legal.lumaDenom
  unfold xCodePredWeightTable parsePredWeightTable
  rw [if_pos legal.enabled, first, bind_assoc]
  unfold codeDenoms
  rw [if_pos (by rfl), bind_assoc, entry.lumaDenom]
  refine Guards.after (codes_uvlc (by omega)) ?_
  rintro _ _ rfl
  refine Guards.readerStep (Accepts.check _ (by omega)) ?_
  refine Guards.after (codes_chromaDenom lumaDenom legal.chromaDenom entry) ?_
  rintro _ _ rfl
  refine Guards.before (guards_lists legal.chromaRead old) ?_
  rintro state ⟨parsed, total⟩ ⟨written, rfl, entries⟩
  have few := legal.flags
  refine Codes.readerStep (Accepts.check _ (by omega)) ?_
  exact Codes.writerGuard (Or.inr (by omega)) fun _ => entries

end Lists

/-- Every difference sent for a chroma offset of an active reference is inside the window. -/
def TableInWindow (slice : WPSlice) (table : WeightPredTable) : Prop :=
  ∀ iNumRef < slice.iNbRef, ListInWindow slice table iNumRef

/-- The reader takes exactly the bits written and returns every active reference,
whatever its table held before. -/
def RoundTrips (slice : WPSlice) (table : WeightPredTable) : Prop :=
  ∀ before : OutputBitstream, before.WellFormed →
    ∃ after bits, xCodePredWeightTable slice table before = .ok ((), after) ∧
      after.bits = before.bits ++ bits ∧
      ∀ (old : WeightPredTable) (s : InputBitstream) (rest : List Bool), s.WellFormed →
        s.remaining = bits ++ rest →
        ∃ parsed s', parsePredWeightTable slice old s = .ok (parsed, s') ∧
          s'.remaining = rest ∧ Received slice table parsed slice.iNbRef

/-- What was written stops the reader at one of its checks. -/
def StopsAtCheck (slice : WPSlice) (table : WeightPredTable) : Prop :=
  ∀ before : OutputBitstream, before.WellFormed →
    ∃ after bits, xCodePredWeightTable slice table before = .ok ((), after) ∧
      after.bits = before.bits ++ bits ∧
      ∀ (old : WeightPredTable) (s : InputBitstream) (rest : List Bool), s.WellFormed →
        s.remaining = bits ++ rest → parsePredWeightTable slice old s = .error "Invalid code"

/-- A legal table passes every check of the reader and comes back for every active
reference when the differences sent for its chroma offsets are inside the window of
the reader. A difference outside stops the reader. -/
theorem predWeightTable_round_trip (slice : WPSlice) (table : WeightPredTable) (luma chroma : Nat)
    (legal : Legal slice table luma chroma)
    (active : ∃ iNumRef < slice.iNbRef, 0 < slice.numRefIdx iNumRef) :
    (TableInWindow slice table → RoundTrips slice table) ∧
      (¬ TableInWindow slice table → StopsAtCheck slice table) := by
  have written := fun {before : OutputBitstream} (wf : before.WellFormed) =>
    guarded_written table (fun old _ _ => guards_predWeightTable legal active old) wf
  constructor <;> intro inside before wf <;>
    obtain ⟨after, bits, run, _, appended, reads⟩ := written wf
  · exact ⟨after, bits, run, appended,
      fun old s rest ready next => (reads old s rest ready next).1 inside⟩
  · exact ⟨after, bits, run, appended,
      fun old s rest ready next => (reads old s rest ready next).2 inside⟩

/-- A P slice in 4:2:0 with one reference. -/
def oneRefSlice : WPSlice where
  sliceType := .P_SLICE
  numRefIdx := fun iNumRef => if iNumRef = 0 then 1 else 0
  useWP := true
  wpBiPred := false
  chromaFormatIdc := .CHROMA_420
  highPrecisionOffsetsEnabledFlag := false
  bitDepthLuma := 8
  bitDepthChroma := 8

/-- Every component has the weight `1 + delta` over a denominator of 1 and no offset. -/
def uniformTable (delta : Int) : WeightPredTable :=
  fun _ _ _ => ⟨true, 0, 1 + delta, 0⟩

theorem legal_uniformTable {delta : Int} (low : -128 ≤ delta) (high : delta ≤ 127) :
    Legal oneRefSlice (uniformTable delta) 0 0 := by
  have param : LegalParam 128 ⟨true, 0, 1 + delta, 0⟩ := by
    constructor <;> simp <;> omega
  have flags : signalledFlags oneRefSlice (uniformTable delta) oneRefSlice.iNbRef = 3 := rfl
  refine ⟨rfl, by decide, by decide, by decide, by decide, fun l _ i _ => ?_, by omega⟩
  exact ⟨rfl, fun _ _ _ => rfl, fun _ _ _ => rfl, fun _ => param, fun _ _ _ _ => param⟩

theorem active_oneRefSlice : ∃ iNumRef < oneRefSlice.iNbRef, 0 < oneRefSlice.numRefIdx iNumRef :=
  ⟨0, by decide, by decide⟩

/-- A weight of 4 is inside the window, one of 5 is not. -/
theorem uniformTable_round_trips :
    RoundTrips oneRefSlice (uniformTable 3) ∧ StopsAtCheck oneRefSlice (uniformTable 4) := by
  constructor
  · refine (predWeightTable_round_trip oneRefSlice (uniformTable 3) 0 0
      (legal_uniformTable (by decide) (by decide)) active_oneRefSlice).1 ?_
    intro l _ i _ j _ _ _
    have window : InWindow 128 ⟨true, 0, 4, 0⟩ := by unfold InWindow; decide
    exact window
  · refine (predWeightTable_round_trip oneRefSlice (uniformTable 4) 0 0
      (legal_uniformTable (by decide) (by decide)) active_oneRefSlice).2 ?_
    intro window
    have outside : ¬ InWindow 128 ⟨true, 0, 5, 0⟩ := by unfold InWindow; decide
    exact outside (window 0 (by decide) 0 (by decide) 1 (by decide) (by decide) rfl)

/-- The largest weight over the smallest denominator is legal and stops the reader. -/
theorem largest_weight_stops_reader :
    Legal oneRefSlice (uniformTable 127) 0 0 ∧ ¬ RoundTrips oneRefSlice (uniformTable 127) := by
  have legal : Legal oneRefSlice (uniformTable 127) 0 0 :=
    legal_uniformTable (by decide) (by decide)
  have outside : ¬ InWindow 128 ⟨true, 0, 128, 0⟩ := by unfold InWindow; decide
  refine ⟨legal, fun roundTrips => ?_⟩
  obtain ⟨after, bits, run, wf, appended, reads⟩ := guarded_written (uniformTable 127)
    (fun old _ _ => guards_predWeightTable legal active_oneRefSlice old)
    OutputBitstream.wellFormed_empty
  obtain ⟨s, rest, ready, _, next⟩ := stream_of_bits wf
  rw [appended] at next
  have stops := (reads (uniformTable 127) s rest ready next).2 fun window =>
    outside (window 0 (by decide) 0 (by decide) 1 (by decide) (by decide) rfl)
  obtain ⟨after', bits', run', appended', returns⟩ :=
    roundTrips OutputBitstream.empty OutputBitstream.wellFormed_empty
  rw [run] at run'
  cases run'
  obtain rfl : bits = bits' := List.append_cancel_left (appended.symm.trans appended')
  obtain ⟨parsed, s', parses, _⟩ := returns (uniformTable 127) s rest ready next
  rw [stops] at parses
  cases parses

end Vtm.WeightPred
