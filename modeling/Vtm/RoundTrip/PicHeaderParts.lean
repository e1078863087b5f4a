import Mathlib
import Vtm.Std.Settles
import Vtm.Encoder.PicHeader
import Vtm.Decoder.PicHeader
import Vtm.RoundTrip.VLC

/-!
# Reading back the parts of a picture header

For each group of fields: what has to fit for it to be written (`Fits`), what it means
that the decoder has got the values of the encoder (`Same`), and when that is so
(`Reproducible`). A field is compared where the decoder reads it.
-/

namespace Vtm.RoundTrip.PicHeader

open Vtm.Std Vtm.VLCWriter Vtm.VLCReader Vtm.PicHeaders VLC

section

variable {fifo : List UInt8} {locations : List Nat} {sps : HeaderSPS} {pps : HeaderPPS}

/-! ## Elements with an inferred value -/

theorem codes_flagOr (present flag inferred : Bool) :
    Codes False outputView (inputView fifo locations) (writeFlagOr present flag inferred)
      (readFlagOr present inferred)
      (fun a b => b = a ∧ a = if present then flag else inferred) := by
  unfold writeFlagOr readFlagOr
  cases present with
  | true => exact (codes_bool flag).writerMap (fun _ => flag) fun _ _ same => ⟨same, rfl⟩
  | false => exact Codes.pure ⟨rfl, rfl⟩

theorem codes_uvlcOr {present : Bool} {value : Nat} (fits : present = true → value < 2 ^ 32 - 1) :
    Codes False outputView (inputView fifo locations) (writeUvlcOr present value)
      (readUvlcOr present) (fun a b => b = a ∧ a = if present then value else 0) := by
  unfold writeUvlcOr readUvlcOr
  cases present with
  | true =>
      exact (codes_uvlc (fits rfl)).writerMap (fun _ => value) fun _ _ same => ⟨same, rfl⟩
  | false => exact Codes.pure ⟨rfl, rfl⟩

/-- A number that is not negative is its own code. -/
theorem codes_intCode {value : Int} {length : Nat} (positive : 0 < length) (width : length ≤ 32)
    (low : 0 ≤ value) (high : value.toNat < 2 ^ length) :
    Codes False outputView (inputView fifo locations) (xWriteCode (word value) length)
      (xReadCode length) (fun _ (read : Nat) => (read : Int) = value) := by
  have word32 : 2 ^ length ≤ 2 ^ 32 := Nat.pow_le_pow_right (by decide) width
  have code : word value = value.toNat := by
    unfold word
    omega
  rw [code]
  refine (codes_code positive width (Or.inl high)).weaken ?_
  rintro _ _ rfl
  omega

/-! ## Start of the header -/

/-- The decoder has the start of the header; `getRecoveryPocCnt` only tells whether the count
is zero. -/
structure SameStart (written parsed : PicStart) : Prop where
  nonReference : parsed.nonReferencePictureFlag = written.nonReferencePictureFlag
  gdr : parsed.gdrPicFlag = written.gdrPicFlag
  noOutput : parsed.noOutputOfPriorPicsFlag = written.noOutputOfPriorPicsFlag
  recovery : parsed.getRecoveryPocCnt = written.getRecoveryPocCnt
  ppsId : parsed.ppsId = written.ppsId

theorem codes_picStart {start : PicStart} (fits : start.ppsId < 2 ^ 32 - 1) :
    Codes False outputView (inputView fifo locations) (codePicStart start) parsePicStart
      (fun written parsed => SameStart written parsed ∧ parsed.ppsId = start.ppsId) := by
  unfold codePicStart parsePicStart
  refine (codes_bool _).bind ?_
  rintro _ _ rfl
  refine (codes_bool _).bind ?_
  rintro _ _ rfl
  refine (codes_bool _).bind ?_
  rintro _ _ rfl
  have small : start.getRecoveryPocCnt.toNat < 2 := Bool.toNat_lt _
  refine (codes_uvlcOr fun _ => by omega).bind ?_
  rintro written _ ⟨rfl, value⟩
  refine (codes_uvlc fits).bind ?_
  rintro _ _ rfl
  refine Codes.pure ⟨⟨rfl, rfl, rfl, ?_, rfl⟩, rfl⟩
  rw [value]
  cases gdr : start.gdrPicFlag with
  | false => rfl
  | true => cases count : decide (start.recoveryPocCnt ≠ 0) <;>
      simp_all [PicStart.getRecoveryPocCnt]

/-! ## Sub-picture ids -/

/-- The loop over `setSubPicId` ends when the array is long enough. -/
theorem setSubPicIds_run {σ : Type} {count : Nat} (few : count ≤ MAX_NUM_SUB_PICS)
    (id : Nat → UInt8) (subPics : SubPicIds) (s : σ) :
    setSubPicIds count id subPics s = .ok ({ subPics with
      subPicId := fun picIdx => if picIdx < count then id picIdx else subPics.subPicId picIdx },
      s) := by
  unfold setSubPicIds
  induction count with
  | zero => simp [pure, StateT.pure, Except.pure]
  | succ count ih =>
      have inside : ¬ count ≥ MAX_NUM_SUB_PICS := by omega
      have updated : Function.update
          (fun picIdx => if picIdx < count then id picIdx else subPics.subPicId picIdx) count
          (id count) =
          fun picIdx => if picIdx < count + 1 then id picIdx else subPics.subPicId picIdx := by
        funext picIdx
        by_cases here : picIdx = count
        · simp [here]
        · simp [Function.update_of_ne here, show picIdx < count + 1 ↔ picIdx < count by omega]
      rw [List.range_succ, List.foldlM_append, bind_run (ih (by omega)), List.foldlM_cons]
      simp only [List.foldlM_nil, bind_pure, bind_run (check_run inside), updated]
      rfl

/-- Sub-picture ids that can be written. -/
structure FitsSubPicIds (sps : HeaderSPS) (pps : HeaderPPS) (subPics : SubPicIds) : Prop where
  numSubPics : sps.numSubPics ≤ MAX_NUM_SUB_PICS
  numSubPicsPPS : pps.numSubPics ≤ MAX_NUM_SUB_PICS
  idLen : subPics.subPicIdSignallingPresentFlag = true →
    0 < subPics.subPicIdLen ∧ subPics.subPicIdLen ≤ 32
  id : subPics.subPicIdSignallingPresentFlag = true →
    ∀ picIdx < sps.numSubPics, (subPics.subPicId picIdx).toNat < 2 ^ subPics.subPicIdLen

/-- The decoder has the ids of all sub-pictures of the sequence. -/
def SameSubPicIds (sps : HeaderSPS) (written parsed : SubPicIds) : Prop :=
  ∀ picIdx < sps.numSubPics, parsed.subPicId picIdx = written.subPicId picIdx

/-- Ids of the header have at most sixteen bits. Ids of the picture parameter set are there
for every sub-picture of the sequence, or the header holds them already: the writer takes as
many as the picture parameter set has, the reader as many as the sequence has. -/
structure ReproducibleSubPicIds (sps : HeaderSPS) (pps : HeaderPPS) (subPics : SubPicIds) :
    Prop where
  idLen : sps.subPicIdPresentFlag = true → sps.subPicIdSignallingPresentFlag = false →
    subPics.subPicIdSignallingPresentFlag = true → subPics.subPicIdLen ≤ 16
  fromPPS : sps.subPicIdPresentFlag = true → sps.subPicIdSignallingPresentFlag = false →
    subPics.subPicIdSignallingPresentFlag = false →
      ∀ picIdx < sps.numSubPics, pps.numSubPics ≤ picIdx →
        subPics.subPicId picIdx = pps.subPicId picIdx

theorem codes_ownSubPicIds {subPics : SubPicIds} (parsed : SubPicIds) (fits : FitsSubPicIds sps pps subPics)
    (present : subPics.subPicIdSignallingPresentFlag = true)
    (sameLen : parsed.subPicIdLen = subPics.subPicIdLen) :
    Codes False outputView (inputView fifo locations)
      ((List.range sps.numSubPics).foldlM (fun _ picIdx => do
        check (picIdx ≥ MAX_NUM_SUB_PICS) "Sub-pic index exceeds valid range"
        xWriteCode (subPics.subPicId picIdx).toNat subPics.subPicIdLen) ())
      ((List.range sps.numSubPics).foldlM (fun subPics picIdx => do
        let uiCode ← xReadCode subPics.subPicIdLen
        check (picIdx ≥ MAX_NUM_SUB_PICS) "Sub-pic index exceeds valid range"
        return { subPics with
          subPicId := Function.update subPics.subPicId picIdx (UInt8.ofNat uiCode) }) parsed)
      (fun _ parsed => SameSubPicIds sps subPics parsed) := by
  have few := fits.numSubPics
  obtain ⟨some, width⟩ := fits.idLen present
  rw [List.range_eq_range']
  refine (Codes.range' (fun count _ (parsed : SubPicIds) =>
    parsed.subPicIdLen = subPics.subPicIdLen ∧
      ∀ picIdx < count, parsed.subPicId picIdx = subPics.subPicId picIdx) ?_
    ⟨sameLen, by simp⟩).weaken ?_
  · rintro i _ read _ inside ⟨len, before⟩
    refine Codes.writerCheck (Or.inr (by omega)) fun _ => ?_
    rw [len]
    refine (codes_code some width (Or.inl (fits.id present i (by omega)))).readerAfter ?_
    rintro _ _ rfl
    have indexed : ¬ i ≥ MAX_NUM_SUB_PICS := by omega
    refine ⟨_, (Accepts.check _ indexed).bind (Accepts.pure _), rfl, fun picIdx below => ?_⟩
    by_cases here : picIdx = i
    · simp [here]
    · simpa [Function.update_of_ne here] using before picIdx (by omega)
  · rintro _ read ⟨_, all⟩ picIdx inside
    exact all picIdx (by omega)

theorem settles_ownSubPicIds {subPics old : SubPicIds} (fits : FitsSubPicIds sps pps subPics)
    (present : subPics.subPicIdSignallingPresentFlag = true) :
    Settles outputView (inputView fifo locations) (codeOwnSubPicIds sps subPics)
      (parseOwnSubPicIds sps old) (subPics.subPicIdLen ≤ 16)
      (fun _ parsed => SameSubPicIds sps subPics parsed) := by
  obtain ⟨some, width⟩ := fits.idLen present
  have code : word ((subPics.subPicIdLen : Int) - 1) = subPics.subPicIdLen - 1 := by
    unfold word
    omega
  unfold codeOwnSubPicIds parseOwnSubPicIds
  rw [code]
  refine Settles.after (codes_uvlc (by omega)) ?_
  rintro _ _ rfl
  have len : (subPics.subPicIdLen - 1 + 1) % 2 ^ 32 = subPics.subPicIdLen := by omega
  dsimp only
  refine (Settles.readerCheck (codes_ownSubPicIds _ fits present len).settled).congr ?_
  rw [and_true]
  omega

theorem settles_subPicIds {subPics old : SubPicIds} (fits : FitsSubPicIds sps pps subPics) :
    Settles outputView (inputView fifo locations) (codeSubPicIds sps pps subPics)
      (parseSubPicIds sps pps old) (ReproducibleSubPicIds sps pps subPics)
      (SameSubPicIds sps) := by
  have few := fits.numSubPics
  unfold codeSubPicIds parseSubPicIds
  cases present : sps.subPicIdPresentFlag with
  | false =>
      refine (Codes.silent (setSubPicIds_run few _ _) (setSubPicIds_run few _ _) ?_).settles
      refine iff_of_true (fun picIdx inside => by simp [inside]) ⟨?_, ?_⟩ <;> simp [present]
  | true =>
      cases signalled : sps.subPicIdSignallingPresentFlag with
      | true =>
          refine (Codes.silent (setSubPicIds_run few _ _) (setSubPicIds_run few _ _) ?_).settles
          refine iff_of_true (fun picIdx inside => by simp [inside]) ⟨?_, ?_⟩ <;> simp [signalled]
      | false =>
          refine Settles.after (codes_bool _) ?_
          rintro _ _ rfl
          dsimp only
          cases own : subPics.subPicIdSignallingPresentFlag with
          | true =>
              refine ((settles_ownSubPicIds fits own).writerMap (fun _ => subPics) fun _ _ =>
                Iff.rfl).congr ⟨fun reproducible => reproducible.idLen present signalled own, ?_⟩
              intro short
              exact ⟨fun _ _ _ => short, fun _ _ flag => absurd (own.symm.trans flag) (by simp)⟩
          | false =>
              refine (Codes.silent (setSubPicIds_run fits.numSubPicsPPS _ _)
                (setSubPicIds_run few _ _) ?_).settles
              constructor
              · intro same
                refine ⟨fun _ _ flag => absurd (own.symm.trans flag) (by simp), ?_⟩
                intro _ _ _ picIdx inside missing
                have value := same picIdx inside
                simpa [inside, show ¬ picIdx < pps.numSubPics by omega] using value.symm
              · intro reproducible picIdx inside
                by_cases known : picIdx < pps.numSubPics
                · simp [inside, known]
                · simp [inside, known,
                    reproducible.fromPPS present signalled own picIdx inside (by omega)]

/-! ## Virtual boundaries -/

/-- Virtual boundaries that can be written. -/
structure FitsBoundaries (bounds : VirtualBoundaries) : Prop where
  numVer : bounds.numVerVirtualBoundaries < 4
  numHor : bounds.numHorVirtualBoundaries < 4
  posX : ∀ i < bounds.numVerVirtualBoundaries, bounds.virtualBoundariesPosX i < 2 ^ 16
  posY : ∀ i < bounds.numHorVirtualBoundaries, bounds.virtualBoundariesPosY i < 2 ^ 16

/-- The decoder has the virtual boundaries; there is room for three. -/
structure SameBoundaries (written parsed : VirtualBoundaries) : Prop where
  disabled : parsed.loopFilterAcrossVirtualBoundariesDisabledFlag =
    written.loopFilterAcrossVirtualBoundariesDisabledFlag
  numVer : parsed.numVerVirtualBoundaries = written.numVerVirtualBoundaries
  numHor : parsed.numHorVirtualBoundaries = written.numHorVirtualBoundaries
  posX : ∀ i < 3, i < written.numVerVirtualBoundaries →
    parsed.virtualBoundariesPosX i = written.virtualBoundariesPosX i
  posY : ∀ i < 3, i < written.numHorVirtualBoundaries →
    parsed.virtualBoundariesPosY i = written.virtualBoundariesPosY i

theorem SameBoundaries.refl (bounds : VirtualBoundaries) : SameBoundaries bounds bounds :=
  ⟨rfl, rfl, rfl, fun _ _ _ => rfl, fun _ _ _ => rfl⟩

/-- Virtual boundaries of the header lie on the grid of eight samples. -/
def ReproducibleBoundaries (sps : HeaderSPS) (bounds : VirtualBoundaries) : Prop :=
  sps.loopFilterAcrossVirtualBoundariesDisabledFlag = false →
    bounds.loopFilterAcrossVirtualBoundariesDisabledFlag = true →
      (∀ i < bounds.numVerVirtualBoundaries, bounds.virtualBoundariesPosX i % 8 = 0) ∧
        ∀ i < bounds.numHorVirtualBoundaries, bounds.virtualBoundariesPosY i % 8 = 0

/-- Positions are read back on the grid of eight samples. -/
theorem codes_boundaries {num : Nat} {pos : Nat → Nat} (old : Nat → Nat) (few : num < 4)
    (fits : ∀ i < num, pos i < 2 ^ 16) :
    Codes False outputView (inputView fifo locations) (codeBoundaries num pos)
      (parseBoundaries old)
      (fun _ read => read.1 = num ∧ ∀ i < num, read.2 i = pos i / 8 * 8) := by
  unfold codeBoundaries parseBoundaries
  refine (codes_code (by decide) (by decide) (Or.inl (by omega))).bind ?_
  rintro _ _ rfl
  rw [List.range_eq_range']
  refine Codes.readerMap _ (Codes.range' (fun count _ (read : Nat → Nat) =>
    ∀ i < count, read i = pos i / 8 * 8) ?_ (by simp)) ?_
  · rintro i _ read _ inside before
    have room : ¬ i ≥ 3 := by omega
    refine Codes.writerCheck (Or.inr room) fun _ => ?_
    have position := fits i (by omega)
    have code : pos i >>> 3 < 2 ^ 13 := by
      rw [Nat.shiftRight_eq_div_pow]
      omega
    refine (codes_code (by decide) (by decide) (Or.inl code)).readerAfter ?_
    rintro _ _ rfl
    refine ⟨_, (Accepts.check _ room).bind (Accepts.pure _), fun j below => ?_⟩
    by_cases here : j = i
    · simp [here, Nat.shiftLeft_eq, Nat.shiftRight_eq_div_pow]
    · rw [Function.update_of_ne here]
      exact before j (by omega)
  · intro _ read all
    exact ⟨rfl, fun i below => all i (by omega)⟩

theorem settles_virtualBoundaries {bounds old : VirtualBoundaries} (fits : FitsBoundaries bounds) :
    Settles outputView (inputView fifo locations) (codeVirtualBoundaries sps bounds)
      (parseVirtualBoundaries sps old) (ReproducibleBoundaries sps bounds) SameBoundaries := by
  have few := fits.numVer
  have few' := fits.numHor
  refine Codes.settles ?_
  unfold codeVirtualBoundaries parseVirtualBoundaries
  cases disabled : sps.loopFilterAcrossVirtualBoundariesDisabledFlag with
  | true =>
      refine Codes.pure (iff_of_true ?_ fun enabled => absurd (disabled.symm.trans enabled) (by simp))
      refine ⟨rfl, rfl, rfl, fun i below _ => ?_, fun i below _ => ?_⟩ <;>
        simp [HeaderSPS.boundaries, below]
  | false =>
      refine (codes_bool _).bind ?_
      rintro _ _ rfl
      cases own : bounds.loopFilterAcrossVirtualBoundariesDisabledFlag with
      | false =>
          refine Codes.pure (iff_of_true ?_ fun _ set => absurd (own.symm.trans set) (by simp))
          exact ⟨rfl, rfl, rfl, by simp, by simp⟩
      | true =>
          refine (codes_boundaries _ fits.numVer fits.posX).bind ?_
          rintro _ ⟨numVer, posX⟩ ⟨rfl, readX⟩
          refine (codes_boundaries _ fits.numHor fits.posY).bind ?_
          rintro _ ⟨numHor, posY⟩ ⟨rfl, readY⟩
          refine Codes.pure ⟨fun same _ _ => ⟨fun i below => ?_, fun i below => ?_⟩, ?_⟩
          · have value := same.posX i (by omega) below
            have grid : posX i = bounds.virtualBoundariesPosX i / 8 * 8 := readX i below
            dsimp only at value
            omega
          · have value := same.posY i (by omega) below
            have grid : posY i = bounds.virtualBoundariesPosY i / 8 * 8 := readY i below
            dsimp only at value
            omega
          · intro reproducible
            obtain ⟨gridX, gridY⟩ := reproducible disabled own
            refine ⟨own.symm, rfl, rfl, fun i _ below => ?_, fun i _ below => ?_⟩
            · have grid : posX i = bounds.virtualBoundariesPosX i / 8 * 8 := readX i below
              have multiple := gridX i below
              dsimp only
              omega
            · have grid : posY i = bounds.virtualBoundariesPosY i / 8 * 8 := readY i below
              have multiple := gridY i below
              dsimp only
              omega

/-! ## Colour plane and output flag -/

theorem settles_picOutput {output : PicOutput}
    (fits : sps.separateColourPlaneFlag = true → output.colourPlaneId < 4) :
    Settles outputView (inputView fifo locations) (codePicOutput sps pps output)
      (parsePicOutput sps pps) (sps.separateColourPlaneFlag = true → output.colourPlaneId ≤ 2)
      (fun written parsed => parsed.picOutputFlag = written.picOutputFlag) := by
  have rest : ∀ planeId planeId' : Nat, Settles outputView (inputView fifo locations)
      (do
        let picOutputFlag ← writeFlagOr pps.outputFlagPresentFlag output.picOutputFlag true
        return ({ colourPlaneId := planeId, picOutputFlag := picOutputFlag } : PicOutput))
      (do
        let picOutputFlag ← readFlagOr pps.outputFlagPresentFlag true
        return ({ colourPlaneId := planeId', picOutputFlag := picOutputFlag } : PicOutput))
      True (fun written parsed => parsed.picOutputFlag = written.picOutputFlag) := by
    intro planeId planeId'
    refine Codes.settled ((codes_flagOr _ _ _).bind ?_)
    rintro _ _ ⟨rfl, _⟩
    exact Codes.pure rfl
  unfold codePicOutput parsePicOutput parseColourPlaneId
  cases separate : sps.separateColourPlaneFlag with
  | false => exact (rest _ _).congr (by simp)
  | true =>
      simp only [if_true, bind_assoc, pure_bind]
      refine Settles.after (codes_code (by decide) (by decide) (Or.inl (fits separate))) ?_
      rintro _ _ rfl
      exact (Settles.readerCheck (rest _ _)).congr (by simp)

/-! ## Partitioning constraints -/

/-- A maximum size that can be written. -/
structure FitsSize (minQT size : Nat) : Prop where
  low : Nat.log2 minQT ≤ Nat.log2 size
  positive : 0 < size
  high : size < 2 ^ 32

/-- Sizes of one kind of blocks that can be written. -/
structure FitsSizes (sps : HeaderSPS) (sizes : BlockSizes) : Prop where
  minQT : FitsSize (2 ^ sps.log2MinCodingBlockSize) sizes.minQT
  depth : sizes.maxMTTHierarchyDepth < 2 ^ 32 - 1
  maxBT : sizes.maxMTTHierarchyDepth ≠ 0 → FitsSize sizes.minQT sizes.maxBTSize
  maxTT : sizes.maxMTTHierarchyDepth ≠ 0 → FitsSize sizes.minQT sizes.maxTTSize

/-- A maximum size is a power of two, and the coding tree unit, where it sets a limit, is
not smaller. -/
structure ReproducibleSize (limit : Option Nat) (minQT size : Nat) : Prop where
  power : size = 2 ^ Nat.log2 size
  within : ∀ bound, limit = some bound → Nat.log2 size - Nat.log2 minQT ≤ bound

/-- Sizes of one kind of blocks are powers of two; blocks that are not split further are as
large as the smallest block of the quad-tree. -/
structure ReproducibleSizes (limit : Option Nat) (sizes : BlockSizes) : Prop where
  minQT : sizes.minQT = 2 ^ Nat.log2 sizes.minQT
  unsplit : sizes.maxMTTHierarchyDepth = 0 →
    sizes.maxBTSize = sizes.minQT ∧ sizes.maxTTSize = sizes.minQT
  maxBT : sizes.maxMTTHierarchyDepth ≠ 0 → ReproducibleSize limit sizes.minQT sizes.maxBTSize
  maxTT : sizes.maxMTTHierarchyDepth ≠ 0 → ReproducibleSize limit sizes.minQT sizes.maxTTSize

theorem floorLog2_of_pos {x : Nat} (positive : 0 < x) : floorLog2 x = Nat.log2 x := by
  unfold floorLog2
  rw [if_neg (by omega)]

theorem log2_lt_of_lt {x : Nat} (positive : 0 < x) (high : x < 2 ^ 32) : Nat.log2 x < 32 :=
  (Nat.log2_lt (by omega)).mpr high

section

variable {minQT size : Nat} (fits : FitsSize minQT size)
include fits

theorem FitsSize.code (some : 0 < minQT) :
    word (floorLog2 size - floorLog2 minQT) = Nat.log2 size - Nat.log2 minQT := by
  have low := fits.low
  have high := log2_lt_of_lt fits.positive fits.high
  rw [floorLog2_of_pos fits.positive, floorLog2_of_pos some]
  unfold word
  omega

theorem FitsSize.code_lt : Nat.log2 size - Nat.log2 minQT < 2 ^ 32 - 1 := by
  have high := log2_lt_of_lt fits.positive fits.high
  omega

/-- What the code of a maximum size is read as. -/
theorem FitsSize.shifted :
    ((2 ^ Nat.log2 minQT) <<< (Nat.log2 size - Nat.log2 minQT)) % 2 ^ 32 =
      2 ^ Nat.log2 size := by
  have low := fits.low
  have high := log2_lt_of_lt fits.positive fits.high
  rw [Nat.shiftLeft_eq, ← Nat.pow_add, Nat.add_sub_cancel' low]
  exact Nat.mod_eq_of_lt (Nat.pow_lt_pow_right (by decide) high)

end

theorem codes_minQT {sizes : BlockSizes} (fits : FitsSizes sps sizes) :
    Codes False outputView (inputView fifo locations) (codeMinQT sps sizes)
      (parseMinQtLog2Size sps) (fun _ read => read = Nat.log2 sizes.minQT) := by
  have low := fits.minQT.low
  rw [Nat.log2_two_pow] at low
  have high := log2_lt_of_lt fits.minQT.positive fits.minQT.high
  have code : word (floorLog2 sizes.minQT - sps.log2MinCodingBlockSize) =
      Nat.log2 sizes.minQT - sps.log2MinCodingBlockSize := by
    rw [floorLog2_of_pos fits.minQT.positive]
    unfold word
    omega
  unfold codeMinQT parseMinQtLog2Size
  rw [code]
  refine Codes.readerMap _ (codes_uvlc (by omega)) ?_
  rintro _ _ rfl
  omega

/-- A limit is kept exactly when the check passes. -/
theorem not_any_limit {limit : Option Nat} {code : Nat} :
    ¬ (limit.any fun bound => decide (code > bound)) = true ↔
      ∀ bound, limit = some bound → code ≤ bound := by
  cases limit <;> simp

theorem settles_maxSizes (limit : Option Nat) {sizes : BlockSizes} (fits : FitsSizes sps sizes) :
    Settles outputView (inputView fifo locations) (codeMaxSizes sizes)
      (parseMaxSizes limit (2 ^ Nat.log2 sizes.minQT) sizes.maxMTTHierarchyDepth)
      (ReproducibleSizes limit sizes) (fun _ parsed => parsed = sizes) := by
  obtain ⟨minQT, depth, maxBT, maxTT⟩ := sizes
  unfold codeMaxSizes parseMaxSizes
  by_cases unsplit : depth = 0
  · rw [if_neg (by simp [unsplit]), if_neg (by simp [unsplit])]
    refine Codes.settles (Codes.pure ?_)
    simp only [BlockSizes.mk.injEq]
    constructor
    · rintro ⟨power, _, same, same'⟩
      refine ⟨power.symm, fun _ => ⟨?_, ?_⟩, fun split => absurd unsplit split,
        fun split => absurd unsplit split⟩
      · exact same.symm.trans power
      · exact same'.symm.trans power
    · intro reproducible
      have power : minQT = 2 ^ Nat.log2 minQT := reproducible.minQT
      obtain ⟨same, same'⟩ := reproducible.unsplit unsplit
      exact ⟨power.symm, trivial, power.symm.trans same.symm, power.symm.trans same'.symm⟩
  · have fitsBT : FitsSize minQT maxBT := fits.maxBT unsplit
    have fitsTT : FitsSize minQT maxTT := fits.maxTT unsplit
    have some : 0 < minQT := fits.minQT.positive
    rw [if_pos (by simpa using unsplit), if_pos (by simpa using unsplit)]
    unfold parseMaxSize
    simp only [bind_assoc, pure_bind, fitsBT.code some, fitsTT.code some]
    have inOrder : ReproducibleSizes limit ⟨minQT, depth, maxBT, maxTT⟩ ↔
        (¬ (limit.any fun bound => decide (Nat.log2 maxBT - Nat.log2 minQT > bound)) = true) ∧
        (¬ (limit.any fun bound => decide (Nat.log2 maxTT - Nat.log2 minQT > bound)) = true) ∧
        minQT = 2 ^ Nat.log2 minQT ∧ maxBT = 2 ^ Nat.log2 maxBT ∧
          maxTT = 2 ^ Nat.log2 maxTT := by
      rw [not_any_limit, not_any_limit]
      constructor
      · intro reproducible
        have forBT := reproducible.maxBT unsplit
        have forTT := reproducible.maxTT unsplit
        exact ⟨forBT.within, forTT.within, reproducible.minQT, forBT.power, forTT.power⟩
      · rintro ⟨withinBT, withinTT, power, powerBT, powerTT⟩
        exact ⟨power, fun zero => absurd zero unsplit, fun _ => ⟨powerBT, withinBT⟩,
          fun _ => ⟨powerTT, withinTT⟩⟩
    refine Settles.congr (Settles.after (codes_uvlc fitsBT.code_lt) ?_) inOrder
    rintro _ _ rfl
    refine Settles.readerCheck (Settles.last (codes_uvlc fitsTT.code_lt) ?_)
    rintro _ _ rfl
    refine Settles.readerCheck (Codes.settles (Codes.pure ?_))
    rw [fitsBT.shifted, fitsTT.shifted]
    simp only [BlockSizes.mk.injEq, true_and]
    constructor <;> rintro ⟨first, second, third⟩ <;> exact ⟨first.symm, second.symm, third.symm⟩

/-- The minimum size that the reader makes of its logarithm. -/
theorem FitsSizes.shifted {sizes : BlockSizes} (fits : FitsSizes sps sizes) :
    (1 <<< Nat.log2 sizes.minQT) % 2 ^ 32 = 2 ^ Nat.log2 sizes.minQT := by
  have high := log2_lt_of_lt fits.minQT.positive fits.minQT.high
  rw [Nat.one_shiftLeft]
  exact Nat.mod_eq_of_lt (Nat.pow_lt_pow_right (by decide) high)

theorem settles_chromaSizes {sizes : BlockSizes}
    (fits : sps.useDualITree = true → FitsSizes sps sizes) :
    Settles outputView (inputView fifo locations) (codeChromaSizes sps sizes)
      (parseChromaSizes sps) (sps.useDualITree = true → ReproducibleSizes none sizes)
      (fun _ parsed => sps.useDualITree = true → parsed = sizes) := by
  unfold codeChromaSizes parseChromaSizes
  cases dual : sps.useDualITree with
  | false => exact Codes.settles (Codes.pure (by simp))
  | true =>
      have fitsSizes := fits dual
      simp only [if_true, forall_const]
      refine Settles.after (codes_minQT fitsSizes) ?_
      rintro _ _ rfl
      refine Settles.after (codes_uvlc fitsSizes.depth) ?_
      rintro _ _ rfl
      rw [fitsSizes.shifted]
      exact settles_maxSizes none fitsSizes

/-- Constraints that can be written. -/
structure FitsPartitionSizes (sps : HeaderSPS) (sizes : PartitionSizes) : Prop where
  intraLuma : FitsSizes sps sizes.intraLuma
  inter : FitsSizes sps sizes.inter
  intraChroma : sps.useDualITree = true → FitsSizes sps sizes.intraChroma

/-- The decoder has the constraints; those of chroma are only used with a tree of its own. -/
structure SamePartitionSizes (sps : HeaderSPS) (written parsed : PartitionSizes) : Prop where
  intraLuma : parsed.intraLuma = written.intraLuma
  inter : parsed.inter = written.inter
  intraChroma : sps.useDualITree = true → parsed.intraChroma = written.intraChroma

/-- The limit that the coding tree unit sets to the sizes of luma blocks. -/
def HeaderSPS.limitOf (sps : HeaderSPS) (sizes : BlockSizes) : Option Nat :=
  some (sps.log2Limit (Nat.log2 sizes.minQT))

/-- All sizes are powers of two within their limits. -/
structure ReproduciblePartitionSizes (sps : HeaderSPS) (sizes : PartitionSizes) : Prop where
  intraLuma : ReproducibleSizes (HeaderSPS.limitOf sps sizes.intraLuma) sizes.intraLuma
  inter : ReproducibleSizes (HeaderSPS.limitOf sps sizes.inter) sizes.inter
  intraChroma : sps.useDualITree = true → ReproducibleSizes none sizes.intraChroma

theorem settles_partitionSizes {sizes : PartitionSizes} (fits : FitsPartitionSizes sps sizes) :
    Settles outputView (inputView fifo locations) (codePartitionSizes sps sizes)
      (parsePartitionSizes sps) (ReproduciblePartitionSizes sps sizes)
      (fun _ parsed => SamePartitionSizes sps sizes parsed) := by
  unfold codePartitionSizes parsePartitionSizes
  refine Settles.after (codes_minQT fits.intraLuma) ?_
  rintro _ _ rfl
  refine Settles.after (codes_minQT fits.inter) ?_
  rintro _ _ rfl
  refine Settles.after (codes_uvlc fits.inter.depth) ?_
  rintro _ _ rfl
  refine Settles.after (codes_uvlc fits.intraLuma.depth) ?_
  rintro _ _ rfl
  rw [fits.intraLuma.shifted, fits.inter.shifted]
  have inOrder : ReproduciblePartitionSizes sps sizes ↔
      ReproducibleSizes (HeaderSPS.limitOf sps sizes.intraLuma) sizes.intraLuma ∧
      ReproducibleSizes (HeaderSPS.limitOf sps sizes.inter) sizes.inter ∧
      (sps.useDualITree = true → ReproducibleSizes none sizes.intraChroma) :=
    ⟨fun all => ⟨all.intraLuma, all.inter, all.intraChroma⟩,
      fun ⟨intraLuma, inter, intraChroma⟩ => ⟨intraLuma, inter, intraChroma⟩⟩
  refine Settles.congr (Settles.bind (settles_maxSizes _ fits.intraLuma) (Yields.trivial _)
    (fun _ => ⟨_, rfl⟩) ?_ ?_) inOrder
  · rintro _ _ _ rfl
    refine Settles.bind (settles_maxSizes _ fits.inter) (Yields.trivial _) (fun _ => ⟨_, rfl⟩)
      ?_ ?_
    · rintro _ _ _ rfl
      refine (settles_chromaSizes fits.intraChroma).readerMap _ fun _ parsed => ?_
      exact ⟨fun same => same.intraChroma, fun same => ⟨rfl, rfl, same⟩⟩
    · intro _ inter differs
      exact Refutes.reader fun _ => Refutes.readerPure fun _ same => differs same.inter
  · intro _ intraLuma differs
    exact Refutes.reader fun _ => Refutes.reader fun _ =>
      Refutes.readerPure fun _ same => differs same.intraLuma

/-- The decoder has the constraints of the header where they override those of the sequence. -/
structure SameConstraints (sps : HeaderSPS) (written parsed : PartitionConstraints) : Prop where
  override : parsed.splitConsOverrideFlag = written.splitConsOverrideFlag
  sizes : written.splitConsOverrideFlag = true →
    SamePartitionSizes sps written.sizes parsed.sizes

/-- Whether the constraints are written. -/
def OverridesConstraints (sps : HeaderSPS) (constraints : PartitionConstraints) : Prop :=
  sps.splitConsOverrideEnabledFlag = true ∧ constraints.splitConsOverrideFlag = true

theorem settles_partitionConstraints {constraints : PartitionConstraints}
    (fits : OverridesConstraints sps constraints → FitsPartitionSizes sps constraints.sizes) :
    Settles outputView (inputView fifo locations) (codePartitionConstraints sps constraints)
      (parsePartitionConstraints sps)
      (OverridesConstraints sps constraints → ReproduciblePartitionSizes sps constraints.sizes)
      (SameConstraints sps) := by
  unfold codePartitionConstraints parsePartitionConstraints
  refine Settles.after (codes_flagOr _ _ _) ?_
  rintro _ override ⟨rfl, value⟩
  have overrides : OverridesConstraints sps constraints ↔ override = true := by
    rw [value]
    unfold OverridesConstraints
    cases sps.splitConsOverrideEnabledFlag <;> simp
  cases set : override with
  | false =>
      refine Codes.settles (Codes.pure (iff_of_true ⟨rfl, by simp⟩ fun coded => ?_))
      exact absurd (set.symm.trans (overrides.mp coded)) (by simp)
  | true =>
      have coded := overrides.mpr set
      refine Settles.congr ?_ ⟨fun all => all coded, fun reproducible _ => reproducible⟩
      rw [if_pos rfl, if_pos rfl]
      refine (settles_partitionSizes (fits coded)).map
        (fun _ => PartitionConstraints.mk true constraints.sizes)
        (fun sizes => PartitionConstraints.mk true sizes) fun _ sizes => ?_
      exact ⟨fun same => same.sizes rfl, fun same => ⟨rfl, fun _ => same⟩⟩

/-! ## Quantization groups -/

/-- Depths that can be written. -/
structure FitsQpSubdiv (pps : HeaderPPS) (subdiv : QpSubdiv) : Prop where
  qpIntra : pps.useDQP = true → subdiv.cuQpDeltaSubdivIntra < 2 ^ 32 - 1
  qpInter : pps.useDQP = true → subdiv.cuQpDeltaSubdivInter < 2 ^ 32 - 1
  chromaIntra : pps.cuChromaQpOffsetEnabledFlag = true →
    subdiv.cuChromaQpOffsetSubdivIntra < 2 ^ 32 - 1
  chromaInter : pps.cuChromaQpOffsetEnabledFlag = true →
    subdiv.cuChromaQpOffsetSubdivInter < 2 ^ 32 - 1

theorem codes_qpSubdiv {subdiv : QpSubdiv} (fits : FitsQpSubdiv pps subdiv) :
    Codes False outputView (inputView fifo locations) (codeQpSubdiv pps subdiv)
      (parseQpSubdiv pps) (fun written parsed => parsed = written) := by
  unfold codeQpSubdiv parseQpSubdiv
  refine (codes_uvlcOr fits.qpIntra).bind ?_
  rintro _ _ ⟨rfl, _⟩
  refine (codes_uvlcOr fits.qpInter).bind ?_
  rintro _ _ ⟨rfl, _⟩
  refine (codes_uvlcOr fits.chromaIntra).bind ?_
  rintro _ _ ⟨rfl, _⟩
  refine (codes_uvlcOr fits.chromaInter).bind ?_
  rintro _ _ ⟨rfl, _⟩
  exact Codes.pure rfl

/-! ## Inter prediction -/

/-- `getMaxNumMergeCand` after the writer has set it. -/
def writtenMaxNumMergeCand (pps : HeaderPPS) (maxNumMergeCand : Nat) : Nat :=
  if pps.ppsSixMinusMaxNumMergeCandPlus1 = 0 then maxNumMergeCand
  else word (MRG_MAX_NUM_CANDS - ((pps.ppsSixMinusMaxNumMergeCandPlus1 : Int) - 1))

/-- Merge lists that can be written: the checks of the writer, and a field of the parameter
set of 32 bits. -/
structure FitsInterTools (sps : HeaderSPS) (pps : HeaderPPS) (tools : InterTools) : Prop where
  merge : pps.ppsSixMinusMaxNumMergeCandPlus1 = 0 → tools.maxNumMergeCand ≤ MRG_MAX_NUM_CANDS
  mergePPS : pps.ppsSixMinusMaxNumMergeCandPlus1 < 2 ^ 32
  affine : sps.useAffine = true → tools.maxNumAffineMergeCand ≤ AFFINE_MRG_MAX_NUM_CANDS

/-- There is a merge candidate. -/
def ReproducibleInterTools (pps : HeaderPPS) (tools : InterTools) : Prop :=
  if pps.ppsSixMinusMaxNumMergeCandPlus1 = 0 then 0 < tools.maxNumMergeCand
  else pps.ppsSixMinusMaxNumMergeCandPlus1 ≤ MRG_MAX_NUM_CANDS

theorem settles_maxNumMergeCand {tools : InterTools} (fits : FitsInterTools sps pps tools) :
    Settles outputView (inputView fifo locations)
      (codeMaxNumMergeCand pps tools.maxNumMergeCand) (parseMaxNumMergeCand pps)
      (ReproducibleInterTools pps tools) (fun written parsed => parsed = written) := by
  have sixPPS := fits.mergePPS
  unfold codeMaxNumMergeCand parseMaxNumMergeCand ReproducibleInterTools MRG_MAX_NUM_CANDS
  by_cases own : pps.ppsSixMinusMaxNumMergeCandPlus1 = 0
  · have most : tools.maxNumMergeCand ≤ 6 := fits.merge own
    simp only [if_pos own]
    refine Settles.writerCheck (by omega) ?_
    refine Settles.after (codes_uvlc (by omega)) ?_
    rintro _ _ rfl
    refine (Settles.readerCheck (Codes.pure (by omega)).settled).congr ?_
    rw [and_true]
    omega
  · simp only [if_neg own, pure_bind]
    refine (Settles.readerCheck (Codes.settles (Codes.pure Iff.rfl))).congr ?_
    unfold word
    omega

theorem codes_maxNumAffineMergeCand {tools : InterTools} (fits : FitsInterTools sps pps tools)
    (enableTMVPFlag : Bool) :
    Codes False outputView (inputView fifo locations)
      (codeMaxNumAffineMergeCand sps enableTMVPFlag tools.maxNumAffineMergeCand)
      (parseMaxNumAffineMergeCand sps enableTMVPFlag)
      (fun written parsed => parsed = written) := by
  unfold codeMaxNumAffineMergeCand parseMaxNumAffineMergeCand
  cases affine : sps.useAffine with
  | false => exact Codes.pure rfl
  | true =>
      have most : tools.maxNumAffineMergeCand ≤ 5 := fits.affine affine
      unfold AFFINE_MRG_MAX_NUM_CANDS
      refine Codes.writerCheck (Or.inr (by omega)) fun _ => ?_
      refine (codes_uvlc (by omega)).bind ?_
      rintro _ _ rfl
      exact Codes.readerStep (Accepts.check _ (by omega)) (Codes.pure (by omega))

theorem yields_maxNumMergeCand (maxNumMergeCand : Nat) :
    Yields (codeMaxNumMergeCand pps maxNumMergeCand)
      (fun written => written = writtenMaxNumMergeCand pps maxNumMergeCand) := by
  unfold codeMaxNumMergeCand writtenMaxNumMergeCand
  split
  · exact (Yields.trivial _).bind fun _ _ => (Yields.trivial _).bind fun _ _ => Yields.pure rfl
  · exact Yields.pure rfl

/-- The decoder has the settings of inter prediction. -/
theorem settles_interTools {tools : InterTools} (fits : FitsInterTools sps pps tools) :
    Settles outputView (inputView fifo locations) (codeInterTools sps pps tools)
      (parseInterTools sps pps) (ReproducibleInterTools pps tools)
      (fun written parsed => parsed = written) := by
  unfold codeInterTools parseInterTools
  refine Settles.after (codes_flagOr _ _ _) ?_
  rintro _ enableTMVPFlag ⟨rfl, _⟩
  refine Settles.after (codes_flagOr _ _ _) ?_
  rintro _ mvdL1ZeroFlag ⟨rfl, _⟩
  refine Settles.congr (Settles.bind (settles_maxNumMergeCand fits) (Yields.trivial _)
    (fun _ => ⟨_, rfl⟩) ?_ ?_) (and_true _).symm.to_iff
  · rintro _ maxNumMergeCand _ rfl
    refine Codes.settled ((codes_maxNumAffineMergeCand fits _).bind ?_)
    rintro _ _ rfl
    refine (codes_flagOr _ _ _).bind ?_
    rintro _ _ ⟨rfl, _⟩
    refine (codes_flagOr _ _ _).bind ?_
    rintro _ _ ⟨rfl, _⟩
    refine (codes_flagOr _ _ _).bind ?_
    rintro _ _ ⟨rfl, _⟩
    refine (codes_flagOr _ _ _).bind ?_
    rintro _ _ ⟨rfl, _⟩
    exact Codes.pure rfl
  · intro written parsed differs
    iterate 5 refine Refutes.bind fun _ _ => ?_
    exact Refutes.pure fun same => differs (InterTools.mk.inj same).2.2.1

theorem yields_interTools (tools : InterTools) :
    Yields (codeInterTools sps pps tools) (fun written =>
      written.maxNumMergeCand = writtenMaxNumMergeCand pps tools.maxNumMergeCand) := by
  unfold codeInterTools
  refine (Yields.trivial _).bind fun _ _ => (Yields.trivial _).bind fun _ _ => ?_
  refine (yields_maxNumMergeCand _).bind fun _ value => ?_
  iterate 5 refine (Yields.trivial _).bind fun _ _ => ?_
  exact Yields.pure value

end

end Vtm.RoundTrip.PicHeader
