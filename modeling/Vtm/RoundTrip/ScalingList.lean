import Vtm.Encoder.ScalingList
import Vtm.Decoder.ScalingList
import Vtm.RoundTrip.VLC

/-!
# Reading back scaling lists

The writer cuts each difference to a signed byte, so the sum the reader forms is off by
256 for every difference that was cut. `Drift` counts these wraps along a list. The
reader's last step undoes a sum that is too small by 256 and one that is too large by any
multiple of it, but not one that is too small by 512: `parse_code_scalingList_iff`.
-/

namespace Vtm.RoundTrip.ScalingList

open Vtm.Std Vtm.VLCWriter Vtm.VLCReader Vtm.ScalingList VLC
open Vtm (ScalingList)
open Function (update update_self update_of_ne)

/-! ## Lists that can be coded -/

/-- The high-frequency quarter of the 64x64 lists. -/
def ZeroQuarter (scalingListId idx : Nat) : Prop :=
  26 ≤ scalingListId ∧ 4 ≤ idx % 8 ∧ 4 ≤ idx / 8

/-- A reference list that may be coded for a list. -/
structure LegalRef (scalingListId refListId : Nat) : Prop where
  before : refListId ≤ scalingListId
  size : matrixSize refListId = matrixSize scalingListId
  first : startsSize scalingListId → refListId = scalingListId

/-- Coefficients and DC values of a byte, and legal references. -/
structure Valid (src : ScalingList) : Prop where
  coef : ∀ id < 28, ∀ idx < coefNum id,
    1 ≤ src.scalingListCoef id idx ∧ src.scalingListCoef id idx ≤ 255
  dc : ∀ id < 28, 14 ≤ id → 1 ≤ src.scalingListDC id ∧ src.scalingListDC id ≤ 255
  ref : ∀ id < 28, src.scalingListPredModeFlagIsCopy id ∨ src.scalingListPreditorModeFlag id →
    LegalRef id (src.refMatrixId id)

/-- List `id` has come back, and holds bytes. -/
structure Reproduces (src parsed : ScalingList) (id : Nat) : Prop where
  coef : ∀ idx < coefNum id, ¬ ZeroQuarter id idx →
    parsed.scalingListCoef id idx = src.scalingListCoef id idx
  dc : 14 ≤ id → parsed.scalingListDC id = src.scalingListDC id
  range : ∀ idx < coefNum id,
    0 ≤ parsed.scalingListCoef id idx ∧ parsed.scalingListCoef id idx ≤ 255

/-! ## Wrapped differences -/

/-- The last value that was coded, and how often a difference was cut by 256. -/
structure Drift where
  last : Int
  wraps : Int
deriving DecidableEq, Repr

/-- Code the next value. -/
def Drift.next (drift : Drift) (value : Int) : Drift :=
  ⟨value, drift.wraps + (value - drift.last + 128) / 256⟩

/-- What the reader has added up. -/
def Drift.sum (drift : Drift) : Int := drift.last - 256 * drift.wraps

theorem Drift.sum_next (drift : Drift) (value : Int) :
    (drift.next value).sum = drift.sum + Int.bmod (value - drift.last) 256 := by
  unfold Drift.sum Drift.next Int.bmod
  dsimp only
  split <;> omega

/-- The value a list codes at a scan position. -/
def target (src : ScalingList) (id i : Nat) : Int :=
  if src.scalingListPreditorModeFlag id then src.deltasrc id i
  else src.scalingListCoef id (scanIdx id i)

/-- The value a list codes for its DC value. -/
@[grind =] def targetDC (src : ScalingList) (id : Nat) : Int :=
  if src.scalingListPreditorModeFlag id then src.deltasrcDC id else src.scalingListDC id

/-- The start of a list. -/
@[grind =] def startDrift (src : ScalingList) (id : Nat) : Drift :=
  ⟨if src.scalingListPreditorModeFlag id then 0 else SCALING_LIST_START_VALUE, 0⟩

/-- In front of scan position `i`. -/
@[grind =] def driftAt (src : ScalingList) (id : Nat) : Nat → Drift
  | 0 => if 14 ≤ id then (startDrift src id).next (targetDC src id) else startDrift src id
  | i + 1 => if zeroedOut id i then driftAt src id i else (driftAt src id i).next (target src id i)

/-! ## What the reader makes of a list -/

/-- The predictor of the reader at an index. -/
@[grind =] def readerPred (src acc : ScalingList) (id idx : Nat) : Int :=
  if src.scalingListPreditorModeFlag id then acc.refAddress id (src.refMatrixId id) idx else 0

/-- The predictor of the reader for the DC value. -/
@[grind =] def readerPredDC (src acc : ScalingList) (id : Nat) : Int :=
  if src.scalingListPreditorModeFlag id then
    if 14 ≤ src.refMatrixId id then acc.scalingListDC (src.refMatrixId id)
    else acc.refAddress id (src.refMatrixId id) 0
  else 0

/-- The DC value of a copied list. -/
def copiedDC (src acc : ScalingList) (id : Nat) : Int :=
  if id = src.refMatrixId id then 16
  else if src.refMatrixId id < 14 then acc.scalingListCoef (src.refMatrixId id) 0
  else acc.scalingListDC (src.refMatrixId id)

/-- Only list `id` may have changed. -/
structure OnlyList (acc parsed : ScalingList) (id : Nat) : Prop where
  coef : ∀ other, other ≠ id → parsed.scalingListCoef other = acc.scalingListCoef other
  dc : ∀ other, other ≠ id → parsed.scalingListDC other = acc.scalingListDC other

/-- List `id` as the reader decodes it from the writer's differences. -/
structure Decoded (src acc parsed : ScalingList) (id : Nat) : Prop where
  coef : ∀ i < coefNum id, parsed.scalingListCoef id (scanIdx id i) =
    if zeroedOut id i then 0
    else Int.tmod ((driftAt src id (i + 1)).sum + readerPred src acc id (scanIdx id i) + 256) 256
  dc : 14 ≤ id → parsed.scalingListDC id =
    Int.tmod ((driftAt src id 0).sum + readerPredDC src acc id + 256) 256

/-- List `id` as the reader copies it. -/
structure Copied (src acc parsed : ScalingList) (id : Nat) : Prop where
  coef : ∀ idx < coefNum id,
    parsed.scalingListCoef id idx = acc.refAddress id (src.refMatrixId id) idx
  dc : 14 ≤ id → parsed.scalingListDC id = copiedDC src acc id

section

variable {fifo : List UInt8} {locations : List Nat} {src acc : ScalingList} {id : Nat}

theorem codes_difference (drift : Drift) (value : Int) :
    Codes False outputView (inputView fifo locations)
      (xWriteSvlc (Int.bmod (value - drift.last) 256)) xReadSvlc
      (fun _ read => drift.sum + read = (drift.next value).sum) := by
  have low : -128 ≤ Int.bmod (value - drift.last) 256 := Int.le_bmod (by decide)
  have high : Int.bmod (value - drift.last) 256 < 128 := Int.bmod_lt (by decide)
  refine (codes_svlc (by omega) (by omega)).weaken ?_
  rintro _ _ rfl
  exact (drift.sum_next value).symm

/-- The state of the reader after the DC value. -/
structure AfterDC (src acc : ScalingList) (id : Nat) (state : Int × ScalingList) : Prop where
  sum : state.1 = (driftAt src id 0).sum
  coef : state.2.scalingListCoef = acc.scalingListCoef
  others : ∀ other, other ≠ id → state.2.scalingListDC other = acc.scalingListDC other
  dc : 14 ≤ id → state.2.scalingListDC id =
    Int.tmod ((driftAt src id 0).sum + readerPredDC src acc id + 256) 256

theorem codes_dc (sameRef : src.scalingListPreditorModeFlag id = true →
      acc.refMatrixId id = src.refMatrixId id) :
    Codes False outputView (inputView fifo locations)
      (src.xCodeScalingListDC id (src.scalingListPreditorModeFlag id) (startDrift src id).last)
      (acc.decodeScalingListDC id (src.scalingListPreditorModeFlag id) (startDrift src id).last)
      (fun nextCoef state => nextCoef = (driftAt src id 0).last ∧ AfterDC src acc id state) := by
  unfold xCodeScalingListDC decodeScalingListDC
  have start : (startDrift src id).sum = (startDrift src id).last := by
    simp [Drift.sum, startDrift]
  dsimp only
  by_cases large : id ≥ SCALING_LIST_1D_START_16x16
  · have first : driftAt src id 0 = (startDrift src id).next (targetDC src id) := if_pos large
    have difference : Codes False outputView (inputView fifo locations)
        (xWriteSvlc (Int.bmod (targetDC src id - (startDrift src id).last) 256)) xReadSvlc
        (fun _ read => (startDrift src id).last + read = (driftAt src id 0).sum) := by
      refine (codes_difference (startDrift src id) (targetDC src id)).weaken fun _ read sum => ?_
      rw [first, ← sum, start]
    have last : (driftAt src id 0).last = targetDC src id := by rw [first]; rfl
    rw [if_pos large, if_pos large]
    cases mode : src.scalingListPreditorModeFlag id with
    | true =>
        have written : targetDC src id - (startDrift src id).last = src.deltasrcDC id := by
          simp [targetDC, startDrift, mode]
        rw [written] at difference
        refine difference.bind fun _ read sum => Codes.pure ⟨?_, sum, rfl, ?_, ?_⟩
        · rw [last, targetDC, mode, if_pos rfl]
        · intro other differs
          exact update_of_ne differs _ _
        · intro _
          simp only [setScalingListDC, update_self, sum, readerPredDC, mode, if_true,
            sameRef mode]
          rfl
    | false =>
        have written : targetDC src id = src.scalingListDC id := by simp [targetDC, mode]
        rw [written] at difference
        refine difference.bind fun _ read sum => Codes.pure ⟨?_, sum, rfl, ?_, ?_⟩
        · rw [last, written]
        · intro other differs
          exact update_of_ne differs _ _
        · intro _
          simp [setScalingListDC, sum, readerPredDC, mode]
  · have first : driftAt src id 0 = startDrift src id := if_neg large
    rw [if_neg large, if_neg large]
    refine Codes.pure ⟨by rw [first], ?_, rfl, fun _ _ => rfl, fun large' => absurd large' large⟩
    rw [first, start]

/-- The state of the reader in front of scan position `i`. -/
structure AfterCoefs (src acc : ScalingList) (id : Nat) (i : Nat) (state : Int × ScalingList) :
    Prop where
  sum : state.1 = (driftAt src id i).sum
  only : OnlyList acc state.2 id
  dc : 14 ≤ id → state.2.scalingListDC id =
    Int.tmod ((driftAt src id 0).sum + readerPredDC src acc id + 256) 256
  coef : ∀ k < i, state.2.scalingListCoef id (scanIdx id k) =
    if zeroedOut id k then 0
    else Int.tmod ((driftAt src id (k + 1)).sum + readerPred src acc id (scanIdx id k) + 256) 256

/-- Writing the coefficient at scan position `i`. -/
theorem AfterCoefs.setCoef {i : Nat} {state : Int × ScalingList}
    (before : AfterCoefs src acc id i state) (inside : i < coefNum id) {sum value : Int}
    (added : sum = (driftAt src id (i + 1)).sum)
    (written : value = if zeroedOut id i then 0
      else Int.tmod ((driftAt src id (i + 1)).sum + readerPred src acc id (scanIdx id i) + 256) 256) :
    AfterCoefs src acc id (i + 1) (sum, state.2.setCoef id (scanIdx id i) value) where
  sum := added
  only := by
    constructor
    · intro other differs
      rw [← before.only.coef other differs]
      exact update_of_ne differs _ _
    · exact before.only.dc
  dc := before.dc
  coef := by
    intro k below
    simp only [ScalingList.setCoef, update_self]
    by_cases same : k = i
    · subst same
      rw [update_self, written]
    · have earlier : k < i := by omega
      have apart : scanIdx id k ≠ scanIdx id i := fun equal =>
        same (scanIdx_inj (by omega) inside equal)
      rw [update_of_ne apart]
      exact before.coef k earlier

theorem codes_coef {i : Nat} {state : Int × ScalingList} (inside : i < coefNum id)
    (before : AfterCoefs src acc id i state) (sameRef : src.scalingListPreditorModeFlag id = true →
      acc.refMatrixId id = src.refMatrixId id) :
    Codes False outputView (inputView fifo locations)
      (src.xCodeScalingListCoef id (src.scalingListPreditorModeFlag id) (driftAt src id i).last i)
      (decodeScalingListCoef id (src.scalingListPreditorModeFlag id)
        (acc.refAddress id (acc.refMatrixId id)) state i)
      (fun nextCoef state => nextCoef = (driftAt src id (i + 1)).last ∧
        AfterCoefs src acc id (i + 1) state) := by
  unfold xCodeScalingListCoef decodeScalingListCoef
  by_cases zeroed : zeroedOut id i
  · have next : driftAt src id (i + 1) = driftAt src id i := if_pos zeroed
    rw [if_pos zeroed, if_pos zeroed]
    refine Codes.pure ⟨by rw [next], before.setCoef inside ?_ (if_pos zeroed).symm⟩
    rw [next, before.sum]
  · have next : driftAt src id (i + 1) = (driftAt src id i).next (target src id i) := if_neg zeroed
    have difference : Codes False outputView (inputView fifo locations)
        (xWriteSvlc (Int.bmod (target src id i - (driftAt src id i).last) 256)) xReadSvlc
        (fun _ read => state.1 + read = (driftAt src id (i + 1)).sum) := by
      rw [next, before.sum]
      exact codes_difference (driftAt src id i) (target src id i)
    have last : (driftAt src id (i + 1)).last = target src id i := by rw [next]; rfl
    rw [if_neg zeroed, if_neg zeroed]
    cases mode : src.scalingListPreditorModeFlag id with
    | true =>
        have written : target src id i = src.deltasrc id i := by simp [target, mode]
        rw [written] at difference
        refine difference.bind fun _ read sum => Codes.pure ⟨by rw [last, written], ?_⟩
        refine before.setCoef inside sum ?_
        rw [if_neg zeroed, sum, readerPred, mode, sameRef mode]
    | false =>
        have written : target src id i = src.scalingListCoef id (scanIdx id i) := by
          simp [target, mode]
        rw [written] at difference
        refine difference.bind fun _ read sum => Codes.pure ⟨by rw [last, written], ?_⟩
        refine before.setCoef inside sum ?_
        rw [if_neg zeroed, sum, readerPred, mode]
        rfl

theorem codes_differences (sameRef : src.scalingListPreditorModeFlag id = true →
      acc.refMatrixId id = src.refMatrixId id)
    (legal : src.scalingListPreditorModeFlag id = true → src.refMatrixId id ≤ id) :
    Codes False outputView (inputView fifo locations)
      (src.xCodeScalingList id (src.scalingListPreditorModeFlag id))
      (acc.decodeScalingList id (src.scalingListPreditorModeFlag id))
      (fun _ parsed => OnlyList acc parsed id ∧ Decoded src acc parsed id) := by
  unfold xCodeScalingList decodeScalingList
  have passes : ¬ (src.scalingListPreditorModeFlag id = true ∧ acc.refMatrixId id > id) := by
    rintro ⟨mode, later⟩
    have := legal mode
    rw [sameRef mode] at later
    omega
  refine Codes.readerStep (Accepts.check _ passes) ?_
  refine (codes_dc sameRef).bind ?_
  rintro _ state ⟨rfl, start⟩
  have begin : AfterCoefs src acc id 0 state := by
    refine ⟨start.sum, ⟨fun other _ => by rw [start.coef], start.others⟩, start.dc, ?_⟩
    intro k below
    omega
  have loop : Codes False outputView (inputView fifo locations)
      ((List.range' 0 (coefNum id)).foldlM
        (src.xCodeScalingListCoef id (src.scalingListPreditorModeFlag id)) (driftAt src id 0).last)
      ((List.range' 0 (coefNum id)).foldlM
        (decodeScalingListCoef id (src.scalingListPreditorModeFlag id)
          (acc.refAddress id (acc.refMatrixId id))) state)
      (fun nextCoef state => nextCoef = (driftAt src id (0 + coefNum id)).last ∧
        AfterCoefs src acc id (0 + coefNum id) state) := by
    refine Codes.range' (fun i nextCoef state => nextCoef = (driftAt src id i).last ∧
      AfterCoefs src acc id i state) ?_ ⟨rfl, begin⟩
    rintro i _ state' _ inside ⟨rfl, before⟩
    exact codes_coef (by omega) before sameRef
  refine loop.bind fun _ state' after => Codes.pure ?_
  rw [Nat.zero_add] at after
  exact ⟨after.2.only, after.2.coef, after.2.dc⟩

/-- The same coefficients and DC values. -/
structure SameLists (acc acc' : ScalingList) : Prop where
  coef : acc'.scalingListCoef = acc.scalingListCoef
  dc : acc'.scalingListDC = acc.scalingListDC

theorem SameLists.refAddress {acc' : ScalingList} (same : SameLists acc acc') (refListId : Nat) :
    acc'.refAddress id refListId = acc.refAddress id refListId := by
  unfold ScalingList.refAddress
  rw [same.coef]

theorem SameLists.decoded {acc' parsed : ScalingList} (same : SameLists acc acc')
    (decoded : Decoded src acc' parsed id) : Decoded src acc parsed id := by
  have pred : readerPred src acc' id = readerPred src acc id := by
    funext idx
    rw [readerPred, readerPred, same.refAddress]
  have predDC : readerPredDC src acc' id = readerPredDC src acc id := by
    rw [readerPredDC, readerPredDC, same.refAddress, same.dc]
  constructor
  · rw [← pred]
    exact decoded.coef
  · rw [← predDC]
    exact decoded.dc

theorem SameLists.onlyList {acc' parsed : ScalingList} (same : SameLists acc acc')
    (only : OnlyList acc' parsed id) : OnlyList acc parsed id := by
  constructor
  · rw [← same.coef]
    exact only.coef
  · rw [← same.dc]
    exact only.dc

variable (src) in
theorem codes_ref (sameMode : (acc.scalingListPredModeFlagIsCopy id ||
      acc.scalingListPreditorModeFlag id) =
      (src.scalingListPredModeFlagIsCopy id || src.scalingListPreditorModeFlag id))
    (small : id < 28) (legal : src.scalingListPredModeFlagIsCopy id = true ∨
      src.scalingListPreditorModeFlag id = true → LegalRef id (src.refMatrixId id)) :
    Codes False outputView (inputView fifo locations)
      (src.codeRefMatrixId id) (acc.parseRefMatrixId id)
      (fun _ parsed => SameLists acc parsed ∧
        parsed.scalingListPreditorModeFlag = acc.scalingListPreditorModeFlag ∧
        (src.scalingListPredModeFlagIsCopy id = true ∨ src.scalingListPreditorModeFlag id = true →
          parsed.refMatrixId id = src.refMatrixId id)) := by
  unfold codeRefMatrixId parseRefMatrixId
  rw [sameMode]
  by_cases referred : (src.scalingListPredModeFlagIsCopy id || src.scalingListPreditorModeFlag id)
      = true
  · have ref := legal (by simpa using referred)
    have before := ref.before
    rw [referred]
    cases starts : startsSize id with
    | true =>
        refine Codes.pure ⟨⟨rfl, rfl⟩, rfl, fun _ => ?_⟩
        rw [ref.first starts]
        exact update_self _ _ _
    | false =>
        have word : (((id : Int) - (src.refMatrixId id : Int)) % 2 ^ 32).toNat < 2 ^ 32 - 1 := by
          omega
        refine (codes_uvlc word).readerMap (fun code => acc.setRefMatrixId id
          (((id : Int) - (code : Int)) % 2 ^ 32).toNat) ?_
        rintro _ _ rfl
        refine ⟨⟨rfl, rfl⟩, rfl, fun _ => ?_⟩
        simp only [setRefMatrixId, update_self]
        omega
  · rw [Bool.eq_false_iff.mpr referred]
    refine Codes.pure ⟨⟨rfl, rfl⟩, rfl, fun modes => ?_⟩
    exact absurd (by simpa using modes) referred

/-- A list is copied or decoded, by its mode. -/
def Read (src acc parsed : ScalingList) (id : Nat) : Prop :=
  OnlyList acc parsed id ∧
    if src.scalingListPredModeFlagIsCopy id then Copied src acc parsed id
    else Decoded src acc parsed id

theorem copyRefMatrix_spec {acc' : ScalingList} (same : SameLists acc acc')
    (sameRef : acc'.refMatrixId id = src.refMatrixId id) :
    OnlyList acc (acc'.copyRefMatrix id) id ∧ Copied src acc (acc'.copyRefMatrix id) id := by
  have coefs : (acc'.copyRefMatrix id).scalingListCoef = update acc.scalingListCoef id
      fun idx => if idx < coefNum id then acc.refAddress id (src.refMatrixId id) idx
        else acc.scalingListCoef id idx := by
    unfold copyRefMatrix
    dsimp only
    rw [sameRef]
    split <;>
      simp only [processRefMatrix, setScalingListDC, same.coef, ScalingList.refAddress]
  refine ⟨⟨?_, ?_⟩, ?_, ?_⟩
  · intro other differs
    rw [coefs, update_of_ne differs]
  · intro other differs
    rw [← same.dc]
    unfold copyRefMatrix
    dsimp only
    split
    · exact update_of_ne differs _ _
    · rfl
  · intro idx inside
    rw [coefs, update_self, if_pos inside]
  · intro large
    unfold copyRefMatrix
    dsimp only
    rw [if_pos (show id ≥ SCALING_LIST_1D_START_16x16 from large)]
    simp only [processRefMatrix, setScalingListDC, update_self, sameRef, same.coef,
      same.dc]
    rfl

theorem codes_list (small : id < 28) (legal : src.scalingListPredModeFlagIsCopy id = true ∨
      src.scalingListPreditorModeFlag id = true → LegalRef id (src.refMatrixId id)) :
    Codes False outputView (inputView fifo locations)
      (src.codeScalingListId id) (acc.parseScalingListId id)
      (fun _ parsed => Read src acc parsed id) := by
  unfold codeScalingListId parseScalingListId
  refine (codes_bool _).bind ?_
  rintro _ _ rfl
  cases copy : src.scalingListPredModeFlagIsCopy id with
  | true =>
      refine (codes_ref src ?_ small legal).readerMap (fun parsed => parsed.copyRefMatrix id)
        ?_
      · simp [setScalingListPreditorModeFlag, setScalingListCopyModeFlag, copy]
      · rintro _ parsed ⟨same, _, sameRef⟩
        rw [Read, copy, if_pos rfl]
        exact copyRefMatrix_spec ⟨same.coef, same.dc⟩ (sameRef (Or.inl copy))
  | false =>
      refine (codes_bool _).bind ?_
      rintro _ _ rfl
      refine (codes_ref src ?_ small legal).bind ?_
      · simp [setScalingListPreditorModeFlag, setScalingListCopyModeFlag, copy]
      · rintro _ parsed ⟨same, sameMode, sameRef⟩
        have mode : parsed.scalingListPreditorModeFlag id = src.scalingListPreditorModeFlag id := by
          rw [sameMode]
          simp [setScalingListPreditorModeFlag]
        rw [mode]
        have lists : SameLists acc parsed := ⟨same.coef, same.dc⟩
        refine (codes_differences (fun pred => sameRef (Or.inr pred))
          (fun pred => (legal (Or.inr pred)).before)).weaken ?_
        rintro _ result ⟨only, decoded⟩
        rw [Read, copy]
        exact ⟨lists.onlyList only, lists.decoded decoded⟩

end

/-! ## When a list comes back -/

/-- A list that predicts its DC value from itself: the writer predicts it by 16, the reader
by the value `old` that it held before. -/
def SelfPredictedDC (src : ScalingList) (old : Int) (id : Nat) : Prop :=
  (old - 16) % 256 = 0 ∧ -256 ≤ old + Int.bmod (src.scalingListDC id - 16) 256

/-- A copied list is the list it is copied from. In the others, the differences that are cut
upwards never outnumber those cut downwards by two. -/
def ListReadsBack (init src : ScalingList) (id : Nat) : Prop :=
  if src.scalingListPredModeFlagIsCopy id then
    (∀ idx < coefNum id, ¬ ZeroQuarter id idx →
      src.scalingListCoef id idx = src.refAddress id (src.refMatrixId id) idx) ∧
    (14 ≤ id → src.scalingListDC id = copiedDC src src id)
  else
    (∀ i ≤ coefNum id, (driftAt src id i).wraps ≤ 1) ∧
    (14 ≤ id → src.scalingListPreditorModeFlag id = true → src.refMatrixId id = id →
      SelfPredictedDC src (init.scalingListDC id) id)

/-- The remainder of the language has the sign of the dividend. -/
theorem tmod_eq_iff {a v : Int} (low : 1 ≤ v) : Int.tmod a 256 = v ↔ 0 ≤ a ∧ a % 256 = v := by
  by_cases negative : a < 0
  · have sign : Int.tmod a 256 = -((-a) % 256) := by
      rw [← Int.tmod_eq_emod_of_nonneg (by omega), Int.neg_tmod, Int.neg_neg]
    rw [sign]
    omega
  · rw [Int.tmod_eq_emod_of_nonneg (by omega)]
    constructor
    · intro same
      exact ⟨by omega, same⟩
    · exact fun both => both.2

section

variable {src acc parsed init : ScalingList} {id : Nat}

theorem zeroedOut_iff {i : Nat} (inside : i < coefNum id) :
    zeroedOut id i = true ↔ ZeroQuarter id (scanIdx id i) := by
  obtain ⟨line, column⟩ := scanIdx_div_mod inside
  unfold zeroedOut ZeroQuarter
  rw [decide_eq_true_iff]
  by_cases large : 26 ≤ id
  · have size : matrixSize id = 8 := by
      unfold matrixSize SCALING_LIST_1D_START_4x4 SCALING_LIST_1D_START_8x8
      rw [if_neg (by omega), if_neg (by omega)]
    rw [size] at line column
    rw [line, column]
    exact Iff.rfl
  · constructor
    · intro zeroed
      exact absurd zeroed.1 large
    · intro zeroed
      exact absurd zeroed.1 large

theorem last_driftAt_succ {i : Nat} (coded : ¬ zeroedOut id i = true) :
    (driftAt src id (i + 1)).last = target src id i := by
  rw [driftAt, if_neg coded]
  rfl

theorem default_eq (id idx : Nat) : getScalingListDefaultAddress id idx = 16 := by
  unfold getScalingListDefaultAddress
  split <;> rfl

theorem refAddress_pos (valid : Valid src) (small : id < 28) {refListId : Nat}
    (legal : LegalRef id refListId) {idx : Nat} (inside : idx < coefNum id) :
    1 ≤ src.refAddress id refListId idx := by
  unfold ScalingList.refAddress
  split
  · rw [default_eq]
    decide
  · have before := legal.before
    refine (valid.coef refListId (by omega) idx ?_).1
    rwa [coefNum, legal.size]

theorem coefNum_pos (id : Nat) : 0 < coefNum id :=
  Nat.mul_pos (matrixSize_pos id) (matrixSize_pos id)

/-- The writer's predictor of a DC value is positive. -/
theorem deltasrcDC_lt (valid : Valid src) (small : id < 28)
    (legal : LegalRef id (src.refMatrixId id)) : src.deltasrcDC id < src.scalingListDC id := by
  have before := legal.before
  unfold deltasrcDC
  dsimp only
  split
  · rename_i large
    split
    · omega
    · have positive := (valid.dc (src.refMatrixId id) (by omega) large).1
      omega
  · have positive := refAddress_pos valid small legal (coefNum_pos id)
    rw [scanIdx_zero]
    omega

/-- The first difference is cut upwards at most once. -/
theorem wraps_driftAt_zero (valid : Valid src) (small : id < 28) :
    (driftAt src id 0).wraps ≤ 1 := by
  unfold driftAt
  split
  · rename_i large
    have high := (valid.dc id small large).2
    have difference : targetDC src id - (startDrift src id).last < 256 := by
      cases mode : src.scalingListPreditorModeFlag id with
      | true =>
          have below := deltasrcDC_lt valid small (valid.ref id small (Or.inr mode))
          simp only [targetDC, startDrift, mode, if_true]
          omega
      | false =>
          simp only [targetDC, startDrift, mode, SCALING_LIST_START_VALUE]
          simp only [Bool.false_eq_true, if_false]
          omega
    show 0 + (targetDC src id - (startDrift src id).last + 128) / 256 ≤ 1
    omega
  · exact Int.zero_le_ofNat 1

/-- Earlier lists that came back give the reader the writer's reference. -/
theorem refAddress_eq (before : ∀ j < id, Reproduces src acc j)
    {refListId : Nat} (legal : LegalRef id refListId) {idx : Nat} (inside : idx < coefNum id)
    (coded : ¬ ZeroQuarter id idx) :
    acc.refAddress id refListId idx = src.refAddress id refListId idx := by
  unfold ScalingList.refAddress
  by_cases self : id = refListId
  · rw [if_pos self, if_pos self]
  · have earlier : refListId < id := Nat.lt_of_le_of_ne legal.before (Ne.symm self)
    rw [if_neg self, if_neg self]
    refine (before refListId earlier).coef idx ?_ fun quarter => coded ⟨?_, quarter.2⟩
    · rwa [coefNum, legal.size]
    · exact Nat.le_trans quarter.1 legal.before

theorem refAddress_range (before : ∀ j < id, Reproduces src acc j)
    {refListId : Nat} (legal : LegalRef id refListId) {idx : Nat} (inside : idx < coefNum id) :
    0 ≤ acc.refAddress id refListId idx ∧ acc.refAddress id refListId idx ≤ 255 := by
  unfold ScalingList.refAddress
  by_cases self : id = refListId
  · rw [if_pos self]
    simp [default_eq]
  · have earlier : refListId < id := Nat.lt_of_le_of_ne legal.before (Ne.symm self)
    rw [if_neg self]
    refine (before refListId earlier).range idx ?_
    rwa [coefNum, legal.size]

theorem not_zeroQuarter_zero : ¬ ZeroQuarter id 0 := by
  rintro ⟨_, column, _⟩
  omega

theorem copiedDC_eq (before : ∀ j < id, Reproduces src acc j)
    (legal : LegalRef id (src.refMatrixId id)) : copiedDC src acc id = copiedDC src src id := by
  unfold copiedDC
  by_cases self : id = src.refMatrixId id
  · rw [if_pos self, if_pos self]
  · have earlier : src.refMatrixId id < id := Nat.lt_of_le_of_ne legal.before (Ne.symm self)
    rw [if_neg self, if_neg self]
    split
    · exact (before _ earlier).coef 0 (coefNum_pos _) not_zeroQuarter_zero
    · exact (before _ earlier).dc (by omega)

/-- A copied list. -/
theorem reproduces_iff_of_copied (before : ∀ j < id, Reproduces src acc j)
    (legal : LegalRef id (src.refMatrixId id)) (copied : Copied src acc parsed id) :
    Reproduces src parsed id ↔
      (∀ idx < coefNum id, ¬ ZeroQuarter id idx →
        src.scalingListCoef id idx = src.refAddress id (src.refMatrixId id) idx) ∧
      (14 ≤ id → src.scalingListDC id = copiedDC src src id) := by
  constructor
  · intro back
    refine ⟨fun idx inside coded => ?_, fun large => ?_⟩
    · rw [← back.coef idx inside coded, copied.coef idx inside,
        refAddress_eq before legal inside coded]
    · rw [← back.dc large, copied.dc large, copiedDC_eq before legal]
  · rintro ⟨coefs, dcs⟩
    refine ⟨fun idx inside coded => ?_, fun large => ?_, fun idx inside => ?_⟩
    · rw [copied.coef idx inside, refAddress_eq before legal inside coded, coefs idx inside coded]
    · rw [copied.dc large, copiedDC_eq before legal, dcs large]
    · rw [copied.coef idx inside]
      exact refAddress_range before legal inside

/-- The value and the reader's predictor make up the coefficient. -/
theorem target_add_readerPred (valid : Valid src) (small : id < 28)
    (before : ∀ j < id, Reproduces src acc j) {i : Nat} (inside : i < coefNum id)
    (coded : ¬ ZeroQuarter id (scanIdx id i)) :
    target src id i + readerPred src acc id (scanIdx id i) =
      src.scalingListCoef id (scanIdx id i) := by
  unfold target readerPred
  split
  · rename_i mode
    have legal := valid.ref id small (Or.inr mode)
    rw [refAddress_eq before legal (scanIdx_lt inside) coded, deltasrc]
    omega
  · exact Int.add_zero _

/-- The same for DC values, unless a list predicts its own. -/
theorem targetDC_add_readerPredDC (valid : Valid src) (small : id < 28)
    (before : ∀ j < id, Reproduces src acc j)
    (other : src.scalingListPreditorModeFlag id = true → 14 ≤ id → src.refMatrixId id ≠ id)
    (large : 14 ≤ id) :
    targetDC src id + readerPredDC src acc id = src.scalingListDC id := by
  unfold targetDC readerPredDC
  split
  · rename_i mode
    have legal := valid.ref id small (Or.inr mode)
    have differs := other mode large
    have earlier : src.refMatrixId id < id := Nat.lt_of_le_of_ne legal.before differs
    unfold deltasrcDC SCALING_LIST_1D_START_16x16
    dsimp only
    by_cases largeRef : 14 ≤ src.refMatrixId id
    · rw [if_pos largeRef, if_neg (Ne.symm differs), if_pos largeRef,
        (before _ earlier).dc largeRef]
      omega
    · rw [if_neg largeRef, if_neg largeRef, scanIdx_zero,
        refAddress_eq before legal (coefNum_pos id) not_zeroQuarter_zero]
      omega
  · exact Int.add_zero _

/-- A coefficient comes back when the sum is at most 256 too small. -/
theorem coef_eq_iff {drift : Drift} {pred value : Int} (sum : drift.last + pred = value)
    (low : 1 ≤ value) (high : value ≤ 255) :
    Int.tmod (drift.sum + pred + 256) 256 = value ↔ drift.wraps ≤ 1 := by
  rw [tmod_eq_iff low]
  unfold Drift.sum
  omega

theorem decodedDC_iff (valid : Valid src) (small : id < 28)
    (before : ∀ j < id, Reproduces src acc j) (untouched : acc.scalingListDC id = init.scalingListDC id)
    (large : 14 ≤ id) :
    Int.tmod ((driftAt src id 0).sum + readerPredDC src acc id + 256) 256 = src.scalingListDC id ↔
      (src.scalingListPreditorModeFlag id = true → src.refMatrixId id = id →
        SelfPredictedDC src (init.scalingListDC id) id) := by
  obtain ⟨low, high⟩ := valid.dc id small large
  have first : driftAt src id 0 = (startDrift src id).next (targetDC src id) := if_pos large
  have last : (driftAt src id 0).last = targetDC src id := by rw [first]; rfl
  by_cases self : src.scalingListPreditorModeFlag id = true ∧ src.refMatrixId id = id
  · obtain ⟨mode, ref⟩ := self
    have predDC : readerPredDC src acc id = init.scalingListDC id := by
      rw [readerPredDC, if_pos mode, ref, if_pos large, untouched]
    have value : targetDC src id = src.scalingListDC id - 16 := by
      rw [targetDC, if_pos mode, deltasrcDC, ref,
        if_pos (show id ≥ SCALING_LIST_1D_START_16x16 from large), if_pos rfl]
    have sum : (driftAt src id 0).sum = Int.bmod (src.scalingListDC id - 16) 256 := by
      rw [first, Drift.sum_next, value]
      simp [startDrift, Drift.sum, mode]
    rw [predDC, sum, tmod_eq_iff low]
    simp only [mode, ref, forall_const, SelfPredictedDC]
    have residue : Int.bmod (src.scalingListDC id - 16) 256 % 256 =
        (src.scalingListDC id - 16) % 256 := Int.bmod_emod
    omega
  · have other : src.scalingListPreditorModeFlag id = true → 14 ≤ id → src.refMatrixId id ≠ id :=
      fun mode _ ref => self ⟨mode, ref⟩
    rw [coef_eq_iff (by rw [last]; exact targetDC_add_readerPredDC valid small before other large)
      low high]
    constructor
    · intro _ mode ref
      exact absurd ⟨mode, ref⟩ self
    · intro _
      exact wraps_driftAt_zero valid small

/-- A list coded by differences. -/
theorem reproduces_iff_of_decoded (valid : Valid src) (small : id < 28)
    (before : ∀ j < id, Reproduces src acc j) (untouched : acc.scalingListDC id = init.scalingListDC id)
    (decoded : Decoded src acc parsed id) :
    Reproduces src parsed id ↔
      (∀ i ≤ coefNum id, (driftAt src id i).wraps ≤ 1) ∧
      (14 ≤ id → src.scalingListPreditorModeFlag id = true → src.refMatrixId id = id →
        SelfPredictedDC src (init.scalingListDC id) id) := by
  have coef : ∀ i < coefNum id, ¬ zeroedOut id i = true →
      (parsed.scalingListCoef id (scanIdx id i) = src.scalingListCoef id (scanIdx id i) ↔
        (driftAt src id (i + 1)).wraps ≤ 1) := by
    intro i inside coded
    obtain ⟨low, high⟩ := valid.coef id small _ (scanIdx_lt inside)
    rw [decoded.coef i inside, if_neg coded]
    refine coef_eq_iff ?_ low high
    rw [last_driftAt_succ coded]
    exact target_add_readerPred valid small before inside ((zeroedOut_iff inside).not.mp coded)
  constructor
  · intro back
    refine ⟨fun i bound => ?_, fun large => ?_⟩
    · induction i with
      | zero => exact wraps_driftAt_zero valid small
      | succ i ih =>
          by_cases coded : zeroedOut id i = true
          · rw [driftAt, if_pos coded]
            exact ih (by omega)
          · refine (coef i bound coded).mp (back.coef _ (scanIdx_lt bound) ?_)
            exact (zeroedOut_iff bound).not.mp coded
    · rw [← decodedDC_iff valid small before untouched large, ← decoded.dc large]
      exact back.dc large
  · rintro ⟨wraps, self⟩
    have each : ∀ i < coefNum id, ¬ zeroedOut id i = true →
        parsed.scalingListCoef id (scanIdx id i) = src.scalingListCoef id (scanIdx id i) :=
      fun i inside coded => (coef i inside coded).mpr (wraps (i + 1) inside)
    refine ⟨fun idx inside coded => ?_, fun large => ?_, fun idx inside => ?_⟩
    · obtain ⟨i, below, rfl⟩ := exists_scanIdx inside
      exact each i below ((zeroedOut_iff below).not.mpr coded)
    · rw [decoded.dc large]
      exact (decodedDC_iff valid small before untouched large).mpr (self large)
    · obtain ⟨i, below, rfl⟩ := exists_scanIdx inside
      by_cases coded : zeroedOut id i = true
      · rw [decoded.coef i below, if_pos coded]
        decide
      · rw [each i below coded]
        obtain ⟨low, high⟩ := valid.coef id small _ inside
        exact ⟨by omega, high⟩

/-- A list whose predecessors came back comes back itself when it can. -/
theorem reproduces_iff (valid : Valid src) (small : id < 28)
    (before : ∀ j < id, Reproduces src acc j) (untouched : acc.scalingListDC id = init.scalingListDC id)
    (read : Read src acc parsed id) : Reproduces src parsed id ↔ ListReadsBack init src id := by
  obtain ⟨_, result⟩ := read
  unfold ListReadsBack
  split
  · rename_i copy
    rw [if_pos copy] at result
    exact reproduces_iff_of_copied before (valid.ref id small (Or.inl copy)) result
  · rename_i copy
    rw [if_neg copy] at result
    exact reproduces_iff_of_decoded valid small before untouched result

theorem OnlyList.reproduces_iff {j : Nat} (only : OnlyList acc parsed id) (differs : j ≠ id) :
    Reproduces src parsed j ↔ Reproduces src acc j := by
  have coef := only.coef j differs
  have dc := only.dc j differs
  constructor
  · rintro ⟨coefs, dcs, range⟩
    rw [coef] at coefs range
    rw [dc] at dcs
    exact ⟨coefs, dcs, range⟩
  · rintro ⟨coefs, dcs, range⟩
    rw [← coef] at coefs range
    rw [← dc] at dcs
    exact ⟨coefs, dcs, range⟩

end

/-! ## All lists -/

/-- In front of list `id`: later DC values are those of `init`, and the lists so far came back
exactly when each of them can. -/
structure Progress (init src acc : ScalingList) (id : Nat) : Prop where
  untouched : ∀ j, id ≤ j → acc.scalingListDC j = init.scalingListDC j
  back : (∀ j < id, Reproduces src acc j) ↔ ∀ j < id, ListReadsBack init src j

theorem Progress.next {init src acc parsed : ScalingList} {id : Nat} (valid : Valid src)
    (small : id < 28) (progress : Progress init src acc id) (read : Read src acc parsed id) :
    Progress init src parsed (id + 1) where
  untouched := by
    intro j later
    rw [read.1.dc j (by omega)]
    exact progress.untouched j (by omega)
  back := by
    have earlier : (∀ j < id, Reproduces src parsed j) ↔ ∀ j < id, Reproduces src acc j :=
      forall₂_congr fun j below => read.1.reproduces_iff (by omega)
    rw [Nat.forall_lt_succ_right, Nat.forall_lt_succ_right, earlier, ← progress.back]
    refine and_congr_right fun before => ?_
    exact reproduces_iff valid small before (progress.untouched id (Nat.le_refl id)) read

/-- Every list has come back. -/
def Reproduced (src parsed : ScalingList) : Prop := ∀ id < 28, Reproduces src parsed id

/-- Every list can be read back into the object `init`. -/
def ReadsBack (init src : ScalingList) : Prop := ∀ id < 28, ListReadsBack init src id

theorem codes_scalingList {fifo : List UInt8} {locations : List Nat} {src : ScalingList}
    (valid : Valid src) (init : ScalingList) :
    Codes False outputView (inputView fifo locations) src.codeScalingList
      init.parseScalingList (fun _ parsed => Reproduced src parsed ↔ ReadsBack init src) := by
  unfold codeScalingList parseScalingList
  refine (codes_bool _).bind ?_
  rintro _ _ rfl
  have loop : Codes False outputView (inputView fifo locations)
      ((List.range' 0 28).foldlM (fun _ => src.codeScalingListId) ())
      ((List.range' 0 28).foldlM parseScalingListId
        (init.setDisableScalingMatrixForLfnstBlks src.disableScalingMatrixForLfnstBlks))
      (fun _ parsed => Progress init src parsed (0 + 28)) := by
    refine Codes.range' (fun id _ acc => Progress init src acc id) ?_ ⟨fun _ _ => rfl, ?_⟩
    · intro id _ acc _ small progress
      refine (codes_list (by omega) (valid.ref id (by omega))).weaken fun _ parsed read => ?_
      exact progress.next valid (by omega) read
    · constructor
      · intro _ j below
        omega
      · intro _ j below
        omega
  exact loop.weaken fun _ parsed progress => progress.back

/-- `codeScalingList` writes every valid scaling list, and `parseScalingList` reads its bits to
the end without a failing check. It reproduces the lists exactly when each of them reads back. -/
theorem parse_code_scalingList_iff {src : ScalingList} (valid : Valid src) (init : ScalingList)
    {before : OutputBitstream} (wf : before.WellFormed) :
    ∃ after bits, src.codeScalingList before = .ok ((), after) ∧
      after.bits = before.bits ++ bits ∧
      ∀ (s : InputBitstream) (rest : List Bool), s.WellFormed → s.remaining = bits ++ rest →
        ∃ parsed s', init.parseScalingList s = .ok (parsed, s') ∧ s'.remaining = rest ∧
          (Reproduced src parsed ↔ ReadsBack init src) :=
  parses_written (fun _ _ => codes_scalingList valid init) wf

/-- Flat lists, each a copy of the default, but for the first one, which is coded by
differences. -/
def firstList (coefs : Nat → Int) : ScalingList where
  disableScalingMatrixForLfnstBlks := false
  scalingListPredModeFlagIsCopy := fun id => id ≠ 0
  scalingListDC := fun _ => 16
  refMatrixId := fun id => id
  scalingListPreditorModeFlag := fun _ => false
  scalingListCoef := fun id idx => if id = 0 then coefs idx else 16

theorem valid_firstList {coefs : Nat → Int} (bytes : ∀ idx < 4, 1 ≤ coefs idx ∧ coefs idx ≤ 255) :
    Valid (firstList coefs) where
  coef := by
    intro id _ idx inside
    by_cases first : id = 0
    · subst first
      exact bytes idx inside
    · simp [firstList, first]
  dc := by
    intro id _ _
    simp [firstList]
  ref := by
    intro id _ _
    exact ⟨Nat.le_refl id, rfl, fun _ => rfl⟩

theorem readsBack_firstList {coefs : Nat → Int} (init : ScalingList) :
    ReadsBack init (firstList coefs) ↔ ∀ i ≤ 4, (driftAt (firstList coefs) 0 i).wraps ≤ 1 := by
  constructor
  · intro reads
    exact (reads 0 (by decide)).1
  · intro wraps id _
    by_cases first : id = 0
    · subst first
      exact ⟨wraps, fun large => absurd large (by decide)⟩
    · rw [ListReadsBack, if_pos (by simp [firstList, first])]
      refine ⟨fun idx _ _ => ?_, fun _ => ?_⟩
      · simp [firstList, first, ScalingList.refAddress, default_eq]
      · simp [firstList, copiedDC]

/-- An object before anything was read into it. -/
def blankLists : ScalingList where
  disableScalingMatrixForLfnstBlks := true
  scalingListPredModeFlagIsCopy := fun _ => false
  scalingListDC := fun _ => 0
  refMatrixId := fun _ => 0
  scalingListPreditorModeFlag := fun _ => false
  scalingListCoef := fun _ _ => 0

/-- Coefficients that fall after a first step upwards. -/
def fallingList : ScalingList := firstList fun idx => 200 - 50 * idx

theorem parse_code_fallingList :
    Valid fallingList ∧ ReadsBack blankLists fallingList ∧
    ∃ after bits, fallingList.codeScalingList OutputBitstream.empty = .ok ((), after) ∧
      after.bits = OutputBitstream.empty.bits ++ bits ∧
      ∀ (s : InputBitstream) (rest : List Bool), s.WellFormed → s.remaining = bits ++ rest →
        ∃ parsed s', blankLists.parseScalingList s = .ok (parsed, s') ∧ s'.remaining = rest ∧
          (Reproduced fallingList parsed ↔ ReadsBack blankLists fallingList) := by
  have valid : Valid fallingList := valid_firstList (by decide)
  have reads : ReadsBack blankLists fallingList := (readsBack_firstList blankLists).mpr (by decide)
  exact ⟨valid, reads, parse_code_scalingList_iff valid blankLists OutputBitstream.wellFormed_empty⟩

/-- Two steps upwards with a step down between them: along the scan 200, 100, 240, 16. -/
def risingList : ScalingList := firstList fun idx => [200, 240, 100, 16].getD idx 0

/-- The third coefficient is lost, whatever object the list is read into. -/
theorem risingList_not_reproduced :
    Valid risingList ∧
    ∀ init : ScalingList,
      ∃ after bits, risingList.codeScalingList OutputBitstream.empty = .ok ((), after) ∧
        after.bits = OutputBitstream.empty.bits ++ bits ∧
        ∀ (s : InputBitstream) (rest : List Bool), s.WellFormed → s.remaining = bits ++ rest →
          ∃ parsed s', init.parseScalingList s = .ok (parsed, s') ∧ s'.remaining = rest ∧
            ¬ Reproduced risingList parsed := by
  have valid : Valid risingList := valid_firstList (by decide)
  refine ⟨valid, fun init => ?_⟩
  have fails : ¬ ReadsBack init risingList := by
    intro reads
    exact absurd ((readsBack_firstList init).mp reads) (by decide)
  have codes : ∀ fifo locations, Codes False outputView (inputView fifo locations)
      risingList.codeScalingList init.parseScalingList
      (fun _ parsed => ¬ Reproduced risingList parsed) := by
    intro fifo locations
    exact (codes_scalingList valid init).weaken fun _ parsed back => mt back.mp fails
  exact parses_written codes OutputBitstream.wellFormed_empty

end Vtm.RoundTrip.ScalingList
