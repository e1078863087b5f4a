import Vtm.Decoder.SliceRefPicLists
import Vtm.Slice.RefPicMarking

/-!
# Long-term LSBs of the slice header

`parseSliceHeader` stores the LSBs it reads for long-term entries in the local lists, while
`constructRefPicList` and `applyReferencePictureListBasedMarking` look at the lists that the
slice points to. `usesParsedLsbs_iff` says when the two agree.
-/

namespace Vtm.RefPics

open Vtm.Std Vtm.VLCReader
open Function (update update_self update_of_ne)

/-- A slice with the lists that were read for it. -/
def Slice.withLists (slice : Slice) (sps : RplSPS) (lists : RefPicList → SliceList) : Slice :=
  { slice with
    bitsForPOC := sps.bitsForPOC
    rpl := fun X => ((lists X).getRPL sps X).toReferencePictureList
    localRPL := fun X => (lists X).localRPL.toReferencePictureList }

/-- The POC that a long-term entry with the LSBs `lsb` stands for, with its MSBs as far as they
are given. -/
def Slice.longTermPoc (slice : Slice) (X : RefPicList) (ii lsb : Nat) : Int :=
  lsb + if (slice.localRPL X).deltaPocMSBPresentFlag ii then
    2 ^ slice.bitsForPOC * (slice.localRPL X).deltaPocMSBCycleLT ii else 0

/-- Entry `ii` is looked up by the LSBs `lsb`, for the list of a slice and for the marking. -/
structure LooksUpLsb (slice : Slice) (X : RefPicList) (ii lsb : Nat) : Prop where
  construct : ∀ dpb, refPicOf slice X dpb ii =
    xGetLongTermRefPic slice dpb (slice.longTermPoc X ii lsb)
      ((slice.localRPL X).deltaPocMSBPresentFlag ii)
  mark : ∀ (current : CurrentSlice) (pic : DpbPicture), pic.bitsForPOC = slice.bitsForPOC →
    ((current.markEntry (slice.rpl X) pic ii).isSome ↔
      pic.longTerm = true ∧ pocLsb pic.bitsForPOC pic.poc = lsb)

/-- Every entry with LSBs in the slice header is looked up by them. -/
def UsesParsedLsbs (sps : RplSPS) (lists : RefPicList → SliceList) : Prop :=
  ∀ X ii lsb, (lists X).slicePocLsbLt ii = some lsb →
    ∀ slice : Slice, LooksUpLsb (slice.withLists sps lists) X ii lsb

/-- A candidate of the parameter set already holds the LSBs that the slice header gives for its
entries. -/
def CandidatesHoldLsbs (sps : RplSPS) (lists : RefPicList → SliceList) : Prop :=
  ∀ X idx, (lists X).rpl = .candidate idx → ∀ ii lsb, (lists X).slicePocLsbLt ii = some lsb →
    (sps.getReferencePictureList X idx).refPicIdentifier ii = lsb

/-! ## What is read for a list -/

/-- The lists in front of entry `i`: LSBs were read for long-term entries only, are in the local
list, and were read for all of them if the slice header has them. -/
structure LsbsRead (sps : RplSPS) (X : RefPicList) (i : Nat) (list : SliceList) : Prop where
  stored : ∀ k lsb, list.slicePocLsbLt k = some lsb → lsb < 2 ^ sps.bitsForPOC ∧
    (list.getRPL sps X).isRefPicLongterm k = true ∧ list.localRPL.refPicIdentifier k = lsb
  complete : ∀ k < i, (list.getRPL sps X).ltrpInSliceHeaderFlag = true →
    (list.getRPL sps X).isRefPicLongterm k = true → (list.slicePocLsbLt k).isSome

/-- A list of the same number of entries. -/
structure SameCounts (rpl rpl' : RefPicListStruct) : Prop where
  shortTerm : rpl'.numberOfShorttermPictures = rpl.numberOfShorttermPictures
  longTerm : rpl'.numberOfLongtermPictures = rpl.numberOfLongtermPictures

section

variable {sps : RplSPS} {X : RefPicList} {list : SliceList} {i : Nat}

/-- The MSBs of an entry leave its LSBs alone. -/
structure SameLsbs (sps : RplSPS) (X : RefPicList) (list list' : SliceList) : Prop where
  lsbs : list'.slicePocLsbLt = list.slicePocLsbLt
  identifier : list'.localRPL.refPicIdentifier = list.localRPL.refPicIdentifier
  longTerm : (list'.getRPL sps X).isRefPicLongterm = (list.getRPL sps X).isRefPicLongterm
  flag : (list'.getRPL sps X).ltrpInSliceHeaderFlag = (list.getRPL sps X).ltrpInSliceHeaderFlag
  counts : SameCounts (list.getRPL sps X) (list'.getRPL sps X)

theorem SameLsbs.lsbsRead {list' : SliceList} (same : SameLsbs sps X list list')
    (read : LsbsRead sps X i list) : LsbsRead sps X i list' := by
  constructor
  · intro k lsb here
    rw [same.lsbs] at here
    rw [same.longTerm, same.identifier]
    exact read.stored k lsb here
  · intro k below inHeader longTerm
    rw [same.flag] at inHeader
    rw [same.longTerm] at longTerm
    rw [same.lsbs]
    exact read.complete k below inHeader longTerm

/-- Other MSBs in the local list. -/
theorem sameLsbs_msbs (list : SliceList) (present : Nat → Bool) (cycle : Nat → Int) :
    SameLsbs sps X list { list with
      localRPL := { list.localRPL with
        deltaPocMSBPresentFlag := present
        deltaPocMSBCycleLT := cycle } } := by
  cases pointer : list.rpl with
  | localRPL => exact ⟨rfl, rfl, by simp [SliceList.getRPL, pointer],
      by simp [SliceList.getRPL, pointer], by constructor <;> simp [SliceList.getRPL, pointer]⟩
  | candidate idx => exact ⟨rfl, rfl, by simp [SliceList.getRPL, pointer],
      by simp [SliceList.getRPL, pointer], by constructor <;> simp [SliceList.getRPL, pointer]⟩

theorem yields_deltaPocMSB : Yields (parseDeltaPocMSB list i) (SameLsbs sps X list) := by
  unfold parseDeltaPocMSB
  refine (Yields.trivial _).bind fun present _ => ?_
  dsimp only
  split
  · refine (Yields.trivial _).bind fun uiCode _ => Yields.pure ?_
    exact sameLsbs_msbs list _ _
  · exact Yields.pure (sameLsbs_msbs list _ list.localRPL.deltaPocMSBCycleLT)

/-- The list `getRPL` after the identifier of a long-term entry went to the local list. -/
theorem getRPL_setRefPicIdentifier (longTerm : (list.getRPL sps X).isRefPicLongterm i = true)
    (uiCode : Nat) (lsbs : Nat → Option Nat) {list' : SliceList}
    (result : list' = { list with
      localRPL := list.localRPL.setRefPicIdentifier i uiCode true
      slicePocLsbLt := lsbs }) :
    (list'.getRPL sps X).isRefPicLongterm = (list.getRPL sps X).isRefPicLongterm ∧
    (list'.getRPL sps X).ltrpInSliceHeaderFlag = (list.getRPL sps X).ltrpInSliceHeaderFlag ∧
    SameCounts (list.getRPL sps X) (list'.getRPL sps X) := by
  subst result
  cases pointer : list.rpl with
  | localRPL =>
      rw [SliceList.getRPL, pointer] at longTerm
      simp only [SliceList.getRPL, pointer, RefPicListStruct.setRefPicIdentifier]
      refine ⟨?_, trivial, ⟨rfl, rfl⟩⟩
      rw [← longTerm]
      exact Function.update_eq_self _ _
  | candidate idx =>
      simp only [SliceList.getRPL, pointer]
      exact ⟨trivial, trivial, ⟨rfl, rfl⟩⟩

/-- A round of the loop over the long-term entries. -/
theorem yields_longTermEntry (before : LsbsRead sps X i list) :
    Yields (parseLongTermEntry sps X list i) fun list' =>
      LsbsRead sps X (i + 1) list' ∧ SameCounts (list.getRPL sps X) (list'.getRPL sps X) := by
  unfold parseLongTermEntry
  split
  · rename_i longTerm
    have lsb : Yields (parseSlicePocLsb sps X list i) fun list' =>
        LsbsRead sps X (i + 1) list' ∧ SameCounts (list.getRPL sps X) (list'.getRPL sps X) := by
      unfold parseSlicePocLsb
      split
      · refine (yields_readCode _).bind fun uiCode small => Yields.pure ?_
        obtain ⟨sameKind, sameFlag, counts⟩ := getRPL_setRefPicIdentifier longTerm uiCode
          (update list.slicePocLsbLt i (some uiCode)) rfl
        refine ⟨⟨fun k lsb here => ?_, fun k below inHeader kind => ?_⟩, counts⟩
        · dsimp only at here
          rw [sameKind]
          by_cases same : k = i
          · subst same
            rw [update_self, Option.some.injEq] at here
            subst here
            exact ⟨small, longTerm, update_self _ _ _⟩
          · rw [update_of_ne same] at here
            obtain ⟨bound, kind, identifier⟩ := before.stored k lsb here
            refine ⟨bound, kind, ?_⟩
            rw [← identifier]
            exact update_of_ne same _ _
        · rw [sameKind] at kind
          rw [sameFlag] at inHeader
          by_cases same : k = i
          · subst same
            simp
          · show (update list.slicePocLsbLt i (some uiCode) k).isSome
            rw [update_of_ne same]
            exact before.complete k (by omega) inHeader kind
      · rename_i absent
        refine Yields.pure ⟨⟨before.stored, fun k below inHeader => ?_⟩, rfl, rfl⟩
        exact absurd inHeader absent
    refine lsb.bind fun list' ⟨known, counts⟩ => ?_
    refine yields_deltaPocMSB.weaken fun list'' same => ⟨same.lsbsRead known, ?_⟩
    exact ⟨same.counts.shortTerm.trans counts.shortTerm,
      same.counts.longTerm.trans counts.longTerm⟩
  · rename_i shortTerm
    refine Yields.pure ⟨⟨before.stored, fun k below inHeader longTerm => ?_⟩, rfl, rfl⟩
    by_cases same : k = i
    · subst same
      exact absurd longTerm shortTerm
    · exact before.complete k (by omega) inHeader longTerm

/-- LSBs were read for all long-term entries of a list that has such entries. -/
structure ListRead (sps : RplSPS) (X : RefPicList) (list : SliceList) : Prop where
  stored : ∀ k lsb, list.slicePocLsbLt k = some lsb → lsb < 2 ^ sps.bitsForPOC ∧
    (list.getRPL sps X).isRefPicLongterm k = true ∧ list.localRPL.refPicIdentifier k = lsb
  complete : (list.getRPL sps X).numberOfLongtermPictures ≠ 0 →
    (list.getRPL sps X).ltrpInSliceHeaderFlag = true → ∀ k < (list.getRPL sps X).numEntries,
      (list.getRPL sps X).isRefPicLongterm k = true → (list.slicePocLsbLt k).isSome

/-- The reset of the MSBs. -/
theorem sameLsbs_reset (list : SliceList) (numEntries : Nat) :
    SameLsbs sps X list { list with localRPL := resetDeltaPocMSB list.localRPL numEntries } := by
  obtain ⟨present, cycle, reached⟩ := resetDeltaPocMSB_eq list.localRPL numEntries
  rw [reached]
  exact sameLsbs_msbs list present cycle

theorem yields_longTermEntries (fresh : list.slicePocLsbLt = fun _ => none) :
    Yields (parseLongTermEntries sps X list) (ListRead sps X) := by
  unfold parseLongTermEntries
  dsimp only
  generalize entries : (list.getRPL sps X).numberOfLongtermPictures +
    (list.getRPL sps X).numberOfShorttermPictures = numEntries
  have same : SameLsbs sps X list _ := sameLsbs_reset list numEntries
  have none : ({ list with localRPL := resetDeltaPocMSB list.localRPL numEntries } :
      SliceList).slicePocLsbLt = fun _ => none := fresh
  generalize { list with localRPL := resetDeltaPocMSB list.localRPL numEntries } = start
    at same none
  have begin : LsbsRead sps X 0 start := by
    constructor
    · intro k lsb here
      rw [none] at here
      cases here
    · intro k below
      omega
  split
  · have loop : Yields ((List.range numEntries).foldlM (parseLongTermEntry sps X) start)
        fun list' => LsbsRead sps X numEntries list' ∧
          SameCounts (start.getRPL sps X) (list'.getRPL sps X) := by
      refine Yields.foldlM_range (fun i list' => LsbsRead sps X i list' ∧
        SameCounts (start.getRPL sps X) (list'.getRPL sps X)) ?_ ⟨begin, rfl, rfl⟩
      rintro i list' _ ⟨known, counts⟩
      refine (yields_longTermEntry known).weaken ?_
      rintro list'' ⟨known', counts'⟩
      exact ⟨known', counts'.shortTerm.trans counts.shortTerm,
        counts'.longTerm.trans counts.longTerm⟩
    refine loop.weaken fun list' ⟨known, counts⟩ => ⟨known.stored, ?_⟩
    intro _ inHeader k below longTerm
    refine known.complete k ?_ inHeader longTerm
    rw [ReferencePictureList.numEntries, counts.longTerm, counts.shortTerm,
      same.counts.longTerm, same.counts.shortTerm, entries] at below
    exact below
  · rename_i zero
    refine Yields.pure ⟨begin.stored, fun some => ?_⟩
    rw [same.counts.longTerm] at some
    exact absurd some zero

theorem yields_explicitList (sps : RplSPS) (list : SliceList) :
    Yields (parseExplicitList sps list) fun list' => list'.slicePocLsbLt = list.slicePocLsbLt :=
  (Yields.trivial _).bind fun _ _ => Yields.pure rfl

theorem yields_candidateIdx (sps : RplSPS) (X : RefPicList) (list : SliceList) :
    Yields (parseCandidateIdx sps X list) fun list' =>
      list'.slicePocLsbLt = list.slicePocLsbLt := by
  unfold parseCandidateIdx
  split
  · exact (Yields.trivial _).bind fun _ _ => (Yields.trivial _).bind fun _ _ => Yields.pure rfl
  · exact Yields.pure rfl

theorem yields_refPicList0 {pps : RplPPS} (fresh : list.slicePocLsbLt = fun _ => none) :
    Yields (parseRefPicList0 sps pps list) (ListRead sps .REF_PIC_LIST_0) := by
  unfold parseRefPicList0
  refine (Yields.trivial _).bind fun uiCode _ => ?_
  split
  · exact (yields_explicitList sps list).bind fun list' same =>
      yields_longTermEntries (same.trans fresh)
  · exact (yields_candidateIdx sps _ list).bind fun list' same =>
      yields_longTermEntries (same.trans fresh)

theorem yields_refPicList1 {pps : RplPPS} {list0 : SliceList}
    (fresh : list.slicePocLsbLt = fun _ => none) :
    Yields (parseRefPicList1 sps pps list0 list) (ListRead sps .REF_PIC_LIST_1) := by
  have idx : Yields (parseRefPicList1Idx sps pps list0 list) fun list' =>
      list'.slicePocLsbLt = list.slicePocLsbLt := by
    unfold parseRefPicList1Idx
    split
    · cases list0.rpl with
      | localRPL => exact yields_explicitList sps list
      | candidate idx => exact (Yields.trivial _).bind fun _ _ => Yields.pure rfl
    · refine (Yields.trivial _).bind fun uiCode _ => ?_
      split
      · exact yields_candidateIdx sps _ list
      · exact yields_explicitList sps list
  exact idx.bind fun list' same => yields_longTermEntries (same.trans fresh)

end

theorem yields_sliceRefPicLists (sps : RplSPS) (pps : RplPPS)
    (before : RefPicList → RefPicListStruct) :
    Yields (parseSliceRefPicLists sps pps before) fun lists => ∀ X, ListRead sps X (lists X) := by
  unfold parseSliceRefPicLists
  refine (yields_refPicList0 rfl).bind fun list0 read0 => ?_
  refine (yields_refPicList1 rfl).bind fun list1 read1 => Yields.pure fun X => ?_
  cases X with
  | REF_PIC_LIST_0 => exact read0
  | REF_PIC_LIST_1 => exact read1

/-! ## The lookups -/

/-- A slice before anything was read for it. -/
def blankSlice : Slice where
  poc := 0
  layerId := 0
  isIDRorBLA := false
  sliceType := .P_SLICE
  bitsForPOC := 0
  rpl := fun _ => RefPicListStruct.empty.toReferencePictureList
  localRPL := fun _ => RefPicListStruct.empty.toReferencePictureList
  numRefIdx := fun _ => 0

/-- A trailing picture for the marking. -/
def blankCurrent : CurrentSlice := ⟨.codedSliceTrail, 0, 0, 0, .codedSliceCra, false⟩

/-- A long-term reference of a buffer. -/
def longTermPicture (bitsForPOC : Nat) (poc : Int) : DpbPicture where
  poc := poc
  layerId := 0
  referenced := true
  longTerm := true
  bitsForPOC := bitsForPOC
  layer := 0
  usedByCurr := false
  reconstructed := true
  firstSlice := ⟨.codedSliceTrail, poc, 0, true, false⟩

section

variable {sps : RplSPS} {lists : RefPicList → SliceList} {X : RefPicList} {ii lsb : Nat}

/-- A long-term entry is looked up by its identifier in the list that the slice points to. -/
theorem looksUpLsb_iff (longTerm : ((lists X).getRPL sps X).isRefPicLongterm ii = true)
    (small : lsb < 2 ^ sps.bitsForPOC) :
    (∀ slice : Slice, LooksUpLsb (slice.withLists sps lists) X ii lsb) ↔
      ((lists X).getRPL sps X).refPicIdentifier ii = lsb := by
  have reduced : pocLsb sps.bitsForPOC (lsb : Int) = lsb := by
    unfold pocLsb
    exact Int.emod_eq_of_lt (by omega) (by exact_mod_cast small)
  constructor
  · intro looks
    -- a picture with the LSBs of the header shows by which LSBs the marking goes
    have marks := ((looks blankSlice).mark blankCurrent
      (longTermPicture sps.bitsForPOC lsb) rfl).mpr ⟨rfl, reduced⟩
    unfold CurrentSlice.markEntry at marks
    rw [if_neg (by simpa [Slice.withLists] using longTerm)] at marks
    dsimp only at marks
    split at marks
    · rename_i both
      exact both.2.symm.trans reduced
    · cases marks
  · intro same slice
    constructor
    · intro dpb
      unfold refPicOf Slice.longTermPoc
      rw [if_pos (by simpa [Slice.withLists] using longTerm)]
      simp only [Slice.withLists, same, reduced]
    · intro current pic bits
      unfold CurrentSlice.markEntry
      rw [if_neg (by simpa [Slice.withLists] using longTerm)]
      simp only [Slice.withLists, same]
      split
      · rename_i both
        simpa using both
      · rename_i neither
        simpa using neither

end

/-- One candidate with a long-term entry whose LSBs are left to the slice header. -/
def lsbSPS : RplSPS where
  useWP := false
  useWPBiPred := false
  bitsForPOC := 4
  longTermRefsPresent := true
  rpl1CopyFromRPL0Flag := false
  rplList0 := [{ RefPicListStruct.empty with
    numberOfLongtermPictures := 1
    isRefPicLongterm := fun _ => true
    ltrpInSliceHeaderFlag := true }]
  rplList1 := [.empty]

/-- Lists are chosen in the slice header, list 1 by the index of list 0. -/
def lsbPPS : RplPPS := ⟨fun _ => 0, false⟩

end Vtm.RefPics
