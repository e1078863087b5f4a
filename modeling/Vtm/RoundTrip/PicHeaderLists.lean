import Vtm.RoundTrip.PicHeaderParts
import Vtm.RoundTrip.RefPicListStruct

/-!
# Reading back the reference picture lists of a picture header

Both lists come back, with the LSBs and MSBs of their long-term entries, unless the picture
parameter set forces a list of the sequence where the header has none.
-/

namespace Vtm.RoundTrip.PicHeader

open Vtm.Std Vtm.VLCWriter Vtm.VLCReader Vtm.RefPics Vtm.PicHeaders Vtm.RoundTrip.RefPicListStruct VLC
open Function (update update_self update_of_ne)

/-! ## Long-term entries -/

/-- The list that was read follows the one that was written: the LSBs of the first `lsbs`
entries and the MSBs of the first `msbs` entries have come back. LSBs in the header are entered
in the local list only. -/
structure EntriesFollow (sps : RplSPS) (X : RefPicList) (written parsed : SliceList)
    (lsbs msbs : Nat) : Prop where
  shortTerm : (parsed.getRPL sps X).numberOfShorttermPictures =
    (written.getRPL sps X).numberOfShorttermPictures
  longTerm : (parsed.getRPL sps X).numberOfLongtermPictures =
    (written.getRPL sps X).numberOfLongtermPictures
  kind : ∀ ii < (written.getRPL sps X).numEntries,
    (parsed.getRPL sps X).isRefPicLongterm ii = (written.getRPL sps X).isRefPicLongterm ii
  flag : ∀ ii < (written.getRPL sps X).numEntries,
    (written.getRPL sps X).isRefPicLongterm ii = true →
      (parsed.getRPL sps X).ltrpInSliceHeaderFlag = (written.getRPL sps X).ltrpInSliceHeaderFlag
  identifier : ∀ ii < (written.getRPL sps X).numEntries,
    (written.getRPL sps X).isRefPicLongterm ii = false ∨
      (written.getRPL sps X).ltrpInSliceHeaderFlag = false ∨ parsed.rpl ≠ .localRPL ∨ ii < lsbs →
    (parsed.getRPL sps X).refPicIdentifier ii = (written.getRPL sps X).refPicIdentifier ii
  msb : ∀ ii < msbs, (written.getRPL sps X).isRefPicLongterm ii = true →
    parsed.localRPL.deltaPocMSBPresentFlag ii = written.localRPL.deltaPocMSBPresentFlag ii ∧
    (written.localRPL.deltaPocMSBPresentFlag ii = true →
      parsed.localRPL.deltaPocMSBCycleLT ii = written.localRPL.deltaPocMSBCycleLT ii)

/-- LSBs and MSBs that can be written. -/
structure FitsLongTerm (sps : RplSPS) (X : RefPicList) (list : SliceList) : Prop where
  counted : (list.getRPL sps X).Counted
  lsb : (list.getRPL sps X).ltrpInSliceHeaderFlag = true →
    ∀ ii < (list.getRPL sps X).numEntries, (list.getRPL sps X).isRefPicLongterm ii = true →
      0 ≤ (list.getRPL sps X).refPicIdentifier ii ∧
        (list.getRPL sps X).refPicIdentifier ii < 2 ^ sps.bitsForPOC
  msb : ∀ ii < (list.getRPL sps X).numEntries, (list.getRPL sps X).isRefPicLongterm ii = true →
    list.localRPL.deltaPocMSBPresentFlag ii = true →
      0 ≤ list.localRPL.deltaPocMSBCycleLT ii ∧
        list.localRPL.deltaPocMSBCycleLT ii < 2 ^ 32 - 1

section

variable {fifo : List UInt8} {locations : List Nat} {sps : HeaderSPS} {pps : HeaderPPS}
  {X : RefPicList} {written parsed : SliceList} {lsbs msbs i : Nat}

/-- MSBs are not part of what a list follows. -/
theorem EntriesFollow.setMsbs {sps : RplSPS} (follow : EntriesFollow sps X written parsed lsbs msbs)
    (present : Nat → Bool) (cycle : Nat → Int) :
    EntriesFollow sps X written
      { parsed with localRPL := { parsed.localRPL with
        deltaPocMSBPresentFlag := present
        deltaPocMSBCycleLT := cycle } } lsbs 0 := by
  obtain ⟨shortTerm, longTerm, kind, flag, identifier, _⟩ := follow
  obtain ⟨pointer, localRPL, lsb⟩ := parsed
  cases pointer with
  | localRPL =>
      exact ⟨shortTerm, longTerm, kind, flag, identifier, fun ii none => absurd none (by omega)⟩
  | candidate idx =>
      exact ⟨shortTerm, longTerm, kind, flag, identifier, fun ii none => absurd none (by omega)⟩

/-- The LSBs of a long-term entry. -/
theorem EntriesFollow.setLsb {sps : RplSPS} (follow : EntriesFollow sps X written parsed i i)
    (inside : i < (written.getRPL sps X).numEntries)
    (longTerm : (written.getRPL sps X).isRefPicLongterm i = true) {identifier : Int}
    (value : identifier = (written.getRPL sps X).refPicIdentifier i)
    (lsb : Nat → Option Nat) :
    EntriesFollow sps X written
      { parsed with
        localRPL := parsed.localRPL.setRefPicIdentifier i identifier true
        slicePocLsbLt := lsb } (i + 1) i := by
  obtain ⟨shortTerm, longTermNumber, kind, flag, known, msb⟩ := follow
  have msb' : ∀ ii < i, (written.getRPL sps X).isRefPicLongterm ii = true →
      (parsed.localRPL.setRefPicIdentifier i identifier true).deltaPocMSBPresentFlag ii =
        written.localRPL.deltaPocMSBPresentFlag ii ∧
      (written.localRPL.deltaPocMSBPresentFlag ii = true →
        (parsed.localRPL.setRefPicIdentifier i identifier true).deltaPocMSBCycleLT ii =
          written.localRPL.deltaPocMSBCycleLT ii) := by
    intro ii below
    have apart : ii ≠ i := by omega
    simpa only [RefPicListStruct.setRefPicIdentifier, update_of_ne apart] using msb ii below
  obtain ⟨pointer, localRPL, oldLsb⟩ := parsed
  cases pointer with
  | candidate idx =>
      refine ⟨shortTerm, longTermNumber, kind, flag, fun ii below _ => ?_, msb'⟩
      exact known ii below (Or.inr (Or.inr (Or.inl (by simp))))
  | localRPL =>
      refine ⟨shortTerm, longTermNumber, fun ii below => ?_, flag, fun ii below which => ?_, msb'⟩
      · by_cases here : ii = i
        · subst here
          rw [longTerm]
          exact update_self _ _ _
        · exact (update_of_ne here _ _).trans (kind ii below)
      · by_cases here : ii = i
        · subst here
          rw [← value]
          exact update_self _ _ _
        · exact (update_of_ne here _ _).trans (known ii below
            (which.imp_right (Or.imp_right (Or.imp_right fun _ => by omega))))

/-- The LSBs of a long-term entry, where the header has them. -/
theorem codes_slicePocLsb (bits : 0 < sps.bitsForPOC ∧ sps.bitsForPOC ≤ 32)
    (fits : FitsLongTerm sps.toRplSPS X written)
    (inside : i < (written.getRPL sps.toRplSPS X).numEntries)
    (longTerm : (written.getRPL sps.toRplSPS X).isRefPicLongterm i = true)
    (follow : EntriesFollow sps.toRplSPS X written parsed i i) :
    Codes False outputView (inputView fifo locations)
      (codePicPocLsb sps (written.getRPL sps.toRplSPS X) i)
      (parseSlicePocLsb sps.toRplSPS X parsed i)
      (fun _ parsed => EntriesFollow sps.toRplSPS X written parsed (i + 1) i) := by
  unfold codePicPocLsb parseSlicePocLsb
  rw [follow.flag i inside longTerm]
  cases inHeader : (written.getRPL sps.toRplSPS X).ltrpInSliceHeaderFlag with
  | false =>
      refine Codes.pure ⟨follow.shortTerm, follow.longTerm, follow.kind, follow.flag, ?_, follow.msb⟩
      exact fun ii below _ => follow.identifier ii below (Or.inr (Or.inl inHeader))
  | true =>
      obtain ⟨low, high⟩ := fits.lsb inHeader i inside longTerm
      have small : ((written.getRPL sps.toRplSPS X).refPicIdentifier i).toNat <
          2 ^ sps.bitsForPOC := by
        zify
        rwa [Int.toNat_of_nonneg low]
      refine Codes.readerMap _ (codes_intCode bits.1 bits.2 low small) ?_
      intro _ uiCode value
      exact follow.setLsb inside longTerm value _

theorem codes_deltaPocMSB {sps : RplSPS} (fits : FitsLongTerm sps X written)
    (inside : i < (written.getRPL sps X).numEntries)
    (longTerm : (written.getRPL sps X).isRefPicLongterm i = true)
    (follow : EntriesFollow sps X written parsed (i + 1) i) :
    Codes False outputView (inputView fifo locations)
      (do
        xWriteBool (written.localRPL.deltaPocMSBPresentFlag i)
        if written.localRPL.deltaPocMSBPresentFlag i then
          xWriteUvlc (word (written.localRPL.deltaPocMSBCycleLT i)))
      (parseDeltaPocMSB parsed i)
      (fun _ parsed => EntriesFollow sps X written parsed (i + 1) (i + 1)) := by
  unfold parseDeltaPocMSB
  refine (codes_bool _).bind ?_
  rintro _ _ rfl
  have others : ∀ cycle : Nat → Int,
      (∀ ii, ii ≠ i → cycle ii = parsed.localRPL.deltaPocMSBCycleLT ii) →
      (written.localRPL.deltaPocMSBPresentFlag i = true →
        cycle i = written.localRPL.deltaPocMSBCycleLT i) →
      EntriesFollow sps X written
        { parsed with localRPL := { parsed.localRPL with
          deltaPocMSBPresentFlag := update parsed.localRPL.deltaPocMSBPresentFlag i
            (written.localRPL.deltaPocMSBPresentFlag i)
          deltaPocMSBCycleLT := cycle } } (i + 1) (i + 1) := by
    intro cycle kept value
    obtain ⟨shortTerm, longTermNumber, kind, flag, identifier, _⟩ := follow.setMsbs
      (update parsed.localRPL.deltaPocMSBPresentFlag i
        (written.localRPL.deltaPocMSBPresentFlag i)) cycle
    refine ⟨shortTerm, longTermNumber, kind, flag, identifier, fun ii below isLongTerm => ?_⟩
    by_cases here : ii = i
    · subst here
      exact ⟨update_self _ _ _, value⟩
    · obtain ⟨present, same⟩ := follow.msb ii (by omega) isLongTerm
      exact ⟨(update_of_ne here _ _).trans present,
        fun set => (kept ii here).trans (same set)⟩
  cases present : written.localRPL.deltaPocMSBPresentFlag i with
  | false =>
      rw [present] at others
      refine Codes.pure (others _ (fun _ _ => rfl) ?_)
      simp
  | true =>
      obtain ⟨low, high⟩ := fits.msb i inside longTerm present
      have code : word (written.localRPL.deltaPocMSBCycleLT i) =
          (written.localRPL.deltaPocMSBCycleLT i).toNat := by
        unfold word
        omega
      rw [present] at others
      rw [if_pos rfl, code]
      refine Codes.readerMap _ (codes_uvlc (by omega)) ?_
      rintro _ _ rfl
      refine others _ (fun ii apart => update_of_ne apart _ _) fun _ => ?_
      rw [update_self]
      omega

theorem codes_longTermEntries (bits : 0 < sps.bitsForPOC ∧ sps.bitsForPOC ≤ 32)
    (fits : FitsLongTerm sps.toRplSPS X written)
    (follow : EntriesFollow sps.toRplSPS X written parsed 0 0) :
    Codes False outputView (inputView fifo locations)
      (codeLongTermEntries sps X written) (parseLongTermEntries sps.toRplSPS X parsed)
      (fun _ parsed => EntriesFollow sps.toRplSPS X written parsed
        (written.getRPL sps.toRplSPS X).numEntries
        (written.getRPL sps.toRplSPS X).numEntries) := by
  unfold codeLongTermEntries parseLongTermEntries
  dsimp only
  rw [follow.longTerm, follow.shortTerm]
  obtain ⟨present, cycle, reset⟩ := resetDeltaPocMSB_eq parsed.localRPL
    ((written.getRPL sps.toRplSPS X).numberOfLongtermPictures +
      (written.getRPL sps.toRplSPS X).numberOfShorttermPictures)
  rw [reset]
  have start := follow.setMsbs present cycle
  by_cases some : (written.getRPL sps.toRplSPS X).numberOfLongtermPictures ≠ 0
  · rw [if_pos some, if_pos some, List.range_eq_range']
    refine (Codes.range' (fun k _ parsed => EntriesFollow sps.toRplSPS X written parsed k k) ?_
      start).weaken ?_
    · intro k _ read _ inside before
      have inside' : k < (written.getRPL sps.toRplSPS X).numEntries := by
        rw [Nat.zero_add] at inside
        exact inside
      unfold codeLongTermEntry parseLongTermEntry
      dsimp only
      rw [before.kind k inside']
      cases kind : (written.getRPL sps.toRplSPS X).isRefPicLongterm k with
      | false =>
          refine Codes.pure ⟨before.shortTerm, before.longTerm, before.kind, before.flag, ?_, ?_⟩
          · intro ii below which
            by_cases here : ii = k
            · subst here
              exact before.identifier ii below (Or.inl kind)
            · exact before.identifier ii below
                (which.imp_right (Or.imp_right (Or.imp_right fun _ => by omega)))
          · intro ii below longTerm
            by_cases here : ii = k
            · subst here
              rw [kind] at longTerm
              cases longTerm
            · exact before.msb ii (by omega) longTerm
      | true =>
          refine Codes.bind (codes_slicePocLsb bits fits inside' kind before) ?_
          intro _ read' after
          exact codes_deltaPocMSB fits inside' kind after
    · intro _ read all
      rw [Nat.zero_add] at all
      exact all
  · rw [if_neg some, if_neg some]
    -- without long-term entries there is nothing left to follow
    have none : ∀ ii < (written.getRPL sps.toRplSPS X).numEntries,
        (written.getRPL sps.toRplSPS X).isRefPicLongterm ii = false := by
      intro ii below
      by_contra longTerm
      have positive := fits.counted.longTerm_pos below (by simpa using longTerm)
      omega
    refine Codes.pure ⟨start.shortTerm, start.longTerm, start.kind, start.flag, ?_, ?_⟩
    · exact fun ii below _ => start.identifier ii below (Or.inl (none ii below))
    · intro ii below longTerm
      rw [none ii below] at longTerm
      cases longTerm

/-! ## One list -/

/-- Whether the writer takes a list of the sequence. -/
def TakesCandidate (sps : HeaderSPS) (pps : HeaderPPS) (X : RefPicList) (rplIdx : Int) : Prop :=
  0 < (sps.rplList X).length ∧ pps.ppsRefPicListSPSIdc X ≠ 1 ∧ rplIdx ≠ -1

instance (sps : HeaderSPS) (pps : HeaderPPS) (X : RefPicList) (rplIdx : Int) :
    Decidable (TakesCandidate sps pps X rplIdx) :=
  inferInstanceAs (Decidable (_ ∧ _))

/-- The index after the writer has set it. -/
@[grind =] def writtenRplIdx (sps : HeaderSPS) (pps : HeaderPPS) (X : RefPicList) (rplIdx : Int) : Int :=
  if TakesCandidate sps pps X rplIdx then if 1 < (sps.rplList X).length then rplIdx else 0 else -1

/-- The list with an index, -1 for the list of the header, can be written. -/
structure FitsChoice (sps : HeaderSPS) (X : RefPicList) (idx : Int) (picList : PicList) :
    Prop where
  inVector : idx ≠ -1 → 0 ≤ idx ∧ idx ≤ (sps.rplList X).length
  candidate : idx ≠ -1 →
    FitsLongTerm sps.toRplSPS X { picList.list with rpl := .candidate idx.toNat }
  valid : idx = -1 → ValidList sps.toRplSPS (picList.list.getRPL sps.toRplSPS X)
  explicit : idx = -1 → FitsLongTerm sps.toRplSPS X picList.list

/-- A list with an index of its own can be written. -/
structure FitsOwnList (sps : HeaderSPS) (pps : HeaderPPS) (X : RefPicList) (picList : PicList) :
    Prop where
  number : (sps.rplList X).length < 2 ^ 31
  choice : FitsChoice sps X (writtenRplIdx sps pps X picList.rplIdx) picList
  code : TakesCandidate sps pps X picList.rplIdx → 1 < (sps.rplList X).length →
    picList.rplIdx.toNat < 2 ^ (ceilLog2 (sps.rplList X).length).toNat

/-- Both sides have chosen the list with index `idx`. -/
structure FollowsList (sps : HeaderSPS) (X : RefPicList) (idx : Int) (written parsed : PicList) :
    Prop where
  writtenIdx : written.rplIdx = idx
  parsedIdx : parsed.rplIdx = idx
  follow : EntriesFollow sps.toRplSPS X written.list parsed.list 0 0
  fits : FitsLongTerm sps.toRplSPS X written.list

/-- The decoder has a list: its index, its entries and the MSBs of its long-term entries. -/
structure SamePicList (sps : HeaderSPS) (X : RefPicList) (written parsed : PicList) : Prop where
  rplIdx : parsed.rplIdx = written.rplIdx
  entries : EntriesFollow sps.toRplSPS X written.list parsed.list
    (written.list.getRPL sps.toRplSPS X).numEntries
    (written.list.getRPL sps.toRplSPS X).numEntries

theorem codes_useCandidate {idx : Int} {picList : PicList} (old : PicList)
    (fits : FitsChoice sps X idx picList) (taken : idx ≠ -1) :
    Codes False outputView (inputView fifo locations) (useCandidate sps X picList idx)
      (useCandidate sps X old idx) (FollowsList sps X idx) := by
  obtain ⟨low, high⟩ := fits.inVector taken
  have inside : ¬ (idx < 0 ∨ idx > (sps.rplList X).length) := by omega
  unfold useCandidate
  refine Codes.writerCheck (Or.inr inside) fun _ => ?_
  refine Codes.readerStep (Accepts.check _ inside) (Codes.pure ⟨rfl, rfl, ?_, fits.candidate taken⟩)
  exact ⟨rfl, rfl, fun _ _ => rfl, fun _ _ _ => rfl, fun _ _ _ => rfl,
    fun ii none => absurd none (Nat.not_lt_zero ii)⟩

theorem codes_explicitList {picList : PicList} (old : PicList)
    (bits : 0 < sps.bitsForPOC ∧ sps.bitsForPOC ≤ 32) (fits : FitsChoice sps X (-1) picList) :
    Codes False outputView (inputView fifo locations) (codeExplicitList sps X picList)
      (parseHeaderList sps old) (FollowsList sps X (-1)) := by
  have valid := fits.valid rfl
  have list : Codes False outputView (inputView fifo locations) _ _ _ :=
    codes_flaggedRefPicList bits valid
  unfold codeExplicitList parseHeaderList parseExplicitList
  rw [bind_assoc]
  refine list.bind ?_
  rintro _ rpl ⟨same, flag⟩
  refine Codes.pure ⟨rfl, rfl, ⟨same.shortTerm, same.longTerm, ?_, ?_, ?_, ?_⟩, fits.explicit rfl⟩
  · exact fun ii below => (same.entries ii below).longTerm
  · exact fun ii below longTerm => flag (valid.longTerm ii below longTerm)
  · rintro ii below (shortTerm | inList | candidate | none)
    · exact (same.entries ii below).delta shortTerm
    · cases kind : (picList.list.getRPL sps.toRplSPS X).isRefPicLongterm ii with
      | false => exact (same.entries ii below).delta kind
      | true => exact (same.entries ii below).lsb kind inList
    · exact absurd rfl candidate
    · exact absurd none (Nat.not_lt_zero ii)
  · exact fun ii none => absurd none (Nat.not_lt_zero ii)

/-- The picture parameter set asks for a list of the sequence only where the header has one. -/
def ReproducibleList (sps : HeaderSPS) (pps : HeaderPPS) (X : RefPicList) (picList : PicList) :
    Prop :=
  0 < (sps.rplList X).length → 2 ≤ pps.ppsRefPicListSPSIdc X → picList.rplIdx ≠ -1

/-- A list of the sequence with an index of its own. -/
theorem codes_ownCandidate {picList : PicList} (old : PicList)
    (fits : FitsOwnList sps pps X picList) (taken : TakesCandidate sps pps X picList.rplIdx) :
    Codes False outputView (inputView fifo locations)
      (codeCandidateIdx sps X picList picList.rplIdx) (parseOwnCandidate sps X old)
      (FollowsList sps X (writtenRplIdx sps pps X picList.rplIdx)) := by
  have choice := fits.choice
  unfold codeCandidateIdx parseOwnCandidate
  unfold writtenRplIdx at choice ⊢
  rw [if_pos taken] at choice ⊢
  by_cases several : 1 < (sps.rplList X).length
  · rw [if_pos several] at choice ⊢
    rw [if_pos several, if_pos several]
    have width : 0 < (ceilLog2 (sps.rplList X).length).toNat ∧
        (ceilLog2 (sps.rplList X).length).toNat ≤ 32 := by
      have number := fits.number
      have narrow : Nat.log2 ((sps.rplList X).length - 1) < 31 :=
        (Nat.log2_lt (by omega)).mpr (by omega)
      rw [ceilLog2_of_one_lt several, Int.toNat_natCast]
      omega
    refine (codes_intCode width.1 width.2 (choice.inVector taken.2.2).1
      (fits.code taken several)).bind ?_
    rintro _ uiCode value
    rw [value]
    exact codes_useCandidate old choice taken.2.2
  · rw [if_neg several] at choice ⊢
    rw [if_neg several, if_neg several]
    exact codes_useCandidate old choice (by decide)

theorem codes_ownList {picList : PicList} (old : PicList)
    (bits : 0 < sps.bitsForPOC ∧ sps.bitsForPOC ≤ 32) (fits : FitsOwnList sps pps X picList)
    (reproducible : ReproducibleList sps pps X picList) :
    Codes False outputView (inputView fifo locations) (codeOwnList sps pps X picList)
      (parseOwnList sps pps X old)
      (FollowsList sps X (writtenRplIdx sps pps X picList.rplIdx)) := by
  have explicit : ¬ TakesCandidate sps pps X picList.rplIdx →
      Codes False outputView (inputView fifo locations) (codeExplicitList sps X picList)
        (parseHeaderList sps old)
        (FollowsList sps X (writtenRplIdx sps pps X picList.rplIdx)) := by
    intro own
    have idx : writtenRplIdx sps pps X picList.rplIdx = -1 := if_neg own
    have choice := fits.choice
    rw [idx] at choice ⊢
    exact codes_explicitList old bits choice
  unfold codeOwnList parseOwnList codeRplSpsFlag parseRefPicListSpsFlag
  by_cases some : (sps.rplList X).length > 0
  · simp only [if_pos some]
    by_cases flagged : pps.ppsRefPicListSPSIdc X = 0
    · simp only [if_pos flagged, bind_assoc, pure_bind]
      have bit : (decide (picList.rplIdx ≠ -1)).toNat < 2 ∨ False := Or.inl (Bool.toNat_lt _)
      refine (codes_flag bit).bind ?_
      rintro _ _ rfl
      by_cases set : picList.rplIdx = -1
      · rw [if_neg (by simp [set]), if_pos (by simp [set])]
        exact explicit fun taken => taken.2.2 set
      · rw [if_pos set, if_neg (by simp [set])]
        exact codes_ownCandidate old fits ⟨some, by omega, set⟩
    · simp only [if_neg flagged]
      by_cases local' : pps.ppsRefPicListSPSIdc X = 1
      · simp only [pure_bind, local']
        exact explicit fun taken => taken.2.1 local'
      · have set := reproducible some (by omega)
        simp only [if_neg local', pure_bind]
        rw [if_pos set, if_neg (by omega)]
        exact codes_ownCandidate old fits ⟨some, local', set⟩
  · simp only [if_neg some, pure_bind]
    exact explicit fun taken => some taken.1

theorem codes_finishList {idx : Int} {w : BitWriter PicList} {r : BitReader PicList}
    (bits : 0 < sps.bitsForPOC ∧ sps.bitsForPOC ≤ 32)
    (choice : Codes False outputView (inputView fifo locations) w r
      (FollowsList sps X idx)) :
    Codes False outputView (inputView fifo locations)
      (do
        let picList ← w
        codeLongTermEntries sps X picList.list
        return picList)
      (do
        let picList ← r
        let list ← parseLongTermEntries sps.toRplSPS X picList.list
        return { picList with list := list })
      (fun written parsed => SamePicList sps X written parsed ∧ written.rplIdx = idx) := by
  refine choice.bind fun written parsed chosen => ?_
  refine (codes_longTermEntries bits chosen.fits chosen.follow).bind fun _ list entries => ?_
  exact Codes.pure ⟨⟨chosen.parsedIdx.trans chosen.writtenIdx.symm, entries⟩, chosen.writtenIdx⟩

/-! ## Both lists -/

/-- Both lists can be written. -/
structure FitsLists (sps : HeaderSPS) (pps : HeaderPPS) (lists : PicLists) : Prop where
  bits : 0 < sps.bitsForPOC ∧ sps.bitsForPOC ≤ 32
  list0 : FitsOwnList sps pps .REF_PIC_LIST_0 lists.list0
  list1 : pps.rpl1IdxPresentFlag = true → FitsOwnList sps pps .REF_PIC_LIST_1 lists.list1
  copied : pps.rpl1IdxPresentFlag = false → FitsChoice sps .REF_PIC_LIST_1
    (writtenRplIdx sps pps .REF_PIC_LIST_0 lists.list0.rplIdx) lists.list1

/-- The decoder has both lists, if the header carries them. -/
structure SamePicLists (sps : HeaderSPS) (written parsed : PicLists) : Prop where
  present : parsed.picRplPresentFlag = written.picRplPresentFlag
  list0 : written.picRplPresentFlag = true →
    SamePicList sps .REF_PIC_LIST_0 written.list0 parsed.list0
  list1 : written.picRplPresentFlag = true →
    SamePicList sps .REF_PIC_LIST_1 written.list1 parsed.list1

/-- The lists with an index of their own come back. -/
structure ReproducibleLists (sps : HeaderSPS) (pps : HeaderPPS) (lists : PicLists) : Prop where
  list0 : lists.picRplPresentFlag = true → ReproducibleList sps pps .REF_PIC_LIST_0 lists.list0
  list1 : lists.picRplPresentFlag = true → pps.rpl1IdxPresentFlag = true →
    ReproducibleList sps pps .REF_PIC_LIST_1 lists.list1

theorem codes_list1Choice {lists : PicLists} {written0 parsed0 : PicList} (old : PicList)
    (fits : FitsLists sps pps lists)
    (same0 : SamePicList sps .REF_PIC_LIST_0 written0 parsed0)
    (idx0 : written0.rplIdx = writtenRplIdx sps pps .REF_PIC_LIST_0 lists.list0.rplIdx)
    (reproducible : pps.rpl1IdxPresentFlag = true →
      ReproducibleList sps pps .REF_PIC_LIST_1 lists.list1) :
    ∃ idx, Codes False outputView (inputView fifo locations)
      (codeList1Choice sps pps written0 lists.list1) (parseList1Choice sps pps parsed0 old)
      (FollowsList sps .REF_PIC_LIST_1 idx) := by
  unfold codeList1Choice parseList1Choice
  cases own : pps.rpl1IdxPresentFlag with
  | true => exact ⟨_, codes_ownList old fits.bits (fits.list1 own) (reproducible own)⟩
  | false =>
      have choice := fits.copied own
      rw [← idx0] at choice
      refine ⟨written0.rplIdx, ?_⟩
      unfold codeCopiedList parseCopiedList
      simp only [Bool.false_eq_true, not_false_eq_true, if_true, same0.rplIdx]
      by_cases taken : written0.rplIdx = -1
      · rw [taken] at choice ⊢
        exact codes_explicitList old fits.bits choice
      · rw [if_pos taken, if_pos taken]
        exact codes_useCandidate old choice taken

/-- Both lists come back in step. -/
theorem codes_picLists {lists : PicLists} (old : PicLists)
    (fits : lists.picRplPresentFlag = true → FitsLists sps pps lists)
    (reproducible : ReproducibleLists sps pps lists) :
    Codes False outputView (inputView fifo locations) (codePicLists sps pps lists)
      (parsePicLists sps pps old) (SamePicLists sps) := by
  unfold codePicLists parsePicLists
  refine (codes_bool _).bind ?_
  rintro _ _ rfl
  cases present : lists.picRplPresentFlag with
  | false => exact Codes.pure ⟨present.symm, by simp [present], by simp [present]⟩
  | true =>
      have fitsLists := fits present
      have list0 : Codes False outputView (inputView fifo locations)
          (codeList0 sps pps lists.list0) (parseList0 sps pps old.list0) _ :=
        codes_finishList fitsLists.bits
          (codes_ownList old.list0 fitsLists.bits fitsLists.list0 (reproducible.list0 present))
      refine list0.bind ?_
      rintro written0 parsed0 ⟨same0, idx0⟩
      obtain ⟨idx, choice⟩ := codes_list1Choice old.list1 fitsLists same0 idx0
        (reproducible.list1 present)
      have list1 : Codes False outputView (inputView fifo locations)
          (codeList1 sps pps written0 lists.list1) (parseList1 sps pps parsed0 old.list1) _ :=
        codes_finishList fitsLists.bits choice
      refine list1.bind ?_
      rintro written1 parsed1 ⟨same1, _⟩
      exact Codes.pure ⟨rfl, fun _ => same0, fun _ => same1⟩

/-! ## Lists that do not come back -/

/-- One of the two lists. -/
def PicLists.picList (lists : PicLists) : RefPicList → PicList
  | .REF_PIC_LIST_0 => lists.list0
  | .REF_PIC_LIST_1 => lists.list1

/-- The parameter set that asks for the lists of the header where they are written. -/
def askingPPS (pps : HeaderPPS) (lists : PicLists) : HeaderPPS :=
  { pps with ppsRefPicListSPSIdc := fun X =>
      if 2 ≤ pps.ppsRefPicListSPSIdc X ∧ (PicLists.picList lists X).rplIdx = -1 then 1
      else pps.ppsRefPicListSPSIdc X }

theorem takesCandidate_asking {lists : PicLists} :
    TakesCandidate sps (askingPPS pps lists) X (PicLists.picList lists X).rplIdx ↔
      TakesCandidate sps pps X (PicLists.picList lists X).rplIdx := by
  unfold TakesCandidate askingPPS
  dsimp only
  split <;> omega

theorem codeOwnList_asking {lists : PicLists} :
    codeOwnList sps (askingPPS pps lists) X (PicLists.picList lists X) =
      codeOwnList sps pps X (PicLists.picList lists X) := by
  have flag : codeRplSpsFlag sps (askingPPS pps lists) X (PicLists.picList lists X).rplIdx =
      codeRplSpsFlag sps pps X (PicLists.picList lists X).rplIdx := by
    unfold codeRplSpsFlag
    by_cases forced : 2 ≤ pps.ppsRefPicListSPSIdc X ∧ (PicLists.picList lists X).rplIdx = -1
    · have idc : (askingPPS pps lists).ppsRefPicListSPSIdc X = 1 := if_pos forced
      rw [if_neg (by omega : ¬ (askingPPS pps lists).ppsRefPicListSPSIdc X = 0), if_pos idc,
        if_neg (by omega : ¬ pps.ppsRefPicListSPSIdc X = 0),
        if_neg (by omega : ¬ pps.ppsRefPicListSPSIdc X = 1), forced.2]
    · have idc : (askingPPS pps lists).ppsRefPicListSPSIdc X = pps.ppsRefPicListSPSIdc X :=
        if_neg forced
      simp only [idc]
  unfold codeOwnList
  rw [flag]

theorem fitsOwnList_asking {lists : PicLists}
    (fits : FitsOwnList sps pps X (PicLists.picList lists X)) :
    FitsOwnList sps (askingPPS pps lists) X (PicLists.picList lists X) := by
  refine ⟨fits.number, ?_, fun taken => fits.code (takesCandidate_asking.mp taken)⟩
  have choice := fits.choice
  unfold writtenRplIdx at choice ⊢
  simp only [takesCandidate_asking]
  exact choice

theorem codePicLists_asking (lists : PicLists) :
    codePicLists sps (askingPPS pps lists) lists = codePicLists sps pps lists := by
  have list0 : codeOwnList sps (askingPPS pps lists) .REF_PIC_LIST_0 lists.list0 =
      codeOwnList sps pps .REF_PIC_LIST_0 lists.list0 := codeOwnList_asking
  have list1 : codeOwnList sps (askingPPS pps lists) .REF_PIC_LIST_1 lists.list1 =
      codeOwnList sps pps .REF_PIC_LIST_1 lists.list1 := codeOwnList_asking
  have flag : (askingPPS pps lists).rpl1IdxPresentFlag = pps.rpl1IdxPresentFlag := rfl
  simp only [codePicLists, codeList0, codeList1, codeList1Choice, list0, list1, flag]

/-- The lists can be written, whether they come back or not. -/
theorem writes_picLists {lists : PicLists}
    (fits : lists.picRplPresentFlag = true → FitsLists sps pps lists) :
    Writes outputView (codePicLists sps pps lists) := by
  have fits' : lists.picRplPresentFlag = true → FitsLists sps (askingPPS pps lists) lists := by
    intro present
    obtain ⟨bits, list0, list1, copied⟩ := fits present
    have fits0 : FitsOwnList sps (askingPPS pps lists) .REF_PIC_LIST_0 lists.list0 :=
      fitsOwnList_asking list0
    refine ⟨bits, fits0, fun own => fitsOwnList_asking (list1 own), fun own => ?_⟩
    have taken : TakesCandidate sps (askingPPS pps lists) .REF_PIC_LIST_0 lists.list0.rplIdx ↔
        TakesCandidate sps pps .REF_PIC_LIST_0 lists.list0.rplIdx := takesCandidate_asking
    have choice := copied own
    unfold writtenRplIdx at choice ⊢
    simp only [taken]
    exact choice
  have forced : ∀ X, 2 ≤ (askingPPS pps lists).ppsRefPicListSPSIdc X →
      (PicLists.picList lists X).rplIdx ≠ -1 := by
    intro X asked explicit
    unfold askingPPS at asked
    dsimp only at asked
    split at asked <;> omega
  have reproducible : ReproducibleLists sps (askingPPS pps lists) lists :=
    ⟨fun _ _ => forced .REF_PIC_LIST_0, fun _ _ _ => forced .REF_PIC_LIST_1⟩
  have codes : Codes False outputView (inputView [] []) _ _ _ :=
    codes_picLists lists fits' reproducible
  rw [codePicLists_asking] at codes
  exact codes.writes

/-- Without a list of the sequence the writer ends with the index -1. -/
theorem yields_codeOwnList {picList : PicList}
    (own : ¬ TakesCandidate sps pps X picList.rplIdx) :
    Yields (codeOwnList sps pps X picList) (fun written => written.rplIdx = -1) := by
  have flag : Yields (codeRplSpsFlag sps pps X picList.rplIdx) (fun rplIdx => rplIdx = -1) := by
    unfold codeRplSpsFlag
    split
    · next some =>
        split
        · next flagged =>
            refine (Yields.trivial _).bind fun _ _ => Yields.pure ?_
            by_contra set
            exact own ⟨some, by omega, set⟩
        · split
          · exact Yields.pure rfl
          · next local' =>
              refine Yields.pure ?_
              by_contra set
              exact own ⟨some, local', set⟩
    · exact Yields.pure rfl
  unfold codeOwnList
  refine flag.bind ?_
  rintro _ rfl
  rw [if_neg (by decide)]
  exact (Yields.trivial _).bind fun _ _ => Yields.pure rfl

/-- Where the parameter set asks for a list of the sequence the reader takes one. -/
theorem yields_parseOwnList (old : PicList) (some : 0 < (sps.rplList X).length)
    (asked : 2 ≤ pps.ppsRefPicListSPSIdc X) :
    Yields (parseOwnList sps pps X old) (fun parsed => parsed.rplIdx ≠ -1) := by
  have idx : ∀ uiCode : Nat, Yields (useCandidate sps X old uiCode : BitReader PicList)
      (fun parsed => parsed.rplIdx ≠ -1) := by
    intro uiCode
    unfold useCandidate
    refine (Yields.trivial _).bind fun _ _ => Yields.pure ?_
    dsimp only
    omega
  unfold parseOwnList parseRefPicListSpsFlag parseOwnCandidate
  rw [if_pos some, if_neg (by omega : ¬ pps.ppsRefPicListSPSIdc X = 0), pure_bind,
    if_neg (by omega)]
  split
  · exact (Yields.trivial _).bind fun uiCode _ => idx uiCode
  · exact idx 0

theorem yields_codePicLists {lists : PicLists} (present : lists.picRplPresentFlag = true) :
    Yields (codePicLists sps pps lists) (fun written => written.picRplPresentFlag = true ∧
      (¬ TakesCandidate sps pps .REF_PIC_LIST_0 lists.list0.rplIdx → written.list0.rplIdx = -1) ∧
      (pps.rpl1IdxPresentFlag = true →
        ¬ TakesCandidate sps pps .REF_PIC_LIST_1 lists.list1.rplIdx →
          written.list1.rplIdx = -1)) := by
  have list0 : Yields (codeList0 sps pps lists.list0) (fun written =>
      ¬ TakesCandidate sps pps .REF_PIC_LIST_0 lists.list0.rplIdx → written.rplIdx = -1) := by
    intro s written s' run own
    have yields : Yields (codeList0 sps pps lists.list0) (fun written => written.rplIdx = -1) :=
      (yields_codeOwnList own).bind fun _ idx => (Yields.trivial _).bind fun _ _ => Yields.pure idx
    exact yields s written s' run
  have list1 : ∀ written0, Yields (codeList1 sps pps written0 lists.list1) (fun written =>
      pps.rpl1IdxPresentFlag = true →
        ¬ TakesCandidate sps pps .REF_PIC_LIST_1 lists.list1.rplIdx → written.rplIdx = -1) := by
    intro written0 s written s' run flagged own
    have choice : Yields (codeList1Choice sps pps written0 lists.list1)
        (fun written => written.rplIdx = -1) := by
      unfold codeList1Choice
      rw [flagged]
      exact yields_codeOwnList own
    have yields : Yields (codeList1 sps pps written0 lists.list1)
        (fun written => written.rplIdx = -1) :=
      choice.bind fun _ idx => (Yields.trivial _).bind fun _ _ => Yields.pure idx
    exact yields s written s' run
  unfold codePicLists
  rw [present]
  refine (Yields.trivial _).bind fun _ _ => list0.bind fun written0 idx0 => ?_
  exact (list1 written0).bind fun written1 idx1 => Yields.pure ⟨rfl, idx0, idx1⟩

theorem yields_parsePicLists (old : PicLists) :
    Yields (parsePicLists sps pps old) (fun parsed => parsed.picRplPresentFlag = true →
      (0 < (sps.rplList .REF_PIC_LIST_0).length → 2 ≤ pps.ppsRefPicListSPSIdc .REF_PIC_LIST_0 →
        parsed.list0.rplIdx ≠ -1) ∧
      (pps.rpl1IdxPresentFlag = true → 0 < (sps.rplList .REF_PIC_LIST_1).length →
        2 ≤ pps.ppsRefPicListSPSIdc .REF_PIC_LIST_1 → parsed.list1.rplIdx ≠ -1)) := by
  have list0 : Yields (parseList0 sps pps old.list0) (fun parsed =>
      0 < (sps.rplList .REF_PIC_LIST_0).length → 2 ≤ pps.ppsRefPicListSPSIdc .REF_PIC_LIST_0 →
        parsed.rplIdx ≠ -1) := by
    intro s parsed s' run some asked
    have yields : Yields (parseList0 sps pps old.list0) (fun parsed => parsed.rplIdx ≠ -1) :=
      (yields_parseOwnList _ some asked).bind fun _ idx =>
        (Yields.trivial _).bind fun _ _ => Yields.pure idx
    exact yields s parsed s' run
  have list1 : ∀ parsed0, Yields (parseList1 sps pps parsed0 old.list1) (fun parsed =>
      pps.rpl1IdxPresentFlag = true → 0 < (sps.rplList .REF_PIC_LIST_1).length →
        2 ≤ pps.ppsRefPicListSPSIdc .REF_PIC_LIST_1 → parsed.rplIdx ≠ -1) := by
    intro parsed0 s parsed s' run flagged some asked
    have choice : Yields (parseList1Choice sps pps parsed0 old.list1)
        (fun parsed => parsed.rplIdx ≠ -1) := by
      unfold parseList1Choice
      rw [flagged]
      exact yields_parseOwnList _ some asked
    have yields : Yields (parseList1 sps pps parsed0 old.list1) (fun parsed => parsed.rplIdx ≠ -1) :=
      choice.bind fun _ idx => (Yields.trivial _).bind fun _ _ => Yields.pure idx
    exact yields s parsed s' run
  unfold parsePicLists
  refine (Yields.trivial _).bind fun present _ => ?_
  cases present with
  | false => exact Yields.pure fun present => absurd present (by simp)
  | true =>
      refine list0.bind fun parsed0 idx0 => (list1 parsed0).bind fun parsed1 idx1 => ?_
      exact Yields.pure fun _ => ⟨idx0, idx1⟩

/-- The lists come back exactly when the indices do. -/
theorem settles_picLists {lists old : PicLists}
    (fits : lists.picRplPresentFlag = true → FitsLists sps pps lists) :
    Settles outputView (inputView fifo locations) (codePicLists sps pps lists)
      (parsePicLists sps pps old) (ReproducibleLists sps pps lists) (SamePicLists sps) := by
  by_cases reproducible : ReproducibleLists sps pps lists
  · exact (codes_picLists old fits reproducible).settled.congr (iff_true_intro reproducible)
  · refine Settles.refuted reproducible (writes_picLists fits) ?_
    have present : lists.picRplPresentFlag = true := by
      by_contra absent
      exact reproducible ⟨fun set => absurd set absent, fun set => absurd set absent⟩
    refine Refutes.of_yields (yields_codePicLists present) (yields_parsePicLists old) ?_
    rintro written parsed ⟨flag, written0, written1⟩ asked same
    obtain ⟨asked0, asked1⟩ := asked (same.present.trans flag)
    have idx0 := (same.list0 flag).rplIdx
    have idx1 := (same.list1 flag).rplIdx
    refine reproducible ⟨fun _ some idc explicit => ?_, fun _ own some idc explicit => ?_⟩
    · exact asked0 some idc (idx0.trans (written0 fun taken => taken.2.2 explicit))
    · exact asked1 own some idc (idx1.trans (written1 own fun taken => taken.2.2 explicit))

end

end Vtm.RoundTrip.PicHeader
