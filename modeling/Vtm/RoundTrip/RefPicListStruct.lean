import Vtm.Encoder.RefPicListStruct
import Vtm.Decoder.RefPicListStruct
import Vtm.RoundTrip.VLC

/-!
# Reading back reference picture list structures

Every list of short-term and long-term entries is read back as it was written. The
candidates for list 1 that are copied from list 0 lose their long-term entries:
`parse_code_candidates_iff`.
-/

namespace Vtm.RoundTrip.RefPicListStruct

open Vtm.Std Vtm.VLCWriter Vtm.VLCReader Vtm.RefPics VLC

/-! ## Lists that can be coded -/

/-- The identifier of the last short-term entry before `ii`. -/
def prevShortTerm (rpl : ReferencePictureList) : Nat → Option Int
  | 0 => none
  | ii + 1 => if rpl.isRefPicLongterm ii then prevShortTerm rpl ii else some (rpl.refPicIdentifier ii)

/-- The difference that is coded for a short-term entry. -/
def shortTermDelta (rpl : ReferencePictureList) (ii : Nat) : Int :=
  rpl.refPicIdentifier ii - (prevShortTerm rpl ii).getD 0

/-- A list of short-term and long-term entries: the differences are integers of 32 bits,
and zero only where the parameter set allows it. -/
structure ValidList (sps : RplSPS) (rpl : RefPicListStruct) : Prop where
  counted : rpl.Counted
  entries : rpl.numEntries < 2 ^ 31
  longTerm : ∀ ii < rpl.numEntries, rpl.isRefPicLongterm ii = true → sps.longTermRefsPresent = true
  delta : ∀ ii < rpl.numEntries, rpl.isRefPicLongterm ii = false →
    -2 ^ 31 < shortTermDelta rpl.toReferencePictureList ii ∧
      shortTermDelta rpl.toReferencePictureList ii < 2 ^ 31
  nonzero : sps.isForbiddenZeroDeltaPoc = true → ∀ ii < rpl.numEntries,
    rpl.isRefPicLongterm ii = false → shortTermDelta rpl.toReferencePictureList ii ≠ 0
  lsb : rpl.ltrpInSliceHeaderFlag = false → ∀ ii < rpl.numEntries,
    rpl.isRefPicLongterm ii = true →
      0 ≤ rpl.refPicIdentifier ii ∧ rpl.refPicIdentifier ii < 2 ^ sps.bitsForPOC

/-- An entry has come back: its kind, its difference or its LSBs. -/
structure SameEntry (src parsed : RefPicListStruct) (ii : Nat) : Prop where
  longTerm : parsed.isRefPicLongterm ii = src.isRefPicLongterm ii
  delta : src.isRefPicLongterm ii = false → parsed.refPicIdentifier ii = src.refPicIdentifier ii
  lsb : src.isRefPicLongterm ii = true → src.ltrpInSliceHeaderFlag = false →
    parsed.refPicIdentifier ii = src.refPicIdentifier ii

/-- A list has come back. -/
structure SameList (src parsed : RefPicListStruct) : Prop where
  shortTerm : parsed.numberOfShorttermPictures = src.numberOfShorttermPictures
  longTerm : parsed.numberOfLongtermPictures = src.numberOfLongtermPictures
  entries : ∀ ii < src.numEntries, SameEntry src parsed ii

section

variable {fifo : List UInt8} {locations : List Nat} {sps : RplSPS} {src : RefPicListStruct}

/-! ## One list -/

theorem codes_shortTerm {deltaValue : Int} (low : -2 ^ 31 < deltaValue) (high : deltaValue < 2 ^ 31)
    (nonzero : sps.isForbiddenZeroDeltaPoc = true → deltaValue ≠ 0) :
    Codes False outputView (inputView fifo locations)
      (xCodeShortTerm sps.isForbiddenZeroDeltaPoc deltaValue) (parseShortTerm sps)
      (fun _ readValue => readValue = deltaValue) := by
  have absolute : Codes False outputView (inputView fifo locations)
      (xCodeAbsDelta sps.isForbiddenZeroDeltaPoc deltaValue.natAbs) xReadUvlc
      (fun _ code => (if !sps.useWP && !sps.useWPBiPred then code + 1 else code) =
        deltaValue.natAbs) := by
    unfold xCodeAbsDelta
    cases forbidden : sps.isForbiddenZeroDeltaPoc with
    | true =>
        have some := nonzero forbidden
        refine Codes.writerCheck (Or.inr (by omega)) fun _ => ?_
        refine (codes_uvlc (by omega)).weaken ?_
        rintro _ _ rfl
        rw [if_pos (show (!sps.useWP && !sps.useWPBiPred) = true from forbidden)]
        omega
    | false =>
        refine (codes_uvlc (by omega)).weaken ?_
        rintro _ _ rfl
        rw [if_neg (by rw [show (!sps.useWP && !sps.useWPBiPred) = false from forbidden]; simp)]
  unfold xCodeShortTerm parseShortTerm
  refine absolute.bind fun _ code value => ?_
  dsimp only
  rw [value]
  by_cases positive : deltaValue.natAbs > 0
  · rw [if_pos positive, if_pos positive]
    refine (codes_bool _).readerMap (fun code => if code then (deltaValue.natAbs : Int)
      else 0 - (deltaValue.natAbs : Int)) ?_
    rintro _ _ rfl
    by_cases negative : deltaValue < 0
    · have value : 0 - (deltaValue.natAbs : Int) = deltaValue := by omega
      simpa [negative] using value
    · have value : (deltaValue.natAbs : Int) = deltaValue := by omega
      simpa [negative] using value
  · rw [if_neg positive, if_neg positive]
    exact Codes.pure (by omega)

theorem codes_isLongTerm {isLongTerm : Bool}
    (present : isLongTerm = true → sps.longTermRefsPresent = true) :
    Codes False outputView (inputView fifo locations)
      (xCodeLongTermFlag sps.longTermRefsPresent (!isLongTerm)) (parseIsLongTerm sps)
      (fun _ read => read = isLongTerm) := by
  unfold xCodeLongTermFlag parseIsLongTerm
  cases allowed : sps.longTermRefsPresent with
  | true =>
      have fits : (!isLongTerm).toNat < 2 ∨ False := Or.inl (Bool.toNat_lt _)
      refine Codes.readerMap (fun code => !(code == 1)) (codes_flag fits) ?_
      rintro _ _ rfl
      cases isLongTerm <;> rfl
  | false =>
      refine Codes.pure ?_
      cases isLongTerm with
      | true => exact absurd (present rfl) (by rw [allowed]; simp)
      | false => rfl

theorem codes_ltrpInSliceHeaderFlag :
    Codes False outputView (inputView fifo locations)
      (xCodeLongTermFlag sps.longTermRefsPresent src.ltrpInSliceHeaderFlag)
      (parseLtrpInSliceHeaderFlag sps .empty)
      (fun _ rpl => sps.longTermRefsPresent = true →
        rpl.ltrpInSliceHeaderFlag = src.ltrpInSliceHeaderFlag) := by
  unfold xCodeLongTermFlag parseLtrpInSliceHeaderFlag
  cases allowed : sps.longTermRefsPresent with
  | true =>
      refine (codes_bool _).readerMap (fun code => { RefPicListStruct.empty with
        ltrpInSliceHeaderFlag := code }) ?_
      rintro _ _ rfl _
      rfl
  | false =>
      refine Codes.pure ?_
      simp

/-- The reader in front of entry `i`. -/
structure EntriesRead (sps : RplSPS) (src : RefPicListStruct) (i : Nat) (read : ParsedEntries) :
    Prop where
  prevDelta : read.prevDelta = prevShortTerm src.toReferencePictureList i
  numLtrp : read.numLtrp = (List.range i).countP src.isRefPicLongterm
  total : read.numStrp + read.numLtrp = i
  flag : sps.longTermRefsPresent = true →
    read.rpl.ltrpInSliceHeaderFlag = src.ltrpInSliceHeaderFlag
  same : ∀ k < i, SameEntry src read.rpl k

/-- Entering entry `i`. -/
theorem SameEntry.setRefPicIdentifier {rpl : RefPicListStruct} {i : Nat} {identifier : Int}
    (before : ∀ k < i, SameEntry src rpl k)
    (value : src.isRefPicLongterm i = false ∨ src.ltrpInSliceHeaderFlag = false →
      identifier = src.refPicIdentifier i) :
    ∀ k < i + 1, SameEntry src (rpl.setRefPicIdentifier i identifier (src.isRefPicLongterm i)) k := by
  intro k below
  by_cases here : k = i
  · subst here
    simp only [RefPicListStruct.setRefPicIdentifier]
    constructor
    · simp
    · intro shortTerm
      simpa using value (Or.inl shortTerm)
    · intro _ inList
      simpa using value (Or.inr inList)
  · obtain ⟨longTerm, delta, lsb⟩ := before k (by omega)
    simp only [RefPicListStruct.setRefPicIdentifier]
    constructor
    · simpa [Function.update_of_ne here] using longTerm
    · simpa [Function.update_of_ne here] using delta
    · simpa [Function.update_of_ne here] using lsb

theorem codes_entry (bits : 0 < sps.bitsForPOC ∧ sps.bitsForPOC ≤ 32) (valid : ValidList sps src)
    {i : Nat} (inside : i < src.numEntries) {read : ParsedEntries}
    (before : EntriesRead sps src i read) :
    Codes False outputView (inputView fifo locations)
      (xCodeRefPicEntry src sps.longTermRefsPresent sps.bitsForPOC sps.isForbiddenZeroDeltaPoc
        (prevShortTerm src.toReferencePictureList i) i)
      (parseRefPicEntry sps read i)
      (fun prevDelta read' => prevDelta = prevShortTerm src.toReferencePictureList (i + 1) ∧
        EntriesRead sps src (i + 1) read') := by
  unfold xCodeRefPicEntry parseRefPicEntry
  refine (codes_isLongTerm (valid.longTerm i inside)).bind ?_
  rintro _ _ rfl
  have total := before.total
  cases longTerm : src.isRefPicLongterm i with
  | false =>
      obtain ⟨low, high⟩ := valid.delta i inside longTerm
      have next : prevShortTerm src.toReferencePictureList (i + 1) =
          some (src.refPicIdentifier i) := by
        rw [prevShortTerm, longTerm]
        rfl
      refine (codes_shortTerm low high fun forbidden =>
        valid.nonzero forbidden i inside longTerm).bind ?_
      rintro _ _ rfl
      have value : read.prevDelta.getD 0 + shortTermDelta src.toReferencePictureList i =
          src.refPicIdentifier i := by
        rw [before.prevDelta, shortTermDelta]
        omega
      rw [value]
      refine Codes.pure ⟨next.symm, next.symm, ?_, ?_, before.flag, ?_⟩
      · rw [List.range_succ, List.countP_append, before.numLtrp]
        simp [longTerm]
      · dsimp only
        omega
      · rw [← longTerm]
        exact SameEntry.setRefPicIdentifier before.same fun _ => rfl
  | true =>
      have present := valid.longTerm i inside longTerm
      have next : prevShortTerm src.toReferencePictureList (i + 1) =
          prevShortTerm src.toReferencePictureList i := by
        rw [prevShortTerm, longTerm]
        rfl
      have lsbs : Codes False outputView (inputView fifo locations)
          (xCodeLongTerm src sps.bitsForPOC i) (parseLongTerm sps read.rpl)
          (fun _ code => src.ltrpInSliceHeaderFlag = false →
            (code : Int) = src.refPicIdentifier i) := by
        unfold xCodeLongTerm parseLongTerm
        rw [before.flag present]
        cases inList : src.ltrpInSliceHeaderFlag with
        | true =>
            refine Codes.pure ?_
            simp
        | false =>
            obtain ⟨nonneg, small⟩ := valid.lsb inList i inside longTerm
            have word : (2 : Int) ^ sps.bitsForPOC ≤ 2 ^ 32 :=
              pow_le_pow_right₀ (by decide) bits.2
            have code : ((src.refPicIdentifier i % 2 ^ 32).toNat : Int) = src.refPicIdentifier i := by
              rw [Int.toNat_of_nonneg (by omega)]
              exact Int.emod_eq_of_lt nonneg (by omega)
            have fits : (src.refPicIdentifier i % 2 ^ 32).toNat < 2 ^ sps.bitsForPOC := by
              zify
              rw [code]
              exact small
            refine (codes_code bits.1 bits.2 (Or.inl fits)).weaken ?_
            rintro _ _ rfl _
            exact code
      refine lsbs.bind fun _ code value => ?_
      refine Codes.pure ⟨next.symm, by rw [next]; exact before.prevDelta, ?_, ?_, before.flag, ?_⟩
      · rw [List.range_succ, List.countP_append, before.numLtrp]
        simp [longTerm]
      · dsimp only
        omega
      · rw [← longTerm]
        refine SameEntry.setRefPicIdentifier before.same fun either => value ?_
        rcases either with shortTerm | inList
        · rw [longTerm] at shortTerm
          cases shortTerm
        · exact inList

/-- A list and the flag that goes with its long-term entries. -/
theorem codes_flaggedRefPicList (bits : 0 < sps.bitsForPOC ∧ sps.bitsForPOC ≤ 32)
    (valid : ValidList sps src) :
    Codes False outputView (inputView fifo locations)
      (xCodeRefPicList src sps.longTermRefsPresent sps.bitsForPOC sps.isForbiddenZeroDeltaPoc)
      (parseRefPicList sps .empty) (fun _ parsed => SameList src parsed ∧
        (sps.longTermRefsPresent = true →
          parsed.ltrpInSliceHeaderFlag = src.ltrpInSliceHeaderFlag)) := by
  have entries := valid.entries
  have counted := valid.counted
  have number : src.numberOfShorttermPictures + src.numberOfLongtermPictures = src.numEntries :=
    Nat.add_comm _ _
  unfold xCodeRefPicList parseRefPicList
  dsimp only
  rw [number]
  refine (codes_uvlc (by omega)).bind ?_
  rintro _ _ rfl
  refine codes_ltrpInSliceHeaderFlag.bind fun _ rpl flag => ?_
  have loop : Codes False outputView (inputView fifo locations)
      ((List.range' 0 src.numEntries).foldlM (xCodeRefPicEntry src sps.longTermRefsPresent
        sps.bitsForPOC sps.isForbiddenZeroDeltaPoc) none)
      ((List.range' 0 src.numEntries).foldlM (parseRefPicEntry sps) ⟨none, 0, 0, rpl⟩)
      (fun prevDelta read =>
        prevDelta = prevShortTerm src.toReferencePictureList (0 + src.numEntries) ∧
        EntriesRead sps src (0 + src.numEntries) read) := by
    refine Codes.range' (fun i prevDelta read =>
      prevDelta = prevShortTerm src.toReferencePictureList i ∧ EntriesRead sps src i read) ?_ ?_
    · rintro i _ read _ inside ⟨rfl, before⟩
      exact codes_entry bits valid (by omega) before
    · exact ⟨rfl, rfl, rfl, rfl, flag, fun k below => absurd below (Nat.not_lt_zero k)⟩
  refine loop.bind fun _ read after => Codes.pure ?_
  rw [Nat.zero_add] at after
  obtain ⟨_, _, numLtrp, total, flag, same⟩ := after
  have longTerm : read.numLtrp = src.numberOfLongtermPictures := numLtrp.trans counted
  refine ⟨⟨?_, longTerm, fun ii inside => ?_⟩, flag⟩
  · dsimp only
    omega
  · obtain ⟨kind, delta, lsb⟩ := same ii inside
    exact ⟨kind, delta, lsb⟩

theorem codes_refPicList (bits : 0 < sps.bitsForPOC ∧ sps.bitsForPOC ≤ 32)
    (valid : ValidList sps src) :
    Codes False outputView (inputView fifo locations)
      (xCodeRefPicList src sps.longTermRefsPresent sps.bitsForPOC sps.isForbiddenZeroDeltaPoc)
      (parseRefPicList sps .empty) (fun _ parsed => SameList src parsed) :=
  (codes_flaggedRefPicList bits valid).weaken fun _ _ same => same.1

/-! ## The candidates of a parameter set -/

theorem codes_candidates (bits : 0 < sps.bitsForPOC ∧ sps.bitsForPOC ≤ 32)
    {rplList : List RefPicListStruct} (number : rplList.length < 2 ^ 31)
    (valid : ∀ rpl ∈ rplList, ValidList sps rpl) :
    Codes False outputView (inputView fifo locations)
      (codeCandidates sps rplList) (parseCandidates sps)
      (fun _ parsed => List.Forall₂ SameList rplList parsed) := by
  unfold codeCandidates parseCandidates
  refine (codes_uvlc (by omega)).bind ?_
  rintro _ _ rfl
  -- the lists so far have come back, the others are left to write
  refine (Codes.foldlM (fun left _ _ parsed => ∃ done, rplList = done ++ left ∧
    List.Forall₂ SameList done parsed) ?_ rplList (List.range rplList.length) (by simp)
    ⟨[], rfl, .nil⟩).weaken ?_
  · rintro rpl left _ _ _ parsed ⟨done, split, same⟩
    have member : rpl ∈ rplList := by simp [split]
    refine (codes_refPicList bits (valid rpl member)).readerMap
      (fun rpl => parsed ++ [rpl]) fun _ rpl' back => ?_
    refine ⟨done ++ [rpl], by simp [split], ?_⟩
    exact List.rel_append same (.cons back .nil)
  · rintro _ parsed ⟨done, split, same⟩
    rwa [split, List.append_nil]

end

/-- The parameter set before the candidates are read. -/
def freshSPS (sps : RplSPS) : RplSPS where
  useWP := sps.useWP
  useWPBiPred := sps.useWPBiPred
  bitsForPOC := sps.bitsForPOC
  longTermRefsPresent := false
  rpl1CopyFromRPL0Flag := false
  rplList0 := []
  rplList1 := []

/-- A parameter set whose candidates can be coded; those for list 1 only when they are. -/
structure ValidSPS (sps : RplSPS) : Prop where
  bits : 0 < sps.bitsForPOC ∧ sps.bitsForPOC ≤ 32
  number0 : sps.rplList0.length < 2 ^ 31
  number1 : sps.rplList1.length < 2 ^ 31
  list0 : ∀ rpl ∈ sps.rplList0, ValidList sps rpl
  list1 : sps.rpl1CopyFromRPL0Flag = false → ∀ rpl ∈ sps.rplList1, ValidList sps rpl

/-- The candidates have come back, and those for list 1 that are copied equal those for
list 0. -/
structure Reproduced (sps parsed : RplSPS) : Prop where
  list0 : List.Forall₂ SameList sps.rplList0 parsed.rplList0
  list1 : sps.rpl1CopyFromRPL0Flag = false → List.Forall₂ SameList sps.rplList1 parsed.rplList1
  copy : sps.rpl1CopyFromRPL0Flag = true →
    List.Forall₂ SameList parsed.rplList0 parsed.rplList1

/-- No candidate that is copied has long-term entries. -/
def CopiesShortTerm (sps : RplSPS) : Prop :=
  sps.rpl1CopyFromRPL0Flag = true → ∀ rpl ∈ sps.rplList0, rpl.numberOfLongtermPictures = 0

/-- The entries of the loop of `copyRefPicList`. -/
theorem foldl_setRefPicIdentifier (source_rpl dest_rp : RefPicListStruct) (n : Nat) :
    ∀ parsed, parsed = (List.range n).foldl (fun dest_rp ii => dest_rp.setRefPicIdentifier ii
      (source_rpl.refPicIdentifier ii) (source_rpl.isRefPicLongterm ii)) dest_rp →
    parsed.numberOfShorttermPictures = dest_rp.numberOfShorttermPictures ∧
    parsed.numberOfLongtermPictures = dest_rp.numberOfLongtermPictures ∧
    ∀ ii < n, SameEntry source_rpl parsed ii := by
  induction n with
  | zero =>
      rintro _ rfl
      exact ⟨rfl, rfl, fun ii below => absurd below (Nat.not_lt_zero ii)⟩
  | succ n ih =>
      rintro _ rfl
      rw [List.range_succ, List.foldl_append]
      obtain ⟨shortTerm, longTerm, same⟩ := ih _ rfl
      exact ⟨shortTerm, longTerm, SameEntry.setRefPicIdentifier same fun _ => rfl⟩

/-- A copy into an empty list is the list when that has no long-term entries. -/
theorem sameList_copyRefPicList_iff (sps : RplSPS) (rpl : RefPicListStruct) :
    SameList rpl (copyRefPicList sps rpl .empty) ↔ rpl.numberOfLongtermPictures = 0 := by
  obtain ⟨shortTerm, longTerm, same⟩ := foldl_setRefPicIdentifier rpl
    { RefPicListStruct.empty with numberOfShorttermPictures := rpl.numberOfShorttermPictures }
    rpl.numberOfShorttermPictures _ rfl
  have copied : copyRefPicList sps rpl .empty =
      (List.range rpl.numberOfShorttermPictures).foldl (fun dest_rp ii =>
        dest_rp.setRefPicIdentifier ii (rpl.refPicIdentifier ii) (rpl.isRefPicLongterm ii))
        { RefPicListStruct.empty with
          numberOfShorttermPictures := rpl.numberOfShorttermPictures } := by
    unfold copyRefPicList
    dsimp only
    split <;> rfl
  rw [← copied] at shortTerm longTerm same
  constructor
  · intro back
    rw [← back.longTerm, longTerm]
    rfl
  · intro none
    refine ⟨shortTerm, longTerm.trans none.symm, fun ii inside => same ii ?_⟩
    rw [ReferencePictureList.numEntries, none, Nat.zero_add] at inside
    exact inside

theorem forall₂_copy_iff (sps : RplSPS) {written parsed : List RefPicListStruct}
    (same : List.Forall₂ SameList written parsed) :
    List.Forall₂ SameList parsed (parsed.map fun rpl => copyRefPicList sps rpl .empty) ↔
      ∀ rpl ∈ written, rpl.numberOfLongtermPictures = 0 := by
  induction same with
  | nil => simp
  | cons here _ ih =>
      rw [List.map_cons, List.forall₂_cons, ih, sameList_copyRefPicList_iff, here.longTerm,
        List.forall_mem_cons]

/-- Two parameter sets by which lists are coded alike. -/
structure SameCoding (sps parsing : RplSPS) : Prop where
  useWP : parsing.useWP = sps.useWP
  useWPBiPred : parsing.useWPBiPred = sps.useWPBiPred
  bitsForPOC : parsing.bitsForPOC = sps.bitsForPOC
  longTermRefsPresent : parsing.longTermRefsPresent = sps.longTermRefsPresent

section

variable {sps parsing : RplSPS} (same : SameCoding sps parsing)
include same

theorem SameCoding.isForbiddenZeroDeltaPoc :
    parsing.isForbiddenZeroDeltaPoc = sps.isForbiddenZeroDeltaPoc := by
  unfold RplSPS.isForbiddenZeroDeltaPoc
  rw [same.useWP, same.useWPBiPred]

theorem SameCoding.validList {rpl : RefPicListStruct} (valid : ValidList sps rpl) :
    ValidList parsing rpl where
  counted := valid.counted
  entries := valid.entries
  longTerm := by
    rw [same.longTermRefsPresent]
    exact valid.longTerm
  delta := valid.delta
  nonzero := by
    rw [same.isForbiddenZeroDeltaPoc]
    exact valid.nonzero
  lsb := by
    rw [same.bitsForPOC]
    exact valid.lsb

/-- The candidates for one list, read by another parameter set. -/
theorem SameCoding.codes_candidates {fifo : List UInt8} {locations : List Nat}
    (bits : 0 < sps.bitsForPOC ∧ sps.bitsForPOC ≤ 32) {rplList : List RefPicListStruct}
    (number : rplList.length < 2 ^ 31) (valid : ∀ rpl ∈ rplList, ValidList sps rpl) :
    Codes False outputView (inputView fifo locations)
      (codeCandidates sps rplList) (parseCandidates parsing)
      (fun _ parsed => List.Forall₂ SameList rplList parsed) := by
  have written : codeCandidates sps rplList = codeCandidates parsing rplList := by
    unfold codeCandidates
    rw [same.longTermRefsPresent, same.bitsForPOC, same.isForbiddenZeroDeltaPoc]
  rw [written]
  rw [← same.bitsForPOC] at bits
  exact RefPicListStruct.codes_candidates bits number fun rpl member =>
    same.validList (valid rpl member)

end

theorem codes_spsRefPicLists {fifo : List UInt8} {locations : List Nat} {sps : RplSPS}
    (valid : ValidSPS sps) :
    Codes False outputView (inputView fifo locations) (codeSPSRefPicLists sps)
      (parseSPSRefPicLists (freshSPS sps))
      (fun _ parsed => Reproduced sps parsed ↔ CopiesShortTerm sps) := by
  unfold codeSPSRefPicLists parseSPSRefPicLists
  refine (codes_bool _).bind ?_
  rintro _ _ rfl
  refine (codes_bool _).bind ?_
  rintro _ _ rfl
  have coding0 : SameCoding sps { freshSPS sps with
      longTermRefsPresent := sps.longTermRefsPresent
      rpl1CopyFromRPL0Flag := sps.rpl1CopyFromRPL0Flag } := ⟨rfl, rfl, rfl, rfl⟩
  refine (coding0.codes_candidates valid.bits valid.number0 valid.list0).bind
    fun _ rplList0 same0 => ?_
  dsimp only
  cases copy : sps.rpl1CopyFromRPL0Flag with
  | false =>
      have coding1 : SameCoding sps { freshSPS sps with
          longTermRefsPresent := sps.longTermRefsPresent
          rpl1CopyFromRPL0Flag := false
          rplList0 := rplList0 } := ⟨rfl, rfl, rfl, rfl⟩
      refine (coding1.codes_candidates valid.bits valid.number1 (valid.list1 copy)).readerMap
        (fun rplList1 => { freshSPS sps with
          longTermRefsPresent := sps.longTermRefsPresent
          rpl1CopyFromRPL0Flag := false
          rplList0 := rplList0
          rplList1 := rplList1 }) fun _ rplList1 same1 => ?_
      refine ⟨fun _ copies => absurd (copy.symm.trans copies) (by simp), fun _ => ?_⟩
      exact ⟨same0, fun _ => same1, fun copies => absurd (copy.symm.trans copies) (by simp)⟩
  | true =>
      refine Codes.pure ?_
      constructor
      · intro back _
        exact (forall₂_copy_iff _ same0).mp (back.copy copy)
      · intro copies
        refine ⟨same0, fun coded => absurd (copy.symm.trans coded) (by simp), fun _ => ?_⟩
        exact (forall₂_copy_iff _ same0).mpr (copies copy)

/-- A list, and the candidates of a parameter set, are written and read to their end without a
failing check. A list comes back as it was written; the candidates come back, those for list 1
equal to the ones they are copied from, exactly when no copied one has long-term entries. -/
theorem parse_code_candidates_iff {sps : RplSPS} (valid : ValidSPS sps) {before : OutputBitstream}
    (wf : before.WellFormed) :
    (∀ rpl, ValidList sps rpl →
      ∃ after bits, xCodeRefPicList rpl sps.longTermRefsPresent sps.bitsForPOC
          sps.isForbiddenZeroDeltaPoc before = .ok ((), after) ∧
        after.bits = before.bits ++ bits ∧
        ∀ (s : InputBitstream) (rest : List Bool), s.WellFormed → s.remaining = bits ++ rest →
          ∃ parsed s', parseRefPicList sps .empty s = .ok (parsed, s') ∧ s'.remaining = rest ∧
            SameList rpl parsed) ∧
    ∃ after bits, codeSPSRefPicLists sps before = .ok ((), after) ∧
      after.bits = before.bits ++ bits ∧
      ∀ (s : InputBitstream) (rest : List Bool), s.WellFormed → s.remaining = bits ++ rest →
        ∃ parsed s', parseSPSRefPicLists (freshSPS sps) s = .ok (parsed, s') ∧
          s'.remaining = rest ∧ (Reproduced sps parsed ↔ CopiesShortTerm sps) := by
  constructor
  · intro rpl validList
    exact parses_written (fun _ _ => codes_refPicList valid.bits validList) wf
  · exact parses_written (fun _ _ => codes_spsRefPicLists valid) wf

/-- Two entries, the first one for the picture before and the second one of the given kind. -/
def twoEntries (longTerm : Bool) : RefPicListStruct where
  numberOfShorttermPictures := if longTerm then 1 else 2
  numberOfLongtermPictures := if longTerm then 1 else 0
  isRefPicLongterm := fun ii => ii = 1 && longTerm
  refPicIdentifier := fun ii => ii + 1
  deltaPocMSBPresentFlag := fun _ => false
  deltaPocMSBCycleLT := fun _ => 0
  ltrpInSliceHeaderFlag := false

/-- One candidate for list 0, which is copied to list 1. -/
def copyingSPS (longTerm : Bool) : RplSPS where
  useWP := false
  useWPBiPred := false
  bitsForPOC := 8
  longTermRefsPresent := true
  rpl1CopyFromRPL0Flag := true
  rplList0 := [twoEntries longTerm]
  rplList1 := []

theorem validSPS_copyingSPS (longTerm : Bool) : ValidSPS (copyingSPS longTerm) where
  bits := by simp [copyingSPS]
  number0 := by simp [copyingSPS]
  number1 := by simp [copyingSPS]
  list0 := by
    intro rpl member
    obtain rfl := List.mem_singleton.mp member
    cases longTerm <;> exact ⟨by decide, by decide, by decide, by decide, by decide, by decide⟩
  list1 := by simp [copyingSPS]

theorem parse_code_copyingSPS :
    ValidSPS (copyingSPS false) ∧ CopiesShortTerm (copyingSPS false) ∧
    ∃ after bits, codeSPSRefPicLists (copyingSPS false) OutputBitstream.empty = .ok ((), after) ∧
      after.bits = OutputBitstream.empty.bits ++ bits ∧
      ∀ (s : InputBitstream) (rest : List Bool), s.WellFormed → s.remaining = bits ++ rest →
        ∃ parsed s', parseSPSRefPicLists (freshSPS (copyingSPS false)) s = .ok (parsed, s') ∧
          s'.remaining = rest ∧
          (Reproduced (copyingSPS false) parsed ↔ CopiesShortTerm (copyingSPS false)) := by
  have copies : CopiesShortTerm (copyingSPS false) := by
    intro _ rpl member
    obtain rfl := List.mem_singleton.mp member
    rfl
  exact ⟨validSPS_copyingSPS false, copies,
    (parse_code_candidates_iff (validSPS_copyingSPS false) OutputBitstream.wellFormed_empty).2⟩

/-- The long-term entry of the candidate is missing in its copy. -/
theorem copyingSPS_not_reproduced :
    ValidSPS (copyingSPS true) ∧
    ∃ after bits, codeSPSRefPicLists (copyingSPS true) OutputBitstream.empty = .ok ((), after) ∧
      after.bits = OutputBitstream.empty.bits ++ bits ∧
      ∀ (s : InputBitstream) (rest : List Bool), s.WellFormed → s.remaining = bits ++ rest →
        ∃ parsed s', parseSPSRefPicLists (freshSPS (copyingSPS true)) s = .ok (parsed, s') ∧
          s'.remaining = rest ∧ ¬ Reproduced (copyingSPS true) parsed := by
  have valid := validSPS_copyingSPS true
  have fails : ¬ CopiesShortTerm (copyingSPS true) := by
    intro copies
    exact absurd (copies rfl (twoEntries true) (List.mem_singleton_self _)) (by decide)
  have codes : ∀ fifo locations, Codes False outputView (inputView fifo locations)
      (codeSPSRefPicLists (copyingSPS true)) (parseSPSRefPicLists (freshSPS (copyingSPS true)))
      (fun _ parsed => ¬ Reproduced (copyingSPS true) parsed) := by
    intro fifo locations
    exact (codes_spsRefPicLists valid).weaken fun _ parsed back => mt back.mp fails
  exact ⟨valid, parses_written codes OutputBitstream.wellFormed_empty⟩

end Vtm.RoundTrip.RefPicListStruct
