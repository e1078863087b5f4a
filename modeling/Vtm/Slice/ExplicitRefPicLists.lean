import Vtm.Common.RefPicListStruct
import Vtm.Std.Fill

/-!
# Explicit reference picture lists

`Slice::createExplicitReferencePictureSetFromReference`, by which the encoder replaces lists
with unavailable pictures: it keeps the available entries of each list and fills both up from
each other. `constructed_iff` says when the result is what it should be.
-/

namespace Vtm.RefPics

open Vtm.Std

/-- `ReferencePictureList`, with `m_numberOfActivePictures`. -/
structure ActiveRefPicList extends RefPicListStruct where
  numberOfActivePictures : Nat

/-- `Picture`, as far as the encoder's lists use it. -/
structure EncPicture where
  poc : Int
  referenced : Bool
  precedingDRAP : Bool
deriving DecidableEq, Repr

/-- `Slice`, as far as the encoder's lists use it. -/
structure EncoderSlice where
  poc : Int
  bitsForPOC : Nat
  allActiveRplEntriesHasSameSignFlag : Bool
  isIRAP : Bool
  enableDRAPSEI : Bool
  useLTforDRAP : Bool
  isDRAP : Bool
  latestDRAPPOC : Int
  associatedIRAPPOC : Int
deriving DecidableEq, Repr

def MAX_INT : Int := 2147483647

namespace EncoderSlice

/-- A local list while it is written, with its running counters. -/
structure LocalList where
  rpl : RefPicListStruct
  numOfSTRP : Nat
  numOfLTRP : Nat
  refPicIdx : Nat

/-- `(*pLocalRPL) = ReferencePictureList()`. -/
def LocalList.fresh : LocalList := ⟨.empty, 0, 0, 0⟩

/-- Write the next entry; `tally` says as what it is counted. -/
def LocalList.add (list : LocalList) (identifier : Int) (isLongterm tally : Bool) : LocalList where
  rpl := list.rpl.setRefPicIdentifier list.refPicIdx identifier isLongterm
  refPicIdx := list.refPicIdx + 1
  numOfSTRP := list.numOfSTRP + if tally then 0 else 1
  numOfLTRP := list.numOfLTRP + if tally then 1 else 0

section

variable (slice : EncoderSlice)

def isPocRestrictedByDRAP (poc : Int) (precedingDRAPInDecodingOrder : Bool) : Bool :=
  if ¬ slice.enableDRAPSEI then false
  else
    (slice.isDRAP && poc ≠ slice.associatedIRAPPOC) ||
      (slice.latestDRAPPOC ≠ MAX_INT && slice.poc > slice.latestDRAPPOC &&
        (precedingDRAPInDecodingOrder || poc < slice.latestDRAPPOC))

def isPOCInRefPicList (rpl : RefPicListStruct) (poc : Int) : Bool :=
  (List.range (rpl.numberOfLongtermPictures + rpl.numberOfShorttermPictures)).any fun i =>
    if rpl.isRefPicLongterm i then poc = rpl.refPicIdentifier i
    else poc = slice.poc - rpl.refPicIdentifier i

/-- The loop over the buffer for entry `ii`. -/
def isAvailable (rcListPic : List EncPicture) (rpl : RefPicListStruct) (ii : Nat) : Bool :=
  rcListPic.any fun rpcPic =>
    (!rpl.isRefPicLongterm ii && rpcPic.referenced &&
      rpcPic.poc = slice.poc - rpl.refPicIdentifier ii &&
      !slice.isPocRestrictedByDRAP rpcPic.poc rpcPic.precedingDRAP) ||
    (rpl.isRefPicLongterm ii && rpcPic.referenced &&
      pocLsb slice.bitsForPOC rpcPic.poc = rpl.refPicIdentifier ii &&
      !slice.isPocRestrictedByDRAP rpcPic.poc rpcPic.precedingDRAP)

/-- The loop that keeps the available entries of a list. -/
def keepAvailable (rcListPic : List EncPicture) (rpl : RefPicListStruct) : LocalList :=
  (List.range (rpl.numberOfShorttermPictures + rpl.numberOfLongtermPictures)).foldl
    (fun list ii =>
      if slice.isAvailable rcListPic rpl ii then
        list.add (rpl.refPicIdentifier ii) (rpl.isRefPicLongterm ii) (rpl.isRefPicLongterm ii)
      else list) .fresh

/-- The associated IRAP picture in list 0, when DRAP pictures are enabled. -/
def addAssociatedIRAP (pRPL1 : RefPicListStruct) (list : LocalList) : LocalList :=
  if slice.enableDRAPSEI then
    let rpl := { list.rpl with
      numberOfShorttermPictures := list.numOfSTRP
      numberOfLongtermPictures := list.numOfLTRP }
    let list := { list with rpl := rpl }
    if ¬ slice.isIRAP ∧ ¬ slice.isPOCInRefPicList rpl slice.associatedIRAPPOC then
      if slice.useLTforDRAP ∧ ¬ slice.isPOCInRefPicList pRPL1 slice.associatedIRAPPOC then
        list.add slice.associatedIRAPPOC true true
      else list.add (slice.poc - slice.associatedIRAPPOC) false false
    else list
  else list

/-- `canIncludeThis`: the loop over the entries that are in the list already. -/
def canIncludeThis (source : RefPicListStruct) (ii : Nat) (dest : LocalList) : Bool :=
  (List.range dest.refPicIdx).foldl (fun can jj =>
    let can :=
      if source.refPicIdentifier ii = dest.rpl.refPicIdentifier jj ∧
          source.isRefPicLongterm ii = dest.rpl.isRefPicLongterm jj then false
      else can
    let sameSign := decide (source.refPicIdentifier ii > 0) =
      decide (dest.rpl.refPicIdentifier 0 > 0)
    if slice.allActiveRplEntriesHasSameSignFlag ∧ can ∧ ¬ source.isRefPicLongterm ii ∧
        ¬ sameSign then false
    else can) true

/-- A round of a loop that copies entries from the other list; `within` is the test at its
start, `tally` the list by which it counts. -/
def copyEntry (source : RefPicListStruct) (within tally : Nat → Bool)
    (state : LocalList × Int) (ii : Nat) : LocalList × Int :=
  if state.2 > 0 ∧ within ii ∧ slice.canIncludeThis source ii state.1 then
    (state.1.add (source.refPicIdentifier ii) (source.isRefPicLongterm ii) (tally ii),
      state.2 - 1)
  else state

/-- A loop that copies entries from the other list, over `bound` of them. -/
def copyEntries (source : RefPicListStruct) (bound : Nat) (within tally : Nat → Bool)
    (dest : LocalList) (numOfNeedToFill : Int) : LocalList :=
  ((List.range bound).foldl (slice.copyEntry source within tally) (dest, numOfNeedToFill)).1

end

/-- A local list with the counts that are set at the end. -/
def LocalList.finish (list : LocalList) (numberOfActivePictures : Nat)
    (ltrpInSliceHeaderFlag : Bool) : ActiveRefPicList :=
  { list.rpl with
    numberOfShorttermPictures := list.numOfSTRP
    numberOfLongtermPictures := list.numOfLTRP
    ltrpInSliceHeaderFlag := ltrpInSliceHeaderFlag
    numberOfActivePictures := numberOfActivePictures }

/-- A list of the slice, and how many entries were written to it. -/
structure WrittenList where
  rpl : ActiveRefPicList
  refPicIdx : Nat

/-- `createExplicitReferencePictureSetFromReference`. The bound of the first copy loop reads
counts of list 1 that are not set yet. -/
def createExplicitReferencePictureSetFromReference (slice : EncoderSlice)
    (rcListPic : List EncPicture) (pRPL0 pRPL1 : ActiveRefPicList) : WrittenList × WrittenList :=
  let list0 := slice.keepAvailable rcListPic pRPL0.toRefPicListStruct
  let list0 := slice.addAssociatedIRAP pRPL1.toRefPicListStruct list0
  let list1 := slice.keepAvailable rcListPic pRPL1.toRefPicListStruct
  let numOfNeedToFill := (pRPL0.numberOfActivePictures : Int) - (list0.numOfLTRP + list0.numOfSTRP)
  let originalL0 := list0.numOfSTRP + list0.numOfLTRP
  let list0 := slice.copyEntries list1.rpl
    (list1.rpl.numberOfLongtermPictures + list1.rpl.numberOfShorttermPictures)
    (fun ii => ii ≤ (list1.numOfLTRP + list1.numOfSTRP + (2 ^ 32 - 1)) % 2 ^ 32)
    pRPL1.isRefPicLongterm list0 numOfNeedToFill
  let rpl0 := list0.finish
    (if list0.numOfLTRP + list0.numOfSTRP < pRPL0.numberOfActivePictures then
      list0.numOfLTRP + list0.numOfSTRP else pRPL0.numberOfActivePictures)
    pRPL0.ltrpInSliceHeaderFlag
  let numOfNeedToFill := (rpl0.numberOfActivePictures : Int) - (list1.numOfLTRP + list1.numOfSTRP)
  let list1 := slice.copyEntries rpl0.toRefPicListStruct
    (rpl0.numberOfLongtermPictures + rpl0.numberOfShorttermPictures)
    (fun ii => ii < originalL0) rpl0.isRefPicLongterm list1 numOfNeedToFill
  let rpl1 := list1.finish
    (if slice.allActiveRplEntriesHasSameSignFlag then list1.numOfLTRP + list1.numOfSTRP
    else if list1.numOfLTRP + list1.numOfSTRP < pRPL1.numberOfActivePictures then
      list1.numOfLTRP + list1.numOfSTRP else pRPL1.numberOfActivePictures)
    pRPL1.ltrpInSliceHeaderFlag
  (⟨rpl0, list0.refPicIdx⟩, ⟨rpl1, list1.refPicIdx⟩)

/-! ## Lists of entries -/

/-- An entry: its identifier, and whether it is a long-term one. -/
abbrev Entry := Int × Bool

/-- An entry of a list. -/
@[grind =] def entryOf (rpl : RefPicListStruct) (ii : Nat) : Entry :=
  (rpl.refPicIdentifier ii, rpl.isRefPicLongterm ii)

/-- The entries that were written. -/
def LocalList.entries (list : LocalList) : List Entry :=
  (List.range list.refPicIdx).map (entryOf list.rpl)

/-- The entries that were written. -/
def WrittenList.entries (list : WrittenList) : List Entry :=
  (List.range list.refPicIdx).map (entryOf list.rpl.toRefPicListStruct)

section

variable (slice : EncoderSlice) (rcListPic : List EncPicture)

/-- The available entries of a configured list. -/
def availableEntries (rpl : RefPicListStruct) : List Entry :=
  ((List.range (rpl.numberOfShorttermPictures + rpl.numberOfLongtermPictures)).filter
    (slice.isAvailable rcListPic rpl)).map (entryOf rpl)

/-- An entry names a referenced picture of the buffer. -/
def NamesReferenced (e : Entry) : Prop :=
  ∃ pic ∈ rcListPic, pic.referenced = true ∧
    if e.2 then pocLsb slice.bitsForPOC pic.poc = e.1 else pic.poc = slice.poc - e.1

/-- An entry that the restriction to one sign keeps out of a list. -/
def Excluded (list : List Entry) (e : Entry) : Prop :=
  slice.allActiveRplEntriesHasSameSignFlag = true ∧ e.2 = false ∧
    (list.head?.any fun first => decide (e.1 > 0) != decide (first.1 > 0)) = true

instance (list : List Entry) (e : Entry) : Decidable (slice.Excluded list e) :=
  inferInstanceAs (Decidable (_ ∧ _ ∧ _))

/-- What the loops over the entries of a list admit to it. -/
@[grind =] def admits (list : List Entry) (e : Entry) : Bool := e ∉ list ∧ ¬ slice.Excluded list e

end

/-- The counters of a list agree with its entries. -/
structure LocalList.Tallied (list : LocalList) : Prop where
  longTerm : list.numOfLTRP = list.entries.countP fun e => e.2
  total : list.numOfSTRP + list.numOfLTRP = list.refPicIdx

section

variable {slice : EncoderSlice} {rcListPic : List EncPicture}

@[simp] theorem LocalList.length_entries (list : LocalList) : list.entries.length = list.refPicIdx := by
  simp [LocalList.entries]

theorem LocalList.entries_add (list : LocalList) (identifier : Int) (isLongterm tally : Bool) :
    (list.add identifier isLongterm tally).entries = list.entries ++ [(identifier, isLongterm)] := by
  unfold LocalList.entries
  rw [show (list.add identifier isLongterm tally).refPicIdx = list.refPicIdx + 1 from rfl,
    List.range_succ, List.map_append, List.map_singleton]
  congr 1
  · refine List.map_congr_left fun i member => ?_
    have earlier : i ≠ list.refPicIdx := Nat.ne_of_lt (List.mem_range.mp member)
    simp [entryOf, LocalList.add, RefPicListStruct.setRefPicIdentifier,
      Function.update_of_ne earlier]
  · simp [entryOf, LocalList.add, RefPicListStruct.setRefPicIdentifier]

theorem LocalList.Tallied.add {list : LocalList} (tallied : list.Tallied) (identifier : Int)
    (isLongterm : Bool) : (list.add identifier isLongterm isLongterm).Tallied := by
  have longTerm := tallied.longTerm
  have total := tallied.total
  constructor
  · rw [LocalList.entries_add, List.countP_append, ← longTerm]
    cases isLongterm <;> rfl
  · cases isLongterm with
    | true =>
        show list.numOfSTRP + 0 + (list.numOfLTRP + 1) = list.refPicIdx + 1
        omega
    | false =>
        show list.numOfSTRP + 1 + (list.numOfLTRP + 0) = list.refPicIdx + 1
        omega

theorem LocalList.tallied_fresh : LocalList.fresh.Tallied := ⟨rfl, rfl⟩

/-! ## The kept entries -/

variable (slice rcListPic) in
/-- The loop over some entries, from any list. -/
theorem foldl_keep (rpl : RefPicListStruct) (entries : List Nat) {list : LocalList}
    (tallied : list.Tallied) :
    ∀ result, result = entries.foldl (fun list ii =>
      if slice.isAvailable rcListPic rpl ii then
        list.add (rpl.refPicIdentifier ii) (rpl.isRefPicLongterm ii) (rpl.isRefPicLongterm ii)
      else list) list →
    result.Tallied ∧
    result.entries = list.entries ++
      (entries.filter (slice.isAvailable rcListPic rpl)).map (entryOf rpl) ∧
    result.rpl.numberOfShorttermPictures = list.rpl.numberOfShorttermPictures ∧
    result.rpl.numberOfLongtermPictures = list.rpl.numberOfLongtermPictures := by
  induction entries generalizing list with
  | nil =>
      rintro _ rfl
      exact ⟨tallied, by simp, rfl, rfl⟩
  | cons ii rest ih =>
      rintro _ rfl
      rw [List.foldl_cons]
      by_cases available : slice.isAvailable rcListPic rpl ii = true
      · rw [if_pos available]
        obtain ⟨counts, entries, shortTerm, longTerm⟩ := ih (tallied.add _ _) _ rfl
        refine ⟨counts, ?_, shortTerm, longTerm⟩
        rw [entries, LocalList.entries_add, List.filter_cons_of_pos available, List.map_cons,
          List.append_assoc]
        rfl
      · rw [if_neg available, List.filter_cons_of_neg available]
        exact ih tallied _ rfl

/-- What `keepAvailable` leaves. -/
structure Kept (slice : EncoderSlice) (rcListPic : List EncPicture) (rpl : RefPicListStruct)
    (list : LocalList) : Prop where
  tallied : list.Tallied
  entries : list.entries = slice.availableEntries rcListPic rpl
  shortTerm : list.rpl.numberOfShorttermPictures = 0
  longTerm : list.rpl.numberOfLongtermPictures = 0

theorem kept_keepAvailable (rpl : RefPicListStruct) :
    Kept slice rcListPic rpl (slice.keepAvailable rcListPic rpl) := by
  obtain ⟨tallied, entries, shortTerm, longTerm⟩ :=
    foldl_keep slice rcListPic rpl
      (List.range (rpl.numberOfShorttermPictures + rpl.numberOfLongtermPictures))
      LocalList.tallied_fresh _ rfl
  exact ⟨tallied, entries, shortTerm, longTerm⟩

theorem namesReferenced_of_mem {rpl : RefPicListStruct} {e : Entry}
    (member : e ∈ slice.availableEntries rcListPic rpl) : slice.NamesReferenced rcListPic e := by
  obtain ⟨ii, inside, rfl⟩ := List.mem_map.mp member
  obtain ⟨_, available⟩ := List.mem_filter.mp inside
  obtain ⟨pic, here, named⟩ := List.any_eq_true.mp available
  refine ⟨pic, here, ?_⟩
  unfold entryOf
  cases kind : rpl.isRefPicLongterm ii with
  | true =>
      simp only [kind, Bool.not_true, Bool.false_and, Bool.false_or, Bool.true_and,
        Bool.and_eq_true, decide_eq_true_eq] at named
      exact ⟨named.1.1, named.1.2⟩
  | false =>
      simp only [kind, Bool.not_false, Bool.false_and, Bool.or_false, Bool.true_and,
        Bool.and_eq_true, decide_eq_true_eq] at named
      exact ⟨named.1.1, named.1.2⟩

/-! ## The copied entries -/

theorem foldl_and (p : Nat → Bool) (n : Nat) :
    (List.range n).foldl (fun can jj => can && p jj) true = (List.range n).all p := by
  induction n with
  | zero => rfl
  | succ n ih =>
      rw [List.range_succ, List.foldl_append, ih, List.all_append]
      simp

/-- The loop over the list admits what is not in it and not excluded from it. -/
theorem canIncludeThis_eq (source : RefPicListStruct) (ii : Nat) (dest : LocalList) :
    slice.canIncludeThis source ii dest = slice.admits dest.entries (entryOf source ii) := by
  -- every round takes the same test of the sign and its own test of an entry
  have rounds : slice.canIncludeThis source ii dest =
      (List.range dest.refPicIdx).all fun jj => decide (entryOf dest.rpl jj ≠ entryOf source ii) &&
        !(slice.allActiveRplEntriesHasSameSignFlag && !source.isRefPicLongterm ii &&
          (decide (source.refPicIdentifier ii > 0) != decide (dest.rpl.refPicIdentifier 0 > 0))) := by
    rw [← foldl_and]
    unfold canIncludeThis
    congr 1
    funext can jj
    have same : entryOf dest.rpl jj = entryOf source ii ↔
        source.refPicIdentifier ii = dest.rpl.refPicIdentifier jj ∧
          source.isRefPicLongterm ii = dest.rpl.isRefPicLongterm jj := by
      rw [entryOf, entryOf, Prod.mk.injEq, @eq_comm _ (dest.rpl.refPicIdentifier jj),
        @eq_comm _ (dest.rpl.isRefPicLongterm jj)]
    by_cases duplicate : entryOf dest.rpl jj = entryOf source ii
    · simp [duplicate, if_pos (same.mp duplicate)]
    · rw [if_neg (same.not.mp duplicate)]
      generalize decide (source.refPicIdentifier ii > 0) = sign
      generalize decide (dest.rpl.refPicIdentifier 0 > 0) = first
      cases slice.allActiveRplEntriesHasSameSignFlag <;> cases source.isRefPicLongterm ii <;>
        cases can <;> cases sign <;> cases first <;> simp [duplicate]
  rw [rounds, Bool.eq_iff_iff, List.all_eq_true]
  simp only [admits, decide_eq_true_eq, Bool.and_eq_true, Bool.not_eq_true', List.mem_range]
  have absent : entryOf source ii ∉ dest.entries ↔
      ∀ jj < dest.refPicIdx, entryOf dest.rpl jj ≠ entryOf source ii := by
    simp [LocalList.entries]
  have excluded (nonempty : 0 < dest.refPicIdx) : slice.Excluded dest.entries (entryOf source ii) ↔
      (slice.allActiveRplEntriesHasSameSignFlag && !source.isRefPicLongterm ii &&
        (decide (source.refPicIdentifier ii > 0) !=
          decide (dest.rpl.refPicIdentifier 0 > 0))) = true := by
    have first : dest.entries.head? = some (entryOf dest.rpl 0) := by
      rw [LocalList.entries, List.head?_map, List.head?_range, if_neg (by omega)]
      rfl
    unfold Excluded
    rw [first]
    simp [entryOf, and_assoc]
  rw [absent]
  constructor
  · intro tests
    refine ⟨fun jj below => (tests jj below).1, fun out => ?_⟩
    by_cases nonempty : 0 < dest.refPicIdx
    · rw [excluded nonempty, (tests 0 nonempty).2] at out
      cases out
    · have none : dest.entries = [] := by
        rw [LocalList.entries, Nat.eq_zero_of_not_pos nonempty]
        rfl
      rw [none] at out
      exact absurd out.2.2 (by simp)
  · rintro ⟨new, allowed⟩ jj below
    refine ⟨new jj below, ?_⟩
    rw [excluded (by omega)] at allowed
    exact Bool.eq_false_iff.mpr allowed

/-- A loop that copies entries and counts them as what they are. -/
theorem foldl_copyEntry {source : RefPicListStruct} {within tally : Nat → Bool} (entries : List Nat)
    (all : ∀ ii ∈ entries, within ii = true) (same : ∀ ii, tally ii = source.isRefPicLongterm ii)
    {dest : LocalList} (tallied : dest.Tallied) (need : Int) :
    ∀ result, result = entries.foldl (slice.copyEntry source within tally) (dest, need) →
    result.1.Tallied ∧
    result.1.entries = fill slice.admits (entries.map (entryOf source)) dest.entries need.toNat := by
  induction entries generalizing dest need with
  | nil =>
      rintro _ rfl
      exact ⟨tallied, rfl⟩
  | cons ii rest ih =>
      rintro _ rfl
      have later : ∀ ii' ∈ rest, within ii' = true := fun ii' member =>
        all ii' (List.mem_cons_of_mem ii member)
      rw [List.foldl_cons, List.map_cons]
      by_cases positive : need > 0
      · obtain ⟨left, rfl⟩ : ∃ left : Nat, need = left + 1 := ⟨(need - 1).toNat, by omega⟩
        rw [show ((left : Int) + 1).toNat = left + 1 by omega, fill]
        by_cases can : slice.admits dest.entries (entryOf source ii) = true
        · have step : slice.copyEntry source within tally (dest, (left : Int) + 1) ii =
              (dest.add (source.refPicIdentifier ii) (source.isRefPicLongterm ii)
                (source.isRefPicLongterm ii), (left : Int)) := by
            rw [copyEntry, if_pos ⟨positive, all ii (List.mem_cons_self ..), by
              rwa [canIncludeThis_eq]⟩, same, Int.add_sub_cancel]
          rw [step, if_pos can]
          obtain ⟨counts, result⟩ := ih later (tallied.add _ _) left _ rfl
          refine ⟨counts, ?_⟩
          rw [result, LocalList.entries_add]
          rfl
        · have step : slice.copyEntry source within tally (dest, (left : Int) + 1) ii =
              (dest, (left : Int) + 1) := by
            rw [copyEntry, if_neg]
            rintro ⟨_, _, included⟩
            rw [canIncludeThis_eq] at included
            exact can included
          rw [step, if_neg can]
          exact ih later tallied _ _ rfl
      · have step : slice.copyEntry source within tally (dest, need) ii = (dest, need) := by
          rw [copyEntry, if_neg]
          exact fun conditions => positive conditions.1
        have none : need.toNat = 0 := by omega
        rw [step, none, fill_zero]
        obtain ⟨counts, result⟩ := ih later tallied need _ rfl
        refine ⟨counts, ?_⟩
        rw [result, none, fill_zero]

end

/-! ## Both lists -/

/-- What is asked of one list, where `kept` entries were there before the fill-in. -/
structure Sound (slice : EncoderSlice) (rcListPic : List EncPicture) (kept : Nat)
    (list : WrittenList) : Prop where
  written : list.rpl.numberOfShorttermPictures + list.rpl.numberOfLongtermPictures = list.refPicIdx
  counted : list.rpl.Counted
  names : ∀ e ∈ list.entries, slice.NamesReferenced rcListPic e
  active : list.rpl.numberOfActivePictures ≤ list.refPicIdx
  distinct : ∀ front e behind, list.entries = front ++ e :: behind → kept ≤ front.length →
    e ∉ front

/-- What is asked of both lists. A list is shorter than it should be only if the other one has
nothing to give; list 1 need not be longer than list 0. -/
structure Constructed (slice : EncoderSlice) (rcListPic : List EncPicture)
    (pRPL0 pRPL1 : ActiveRefPicList) (lists : WrittenList × WrittenList) : Prop where
  sound0 : Sound slice rcListPic
    (slice.availableEntries rcListPic pRPL0.toRefPicListStruct).length lists.1
  sound1 : Sound slice rcListPic
    (slice.availableEntries rcListPic pRPL1.toRefPicListStruct).length lists.2
  complete0 : lists.1.rpl.numberOfActivePictures < pRPL0.numberOfActivePictures →
    ∀ e ∈ slice.availableEntries rcListPic pRPL1.toRefPicListStruct,
      e ∈ lists.1.entries ∨ slice.Excluded lists.1.entries e
  complete1 : lists.2.rpl.numberOfActivePictures <
      min pRPL1.numberOfActivePictures lists.1.rpl.numberOfActivePictures →
    ∀ e ∈ slice.availableEntries rcListPic pRPL0.toRefPicListStruct,
      e ∈ lists.2.entries ∨ slice.Excluded lists.2.entries e

/-- List 0 has enough available entries, or the available entries of list 1 add nothing. -/
def NothingToFill (slice : EncoderSlice) (rcListPic : List EncPicture)
    (pRPL0 pRPL1 : ActiveRefPicList) : Prop :=
  pRPL0.numberOfActivePictures ≤
      (slice.availableEntries rcListPic pRPL0.toRefPicListStruct).length ∨
    ∀ e ∈ slice.availableEntries rcListPic pRPL1.toRefPicListStruct,
      e ∈ slice.availableEntries rcListPic pRPL0.toRefPicListStruct ∨
        slice.Excluded (slice.availableEntries rcListPic pRPL0.toRefPicListStruct) e

section

variable {slice : EncoderSlice} {rcListPic : List EncPicture}

/-- A list whose counters agree with its entries. -/
theorem sound_finish {list : LocalList} (tallied : list.Tallied) {kept active : Nat} {flag : Bool}
    (names : ∀ e ∈ list.entries, slice.NamesReferenced rcListPic e)
    (fewer : active ≤ list.refPicIdx)
    (distinct : ∀ front e behind, list.entries = front ++ e :: behind → kept ≤ front.length →
      e ∉ front) :
    Sound slice rcListPic kept ⟨list.finish active flag, list.refPicIdx⟩ where
  written := tallied.total
  counted := by
    have entries : (list.finish active flag).numEntries = list.refPicIdx :=
      (Nat.add_comm _ _).trans tallied.total
    unfold ReferencePictureList.Counted
    rw [entries]
    refine Eq.trans ?_ tallied.longTerm.symm
    rw [LocalList.entries, List.countP_map]
    rfl
  names := names
  active := fewer
  distinct := distinct

variable (slice rcListPic) in
/-- List 0 is left as it was kept. -/
def list0Of (pRPL0 : ActiveRefPicList) : LocalList :=
  slice.keepAvailable rcListPic pRPL0.toRefPicListStruct

variable (slice rcListPic) in
/-- The number of active entries of list 0. -/
def active0Of (pRPL0 : ActiveRefPicList) : Nat :=
  min (slice.list0Of rcListPic pRPL0).refPicIdx pRPL0.numberOfActivePictures

variable (rcListPic) in
/-- Both lists in terms of the entries that were kept. -/
theorem create_spec (disabled : slice.enableDRAPSEI = false) (pRPL0 pRPL1 : ActiveRefPicList) :
    ∃ (list1 : LocalList) (active1 : Nat),
      slice.createExplicitReferencePictureSetFromReference rcListPic pRPL0 pRPL1 =
        (⟨(slice.list0Of rcListPic pRPL0).finish (slice.active0Of rcListPic pRPL0)
          pRPL0.ltrpInSliceHeaderFlag, (slice.list0Of rcListPic pRPL0).refPicIdx⟩,
        ⟨list1.finish active1 pRPL1.ltrpInSliceHeaderFlag, list1.refPicIdx⟩) ∧
      list1.Tallied ∧
      list1.entries = fill slice.admits
        (slice.availableEntries rcListPic pRPL0.toRefPicListStruct)
        (slice.availableEntries rcListPic pRPL1.toRefPicListStruct)
        (slice.active0Of rcListPic pRPL0 -
          (slice.availableEntries rcListPic pRPL1.toRefPicListStruct).length) ∧
      active1 = if slice.allActiveRplEntriesHasSameSignFlag then list1.refPicIdx
        else min list1.refPicIdx pRPL1.numberOfActivePictures := by
  have kept0 : Kept slice rcListPic pRPL0.toRefPicListStruct (slice.list0Of rcListPic pRPL0) :=
    kept_keepAvailable _
  have kept1 : Kept slice rcListPic pRPL1.toRefPicListStruct
      (slice.keepAvailable rcListPic pRPL1.toRefPicListStruct) := kept_keepAvailable _
  have noIRAP : slice.addAssociatedIRAP pRPL1.toRefPicListStruct
      (slice.keepAvailable rcListPic pRPL0.toRefPicListStruct) =
      slice.list0Of rcListPic pRPL0 := by
    rw [addAssociatedIRAP, disabled]
    rfl
  have total0 : (slice.list0Of rcListPic pRPL0).numOfLTRP + (slice.list0Of rcListPic pRPL0).numOfSTRP
      = (slice.list0Of rcListPic pRPL0).refPicIdx :=
    (Nat.add_comm _ _).trans kept0.tallied.total
  have active0 : (if (slice.list0Of rcListPic pRPL0).refPicIdx < pRPL0.numberOfActivePictures then
      (slice.list0Of rcListPic pRPL0).refPicIdx else pRPL0.numberOfActivePictures) =
      slice.active0Of rcListPic pRPL0 := by
    unfold active0Of
    split <;> omega
  have total1 := kept1.tallied.total
  have length1 := congrArg List.length kept1.entries
  rw [LocalList.length_entries] at length1
  generalize origin : slice.keepAvailable rcListPic pRPL1.toRefPicListStruct = original
    at kept1 total1 length1
  -- list 0 is filled up from no entries at all
  have unfilled (need : Int) : slice.copyEntries original.rpl
      (original.rpl.numberOfLongtermPictures + original.rpl.numberOfShorttermPictures)
      (fun ii => ii ≤ (original.numOfLTRP + original.numOfSTRP + (2 ^ 32 - 1)) % 2 ^ 32)
      pRPL1.isRefPicLongterm (slice.list0Of rcListPic pRPL0) need =
      slice.list0Of rcListPic pRPL0 := by
    rw [kept1.longTerm, kept1.shortTerm]
    rfl
  generalize finished : (slice.list0Of rcListPic pRPL0).finish (slice.active0Of rcListPic pRPL0)
    pRPL0.ltrpInSliceHeaderFlag = rpl0
  have bound : rpl0.numberOfLongtermPictures + rpl0.numberOfShorttermPictures =
      (slice.list0Of rcListPic pRPL0).refPicIdx := by
    rw [← finished]
    exact total0
  generalize missing : (rpl0.numberOfActivePictures : Int) -
    (original.numOfLTRP + original.numOfSTRP) = need
  obtain ⟨tallied, entries⟩ : (slice.copyEntries rpl0.toRefPicListStruct
        (slice.list0Of rcListPic pRPL0).refPicIdx
        (fun ii => ii < (slice.list0Of rcListPic pRPL0).refPicIdx) rpl0.isRefPicLongterm original
        need).Tallied ∧
      (slice.copyEntries rpl0.toRefPicListStruct (slice.list0Of rcListPic pRPL0).refPicIdx
        (fun ii => ii < (slice.list0Of rcListPic pRPL0).refPicIdx) rpl0.isRefPicLongterm original
        need).entries = fill slice.admits ((List.range (slice.list0Of rcListPic pRPL0).refPicIdx).map
          (entryOf rpl0.toRefPicListStruct)) original.entries need.toNat :=
    foldl_copyEntry _ (by simp) (fun _ => rfl) kept1.tallied need _ rfl
  refine ⟨_, _, ?_, tallied, ?_, rfl⟩
  · unfold createExplicitReferencePictureSetFromReference
    dsimp only
    rw [noIRAP, origin, unfilled, total0, active0, finished, bound, missing,
      kept0.tallied.total, (Nat.add_comm _ _).trans tallied.total]
    congr 3
    split
    · rfl
    · split <;> omega
  · have source : (List.range (slice.list0Of rcListPic pRPL0).refPicIdx).map
        (entryOf rpl0.toRefPicListStruct) =
        slice.availableEntries rcListPic pRPL0.toRefPicListStruct := by
      rw [← kept0.entries, ← finished]
      rfl
    have active : rpl0.numberOfActivePictures = slice.active0Of rcListPic pRPL0 := by
      rw [← finished]
      rfl
    rw [entries, source, kept1.entries]
    congr 1
    omega

/-- What is kept out of a list is kept out of a longer one. -/
theorem Excluded.of_prefix {front list : List Entry} {e : Entry} (out : slice.Excluded front e)
    (longer : front <+: list) : slice.Excluded list e := by
  obtain ⟨restricted, shortTerm, sign⟩ := out
  refine ⟨restricted, shortTerm, ?_⟩
  obtain ⟨behind, rfl⟩ := longer
  cases front with
  | nil => cases sign
  | cons first rest => exact sign

/-- What a list does not admit is in it or excluded from it. -/
theorem mem_or_excluded {front list : List Entry} {e : Entry} (refused : slice.admits front e = false)
    (longer : front <+: list) : e ∈ list ∨ slice.Excluded list e := by
  simp only [admits, decide_eq_false_iff_not, not_and_or, not_not] at refused
  exact refused.imp (fun member => longer.subset member) (fun out => out.of_prefix longer)

/-- For every buffer and every pair of configured lists, without DRAP pictures: the lists are
what they should be exactly when nothing is to be filled into list 0. -/
theorem constructed_iff (disabled : slice.enableDRAPSEI = false) (pRPL0 pRPL1 : ActiveRefPicList) :
    Constructed slice rcListPic pRPL0 pRPL1
        (slice.createExplicitReferencePictureSetFromReference rcListPic pRPL0 pRPL1) ↔
      NothingToFill slice rcListPic pRPL0 pRPL1 := by
  obtain ⟨list1, active1, created, tallied1, entries1, count1⟩ :=
    create_spec rcListPic disabled pRPL0 pRPL1
  have kept0 : Kept slice rcListPic pRPL0.toRefPicListStruct (slice.list0Of rcListPic pRPL0) :=
    kept_keepAvailable _
  have length0 := congrArg List.length kept0.entries
  rw [LocalList.length_entries] at length0
  have length1 := congrArg List.length entries1
  rw [LocalList.length_entries] at length1
  have active0 : slice.active0Of rcListPic pRPL0 =
      min (slice.list0Of rcListPic pRPL0).refPicIdx pRPL0.numberOfActivePictures := rfl
  rw [created]
  constructor
  · intro built
    by_cases enough : pRPL0.numberOfActivePictures ≤
        (slice.availableEntries rcListPic pRPL0.toRefPicListStruct).length
    · exact Or.inl enough
    · right
      intro e member
      have present := built.complete0 (by
        show slice.active0Of rcListPic pRPL0 < _
        omega) e member
      rwa [← kept0.entries]
  · intro nothing
    refine ⟨?_, ?_, ?_, ?_⟩
    · refine sound_finish kept0.tallied ?_ (by omega) ?_
      · rw [kept0.entries]
        exact fun e => namesReferenced_of_mem
      · intro front e behind split long
        have lengths := congrArg List.length (kept0.entries.symm.trans split)
        simp only [List.length_append, List.length_cons] at lengths
        omega
    · refine sound_finish tallied1 ?_ ?_ ?_
      · rw [entries1]
        intro e member
        rcases mem_fill member with own | copied
        · exact namesReferenced_of_mem own
        · exact namesReferenced_of_mem copied
      · rw [count1]
        split <;> omega
      · intro front e behind split long
        have admitted := admits_of_fill (entries1.symm.trans split) long
        simp only [admits, decide_eq_true_eq] at admitted
        exact admitted.1
    · intro fewer e member
      have short : slice.active0Of rcListPic pRPL0 < pRPL0.numberOfActivePictures := fewer
      have present := nothing.resolve_left (by omega) e member
      rw [← kept0.entries] at present
      exact present
    · intro fewer e member
      have short : active1 < min pRPL1.numberOfActivePictures (slice.active0Of rcListPic pRPL0) :=
        fewer
      have atLeast := (entries1 ▸ fill_prefix _ _ _ : _ <+: list1.entries).length_le
      rw [LocalList.length_entries] at atLeast
      have missing : list1.refPicIdx < slice.active0Of rcListPic pRPL0 := by
        rw [count1] at short
        split at short <;> omega
      have lacks : (fill slice.admits
          (slice.availableEntries rcListPic pRPL0.toRefPicListStruct)
          (slice.availableEntries rcListPic pRPL1.toRefPicListStruct)
          (slice.active0Of rcListPic pRPL0 -
            (slice.availableEntries rcListPic pRPL1.toRefPicListStruct).length)).length <
          (slice.availableEntries rcListPic pRPL1.toRefPicListStruct).length +
            (slice.active0Of rcListPic pRPL0 -
              (slice.availableEntries rcListPic pRPL1.toRefPicListStruct).length) := by
        omega
      show e ∈ list1.entries ∨ slice.Excluded list1.entries e
      rw [entries1]
      rcases mem_or_refused lacks member with copied | ⟨front, _, within, refused⟩
      · exact Or.inl copied
      · exact mem_or_excluded refused within

end

/-- A slice with POC 8, without DRAP pictures. -/
def sampleSlice : EncoderSlice := ⟨8, 4, false, false, false, false, false, MAX_INT, 0⟩

/-- Reference pictures with POC 4 and 16. -/
def samplePictures : List EncPicture := [⟨4, true, false⟩, ⟨16, true, false⟩]

/-- Short-term entries for the pictures with POC 4 and 2. -/
def sampleRPL0 (numberOfActivePictures : Nat) : ActiveRefPicList :=
  { RefPicListStruct.empty with
    numberOfShorttermPictures := 2
    refPicIdentifier := fun ii => if ii = 0 then 4 else 6
    numberOfActivePictures := numberOfActivePictures }

/-- A short-term entry for the picture with POC 16. -/
def sampleRPL1 : ActiveRefPicList :=
  { RefPicListStruct.empty with
    numberOfShorttermPictures := 1
    refPicIdentifier := fun _ => -8
    numberOfActivePictures := 1 }

theorem constructed_sample :
    sampleSlice.enableDRAPSEI = false ∧
      NothingToFill sampleSlice samplePictures (sampleRPL0 1) sampleRPL1 ∧
      (Constructed sampleSlice samplePictures (sampleRPL0 1) sampleRPL1
          (sampleSlice.createExplicitReferencePictureSetFromReference samplePictures
            (sampleRPL0 1) sampleRPL1) ↔
        NothingToFill sampleSlice samplePictures (sampleRPL0 1) sampleRPL1) :=
  ⟨rfl, Or.inl (by decide), constructed_iff rfl (sampleRPL0 1) sampleRPL1⟩

/-- Two entries of list 0 are asked for. The picture with POC 2 is not in the buffer, and the
one of list 1 is not taken in its place. -/
theorem sample_not_constructed :
    sampleSlice.enableDRAPSEI = false ∧
      (sampleSlice.createExplicitReferencePictureSetFromReference samplePictures
        (sampleRPL0 2) sampleRPL1).1.entries = [(4, false)] ∧
      ¬ Constructed sampleSlice samplePictures (sampleRPL0 2) sampleRPL1
        (sampleSlice.createExplicitReferencePictureSetFromReference samplePictures
          (sampleRPL0 2) sampleRPL1) := by
  refine ⟨rfl, by decide, fun built => ?_⟩
  have available : ((-8, false) : Entry) ∈ sampleSlice.availableEntries samplePictures
      sampleRPL1.toRefPicListStruct := by decide
  have present := built.complete0 (by decide) _ available
  exact absurd present (by decide)

end EncoderSlice

end Vtm.RefPics
