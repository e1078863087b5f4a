import Vtm.Common.NAL
import Vtm.Slice.MissingRefPics

/-!
# Reference picture marking

`Slice::applyReferencePictureListBasedMarking` drops the pictures of the buffer that
the lists of a slice do not name, behind the checks of
`Slice::checkLeadingPictureRestrictions`. `keepsListed_iff` says when it keeps exactly
the listed pictures.
-/

namespace Vtm.RefPics

open Vtm.Std

/-- The first slice of a picture, as far as the restrictions read it. -/
structure FirstSlice where
  nalUnitType : NalUnitType
  poc : Int
  associatedIRAPPOC : Int
  picOutputFlag : Bool
  /-- The parameter set has VUI parameters with `field_seq_flag`. -/
  fieldSeqFlag : Bool
deriving DecidableEq, Repr

/-- `Picture` in the decoded picture buffer. -/
structure DpbPicture extends Picture where
  layer : Nat
  usedByCurr : Bool
  reconstructed : Bool
  /-- `slices[0]`. -/
  firstSlice : FirstSlice
deriving DecidableEq, Repr

/-- `Slice` of the current picture, as far as the marking reads it. -/
structure CurrentSlice where
  nalUnitType : NalUnitType
  poc : Int
  tLayer : Nat
  associatedIRAPPOC : Int
  associatedIRAPType : NalUnitType
  noOutputOfPriorPicsFlag : Bool
deriving DecidableEq, Repr

/-- The two types of leading pictures. -/
def isLeading (t : NalUnitType) : Prop := t = .codedSliceRasl ∨ t = .codedSliceRadl

instance (t : NalUnitType) : Decidable (isLeading t) := inferInstanceAs (Decidable (_ ∨ _))

/-- The two types of IDR pictures. -/
def isIDR (t : NalUnitType) : Prop := t = .codedSliceIdrNLp ∨ t = .codedSliceIdrWRadl

instance (t : NalUnitType) : Decidable (isIDR t) := inferInstanceAs (Decidable (_ ∨ _))

namespace CurrentSlice

variable (slice : CurrentSlice)

/-- One round of the loop of `checkLeadingPictureRestrictions`, with its count
`numLeadingPicsFound`. -/
def checkLeadingPicture (numLeadingPicsFound : Nat) (pcPic : DpbPicture) : Checked Nat :=
  if ¬ pcPic.reconstructed then return numLeadingPicsFound
  else if pcPic.poc = slice.poc then return numLeadingPicsFound
  else do
    let pcSlice := pcPic.firstSlice
    CHECK ((pcSlice.picOutputFlag ∧ ¬ slice.noOutputOfPriorPicsFlag) ∧
      (slice.nalUnitType = .codedSliceCra ∨ isIDR slice.nalUnitType) ∧ pcPic.poc ≥ slice.poc)
      "Invalid POC"
    CHECK (pcSlice.picOutputFlag ∧ slice.nalUnitType = .codedSliceRadl ∧
      slice.associatedIRAPPOC > pcSlice.associatedIRAPPOC ∧ slice.associatedIRAPPOC ≠ pcPic.poc ∧
      pcPic.poc ≥ slice.poc) "Invalid POC"
    let numLeadingPicsFound ←
      if isLeading slice.nalUnitType ∧ ¬ isLeading pcSlice.nalUnitType ∧
          pcSlice.associatedIRAPPOC = slice.associatedIRAPPOC then do
        let numLeadingPicsFound := numLeadingPicsFound + 1
        let limitNonLP := if pcSlice.fieldSeqFlag then 1 else 0
        CHECK (pcPic.poc > slice.associatedIRAPPOC ∧ numLeadingPicsFound > limitNonLP) "Invalid POC"
        pure numLeadingPicsFound
      else pure numLeadingPicsFound
    CHECK (slice.nalUnitType = .codedSliceRasl ∧ (slice.associatedIRAPType = .codedSliceCra ∧
      slice.associatedIRAPPOC = pcSlice.associatedIRAPPOC) ∧
      pcSlice.nalUnitType = .codedSliceRadl ∧ pcPic.poc ≤ slice.poc) "Invalid POC"
    CHECK (slice.nalUnitType = .codedSliceRasl ∧ slice.associatedIRAPType = .codedSliceCra ∧
      (pcSlice.poc < slice.associatedIRAPPOC ∧
        (isIDR pcSlice.nalUnitType ∨ pcSlice.nalUnitType = .codedSliceCra)) ∧
      slice.poc ≤ pcSlice.poc) "Invalid POC"
    return numLeadingPicsFound

/-- The loop of `checkLeadingPictureRestrictions`. -/
def checkLeadingPictures : Nat → List DpbPicture → Checked Unit
  | _, [] => return ()
  | numLeadingPicsFound, pcPic :: rest => do
      let numLeadingPicsFound ← slice.checkLeadingPicture numLeadingPicsFound pcPic
      checkLeadingPictures numLeadingPicsFound rest

def checkLeadingPictureRestrictions (dpb : List DpbPicture) : Checked Unit := do
  CHECK (slice.associatedIRAPPOC > slice.poc ∧
    (slice.nalUnitType.code < NalUnitType.codedSliceIdrWRadl.code ∨
      slice.nalUnitType.code > NalUnitType.codedSliceCra.code) ∧
    ¬ isLeading slice.nalUnitType) "Invalid NAL unit type"
  CHECK (slice.associatedIRAPPOC < slice.poc ∧ isLeading slice.nalUnitType) "Invalid NAL unit type"
  CHECK (slice.nalUnitType = .codedSliceRasl ∧ isIDR slice.associatedIRAPType)
    "Invalid NAL unit type"
  CHECK (slice.nalUnitType = .codedSliceRadl ∧ slice.associatedIRAPType = .codedSliceIdrNLp)
    "Invalid NAL unit type"
  slice.checkLeadingPictures 0 dpb

/-- One round of a loop over a list: the picture with its mark when the entry names
it. The identifier of a long-term entry is compared as it is. -/
def markEntry (rpl : ReferencePictureList) (pcPic : DpbPicture) (i : Nat) : Option DpbPicture :=
  if ¬ rpl.isRefPicLongterm i then
    if pcPic.poc = slice.poc - rpl.refPicIdentifier i then some { pcPic with longTerm := false }
    else none
  else
    let curPoc := pocLsb pcPic.bitsForPOC pcPic.poc
    if pcPic.longTerm ∧ curPoc = rpl.refPicIdentifier i then some { pcPic with longTerm := true }
    else none

/-- The loop over the entries of a list: `isReference` and the picture. -/
def markEntries (rpl : ReferencePictureList) (pcPic : DpbPicture) : List Nat → Bool × DpbPicture
  | [] => (false, pcPic)
  | i :: rest =>
      match slice.markEntry rpl pcPic i with
      | some pcPic => (true, pcPic)
      | none => markEntries rpl pcPic rest

/-- The loop over a list, which is left out when `isNeedToCheck` or `isReference` says so. -/
def markList (rpl : ReferencePictureList) (pcPic : DpbPicture) (isReference : Bool) :
    Bool × DpbPicture :=
  let isNeedToCheck := ¬ isIDR slice.nalUnitType
  if isNeedToCheck ∧ ¬ isReference then
    slice.markEntries rpl pcPic
      (List.range (rpl.numberOfShorttermPictures + rpl.numberOfLongtermPictures))
  else (isReference, pcPic)

/-- The body of the loop over the buffer. -/
def markPicture (pRPL0 pRPL1 : ReferencePictureList) (pcPic : DpbPicture) : Checked DpbPicture :=
  if ¬ pcPic.referenced then return pcPic
  else do
    let (isReference, pcPic) := slice.markList pRPL0 pcPic false
    let (isReference, pcPic) := slice.markList pRPL1 pcPic isReference
    let pcPic :=
      if pcPic.poc ≠ slice.poc ∧ ¬ isReference then
        { pcPic with referenced := false, longTerm := false }
      else pcPic
    CHECK (pcPic.referenced ∧ pcPic.usedByCurr ∧ ¬ pcPic.layer ≤ slice.tLayer) "Invalid state"
    return pcPic

/-- The loop over the buffer. -/
def markPictures (pRPL0 pRPL1 : ReferencePictureList) :
    List DpbPicture → Checked (List DpbPicture)
  | [] => return []
  | pcPic :: rest => do
      let pcPic ← slice.markPicture pRPL0 pRPL1 pcPic
      let rest ← markPictures pRPL0 pRPL1 rest
      return pcPic :: rest

def applyReferencePictureListBasedMarking (pRPL0 pRPL1 : ReferencePictureList)
    (dpb : List DpbPicture) : Checked (List DpbPicture) := do
  slice.checkLeadingPictureRestrictions dpb
  slice.markPictures pRPL0 pRPL1 dpb

/-- Entry `i` of a list names a picture, by its POC or by its LSBs. -/
@[grind =] def Names (rpl : ReferencePictureList) (pic : DpbPicture) (i : Nat) : Prop :=
  if rpl.isRefPicLongterm i then
    pic.longTerm = true ∧
      pocLsb pic.bitsForPOC pic.poc = pocLsb pic.bitsForPOC (rpl.refPicIdentifier i)
  else pic.poc = slice.poc - rpl.refPicIdentifier i

/-- A list names a picture. -/
def Listed (rpl : ReferencePictureList) (pic : DpbPicture) : Prop :=
  ∃ i < rpl.numEntries, slice.Names rpl pic i

/-- The identifier of a long-term entry is made of LSBs only. -/
def Reduced (rpl : ReferencePictureList) (pic : DpbPicture) (i : Nat) : Prop :=
  rpl.isRefPicLongterm i = true →
    0 ≤ rpl.refPicIdentifier i ∧ rpl.refPicIdentifier i < 2 ^ pic.bitsForPOC

/-- A list names a picture, not only by a long-term identifier with more than LSBs. -/
def ListedReduced (rpl : ReferencePictureList) (pic : DpbPicture) : Prop :=
  ∃ i < rpl.numEntries, slice.Names rpl pic i ∧ Reduced rpl pic i

section Entries

variable (rpl : ReferencePictureList)

theorem markEntry_eq_some_iff {pic marked : DpbPicture} {i : Nat} :
    slice.markEntry rpl pic i = some marked ↔
      (slice.Names rpl pic i ∧ Reduced rpl pic i) ∧
        marked = { pic with longTerm := rpl.isRefPicLongterm i } := by
  unfold markEntry Names Reduced
  cases rpl.isRefPicLongterm i with
  | false => simp [eq_comm]
  | true =>
      have lsb : pocLsb pic.bitsForPOC pic.poc = rpl.refPicIdentifier i ↔
          pocLsb pic.bitsForPOC pic.poc = pocLsb pic.bitsForPOC (rpl.refPicIdentifier i) ∧
            0 ≤ rpl.refPicIdentifier i ∧ rpl.refPicIdentifier i < 2 ^ pic.bitsForPOC := by
        have cycle : (0 : Int) < 2 ^ pic.bitsForPOC := by positivity
        unfold pocLsb
        constructor
        · intro same
          rw [← same]
          exact ⟨(Int.emod_emod_of_dvd _ (dvd_refl _)).symm, Int.emod_nonneg _ cycle.ne',
            Int.emod_lt_of_pos _ cycle⟩
        · rintro ⟨same, nonneg, small⟩
          rw [same, Int.emod_eq_of_lt nonneg small]
      simp only [not_true_eq_false, if_false, if_true, lsb, forall_const,
        Option.ite_none_right_eq_some, Option.some.injEq, and_assoc,
        eq_comm (b := marked)]

/-- An entry that names a picture names it again after its mark. -/
theorem markEntry_again {pic marked : DpbPicture} {i : Nat}
    (here : slice.markEntry rpl pic i = some marked) :
    slice.markEntry rpl marked i = some marked := by
  obtain ⟨⟨names, reduced⟩, rfl⟩ := (slice.markEntry_eq_some_iff rpl).mp here
  refine (slice.markEntry_eq_some_iff rpl).mpr ⟨⟨?_, reduced⟩, rfl⟩
  unfold Names at names ⊢
  cases longTerm : rpl.isRefPicLongterm i with
  | false => simpa [longTerm] using names
  | true => simpa [longTerm] using (longTerm ▸ names : _ ∧ _).2

/-- A mark makes no other entry name the picture. -/
theorem markEntry_other {pic marked : DpbPicture} {i j : Nat}
    {rpl' : ReferencePictureList} (here : slice.markEntry rpl pic i = some marked)
    (there : slice.markEntry rpl' pic j = none) : slice.markEntry rpl' marked j = none := by
  obtain ⟨⟨names, reduced⟩, rfl⟩ := (slice.markEntry_eq_some_iff rpl).mp here
  cases longTerm : rpl.isRefPicLongterm i with
  | true =>
      have kept : { pic with longTerm := true } = pic := by
        rw [Names, if_pos longTerm] at names
        rw [← names.1]
      rwa [kept]
  | false =>
      cases again : slice.markEntry rpl' { pic with longTerm := false } j with
      | none => rfl
      | some marked =>
          -- a long-term entry cannot name the unmarked picture
          obtain ⟨⟨names', reduced'⟩, -⟩ := (slice.markEntry_eq_some_iff rpl').mp again
          have named : slice.Names rpl' pic j := by
            unfold Names at names' ⊢
            cases longTerm' : rpl'.isRefPicLongterm j with
            | true => simp [longTerm'] at names'
            | false => simpa [longTerm'] using names'
          rw [(slice.markEntry_eq_some_iff rpl').mpr ⟨⟨named, reduced'⟩, rfl⟩] at there
          cases there

theorem markEntries_eq (pic : DpbPicture) (entries : List Nat) :
    slice.markEntries rpl pic entries =
      match entries.findSome? (slice.markEntry rpl pic) with
      | some marked => (true, marked)
      | none => (false, pic) := by
  induction entries with
  | nil => rfl
  | cons i rest ih =>
      rw [markEntries, List.findSome?_cons]
      cases slice.markEntry rpl pic i with
      | some marked => rfl
      | none => exact ih

end Entries

/-- The mark of the first entry of both lists that names a picture. -/
@[grind =] def firstMark (pRPL0 pRPL1 : ReferencePictureList) (pic : DpbPicture) : Option DpbPicture :=
  if isIDR slice.nalUnitType then none
  else
    ((List.range pRPL0.numEntries).findSome? (slice.markEntry pRPL0 pic)).or
      ((List.range pRPL1.numEntries).findSome? (slice.markEntry pRPL1 pic))

/-- What happens to a picture of the buffer. -/
def mark (pRPL0 pRPL1 : ReferencePictureList) (pic : DpbPicture) : DpbPicture :=
  if pic.referenced then
    (slice.firstMark pRPL0 pRPL1 pic).getD
      (if pic.poc = slice.poc then pic else { pic with referenced := false, longTerm := false })
  else pic

section Mark

variable (pRPL0 pRPL1 : ReferencePictureList)

/-- A mark of the first entry is one of an entry, and stays the first one. -/
theorem firstMark_eq_some {pic marked : DpbPicture}
    (first : slice.firstMark pRPL0 pRPL1 pic = some marked) :
    (∃ longTerm, marked = { pic with longTerm := longTerm }) ∧
      slice.firstMark pRPL0 pRPL1 marked = some marked := by
  -- the search in one list, when it ends with a mark
  have search (rpl : ReferencePictureList) (entries : List Nat)
      (found : entries.findSome? (slice.markEntry rpl pic) = some marked) :
      (∃ i, slice.markEntry rpl pic i = some marked) ∧
        entries.findSome? (slice.markEntry rpl marked) = some marked := by
    obtain ⟨before, i, behind, split, here, missed⟩ := List.findSome?_eq_some_iff.mp found
    refine ⟨⟨i, here⟩, List.findSome?_eq_some_iff.mpr ⟨before, i, behind, split, ?_, ?_⟩⟩
    · exact slice.markEntry_again rpl here
    · exact fun j member => slice.markEntry_other rpl here (missed j member)
  unfold firstMark at first ⊢
  split at first
  · cases first
  · rename_i checked
    rw [if_neg checked]
    cases found0 : (List.range pRPL0.numEntries).findSome? (slice.markEntry pRPL0 pic) with
    | some marked0 =>
        rw [found0, Option.some_or, Option.some.injEq] at first
        subst first
        obtain ⟨⟨i, here⟩, again⟩ := search pRPL0 _ found0
        refine ⟨⟨_, ((slice.markEntry_eq_some_iff pRPL0).mp here).2⟩, ?_⟩
        rw [again, Option.some_or]
    | none =>
        rw [found0, Option.none_or] at first
        obtain ⟨⟨i, here⟩, again⟩ := search pRPL1 _ first
        refine ⟨⟨_, ((slice.markEntry_eq_some_iff pRPL1).mp here).2⟩, ?_⟩
        have unfound : (List.range pRPL0.numEntries).findSome? (slice.markEntry pRPL0 marked) =
            none := by
          rw [List.findSome?_eq_none_iff] at found0 ⊢
          exact fun j member => slice.markEntry_other pRPL1 here (found0 j member)
        rw [unfound, Option.none_or, again]

theorem firstMark_isSome_iff (pic : DpbPicture) :
    (slice.firstMark pRPL0 pRPL1 pic).isSome ↔ ¬ isIDR slice.nalUnitType ∧
      (slice.ListedReduced pRPL0 pic ∨ slice.ListedReduced pRPL1 pic) := by
  have search (rpl : ReferencePictureList) :
      ((List.range rpl.numEntries).findSome? (slice.markEntry rpl pic)).isSome ↔
        slice.ListedReduced rpl pic := by
    rw [List.findSome?_isSome_iff]
    constructor
    · rintro ⟨i, member, here⟩
      obtain ⟨marked, here⟩ := Option.isSome_iff_exists.mp here
      exact ⟨i, List.mem_range.mp member, ((slice.markEntry_eq_some_iff rpl).mp here).1⟩
    · rintro ⟨i, inside, names⟩
      have here := (slice.markEntry_eq_some_iff rpl).mpr ⟨names, rfl⟩
      exact ⟨i, List.mem_range.mpr inside, Option.isSome_iff_exists.mpr ⟨_, here⟩⟩
  unfold firstMark
  split
  · rename_i idr
    simp [idr]
  · rename_i checked
    rw [Option.isSome_or, Bool.or_eq_true, search, search]
    simp [checked]

/-- Only the marks of a picture change. -/
theorem mark_eq (pic : DpbPicture) :
    ∃ referenced longTerm, slice.mark pRPL0 pRPL1 pic =
      { pic with referenced := referenced, longTerm := longTerm } := by
  unfold mark
  split
  · cases first : slice.firstMark pRPL0 pRPL1 pic with
    | some marked =>
        obtain ⟨⟨longTerm, rfl⟩, -⟩ := slice.firstMark_eq_some pRPL0 pRPL1 first
        exact ⟨pic.referenced, longTerm, rfl⟩
    | none =>
        rw [Option.getD_none]
        split
        · exact ⟨pic.referenced, pic.longTerm, rfl⟩
        · exact ⟨false, false, rfl⟩
  · exact ⟨pic.referenced, pic.longTerm, rfl⟩

/-- A picture stays referenced when it is the current one or a list names it. -/
theorem mark_referenced_iff (pic : DpbPicture) :
    (slice.mark pRPL0 pRPL1 pic).referenced = true ↔ pic.referenced = true ∧
      (pic.poc = slice.poc ∨ ¬ isIDR slice.nalUnitType ∧
        (slice.ListedReduced pRPL0 pic ∨ slice.ListedReduced pRPL1 pic)) := by
  rw [← firstMark_isSome_iff]
  unfold mark
  split
  · rename_i referenced
    cases first : slice.firstMark pRPL0 pRPL1 pic with
    | some marked =>
        obtain ⟨⟨longTerm, rfl⟩, -⟩ := slice.firstMark_eq_some pRPL0 pRPL1 first
        simp [referenced]
    | none =>
        by_cases current : pic.poc = slice.poc
        · simp [current, referenced]
        · simp [current]
  · rename_i unreferenced
    simp [unreferenced]

/-- A picture that is dropped is no long-term reference any more. -/
theorem mark_dropped {pic : DpbPicture} (before : pic.referenced = true)
    (after : ¬ (slice.mark pRPL0 pRPL1 pic).referenced = true) :
    (slice.mark pRPL0 pRPL1 pic).longTerm = false := by
  unfold mark at after ⊢
  rw [if_pos before] at after ⊢
  cases first : slice.firstMark pRPL0 pRPL1 pic with
  | some marked =>
      rw [first] at after
      obtain ⟨⟨longTerm, rfl⟩, -⟩ := slice.firstMark_eq_some pRPL0 pRPL1 first
      exact absurd before after
  | none =>
      rw [first, Option.getD_none] at after
      rw [Option.getD_none]
      by_cases current : pic.poc = slice.poc
      · rw [if_pos current] at after
        exact absurd before after
      · rw [if_neg current]

/-- Marking a picture twice is marking it once. -/
theorem mark_mark (pic : DpbPicture) :
    slice.mark pRPL0 pRPL1 (slice.mark pRPL0 pRPL1 pic) = slice.mark pRPL0 pRPL1 pic := by
  by_cases referenced : pic.referenced = true
  · cases first : slice.firstMark pRPL0 pRPL1 pic with
    | some marked =>
        obtain ⟨⟨longTerm, rfl⟩, again⟩ := slice.firstMark_eq_some pRPL0 pRPL1 first
        have once : slice.mark pRPL0 pRPL1 pic = { pic with longTerm := longTerm } := by
          rw [mark, if_pos referenced, first, Option.getD_some]
        rw [once, mark, if_pos referenced, again, Option.getD_some]
    | none =>
        by_cases current : pic.poc = slice.poc
        · have once : slice.mark pRPL0 pRPL1 pic = pic := by
            rw [mark, if_pos referenced, first, Option.getD_none, if_pos current]
          rw [once, once]
        · have once : slice.mark pRPL0 pRPL1 pic =
              { pic with referenced := false, longTerm := false } := by
            rw [mark, if_pos referenced, first, Option.getD_none, if_neg current]
          rw [once, mark, if_neg (by simp)]
  · have once : slice.mark pRPL0 pRPL1 pic = pic := by
      rw [mark, if_neg referenced]
    rw [once, once]

/-- The two loops over the lists find the first mark. -/
theorem markList_eq (pic : DpbPicture) :
    slice.markList pRPL1 (slice.markList pRPL0 pic false).2 (slice.markList pRPL0 pic false).1 =
      match slice.firstMark pRPL0 pRPL1 pic with
      | some marked => (true, marked)
      | none => (false, pic) := by
  unfold markList firstMark
  by_cases idr : isIDR slice.nalUnitType
  · simp [idr]
  · simp only [idr, not_false_eq_true, true_and, Bool.false_eq_true, if_true, if_false,
      markEntries_eq, ReferencePictureList.numEntries,
      Nat.add_comm _ (ReferencePictureList.numberOfShorttermPictures _)]
    cases (List.range (pRPL0.numberOfShorttermPictures + pRPL0.numberOfLongtermPictures)).findSome?
        (slice.markEntry pRPL0 pic) with
    | some marked => simp
    | none => simp

/-- The state check at the end of a round. -/
def ValidState (pic : DpbPicture) : Prop :=
  ¬ (pic.referenced ∧ pic.usedByCurr ∧ ¬ pic.layer ≤ slice.tLayer)

/-- A round marks its picture, unless a picture of a higher layer is kept. -/
theorem markPicture_eq_ok_iff {pic marked : DpbPicture} :
    slice.markPicture pRPL0 pRPL1 pic = .ok marked ↔
      marked = slice.mark pRPL0 pRPL1 pic ∧
        (pic.referenced = true → slice.ValidState marked) := by
  unfold markPicture
  by_cases referenced : pic.referenced = true
  · have lists := slice.markList_eq pRPL0 pRPL1 pic
    rw [if_neg (not_not.mpr referenced)]
    generalize slice.markList pRPL0 pic false = first at lists
    obtain ⟨isReference, pic'⟩ := first
    dsimp only at lists ⊢
    rw [lists]
    unfold mark
    rw [if_pos referenced]
    cases first : slice.firstMark pRPL0 pRPL1 pic with
    | some marked' =>
        simp [CHECK_bind_eq_ok_iff, ValidState, referenced, pure, Except.pure]
        grind
    | none =>
        simp [CHECK_bind_eq_ok_iff, ValidState, referenced, pure, Except.pure]
        grind
  · rw [if_pos (by simpa using referenced), mark, if_neg referenced]
    simp [referenced, pure, Except.pure, eq_comm]

/-- The loop marks every picture on its own. -/
theorem markPictures_eq_ok_iff {dpb final : List DpbPicture} :
    slice.markPictures pRPL0 pRPL1 dpb = .ok final ↔
      final = dpb.map (slice.mark pRPL0 pRPL1) ∧
        ∀ pic ∈ dpb, pic.referenced = true → slice.ValidState (slice.mark pRPL0 pRPL1 pic) := by
  induction dpb generalizing final with
  | nil =>
      simp only [markPictures, pure, Except.pure, Except.ok.injEq, List.map_nil,
        List.not_mem_nil, IsEmpty.forall_iff, implies_true, and_true]
      exact eq_comm
  | cons pic rest ih =>
      simp only [markPictures, bind_eq_ok_iff, markPicture_eq_ok_iff, ih, List.map_cons,
        List.forall_mem_cons]
      constructor
      · rintro ⟨_, ⟨rfl, valid⟩, _, ⟨rfl, others⟩, built⟩
        cases built
        exact ⟨rfl, valid, others⟩
      · rintro ⟨rfl, valid, others⟩
        exact ⟨_, ⟨rfl, valid⟩, _, ⟨rfl, others⟩, rfl⟩

/-- The restrictions read no marks. -/
theorem checkLeadingPictures_map (numLeadingPicsFound : Nat) (dpb : List DpbPicture) :
    slice.checkLeadingPictures numLeadingPicsFound (dpb.map (slice.mark pRPL0 pRPL1)) =
      slice.checkLeadingPictures numLeadingPicsFound dpb := by
  induction dpb generalizing numLeadingPicsFound with
  | nil => rfl
  | cons pic rest ih =>
      obtain ⟨referenced, longTerm, marked⟩ := slice.mark_eq pRPL0 pRPL1 pic
      have same : slice.checkLeadingPicture numLeadingPicsFound (slice.mark pRPL0 pRPL1 pic) =
          slice.checkLeadingPicture numLeadingPicsFound pic := by
        rw [marked]
        rfl
      rw [List.map_cons, checkLeadingPictures, checkLeadingPictures, same]
      simp only [ih]

theorem checkLeadingPictureRestrictions_map (dpb : List DpbPicture) :
    slice.checkLeadingPictureRestrictions (dpb.map (slice.mark pRPL0 pRPL1)) =
      slice.checkLeadingPictureRestrictions dpb := by
  unfold checkLeadingPictureRestrictions
  rw [checkLeadingPictures_map]

variable {pRPL0 pRPL1} {dpb final : List DpbPicture}

/-- What a call that returns leaves. -/
theorem eq_map_of_returns
    (returns : slice.applyReferencePictureListBasedMarking pRPL0 pRPL1 dpb = .ok final) :
    final = dpb.map (slice.mark pRPL0 pRPL1) := by
  obtain ⟨_, -, marked⟩ := bind_eq_ok_iff.mp returns
  exact ((slice.markPictures_eq_ok_iff pRPL0 pRPL1).mp marked).1

/-- A second call returns as well and changes nothing. -/
theorem returns_again
    (returns : slice.applyReferencePictureListBasedMarking pRPL0 pRPL1 dpb = .ok final) :
    slice.applyReferencePictureListBasedMarking pRPL0 pRPL1 final = .ok final := by
  obtain ⟨_, allowed, marked⟩ := bind_eq_ok_iff.mp returns
  obtain ⟨rfl, valid⟩ := (slice.markPictures_eq_ok_iff pRPL0 pRPL1).mp marked
  refine bind_eq_ok_iff.mpr ⟨(), ?_, (slice.markPictures_eq_ok_iff pRPL0 pRPL1).mpr ⟨?_, ?_⟩⟩
  · rw [checkLeadingPictureRestrictions_map, allowed]
  · rw [List.map_map]
    apply List.map_congr_left
    intro pic _
    exact (slice.mark_mark pRPL0 pRPL1 pic).symm
  · intro marked member referenced
    obtain ⟨pic, inside, rfl⟩ := List.mem_map.mp member
    rw [mark_mark]
    exact valid pic inside ((slice.mark_referenced_iff pRPL0 pRPL1 pic).mp referenced).1

end Mark

/-- The marking keeps exactly the listed pictures. -/
structure KeepsListed (pRPL0 pRPL1 : ReferencePictureList) (dpb final : List DpbPicture) :
    Prop where
  listed : List.Forall₂ (fun before after => after.referenced = true ↔
    before.referenced = true ∧ (before.poc = slice.poc ∨ ¬ isIDR slice.nalUnitType ∧
      (slice.Listed pRPL0 before ∨ slice.Listed pRPL1 before))) dpb final
  dropped : List.Forall₂ (fun before after => before.referenced = true →
    ¬ after.referenced = true → after.longTerm = false) dpb final
  /-- Each picture is marked on its own, in whatever order they are. -/
  unordered : ∃ mark : DpbPicture → DpbPicture, ∀ dpb', dpb'.Perm dpb → ∀ final',
    slice.applyReferencePictureListBasedMarking pRPL0 pRPL1 dpb' = .ok final' →
      final' = dpb'.map mark
  idempotent : slice.applyReferencePictureListBasedMarking pRPL0 pRPL1 final = .ok final

/-- A call that returns keeps exactly the listed pictures when each picture that could
be dropped and that is listed is so not only by an identifier with more than LSBs. -/
theorem keepsListed_iff (pRPL0 pRPL1 : ReferencePictureList) (dpb final : List DpbPicture)
    (returns : slice.applyReferencePictureListBasedMarking pRPL0 pRPL1 dpb = .ok final) :
    slice.KeepsListed pRPL0 pRPL1 dpb final ↔
      ∀ pic ∈ dpb, pic.referenced = true → pic.poc ≠ slice.poc → ¬ isIDR slice.nalUnitType →
        slice.Listed pRPL0 pic ∨ slice.Listed pRPL1 pic →
        slice.ListedReduced pRPL0 pic ∨ slice.ListedReduced pRPL1 pic := by
  obtain rfl := slice.eq_map_of_returns returns
  constructor
  · intro keeps pic inside referenced other notIDR listed
    have exact := keeps.listed
    rw [List.forall₂_map_right_iff, List.forall₂_same] at exact
    have kept := (exact pic inside).mpr ⟨referenced, Or.inr ⟨notIDR, listed⟩⟩
    rcases ((slice.mark_referenced_iff pRPL0 pRPL1 pic).mp kept).2 with current | ⟨-, reduced⟩
    · exact absurd current other
    · exact reduced
  · intro reduced
    refine ⟨?_, ?_, ⟨slice.mark pRPL0 pRPL1, ?_⟩, slice.returns_again returns⟩
    · rw [List.forall₂_map_right_iff, List.forall₂_same]
      intro pic inside
      rw [mark_referenced_iff]
      refine and_congr_right fun referenced => ?_
      by_cases current : pic.poc = slice.poc
      · simp [current]
      · simp only [current, false_or]
        refine and_congr_right fun notIDR => ⟨?_, reduced pic inside referenced current notIDR⟩
        exact Or.imp (fun ⟨i, inside, names, _⟩ => ⟨i, inside, names⟩)
          fun ⟨i, inside, names, _⟩ => ⟨i, inside, names⟩
    · rw [List.forall₂_map_right_iff, List.forall₂_same]
      exact fun pic _ => slice.mark_dropped pRPL0 pRPL1
    · exact fun dpb' _ final' returns' => slice.eq_map_of_returns returns'

/-- A trailing slice of POC 300 behind a CRA picture of POC 256. -/
def trailing : CurrentSlice where
  nalUnitType := .codedSliceTrail
  poc := 300
  tLayer := 0
  associatedIRAPPOC := 256
  associatedIRAPType := .codedSliceCra
  noOutputOfPriorPicsFlag := false

/-- The CRA picture, a long-term reference, with 8 bits for its LSBs. -/
def irapPicture : DpbPicture where
  poc := 256
  layerId := 0
  referenced := true
  longTerm := true
  bitsForPOC := 8
  layer := 0
  usedByCurr := false
  reconstructed := true
  firstSlice := ⟨.codedSliceCra, 256, 256, true, false⟩

/-- A list with one long-term entry. -/
def longTermEntry (identifier : Int) : ReferencePictureList where
  numberOfShorttermPictures := 0
  numberOfLongtermPictures := 1
  isRefPicLongterm := fun _ => true
  refPicIdentifier := fun _ => identifier
  deltaPocMSBPresentFlag := fun _ => false
  deltaPocMSBCycleLT := fun _ => 0

/-- The CRA picture is kept when it is listed by its LSBs. -/
theorem keepsListed_irapPicture :
    trailing.KeepsListed (longTermEntry 0) (longTermEntry 0) [irapPicture] [irapPicture] := by
  refine (keepsListed_iff trailing (longTermEntry 0) (longTermEntry 0) [irapPicture]
    [irapPicture] rfl).mpr ?_
  rintro pic inside - - - -
  obtain rfl := List.mem_singleton.mp inside
  refine Or.inl ⟨0, by decide, ?_, fun _ => by decide⟩
  simp [Names, longTermEntry, irapPicture, pocLsb]

/-- It is dropped when it is listed by its POC, the form in which
`createExplicitReferencePictureSetFromReference` lists it. -/
theorem irapPicture_not_keepsListed :
    trailing.applyReferencePictureListBasedMarking (longTermEntry 256) (longTermEntry 256)
        [irapPicture] = .ok [{ irapPicture with referenced := false, longTerm := false }] ∧
      ¬ trailing.KeepsListed (longTermEntry 256) (longTermEntry 256) [irapPicture]
        [{ irapPicture with referenced := false, longTerm := false }] := by
  refine ⟨rfl, fun keeps => ?_⟩
  have listed : trailing.Listed (longTermEntry 256) irapPicture :=
    ⟨0, by decide, by simp [Names, longTermEntry, irapPicture, pocLsb]⟩
  have exact := keeps.listed
  rw [List.forall₂_cons] at exact
  exact absurd (exact.1.mpr ⟨rfl, Or.inr ⟨by decide, Or.inl listed⟩⟩) (by simp)

end CurrentSlice

end Vtm.RefPics
