import Vtm.LostPics.Insert
import Vtm.Slice.RefPicResolution

/-!
# Repairing the picture buffer

The loops over missing reference pictures write no POC into a picture. So they leave a
complete buffer when nothing is lost, and otherwise only if the free picture that they take
is the missing one already: `insertLost_repairs`.
-/

namespace Vtm.LostPics

open Vtm.RefPics Vtm.Std

/-- Both lists of a slice are complete: the checks accept them, every entry names a
referenced picture, and `constructRefPicList` ends at a picture. -/
structure Complete (slice : Slice) (listPic : List Picture) : Prop where
  accepted : ∀ X, reported slice (slice.rpl X) listPic = 0
  present : ∀ X, ∀ ii < (slice.rpl X).numEntries,
    ¬ Missing slice.toSlice (slice.rpl X) (listPic.map (·.toPicture)) ii
  constructed : ∀ X, ∀ ii < (slice.rpl X).numEntries,
    ∃ i, refPicOf slice.toSlice X (listPic.map (·.toPicture)) ii = .ok i

/-- A pass has filled in the missing picture. -/
def Fill.Repairs (fill : Fill) : Prop :=
  ∃ pic, fill.pic = some pic ∧ pic.poc = fill.lostPoc ∧ pic.referenced ∧
    (fill.longTermEntry → pic.longTerm)

/-- The loops end without an exception, each pass fills in the missing picture, and no
entry of the lists is missing afterwards. -/
def Repairs (slice : Slice) (lib : DecLib) : Prop :=
  ∃ fuel fills last, lib.insertLost slice fuel = some (.ok (fills, last)) ∧
    (∀ fill ∈ fills, fill.Repairs) ∧ Complete slice last.listPic

section Condition

variable (slice : RefPics.Slice) (dpb : List RefPics.Picture)

/-- Every long-term entry of a list has a picture in the buffer. -/
def Matched (rpl : ReferencePictureList) : Prop :=
  ∀ ii < rpl.numEntries, rpl.isRefPicLongterm ii = true →
    ∃ pic ∈ dpb, matchesLsb (rpl.refPicIdentifier ii) pic

/-- A picture that is a long-term reference, or that a long-term entry of one of the lists
makes one. -/
def UsedByBoth (i : Nat) : Prop :=
  UsedLongTerm (slice.rpl .REF_PIC_LIST_0) dpb i ∨
    ∃ middle, searchedBuffer (slice.rpl .REF_PIC_LIST_0) dpb
        (slice.rpl .REF_PIC_LIST_0).numEntries = some middle ∧
      UsedLongTerm (slice.rpl .REF_PIC_LIST_1) middle i

/-- No reference picture is lost. A picture that one of the lists uses as a long-term
reference is none for a short-term entry. The checks ask for a referenced picture of any
layer, the construction for one of the layer of the slice. -/
structure NothingLost : Prop where
  longTerm : ∀ X, Matched dpb (slice.rpl X)
  shortTerm : ∀ X, ∀ ii < (slice.rpl X).numEntries, (slice.rpl X).isRefPicLongterm ii = false →
    ∃ i pic, dpb[i]? = some pic ∧ pic.referenced ∧
      pic.poc = slice.poc - (slice.rpl X).refPicIdentifier ii ∧ ¬ UsedByBoth slice dpb i
  layer : ∀ X, ∀ ii < (slice.rpl X).numEntries, (slice.rpl X).isRefPicLongterm ii = false →
    ∃ pic ∈ dpb, pic.poc = slice.poc - (slice.rpl X).refPicIdentifier ii ∧
      pic.layerId = slice.layerId

/-- The picture that is taken again for the first missing one has the POC of an entry. -/
def Recycles (slice : Slice) (lib : DecLib) : Prop :=
  ∃ i pic, Refit lib i pic ∧ 0 < pic.poc ∧ ∃ X, ∃ ii < (slice.rpl X).numEntries,
    pic.poc = missingPoc slice.toSlice (slice.rpl X) ii

end Condition

/-! ## The marks of a complete list -/

section Marks

variable {slice : RefPics.Slice} {rpl : ReferencePictureList} {dpb dpb' : List RefPics.Picture}

theorem SamePics.exists_mem (same : SamePics dpb dpb') {pic : RefPics.Picture}
    (member : pic ∈ dpb) : ∃ pic' ∈ dpb', pic'.static = pic.static := by
  obtain ⟨i, here⟩ := List.mem_iff_getElem?.mp member
  obtain ⟨pic', there, alike⟩ := SamePics.getElem? same here
  exact ⟨pic', List.mem_of_getElem? there, alike⟩

theorem matchesLsb_congr {pic pic' : RefPics.Picture} (alike : pic'.static = pic.static)
    (identifier : Int) : matchesLsb identifier pic' = matchesLsb identifier pic := by
  simp only [RefPics.Picture.static, Prod.mk.injEq] at alike
  simp only [matchesLsb, alike]

theorem Matched.congr (matched : Matched dpb rpl) (same : SamePics dpb dpb') :
    Matched dpb' rpl := by
  intro ii inside longTerm
  obtain ⟨pic, member, found⟩ := matched ii inside longTerm
  obtain ⟨pic', member', alike⟩ := SamePics.exists_mem same member
  exact ⟨pic', member', (matchesLsb_congr alike _).trans found⟩

theorem Matched.found (matched : Matched dpb rpl) {ii : Nat} (inside : ii < rpl.numEntries)
    (longTerm : rpl.isRefPicLongterm ii = true) :
    ¬ ∀ pic ∈ dpb, matchesLsb (rpl.refPicIdentifier ii) pic = false := by
  obtain ⟨pic, member, found⟩ := matched ii inside longTerm
  intro missing
  rw [missing pic member] at found
  cases found

/-- Every long-term entry of a list has a marked picture. -/
def AllMarked (rpl : ReferencePictureList) (dpb : List RefPics.Picture) : Prop :=
  ∀ ii < rpl.numEntries, rpl.isRefPicLongterm ii = true →
    ∃ pic ∈ dpb, pic.longTerm ∧ matchesLsb (rpl.refPicIdentifier ii) pic

/-- It has one behind the search for all of them. -/
theorem Matched.allMarked (matched : Matched dpb rpl)
    (searched : searchedBuffer rpl dpb rpl.numEntries = some dpb') : AllMarked rpl dpb' := by
  intro ii inside longTerm
  obtain ⟨before, here⟩ := exists_searchedBuffer ii fun jj earlier kind =>
    matched.found (earlier.trans inside) kind
  obtain ⟨result, available⟩ := exists_available (searchedBuffer_same here)
    (matched.found inside longTerm)
  have accepted : acceptedPicture (rpl.refPicIdentifier ii) before = some result.1 := by
    rw [acceptedPicture, available]
    rfl
  obtain ⟨pic, at_k, found, -⟩ := ((acceptedPicture_eq_some_iff ..).mp accepted).found
  obtain ⟨pic', there, mark⟩ := (searchedBuffer_marks rpl dpb searched result.1).mpr
    (Or.inr ⟨ii, inside, longTerm, before, here, accepted⟩)
  have same := (searchedBuffer_same here).symm.trans (searchedBuffer_same searched)
  obtain ⟨other, at_k', alike⟩ := SamePics.getElem? same at_k
  obtain rfl := Option.some.inj (there.symm.trans at_k')
  exact ⟨pic', List.mem_of_getElem? there, mark, (matchesLsb_congr alike _).trans found⟩

/-- A further list only adds marks. -/
theorem AllMarked.searched (marked : AllMarked rpl dpb) {other : ReferencePictureList}
    (searched : searchedBuffer other dpb other.numEntries = some dpb') : AllMarked rpl dpb' := by
  intro ii inside longTerm
  obtain ⟨pic, member, mark, found⟩ := marked ii inside longTerm
  obtain ⟨i, here⟩ := List.mem_iff_getElem?.mp member
  obtain ⟨pic', there, mark'⟩ := (searchedBuffer_marks other dpb searched i).mpr
    (Or.inl ⟨pic, here, mark⟩)
  obtain ⟨same, there', alike⟩ := SamePics.getElem? (searchedBuffer_same searched) here
  obtain rfl := Option.some.inj (there.symm.trans there')
  exact ⟨pic', List.mem_of_getElem? there, mark', (matchesLsb_congr alike _).trans found⟩

/-- When all are marked, the search marks no more. -/
theorem AllMarked.searchedBuffer (marked : AllMarked rpl dpb) {n : Nat}
    (inside : n ≤ rpl.numEntries) : RefPics.searchedBuffer rpl dpb n = some dpb := by
  induction n with
  | zero => rfl
  | succ n ih =>
      rw [RefPics.searchedBuffer, ih (Nat.le_of_succ_le inside), Option.bind_some]
      split
      · rename_i longTerm
        obtain ⟨pic, member, mark, found⟩ := marked n inside longTerm
        cases search : dpb.findIdx? fun pic =>
            pic.longTerm && matchesLsb (rpl.refPicIdentifier n) pic with
        | none =>
            have missed := List.findIdx?_eq_none_iff.mp search pic member
            rw [mark, found] at missed
            cases missed
        | some i =>
            rw [longTermAvailable, search]
            rfl
      · rfl

theorem AllMarked.longTermAt (marked : AllMarked rpl dpb) {i : Nat}
    (used : UsedLongTerm rpl dpb i) : LongTermAt dpb i :=
  (searchedBuffer_marks rpl dpb (marked.searchedBuffer (Nat.le_refl _)) i).mpr used

theorem checkShortTermIndex_eq_none {entries : List Nat}
    (found : ∀ ii ∈ entries, rpl.isRefPicLongterm ii = false →
      shortTermAvailable (slice.poc - rpl.refPicIdentifier ii) dpb = true) :
    checkShortTermIndex slice rpl dpb entries = none := by
  induction entries with
  | nil => rfl
  | cons ii rest ih =>
      obtain ⟨here, behind⟩ := List.forall_mem_cons.mp found
      rw [checkShortTermIndex, ih behind]
      cases longTerm : rpl.isRefPicLongterm ii with
      | true => rfl
      | false => simp [here longTerm]

/-- The check of a list whose long-term entries are matched marks them all, and reports
nothing when the short-term ones are found too. -/
theorem check_of_matched (counted : rpl.Counted) (notIDR : slice.isIDRorBLA = false)
    (matched : Matched dpb rpl) :
    ∃ marked, searchedBuffer rpl dpb rpl.numEntries = some marked ∧
      (checkThatAllRefPicsAreAvailableIndex slice rpl dpb).2.2 = marked ∧
      ((∀ ii < rpl.numEntries, ¬ NotFound slice rpl dpb ii) →
        (checkThatAllRefPicsAreAvailableIndex slice rpl dpb).1 = 0) := by
  have found : ∀ ii < rpl.numEntries, rpl.isRefPicLongterm ii = true →
      ¬ NotFound slice rpl dpb ii := by
    intro ii inside longTerm
    rw [NotFound, if_pos longTerm]
    exact matched.found inside longTerm
  obtain ⟨complete, same, marks⟩ := checkLongTermIndex_complete found
  refine ⟨_, searchedBuffer_of_complete rpl dpb _ complete, ?_⟩
  rw [checkThatAllRefPicsAreAvailableIndex, notIDR]
  simp only [Bool.false_eq_true, if_false, checkLongTermIndex_guarded counted]
  generalize checkLongTermIndex rpl _ dpb = run at complete same marks ⊢
  obtain ⟨lost, marked⟩ := run
  cases complete
  dsimp only
  constructor
  · split <;> rfl
  · intro all
    rw [checkShortTermIndex_eq_none]
    intro ii member shortTerm
    have here := all ii (List.mem_range.mp member)
    rw [← notFound_of_complete same marks shortTerm] at here
    exact Bool.of_not_eq_false here

/-- What the check reports is the code of an entry. -/
theorem exists_missingPoc (counted : rpl.Counted) (notIDR : slice.isIDRorBLA = false)
    (lost : (checkThatAllRefPicsAreAvailableIndex slice rpl dpb).1 ≠ 0) :
    ∃ ii < rpl.numEntries,
      (checkThatAllRefPicsAreAvailableIndex slice rpl dpb).1 = missingPoc slice rpl ii := by
  have unfound : ∃ ii < rpl.numEntries, NotFound slice rpl dpb ii := by
    by_contra all
    push Not at all
    have matched : Matched dpb rpl := by
      intro ii inside longTerm
      have here := all ii inside
      rw [NotFound, if_pos longTerm] at here
      simpa using here
    obtain ⟨_, -, -, silent⟩ := check_of_matched counted notIDR matched
    exact lost (silent all)
  obtain ⟨ii, inside, unfound⟩ := unfound
  obtain ⟨first, isFirst⟩ := exists_firstNotFound inside unfound
  exact ⟨first, isFirst.1, (isFirst.reported counted notIDR).1⟩

theorem checkIndex_same (slice : RefPics.Slice) (rpl : ReferencePictureList)
    (dpb : List RefPics.Picture) :
    SamePics dpb (checkThatAllRefPicsAreAvailableIndex slice rpl dpb).2.2 := by
  have same := checkThatAllRefPicsAreAvailable_same slice rpl dpb
  rwa [checkThatAllRefPicsAreAvailableIndex_eq] at same

theorem matched_of_present (present : ∀ ii < rpl.numEntries, ¬ Missing slice rpl dpb ii) :
    Matched dpb rpl := by
  intro ii inside longTerm
  have here := present ii inside
  rw [Missing, if_pos longTerm] at here
  push Not at here
  obtain ⟨pic, member, found⟩ := here
  exact ⟨pic, member, Bool.of_not_eq_false found⟩

end Marks

/-! ## Both lists -/

section Lists

variable {slice : RefPics.Slice} {dpb middle marked : List RefPics.Picture}
  (searched₀ : searchedBuffer (slice.rpl .REF_PIC_LIST_0) dpb
    (slice.rpl .REF_PIC_LIST_0).numEntries = some middle)
  (searched₁ : searchedBuffer (slice.rpl .REF_PIC_LIST_1) middle
    (slice.rpl .REF_PIC_LIST_1).numEntries = some marked)
include searched₀ searched₁

/-- The pictures that are marked behind both lists. -/
theorem longTermAt_iff_usedByBoth (i : Nat) :
    LongTermAt marked i ↔ UsedByBoth slice dpb i := by
  rw [searchedBuffer_marks _ middle searched₁ i]
  constructor
  · intro used
    exact Or.inr ⟨middle, searched₀, used⟩
  · rintro (used | ⟨middle', same, used⟩)
    · exact Or.inl ((searchedBuffer_marks _ dpb searched₀ i).mpr used)
    · obtain rfl := Option.some.inj (searched₀.symm.trans same)
      exact used

theorem samePics_both : SamePics dpb marked :=
  (searchedBuffer_same searched₀).trans (searchedBuffer_same searched₁)

/-- Nothing is lost when no entry is missing behind both lists and the construction ends at
a picture for each. -/
theorem nothingLost_of_present
    (present : ∀ X, ∀ ii < (slice.rpl X).numEntries, ¬ Missing slice (slice.rpl X) marked ii)
    (constructed : ∀ X, ∀ ii < (slice.rpl X).numEntries,
      ∃ i, refPicOf slice X marked ii = .ok i) : NothingLost slice dpb := by
  have same := samePics_both searched₀ searched₁
  constructor
  · intro X
    exact (matched_of_present (present X)).congr same.symm
  · intro X ii inside shortTerm
    have here := present X ii inside
    rw [Missing, shortTerm, if_neg (by decide)] at here
    push Not at here
    obtain ⟨pic, member, referenced, named, unmarked⟩ := here
    obtain ⟨i, there⟩ := List.mem_iff_getElem?.mp member
    obtain ⟨pic', here, alike⟩ := SamePics.getElem? same.symm there
    simp only [RefPics.Picture.static, Prod.mk.injEq] at alike
    refine ⟨i, pic', here, alike.2.2.1.trans referenced, alike.1.trans named, ?_⟩
    rw [← longTermAt_iff_usedByBoth searched₀ searched₁]
    rintro ⟨other, there', mark⟩
    obtain rfl := Option.some.inj (there.symm.trans there')
    exact unmarked mark
  · intro X ii inside shortTerm
    obtain ⟨i, ends⟩ := constructed X ii inside
    rw [refPicOf, shortTerm, if_neg (by decide), xGetRefPic_ok_iff] at ends
    obtain ⟨bound, here, -⟩ := List.findIdx?_eq_some_iff_getElem.mp ends
    rw [decide_eq_true_eq] at here
    obtain ⟨pic, member, alike⟩ := SamePics.exists_mem same.symm (List.getElem_mem bound)
    simp only [RefPics.Picture.static, Prod.mk.injEq] at alike
    exact ⟨pic, member, alike.1.trans here.1, alike.2.1.trans here.2⟩

variable (nothing : NothingLost slice dpb)
include nothing

/-- The construction ends at a picture for each entry then. -/
theorem NothingLost.constructed (X : RefPicList) (ii : Nat)
    (inside : ii < (slice.rpl X).numEntries) : ∃ i, refPicOf slice X marked ii = .ok i := by
  rw [← refPicOf_congr slice X (samePics_both searched₀ searched₁), refPicOf]
  cases longTerm : (slice.rpl X).isRefPicLongterm ii with
  | true =>
      obtain ⟨pic, member, -⟩ := nothing.longTerm X ii inside longTerm
      cases dpb with
      | nil => cases member
      | cons head rest => exact ⟨_, rfl⟩
  | false =>
      obtain ⟨pic, member, named, layer⟩ := nothing.layer X ii inside longTerm
      simp only [Bool.false_eq_true, if_false, xGetRefPic_ok_iff]
      cases search : dpb.findIdx? fun pic => pic.poc = slice.poc -
          (slice.rpl X).refPicIdentifier ii ∧ pic.layerId = slice.layerId with
      | none =>
          have missed := List.findIdx?_eq_none_iff.mp search pic member
          simp [named, layer] at missed
      | some i => exact ⟨i, rfl⟩

/-- The search in a buffer between the input and the last one finds every entry of a list
whose marks the last one has. -/
theorem NothingLost.found {X : RefPicList} {before : List RefPics.Picture}
    (same : SamePics before marked)
    (marks : ∀ i, UsedLongTerm (slice.rpl X) before i → LongTermAt marked i) (ii : Nat)
    (inside : ii < (slice.rpl X).numEntries) : ¬ NotFound slice (slice.rpl X) before ii := by
  cases longTerm : (slice.rpl X).isRefPicLongterm ii with
  | true =>
      rw [NotFound, if_pos longTerm]
      exact ((nothing.longTerm X).congr
        ((samePics_both searched₀ searched₁).trans same.symm)).found inside longTerm
  | false =>
      obtain ⟨i, pic, here, referenced, named, unused⟩ := nothing.shortTerm X ii inside longTerm
      obtain ⟨pic', there, alike⟩ := SamePics.getElem?
        ((samePics_both searched₀ searched₁).trans same.symm) here
      simp only [RefPics.Picture.static, Prod.mk.injEq] at alike
      rw [NotFound, longTerm, if_neg (by decide)]
      intro unfound
      exact unused ((longTermAt_iff_usedByBoth searched₀ searched₁ i).mp
        (marks i (unfound i pic' there (alike.2.2.1.trans referenced) (alike.1.trans named))))

end Lists

/-! ## The loops -/

section Loops

variable (slice : Slice) (rpl : ReferencePictureList)

/-- The buffer of the check, back in the pictures. -/
theorem toPicture_checked (lib : DecLib) :
    (checked slice rpl lib).listPic.map (·.toPicture) =
      (checkThatAllRefPicsAreAvailableIndex slice.toSlice rpl
        (lib.listPic.map (·.toPicture))).2.2 := by
  have alike := congrArg List.length
    (checkIndex_same slice.toSlice rpl (lib.listPic.map (·.toPicture)))
  simp only [List.length_map] at alike
  change (List.zipWith (fun pic marked => { pic with toPicture := marked }) lib.listPic _).map
    (·.toPicture) = _
  have behind := List.map_snd_zip (Nat.le_of_eq alike.symm)
  rw [List.zip, List.map_zipWith] at behind
  rw [List.map_zipWith]
  exact behind

variable {slice rpl}

/-- A list that is not reported is left with its marks. -/
theorem ends_of_accepted {lib : DecLib} (accepted : reported slice rpl lib.listPic = 0) :
    Ends slice rpl lib [] (checked slice rpl lib) := by
  rw [ends_iff, if_neg (by rw [accepted]; decide)]
  exact ⟨rfl, rfl⟩
/-- Of a loop that makes no pass. -/
theorem Ends.of_nil {lib last : DecLib} (ends : Ends slice rpl lib [] last) :
    last = checked slice rpl lib := by
  rw [ends_iff] at ends
  split at ends
  · obtain ⟨_, _, _, _, _, wrong⟩ := ends
    cases wrong
  · exact ends.2

/-- The first pass of a loop that fills in the missing picture takes that picture again. -/
theorem Ends.refit {lib last : DecLib} {fill : Fill} {fills : List Fill}
    (ends : Ends slice rpl lib (fill :: fills) last) (repairs : fill.Repairs) :
    ∃ i pic, Refit (checked slice rpl lib) i pic ∧ pic.poc = reported slice rpl lib.listPic ∧
      reported slice rpl lib.listPic > 0 := by
  rw [ends_iff] at ends
  split at ends
  · rename_i missing
    obtain ⟨next, i, rest, inserted, -, same⟩ := ends
    obtain ⟨rfl, -⟩ := List.cons_eq_cons.mp same
    obtain ⟨pic, _, _, refit, _, rfl⟩ := insertMissing_ok slice rpl inserted
    obtain ⟨filled, there, poc, -⟩ := repairs
    have here := refit.here
    rw [List.getElem?_modify_eq, here] at there
    obtain rfl := Option.some.inj there
    rw [poc_fillFor] at poc
    exact ⟨i, pic, refit, poc, missing⟩
  · cases ends.1

/-- What the check leaves of the picture that is taken again. -/
theorem Refit.of_checked {lib : DecLib} {i : Nat} {pic : Picture}
    (refit : Refit (checked slice rpl lib) i pic) :
    ∃ before, Refit lib i before ∧ before.poc = pic.poc := by
  have alike : (lib.listPic.map Picture.unmarked)[i]? =
      ((checked slice rpl lib).listPic.map Picture.unmarked)[i]? := by
    rw [checked, unmarked_check]
  rw [List.getElem?_map, List.getElem?_map, refit.here] at alike
  obtain ⟨before, here, same⟩ := Option.map_eq_some_iff.mp alike
  have full := refit.full
  have taken := refit.taken
  rw [checked, length_check] at full
  rw [checked, freePics_check] at taken
  have fields := congrArg (fun pic : Picture => (pic.poc, pic.slices, pic.format)) same
  simp only [Picture.unmarked, Prod.mk.injEq] at fields
  refine ⟨before, ⟨refit.pilot, full, taken, here, ?_, ?_⟩, fields.1⟩
  · rw [fields.2.1]
    exact refit.slices
  · exact fields.2.2.trans refit.format

/-- So the POC of an entry is that of the first picture that a repairing loop takes. -/
theorem Refit.recycles {lib tested : DecLib} {X : RefPicList} {i : Nat} {pic : Picture}
    (counted : (slice.rpl X).Counted) (notIDR : slice.isIDRorBLA = false)
    (refit : Refit lib i pic) (poc : pic.poc = reported slice (slice.rpl X) tested.listPic)
    (missing : reported slice (slice.rpl X) tested.listPic > 0) : Recycles slice lib := by
  have lost : (checkThatAllRefPicsAreAvailableIndex slice.toSlice (slice.rpl X)
      (tested.listPic.map (·.toPicture))).1 ≠ 0 := by
    have positive : 0 < reported slice (slice.rpl X) tested.listPic := missing
    exact positive.ne'
  obtain ⟨ii, inside, named⟩ := exists_missingPoc counted notIDR lost
  exact ⟨i, pic, refit, poc ▸ missing, X, ii, inside, poc.trans named⟩

end Loops

section Repair

variable {slice : Slice} {lib : DecLib} (counted : ∀ X, (slice.rpl X).Counted)
  (notIDR : slice.isIDRorBLA = false)
include counted notIDR

/-- When nothing is lost, the checks report nothing and leave a complete buffer. -/
theorem repairs_of_nothingLost
    (nothing : NothingLost slice.toSlice (lib.listPic.map (·.toPicture))) :
    Repairs slice lib := by
  obtain ⟨middle, searched₀, left₀, silent₀⟩ := check_of_matched
    (counted .REF_PIC_LIST_0) notIDR (nothing.longTerm .REF_PIC_LIST_0)
  have matched₁ := (nothing.longTerm .REF_PIC_LIST_1).congr (searchedBuffer_same searched₀)
  obtain ⟨marked, searched₁, left₁, silent₁⟩ := check_of_matched
    (counted .REF_PIC_LIST_1) notIDR matched₁
  have same := samePics_both searched₀ searched₁
  -- the first loop
  have accepted₀ : reported slice (slice.rpl .REF_PIC_LIST_0) lib.listPic = 0 := by
    refine silent₀ (nothing.found searched₀ searched₁ same fun i used => ?_)
    exact (longTermAt_iff_usedByBoth searched₀ searched₁ i).mpr (Or.inl used)
  have buffer₀ := (toPicture_checked slice (slice.rpl .REF_PIC_LIST_0) lib).trans left₀
  generalize between : checked slice (slice.rpl .REF_PIC_LIST_0) lib = next at buffer₀
  -- the second loop
  have accepted₁ : reported slice (slice.rpl .REF_PIC_LIST_1) next.listPic = 0 := by
    change (checkThatAllRefPicsAreAvailableIndex slice.toSlice _
      (next.listPic.map (·.toPicture))).1 = 0
    rw [buffer₀]
    refine silent₁ (nothing.found searched₀ searched₁ (searchedBuffer_same searched₁)
      fun i used => ?_)
    exact (searchedBuffer_marks _ middle searched₁ i).mpr used
  have buffer₁ := toPicture_checked slice (slice.rpl .REF_PIC_LIST_1) next
  rw [buffer₀, left₁] at buffer₁
  obtain ⟨fuel, run⟩ := insertLost_ok_iff.mpr ⟨[], [], next,
    between ▸ ends_of_accepted accepted₀, ends_of_accepted accepted₁, rfl⟩
  -- further checks find every entry and mark no more
  have marks (X : RefPicList) : AllMarked (slice.rpl X) marked := by
    cases X with
    | REF_PIC_LIST_0 =>
        exact ((nothing.longTerm .REF_PIC_LIST_0).allMarked searched₀).searched searched₁
    | REF_PIC_LIST_1 => exact matched₁.allMarked searched₁
  have found (X : RefPicList) := nothing.found searched₀ searched₁ rfl
    fun _ => (marks X).longTermAt
  refine ⟨fuel, _, _, run, nofun, ?_, ?_, ?_⟩
  · intro X
    obtain ⟨-, -, -, silent⟩ := check_of_matched (counted X) notIDR
      ((nothing.longTerm X).congr same)
    change (checkThatAllRefPicsAreAvailableIndex slice.toSlice _ (List.map _ _)).1 = 0
    rw [buffer₁]
    exact silent (found X)
  · rw [buffer₁]
    exact fun X ii inside missing => found X ii inside missing.notFound
  · rw [buffer₁]
    exact nothing.constructed searched₀ searched₁

/-- Only when nothing is lost, unless the picture that is taken again is a missing one. -/
theorem nothingLost_or_recycles (repairs : Repairs slice lib) :
    NothingLost slice.toSlice (lib.listPic.map (·.toPicture)) ∨ Recycles slice lib := by
  obtain ⟨fuel, fills, last, run, filled, complete⟩ := repairs
  obtain ⟨fills₀, fills₁, middle, first, second, rfl⟩ := insertLost_ok_iff.mp ⟨fuel, run⟩
  obtain ⟨filled₀, filled₁⟩ := List.forall_mem_append.mp filled
  cases fills₀ with
  | cons fill rest =>
      obtain ⟨i, pic, refit, poc, missing⟩ := first.refit (filled₀ fill List.mem_cons_self)
      obtain ⟨before, refit, same⟩ := refit.of_checked
      exact Or.inr (refit.recycles (counted _) notIDR (same.trans poc) missing)
  | nil =>
      obtain rfl := first.of_nil
      cases fills₁ with
      | cons fill rest =>
          obtain ⟨i, pic, refit, poc, missing⟩ := second.refit (filled₁ fill List.mem_cons_self)
          obtain ⟨before, refit, same⟩ := refit.of_checked
          obtain ⟨start, refit, same'⟩ := refit.of_checked
          exact Or.inr (refit.recycles (counted _) notIDR
            (same'.trans (same.trans poc)) missing)
      | nil =>
          obtain rfl := second.of_nil
          left
          obtain ⟨-, present, constructed⟩ := complete
          have buffer₀ := toPicture_checked slice (slice.rpl .REF_PIC_LIST_0) lib
          have buffer₁ := toPicture_checked slice (slice.rpl .REF_PIC_LIST_1)
            (checked slice (slice.rpl .REF_PIC_LIST_0) lib)
          rw [buffer₁, buffer₀] at present constructed
          have same₀ := checkIndex_same slice.toSlice (slice.rpl .REF_PIC_LIST_0)
            (lib.listPic.map (·.toPicture))
          have same₁ := checkIndex_same slice.toSlice (slice.rpl .REF_PIC_LIST_1)
            (checkThatAllRefPicsAreAvailableIndex slice.toSlice (slice.rpl .REF_PIC_LIST_0)
              (lib.listPic.map (·.toPicture))).2.2
          have matched (X : RefPicList) := (matched_of_present (present X))
          obtain ⟨_, searched₀, left₀, -⟩ := check_of_matched (counted .REF_PIC_LIST_0) notIDR
            ((matched .REF_PIC_LIST_0).congr (same₀.trans same₁).symm)
          rw [left₀] at same₁ present constructed matched
          obtain ⟨_, searched₁, left₁, -⟩ := check_of_matched (counted .REF_PIC_LIST_1) notIDR
            ((matched .REF_PIC_LIST_1).congr same₁.symm)
          rw [left₁] at present constructed
          exact nothingLost_of_present searched₀ searched₁ present constructed

end Repair

/-- The loops of `xDecodeSlice` end. They repair the buffer when no reference picture is lost,
and otherwise only if the first free picture already is one that the lists name. -/
theorem insertLost_repairs (slice : Slice) (lib : DecLib) (counted : ∀ X, (slice.rpl X).Counted)
    (notIDR : slice.isIDRorBLA = false) :
    (∃ result, lib.insertLost slice (lib.listPic.length + 1) = some result) ∧
      (NothingLost slice.toSlice (lib.listPic.map (·.toPicture)) → Repairs slice lib) ∧
      (Repairs slice lib →
        NothingLost slice.toSlice (lib.listPic.map (·.toPicture)) ∨ Recycles slice lib) :=
  ⟨insertLost_terminates slice lib, repairs_of_nothingLost counted notIDR,
    nothingLost_or_recycles counted notIDR⟩

/-- A sequence with room for four pictures. -/
def smallSets : ParameterSets := ⟨⟨1, [0], [4], 4⟩, ⟨64, 64, 64, 64⟩⟩

/-- A decoded picture that is still a reference and has been output. -/
def decodedPic (buffer : Nat) (poc : Int) : Picture where
  poc := poc
  layerId := 0
  referenced := true
  longTerm := false
  bitsForPOC := smallSets.sps.bitsForPOC
  buffer := buffer
  reconstructed := true
  neededForOutput := false
  format := smallSets.format
  sps := smallSets.sps
  slices := [⟨poc, 0, .codedSliceTrail⟩]

/-- A decoder that has decoded the picture of POC 8 and now holds the second slice of the
picture of POC 10. -/
def afterPoc8 : DecLib where
  listPic := [decodedPic 0 8, { decodedPic 1 10 with reconstructed := false }]
  nextBuffer := 2
  first := smallSets
  pilotPic := some 0
  pcPic := some 1
  prevTid0POC := 10
  pocRandomAccess := 0
  prevPOC := 10
  picHeader := .init
  picHeaderValid := true
  firstSliceInPicture := false
  firstSliceInSequence := false
  firstSliceInBitstream := false
  lastNoIncorrectPicOutputFlag := false
  lastPOCNoOutputPriorPics := -1
  isNoOutputPriorPics := false

/-- A slice of POC 10 whose lists name one picture each. -/
def slicePoc10 (delta₀ delta₁ : Int) : Slice where
  poc := 10
  layerId := 0
  isIDRorBLA := false
  sliceType := .B_SLICE
  bitsForPOC := 4
  rpl := fun
    | .REF_PIC_LIST_0 => singleEntry delta₀
    | .REF_PIC_LIST_1 => singleEntry delta₁
  localRPL := fun
    | .REF_PIC_LIST_0 => singleEntry delta₀
    | .REF_PIC_LIST_1 => singleEntry delta₁
  numRefIdx := fun _ => 1
  nalUnitType := .codedSliceTrail
  tLayer := 0
  noIncorrectPicOutputFlag := false

/-- The same with a full list, in which the picture of POC 9 is no longer a reference. -/
def withPoc9 : DecLib :=
  { afterPoc8 with
    listPic := [decodedPic 0 0, decodedPic 1 8, { decodedPic 2 9 with referenced := false },
      { decodedPic 3 10 with reconstructed := false }] }

/-- A slice of POC 10 that refers to the picture of POC 0 as a long-term one, and to those
of POC 7 and 8. -/
def mixedSlice : Slice :=
  { slicePoc10 1 2 with
    rpl := fun
      | .REF_PIC_LIST_0 => longAndShort
      | .REF_PIC_LIST_1 => singleEntry 2 }

/-- A decoder that holds these pictures. -/
def withAll : DecLib :=
  { afterPoc8 with
    listPic := [decodedPic 0 0, decodedPic 1 7, decodedPic 2 8,
      { decodedPic 3 10 with reconstructed := false }] }

/-- The pictures of POC 7 and 8 are not used as long-term references. -/
theorem nothingLost_withAll :
    NothingLost mixedSlice.toSlice (withAll.listPic.map (·.toPicture)) := by
  have used (i : Nat) : LongTermAt _ i ↔ UsedByBoth mixedSlice.toSlice
      (withAll.listPic.map (·.toPicture)) i := longTermAt_iff_usedByBoth rfl rfl i
  constructor
  · rintro (_ | _) ii inside longTerm
    · obtain rfl : ii = 0 := of_decide_eq_true longTerm
      exact ⟨_, List.mem_cons_self, by decide⟩
    · cases longTerm
  · rintro (_ | _) ii inside shortTerm
    · obtain rfl : ii = 1 := by
        have bound : ii < 2 := inside
        have other : ii ≠ 0 := of_decide_eq_false shortTerm
        omega
      refine ⟨1, _, rfl, rfl, rfl, ?_⟩
      rw [← used 1]
      rintro ⟨pic, here, mark⟩
      cases here
      cases mark
    · obtain rfl : ii = 0 := Nat.lt_one_iff.mp inside
      refine ⟨2, _, rfl, rfl, rfl, ?_⟩
      rw [← used 2]
      rintro ⟨pic, here, mark⟩
      cases here
      cases mark
  · rintro (_ | _) ii inside shortTerm
    · obtain rfl : ii = 1 := by
        have bound : ii < 2 := inside
        have other : ii ≠ 0 := of_decide_eq_false shortTerm
        omega
      exact ⟨_, List.mem_cons_of_mem _ List.mem_cons_self, rfl, rfl⟩
    · obtain rfl : ii = 0 := Nat.lt_one_iff.mp inside
      exact ⟨_, List.mem_cons_of_mem _ (List.mem_cons_of_mem _ List.mem_cons_self), rfl, rfl⟩

/-- The free picture of POC 9 is taken again for the missing one. -/
theorem repairs_withPoc9 : Repairs (slicePoc10 1 2) withPoc9 := by
  refine ⟨2, _, _, rfl, ?_, ?_, ?_, ?_⟩
  · rintro fill (_ | ⟨_, ⟨⟩⟩)
    exact ⟨_, rfl, rfl, rfl, nofun⟩
  · rintro (_ | _) <;> rfl
  · intro X ii inside
    obtain rfl : ii = 0 := Nat.lt_one_iff.mp (by cases X <;> exact inside)
    cases X <;> (unfold Missing; decide)
  · intro X ii inside
    obtain rfl : ii = 0 := Nat.lt_one_iff.mp (by cases X <;> exact inside)
    cases X <;> exact ⟨_, rfl⟩

/-- A buffer with every picture is left complete; one that has the missing picture as its
free one is repaired by taking it again. -/
theorem insertLost_repairs_mixed :
    Repairs mixedSlice withAll ∧ Recycles (slicePoc10 1 2) withPoc9 := by
  refine ⟨(insertLost_repairs mixedSlice withAll (by rintro (_ | _) <;> decide) rfl).2.1
    nothingLost_withAll, ?_⟩
  rcases (insertLost_repairs (slicePoc10 1 2) withPoc9 (by rintro (_ | _) <;> decide) rfl).2.2
    repairs_withPoc9 with nothing | recycles
  · -- no picture of POC 9 is a reference picture
    obtain ⟨i, pic, here, referenced, named, -⟩ :=
      nothing.shortTerm .REF_PIC_LIST_0 0 (by decide) rfl
    have all : ∀ pic ∈ withPoc9.listPic.map (·.toPicture), pic.poc = 9 →
        pic.referenced = false := by decide
    rw [all pic (List.mem_of_getElem? here) named] at referenced
    cases referenced
  · exact recycles

/-- The picture of POC 9 is lost: a new picture is made for it, and the check on its slices
fails. -/
theorem insertLost_poc9_throws :
    ((slicePoc10 1 2).isIDRorBLA = false ∧
      afterPoc8.insertLost (slicePoc10 1 2) 1 = some (.error "No slices in picture")) ∧
      ¬ Repairs (slicePoc10 1 2) afterPoc8 := by
  have throws : DecLib.insertLoop (slicePoc10 1 2) (singleEntry 1) 1 afterPoc8 =
    some (.error "No slices in picture") := rfl
  refine ⟨⟨rfl, rfl⟩, ?_⟩
  rintro ⟨fuel, fills, last, run, -⟩
  obtain ⟨fills₀, -, middle, ⟨more, first⟩, -⟩ := insertLost_ok_iff.mp ⟨fuel, run⟩
  have left := insertLoop_mono _ _ throws (Nat.le_max_left 1 more)
  have right := insertLoop_mono _ _ first (Nat.le_max_right 1 more)
  cases left.symm.trans right

end Vtm.LostPics
