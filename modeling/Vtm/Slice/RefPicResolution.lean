import Vtm.Slice.MissingRefPics

/-!
# Reference picture lists behind the check

When `checkThatAllRefPicsAreAvailable` accepts both lists of a slice,
`constructRefPicList` searches the buffer again, with other filters.
`constructRefPicList_correct_iff` says when it ends at the pictures that the check has
accepted.
-/

namespace Vtm.RefPics

open Vtm.Std

/-- Both lists are checked, one after the other. -/
def checkBoth (slice : Slice) (dpb : List Picture) : (RefPicList → Int) × List Picture :=
  let (lost0, dpb) := checkThatAllRefPicsAreAvailable slice (slice.rpl .REF_PIC_LIST_0) dpb
  let (lost1, dpb) := checkThatAllRefPicsAreAvailable slice (slice.rpl .REF_PIC_LIST_1) dpb
  (fun | .REF_PIC_LIST_0 => lost0 | .REF_PIC_LIST_1 => lost1, dpb)

/-- The check accepts both lists. -/
def Accepts (slice : Slice) (dpb : List Picture) : Prop := ∀ X, (checkBoth slice dpb).1 X = 0

/-- The buffer that the check of a list is given. -/
def givenBuffer (slice : Slice) (dpb : List Picture) : RefPicList → List Picture
  | .REF_PIC_LIST_0 => dpb
  | .REF_PIC_LIST_1 => (checkThatAllRefPicsAreAvailable slice (slice.rpl .REF_PIC_LIST_0) dpb).2

section Entries

variable (slice : Slice) (X : RefPicList) (dpb : List Picture) (ii : Nat)

/-- The check accepts the picture at place `k` for a long-term entry, in a buffer with the
marks `marked`. -/
structure AcceptedFor (marked : List Picture) (k : Nat) : Prop where
  inside : ii < (slice.rpl X).numEntries
  searched : searchedBuffer (slice.rpl X) (givenBuffer slice dpb X) ii = some marked
  accepted : acceptedPicture ((slice.rpl X).refPicIdentifier ii) marked = some k

/-- What an active entry should resolve to: the referenced picture of its POC, or the
picture that the check has accepted, a long-term one where some match is. -/
def Resolves (k : Nat) : Prop :=
  let identifier := (slice.rpl X).refPicIdentifier ii
  if (slice.rpl X).isRefPicLongterm ii = false then
    ∃ pic, dpb[k]? = some pic ∧ pic.referenced ∧ pic.layerId = slice.layerId ∧
      pic.poc = slice.poc - identifier
  else if (slice.localRPL X).deltaPocMSBPresentFlag ii = false then
    ∃ marked, AcceptedFor slice X dpb ii marked k ∧
      ∃ pic, marked[k]? = some pic ∧ matchesLsb identifier pic ∧
        ((∃ other ∈ marked, other.longTerm ∧ matchesLsb identifier other) → pic.longTerm)
  else True

/-- Were the entry not found, the check would not be silent: it is one of the list, and no
entry of the list that is not found has the code 0. -/
structure Audible : Prop where
  inside : ii < (slice.rpl X).numEntries
  nonzero : ∀ jj < (slice.rpl X).numEntries,
    NotFound slice (slice.rpl X) (givenBuffer slice dpb X) jj → missingPoc slice (slice.rpl X) jj ≠ 0

/-- Nothing stands between a short-term entry and its picture. -/
structure ShortTermClear (poc : Int) : Prop where
  present : Audible slice X dpb ii ∨ ∃ pic ∈ dpb, pic.referenced ∧ pic.poc = poc
  /-- The check accepts pictures of other layers. -/
  layer : (∃ pic ∈ dpb, pic.referenced ∧ pic.poc = poc) →
    ∃ pic ∈ dpb, pic.referenced ∧ pic.poc = poc ∧ pic.layerId = slice.layerId
  /-- The construction does not ask for a referenced picture. -/
  dropped : ∀ (i : Nat) (pic : Picture), dpb[i]? = some pic → pic.poc = poc →
    pic.layerId = slice.layerId → pic.referenced = false →
    ∃ j < i, ∃ other : Picture, dpb[j]? = some other ∧ other.referenced ∧ other.poc = poc ∧
      other.layerId = slice.layerId

/-- A picture that the construction may stop at for a long-term entry without MSBs. -/
structure Candidate (identifier : Int) (pic : Picture) : Prop where
  referenced : pic.referenced
  layer : pic.layerId = slice.layerId
  other : pic.poc ≠ slice.poc
  lsb : pocLsb slice.bitsForPOC pic.poc = pocLsb slice.bitsForPOC identifier

/-- Nothing stands between a long-term entry and the picture accepted for it. -/
structure LongTermClear (identifier : Int) : Prop where
  present : Audible slice X dpb ii ∨ ∃ marked k, AcceptedFor slice X dpb ii marked k
  /-- It is no candidate when it is of another layer or of the current POC, or when its
  parameter set has another number of bits. The first picture of the buffer stands in
  where there is no candidate. -/
  candidate : ∀ marked k, AcceptedFor slice X dpb ii marked k →
    (∃ pic, dpb[k]? = some pic ∧ Candidate slice identifier pic) ∨
      k = 0 ∧ ∀ pic ∈ dpb, ¬ Candidate slice identifier pic
  /-- The construction stops at the first candidate, long-term or not. -/
  first : ∀ marked k, AcceptedFor slice X dpb ii marked k → ∀ j < k, ∀ pic,
    dpb[j]? = some pic → ¬ Candidate slice identifier pic

/-- Nothing stands between an active entry and its picture. A long-term entry with MSBs
only asks for some picture. -/
def Unobstructed : Prop :=
  if (slice.rpl X).isRefPicLongterm ii = false then
    ShortTermClear slice X dpb ii (slice.poc - (slice.rpl X).refPicIdentifier ii)
  else if (slice.localRPL X).deltaPocMSBPresentFlag ii = false then
    LongTermClear slice X dpb ii ((slice.rpl X).refPicIdentifier ii)
  else dpb ≠ []

end Entries

/-- The lists are built from the buffer that the checks leave: the list end is not read,
and each active entry resolves to its picture. -/
def ListsCorrect (slice : Slice) (dpb : List Picture) : Prop :=
  ∃ lists : RefPicList → List (Nat × Bool),
    (∃ final, constructRefPicList slice (checkBoth slice dpb).2 =
      .ok ((lists .REF_PIC_LIST_0, lists .REF_PIC_LIST_1), final)) ∧
    ∀ X, List.Forall₂ (fun ii ref => Resolves slice X dpb ii ref.1)
      (List.range (slice.numRefIdx X)) (lists X)

/-- The checks only set marks. -/
theorem checkBoth_same (slice : Slice) (dpb : List Picture) :
    SamePics dpb (checkBoth slice dpb).2 :=
  (checkThatAllRefPicsAreAvailable_same slice (slice.rpl .REF_PIC_LIST_0) dpb).trans
    (checkThatAllRefPicsAreAvailable_same slice (slice.rpl .REF_PIC_LIST_1) _)

theorem givenBuffer_same (slice : Slice) (dpb : List Picture) (X : RefPicList) :
    SamePics dpb (givenBuffer slice dpb X) := by
  cases X with
  | REF_PIC_LIST_0 => rfl
  | REF_PIC_LIST_1 => exact checkThatAllRefPicsAreAvailable_same slice _ dpb

theorem Accepts.given {slice : Slice} {dpb : List Picture} (accepted : Accepts slice dpb)
    (X : RefPicList) :
    (checkThatAllRefPicsAreAvailable slice (slice.rpl X) (givenBuffer slice dpb X)).1 = 0 := by
  cases X with
  | REF_PIC_LIST_0 => exact accepted .REF_PIC_LIST_0
  | REF_PIC_LIST_1 => exact accepted .REF_PIC_LIST_1

section Searched

variable {rpl : ReferencePictureList} {dpb : List Picture}

/-- The buffer in which an entry is searched differs in marks only. -/
theorem searchedBuffer_same {n : Nat} {marked : List Picture}
    (searched : searchedBuffer rpl dpb n = some marked) : SamePics dpb marked := by
  induction n generalizing marked with
  | zero =>
      cases searched
      rfl
  | succ n ih =>
      rw [searchedBuffer, Option.bind_eq_some_iff] at searched
      obtain ⟨before, here, searched⟩ := searched
      split at searched
      · obtain ⟨_, available, rfl⟩ := Option.map_eq_some_iff.mp searched
        exact (ih here).trans (longTermAvailable_same available)
      · cases searched
        exact ih here

/-- Some picture is accepted for an identifier that one matches, whatever the marks. -/
theorem exists_available {identifier : Int} {marked : List Picture} (same : SamePics dpb marked)
    (found : ¬ ∀ pic ∈ dpb, matchesLsb identifier pic = false) :
    ∃ result, longTermAvailable identifier marked = some result := by
  rw [← Option.ne_none_iff_exists', Ne, longTermAvailable_eq_none_iff]
  exact fun missing => found (same.symm.matchesLsb identifier missing)

/-- The search comes to an entry when all long-term ones before it are found. -/
theorem exists_searchedBuffer (n : Nat) (found : ∀ ii < n, rpl.isRefPicLongterm ii = true →
    ¬ ∀ pic ∈ dpb, matchesLsb (rpl.refPicIdentifier ii) pic = false) :
    ∃ marked, searchedBuffer rpl dpb n = some marked := by
  induction n with
  | zero => exact ⟨dpb, rfl⟩
  | succ n ih =>
      obtain ⟨before, here⟩ := ih fun ii inside => found ii (inside.trans (Nat.lt_succ_self n))
      rw [searchedBuffer, here, Option.bind_some]
      split
      · rename_i longTerm
        obtain ⟨result, available⟩ :=
          exists_available (searchedBuffer_same here) (found n (Nat.lt_succ_self n) longTerm)
        exact ⟨result.2, by rw [available, Option.map_some]⟩
      · exact ⟨before, rfl⟩

end Searched

/-- The preferred picture matches, and is long-term where some match is. -/
theorem Preferred.found {identifier : Int} {dpb : List Picture} {k : Nat}
    (preferred : Preferred identifier dpb k) :
    ∃ pic, dpb[k]? = some pic ∧ matchesLsb identifier pic ∧
      ((∃ other ∈ dpb, other.longTerm ∧ matchesLsb identifier other) → pic.longTerm) := by
  rcases preferred with found | ⟨unmarked, found⟩
  · obtain ⟨inside, here, -⟩ := List.findIdx?_eq_some_iff_getElem.mp found
    rw [Bool.and_eq_true] at here
    exact ⟨dpb[k], List.getElem?_eq_getElem inside, here.2, fun _ => here.1⟩
  · obtain ⟨inside, here, -⟩ := List.findIdx?_eq_some_iff_getElem.mp found
    refine ⟨dpb[k], List.getElem?_eq_getElem inside, here, ?_⟩
    rintro ⟨other, member, longTerm, found⟩
    rw [unmarked other member found] at longTerm
    exact absurd longTerm (by decide)

theorem pocLsb_pocLsb (bitsForPOC : Nat) (poc : Int) :
    pocLsb bitsForPOC (pocLsb bitsForPOC poc) = pocLsb bitsForPOC poc :=
  Int.emod_emod_of_dvd poc (dvd_refl _)

/-- The pictures that the search for a long-term entry without MSBs stops at. -/
theorem isLongTermRef_iff (slice : Slice) (identifier : Int) (pic : Picture) :
    isLongTermRef slice (pocLsb slice.bitsForPOC identifier) false pic = true ↔
      Candidate slice identifier pic := by
  simp only [isLongTermRef, Bool.false_eq_true, if_false, decide_eq_true_eq]
  constructor
  · rintro ⟨⟨other, referenced, layer⟩, lsb⟩
    exact ⟨referenced, layer, other, lsb.symm⟩
  · rintro ⟨referenced, layer, other, lsb⟩
    exact ⟨⟨other, referenced, layer⟩, lsb.symm⟩

/-- Where the search for a long-term entry without MSBs ends. -/
theorem xGetLongTermRefPic_ok_iff (slice : Slice) (dpb : List Picture) (identifier : Int)
    (k : Nat) (inside : k < dpb.length) :
    xGetLongTermRefPic slice dpb (pocLsb slice.bitsForPOC identifier + 0) false = .ok k ↔
      ((∃ pic, dpb[k]? = some pic ∧ Candidate slice identifier pic) ∨
        k = 0 ∧ ∀ pic ∈ dpb, ¬ Candidate slice identifier pic) ∧
      ∀ j < k, ∀ pic, dpb[j]? = some pic → ¬ Candidate slice identifier pic := by
  cases dpb with
  | nil => cases inside
  | cons head rest =>
      simp only [xGetLongTermRefPic, longTermLoop_eq, Int.add_zero, Nat.add_zero,
        Bool.false_eq_true, if_false, pocLsb_pocLsb, Except.ok.injEq, Option.map_id']
      generalize head :: rest = dpb at inside
      cases found : dpb.findIdx?
          (isLongTermRef slice (pocLsb slice.bitsForPOC identifier) false) with
      | some i =>
          obtain ⟨bound, here, before⟩ := List.findIdx?_eq_some_iff_getElem.mp found
          rw [isLongTermRef_iff] at here
          simp only [isLongTermRef_iff] at before
          rw [Option.getD_some]
          constructor
          · rintro rfl
            refine ⟨Or.inl ⟨dpb[i], List.getElem?_eq_getElem bound, here⟩, ?_⟩
            intro j earlier pic at_j
            obtain ⟨_, rfl⟩ := List.getElem?_eq_some_iff.mp at_j
            exact before j earlier
          · rintro ⟨⟨pic, at_k, candidate⟩ | ⟨-, never⟩, first⟩
            · obtain ⟨bound', rfl⟩ := List.getElem?_eq_some_iff.mp at_k
              rcases Nat.lt_trichotomy i k with earlier | same | later
              · exact absurd here (first i earlier _ (List.getElem?_eq_getElem bound))
              · exact same
              · exact absurd candidate (before k later)
            · exact absurd here (never _ (List.getElem_mem bound))
      | none =>
          have never : ∀ pic ∈ dpb, ¬ Candidate slice identifier pic := by
            intro pic member
            rw [← isLongTermRef_iff, List.findIdx?_eq_none_iff.mp found pic member]
            decide
          rw [Option.getD_none]
          constructor
          · rintro rfl
            exact ⟨Or.inr ⟨rfl, never⟩, fun j earlier => absurd earlier (Nat.not_lt_zero j)⟩
          · rintro ⟨⟨pic, at_k, candidate⟩ | ⟨zero, -⟩, -⟩
            · exact absurd candidate (never pic (List.mem_of_getElem? at_k))
            · exact zero.symm

/-- Where the search for a short-term entry ends. -/
theorem xGetRefPic_ok_iff (dpb : List Picture) (poc : Int) (layerId k : Nat) :
    xGetRefPic dpb poc layerId = .ok k ↔
      dpb.findIdx? (fun pic => pic.poc = poc ∧ pic.layerId = layerId) = some k := by
  rw [xGetRefPic]
  cases dpb.findIdx? (fun pic => pic.poc = poc ∧ pic.layerId = layerId) with
  | none => simp
  | some i => simp

section Entry

variable {slice : Slice} {X : RefPicList} {dpb : List Picture} {ii : Nat}

/-- An entry that the check would not pass over in silence is found. -/
theorem Audible.found (accepted : Accepts slice dpb) (notIDR : slice.isIDRorBLA = false)
    (counted : (slice.rpl X).Counted) (audible : Audible slice X dpb ii) :
    ∀ jj < (slice.rpl X).numEntries, ¬ NotFound slice (slice.rpl X) (givenBuffer slice dpb X) jj := by
  intro jj inside unfound
  obtain ⟨first, isFirst⟩ := exists_firstNotFound inside unfound
  have value := (isFirst.reported counted notIDR).1
  have silent := accepted.given X
  rw [checkThatAllRefPicsAreAvailableIndex_eq] at silent
  exact audible.nonzero first isFirst.1 isFirst.2.1 (value.symm.trans silent)

/-- For a short-term entry, a referenced picture of its POC. -/
theorem Audible.exists_shortTerm (accepted : Accepts slice dpb)
    (notIDR : slice.isIDRorBLA = false) (counted : (slice.rpl X).Counted)
    (audible : Audible slice X dpb ii) (shortTerm : (slice.rpl X).isRefPicLongterm ii = false) :
    ∃ pic ∈ dpb, pic.referenced ∧ pic.poc = slice.poc - (slice.rpl X).refPicIdentifier ii := by
  have found := audible.found accepted notIDR counted ii audible.inside
  rw [NotFound, shortTerm, if_neg (by decide)] at found
  push Not at found
  obtain ⟨i, pic, here, referenced, named, -⟩ := found
  obtain ⟨pic', here', alike⟩ := (givenBuffer_same slice dpb X).symm.getElem? here
  simp only [Picture.static, Prod.mk.injEq] at alike
  exact ⟨pic', List.mem_of_getElem? here', alike.2.2.1.trans referenced, alike.1.trans named⟩

/-- For a long-term entry, an accepted picture. -/
theorem Audible.exists_longTerm (accepted : Accepts slice dpb)
    (notIDR : slice.isIDRorBLA = false) (counted : (slice.rpl X).Counted)
    (audible : Audible slice X dpb ii) (longTerm : (slice.rpl X).isRefPicLongterm ii = true) :
    ∃ marked k, AcceptedFor slice X dpb ii marked k := by
  have found := audible.found accepted notIDR counted
  have matched (jj : Nat) (inside : jj < (slice.rpl X).numEntries)
      (kind : (slice.rpl X).isRefPicLongterm jj = true) :
      ¬ ∀ pic ∈ givenBuffer slice dpb X,
        matchesLsb ((slice.rpl X).refPicIdentifier jj) pic = false := by
    have here := found jj inside
    rwa [NotFound, if_pos kind] at here
  obtain ⟨marked, searched⟩ := exists_searchedBuffer ii fun jj before =>
    matched jj (before.trans audible.inside)
  obtain ⟨result, available⟩ := exists_available (searchedBuffer_same searched)
    (matched ii audible.inside longTerm)
  exact ⟨marked, result.1, audible.inside, searched, by rw [acceptedPicture, available]; rfl⟩

/-- The check accepts at most one picture for an entry. -/
theorem AcceptedFor.unique {marked marked' : List Picture} {k k' : Nat}
    (first : AcceptedFor slice X dpb ii marked k) (second : AcceptedFor slice X dpb ii marked' k') :
    marked = marked' ∧ k = k' := by
  obtain rfl := Option.some.inj (first.searched.symm.trans second.searched)
  exact ⟨rfl, Option.some.inj (first.accepted.symm.trans second.accepted)⟩

/-- Its place is one of the buffer. -/
theorem AcceptedFor.found {marked : List Picture} {k : Nat}
    (accepted : AcceptedFor slice X dpb ii marked k) :
    k < dpb.length ∧ ∃ pic, marked[k]? = some pic ∧
      matchesLsb ((slice.rpl X).refPicIdentifier ii) pic ∧
      ((∃ other ∈ marked, other.longTerm ∧
        matchesLsb ((slice.rpl X).refPicIdentifier ii) other) → pic.longTerm) := by
  obtain ⟨pic, here, matched⟩ :=
    ((acceptedPicture_eq_some_iff ..).mp accepted.accepted).found
  have same := (givenBuffer_same slice dpb X).trans (searchedBuffer_same accepted.searched)
  obtain ⟨_, there, -⟩ := same.symm.getElem? here
  exact ⟨(List.getElem?_eq_some_iff.mp there).1, pic, here, matched⟩

/-- A referenced picture with no other of its POC and layer in front of it is not
obstructed. -/
theorem ShortTermClear.of_first {poc : Int} {k : Nat} {pic : Picture} (at_k : dpb[k]? = some pic)
    (referenced : pic.referenced) (same : pic.poc = poc) (layer : pic.layerId = slice.layerId)
    (before : ∀ j < k, ∀ other, dpb[j]? = some other →
      ¬ (other.poc = poc ∧ other.layerId = slice.layerId)) : ShortTermClear slice X dpb ii poc := by
  have member := List.mem_of_getElem? at_k
  refine ⟨Or.inr ⟨pic, member, referenced, same⟩, fun _ => ⟨pic, member, referenced, same, layer⟩,
    ?_⟩
  intro i other at_i same' layer' unreferenced
  refine ⟨k, ?_, pic, at_k, referenced, same, layer⟩
  rcases Nat.lt_trichotomy i k with earlier | rfl | later
  · exact absurd ⟨same', layer'⟩ (before i earlier other at_i)
  · rw [at_i, Option.some.injEq] at at_k
    rw [at_k, referenced] at unreferenced
    cases unreferenced
  · exact later

/-- Nor is an accepted picture that the construction stops at. -/
theorem AcceptedFor.longTermClear {identifier : Int} {marked : List Picture} {k : Nat}
    (chosen : AcceptedFor slice X dpb ii marked k)
    (candidate : (∃ pic, dpb[k]? = some pic ∧ Candidate slice identifier pic) ∨
      k = 0 ∧ ∀ pic ∈ dpb, ¬ Candidate slice identifier pic)
    (first : ∀ j < k, ∀ pic, dpb[j]? = some pic → ¬ Candidate slice identifier pic) :
    LongTermClear slice X dpb ii identifier := by
  refine ⟨Or.inr ⟨marked, k, chosen⟩, ?_, ?_⟩
  · intro marked' k' chosen'
    obtain ⟨-, rfl⟩ := chosen.unique chosen'
    exact candidate
  · intro marked' k' chosen'
    obtain ⟨-, rfl⟩ := chosen.unique chosen'
    exact first

/-- A short-term entry resolves to its picture exactly when nothing stands between them. -/
theorem shortTerm_resolves_iff (accepted : Accepts slice dpb)
    (notIDR : slice.isIDRorBLA = false) (counted : (slice.rpl X).Counted)
    (shortTerm : (slice.rpl X).isRefPicLongterm ii = false) {poc : Int}
    (named : poc = slice.poc - (slice.rpl X).refPicIdentifier ii) :
    (∃ k, xGetRefPic dpb poc slice.layerId = .ok k ∧ ∃ pic, dpb[k]? = some pic ∧
      pic.referenced ∧ pic.layerId = slice.layerId ∧ pic.poc = poc) ↔
      ShortTermClear slice X dpb ii poc := by
  simp only [xGetRefPic_ok_iff]
  constructor
  · rintro ⟨k, found, pic, at_k, referenced, layer, same⟩
    refine .of_first at_k referenced same layer ?_
    intro j earlier other at_j
    obtain ⟨_, -, before⟩ := List.findIdx?_eq_some_iff_getElem.mp found
    obtain ⟨_, rfl⟩ := List.getElem?_eq_some_iff.mp at_j
    simpa using before j earlier
  · intro clear
    have present : ∃ pic ∈ dpb, pic.referenced ∧ pic.poc = poc := by
      rcases clear.present with audible | present
      · exact named ▸ audible.exists_shortTerm accepted notIDR counted shortTerm
      · exact present
    obtain ⟨pic, member, referenced, same, layer⟩ := clear.layer present
    cases found : dpb.findIdx? (fun pic => pic.poc = poc ∧ pic.layerId = slice.layerId) with
    | none =>
        have missed := List.findIdx?_eq_none_iff.mp found pic member
        simp [same, layer] at missed
    | some k =>
        obtain ⟨bound, here, before⟩ := List.findIdx?_eq_some_iff_getElem.mp found
        simp only [decide_eq_true_eq] at here before
        refine ⟨k, rfl, dpb[k], List.getElem?_eq_getElem bound, ?_, here.2, here.1⟩
        cases mark : dpb[k].referenced with
        | true => rfl
        | false =>
            obtain ⟨j, earlier, other, at_j, -, same', layer'⟩ :=
              clear.dropped k dpb[k] (List.getElem?_eq_getElem bound) here.1 here.2 mark
            obtain ⟨_, rfl⟩ := List.getElem?_eq_some_iff.mp at_j
            exact absurd ⟨same', layer'⟩ (before j earlier)

/-- So does a long-term entry without MSBs. -/
theorem longTerm_resolves_iff (accepted : Accepts slice dpb)
    (notIDR : slice.isIDRorBLA = false) (counted : (slice.rpl X).Counted)
    (longTerm : (slice.rpl X).isRefPicLongterm ii = true) {identifier : Int}
    (named : identifier = (slice.rpl X).refPicIdentifier ii) :
    (∃ k, xGetLongTermRefPic slice dpb (pocLsb slice.bitsForPOC identifier + 0) false = .ok k ∧
      ∃ marked, AcceptedFor slice X dpb ii marked k ∧
        ∃ pic, marked[k]? = some pic ∧ matchesLsb identifier pic ∧
          ((∃ other ∈ marked, other.longTerm ∧ matchesLsb identifier other) → pic.longTerm)) ↔
      LongTermClear slice X dpb ii identifier := by
  subst named
  constructor
  · rintro ⟨k, ends, marked, chosen, -⟩
    obtain ⟨candidate, first⟩ := (xGetLongTermRefPic_ok_iff slice dpb _ k chosen.found.1).mp ends
    exact chosen.longTermClear candidate first
  · intro clear
    have present : ∃ marked k, AcceptedFor slice X dpb ii marked k := by
      rcases clear.present with audible | present
      · exact audible.exists_longTerm accepted notIDR counted longTerm
      · exact present
    obtain ⟨marked, k, chosen⟩ := present
    refine ⟨k, (xGetLongTermRefPic_ok_iff slice dpb _ k chosen.found.1).mpr ?_, marked, chosen,
      chosen.found.2⟩
    exact ⟨clear.candidate marked k chosen, clear.first marked k chosen⟩

/-- An active entry resolves to its picture exactly when it is unobstructed. -/
theorem refPicOf_resolves_iff (accepted : Accepts slice dpb)
    (notIDR : slice.isIDRorBLA = false) (counted : (slice.rpl X).Counted) :
    (∃ k, refPicOf slice X dpb ii = .ok k ∧ Resolves slice X dpb ii k) ↔
      Unobstructed slice X dpb ii := by
  simp only [Resolves, refPicOf, Unobstructed]
  cases kind : (slice.rpl X).isRefPicLongterm ii with
  | false => simpa using shortTerm_resolves_iff accepted notIDR counted kind rfl
  | true =>
      cases (slice.localRPL X).deltaPocMSBPresentFlag ii with
      | false => simpa using longTerm_resolves_iff accepted notIDR counted kind rfl
      | true =>
          simp only [if_true, Bool.true_eq_false, if_false, and_true]
          cases dpb with
          | nil => simp [xGetLongTermRefPic]
          | cons pic rest => simp [xGetLongTermRefPic]

end Entry

theorem exists_forall₂_iff {α β : Type} (R : α → β → Prop) (l : List α) :
    (∃ m, List.Forall₂ R l m) ↔ ∀ x ∈ l, ∃ y, R x y := by
  induction l with
  | nil => simp
  | cons x l ih =>
      rw [List.forall_mem_cons, ← ih]
      constructor
      · rintro ⟨_, related⟩
        cases related with
        | cons head tail => exact ⟨⟨_, head⟩, _, tail⟩
      · rintro ⟨⟨y, head⟩, m, tail⟩
        exact ⟨y :: m, List.Forall₂.cons head tail⟩

theorem forall₂_both {α β : Type} {R S : α → β → Prop} {l : List α} {m : List β}
    (left : List.Forall₂ R l m) (right : List.Forall₂ S l m) :
    List.Forall₂ (fun x y => R x y ∧ S x y) l m := by
  rw [List.forall₂_iff_zip] at left right ⊢
  exact ⟨left.1, fun member => ⟨left.2 member, right.2 member⟩⟩

/-- The lists of a P or B slice that the check has accepted are right exactly when each
active entry is unobstructed. -/
theorem constructRefPicList_correct_iff (slice : Slice) (dpb : List Picture)
    (notIntra : slice.sliceType ≠ .I_SLICE) (notIDR : slice.isIDRorBLA = false)
    (counted : ∀ X, (slice.rpl X).Counted) (accepted : Accepts slice dpb) :
    ListsCorrect slice dpb ↔
      ∀ X, ∀ ii < slice.numRefIdx X, Unobstructed slice X dpb ii := by
  have entry (X : RefPicList) (ii : Nat) :
      (∃ ref, Stored slice X dpb ii ref ∧ Resolves slice X dpb ii ref.1) ↔
        Unobstructed slice X dpb ii := by
    rw [← refPicOf_resolves_iff accepted notIDR (counted X)]
    constructor
    · rintro ⟨ref, stored, resolves⟩
      exact ⟨ref.1, stored.1, resolves⟩
    · rintro ⟨k, found, resolves⟩
      exact ⟨(k, (slice.rpl X).isRefPicLongterm ii), ⟨found, rfl⟩, resolves⟩
  have list (X : RefPicList) :
      (∃ refPics, List.Forall₂ (fun ii ref => Stored slice X dpb ii ref ∧
        Resolves slice X dpb ii ref.1) (List.range (slice.numRefIdx X)) refPics) ↔
        ∀ ii < slice.numRefIdx X, Unobstructed slice X dpb ii := by
    rw [exists_forall₂_iff]
    simp only [List.mem_range, entry]
  simp only [← list]
  have same := checkBoth_same slice dpb
  constructor
  · rintro ⟨lists, built, resolves⟩ X
    have stored := (constructRefPicList_ok_iff slice notIntra same lists).mp built
    exact ⟨lists X, forall₂_both (stored X) (resolves X)⟩
  · intro entries
    choose lists related using entries
    refine ⟨lists, ?_, fun X => (related X).imp fun _ _ both => both.2⟩
    exact (constructRefPicList_ok_iff slice notIntra same lists).mpr fun X =>
      (related X).imp fun _ _ both => both.1

/-- A B slice with a short-term and a long-term entry in each list. -/
def mixedLists : Slice where
  poc := 20
  layerId := 0
  isIDRorBLA := false
  sliceType := .B_SLICE
  bitsForPOC := 4
  rpl
    | .REF_PIC_LIST_0 => ⟨1, 1, (· = 1), fun ii => if ii = 1 then 1 else 4, fun _ => false, fun _ => 0⟩
    | .REF_PIC_LIST_1 => ⟨1, 1, (· = 0), fun ii => if ii = 0 then 8 else 2, fun _ => false, fun _ => 0⟩
  localRPL _ := ⟨0, 0, fun _ => false, fun _ => 0, fun _ => false, fun _ => 0⟩
  numRefIdx _ := 2

/-- The picture of POC 17 is long-term; behind its pictures stand a dropped one and one of
another layer. -/
def mixedDpb : List Picture :=
  [⟨17, 0, true, true, 4⟩, ⟨16, 0, true, false, 4⟩, ⟨8, 0, true, false, 4⟩,
    ⟨18, 0, true, false, 4⟩, ⟨16, 0, false, false, 4⟩, ⟨18, 1, true, false, 4⟩]

theorem mixedLists_accepts : Accepts mixedLists mixedDpb := fun X => by cases X <;> rfl

/-- Every entry resolves, and the picture of POC 8 becomes a long-term one. -/
theorem constructRefPicList_correct_mixed :
    ListsCorrect mixedLists mixedDpb := by
  refine (constructRefPicList_correct_iff mixedLists mixedDpb (by decide) rfl
    (fun X => by cases X <;> decide) mixedLists_accepts).mpr ?_
  intro X ii inside
  have pair : ii = 0 ∨ ii = 1 := by
    have bound : ii < 2 := inside
    omega
  cases X with
  | REF_PIC_LIST_0 =>
      rcases pair with rfl | rfl
      · refine .of_first (k := 1) rfl rfl rfl rfl ?_
        rintro (_ | j) earlier other at_j
        · cases at_j
          decide
        · omega
      · refine AcceptedFor.longTermClear (k := 0) ⟨by decide, rfl, rfl⟩
          (Or.inl ⟨_, rfl, rfl, rfl, by decide, rfl⟩) ?_
        exact fun j earlier => absurd earlier (Nat.not_lt_zero j)
  | REF_PIC_LIST_1 =>
      rcases pair with rfl | rfl
      · refine AcceptedFor.longTermClear (k := 2) ⟨by decide, rfl, rfl⟩
          (Or.inl ⟨_, rfl, rfl, rfl, by decide, rfl⟩) ?_
        rintro (_ | _ | j) earlier other at_j candidate
        · cases at_j
          exact absurd candidate.lsb (by decide)
        · cases at_j
          exact absurd candidate.lsb (by decide)
        · omega
      · refine .of_first (k := 3) rfl rfl rfl rfl ?_
        rintro (_ | _ | _ | j) earlier other at_j
        · cases at_j
          decide
        · cases at_j
          decide
        · cases at_j
          decide
        · omega

/-- A P slice with one long-term entry of 4 LSBs. -/
def oneLongTerm : Slice where
  poc := 20
  layerId := 0
  isIDRorBLA := false
  sliceType := .P_SLICE
  bitsForPOC := 4
  rpl
    | .REF_PIC_LIST_0 => ⟨0, 1, fun _ => true, fun _ => 1, fun _ => false, fun _ => 0⟩
    | .REF_PIC_LIST_1 => ⟨0, 0, fun _ => false, fun _ => 0, fun _ => false, fun _ => 0⟩
  localRPL _ := ⟨0, 1, fun _ => true, fun _ => 1, fun _ => false, fun _ => 0⟩
  numRefIdx
    | .REF_PIC_LIST_0 => 1
    | .REF_PIC_LIST_1 => 0

/-- A short-term picture with the LSBs stands before the long-term one. -/
def shortBeforeLong : List Picture := [⟨1, 0, true, false, 4⟩, ⟨17, 0, true, true, 4⟩]

/-- The check accepts the long-term picture, and the list is built from the other. -/
theorem long_term_picture_is_missed :
    Accepts oneLongTerm shortBeforeLong ∧
      AcceptedFor oneLongTerm .REF_PIC_LIST_0 shortBeforeLong 0 shortBeforeLong 1 ∧
      constructRefPicList oneLongTerm shortBeforeLong =
        .ok (([(0, true)], []), [⟨1, 0, true, true, 4⟩, ⟨17, 0, true, true, 4⟩]) ∧
      ¬ ListsCorrect oneLongTerm shortBeforeLong := by
  have chosen : AcceptedFor oneLongTerm .REF_PIC_LIST_0 shortBeforeLong 0 shortBeforeLong 1 :=
    ⟨by decide, rfl, rfl⟩
  refine ⟨fun X => by cases X <;> rfl, chosen, rfl, ?_⟩
  rintro ⟨lists, ⟨final, built⟩, resolves⟩
  have computed : constructRefPicList oneLongTerm (checkBoth oneLongTerm shortBeforeLong).2 =
      .ok (([(0, true)], []), [⟨1, 0, true, true, 4⟩, ⟨17, 0, true, true, 4⟩]) := rfl
  have stored : [(0, true)] = lists .REF_PIC_LIST_0 :=
    congrArg (fun r => r.1.1) (Except.ok.inj (computed.symm.trans built))
  have resolves0 := resolves .REF_PIC_LIST_0
  rw [← stored] at resolves0
  obtain ⟨marked, chosen', -⟩ := (List.forall₂_cons.mp resolves0).1
  exact absurd (chosen.unique chosen').2 (by decide)

end Vtm.RefPics
