import Vtm.Slice.RefPicAvailability

/-!
# Missing reference pictures

Both overloads of `Slice::checkThatAllRefPicsAreAvailable` give the POC of the first
entry that they miss as an error code. `reports_missing_iff` says when that code
differs from the 0 that stands for a complete list.
-/

namespace Vtm.RefPics

open Vtm.Std

/-- The loop over the long-term entries in the overload with `refPicIndex`: what it
returns early with the place of the entry, and the buffer. -/
@[grind =] def checkLongTermIndex (rpl : ReferencePictureList) :
    List Nat → List Picture → Option (Int × Nat) × List Picture
  | [], dpb => (none, dpb)
  | ii :: rest, dpb =>
      if rpl.isRefPicLongterm ii then
        match longTermAvailable (rpl.refPicIdentifier ii) dpb with
        | some (_, dpb) => checkLongTermIndex rpl rest dpb
        | none => (some (rpl.refPicIdentifier ii, ii), dpb)
      else checkLongTermIndex rpl rest dpb

/-- The loop over the short-term entries in the overload with `refPicIndex`. -/
def checkShortTermIndex (slice : Slice) (rpl : ReferencePictureList) (dpb : List Picture) :
    List Nat → Option (Int × Nat)
  | [] => none
  | ii :: rest =>
      if rpl.isRefPicLongterm ii then checkShortTermIndex slice rpl dpb rest
      else if ¬ shortTermAvailable (slice.poc - rpl.refPicIdentifier ii) dpb ∧
          rpl.numberOfShorttermPictures > 0 then
        some (slice.poc - rpl.refPicIdentifier ii, ii)
      else checkShortTermIndex slice rpl dpb rest

/-- `checkThatAllRefPicsAreAvailable` with `refPicIndex`: its value, the index, and
the buffer with its marks. -/
def checkThatAllRefPicsAreAvailableIndex (slice : Slice) (rpl : ReferencePictureList)
    (dpb : List Picture) : Int × Nat × List Picture :=
  let refPicIndex := 0
  if slice.isIDRorBLA then (0, refPicIndex, dpb)
  else
    let entries := List.range (rpl.numberOfLongtermPictures + rpl.numberOfShorttermPictures)
    match checkLongTermIndex rpl
        (if rpl.numberOfLongtermPictures > 0 then entries else []) dpb with
    | (some (notPresentPoc, ii), dpb) => (notPresentPoc, ii, dpb)
    | (none, dpb) =>
        match checkShortTermIndex slice rpl dpb entries with
        | some (notPresentPoc, ii) => (notPresentPoc, ii, dpb)
        | none => (0, refPicIndex, dpb)

/-- The number of entries of a list. -/
def ReferencePictureList.numEntries (rpl : ReferencePictureList) : Nat :=
  rpl.numberOfLongtermPictures + rpl.numberOfShorttermPictures

/-- The counts of a list agree with the flags of its entries. -/
def ReferencePictureList.Counted (rpl : ReferencePictureList) : Prop :=
  (List.range rpl.numEntries).countP rpl.isRefPicLongterm = rpl.numberOfLongtermPictures

instance (rpl : ReferencePictureList) : Decidable rpl.Counted :=
  inferInstanceAs (Decidable (_ = _))

/-- The picture at a place is a long-term reference. -/
def LongTermAt (dpb : List Picture) (i : Nat) : Prop := ∃ pic, dpb[i]? = some pic ∧ pic.longTerm

/-- The buffer in which the check searches for entry `ii`: the long-term entries before it
have marked their pictures. Behind one that is not found, none is searched for. -/
def searchedBuffer (rpl : ReferencePictureList) (dpb : List Picture) : Nat → Option (List Picture)
  | 0 => some dpb
  | ii + 1 =>
      (searchedBuffer rpl dpb ii).bind fun marked =>
        if rpl.isRefPicLongterm ii then
          (longTermAvailable (rpl.refPicIdentifier ii) marked).map Prod.snd
        else some marked

section Missing

variable (slice : Slice) (rpl : ReferencePictureList) (dpb : List Picture)

/-- No referenced picture of the buffer is the one an entry names. -/
def Missing (ii : Nat) : Prop :=
  if rpl.isRefPicLongterm ii then
    ∀ pic ∈ dpb, matchesLsb (rpl.refPicIdentifier ii) pic = false
  else ∀ pic ∈ dpb, pic.referenced → pic.poc = slice.poc - rpl.refPicIdentifier ii → pic.longTerm

/-- A picture that is a long-term reference, or that a long-term entry of the list
makes one. -/
def UsedLongTerm (i : Nat) : Prop :=
  LongTermAt dpb i ∨
    ∃ ii < rpl.numEntries, rpl.isRefPicLongterm ii ∧
      ∃ marked, searchedBuffer rpl dpb ii = some marked ∧
        acceptedPicture (rpl.refPicIdentifier ii) marked = some i

/-- The search for an entry fails. A picture that the same list uses as a long-term
reference is not found for a short-term entry. -/
@[grind =] def NotFound (ii : Nat) : Prop :=
  if rpl.isRefPicLongterm ii then
    ∀ pic ∈ dpb, matchesLsb (rpl.refPicIdentifier ii) pic = false
  else ∀ i pic, dpb[i]? = some pic → pic.referenced →
    pic.poc = slice.poc - rpl.refPicIdentifier ii → UsedLongTerm rpl dpb i

/-- Long-term entries are searched before short-term ones. -/
def SearchedBefore (ii jj : Nat) : Prop :=
  if rpl.isRefPicLongterm ii = rpl.isRefPicLongterm jj then ii < jj
  else rpl.isRefPicLongterm ii = true

/-- The first entry, in the order of the searches, that is not found. -/
def FirstNotFound (ii : Nat) : Prop :=
  ii < rpl.numEntries ∧ NotFound slice rpl dpb ii ∧
    ∀ jj < rpl.numEntries, SearchedBefore rpl jj ii → ¬ NotFound slice rpl dpb jj

/-- What an entry that is not found is reported as. -/
def missingPoc (ii : Nat) : Int :=
  if rpl.isRefPicLongterm ii then rpl.refPicIdentifier ii
  else slice.poc - rpl.refPicIdentifier ii

end Missing

/-- The overloads give the same value and leave the same buffer. -/
theorem checkLongTermIndex_eq (rpl : ReferencePictureList)
    (entries : List Nat) (dpb : List Picture) :
    checkLongTerm rpl entries dpb =
      ((checkLongTermIndex rpl entries dpb).1.map Prod.fst,
        (checkLongTermIndex rpl entries dpb).2) := by
  induction entries generalizing dpb with
  | nil => rfl
  | cons ii rest ih =>
      rw [checkLongTerm, checkLongTermIndex]
      split
      · cases longTermAvailable (rpl.refPicIdentifier ii) dpb with
        | none => rfl
        | some found => exact ih found.2
      · exact ih dpb

theorem checkShortTermIndex_eq (slice : Slice) (rpl : ReferencePictureList)
    (dpb : List Picture) (entries : List Nat) :
    checkShortTerm slice rpl dpb entries =
      (checkShortTermIndex slice rpl dpb entries).map Prod.fst := by
  induction entries with
  | nil => rfl
  | cons ii rest ih =>
      rw [checkShortTerm, checkShortTermIndex]
      split
      · exact ih
      · split
        · rfl
        · exact ih

theorem checkThatAllRefPicsAreAvailableIndex_eq (slice : Slice) (rpl : ReferencePictureList)
    (dpb : List Picture) :
    checkThatAllRefPicsAreAvailable slice rpl dpb =
      ((checkThatAllRefPicsAreAvailableIndex slice rpl dpb).1,
        (checkThatAllRefPicsAreAvailableIndex slice rpl dpb).2.2) := by
  rw [checkThatAllRefPicsAreAvailable, checkThatAllRefPicsAreAvailableIndex]
  split
  · rfl
  · simp only [checkLongTermIndex_eq, checkShortTermIndex_eq]
    generalize checkLongTermIndex rpl _ dpb = run
    obtain ⟨lost, marked⟩ := run
    cases lost with
    | some lost => rfl
    | none =>
        cases found : checkShortTermIndex slice rpl marked
            (List.range (rpl.numberOfLongtermPictures + rpl.numberOfShorttermPictures)) with
        | none => simp [found]
        | some lost => simp [found]

theorem SamePics.symm {dpb dpb' : List Picture} (same : SamePics dpb dpb') : SamePics dpb' dpb :=
  Eq.symm same

/-- At each place are the same pictures, up to the mark. -/
theorem SamePics.getElem? {dpb dpb' : List Picture} (same : SamePics dpb dpb') {i : Nat}
    {pic : Picture} (here : dpb[i]? = some pic) :
    ∃ pic', dpb'[i]? = some pic' ∧ pic'.static = pic.static := by
  have alike : (dpb'.map Picture.static)[i]? = (dpb.map Picture.static)[i]? := by
    rw [same]
  rw [List.getElem?_map, List.getElem?_map, here] at alike
  simpa using alike

theorem SamePics.matchesLsb {dpb dpb' : List Picture} (same : SamePics dpb dpb')
    (identifier : Int) (missing : ∀ pic ∈ dpb, matchesLsb identifier pic = false) :
    ∀ pic ∈ dpb', RefPics.matchesLsb identifier pic = false := by
  intro pic member
  obtain ⟨i, here⟩ := List.mem_iff_getElem?.mp member
  obtain ⟨pic', here', alike⟩ := same.symm.getElem? here
  have missed := missing pic' (List.mem_of_getElem? here')
  simp only [Picture.static, Prod.mk.injEq] at alike
  simpa only [RefPics.matchesLsb, alike] using missed

theorem longTermAvailable_eq_none_iff (identifier : Int) (dpb : List Picture) :
    longTermAvailable identifier dpb = none ↔
      ∀ pic ∈ dpb, matchesLsb identifier pic = false := by
  constructor
  · intro missed pic member
    unfold longTermAvailable at missed
    split at missed
    · cases missed
    · rename_i unmarked
      split at missed
      · cases missed
      · rename_i unfound
        have marked := List.findIdx?_eq_none_iff.mp unmarked pic member
        have short := List.findIdx?_eq_none_iff.mp unfound pic member
        cases mark : pic.longTerm with
        | true => simpa [mark] using marked
        | false => simpa [mark] using short
  · intro missing
    have unfound (p : Picture → Bool) :
        dpb.findIdx? (fun pic => p pic && matchesLsb identifier pic) = none := by
      rw [List.findIdx?_eq_none_iff]
      intro pic member
      rw [missing pic member, Bool.and_false]
    rw [longTermAvailable, unfound Picture.longTerm, unfound fun pic => !pic.longTerm]

/-- An entry that is found adds its picture to the long-term references. -/
theorem longTermAvailable_marks {identifier : Int} {dpb dpb' : List Picture} {i : Nat}
    (available : longTermAvailable identifier dpb = some (i, dpb')) (k : Nat) :
    LongTermAt dpb' k ↔ LongTermAt dpb k ∨ k = i := by
  unfold longTermAvailable at available
  split at available
  · rename_i found
    cases available
    obtain ⟨inside, here, -⟩ := List.findIdx?_eq_some_iff_getElem.mp found
    have marked : LongTermAt dpb i :=
      ⟨dpb[i], List.getElem?_eq_getElem inside, (Bool.and_eq_true _ _ ▸ here).1⟩
    constructor
    · exact Or.inl
    · rintro (marked | rfl)
      · exact marked
      · exact marked
  · split at available
    · rename_i found
      cases available
      obtain ⟨inside, -, -⟩ := List.findIdx?_eq_some_iff_getElem.mp found
      unfold LongTermAt
      rw [List.getElem?_modify]
      by_cases same : i = k
      · subst same
        simp [List.getElem?_eq_getElem inside]
      · have other : k ≠ i := fun wrong => same wrong.symm
        simp [same, other]
    · cases available

/-- The loop over the long-term entries ends at the first that is not found. -/
theorem checkLongTermIndex_fst (rpl : ReferencePictureList)
    (entries : List Nat) (dpb : List Picture) :
    (checkLongTermIndex rpl entries dpb).1 =
      (entries.find? fun ii => rpl.isRefPicLongterm ii &&
        (longTermAvailable (rpl.refPicIdentifier ii) dpb).isNone).map
          fun ii => (rpl.refPicIdentifier ii, ii) := by
  induction entries generalizing dpb with
  | nil => rfl
  | cons ii rest ih =>
      rw [checkLongTermIndex, List.find?_cons]
      cases longTerm : rpl.isRefPicLongterm ii with
      | false => simp [ih]
      | true =>
          cases available : longTermAvailable (rpl.refPicIdentifier ii) dpb with
          | none => simp
          | some found =>
              obtain ⟨i, dpb'⟩ := found
              have same := longTermAvailable_same available
              have kept (identifier : Int) :
                  (longTermAvailable identifier dpb').isNone =
                    (longTermAvailable identifier dpb).isNone := by
                rw [Bool.eq_iff_iff, Option.isNone_iff_eq_none, Option.isNone_iff_eq_none,
                  longTermAvailable_eq_none_iff, longTermAvailable_eq_none_iff]
                exact ⟨same.symm.matchesLsb identifier, same.matchesLsb identifier⟩
              simp [ih, kept]

/-- A loop over more entries goes on where it was. -/
theorem checkLongTermIndex_append (rpl : ReferencePictureList) (first second : List Nat)
    (dpb : List Picture) (complete : (checkLongTermIndex rpl first dpb).1 = none) :
    checkLongTermIndex rpl (first ++ second) dpb =
      checkLongTermIndex rpl second (checkLongTermIndex rpl first dpb).2 := by
  induction first generalizing dpb with
  | nil => rfl
  | cons ii rest ih =>
      rw [checkLongTermIndex] at complete
      rw [List.cons_append, checkLongTermIndex, checkLongTermIndex]
      split at complete
      · rename_i longTerm
        rw [if_pos longTerm, if_pos longTerm]
        cases available : longTermAvailable (rpl.refPicIdentifier ii) dpb with
        | none =>
            rw [available] at complete
            cases complete
        | some found =>
            rw [available] at complete
            exact ih found.2 complete
      · rename_i shortTerm
        rw [if_neg shortTerm, if_neg shortTerm]
        exact ih dpb complete

/-- While it finds all entries, it leaves the buffer in which the next one is searched. -/
theorem searchedBuffer_of_complete (rpl : ReferencePictureList) (dpb : List Picture) (n : Nat)
    (complete : (checkLongTermIndex rpl (List.range n) dpb).1 = none) :
    searchedBuffer rpl dpb n = some (checkLongTermIndex rpl (List.range n) dpb).2 := by
  induction n with
  | zero => rfl
  | succ n ih =>
      rw [List.range_succ] at complete ⊢
      have before : (checkLongTermIndex rpl (List.range n) dpb).1 = none := by
        rw [checkLongTermIndex_fst, Option.map_eq_none_iff, List.find?_append] at complete
        rw [checkLongTermIndex_fst, Option.map_eq_none_iff]
        exact (Option.or_eq_none_iff.mp complete).1
      rw [checkLongTermIndex_append _ _ _ _ before] at complete ⊢
      rw [searchedBuffer, ih before, Option.bind_some]
      rw [checkLongTermIndex, checkLongTermIndex] at complete ⊢
      split
      · rename_i longTerm
        rw [if_pos longTerm] at complete
        cases available : longTermAvailable (rpl.refPicIdentifier n)
            (checkLongTermIndex rpl (List.range n) dpb).2 with
        | none =>
            rw [available] at complete
            cases complete
        | some found => rfl
      · rfl

/-- Exactly the pictures of the entries before are marked in it. -/
theorem searchedBuffer_marks (rpl : ReferencePictureList) (dpb : List Picture) {n : Nat}
    {marked : List Picture} (searched : searchedBuffer rpl dpb n = some marked) (k : Nat) :
    LongTermAt marked k ↔ LongTermAt dpb k ∨
      ∃ ii < n, rpl.isRefPicLongterm ii ∧ ∃ before, searchedBuffer rpl dpb ii = some before ∧
        acceptedPicture (rpl.refPicIdentifier ii) before = some k := by
  induction n generalizing marked with
  | zero =>
      cases searched
      simp
  | succ n ih =>
      rw [searchedBuffer, Option.bind_eq_some_iff] at searched
      obtain ⟨before, here, searched⟩ := searched
      have last (P : Nat → Prop) : (∃ ii < n + 1, P ii) ↔ (∃ ii < n, P ii) ∨ P n := by
        simp only [Nat.lt_succ_iff_lt_or_eq, or_and_right, exists_or, exists_eq_left]
      rw [last, ← or_assoc, ← ih here]
      split at searched
      · rename_i longTerm
        obtain ⟨⟨i, _⟩, available, rfl⟩ := Option.map_eq_some_iff.mp searched
        rw [longTermAvailable_marks available]
        simp [here, longTerm, acceptedPicture, available, eq_comm]
      · rename_i shortTerm
        cases searched
        simp [shortTerm]

theorem checkShortTermIndex_find (slice : Slice) (rpl : ReferencePictureList)
    (dpb : List Picture) (some : 0 < rpl.numberOfShorttermPictures) (entries : List Nat) :
    checkShortTermIndex slice rpl dpb entries =
      (entries.find? fun ii => !rpl.isRefPicLongterm ii &&
        !shortTermAvailable (slice.poc - rpl.refPicIdentifier ii) dpb).map
          fun ii => (slice.poc - rpl.refPicIdentifier ii, ii) := by
  induction entries with
  | nil => rfl
  | cons ii rest ih =>
      rw [checkShortTermIndex, List.find?_cons]
      cases rpl.isRefPicLongterm ii with
      | true => simp [ih]
      | false =>
          cases shortTermAvailable (slice.poc - rpl.refPicIdentifier ii) dpb with
          | true => simp [ih]
          | false => simp [some]

/-- The buffer in which the short-term entries are searched. -/
theorem notFound_of_complete {slice : Slice} {rpl : ReferencePictureList}
    {dpb marked : List Picture} (same : SamePics dpb marked)
    (marks : ∀ k, LongTermAt marked k ↔ UsedLongTerm rpl dpb k) {ii : Nat}
    (shortTerm : rpl.isRefPicLongterm ii = false) :
    shortTermAvailable (slice.poc - rpl.refPicIdentifier ii) marked = false ↔
      NotFound slice rpl dpb ii := by
  rw [shortTermAvailable, List.any_eq_false, NotFound, shortTerm, if_neg (by decide)]
  constructor
  · intro missed i pic here referenced named
    obtain ⟨pic', here', alike⟩ := same.getElem? here
    simp only [Picture.static, Prod.mk.injEq] at alike
    have unfound := missed pic' (List.mem_of_getElem? here')
    rw [← marks]
    refine ⟨pic', here', ?_⟩
    simpa [alike, referenced, named] using unfound
  · intro unfound pic' member
    obtain ⟨i, here'⟩ := List.mem_iff_getElem?.mp member
    obtain ⟨pic, here, alike⟩ := same.symm.getElem? here'
    simp only [Picture.static, Prod.mk.injEq] at alike
    by_cases named : pic.referenced = true ∧ pic.poc = slice.poc - rpl.refPicIdentifier ii
    · obtain ⟨marked', at_i, longTerm⟩ := (marks i).mpr (unfound i pic here named.1 named.2)
      rw [here'] at at_i
      cases at_i
      simp [longTerm]
    · rw [alike.1, alike.2.2.1] at named
      simp only [Bool.and_eq_true, decide_eq_true_eq, not_and]
      intro found referenced
      exact named ⟨referenced, found.2⟩

/-- The first loop misses no entry when all long-term ones are found. -/
theorem checkLongTermIndex_complete {slice : Slice} {rpl : ReferencePictureList}
    {dpb : List Picture}
    (found : ∀ ii < rpl.numEntries, rpl.isRefPicLongterm ii = true → ¬ NotFound slice rpl dpb ii) :
    let run := checkLongTermIndex rpl (List.range rpl.numEntries) dpb
    run.1 = none ∧ SamePics dpb run.2 ∧ ∀ k, LongTermAt run.2 k ↔ UsedLongTerm rpl dpb k := by
  intro run
  have complete : run.1 = none := by
    rw [checkLongTermIndex_fst, Option.map_eq_none_iff, List.find?_eq_none]
    intro ii member lost
    simp only [Bool.and_eq_true, Option.isNone_iff_eq_none, longTermAvailable_eq_none_iff] at lost
    apply found ii (List.mem_range.mp member) lost.1
    rw [NotFound, if_pos lost.1]
    exact lost.2
  refine ⟨complete, ?_, ?_⟩
  · have same := checkLongTerm_same rpl (List.range rpl.numEntries) dpb
    rwa [checkLongTermIndex_eq] at same
  · exact searchedBuffer_marks rpl dpb (searchedBuffer_of_complete rpl dpb _ complete)

section Counted

variable {rpl : ReferencePictureList} (counted : rpl.Counted)
include counted

/-- The loop over the long-term entries is entered when there are some. -/
theorem ReferencePictureList.Counted.longTerm_pos {ii : Nat} (inside : ii < rpl.numEntries)
    (longTerm : rpl.isRefPicLongterm ii = true) : 0 < rpl.numberOfLongtermPictures := by
  rw [← counted, List.countP_pos_iff]
  exact ⟨ii, List.mem_range.mpr inside, longTerm⟩

theorem ReferencePictureList.Counted.shortTerm_pos {ii : Nat} (inside : ii < rpl.numEntries)
    (shortTerm : rpl.isRefPicLongterm ii = false) : 0 < rpl.numberOfShorttermPictures := by
  have fewer : (List.range rpl.numEntries).countP rpl.isRefPicLongterm ≠ rpl.numEntries := by
    intro all
    have every := List.countP_eq_length.mp (all.trans (List.length_range).symm)
    rw [every ii (List.mem_range.mpr inside)] at shortTerm
    cases shortTerm
  rw [counted, ReferencePictureList.numEntries] at fewer
  omega

variable {slice : Slice} {dpb : List Picture}

/-- The loop over the long-term entries is the one over all entries. -/
theorem checkLongTermIndex_guarded :
    checkLongTermIndex rpl (if rpl.numberOfLongtermPictures > 0 then
        List.range (rpl.numberOfLongtermPictures + rpl.numberOfShorttermPictures) else []) dpb =
      checkLongTermIndex rpl (List.range rpl.numEntries) dpb := by
  split
  · rfl
  · rename_i none
    have passed (entries : List Nat) (inside : ∀ ii ∈ entries, ii < rpl.numEntries) :
        checkLongTermIndex rpl entries dpb = (.none, dpb) := by
      induction entries with
      | nil => rfl
      | cons ii rest ih =>
          obtain ⟨here, behind⟩ := List.forall_mem_cons.mp inside
          rw [checkLongTermIndex, if_neg fun longTerm => none (counted.longTerm_pos here longTerm)]
          exact ih behind
    rw [passed _ fun ii member => List.mem_range.mp member]
    rfl

variable (notIDR : slice.isIDRorBLA = false)
include notIDR

/-- Both overloads report the first entry that is not found. -/
theorem FirstNotFound.reported {ii : Nat} (first : FirstNotFound slice rpl dpb ii) :
    (checkThatAllRefPicsAreAvailableIndex slice rpl dpb).1 = missingPoc slice rpl ii ∧
      (checkThatAllRefPicsAreAvailableIndex slice rpl dpb).2.1 = ii := by
  obtain ⟨inside, unfound, earlier⟩ := first
  rw [checkThatAllRefPicsAreAvailableIndex, notIDR, missingPoc]
  simp only [Bool.false_eq_true, if_false, checkLongTermIndex_guarded counted]
  cases longTerm : rpl.isRefPicLongterm ii with
  | true =>
      have missed : (checkLongTermIndex rpl (List.range rpl.numEntries) dpb).1 =
          some (rpl.refPicIdentifier ii, ii) := by
        rw [checkLongTermIndex_fst]
        refine Option.map_eq_some_iff.mpr ⟨ii, List.find?_range_eq_some.mpr ⟨?_, ?_, ?_⟩, rfl⟩
        · rw [NotFound, if_pos longTerm] at unfound
          rw [longTerm, Bool.true_and, Option.isNone_iff_eq_none]
          exact (longTermAvailable_eq_none_iff _ _).mpr unfound
        · exact List.mem_range.mpr inside
        · intro jj before
          rw [Bool.not_eq_true', Bool.and_eq_false_imp]
          intro longTerm'
          have found := earlier jj (before.trans inside)
            (by rw [SearchedBefore, longTerm, longTerm', if_pos rfl]; exact before)
          rw [NotFound, if_pos longTerm', ← longTermAvailable_eq_none_iff] at found
          rwa [Option.isNone_eq_false_iff, Option.isSome_iff_ne_none]
      generalize checkLongTermIndex rpl _ dpb = run at missed
      obtain ⟨lost, marked⟩ := run
      cases missed
      exact ⟨rfl, rfl⟩
  | false =>
      have found : ∀ jj < rpl.numEntries, rpl.isRefPicLongterm jj = true →
          ¬ NotFound slice rpl dpb jj := by
        intro jj inside' longTerm'
        apply earlier jj inside'
        rw [SearchedBefore, longTerm, longTerm', if_neg (by decide)]
      obtain ⟨complete, same, marks⟩ := checkLongTermIndex_complete found
      generalize checkLongTermIndex rpl _ dpb = run at complete same marks
      obtain ⟨lost, marked⟩ := run
      cases complete
      have missed : checkShortTermIndex slice rpl marked
          (List.range (rpl.numberOfLongtermPictures + rpl.numberOfShorttermPictures)) =
          some (slice.poc - rpl.refPicIdentifier ii, ii) := by
        rw [checkShortTermIndex_find _ _ _ (counted.shortTerm_pos inside longTerm)]
        refine Option.map_eq_some_iff.mpr ⟨ii, List.find?_range_eq_some.mpr ⟨?_, ?_, ?_⟩, rfl⟩
        · rw [longTerm, (notFound_of_complete same marks longTerm).mpr unfound]
          rfl
        · exact List.mem_range.mpr inside
        · intro jj before
          rw [Bool.not_eq_true', Bool.and_eq_false_imp]
          intro shortTerm
          rw [Bool.not_eq_true'] at shortTerm
          have found := earlier jj (before.trans inside)
            (by rw [SearchedBefore, longTerm, shortTerm, if_pos rfl]; exact before)
          rw [← notFound_of_complete same marks shortTerm] at found
          simpa using found
      simp [missed]

end Counted

/-- A missing picture is not found. -/
theorem Missing.notFound {slice : Slice} {rpl : ReferencePictureList} {dpb : List Picture}
    {ii : Nat} (missing : Missing slice rpl dpb ii) : NotFound slice rpl dpb ii := by
  rw [Missing] at missing
  rw [NotFound]
  split
  · rename_i longTerm
    rwa [if_pos longTerm] at missing
  · rename_i shortTerm
    rw [if_neg shortTerm] at missing
    intro i pic here referenced named
    exact Or.inl ⟨pic, here, missing pic (List.mem_of_getElem? here) referenced named⟩

/-- Where some entry is not found, one is the first. -/
theorem exists_firstNotFound {slice : Slice} {rpl : ReferencePictureList} {dpb : List Picture}
    {ii : Nat} (inside : ii < rpl.numEntries) (unfound : NotFound slice rpl dpb ii) :
    ∃ first, FirstNotFound slice rpl dpb first := by
  classical
  -- the least one of a kind, among long-term entries if there is one
  have least (longTerm : Bool) (some : ∃ jj, jj < rpl.numEntries ∧
      rpl.isRefPicLongterm jj = longTerm ∧ NotFound slice rpl dpb jj) :
      ∃ first, (first < rpl.numEntries ∧ rpl.isRefPicLongterm first = longTerm ∧
        NotFound slice rpl dpb first) ∧ ∀ jj < first, rpl.isRefPicLongterm jj = longTerm →
          ¬ NotFound slice rpl dpb jj := by
    refine ⟨Nat.find some, Nat.find_spec some, ?_⟩
    intro jj before kind wrong
    exact Nat.find_min some before ⟨before.trans (Nat.find_spec some).1, kind, wrong⟩
  by_cases longTerm : ∃ jj, jj < rpl.numEntries ∧ rpl.isRefPicLongterm jj = true ∧
      NotFound slice rpl dpb jj
  · obtain ⟨first, ⟨inside, kind, unfound⟩, before⟩ := least true longTerm
    refine ⟨first, inside, unfound, ?_⟩
    intro jj _ searched
    rw [SearchedBefore, kind] at searched
    split at searched
    · exact before jj searched ‹_›
    · exact absurd searched ‹_›
  · have shortTerm : rpl.isRefPicLongterm ii = false := by
      rw [Bool.eq_false_iff]
      exact fun wrong => longTerm ⟨ii, inside, wrong, unfound⟩
    obtain ⟨first, ⟨inside, kind, unfound⟩, before⟩ := least false ⟨ii, inside, shortTerm, unfound⟩
    refine ⟨first, inside, unfound, ?_⟩
    intro jj inside' searched
    rw [SearchedBefore, kind] at searched
    split at searched
    · exact before jj searched ‹_›
    · exact fun wrong => longTerm ⟨jj, inside', searched, wrong⟩

/-- An incomplete list is told from a complete one, by both overloads, exactly when the
first entry that is not found is not that of POC 0. -/
theorem reports_missing_iff (slice : Slice) (rpl : ReferencePictureList) (dpb : List Picture)
    (counted : rpl.Counted) (notIDR : slice.isIDRorBLA = false)
    (missing : ∃ ii < rpl.numEntries, Missing slice rpl dpb ii) :
    ((checkThatAllRefPicsAreAvailable slice rpl dpb).1 ≠ 0 ∧
        (checkThatAllRefPicsAreAvailableIndex slice rpl dpb).1 ≠ 0) ↔
      ∀ ii, FirstNotFound slice rpl dpb ii → missingPoc slice rpl ii ≠ 0 := by
  obtain ⟨ii, inside, missing⟩ := missing
  obtain ⟨first, isFirst⟩ := exists_firstNotFound inside missing.notFound
  rw [checkThatAllRefPicsAreAvailableIndex_eq, and_self]
  constructor
  · intro told jj isFirst'
    rwa [← (isFirst'.reported counted notIDR).1]
  · intro told
    rw [(isFirst.reported counted notIDR).1]
    exact told first isFirst

/-- A list with one short-term entry. -/
def singleEntry (identifier : Int) : ReferencePictureList where
  numberOfShorttermPictures := 1
  numberOfLongtermPictures := 0
  isRefPicLongterm := fun _ => false
  refPicIdentifier := fun _ => identifier
  deltaPocMSBPresentFlag := fun _ => false
  deltaPocMSBCycleLT := fun _ => 0

/-- A slice of POC 8 that refers to one earlier picture. -/
def sliceReferringTo (identifier : Int) : Slice where
  poc := 8
  layerId := 0
  isIDRorBLA := false
  sliceType := .P_SLICE
  bitsForPOC := 4
  rpl := fun _ => singleEntry identifier
  localRPL := fun _ => singleEntry identifier
  numRefIdx := fun _ => 1

/-- A buffer that still holds the picture of POC 2 only. -/
def dpbOfPoc2 : List Picture := [⟨2, 0, true, false, 4⟩]

theorem missing_singleEntry {identifier : Int} (other : identifier ≠ 6) :
    ∃ ii < (singleEntry identifier).numEntries,
      Missing (sliceReferringTo identifier) (singleEntry identifier) dpbOfPoc2 ii := by
  refine ⟨0, by simp [singleEntry, ReferencePictureList.numEntries], ?_⟩
  rw [Missing, if_neg (by simp [singleEntry])]
  intro pic member _ named
  obtain rfl := List.mem_singleton.mp member
  simp only [sliceReferringTo, singleEntry] at named
  omega

/-- A long-term entry of identifier 0 and a short-term one of POC 5. -/
def longAndShort : ReferencePictureList where
  numberOfShorttermPictures := 1
  numberOfLongtermPictures := 1
  isRefPicLongterm := fun ii => ii = 0
  refPicIdentifier := fun ii => if ii = 0 then 0 else 3
  deltaPocMSBPresentFlag := fun _ => false
  deltaPocMSBCycleLT := fun _ => 0

/-- A slice of POC 8 whose parameter set has more bits for the LSBs than the one before. -/
def sliceOfFiveBits : Slice where
  poc := 8
  layerId := 0
  isIDRorBLA := false
  sliceType := .P_SLICE
  bitsForPOC := 5
  rpl := fun _ => longAndShort
  localRPL := fun _ => longAndShort
  numRefIdx := fun _ => 2

/-- The pictures of POC 16 and POC 2 are of the parameter set with 4 bits. -/
def dpbOfFourBits : List Picture := [⟨16, 0, true, true, 4⟩, ⟨2, 0, true, false, 4⟩]

/-- The picture of POC 16 is found by its own 4 bits, and the missing picture of POC 5 is
reported. -/
theorem reports_missing_poc_five :
    (checkThatAllRefPicsAreAvailable sliceOfFiveBits longAndShort dpbOfFourBits).1 ≠ 0 ∧
      (checkThatAllRefPicsAreAvailableIndex sliceOfFiveBits longAndShort dpbOfFourBits).1 ≠ 0 := by
  have found : ¬ NotFound sliceOfFiveBits longAndShort dpbOfFourBits 0 := by
    intro unfound
    have missed := unfound ⟨16, 0, true, true, 4⟩ (List.mem_cons_self ..)
    simp [matchesLsb, pocLsb, longAndShort] at missed
  refine (reports_missing_iff sliceOfFiveBits longAndShort dpbOfFourBits (by decide) rfl
    ⟨1, by decide, ?_⟩).mpr ?_
  · intro pic member _ named
    rcases List.mem_pair.mp member with rfl | rfl
    · rfl
    · simp [sliceOfFiveBits, longAndShort] at named
  · rintro ii ⟨inside, unfound, -⟩
    have other : ii ≠ 0 := fun zero => found (zero ▸ unfound)
    simp [missingPoc, longAndShort, other, sliceOfFiveBits]

/-- The missing picture of POC 0 is not. -/
theorem missing_poc_zero_unreported :
    (singleEntry 8).Counted ∧ (sliceReferringTo 8).isIDRorBLA = false ∧
      (∃ ii < (singleEntry 8).numEntries,
        Missing (sliceReferringTo 8) (singleEntry 8) dpbOfPoc2 ii) ∧
      (checkThatAllRefPicsAreAvailable (sliceReferringTo 8) (singleEntry 8) dpbOfPoc2).1 = 0 ∧
      (checkThatAllRefPicsAreAvailableIndex (sliceReferringTo 8) (singleEntry 8) dpbOfPoc2).1 = 0 :=
  ⟨by decide, rfl, missing_singleEntry (by decide), by decide, by decide⟩

end Vtm.RefPics
