import Vtm.Slice.RefPicList
import Mathlib.Data.List.Forall2

/-!
# Available reference pictures

The searches of `constructRefPicList` read neither the long-term marks that the
check sets nor those that they set themselves, so each active entry resolves on its
own (`constructRefPicList_ok_iff`).
-/

namespace Vtm.RefPics

open Vtm.Std

/-- What the searches read of a picture. -/
def Picture.static (pic : Picture) : Int × Nat × Bool × Nat :=
  (pic.poc, pic.layerId, pic.referenced, pic.bitsForPOC)

/-- Two buffers with the same pictures, up to long-term marks. -/
def SamePics (dpb dpb' : List Picture) : Prop :=
  dpb.map Picture.static = dpb'.map Picture.static

theorem SamePics.trans {first second third : List Picture} (left : SamePics first second)
    (right : SamePics second third) : SamePics first third := Eq.trans left right

theorem samePics_modify (dpb : List Picture) (i : Nat) (mark : Bool) :
    SamePics dpb (dpb.modify i fun pic => { pic with longTerm := mark }) := by
  induction dpb generalizing i with
  | nil => cases i <;> rfl
  | cons pic rest ih =>
      cases i with
      | zero => rfl
      | succ i => exact congrArg (pic.static :: ·) (ih i)

/-- Searches that answer alike at each place end at the same one. -/
theorem findIdx?_eq_of_map_eq {α β : Type} {l : List α} {l' : List β} {p : α → Bool}
    {q : β → Bool} (alike : l.map p = l'.map q) : l.findIdx? p = l'.findIdx? q := by
  have search {γ : Type} (l : List γ) (r : γ → Bool) : l.findIdx? r = (l.map r).findIdx? id := by
    rw [List.findIdx?_map]
    rfl
  rw [search l p, search l' q, alike]

/-- A search that reads no marks finds the same place. -/
theorem SamePics.findIdx? {dpb dpb' : List Picture} (same : SamePics dpb dpb')
    (p : Picture → Bool) (q : Int × Nat × Bool × Nat → Bool) (reads : ∀ pic, p pic = q pic.static) :
    dpb.findIdx? p = dpb'.findIdx? p := by
  apply findIdx?_eq_of_map_eq
  have factor : p = q ∘ Picture.static := funext reads
  rw [factor, ← List.map_map, ← List.map_map, same]

theorem longTermLoop_eq (slice : Slice) (poc : Int) (pocHasMsb : Bool) (pcStPic i : Nat)
    (dpb : List Picture) :
    longTermLoop slice poc pocHasMsb pcStPic i dpb =
      ((dpb.findIdx? (isLongTermRef slice poc pocHasMsb)).map (· + i)).getD pcStPic := by
  induction dpb generalizing i with
  | nil => rfl
  | cons pic rest ih =>
      rw [longTermLoop, List.findIdx?_cons]
      by_cases here : isLongTermRef slice poc pocHasMsb pic = true
      · rw [if_pos here, if_pos here]
        split <;> simp
      · rw [if_neg here, if_neg here, ih]
        cases rest.findIdx? (isLongTermRef slice poc pocHasMsb) with
        | none => rfl
        | some k => simp [Nat.add_right_comm, Nat.add_assoc]

theorem refPicOf_congr (slice : Slice) (X : RefPicList) {dpb dpb' : List Picture}
    (same : SamePics dpb dpb') (ii : Nat) :
    refPicOf slice X dpb ii = refPicOf slice X dpb' ii := by
  have empty : dpb = [] ↔ dpb' = [] := by
    rw [← List.map_eq_nil_iff (f := Picture.static), same, List.map_eq_nil_iff]
  have longTerm (poc : Int) (msb : Bool) :
      xGetLongTermRefPic slice dpb poc msb = xGetLongTermRefPic slice dpb' poc msb := by
    have found := same.findIdx? (isLongTermRef slice (if msb then poc
        else pocLsb slice.bitsForPOC poc) msb)
      (fun s => (s.1 ≠ slice.poc ∧ s.2.2.1 ∧ s.2.1 = slice.layerId) ∧
        (if msb then poc else pocLsb slice.bitsForPOC poc) =
          if msb then s.1 else pocLsb slice.bitsForPOC s.1) fun _ => rfl
    cases dpb with
    | nil => rw [empty.mp rfl]
    | cons pic rest =>
        cases dpb' with
        | nil => cases empty.mpr rfl
        | cons pic' rest' =>
            simp only [xGetLongTermRefPic, longTermLoop_eq, found]
  have shortTerm (poc : Int) :
      xGetRefPic dpb poc slice.layerId = xGetRefPic dpb' poc slice.layerId := by
    have found := same.findIdx? (fun pic => pic.poc = poc ∧ pic.layerId = slice.layerId)
      (fun s => s.1 = poc ∧ s.2.1 = slice.layerId) fun _ => rfl
    rw [xGetRefPic, xGetRefPic, found]
  rw [refPicOf, refPicOf]
  simp only [longTerm, shortTerm]

/-- The loop over the entries of a list only sets marks. -/
theorem constructEntries_same (slice : Slice) (X : RefPicList) (entries : List Nat)
    {dpb final : List Picture} {refPics : List (Nat × Bool)}
    (run : constructEntries slice X entries dpb = .ok (refPics, final)) : SamePics dpb final := by
  induction entries generalizing dpb refPics with
  | nil =>
      cases run
      rfl
  | cons ii entries ih =>
      rw [constructEntries, bind_eq_ok_iff] at run
      obtain ⟨pcRefPic, -, run⟩ := run
      simp only [bind_eq_ok_iff] at run
      obtain ⟨⟨rest, _⟩, run, built⟩ := run
      cases built
      exact (samePics_modify dpb pcRefPic _).trans (ih run)

/-- An entry and what the loop stores for it. -/
def Stored (slice : Slice) (X : RefPicList) (dpb : List Picture) (ii : Nat) (ref : Nat × Bool) :
    Prop :=
  refPicOf slice X dpb ii = .ok ref.1 ∧ ref.2 = (slice.rpl X).isRefPicLongterm ii

/-- The loop over the entries of a list resolves each of them on its own. -/
theorem constructEntries_ok_iff (slice : Slice) (X : RefPicList) (entries : List Nat)
    {dpb dpb' : List Picture} (same : SamePics dpb dpb') (refPics : List (Nat × Bool)) :
    (∃ final, constructEntries slice X entries dpb' = .ok (refPics, final)) ↔
      List.Forall₂ (Stored slice X dpb) entries refPics := by
  induction entries generalizing dpb' refPics with
  | nil =>
      constructor
      · rintro ⟨_, run⟩
        cases run
        exact List.Forall₂.nil
      · rintro ⟨⟩
        exact ⟨dpb', rfl⟩
  | cons ii entries ih =>
      constructor
      · rintro ⟨_, run⟩
        rw [constructEntries, bind_eq_ok_iff] at run
        obtain ⟨pcRefPic, found, run⟩ := run
        simp only [bind_eq_ok_iff] at run
        obtain ⟨⟨rest, _⟩, run, built⟩ := run
        cases built
        rw [← refPicOf_congr slice X same] at found
        have marked := same.trans
          (samePics_modify dpb' pcRefPic ((slice.rpl X).isRefPicLongterm ii))
        exact List.Forall₂.cons ⟨found, rfl⟩ ((ih marked rest).mp ⟨_, run⟩)
      · rintro ⟨⟩
        rename_i ref rest head tail
        obtain ⟨found, mark⟩ := head
        have marked := same.trans
          (samePics_modify dpb' ref.1 ((slice.rpl X).isRefPicLongterm ii))
        obtain ⟨final, run⟩ := (ih marked rest).mpr tail
        rw [refPicOf_congr slice X same] at found
        refine ⟨final, ?_⟩
        rw [constructEntries, bind_eq_ok_iff]
        refine ⟨ref.1, found, ?_⟩
        simp only [bind_eq_ok_iff]
        exact ⟨(rest, final), run, by rw [← mark]; rfl⟩

/-- The loops over both lists resolve each active entry on its own. -/
theorem constructRefPicList_ok_iff (slice : Slice) (notIntra : slice.sliceType ≠ .I_SLICE)
    {dpb dpb' : List Picture} (same : SamePics dpb dpb') (lists : RefPicList → List (Nat × Bool)) :
    (∃ final, constructRefPicList slice dpb' =
        .ok ((lists .REF_PIC_LIST_0, lists .REF_PIC_LIST_1), final)) ↔
      ∀ X, List.Forall₂ (Stored slice X dpb) (List.range (slice.numRefIdx X)) (lists X) := by
  rw [constructRefPicList, if_neg notIntra]
  simp only [bind_eq_ok_iff]
  constructor
  · rintro ⟨final, ⟨list0, marked⟩, run0, ⟨list1, _⟩, run1, built⟩ X
    have same' := same.trans (constructEntries_same slice .REF_PIC_LIST_0 _ run0)
    have stored0 := (constructEntries_ok_iff slice .REF_PIC_LIST_0 _ same _).mp ⟨_, run0⟩
    have stored1 := (constructEntries_ok_iff slice .REF_PIC_LIST_1 _ same' _).mp ⟨_, run1⟩
    injection built with built
    injection built with built _
    injection built with first second
    cases X with
    | REF_PIC_LIST_0 => exact first ▸ stored0
    | REF_PIC_LIST_1 => exact second ▸ stored1
  · intro stored
    obtain ⟨marked, run0⟩ :=
      (constructEntries_ok_iff slice .REF_PIC_LIST_0 _ same _).mpr (stored .REF_PIC_LIST_0)
    have same' := same.trans (constructEntries_same slice .REF_PIC_LIST_0 _ run0)
    obtain ⟨final, run1⟩ :=
      (constructEntries_ok_iff slice .REF_PIC_LIST_1 _ same' _).mpr (stored .REF_PIC_LIST_1)
    exact ⟨final, _, run0, _, run1, rfl⟩

/-- The picture that the check accepts for a long-term entry. -/
@[grind =] def acceptedPicture (identifier : Int) (dpb : List Picture) : Option Nat :=
  (longTermAvailable identifier dpb).map Prod.fst

/-- The picture that a long-term entry is meant to name: the first long-term picture
with its LSBs, or the first with them where none is long-term. -/
def Preferred (identifier : Int) (dpb : List Picture) (k : Nat) : Prop :=
  dpb.findIdx? (fun pic => pic.longTerm && matchesLsb identifier pic) = some k ∨
    (∀ pic ∈ dpb, matchesLsb identifier pic → pic.longTerm = false) ∧
      dpb.findIdx? (matchesLsb identifier) = some k

theorem acceptedPicture_eq_some_iff (identifier : Int) (dpb : List Picture)
    (k : Nat) :
    acceptedPicture identifier dpb = some k ↔
      Preferred identifier dpb k := by
  rw [acceptedPicture, longTermAvailable, Preferred]
  cases marked : dpb.findIdx? fun pic => pic.longTerm && matchesLsb identifier pic with
  | some i =>
      obtain ⟨inside, here, -⟩ := List.findIdx?_eq_some_iff_getElem.mp marked
      rw [Bool.and_eq_true] at here
      constructor
      · intro accepted
        exact Or.inl accepted
      · rintro (accepted | ⟨unmarked, -⟩)
        · exact accepted
        · rw [unmarked _ (List.getElem_mem inside) here.2] at here
          exact absurd here.1 (by decide)
  | none =>
      have unmarked : ∀ pic ∈ dpb, matchesLsb identifier pic →
          pic.longTerm = false := by
        intro pic inside found
        have missed := List.findIdx?_eq_none_iff.mp marked pic inside
        rwa [found, Bool.and_true] at missed
      have search : dpb.findIdx? (fun pic => !pic.longTerm && matchesLsb identifier pic) =
          dpb.findIdx? (matchesLsb identifier) := by
        apply findIdx?_eq_of_map_eq
        apply List.map_congr_left
        intro pic inside
        cases found : matchesLsb identifier pic with
        | false => simp
        | true => simp [unmarked pic inside found]
      rw [search]
      constructor
      · intro accepted
        refine Or.inr ⟨unmarked, ?_⟩
        cases found : dpb.findIdx? (matchesLsb identifier) with
        | none => simp [found] at accepted
        | some i => simpa [found] using accepted
      · rintro (wrong | ⟨-, found⟩)
        · cases wrong
        · simp [found]

/-- The search for an entry only sets a mark. -/
theorem longTermAvailable_same {identifier : Int} {dpb dpb' : List Picture} {i : Nat}
    (available : longTermAvailable identifier dpb = some (i, dpb')) : SamePics dpb dpb' := by
  unfold longTermAvailable at available
  split at available
  · cases available
    rfl
  · split at available
    · cases available
      exact samePics_modify dpb i true
    · cases available

/-- So does the loop over the long-term entries. -/
theorem checkLongTerm_same (rpl : ReferencePictureList) (entries : List Nat)
    (dpb : List Picture) : SamePics dpb (checkLongTerm rpl entries dpb).2 := by
  induction entries generalizing dpb with
  | nil => rfl
  | cons ii rest ih =>
      rw [checkLongTerm]
      split
      · cases available : longTermAvailable (rpl.refPicIdentifier ii) dpb with
        | none => rfl
        | some found => exact (longTermAvailable_same available).trans (ih found.2)
      · exact ih dpb

/-- And so does the check of a list. -/
theorem checkThatAllRefPicsAreAvailable_same (slice : Slice) (rpl : ReferencePictureList)
    (dpb : List Picture) : SamePics dpb (checkThatAllRefPicsAreAvailable slice rpl dpb).2 := by
  rw [checkThatAllRefPicsAreAvailable]
  split
  · rfl
  · have same := checkLongTerm_same rpl
      (if rpl.numberOfLongtermPictures > 0 then
        List.range (rpl.numberOfLongtermPictures + rpl.numberOfShorttermPictures) else []) dpb
    dsimp only
    generalize checkLongTerm rpl _ dpb = run at same ⊢
    obtain ⟨lost, marked⟩ := run
    cases lost with
    | none => exact same
    | some notPresentPoc => exact same

end Vtm.RefPics
