import Vtm.Decoder.Concealment
import Vtm.Std.Places

/-!
# Filling in for lost reference pictures

The loops of `xDecodeSlice` over missing reference pictures always end: a pass takes the
first free picture of the list, or it throws, since a new picture has no slices.
-/

namespace Vtm.LostPics

open Vtm.RefPics Vtm.Std

/-- What the check leaves alone of a picture. -/
@[grind =] def Picture.unmarked (pic : Picture) : Picture := { pic with longTerm := false }

@[simp] theorem Picture.isFree_unmarked (pic : Picture) : pic.unmarked.isFree = pic.isFree := rfl

/-- The places of the pictures that can be taken again. -/
abbrev freePics (listPic : List Picture) : List Nat := places Picture.isFree listPic

/-- Marks written back into the pictures they are of. -/
theorem unmarked_zipWith {listPic : List Picture} {dpb : List RefPics.Picture}
    (same : (listPic.map (·.toPicture)).map RefPics.Picture.static =
      dpb.map RefPics.Picture.static) :
    (List.zipWith (fun pic marked => { pic with toPicture := marked }) listPic dpb).map
      Picture.unmarked = listPic.map Picture.unmarked := by
  induction listPic generalizing dpb with
  | nil => rfl
  | cons pic listPic ih =>
      cases dpb with
      | nil => cases same
      | cons marked dpb =>
          obtain ⟨here, behind⟩ := List.cons_eq_cons.mp same
          simp only [RefPics.Picture.static, Prod.mk.injEq] at here
          rw [List.zipWith_cons_cons, List.map_cons, List.map_cons, ih behind]
          simp [Picture.unmarked, here]

/-- The check only sets marks. -/
theorem unmarked_check (slice : Slice) (rpl : ReferencePictureList) (listPic : List Picture) :
    (checkThatAllRefPicsAreAvailable slice rpl listPic).2.2.map Picture.unmarked =
      listPic.map Picture.unmarked := by
  have same := checkThatAllRefPicsAreAvailable_same slice.toSlice rpl (listPic.map (·.toPicture))
  rw [checkThatAllRefPicsAreAvailableIndex_eq] at same
  exact unmarked_zipWith same

theorem length_check (slice : Slice) (rpl : ReferencePictureList) (listPic : List Picture) :
    (checkThatAllRefPicsAreAvailable slice rpl listPic).2.2.length = listPic.length := by
  simpa using congrArg List.length (unmarked_check slice rpl listPic)

theorem freePics_check (slice : Slice) (rpl : ReferencePictureList) (listPic : List Picture) :
    freePics (checkThatAllRefPicsAreAvailable slice rpl listPic).2.2 = freePics listPic := by
  apply places_congr
  simpa [Function.comp_def] using congrArg (List.map Picture.isFree)
    (unmarked_check slice rpl listPic)

section Fill

/-- The pictures of a random access point's past are filled in as unavailable. -/
def Slice.refsUnavailable (slice : Slice) : Bool :=
  slice.nalUnitType.isCraOrGdr && slice.noIncorrectPicOutputFlag

/-- What a pass writes into the fill picture. -/
@[grind =] def fillFor (slice : Slice) (rpl : ReferencePictureList) (lostPoc : Int) (refPicIndex : Nat) :
    Picture → Picture :=
  if slice.refsUnavailable then .fillUnavailable (lostPoc - 1) (rpl.isRefPicLongterm refPicIndex)
  else .fillLost (lostPoc - 1)

variable (slice : Slice) (rpl : ReferencePictureList) (lostPoc : Int) (refPicIndex : Nat)

/-- A fill picture is not free. -/
theorem isFree_fillFor (pic : Picture) :
    (fillFor slice rpl lostPoc refPicIndex pic).isFree = false := by
  unfold fillFor
  split <;> rfl

/-- Its POC is the one the picture had. -/
theorem poc_fillFor (pic : Picture) :
    (fillFor slice rpl lostPoc refPicIndex pic).poc = pic.poc := by
  unfold fillFor
  split <;> rfl

/-- It overwrites what taking the picture again has set. -/
theorem fillFor_takeAgain {format : Format} (layerId : Nat) {pic : Picture}
    (same : pic.format = format) :
    fillFor slice rpl lostPoc refPicIndex (pic.takeAgain format layerId) =
      fillFor slice rpl lostPoc refPicIndex pic := by
  have kept : pic.takeAgain format layerId =
      { pic with neededForOutput := false, reconstructed := false } := by
    simp [Picture.takeAgain, same]
  rw [kept]
  unfold fillFor
  split <;> rfl

/-- The picture that a pass fills in, when there is one: the first free picture of a full
list, with slices and the format of the first parameter sets. -/
structure Refit (lib : DecLib) (i : Nat) (pic : Picture) : Prop where
  pilot : lib.pilotPic.isSome
  full : lib.first.sps.getMaxDecPicBuffering 0 ≤ lib.listPic.length
  taken : (freePics lib.listPic).head? = some i
  here : lib.listPic[i]? = some pic
  slices : pic.slices ≠ []
  format : pic.format = lib.first.format

end Fill

section Buffer

variable (lib : DecLib)

/-- `xGetNewPicBuffer` appends a new picture or takes the first free one again. -/
theorem xGetNewPicBuffer_cases (sets : ParameterSets) (temporalLayer layerId : Nat) :
    (lib.xGetNewPicBuffer sets temporalLayer layerId = lib.pushPic sets layerId ∧
      (freePics lib.listPic = [] ∨
        lib.listPic.length < sets.sps.getMaxDecPicBuffering temporalLayer)) ∨
    ∃ i pic, sets.sps.getMaxDecPicBuffering temporalLayer ≤ lib.listPic.length ∧
      (freePics lib.listPic).head? = some i ∧ lib.listPic[i]? = some pic ∧ pic.isFree ∧
      lib.xGetNewPicBuffer sets temporalLayer layerId =
        ({ lib with listPic := lib.listPic.modify i (.takeAgain sets.format layerId) }, i) := by
  unfold DecLib.xGetNewPicBuffer
  split
  · rename_i room
    exact Or.inl ⟨rfl, Or.inr room⟩
  · rename_i full
    rw [findIdx?_eq_head?_places]
    cases free : (freePics lib.listPic).head? with
    | none => exact Or.inl ⟨rfl, Or.inl (List.head?_eq_none_iff.mp free)⟩
    | some i =>
        obtain ⟨pic, here, isFree⟩ := exists_of_mem_places (List.mem_of_mem_head? free)
        exact Or.inr ⟨i, pic, Nat.le_of_not_lt full, rfl, here, isFree, rfl⟩

/-- A new picture has no slices. -/
theorem slices_pushPic (sets : ParameterSets) (layerId : Nat) :
    ((lib.pushPic sets layerId).1.listPic[(lib.pushPic sets layerId).2]?).elim []
      Picture.slices = [] := by
  simp [DecLib.pushPic, Picture.create]

/-- The fields that a fill writes. -/
theorem writeFill_eq (i : Nat) (poc : Int) (object : SliceObject) (fill : Picture → Picture) :
    lib.writeFill i poc object fill =
      { lib with
        listPic := lib.listPic.modify i fill
        prevTid0POC := (lib.xUpdatePreviousTid0POC { object with poc := poc }).prevTid0POC
        pocRandomAccess :=
          if lib.pocRandomAccess = Dec.maxInt then poc else lib.pocRandomAccess } := by
  simp only [DecLib.writeFill, DecLib.xUpdatePreviousTid0POC]
  split <;> rfl

end Buffer

/-- What a successful fill does: it has taken a picture again that has slices and the
format of the first parameter sets. -/
theorem fillPicture_ok {lib lib' : DecLib} {poc : Int} {layerId i : Nat}
    {fill : Picture → Picture} (filled : lib.fillPicture poc layerId fill = .ok (lib', i)) :
    lib.first.sps.getMaxDecPicBuffering 0 ≤ lib.listPic.length ∧
      (freePics lib.listPic).head? = some i ∧
      ∃ pic object rest, lib.listPic[i]? = some pic ∧ pic.slices = object :: rest ∧
        pic.format = lib.first.format ∧
        lib' = DecLib.writeFill
          { lib with listPic := lib.listPic.modify i (.takeAgain lib.first.format layerId) }
          i poc object fill := by
  unfold DecLib.fillPicture at filled
  obtain ⟨got, -⟩ | ⟨j, pic, full, first, here, -, got⟩ :=
    xGetNewPicBuffer_cases lib lib.first 0 layerId
  · rw [got] at filled
    simp only [slices_pushPic] at filled
    cases filled
  · rw [got] at filled
    simp only [List.getElem?_modify_eq, here, Option.map_eq_map, Option.map_some,
      Option.elim_some] at filled
    by_cases same : pic.format = lib.first.format
    · have kept : (pic.takeAgain lib.first.format layerId).slices = pic.slices := by
        simp [Picture.takeAgain, same]
      rw [kept] at filled
      cases slices : pic.slices with
      | nil =>
          rw [slices] at filled
          cases filled
      | cons object rest =>
          rw [slices] at filled
          obtain ⟨rfl, rfl⟩ := Prod.mk.inj (Except.ok.inj filled)
          exact ⟨full, first, pic, object, rest, here, slices, same, rfl⟩
    · have cleared : (pic.takeAgain lib.first.format layerId).slices = [] := by
        simp [Picture.takeAgain, same]
      rw [cleared] at filled
      cases filled

section Loop

variable (slice : Slice) (rpl : ReferencePictureList)

/-- A pass goes through when there is a picture to fill in. -/
theorem insertMissing_ok {lib lib' : DecLib} {lostPoc : Int} {refPicIndex i : Nat}
    (inserted : lib.insertMissing slice rpl lostPoc refPicIndex = .ok (lib', i)) :
    ∃ pic object rest, Refit lib i pic ∧ pic.slices = object :: rest ∧
      lib' =
        { lib with
          listPic := lib.listPic.modify i (fillFor slice rpl lostPoc refPicIndex)
          prevTid0POC :=
            (lib.xUpdatePreviousTid0POC { object with poc := lostPoc - 1 }).prevTid0POC
          pocRandomAccess :=
            if lib.pocRandomAccess = Dec.maxInt then lostPoc - 1 else lib.pocRandomAccess } := by
  unfold DecLib.insertMissing at inserted
  cases pilot : lib.pilotPic with
  | none =>
      rw [pilot] at inserted
      cases inserted
  | some layerId =>
      rw [pilot] at inserted
      have filled : lib.fillPicture (lostPoc - 1) layerId
          (fillFor slice rpl lostPoc refPicIndex) = .ok (lib', i) := by
        have unavailable : (slice.nalUnitType.isCraOrGdr = true ∧
            slice.noIncorrectPicOutputFlag = true) ↔ slice.refsUnavailable = true := by
          rw [Slice.refsUnavailable, Bool.and_eq_true]
        simp only [unavailable] at inserted
        unfold fillFor
        split at inserted
        · rwa [if_pos ‹_›]
        · rwa [if_neg ‹_›]
      obtain ⟨full, first, pic, object, rest, here, slices, same, rfl⟩ := fillPicture_ok filled
      refine ⟨pic, object, rest, ⟨by simp [pilot], full, first, here, by simp [slices], same⟩,
        slices, ?_⟩
      have again : lib.listPic.modify i
          (fillFor slice rpl lostPoc refPicIndex ∘ .takeAgain lib.first.format layerId) =
          lib.listPic.modify i (fillFor slice rpl lostPoc refPicIndex) := by
        apply modify_congr
        intro pic' here'
        obtain rfl := Option.some.inj (here.symm.trans here')
        exact fillFor_takeAgain slice rpl lostPoc refPicIndex layerId same
      rw [writeFill_eq, List.modify_modify_eq, again]
      simp only [DecLib.xUpdatePreviousTid0POC]
      split <;> simp [pilot]

/-- After the check the same pictures are free. -/
def checked (lib : DecLib) : DecLib :=
  { lib with listPic := (checkThatAllRefPicsAreAvailable slice rpl lib.listPic).2.2 }

/-- What the check reports: the missing POC, or a number that ends the loop. -/
def reported (listPic : List Picture) : Int :=
  (checkThatAllRefPicsAreAvailable slice rpl listPic).1

/-- The entry it reports. -/
def reportedEntry (listPic : List Picture) : Nat :=
  (checkThatAllRefPicsAreAvailable slice rpl listPic).2.1

theorem insertLoop_succ (fuel : Nat) (lib : DecLib) :
    DecLib.insertLoop slice rpl (fuel + 1) lib =
      if reported slice rpl lib.listPic > 0 then
        match (checked slice rpl lib).insertMissing slice rpl (reported slice rpl lib.listPic)
            (reportedEntry slice rpl lib.listPic) with
        | .error e => some (.error e)
        | .ok (next, i) =>
            (DecLib.insertLoop slice rpl fuel next).map fun rest => rest.map fun (fills, last) =>
              (⟨reported slice rpl lib.listPic,
                rpl.isRefPicLongterm (reportedEntry slice rpl lib.listPic),
                next.listPic[i]?⟩ :: fills, last)
      else some (.ok ([], checked slice rpl lib)) := rfl

/-- A pass takes the first of the free pictures. -/
theorem freePics_insertMissing {lib next : DecLib} {lostPoc : Int} {refPicIndex i : Nat}
    (inserted : (checked slice rpl lib).insertMissing slice rpl lostPoc refPicIndex =
      .ok (next, i)) : freePics lib.listPic = i :: freePics next.listPic := by
  obtain ⟨pic, object, objects, refit, -, rfl⟩ := insertMissing_ok slice rpl inserted
  have first := refit.taken
  rw [checked, freePics_check] at first
  obtain ⟨rest, taken⟩ := List.head?_eq_some_iff.mp first
  rw [taken]
  congr 1
  refine (places_modify_first ?_ (isFree_fillFor slice rpl lostPoc refPicIndex)).symm
  rw [checked, ← taken]
  exact freePics_check slice rpl lib.listPic

/-- The loops end: the list runs out of free pictures. -/
theorem insertLoop_terminates {fuel : Nat} {lib : DecLib}
    (enough : (freePics lib.listPic).length < fuel) :
    ∃ result, DecLib.insertLoop slice rpl fuel lib = some result := by
  induction fuel generalizing lib with
  | zero => cases enough
  | succ fuel ih =>
      rw [insertLoop_succ]
      split
      · cases inserted : (checked slice rpl lib).insertMissing slice rpl
            (reported slice rpl lib.listPic) (reportedEntry slice rpl lib.listPic) with
        | error e => exact ⟨.error e, rfl⟩
        | ok got =>
            have fewer := congrArg List.length (freePics_insertMissing slice rpl inserted)
            rw [List.length_cons] at fewer
            have enough' : (freePics got.1.listPic).length < fuel := by omega
            obtain ⟨result, ends⟩ := ih enough'
            exact ⟨_, by simp only [ends, Option.map_some]; rfl⟩
      · exact ⟨_, rfl⟩

theorem insertLoop_mono {fuel more : Nat} {lib : DecLib}
    {result : Except String (List Fill × DecLib)}
    (ends : DecLib.insertLoop slice rpl fuel lib = some result) (le : fuel ≤ more) :
    DecLib.insertLoop slice rpl more lib = some result := by
  induction fuel generalizing lib more result with
  | zero => cases ends
  | succ fuel ih =>
      obtain ⟨more, rfl⟩ : ∃ m, more = m + 1 := ⟨more - 1, by omega⟩
      rw [insertLoop_succ] at ends ⊢
      split at ends
      · rename_i missing
        rw [if_pos missing]
        cases inserted : (checked slice rpl lib).insertMissing slice rpl
            (reported slice rpl lib.listPic) (reportedEntry slice rpl lib.listPic) with
        | error e => rwa [inserted] at ends
        | ok got =>
            rw [inserted] at ends
            obtain ⟨rest, before, rfl⟩ := Option.map_eq_some_iff.mp ends
            exact Option.map_eq_some_iff.mpr ⟨rest, ih before (by omega), rfl⟩
      · rename_i complete
        rw [if_neg complete]
        exact ends

end Loop

/-- What a loop does, when it ends without an exception. -/
def Ends (slice : Slice) (rpl : ReferencePictureList) (lib : DecLib) (fills : List Fill)
    (last : DecLib) : Prop :=
  ∃ fuel, DecLib.insertLoop slice rpl fuel lib = some (.ok (fills, last))

/-- One pass of a loop. -/
theorem ends_iff {slice : Slice} {rpl : ReferencePictureList} {lib : DecLib} {fills : List Fill}
    {last : DecLib} :
    Ends slice rpl lib fills last ↔
      if reported slice rpl lib.listPic > 0 then
        ∃ next i rest, (checked slice rpl lib).insertMissing slice rpl
            (reported slice rpl lib.listPic) (reportedEntry slice rpl lib.listPic) =
              .ok (next, i) ∧
          Ends slice rpl next rest last ∧
          fills = ⟨reported slice rpl lib.listPic,
            rpl.isRefPicLongterm (reportedEntry slice rpl lib.listPic), next.listPic[i]?⟩ :: rest
      else fills = [] ∧ last = checked slice rpl lib := by
  constructor
  · rintro ⟨fuel, ends⟩
    cases fuel with
    | zero => cases ends
    | succ fuel =>
        rw [insertLoop_succ] at ends
        split at ends
        · rename_i missing
          rw [if_pos missing]
          cases inserted : (checked slice rpl lib).insertMissing slice rpl
              (reported slice rpl lib.listPic) (reportedEntry slice rpl lib.listPic) with
          | error e =>
              rw [inserted] at ends
              cases ends
          | ok got =>
              rw [inserted] at ends
              obtain ⟨behind, run, same⟩ := Option.map_eq_some_iff.mp ends
              cases behind with
              | error e => cases same
              | ok behind =>
                  obtain ⟨rfl, rfl⟩ := Prod.mk.inj (Except.ok.inj same)
                  exact ⟨got.1, got.2, behind.1, rfl, ⟨fuel, run⟩, rfl⟩
        · rename_i complete
          rw [if_neg complete]
          obtain ⟨rfl, rfl⟩ := Prod.mk.inj (Except.ok.inj (Option.some.inj ends))
          exact ⟨rfl, rfl⟩
  · intro ends
    split at ends
    · rename_i missing
      obtain ⟨next, i, rest, inserted, ⟨fuel, ends⟩, rfl⟩ := ends
      refine ⟨fuel + 1, ?_⟩
      rw [insertLoop_succ, if_pos missing, inserted]
      simp only [ends, Option.map_some]
      rfl
    · rename_i complete
      obtain ⟨rfl, rfl⟩ := ends
      exact ⟨1, by rw [insertLoop_succ, if_neg complete]⟩

/-- What a loop leaves of the free pictures. -/
theorem Ends.freePics_suffix {slice : Slice} {rpl : ReferencePictureList} {lib last : DecLib}
    {fills : List Fill} (ends : Ends slice rpl lib fills last) :
    freePics last.listPic <:+ freePics lib.listPic := by
  induction fills generalizing lib with
  | nil =>
      rw [ends_iff] at ends
      split at ends
      · obtain ⟨_, _, _, _, _, wrong⟩ := ends
        cases wrong
      · have kept : freePics last.listPic = freePics lib.listPic := by
          rw [ends.2, checked, freePics_check]
        exact kept ▸ List.suffix_rfl
  | cons fill fills ih =>
      rw [ends_iff] at ends
      split at ends
      · obtain ⟨next, i, rest, inserted, ends, same⟩ := ends
        rw [freePics_insertMissing slice rpl inserted]
        obtain ⟨-, rfl⟩ := List.cons_eq_cons.mp same
        exact (ih ends).trans (List.suffix_cons i _)
      · cases ends.1

/-- The states in which a loop tests its condition. -/
inductive InLoop (slice : Slice) (rpl : ReferencePictureList) (start : DecLib) : DecLib → Prop
  | start : InLoop slice rpl start start
  | pass {lib next : DecLib} {i : Nat} (before : InLoop slice rpl start lib)
      (missing : reported slice rpl lib.listPic > 0)
      (inserted : (checked slice rpl lib).insertMissing slice rpl (reported slice rpl lib.listPic)
        (reportedEntry slice rpl lib.listPic) = .ok (next, i)) :
      InLoop slice rpl start next

theorem InLoop.trans {slice : Slice} {rpl : ReferencePictureList} {first second third : DecLib}
    (left : InLoop slice rpl first second) (right : InLoop slice rpl second third) :
    InLoop slice rpl first third := by
  induction right with
  | start => exact left
  | pass _ missing inserted ih => exact .pass ih missing inserted

/-- A loop ends behind a test. -/
theorem Ends.inLoop {slice : Slice} {rpl : ReferencePictureList} {lib last : DecLib}
    {fills : List Fill} (ends : Ends slice rpl lib fills last) :
    ∃ tested, InLoop slice rpl lib tested ∧ last = checked slice rpl tested := by
  induction fills generalizing lib with
  | nil =>
      rw [ends_iff] at ends
      split at ends
      · obtain ⟨_, _, _, _, _, wrong⟩ := ends
        cases wrong
      · exact ⟨lib, .start, ends.2⟩
  | cons fill fills ih =>
      rw [ends_iff] at ends
      split at ends
      · rename_i missing
        obtain ⟨next, i, rest, inserted, ends, same⟩ := ends
        obtain ⟨-, rfl⟩ := List.cons_eq_cons.mp same
        obtain ⟨tested, reached, rfl⟩ := ih ends
        exact ⟨tested, (InLoop.pass .start missing inserted).trans reached, rfl⟩
      · cases ends.1

/-- What checks and passes preserve holds in the whole loop. -/
theorem InLoop.preserves {slice : Slice} {rpl : ReferencePictureList} {P : DecLib → Prop}
    (check : ∀ lib, P lib → P (checked slice rpl lib))
    (pass : ∀ lib lostPoc refPicIndex next i, P lib →
      lib.insertMissing slice rpl lostPoc refPicIndex = .ok (next, i) → P next)
    {start lib : DecLib} (reached : InLoop slice rpl start lib) (holds : P start) : P lib := by
  induction reached with
  | start => exact holds
  | pass _ _ inserted ih => exact pass _ _ _ _ _ (check _ ih) inserted

theorem insertLost_ok_iff {slice : Slice} {lib last : DecLib} {fills : List Fill} :
    (∃ fuel, lib.insertLost slice fuel = some (.ok (fills, last))) ↔
      ∃ fills₀ fills₁ middle, Ends slice (slice.rpl .REF_PIC_LIST_0) lib fills₀ middle ∧
        Ends slice (slice.rpl .REF_PIC_LIST_1) middle fills₁ last ∧ fills = fills₀ ++ fills₁ := by
  constructor
  · rintro ⟨fuel, run⟩
    rw [DecLib.insertLost] at run
    split at run
    · cases run
    · cases run
    · rename_i fills₀ middle first
      obtain ⟨rest, second, same⟩ := Option.map_eq_some_iff.mp run
      cases rest with
      | error e => cases same
      | ok rest =>
          obtain ⟨rfl, rfl⟩ := Prod.mk.inj (Except.ok.inj same)
          exact ⟨fills₀, rest.1, middle, ⟨fuel, first⟩, ⟨fuel, second⟩, rfl⟩
  · rintro ⟨fills₀, fills₁, middle, ⟨fuel₀, first⟩, ⟨fuel₁, second⟩, rfl⟩
    refine ⟨max fuel₀ fuel₁, ?_⟩
    rw [DecLib.insertLost, insertLoop_mono _ _ first (Nat.le_max_left fuel₀ fuel₁)]
    simp only [insertLoop_mono _ _ second (Nat.le_max_right fuel₀ fuel₁), Option.map_some]
    rfl

/-- As many tests as there are pictures, and one more, are enough for both loops. -/
theorem insertLost_terminates (slice : Slice) (lib : DecLib) :
    ∃ result, lib.insertLost slice (lib.listPic.length + 1) = some result := by
  have some₀ := length_places_le Picture.isFree lib.listPic
  obtain ⟨first, run₀⟩ := insertLoop_terminates slice (slice.rpl .REF_PIC_LIST_0)
    (Nat.lt_succ_of_le some₀)
  rw [DecLib.insertLost, run₀]
  cases first with
  | error e => exact ⟨_, rfl⟩
  | ok first =>
      have fewer := (Ends.freePics_suffix ⟨_, run₀⟩).length_le
      obtain ⟨second, run₁⟩ := insertLoop_terminates slice (slice.rpl .REF_PIC_LIST_1)
        (Nat.lt_succ_of_le (fewer.trans some₀))
      exact ⟨_, by simp only [run₁, Option.map_some]; rfl⟩

end Vtm.LostPics
