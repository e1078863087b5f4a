import Vtm.Decoder.LostSlices
import Vtm.LostPics.Insert

/-!
# Pictures in use

`xGetNewPicBuffer` tells a free picture by its flags. `Settled` is what all runs of the
decoder keep of them: only the picture that is being decoded is a reference picture that
is not reconstructed. `taken_not_inUse` follows, up to that picture.
-/

namespace Vtm.LostPics

open Vtm.RefPics Vtm.Std

/-- A picture whose slices are being decoded. -/
def DecLib.isDecoding (lib : DecLib) (buffer : Nat) : Prop :=
  lib.firstSliceInPicture = false ∧ lib.pcPic = some buffer

/-- The flags of the pictures between two steps. -/
structure Settled (lib : DecLib) : Prop where
  output : ∀ pic ∈ lib.listPic, pic.neededForOutput → pic.reconstructed
  unfinished : ∀ pic ∈ lib.listPic, pic.referenced → pic.reconstructed = false →
    lib.firstSliceInSequence = false ∧ lib.isDecoding pic.buffer

/-- A change that puts no picture into use. -/
structure Quieter (pic pic' : Picture) : Prop where
  buffer : pic'.buffer = pic.buffer
  referenced : pic'.referenced → pic.referenced
  output : pic'.neededForOutput → pic.neededForOutput ∧ pic'.reconstructed = pic.reconstructed
  unfinished : pic'.referenced → pic'.reconstructed = false → pic.reconstructed = false

theorem Quieter.refl (pic : Picture) : Quieter pic pic :=
  ⟨rfl, id, fun needed => ⟨needed, rfl⟩, fun _ => id⟩

/-- Pictures that are reconstructed or have only been put out of use are settled. -/
theorem Settled.change {lib lib' : DecLib} (settled : Settled lib)
    (pics : ∀ pic' ∈ lib'.listPic, pic'.reconstructed ∨ ∃ pic ∈ lib.listPic, Quieter pic pic')
    (inSequence : lib'.firstSliceInSequence = lib.firstSliceInSequence)
    (inPicture : lib'.firstSliceInPicture = lib.firstSliceInPicture)
    (pcPic : lib'.pcPic = lib.pcPic) : Settled lib' := by
  constructor
  · intro pic' member needed
    rcases pics pic' member with done | ⟨pic, here, quieter⟩
    · exact done
    · obtain ⟨needed, same⟩ := quieter.output needed
      rw [same]
      exact settled.output pic here needed
  · intro pic' member referenced open'
    rcases pics pic' member with done | ⟨pic, here, quieter⟩
    · rw [done] at open'
      cases open'
    · have kept := settled.unfinished pic here (quieter.referenced referenced)
        (quieter.unfinished referenced open')
      rwa [DecLib.isDecoding, inSequence, inPicture, pcPic, quieter.buffer]

/-- Marks do not matter. -/
theorem exists_quieter_of_unmarked {listPic listPic' : List Picture}
    (same : listPic'.map Picture.unmarked = listPic.map Picture.unmarked) :
    ∀ pic' ∈ listPic', ∃ pic ∈ listPic, Quieter pic pic' := by
  intro pic' member
  have alike : pic'.unmarked ∈ listPic.map Picture.unmarked := same ▸ List.mem_map_of_mem member
  obtain ⟨pic, here, unmarked⟩ := List.mem_map.mp alike
  simp only [Picture.unmarked, Picture.mk.injEq, RefPics.Picture.mk.injEq] at unmarked
  obtain ⟨⟨-, -, referenced, -⟩, buffer, reconstructed, needed, -⟩ := unmarked
  exact ⟨pic, here, buffer.symm, fun h => referenced ▸ h, fun h => ⟨needed ▸ h, reconstructed.symm⟩,
    fun _ h => reconstructed ▸ h⟩

/-- A change of one picture of a list. -/
theorem mem_modify {listPic : List Picture} {i : Nat} {f : Picture → Picture} {pic' : Picture}
    (member : pic' ∈ listPic.modify i f) :
    pic' ∈ listPic ∨ ∃ pic, listPic[i]? = some pic ∧ pic' = f pic := by
  obtain ⟨j, here⟩ := List.mem_iff_getElem?.mp member
  by_cases same : i = j
  · subst same
    rw [List.getElem?_modify_eq] at here
    obtain ⟨pic, there, rfl⟩ := Option.map_eq_some_iff.mp here
    exact Or.inr ⟨pic, there, rfl⟩
  · rw [List.getElem?_modify_ne _ _ same] at here
    exact Or.inl (List.mem_of_getElem? here)

theorem Settled.checked {lib : DecLib} (settled : Settled lib) (slice : Slice)
    (rpl : ReferencePictureList) : Settled (checked slice rpl lib) := by
  refine settled.change ?_ rfl rfl rfl
  intro pic' member
  exact Or.inr (exists_quieter_of_unmarked (unmarked_check slice rpl lib.listPic) pic' member)

theorem reconstructed_fillFor (slice : Slice) (rpl : ReferencePictureList) (lostPoc : Int)
    (refPicIndex : Nat) (pic : Picture) :
    (fillFor slice rpl lostPoc refPicIndex pic).reconstructed = true := by
  unfold fillFor
  split <;> rfl

theorem Settled.insertMissing {lib next : DecLib} {slice : Slice} {rpl : ReferencePictureList}
    {lostPoc : Int} {refPicIndex i : Nat} (settled : Settled lib)
    (inserted : lib.insertMissing slice rpl lostPoc refPicIndex = .ok (next, i)) :
    Settled next := by
  obtain ⟨_, _, _, _, _, rfl⟩ := insertMissing_ok slice rpl inserted
  refine settled.change ?_ rfl rfl rfl
  intro pic' member
  rcases mem_modify member with here | ⟨pic, -, rfl⟩
  · exact Or.inr ⟨pic', here, .refl pic'⟩
  · exact Or.inl (reconstructed_fillFor ..)

/-- A loop keeps the pictures settled. -/
theorem Settled.inLoop {slice : Slice} {rpl : ReferencePictureList} {start lib : DecLib}
    (settled : Settled start) (reached : InLoop slice rpl start lib) : Settled lib :=
  reached.preserves (fun _ here => here.checked slice rpl)
    (fun _ _ _ _ _ here inserted => here.insertMissing inserted) settled

theorem Settled.ends {slice : Slice} {rpl : ReferencePictureList} {lib last : DecLib}
    {fills : List Fill} (settled : Settled lib) (ends : Ends slice rpl lib fills last) :
    Settled last := by
  obtain ⟨tested, reached, rfl⟩ := ends.inLoop
  exact (settled.inLoop reached).checked slice rpl

/-! ## The functions of a slice, by the fields they write -/

section Fields

variable (lib : DecLib) (nalu : Nalu) (poc : Int)

theorem xUpdatePreviousTid0POC_eq (object : SliceObject) :
    lib.xUpdatePreviousTid0POC object =
      { lib with prevTid0POC := (lib.xUpdatePreviousTid0POC object).prevTid0POC } := by
  unfold DecLib.xUpdatePreviousTid0POC
  split <;> rfl

theorem checkNoOutputPriorPics_eq :
    lib.checkNoOutputPriorPics nalu =
      { lib with
        listPic := (lib.checkNoOutputPriorPics nalu).listPic
        isNoOutputPriorPics := (lib.checkNoOutputPriorPics nalu).isNoOutputPriorPics } := by
  unfold DecLib.checkNoOutputPriorPics
  split <;> rfl

theorem resetPOC_eq :
    (lib.resetPOC nalu poc).1 =
      { lib with prevTid0POC := (lib.resetPOC nalu poc).1.prevTid0POC } := by
  unfold DecLib.resetPOC
  split
  · exact xUpdatePreviousTid0POC_eq lib _
  · rfl

theorem startSlice_eq {lib' : DecLib} (started : lib.startSlice nalu = .ok lib') :
    lib' = { lib with pilotPic := lib'.pilotPic } := by
  unfold DecLib.startSlice at started
  split at started
  · cases started
    rfl
  · split at started
    · cases started
    · split at started
      · cases started
      · split at started
        · cases started
        · cases started
          rfl

/-- What a slice leaves alone on its way to the lost reference pictures. -/
theorem readAndSkip_ok {lib : DecLib} {nalu : Nalu} {iSkipFrame : Nat} {read : DecLib.Read}
    (done : lib.readAndSkip nalu iSkipFrame = .ok read) :
    read.lib.listPic = (lib.checkNoOutputPriorPics nalu).listPic ∧
      read.lib.pcPic = lib.pcPic ∧ read.lib.firstSliceInPicture = lib.firstSliceInPicture ∧
      read.lib.firstSliceInSequence = lib.firstSliceInSequence := by
  unfold DecLib.readAndSkip at done
  cases started : lib.startSlice nalu with
  | error e =>
      rw [started] at done
      cases done
  | ok lib' =>
      rw [started, startSlice_eq lib nalu started] at done
      simp only [Except.bind] at done
      split at done
      · cases done
      · cases done
        simp only [DecLib.readSlice]
        rw [resetPOC_eq]
        simp only [DecLib.inferOutput]
        rw [xUpdatePreviousTid0POC_eq, checkNoOutputPriorPics_eq]
        refine ⟨?_, rfl, rfl, rfl⟩
        simp only [DecLib.checkNoOutputPriorPics]
        split <;> rfl

end Fields

/-- Pictures that need not be output are only put out of use. -/
theorem Settled.checkNoOutputPriorPics {lib : DecLib} (settled : Settled lib) (nalu : Nalu) :
    Settled (lib.checkNoOutputPriorPics nalu) := by
  unfold DecLib.checkNoOutputPriorPics
  split
  · refine settled.change ?_ rfl rfl rfl
    intro pic' member
    obtain ⟨pic, here, rfl⟩ := List.mem_map.mp member
    right
    refine ⟨pic, here, ?_⟩
    split
    · exact ⟨rfl, id, nofun, fun _ => id⟩
    · exact .refl pic
  · exact settled

/-- What holds of the pictures when a slice has become one of the current picture. -/
structure Tidy (lib : DecLib) : Prop where
  output : ∀ pic ∈ lib.listPic, pic.neededForOutput → pic.reconstructed
  unfinished : ∀ pic ∈ lib.listPic, pic.referenced → pic.reconstructed = false →
    lib.pcPic = some pic.buffer

theorem Tidy.change {lib lib' : DecLib} (tidy : Tidy lib)
    (pics : ∀ pic' ∈ lib'.listPic, ∃ pic ∈ lib.listPic, Quieter pic pic')
    (pcPic : lib'.pcPic = lib.pcPic) : Tidy lib' := by
  constructor
  · intro pic' member needed
    obtain ⟨pic, here, quieter⟩ := pics pic' member
    obtain ⟨needed, same⟩ := quieter.output needed
    rw [same]
    exact tidy.output pic here needed
  · intro pic' member referenced open'
    obtain ⟨pic, here, quieter⟩ := pics pic' member
    rw [pcPic, quieter.buffer]
    exact tidy.unfinished pic here (quieter.referenced referenced)
      (quieter.unfinished referenced open')

/-- The marking only drops pictures. -/
theorem quieter_markPic (slice : Slice) (pic : Picture) : Quieter pic (markPic slice pic) := by
  unfold markPic
  split
  · exact .refl pic
  · dsimp only
    split
    · exact ⟨rfl, id, fun needed => ⟨needed, rfl⟩, fun _ => id⟩
    · split
      · exact ⟨rfl, nofun, fun needed => ⟨needed, rfl⟩, nofun⟩
      · exact .refl pic

/-- In front of the first slice of a picture, no picture that is free is a reference one. -/
theorem Settled.free_first {lib : DecLib} (settled : Settled lib)
    (first : lib.firstSliceInPicture = true) {pic : Picture} (here : pic ∈ lib.listPic)
    (free : pic.isFree) : pic.referenced = false ∧ pic.neededForOutput = false := by
  simp only [Picture.isFree, Bool.or_eq_true, Bool.and_eq_true, Bool.not_eq_true'] at free
  rcases free with ⟨unfinished, idle⟩ | free
  · refine ⟨?_, idle⟩
    rw [Bool.eq_false_iff]
    intro referenced
    have decoding := (settled.unfinished pic here referenced unfinished).2.1
    rw [first] at decoding
    cases decoding
  · exact free

/-- The list behind `xGetNewPicBuffer` for a new picture. -/
theorem Settled.tidy_getNewPicBuffer {lib : DecLib} (settled : Settled lib)
    (first : lib.firstSliceInPicture = true) (sets : ParameterSets)
    (temporalLayer layerId : Nat) :
    ∀ pic' ∈ (lib.xGetNewPicBuffer sets temporalLayer layerId).1.listPic,
      (pic'.neededForOutput → pic'.reconstructed) ∧
        (pic'.referenced → pic'.reconstructed = true) := by
  have old (pic : Picture) (here : pic ∈ lib.listPic) :
      (pic.neededForOutput → pic.reconstructed) ∧
        (pic.referenced → pic.reconstructed = true) := by
    refine ⟨settled.output pic here, fun referenced => ?_⟩
    by_contra open'
    have decoding := (settled.unfinished pic here referenced (by simpa using open')).2.1
    rw [first] at decoding
    cases decoding
  obtain ⟨got, -⟩ | ⟨i, pic, -, -, here, free, got⟩ :=
    xGetNewPicBuffer_cases lib sets temporalLayer layerId
  · rw [got]
    intro pic' member
    rcases List.mem_append.mp member with here | here
    · exact old pic' here
    · obtain rfl := List.mem_singleton.mp here
      exact ⟨nofun, nofun⟩
  · rw [got]
    intro pic' member
    rcases mem_modify member with here' | ⟨taken, there, rfl⟩
    · exact old pic' here'
    · obtain rfl := Option.some.inj (here.symm.trans there)
      have unused := (settled.free_first first (List.mem_of_getElem? here) free).1
      unfold Picture.takeAgain
      split
      · exact ⟨nofun, fun referenced => absurd referenced (by simp [unused])⟩
      · exact ⟨nofun, fun referenced => absurd referenced (by simp [unused])⟩

theorem Settled.tidy_activateFirst {lib : DecLib} (settled : Settled lib)
    (first : lib.firstSliceInPicture = true) (nalu : Nalu) (slice : Slice) :
    Tidy (lib.activateFirst nalu slice) := by
  have got := settled.tidy_getNewPicBuffer first nalu.slice.sets nalu.temporalId nalu.nuhLayerId
  have marks : ∀ pic' ∈ (lib.activateFirst nalu slice).listPic,
      (pic'.neededForOutput → pic'.reconstructed) ∧
        (pic'.referenced → pic'.reconstructed = true) := by
    have marked (pic' : Picture) (member : pic' ∈ (lib.xGetNewPicBuffer nalu.slice.sets
        nalu.temporalId nalu.nuhLayerId).1.listPic.map (markPic slice)) :
        (pic'.neededForOutput → pic'.reconstructed) ∧
          (pic'.referenced → pic'.reconstructed = true) := by
      obtain ⟨pic, here, rfl⟩ := List.mem_map.mp member
      obtain ⟨output, reference⟩ := got pic here
      have quieter := quieter_markPic slice pic
      constructor
      · intro needed
        obtain ⟨needed, same⟩ := quieter.output needed
        rw [same]
        exact output needed
      · intro referenced
        by_contra open'
        rw [Bool.not_eq_true] at open'
        have still := reference (quieter.referenced referenced)
        rw [quieter.unfinished referenced open'] at still
        cases still
    intro pic' member
    rcases mem_modify member with here | ⟨pic, there, rfl⟩
    · exact marked pic' here
    · exact marked pic (List.mem_of_getElem? there)
  constructor
  · exact fun pic' member => (marks pic' member).1
  · intro pic' member referenced open'
    rw [(marks pic' member).2 referenced] at open'
    cases open'

theorem mem_updatePic {buffer : Nat} {f : Picture → Picture} {listPic : List Picture}
    {pic' : Picture} (member : pic' ∈ updatePic buffer f listPic) :
    (pic' ∈ listPic ∧ pic'.buffer ≠ buffer) ∨
      ∃ pic ∈ listPic, pic.buffer = buffer ∧ pic' = f pic := by
  obtain ⟨pic, here, rfl⟩ := List.mem_map.mp member
  split
  · exact Or.inr ⟨pic, here, ‹_›, rfl⟩
  · exact Or.inl ⟨here, ‹_›⟩

theorem Settled.tidy_activateNext {lib : DecLib} (settled : Settled lib) (nalu : Nalu)
    (slice : Slice) : Tidy (lib.activateNext nalu slice) := by
  have tidy : Tidy lib :=
    ⟨settled.output, fun pic here referenced open' =>
      (settled.unfinished pic here referenced open').2.2⟩
  unfold DecLib.activateNext
  split
  · exact tidy
  · refine tidy.change ?_ rfl
    intro pic' member
    obtain ⟨here, -⟩ | ⟨pic, here, -, rfl⟩ := mem_updatePic member
    · exact ⟨pic', here, .refl pic'⟩
    · exact ⟨pic, here, rfl, id, fun needed => ⟨needed, rfl⟩, fun _ => id⟩

theorem Tidy.setCurrent {lib : DecLib} (tidy : Tidy lib) (nalu : Nalu) (poc : Int) :
    Tidy (lib.setCurrent nalu poc) := by
  unfold DecLib.setCurrent
  split
  · exact tidy
  · rename_i buffer current
    constructor
    · intro pic' member needed
      obtain ⟨here, -⟩ | ⟨pic, here, -, rfl⟩ := mem_updatePic member
      · exact tidy.output pic' here needed
      · exact tidy.output pic here needed
    · intro pic' member referenced open'
      obtain ⟨here, -⟩ | ⟨pic, here, same, rfl⟩ := mem_updatePic member
      · exact tidy.unfinished pic' here referenced open'
      · rw [same]
        exact current

/-- `constructRefPicList` only sets marks. -/
theorem constructRefPicList_same {slice : RefPics.Slice} {dpb final : List RefPics.Picture}
    {lists : List (Nat × Bool) × List (Nat × Bool)}
    (built : RefPics.constructRefPicList slice dpb = .ok (lists, final)) : SamePics dpb final := by
  unfold RefPics.constructRefPicList at built
  split at built
  · cases built
    rfl
  · rw [bind_eq_ok_iff] at built
    obtain ⟨⟨list0, middle⟩, first, built⟩ := built
    simp only [bind_eq_ok_iff] at built
    obtain ⟨⟨list1, last⟩, second, built⟩ := built
    cases built
    exact (constructEntries_same slice _ _ first).trans (constructEntries_same slice _ _ second)

theorem Tidy.constructRefPicList {lib lib' : DecLib} (tidy : Tidy lib) {slice : Slice}
    (done : lib.constructRefPicList slice = .ok lib') : Tidy lib' := by
  obtain ⟨⟨lists, dpb⟩, built, rfl⟩ := map_eq_ok_iff.mp done
  exact tidy.change (exists_quieter_of_unmarked
    (unmarked_zipWith (constructRefPicList_same built))) rfl

theorem Settled.decompressSlice {lib lib' : DecLib} (settled : Settled lib) {nalu : Nalu}
    {slice : Slice} (done : lib.decompressSlice nalu slice = .ok lib') : Settled lib' := by
  have tidy : Tidy (DecLib.setCurrent (if lib.firstSliceInPicture then
      DecLib.activateFirst { lib with prevPOC := slice.poc } nalu slice
      else DecLib.activateNext { lib with prevPOC := slice.poc } nalu slice) nalu slice.poc) := by
    have settled' : Settled { lib with prevPOC := slice.poc } :=
      ⟨settled.output, settled.unfinished⟩
    apply Tidy.setCurrent
    split
    · exact settled'.tidy_activateFirst ‹_› nalu slice
    · exact settled'.tidy_activateNext nalu slice
  obtain ⟨last, constructed, rfl⟩ := map_eq_ok_iff.mp done
  have tidy := tidy.constructRefPicList constructed
  exact ⟨tidy.output, fun pic here referenced open' =>
    ⟨rfl, rfl, tidy.unfinished pic here referenced open'⟩⟩

/-- The loops end with a test of each. -/
theorem insertLostRefs_ok {lib last : DecLib} {slice : Slice}
    (done : lib.insertLostRefs slice = .ok last) :
    ∃ fills₀ fills₁ middle, Ends slice (slice.rpl .REF_PIC_LIST_0) lib fills₀ middle ∧
      Ends slice (slice.rpl .REF_PIC_LIST_1) middle fills₁ last := by
  unfold DecLib.insertLostRefs at done
  split at done
  · cases done
  · cases done
  · rename_i fills final run
    cases done
    obtain ⟨fills₀, fills₁, middle, first, second, -⟩ := insertLost_ok_iff.mp ⟨_, run⟩
    exact ⟨fills₀, fills₁, middle, first, second⟩

theorem Settled.readAndSkip {lib : DecLib} {read : DecLib.Read} (settled : Settled lib)
    {nalu : Nalu} {iSkipFrame : Nat} (front : lib.readAndSkip nalu iSkipFrame = .ok read) :
    Settled read.lib := by
  obtain ⟨listPic, pcPic, inPicture, inSequence⟩ := readAndSkip_ok front
  refine (settled.checkNoOutputPriorPics nalu).change ?_ ?_ ?_ ?_
  · intro pic' member
    rw [listPic] at member
    exact Or.inr ⟨pic', member, .refl pic'⟩
  · rw [inSequence, checkNoOutputPriorPics_eq]
  · rw [inPicture, checkNoOutputPriorPics_eq]
  · rw [pcPic, checkNoOutputPriorPics_eq]

theorem Settled.xDecodeSlice {lib lib' : DecLib} (settled : Settled lib) {nalu : Nalu}
    {iSkipFrame left : Nat} (done : lib.xDecodeSlice nalu iSkipFrame = .ok (lib', left)) :
    Settled lib' := by
  unfold DecLib.xDecodeSlice at done
  split at done
  · cases done
    exact settled
  · obtain ⟨read, front, rest⟩ := bind_eq_ok_iff.mp done
    obtain ⟨last, decoded, same⟩ := map_eq_ok_iff.mp rest
    cases same
    have before := settled.readAndSkip front
    unfold DecLib.decodeRead at decoded
    split at decoded
    · cases decoded
      exact before
    · split at decoded
      · cases decoded
        exact ⟨before.output, before.unfinished⟩
      · obtain ⟨filled, inserted, decompressed⟩ := bind_eq_ok_iff.mp decoded
        obtain ⟨_, _, middle, first, second⟩ := insertLostRefs_ok inserted
        exact ((before.ends first).ends second).decompressSlice decompressed

theorem Settled.decode {lib lib' : DecLib} (settled : Settled lib) {nalu : Nalu}
    {iSkipFrame left : Nat} (done : lib.decode nalu iSkipFrame = .ok (lib', left)) :
    Settled lib' := by
  unfold DecLib.decode at done
  split at done
  · exact settled.xDecodeSlice done
  · split at done <;> cases done <;> exact ⟨settled.output, settled.unfinished⟩

/-- Behind a finished picture no picture is unfinished. -/
theorem Settled.finishPicture {lib : DecLib} (settled : Settled lib) :
    ∀ pic' ∈ lib.finishPicture.listPic, (pic'.neededForOutput → pic'.reconstructed) ∧
      (pic'.referenced → pic'.reconstructed = true) := by
  intro pic' member
  have here := (sortBy_perm _ _).subset member
  -- a picture that is not the one finished is reconstructed, if it is a reference picture
  have other (kept : pic' ∈ lib.listPic) (apart : lib.pcPic ≠ some pic'.buffer) :
      (pic'.neededForOutput → pic'.reconstructed) ∧
        (pic'.referenced → pic'.reconstructed = true) := by
    refine ⟨settled.output pic' kept, fun referenced => ?_⟩
    by_contra open'
    exact apart (settled.unfinished pic' kept referenced (by simpa using open')).2.2
  cases current : lib.pcPic with
  | none =>
      rw [current] at here
      exact other here (by simp [current])
  | some buffer =>
      rw [current] at here
      obtain ⟨kept, apart⟩ | ⟨pic, -, -, rfl⟩ := mem_updatePic here
      · exact other kept fun same => apart (Option.some.inj (current.symm.trans same)).symm
      · exact ⟨fun _ => rfl, fun _ => rfl⟩

end Vtm.LostPics
