import Vtm.Output.WriteOutput

/-!
# The picture buffer

What `DecLib` does to the picture list: a buffer for a new picture, the marking, the
slices of the current picture, and its end. The pictures that wait for output and the
reference pictures are never given away.
-/

namespace Vtm.Dec

section Lists

theorem updatePic_of_ne {buffer : Nat} {f : Picture → Picture} {listPic : List Picture}
    (other : ∀ pic ∈ listPic, pic.buffer ≠ buffer) : updatePic buffer f listPic = listPic := by
  rw [updatePic]
  refine (List.map_congr_left fun pic here => ?_).trans (List.map_id _)
  rw [if_neg (other pic here), id]

/-- A write through a pointer changes the one picture it points to. -/
theorem updatePic_append {front rest : List Picture} {pic : Picture} (f : Picture → Picture)
    (apart : ((front ++ pic :: rest).map (·.buffer)).Nodup) :
    updatePic pic.buffer f (front ++ pic :: rest) = front ++ f pic :: rest := by
  rw [List.map_append, List.map_cons, List.nodup_append, List.nodup_cons] at apart
  obtain ⟨-, ⟨notInRest, -⟩, notInFront⟩ := apart
  have others : ∀ p ∈ front, p.buffer ≠ pic.buffer := fun p here =>
    notInFront p.buffer (List.mem_map_of_mem here) pic.buffer List.mem_cons_self
  have behind : ∀ p ∈ rest, p.buffer ≠ pic.buffer := fun p here same =>
    notInRest (same ▸ List.mem_map_of_mem here)
  calc updatePic pic.buffer f (front ++ pic :: rest)
      = updatePic pic.buffer f front ++ f pic :: updatePic pic.buffer f rest := by
        simp [updatePic]
    _ = front ++ f pic :: rest := by rw [updatePic_of_ne others, updatePic_of_ne behind]

theorem sortPicList_perm (listPic : List Picture) : (sortPicList listPic).Perm listPic :=
  Std.sortBy_perm _ _

theorem sortPicList_sorted (listPic : List Picture) :
    (sortPicList listPic).Pairwise fun p q => p.poc ≤ q.poc :=
  Std.sortBy_sorted _ _

end Lists

section Marking

variable (nalu : Nalu) (poc : Int) (pic : Picture)

@[simp] theorem markPic_buffer : (DecLib.markPic nalu poc pic).buffer = pic.buffer := by
  unfold DecLib.markPic
  split <;> rfl

@[simp] theorem markPic_poc : (DecLib.markPic nalu poc pic).poc = pic.poc := by
  unfold DecLib.markPic
  split <;> rfl

@[simp] theorem markPic_neededForOutput :
    (DecLib.markPic nalu poc pic).neededForOutput = pic.neededForOutput := by
  unfold DecLib.markPic
  split <;> rfl

@[simp] theorem markPic_reconstructed :
    (DecLib.markPic nalu poc pic).reconstructed = pic.reconstructed := by
  unfold DecLib.markPic
  split <;> rfl

@[simp] theorem markPic_sps : (DecLib.markPic nalu poc pic).sps = pic.sps := by
  unfold DecLib.markPic
  split <;> rfl

@[simp] theorem markPic_frame : (DecLib.markPic nalu poc pic).frame = pic.frame := by
  unfold DecLib.markPic
  split <;> rfl

/-- What stays marked is named by the slice. -/
theorem markPic_referenced_iff : (DecLib.markPic nalu poc pic).referenced ↔
    pic.referenced ∧ (pic.poc = poc ∨ nalu.nalUnitType.isIDR = false ∧
      pic.poc ∈ nalu.slice.refPocs) := by
  unfold DecLib.markPic
  split
  next dropped =>
    obtain ⟨-, other, why⟩ := dropped
    simp only [Bool.false_eq_true, false_iff, not_and]
    rintro - (same | ⟨notIdr, listed⟩)
    · exact other same
    · rcases why with idr | missing
      · simp [notIdr] at idr
      · exact missing listed
  next stays =>
    refine ⟨fun referenced => ⟨referenced, ?_⟩, fun both => both.1⟩
    by_contra neither
    rw [not_or, not_and, Bool.eq_false_iff] at neither
    refine stays ⟨referenced, neither.1, ?_⟩
    by_cases idr : nalu.nalUnitType.isIDR = true
    · exact .inl idr
    · exact .inr (neither.2 idr)

@[simp] theorem map_buffer_markPic (listPic : List Picture) :
    listPic.map ((·.buffer) ∘ DecLib.markPic nalu poc) = listPic.map (·.buffer) :=
  List.map_congr_left fun pic _ => markPic_buffer nalu poc pic

@[simp] theorem map_poc_markPic (listPic : List Picture) :
    listPic.map ((·.poc) ∘ DecLib.markPic nalu poc) = listPic.map (·.poc) :=
  List.map_congr_left fun pic _ => markPic_poc nalu poc pic

@[simp] theorem waitingFrames_map_markPic (listPic : List Picture) :
    waitingFrames (listPic.map (DecLib.markPic nalu poc)) = waitingFrames listPic := by
  induction listPic with
  | nil => rfl
  | cons pic rest ih => simp [waitingFrames_cons, ih]

end Marking

namespace DecLib

/-- `xGetNewPicBuffer` takes a free buffer out of the list or makes a new one. -/
theorem xGetNewPicBuffer_spec {lib : DecLib} (sps : SPS) (temporalLayer : Nat)
    (buffers : (lib.listPic.map (·.buffer)).Nodup)
    (allocated : ∀ pic ∈ lib.listPic, pic.buffer < lib.nextBuffer) :
    ∃ front taken rest pic nextBuffer, lib.listPic = front ++ taken ++ rest ∧
      (∀ p ∈ taken, isFree p) ∧
      lib.xGetNewPicBuffer sps temporalLayer =
        ({ lib with listPic := front ++ pic :: rest, nextBuffer }, pic.buffer) ∧
      pic.neededForOutput = false ∧ pic.reconstructed = false ∧
      ((front ++ pic :: rest).map (·.buffer)).Nodup ∧
      (∀ p ∈ front ++ pic :: rest, p.buffer < nextBuffer) := by
  have pushed : ∃ front taken rest pic nextBuffer, lib.listPic = front ++ taken ++ rest ∧
      (∀ p ∈ taken, isFree p) ∧
      lib.pushPic sps =
        ({ lib with listPic := front ++ pic :: rest, nextBuffer }, pic.buffer) ∧
      pic.neededForOutput = false ∧ pic.reconstructed = false ∧
      ((front ++ pic :: rest).map (·.buffer)).Nodup ∧
      (∀ p ∈ front ++ pic :: rest, p.buffer < nextBuffer) := by
    refine ⟨lib.listPic, [], [], ⟨lib.nextBuffer, 0, false, false, false, sps, []⟩,
      lib.nextBuffer + 1, by simp, by simp, rfl, rfl, rfl, ?_, ?_⟩
    · rw [List.map_append, List.nodup_append]
      refine ⟨buffers, List.nodup_singleton _, ?_⟩
      intro b old b' new
      obtain ⟨p, here, rfl⟩ := List.mem_map.mp old
      rw [List.mem_singleton.mp new]
      exact (allocated p here).ne
    · intro p inside
      rcases List.mem_append.mp inside with old | new
      · exact (allocated p old).trans (Nat.lt_succ_self _)
      · rw [List.mem_singleton.mp new]
        exact Nat.lt_succ_self _
  rw [xGetNewPicBuffer]
  split
  · exact pushed
  split
  next old found =>
    obtain ⟨free, front, rest, split, -⟩ := List.find?_eq_some_iff_append.mp found
    have apart : ((front ++ old :: rest).map (·.buffer)).Nodup := split ▸ buffers
    refine ⟨front, [old], rest, { old with neededForOutput := false, reconstructed := false },
      lib.nextBuffer, by simp [split], by simpa using free, ?_, rfl, rfl, by simpa using apart, ?_⟩
    · rw [split, updatePic_append _ apart]
    · intro p inside
      simp only [List.mem_append, List.mem_cons] at inside
      rcases inside with here | rfl | here
      · exact allocated p (by simp [split, here])
      · exact allocated old (by simp [split])
      · exact allocated p (by simp [split, here])
  next => exact pushed

/-- The current picture after its first slice. -/
def startedPic (buffer : Nat) (nalu : Nalu) (poc : Int) : Picture :=
  ⟨buffer, poc, true, false, false, nalu.slice.sps, [nalu]⟩

/-- The first slice of a picture: the picture list with the current picture in it. -/
theorem startPicture_spec {lib : DecLib} (nalu : Nalu) (poc : Int)
    (buffers : (lib.listPic.map (·.buffer)).Nodup)
    (allocated : ∀ pic ∈ lib.listPic, pic.buffer < lib.nextBuffer) :
    ∃ front taken rest buffer nextBuffer, lib.listPic = front ++ taken ++ rest ∧
      (∀ p ∈ taken, isFree p) ∧
      (lib.xActivateParameterSets nalu poc).decompressSlice nalu poc =
        { lib with
          listPic := front.map (markPic nalu poc) ++
            startedPic buffer nalu poc :: rest.map (markPic nalu poc)
          nextBuffer
          pcPic := some buffer
          prevPOC := poc
          firstSliceInSequence := false
          firstSliceInBitstream := false
          firstSliceInPicture := false } ∧
      ((front.map (markPic nalu poc) ++
          startedPic buffer nalu poc :: rest.map (markPic nalu poc)).map (·.buffer)).Nodup ∧
      ∀ p ∈ front.map (markPic nalu poc) ++
          startedPic buffer nalu poc :: rest.map (markPic nalu poc), p.buffer < nextBuffer := by
  obtain ⟨front, taken, rest, pic, nextBuffer, split, free, got, idle, fresh, apart, below⟩ :=
    xGetNewPicBuffer_spec nalu.slice.sps nalu.temporalId buffers allocated
  have names : (front.map (markPic nalu poc) ++
      startedPic pic.buffer nalu poc :: rest.map (markPic nalu poc)).map (·.buffer) =
        (front ++ pic :: rest).map (·.buffer) := by
    simp [startedPic]
  have marked (p : Picture) (same : p.buffer = pic.buffer) :
      ((front.map (markPic nalu poc) ++ p :: rest.map (markPic nalu poc)).map
        (·.buffer)).Nodup := by
    simpa [same] using apart
  refine ⟨front, taken, rest, pic.buffer, nextBuffer, split, free, ?_, names ▸ apart, ?_⟩
  · have first := updatePic_append (fun p => { p with sps := nalu.slice.sps, slices := [] })
      (marked (markPic nalu poc pic) (markPic_buffer nalu poc pic))
    have second := updatePic_append
      (fun p => { p with poc, referenced := true, slices := p.slices ++ [nalu] })
      (marked { markPic nalu poc pic with sps := nalu.slice.sps, slices := [] }
        (markPic_buffer nalu poc pic))
    simp only [markPic_buffer] at first second
    simp only [xActivateParameterSets, got, decompressSlice, List.map_append, List.map_cons,
      first, second]
    simp [startedPic, idle, fresh]
  · intro p inside
    have member : p.buffer ∈ (front ++ pic :: rest).map (·.buffer) :=
      names ▸ List.mem_map_of_mem inside
    obtain ⟨q, here, same⟩ := List.mem_map.mp member
    rw [← same]
    exact below q here

end DecLib

end Vtm.Dec
