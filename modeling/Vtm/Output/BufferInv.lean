import Vtm.Output.PictureBuffer

/-!
# The invariant of the picture buffer

`BufferInv` adds to the order of the output what the decoder relies on: the pictures of
the list are distinct objects of one sequence, and every picture that may be used for
reference is there, and complete. The operations of the decoder keep it.
-/

namespace Vtm.Dec

/-- The picture list within a coded video sequence; `current` is the picture that is
being decoded. -/
structure BufferInv (sps : SPS) (current : Option Nat) (finished : List Frame)
    (future marked known : List Int) (lib : DecLib) (last : Int) (written : List Frame) :
    Prop where
  output : OutputInv finished future marked known lib.listPic last written
  buffers : (lib.listPic.map (·.buffer)).Nodup
  allocated : ∀ pic ∈ lib.listPic, pic.buffer < lib.nextBuffer
  sameSps : ∀ pic ∈ lib.listPic, pic.sps = sps
  present : ∀ poc ∈ marked, ∃ pic ∈ lib.listPic, pic.poc = poc ∧ pic.referenced = true
  settled : ∀ pic ∈ lib.listPic, some pic.buffer ≠ current → pic.referenced → pic.reconstructed

namespace BufferInv

variable {sps : SPS} {current : Option Nat} {finished : List Frame}
  {future marked known : List Int} {lib : DecLib} {last : Int} {written : List Frame}

/-- Only the list and the allocator matter. -/
theorem congr (inv : BufferInv sps current finished future marked known lib last written)
    (lib' : DecLib) (list : lib'.listPic = lib.listPic)
    (next : lib'.nextBuffer = lib.nextBuffer) :
    BufferInv sps current finished future marked known lib' last written := by
  obtain ⟨output, buffers, allocated, sameSps, present, settled⟩ := inv
  constructor
  · rwa [list]
  · rwa [list]
  · rwa [list, next]
  · rwa [list]
  · rwa [list]
  · rwa [list]

/-- The empty list in front of a sequence. -/
theorem empty {lib : DecLib} (none : lib.listPic = []) (inRange : ∀ poc ∈ future, -maxInt < poc) :
    BufferInv sps .none [] future [] [] lib (-maxInt) [] where
  output := by
    rw [none]
    exact ⟨.nil, .nil, by simp, inRange, by simp, by simp, .nil, .refl _, by simp, by simp⟩
  buffers := by simp [none]
  allocated := by simp [none]
  sameSps := by simp [none]
  present := by simp
  settled := by simp [none]

/-- The pictures behind the first slice of a picture are the marked old ones and the
new one. -/
theorem mem_startedList {front rest : List Picture} {nalu : Nalu} {poc : Int} {started pic : Picture}
    (inside : pic ∈ front.map (DecLib.markPic nalu poc) ++
      started :: rest.map (DecLib.markPic nalu poc)) :
    pic = started ∨ ∃ p ∈ front ++ rest, pic = DecLib.markPic nalu poc p := by
  simp only [List.mem_append, List.mem_cons, List.mem_map] at inside ⊢
  rcases inside with ⟨p, here, rfl⟩ | rfl | ⟨p, here, rfl⟩
  · exact .inr ⟨p, .inl here, rfl⟩
  · exact .inl rfl
  · exact .inr ⟨p, .inr here, rfl⟩

/-- The first slice of a picture, on the list: a new picture that does not wait yet, in
place of free ones. -/
theorem startOutput {front taken rest : List Picture}
    (inv : OutputInv finished future marked known (front ++ taken ++ rest) last written)
    {nalu : Nalu} {poc : Int} {refs : List Int}
    (lists : refs = if nalu.nalUnitType.isIDR then [] else nalu.slice.refPocs)
    (unwanted : ∀ p ∈ taken, p.neededForOutput = false) (new : poc ∉ known) (buffer : Nat) :
    OutputInv finished future (poc :: refs) (known ++ [poc])
      (front.map (DecLib.markPic nalu poc) ++
        DecLib.startedPic buffer nalu poc :: rest.map (DecLib.markPic nalu poc)) last written := by
  have sub : (front ++ rest).Sublist (front ++ taken ++ rest) :=
    (List.sublist_append_left front taken).append (.refl rest)
  have old {pic : Picture} (here : pic ∈ front ++ rest) : pic ∈ front ++ taken ++ rest :=
    sub.subset here
  have idle : (DecLib.startedPic buffer nalu poc).neededForOutput = false := rfl
  refine ⟨?_, ?_, ?_, inv.ahead, ?_, inv.past, inv.sorted, ?_, ?_, ?_⟩
  · have others : ((front ++ rest).map (·.poc)).Nodup := inv.distinct.sublist (sub.map _)
    have notThere : poc ∉ (front ++ rest).map (·.poc) := by
      intro wrong
      obtain ⟨p, here, same⟩ := List.mem_map.mp wrong
      exact new (same ▸ inv.names p (old here))
    have added : (poc :: (front ++ rest).map (·.poc)).Nodup :=
      List.nodup_cons.mpr ⟨notThere, others⟩
    refine (List.Perm.nodup_iff ?_).mpr added
    simp only [List.map_append, List.map_cons, List.map_map, map_poc_markPic]
    exact List.perm_middle
  · have order := inv.ordered.sublist sub
    obtain ⟨orderFront, orderRest, across⟩ := List.pairwise_append.mp order
    refine List.pairwise_append.mpr ⟨?_, List.pairwise_cons.mpr ⟨?_, ?_⟩, ?_⟩
    · exact List.pairwise_map.mpr (by simpa using orderFront)
    · intro q _ wrong
      simp [idle] at wrong
    · exact List.pairwise_map.mpr (by simpa using orderRest)
    · intro p inFront q inRest
      obtain ⟨p, here, rfl⟩ := List.mem_map.mp inFront
      rcases List.mem_cons.mp inRest with rfl | inRest
      · simp [idle]
      · obtain ⟨q, there, rfl⟩ := List.mem_map.mp inRest
        simpa using across p here q there
  · intro pic inside needed
    rcases mem_startedList inside with rfl | ⟨p, here, rfl⟩
    · simp [idle] at needed
    · simp only [markPic_neededForOutput, markPic_poc] at needed ⊢
      exact inv.behind p (old here) needed
  · intro poc coming pic inside needed
    rcases mem_startedList inside with rfl | ⟨p, here, rfl⟩
    · simp [idle] at needed
    · simp only [markPic_neededForOutput, markPic_poc] at needed ⊢
      exact inv.fresh poc coming p (old here) needed
  · simpa [waitingFrames_cons, idle, waitingFrames_of_none unwanted] using inv.complete
  · intro pic inside referenced
    rcases mem_startedList inside with rfl | ⟨p, here, rfl⟩
    · exact List.mem_cons_self
    · obtain ⟨-, why⟩ := (markPic_referenced_iff nalu poc p).mp referenced
      rw [markPic_poc]
      rcases why with same | ⟨notIdr, inList⟩
      · exact same ▸ List.mem_cons_self
      · exact List.mem_cons_of_mem _ (by simpa [lists, notIdr] using inList)
  · intro pic inside
    rcases mem_startedList inside with rfl | ⟨p, here, rfl⟩
    · simp [DecLib.startedPic]
    · rw [markPic_poc]
      exact List.mem_append_left _ (inv.names p (old here))

/-- The first slice of a picture. -/
theorem start (inv : BufferInv sps .none finished future marked known lib last written)
    {nalu : Nalu} {poc : Int} {refs : List Int} (sameSps : nalu.slice.sps = sps)
    (new : poc ∉ known) (listed : refs ⊆ marked)
    (lists : refs = if nalu.nalUnitType.isIDR then [] else nalu.slice.refPocs) :
    ∃ listPic nextBuffer buffer,
      (lib.xActivateParameterSets nalu poc).decompressSlice nalu poc =
        { lib with
          listPic, nextBuffer
          pcPic := some buffer
          prevPOC := poc
          firstSliceInSequence := false
          firstSliceInBitstream := false
          firstSliceInPicture := false } ∧
      DecLib.startedPic buffer nalu poc ∈ listPic ∧
      BufferInv sps (some buffer) finished future (poc :: refs) (known ++ [poc])
        { lib with listPic, nextBuffer } last written := by
  obtain ⟨front, taken, rest, buffer, nextBuffer, split, free, result, apart, below⟩ :=
    DecLib.startPicture_spec nalu poc inv.buffers inv.allocated
  have old {pic : Picture} (here : pic ∈ front ++ rest) : pic ∈ lib.listPic := by
    rw [split]
    simp only [List.mem_append] at here ⊢
    tauto
  have unwanted : ∀ p ∈ taken, p.neededForOutput = false := by
    intro p here
    have isFree := free p here
    simp only [DecLib.isFree, Bool.or_eq_true, Bool.and_eq_true, Bool.not_eq_true'] at isFree
    rcases isFree with ⟨-, idle⟩ | ⟨-, idle⟩ <;> exact idle
  refine ⟨_, nextBuffer, buffer, result, List.mem_append_right _ List.mem_cons_self,
    startOutput (split ▸ inv.output) lists unwanted new buffer, apart, below, ?_, ?_, ?_⟩
  · intro pic inside
    rcases mem_startedList inside with rfl | ⟨p, here, rfl⟩
    · exact sameSps
    · rw [markPic_sps]
      exact inv.sameSps p (old here)
  · intro named wanted
    rcases List.mem_cons.mp wanted with rfl | reference
    · exact ⟨_, List.mem_append_right _ List.mem_cons_self, rfl, rfl⟩
    · obtain ⟨p, there, rfl, referenced⟩ := inv.present named (listed reference)
      -- a complete reference picture is not free
      have stays : p ∈ front ++ rest := by
        have complete := inv.settled p there (by simp) referenced
        rw [split, List.mem_append, List.mem_append] at there
        rcases there with (here | here) | here
        · exact List.mem_append_left _ here
        · have isFree := free p here
          simp [DecLib.isFree, complete, referenced] at isFree
        · exact List.mem_append_right _ here
      refine ⟨DecLib.markPic nalu poc p, ?_, markPic_poc nalu poc p, ?_⟩
      · simp only [List.mem_append, List.mem_cons, List.mem_map] at stays ⊢
        rcases stays with here | here
        · exact .inl ⟨p, here, rfl⟩
        · exact .inr (.inr ⟨p, here, rfl⟩)
      · refine (markPic_referenced_iff nalu poc p).mpr ⟨referenced, .inr ?_⟩
        rw [lists] at reference
        split at reference
        · simp at reference
        next notIdr => exact ⟨by simpa using notIdr, reference⟩
  · intro pic inside other referenced
    rcases mem_startedList inside with rfl | ⟨p, here, rfl⟩
    · exact absurd rfl other
    · rw [markPic_reconstructed]
      have was := ((markPic_referenced_iff nalu poc p).mp referenced).1
      exact inv.settled p (old here) (by simp) was

/-- The same picture, with other output flags or samples. -/
structure SamePicture (pic pic' : Picture) : Prop where
  buffer : pic'.buffer = pic.buffer
  poc : pic'.poc = pic.poc
  referenced : pic'.referenced = pic.referenced
  sps : pic'.sps = pic.sps
  reconstructed : pic.referenced → pic'.reconstructed = pic.reconstructed

theorem SamePicture.refl (pic : Picture) : SamePicture pic pic :=
  ⟨rfl, rfl, rfl, rfl, fun _ => rfl⟩

theorem exists_of_mem_right {R : Picture → Picture → Prop} {list list' : List Picture}
    (all : List.Forall₂ R list list') {q : Picture} (inside : q ∈ list') : ∃ p ∈ list, R p q := by
  induction all with
  | nil => simp at inside
  | cons related _ ih =>
      rcases List.mem_cons.mp inside with rfl | inside
      · exact ⟨_, List.mem_cons_self, related⟩
      · obtain ⟨p, here, r⟩ := ih inside
        exact ⟨p, List.mem_cons_of_mem _ here, r⟩

theorem map_buffer_of_same {list list' : List Picture}
    (all : List.Forall₂ SamePicture list list') :
    list'.map (·.buffer) = list.map (·.buffer) := by
  induction all with
  | nil => rfl
  | cons related _ ih => rw [List.map_cons, List.map_cons, related.buffer, ih]

/-- The pictures are the same, and the output is in order again. -/
theorem replace (inv : BufferInv sps current finished future marked known lib last written)
    {listPic : List Picture} (same : List.Forall₂ SamePicture lib.listPic listPic) {last' : Int}
    {written' : List Frame}
    (output : OutputInv finished future marked known listPic last' written') :
    BufferInv sps current finished future marked known { lib with listPic } last' written' where
  output := output
  buffers := (map_buffer_of_same same).symm ▸ inv.buffers
  allocated := by
    intro q inside
    obtain ⟨p, here, related⟩ := exists_of_mem_right same inside
    rw [related.buffer]
    exact inv.allocated p here
  sameSps := by
    intro q inside
    obtain ⟨p, here, related⟩ := exists_of_mem_right same inside
    rw [related.sps]
    exact inv.sameSps p here
  present := by
    intro poc wanted
    obtain ⟨p, here, named, referenced⟩ := inv.present poc wanted
    obtain ⟨q, there, related⟩ :=
      exists_of_mem_right (R := fun q p => SamePicture p q) same.flip here
    exact ⟨q, there, related.poc.trans named, related.referenced.trans referenced⟩
  settled := by
    intro q inside other referenced
    obtain ⟨p, here, related⟩ := exists_of_mem_right same inside
    rw [related.referenced] at referenced
    rw [related.buffer] at other
    rw [related.reconstructed referenced]
    exact inv.settled p here other referenced

/-- What is written by `writeLoop` is still the same picture. -/
theorem samePicture_of_written {pic pic' : Picture} (written : DecApp.SameOrWritten pic pic') :
    SamePicture pic pic' := by
  rcases written with rfl | ⟨-, rfl⟩
  · exact .refl _
  · exact ⟨rfl, rfl, rfl, rfl, fun referenced => by simp [DecApp.writtenPic, referenced]⟩

/-- Another slice of the current picture. -/
theorem addSlices {front rest : List Picture} {pic : Picture}
    (inv : BufferInv sps current finished future marked known lib last written)
    (list : lib.listPic = front ++ pic :: rest) (idle : pic.neededForOutput = false)
    (slices : List Nalu) :
    BufferInv sps current finished future marked known
      { lib with listPic := front ++ { pic with slices } :: rest } last written := by
  have same : List.Forall₂ SamePicture (front ++ pic :: rest)
      (front ++ { pic with slices } :: rest) :=
    List.rel_append (List.forall₂_same.mpr fun p _ => .refl p)
      (.cons ⟨rfl, rfl, rfl, rfl, fun _ => rfl⟩ (List.forall₂_same.mpr fun p _ => .refl p))
  refine inv.replace (list ▸ same) ?_
  obtain ⟨distinct, ordered, behind, ahead, fresh, past, sorted, complete, references, names⟩ :=
    list ▸ inv.output
  have cases {p : Picture} (inside : p ∈ front ++ { pic with slices } :: rest) :
      p = { pic with slices } ∨ p ∈ front ++ pic :: rest := by
    simp only [List.mem_append, List.mem_cons] at inside ⊢
    tauto
  have here : pic ∈ front ++ pic :: rest := List.mem_append_right _ List.mem_cons_self
  refine ⟨?_, ?_, ?_, ahead, ?_, past, sorted, ?_, ?_, ?_⟩
  · simpa using distinct
  · obtain ⟨orderFront, orderBack, across⟩ := List.pairwise_append.mp ordered
    obtain ⟨-, orderRest⟩ := List.pairwise_cons.mp orderBack
    refine List.pairwise_append.mpr ⟨orderFront, List.pairwise_cons.mpr ⟨?_, orderRest⟩, ?_⟩
    · intro q _ wrong
      simp [idle] at wrong
    · intro p inFront q inside
      rcases List.mem_cons.mp inside with rfl | inside
      · simp [idle]
      · exact across p inFront q (List.mem_cons_of_mem _ inside)
  · intro p inside needed
    rcases cases inside with rfl | there
    · simp [idle] at needed
    · exact behind p there needed
  · intro poc coming p inside needed
    rcases cases inside with rfl | there
    · simp [idle] at needed
    · exact fresh poc coming p there needed
  · simpa [waitingFrames_cons, idle] using complete
  · intro p inside referenced
    rcases cases inside with rfl | there
    · exact references pic here referenced
    · exact references p there referenced
  · intro p inside
    rcases cases inside with rfl | there
    · exact names pic here
    · exact names p there

/-- The end of the current picture. -/
theorem finish {front rest : List Picture} {pic : Picture}
    (inv : BufferInv sps (some pic.buffer) finished future marked known lib last written)
    (list : lib.listPic = front ++ pic :: rest) (idle : pic.neededForOutput = false)
    {output : Bool} {future' : List Int} (fewer : future' ⊆ future)
    (due : output → pic.poc ∈ future) (gone : pic.poc ∉ future') :
    BufferInv sps .none (finished ++ if output then [pic.frame] else []) future' marked known
      { lib with
        listPic := sortPicList
          (front ++ { pic with neededForOutput := output, reconstructed := true } :: rest) }
      last written := by
  set done : Picture := { pic with neededForOutput := output, reconstructed := true } with doneDef
  have perm := sortPicList_perm (front ++ done :: rest)
  have here : pic ∈ lib.listPic := list ▸ List.mem_append_right _ List.mem_cons_self
  have cases {p : Picture} (inside : p ∈ sortPicList (front ++ done :: rest)) :
      p = done ∨ p ∈ lib.listPic ∧ p.buffer ≠ pic.buffer := by
    have apart := inv.buffers
    rw [list, List.map_append, List.map_cons, List.nodup_append, List.nodup_cons] at apart
    have inside := perm.subset inside
    simp only [List.mem_append, List.mem_cons] at inside
    rcases inside with inFront | rfl | inRest
    · refine .inr ⟨by simp [list, inFront], ?_⟩
      exact apart.2.2 _ (List.mem_map_of_mem inFront) _ List.mem_cons_self
    · exact .inl rfl
    · refine .inr ⟨by simp [list, inRest], fun same => apart.2.1.1 ?_⟩
      exact same ▸ List.mem_map_of_mem inRest
  have distinct : ((sortPicList (front ++ done :: rest)).map (·.poc)).Nodup := by
    refine (List.Perm.nodup_iff (perm.map _)).mpr ?_
    simpa [list, doneDef] using inv.output.distinct
  refine ⟨⟨distinct, ?_, ?_, ?_, ?_, inv.output.past, inv.output.sorted, ?_, ?_, ?_⟩,
    ?_, ?_, ?_, ?_, ?_⟩
  · -- sorted, and no POC twice
    have apart : (sortPicList (front ++ done :: rest)).Pairwise fun p q => p.poc ≠ q.poc :=
      List.pairwise_map.mp distinct
    refine (sortPicList_sorted _).imp₂ (fun p q le ne _ _ => ?_) apart
    omega
  · intro p inside needed
    rcases cases inside with rfl | ⟨there, -⟩
    · exact inv.output.ahead _ (due needed)
    · exact inv.output.behind p there needed
  · exact fun poc coming => inv.output.ahead poc (fewer coming)
  · intro poc coming p inside needed
    rcases cases inside with rfl | ⟨there, -⟩
    · exact fun same => gone (same ▸ coming)
    · exact inv.output.fresh poc (fewer coming) p there needed
  · have waiting : (waitingFrames (sortPicList (front ++ done :: rest))).Perm
        (waitingFrames lib.listPic ++ if output then [pic.frame] else []) := by
      refine ((perm.filter _).map _).trans ?_
      rw [list, ← waitingFrames, waitingFrames_append, waitingFrames_append, waitingFrames_cons,
        waitingFrames_cons, idle]
      cases output with
      | false => simp [doneDef]
      | true =>
          simp only [doneDef, if_true, Bool.false_eq_true, if_false, List.append_assoc]
          exact List.Perm.append_left _ (List.perm_append_singleton _ _).symm
    refine (waiting.append_left written).trans ?_
    rw [← List.append_assoc]
    exact inv.output.complete.append_right _
  · intro p inside referenced
    rcases cases inside with rfl | ⟨there, -⟩
    · exact inv.output.references pic here referenced
    · exact inv.output.references p there referenced
  · intro p inside
    rcases cases inside with rfl | ⟨there, -⟩
    · exact inv.output.names pic here
    · exact inv.output.names p there
  · refine (List.Perm.nodup_iff (perm.map _)).mpr ?_
    simpa [list, doneDef] using inv.buffers
  · intro p inside
    rcases cases inside with rfl | ⟨there, -⟩
    · exact inv.allocated pic here
    · exact inv.allocated p there
  · intro p inside
    rcases cases inside with rfl | ⟨there, -⟩
    · exact inv.sameSps pic here
    · exact inv.sameSps p there
  · intro poc wanted
    obtain ⟨p, there, named, referenced⟩ := inv.present poc wanted
    rw [list, List.mem_append, List.mem_cons] at there
    rcases there with inFront | rfl | inRest
    · exact ⟨p, perm.symm.subset (by simp [inFront]), named, referenced⟩
    · exact ⟨done, perm.symm.subset (by simp), named, referenced⟩
    · exact ⟨p, perm.symm.subset (by simp [inRest]), named, referenced⟩
  · intro p inside _ referenced
    rcases cases inside with rfl | ⟨there, other⟩
    · rfl
    · exact inv.settled p there (by simpa using other) referenced

end BufferInv

end Vtm.Dec
