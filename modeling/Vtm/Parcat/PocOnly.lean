import Vtm.Parcat.SlicePoc
import Mathlib.Data.List.Forall2

/-!
# Parcat: only the picture order counts change

`filterSegment_rewrites_iff` says for a whole segment when every copied slice
unescapes to the slice with its new POC and no start code is added.
-/

namespace Vtm.Parcat

open Vtm.Std Vtm.NALwrite Vtm.NALread Vtm.RoundTrip.NAL

/-! ## The property -/

/-- A NAL unit in the place of a copied one: of a slice nothing but the field changes in
the unescaped bytes, where the field follows the two bytes of the header. -/
structure OnlyPocChanges (pocBase lastIdrPoc : Int) (f : Frame) (nal : List UInt8) : Prop where
  inPlace : nal.length = f.nal.length
  others : isPatchedType f.naluType = false → nal = f.nal
  slices : isPatchedType f.naluType → ∃ rbsp before after,
    convertPayloadToRBSP f.nal true = .ok (rbsp, before) ∧
    convertPayloadToRBSP nal true =
      .ok (rbsp.set 2 (newPocLsb (rbsp.getD 2 0) pocBase lastIdrPoc), after)

/-- The place of a start code prefix between the frames. -/
def Boundary (frames : List Frame) (pos : Nat) : Prop :=
  ∃ front f back, frames = front ++ f :: back ∧
    pos = (segmentBytes front).length + f.leadingZeros

/-- The output consists of the copied frames, with new NAL units in the places of the
old ones, and start codes only between them. -/
structure RewritesPoc (pocBase lastIdrPoc : Int) (frames : List Frame) (out : List UInt8) :
    Prop where
  nals : ∃ nals, List.Forall₂ (OnlyPocChanges pocBase lastIdrPoc) frames nals ∧
    out = (List.zipWith (fun f nal => f.lead ++ nal) frames nals).flatten
  startCodes : ∀ pos, [0, 0, 1] <+: out.drop pos → Boundary frames pos

/-- The bytes behind the POC of a slice are escaped for the old POC as for the new. -/
def Frame.KeepsEscapes (f : Frame) (pocBase lastIdrPoc : Int) : Prop :=
  Parcat.KeepsEscapes (f.data.headD 0) (newPocLsb (f.data.headD 0) pocBase lastIdrPoc) f.data.tail

/-! ## One frame -/

namespace Frame

variable (f : Frame)

theorem exists_payload (patched : isPatchedType f.naluType) : ∃ q : Payload, f.data = q.data ∧
    f.unit.bitstream.fifo = q.data ++ List.replicate (2 * q.words) 0 := by
  have enough := f.header patched
  obtain ⟨first, second, rest, shape⟩ : ∃ first second rest, f.data = first :: second :: rest := by
    match f.data, enough with
    | first :: second :: rest, _ => exact ⟨first, second, rest, rfl⟩
  have payload := f.shape
  rw [shape] at payload
  generalize f.unit.bitstream.fifo = rbsp at payload
  generalize whole : first :: second :: rest = data at payload
  cases payload with
  | empty => cases whole
  | words front last nonzero count =>
      have ends : (second :: rest).getLast? ≠ some 0 := by
        have tail : (second :: rest).getLast? = (first :: second :: rest).getLast? := by
          simp [List.getLast?_cons]
        rw [tail, whole, List.getLast?_concat]
        simpa using nonzero
      exact ⟨⟨first, second, rest, count, ends⟩, by rw [shape, Payload.data], by
        rw [Payload.data, whole]⟩

/-- The copy of a slice is its NAL unit with the first payload byte replaced. -/
theorem copy_of_payload {q : Payload} (patched : isPatchedType f.naluType)
    (fifo : f.unit.bitstream.fifo = q.data ++ List.replicate (2 * q.words) 0)
    (pocBase lastIdrPoc : Int) :
    f.copy pocBase lastIdrPoc =
      q.patched (newPocLsb q.first pocBase lastIdrPoc) f.unit.toNALUnit := by
  rw [copy, if_pos patched, nal, fifo, q.escaped_data]
  exact patchPoc_header _ _ _ _ _ _ _

theorem length_copy (pocBase lastIdrPoc : Int) :
    (f.copy pocBase lastIdrPoc).length = f.nal.length := by
  rw [copy]
  split
  · simp [patchPoc]
  · rfl

/-- What the conversion of the NAL unit gives. -/
theorem convertPayloadToRBSP_nal : ∃ locations, convertPayloadToRBSP f.nal true =
    .ok (headerBytes f.unit.toNALUnit ++ f.data, locations) := by
  obtain ⟨locations, run, -⟩ := RoundTrip.NAL.convertPayloadToRBSP_nal f.inRange f.shape
  exact ⟨locations, run⟩

theorem keepsEscapes_payload {q : Payload} (data : f.data = q.data) (pocBase lastIdrPoc : Int) :
    f.KeepsEscapes pocBase lastIdrPoc ↔ Parcat.KeepsEscapes q.first
      (newPocLsb q.first pocBase lastIdrPoc) (q.second :: q.rest) := by
  rw [KeepsEscapes, data]
  rfl

/-- For one frame the escapes decide. -/
theorem onlyPocChanges_copy_iff (pocBase lastIdrPoc : Int) :
    OnlyPocChanges pocBase lastIdrPoc f (f.copy pocBase lastIdrPoc) ↔
      (isPatchedType f.naluType → f.KeepsEscapes pocBase lastIdrPoc) := by
  obtain ⟨locations, old⟩ := f.convertPayloadToRBSP_nal
  by_cases patched : isPatchedType f.naluType = true
  · obtain ⟨q, data, fifo⟩ := f.exists_payload patched
    have copied := f.copy_of_payload patched fifo pocBase lastIdrPoc
    have field : (headerBytes f.unit.toNALUnit ++ f.data).set 2 (newPocLsb
        ((headerBytes f.unit.toNALUnit ++ f.data).getD 2 0) pocBase lastIdrPoc) =
        headerBytes f.unit.toNALUnit ++
          (q.replace (newPocLsb q.first pocBase lastIdrPoc)).data := by
      rw [data]
      rfl
    have byte := q.patched_unescapes_iff (newPocLsb q.first pocBase lastIdrPoc) f.inRange
    rw [f.keepsEscapes_payload data, ← byte, ← copied, ← field]
    constructor
    · rintro changes -
      obtain ⟨rbsp, before, after, run, new⟩ := changes.slices patched
      rw [old] at run
      cases run
      exact ⟨after, new⟩
    · intro new
      obtain ⟨after, new⟩ := new patched
      exact ⟨f.length_copy _ _, fun not => absurd patched (by simp [not]),
        fun _ => ⟨_, locations, after, old, new⟩⟩
  · have same : f.copy pocBase lastIdrPoc = f.nal := if_neg patched
    rw [same]
    exact ⟨fun _ yes => absurd yes patched, fun _ => ⟨rfl, fun _ => rfl,
      fun yes => absurd yes patched⟩⟩

/-- With its escapes kept, a copy is a NAL unit as `write` makes them. -/
theorem clean_copy {pocBase lastIdrPoc : Int}
    (keeps : isPatchedType f.naluType → f.KeepsEscapes pocBase lastIdrPoc) :
    StartCodeFree (f.copy pocBase lastIdrPoc) ∧
      (f.copy pocBase lastIdrPoc).getLast? ≠ some 0 := by
  by_cases patched : isPatchedType f.naluType = true
  · obtain ⟨q, data, fifo⟩ := f.exists_payload patched
    have kept := (f.keepsEscapes_payload data pocBase lastIdrPoc).mp (keeps patched)
    rw [f.copy_of_payload patched fifo, q.patched_of_keeps _ _ kept]
    exact ⟨NALwrite.startCodeFree_nal f.inRange _, NALwrite.getLast_nal f.inRange _⟩
  · have same : f.copy pocBase lastIdrPoc = f.nal := if_neg patched
    rw [same]
    exact ⟨f.startCodeFree_nal, f.getLast_nal⟩

end Frame

/-! ## The segment -/

/-- Start codes stand only between frames whose NAL units have none inside. -/
theorem boundary_of_startCode {frames : List Frame} (g : Frame → List UInt8)
    (clean : ∀ f ∈ frames, StartCodeFree (g f) ∧ (g f).getLast? ≠ some 0 ∧
      (g f).length = f.nal.length) {p : Memory}
    (holds : Holds p (frames.flatMap fun f => f.lead ++ g f)) {pos : Nat}
    (inside : pos + 2 < (frames.flatMap fun f => f.lead ++ g f).length)
    (first : p pos = 0) (second : p (pos + 1) = 0) (third : p (pos + 2) = 1) :
    Boundary frames pos := by
  induction frames generalizing p pos with
  | nil => simp at inside
  | cons f rest ih =>
      obtain ⟨free, ending, length⟩ := clean f List.mem_cons_self
      rw [List.flatMap_cons] at holds inside
      have code : Holds p f.lead := holds.left.left
      have zero (j : Nat) (lt : j < f.leadingZeros + 2) : p j = 0 := by
        apply code.get
        have shape : f.lead = List.replicate (f.leadingZeros + 2) 0 ++ [1] := by
          simp [Frame.lead, List.replicate_succ']
        rw [shape, List.getElem?_append_left (by simpa using lt), List.getElem?_replicate,
          if_pos lt]
      have one : p (f.leadingZeros + 2) = 1 := by
        apply code.get
        rw [Frame.lead, List.getElem?_append_right (by simp)]
        simp
      have total : (f.lead ++ g f).length = f.leadingZeros + 3 + (g f).length := by
        rw [List.length_append, f.length_lead]
      rcases Nat.lt_or_ge pos (f.lead ++ g f).length with before | behind
      · rcases Nat.lt_or_ge pos (f.leadingZeros + 3) with inCode | inNal
        · have here : pos = f.leadingZeros := by
            by_contra elsewhere
            have cases : pos + 2 < f.leadingZeros + 2 ∨ pos + 1 = f.leadingZeros + 2 ∨
                pos = f.leadingZeros + 2 := by omega
            rcases cases with early | atOne | atTwo
            · rw [zero _ early] at third
              cases third
            · rw [atOne, one] at second
              cases second
            · rw [atTwo, one] at first
              cases first
          exact ⟨[], f, rest, rfl, by simpa [segmentBytes] using here⟩
        · have nal : Holds (p.advance (f.leadingZeros + 3)) (g f) :=
            f.length_lead ▸ holds.left.right
          obtain ⟨i, rfl⟩ := Nat.exists_eq_add_of_le inNal
          refine absurd ⟨?_, ?_, ?_⟩ (inside_nal nal free ending (show i < _ by omega))
          · exact first
          · exact second
          · rw [Memory.advance, ← Nat.add_assoc, third]
            exact UInt8.le_refl 1
      · obtain ⟨i, rfl⟩ := Nat.exists_eq_add_of_le behind
        simp only [List.length_append] at inside
        obtain ⟨front, f', back, rfl, place⟩ := ih
          (fun f' later => clean f' (List.mem_cons_of_mem f later)) holds.right
          (show i + 2 < _ by omega) first second third
        refine ⟨f :: front, f', back, rfl, ?_⟩
        have same : f.bytes.length = (f.lead ++ g f).length := by
          rw [Frame.bytes, List.length_append, List.length_append, length]
        have sized : (segmentBytes (f :: front)).length =
            f.bytes.length + (segmentBytes front).length := List.length_append
        rw [place, sized, same, Nat.add_assoc]

/-- NAL units of the same sizes in the same places are the same. -/
theorem nals_eq_of_places {frames : List Frame} {nals : List (List UInt8)}
    {g : Frame → List UInt8} (sizes : ∀ f ∈ frames, (g f).length = f.nal.length)
    (inPlace : List.Forall₂ (fun f nal => nal.length = f.nal.length) frames nals)
    (same : frames.flatMap (fun f => f.lead ++ g f) =
      (List.zipWith (fun f nal => f.lead ++ nal) frames nals).flatten) :
    nals = frames.map g := by
  induction inPlace with
  | nil => rfl
  | @cons f nal frames nals here later ih =>
      rw [List.flatMap_cons, List.zipWith_cons_cons, List.flatten_cons, List.append_assoc,
        List.append_assoc, List.append_cancel_left_eq] at same
      obtain ⟨head, tail⟩ := List.append_inj same ((sizes f List.mem_cons_self).trans here.symm)
      rw [List.map_cons, head, ih (fun f' inside => sizes f' (List.mem_cons_of_mem f inside)) tail]

/-- The copied frames keep all but the POCs exactly when every slice keeps its escapes. -/
theorem rewritesPoc_copies_iff (pocBase lastIdrPoc : Int) (frames : List Frame) :
    RewritesPoc pocBase lastIdrPoc frames
        (frames.flatMap fun f => f.lead ++ f.copy pocBase lastIdrPoc) ↔
      ∀ f ∈ frames, isPatchedType f.naluType → f.KeepsEscapes pocBase lastIdrPoc := by
  constructor
  · rintro ⟨⟨nals, changes, same⟩, -⟩ f inside patched
    have copies := nals_eq_of_places (fun f _ => f.length_copy pocBase lastIdrPoc)
      (changes.imp fun _ _ change => change.inPlace) same
    rw [copies, List.forall₂_map_right_iff, List.forall₂_same] at changes
    exact (f.onlyPocChanges_copy_iff pocBase lastIdrPoc).mp (changes f inside) patched
  · intro keeps
    refine ⟨⟨frames.map fun f => f.copy pocBase lastIdrPoc, ?_, ?_⟩, ?_⟩
    · rw [List.forall₂_map_right_iff, List.forall₂_same]
      intro f inside
      exact (f.onlyPocChanges_copy_iff pocBase lastIdrPoc).mpr (keeps f inside)
    · rw [List.zipWith_map_right, List.zipWith_self, List.flatMap_def]
    · intro pos code
      have holds := Holds.ofBuffer
        (frames.flatMap fun f => f.lead ++ f.copy pocBase lastIdrPoc) fun _ => 0
      have byte (i : Nat) (lt : i < 3) :
          (frames.flatMap fun f => f.lead ++ f.copy pocBase lastIdrPoc)[pos + i]? =
            some ([0, 0, 1] : List UInt8)[i] := by
        rw [← List.getElem?_drop]
        exact List.prefix_iff_getElem?.mp code i lt
      obtain ⟨inside, -⟩ := List.getElem?_eq_some_iff.mp (byte 2 (by omega))
      refine boundary_of_startCode (fun f => f.copy pocBase lastIdrPoc) ?_ holds inside
        (holds.get (byte 0 (by omega))) (holds.get (byte 1 (by omega)))
        (holds.get (byte 2 (by omega)))
      intro f member
      obtain ⟨free, ending⟩ := f.clean_copy (keeps f member)
      exact ⟨free, ending, f.length_copy pocBase lastIdrPoc⟩

/-- The types of the slices are neither IDR types nor those of other NAL units. -/
theorem patchedType_apart {naluType : Nat} (patched : isPatchedType naluType) :
    isIdrType naluType = false ∧ isLeadingType naluType = false ∧
      naluType ≠ NalUnitType.suffixSei.code := by
  have le : naluType ≤ 12 := by
    have idr : NalUnitType.codedSliceIdrWRadl.code = 7 := by decide
    have last : NalUnitType.reservedIrapVcl12.code = 12 := by decide
    rw [isPatchedType, idr, last, decide_eq_true_eq] at patched
    omega
  interval_cases naluType <;> revert patched <;> decide

/-- A slice is always copied. -/
theorem mem_copiedFrames_of_patched {idx : Nat} {flags : CopyFlags} {frames : List Frame}
    {f : Frame} (patched : isPatchedType f.naluType) :
    f ∈ copiedFrames idx flags frames ↔ f ∈ frames := by
  induction frames generalizing flags with
  | nil => rfl
  | cons g rest ih =>
      rw [copiedFrames]
      split
      · next dropped =>
          rw [ih, List.mem_cons]
          refine ⟨.inr, fun member => member.resolve_left ?_⟩
          rintro rfl
          obtain ⟨idr, leading, sei⟩ := patchedType_apart patched
          simp [CopyFlags.drops, idr, leading, sei] at dropped
      · rw [List.mem_cons, ih, List.mem_cons]

/-- A slice is always found: it has bytes behind its header. -/
theorem mem_metFrames_of_patched {frames : List Frame} {f : Frame}
    (patched : isPatchedType f.naluType) : f ∈ metFrames frames ↔ f ∈ frames := by
  have long : ¬ f.nal.length < 3 := by
    obtain ⟨q, -, fifo⟩ := f.exists_payload patched
    rw [Frame.nal, fifo, q.escaped_data]
    simp [headerBytes]
  induction frames with
  | nil => rfl
  | cons g rest ih =>
      cases rest with
      | nil =>
          rw [metFrames]
          split
          · next short =>
              simp only [List.not_mem_nil, List.mem_singleton, false_iff]
              rintro rfl
              exact long short
          · rfl
      | cons h rest =>
          rw [metFrames, List.mem_cons, List.mem_cons]
          exact or_congr_right ih

section Rewriting

variable {M : Type} (store : M → InputNALUnit → Checked M)

/-- Whenever `filter_segment` returns, the copied NAL units are the same but for the POCs
of the slices, and no start code is added, exactly when the bytes behind every POC are
escaped for the old value as for the new. -/
theorem filterSegment_rewrites_iff (manager : M) (frames : List Frame) (beyond : Memory)
    (idx : Nat) (pocBase lastIdrPoc : Int) {out : List UInt8} {base : Int} {manager' : M}
    (run : filterSegment store manager (segmentBytes frames) beyond idx pocBase lastIdrPoc =
      .ok (out, base, manager')) :
    RewritesPoc pocBase lastIdrPoc (copiedFrames idx ⟨false, false⟩ (metFrames frames)) out ↔
      ∀ f ∈ frames, isPatchedType f.naluType → f.KeepsEscapes pocBase lastIdrPoc := by
  rw [filterSegment_out run, rewritesPoc_copies_iff]
  constructor
  · intro keeps f inside patched
    refine keeps f ?_ patched
    rwa [mem_copiedFrames_of_patched patched, mem_metFrames_of_patched patched]
  · intro keeps f inside patched
    refine keeps f ?_ patched
    rwa [mem_copiedFrames_of_patched patched, mem_metFrames_of_patched patched] at inside

/-- `filter_segment` returns when `read` accepts the headers and the parsers the
parameter sets. -/
theorem filterSegment_returns (accepts : ∀ manager nalu, ∃ manager', store manager nalu = .ok manager')
    (manager : M) {frames : List Frame}
    (readable : ∀ f ∈ metFrames frames, ¬ Refused f.unit.toNALUnit) (beyond : Memory) (idx : Nat)
    (pocBase lastIdrPoc : Int) : ∃ result,
      filterSegment store manager (segmentBytes frames) beyond idx pocBase lastIdrPoc =
        .ok result := by
  have step (f : Frame) (inside : f ∈ metFrames frames) (st : FilterState M) :
      ∃ st', filterNalu store idx pocBase lastIdrPoc f.lead f.nal st = .ok st' := by
    obtain ⟨bs, -, -, -, -, run⟩ := read_nal f.inRange f.shape
      ⟨⟨.invalid, 0, 0, 0, 0⟩, InputBitstream.ofFifo f.nal⟩ rfl
    rw [if_neg (readable f inside)] at run
    have stored : ∃ manager', storeParameterSet store st.parameterSetManager
        ⟨asRead f.unit.toNALUnit, bs⟩ = .ok manager' := by
      unfold storeParameterSet
      split
      · exact accepts _ _
      · exact ⟨_, rfl⟩
    obtain ⟨manager', stored⟩ := stored
    unfold filterNalu readCopy
    rw [run]
    simp only [bind, Except.bind, stored]
    exact ⟨_, rfl⟩
  have fold (met : List Frame) (inside : ∀ f ∈ met, f ∈ metFrames frames) (st : FilterState M) :
      ∃ st', met.foldlM
        (fun st f => filterNalu store idx pocBase lastIdrPoc f.lead f.nal st) st = .ok st' := by
    induction met generalizing st with
    | nil => exact ⟨st, rfl⟩
    | cons f rest ih =>
        obtain ⟨mid, first⟩ := step f (inside f List.mem_cons_self) st
        obtain ⟨st', later⟩ := ih (fun g member => inside g (List.mem_cons_of_mem f member)) mid
        exact ⟨st', by rw [List.foldlM_cons, first]; exact later⟩
  obtain ⟨st, loop⟩ := fold _ (fun _ member => member) ⟨manager, false, ⟨false, false⟩, 0, []⟩
  unfold filterSegment
  rw [filterLoop_frames store idx pocBase lastIdrPoc frames (Holds.ofBuffer _ _), loop]
  exact ⟨_, rfl⟩

end Rewriting

/-- A trailing picture slice with the given bytes behind a POC of one. -/
def sliceFrame (second third : UInt8) : Frame where
  leadingZeros := 1
  unit := ⟨⟨.codedSliceTrail, 0, 0, 0, 0⟩, ⟨[1, second, third, 0x80], 0, 0⟩⟩
  data := [1, second, third, 0x80]
  inRange := ⟨Nat.zero_le _, (NalUnitType.code_lt_iff .codedSliceTrail).mpr (by decide),
    Nat.zero_le _⟩
  shape := Rbsp.words [1, second, third] 0x80 (by decide) 0
  header := fun _ => Nat.le_add_left 2 2

theorem filterSegment_sliceFrame_returns (second third : UInt8) (pocBase : Int) : ∃ result,
    filterSegment (fun (_ : Unit) _ => .ok ()) () (segmentBytes [sliceFrame second third])
      (fun _ => 0) 1 pocBase 0 = .ok result := by
  apply filterSegment_returns (fun _ _ => .ok ()) fun _ _ => ⟨(), rfl⟩
  intro f inside
  have here : f = sliceFrame second third := by
    rw [metFrames, if_neg (by simp [Frame.nal, headerBytes, sliceFrame,
      escapePayload_cons, escapedRest]) ] at inside
    simpa using inside
  rw [here]
  exact fun refused => by cases refused.2.2

/-- The POC becomes six, and the bytes behind it need no escapes. -/
theorem filterSegment_rewrites_sliceFrame : ∃ out base,
    filterSegment (fun (_ : Unit) _ => .ok ()) () (segmentBytes [sliceFrame 2 2]) (fun _ => 0)
        1 5 0 = .ok (out, base, ()) ∧
      RewritesPoc 5 0 (copiedFrames 1 ⟨false, false⟩ (metFrames [sliceFrame 2 2])) out := by
  obtain ⟨⟨out, base, ⟨⟩⟩, run⟩ := filterSegment_sliceFrame_returns 2 2 5
  refine ⟨out, base, run, (filterSegment_rewrites_iff _ _ _ _ _ _ _ run).mpr ?_⟩
  intro f inside _
  rw [List.mem_singleton.mp inside]
  intro zero
  cases zero

/-- The POC becomes zero in front of the bytes 00 01: a start code inside the slice. -/
theorem filterSegment_adds_startCode : ∃ out base,
    filterSegment (fun (_ : Unit) _ => .ok ()) () (segmentBytes [sliceFrame 0 1]) (fun _ => 0)
        1 255 0 = .ok (out, base, ()) ∧
      out = [0, 0, 0, 1, 0, 1, 0, 0, 1, 0x80] ∧
      ¬ RewritesPoc 255 0 (copiedFrames 1 ⟨false, false⟩ (metFrames [sliceFrame 0 1])) out := by
  obtain ⟨⟨out, base, ⟨⟩⟩, run⟩ := filterSegment_sliceFrame_returns 0 1 255
  have copied : copiedFrames 1 ⟨false, false⟩ (metFrames [sliceFrame 0 1]) = [sliceFrame 0 1] := rfl
  have bytes := filterSegment_out run
  refine ⟨out, base, run, bytes.trans (by decide), fun rewrites => ?_⟩
  rw [bytes, copied, rewritesPoc_copies_iff] at rewrites
  have keeps := rewrites _ (List.mem_singleton.mpr rfl) (by decide)
  have zero := (keeps rfl (by decide)).mpr (by decide)
  cases zero

end Vtm.Parcat
