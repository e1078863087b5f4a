import Vtm.Output.WriteOutput
import Mathlib.Data.List.Chain
import Mathlib.Data.List.DropRight

/-!
# Conforming streams

A stream is a list of coded video sequences, each of them pictures in decoding order
with an optional end of sequence NAL unit. A picture is given by the NAL units it is
made of. The limits of the SPS are stated on the pictures alone: how many of them
precede a picture in decoding order and follow it in output order, and how many have
to be kept while a picture is decoded.
-/

namespace Vtm.Dec

/-- The units in front of a picture header. -/
@[grind =] def isLeading (t : NalUnitType) : Bool :=
  startsPicture t ≠ some false && t ≠ .ph && t ≠ .invalid

/-- The units within and behind a picture, other than its slices. -/
@[grind =] def isTrailing (t : NalUnitType) : Bool :=
  startsPicture t ≠ some true && !t.isSlice && t ≠ .eos && t ≠ .eob && t ≠ .invalid

def isReservedIrap (t : NalUnitType) : Bool := t = .reservedIrapVcl11 || t = .reservedIrapVcl12

/-- The prefix SEI units that wait for a slice behind some units. -/
def waitingSeis (nalus : List Nalu) : List Nalu :=
  (nalus.rtakeWhile fun nalu => !nalu.nalUnitType.isSlice).filter (·.nalUnitType = .prefixSei)

theorem waitingSeis_concat (nalus : List Nalu) (nalu : Nalu) :
    waitingSeis (nalus ++ [nalu]) =
      if nalu.nalUnitType.isSlice then []
      else if nalu.nalUnitType = .prefixSei then waitingSeis nalus ++ [nalu]
      else waitingSeis nalus := by
  rw [waitingSeis, List.rtakeWhile_concat]
  cases slice : nalu.nalUnitType.isSlice with
  | true => simp
  | false => by_cases sei : nalu.nalUnitType = .prefixSei <;> simp [waitingSeis, sei]

/-- The units can be decoded behind others: there is no filler data, and no prefix SEI
unit waits at a reserved IRAP unit. -/
def Passable (passed : List Nalu) : List Nalu → Prop
  | [] => True
  | nalu :: rest =>
      nalu.nalUnitType ≠ .fd ∧ (isReservedIrap nalu.nalUnitType → waitingSeis passed = []) ∧
        Passable (passed ++ [nalu]) rest

theorem passable_append {passed nalus rest : List Nalu} :
    Passable passed (nalus ++ rest) ↔ Passable passed nalus ∧ Passable (passed ++ nalus) rest := by
  induction nalus generalizing passed with
  | nil => simp [Passable]
  | cons nalu nalus ih =>
      simp only [List.cons_append, Passable, ih, and_assoc, List.append_assoc, List.nil_append]

theorem Passable.first {passed rest : List Nalu} {nalu : Nalu}
    (free : Passable passed (nalu :: rest)) : Passable passed [nalu] :=
  ⟨free.1, free.2.1, trivial⟩

theorem Passable.noFd {passed nalus : List Nalu} (free : Passable passed nalus) :
    ∀ nalu ∈ nalus, nalu.nalUnitType ≠ .fd := by
  induction nalus generalizing passed with
  | nil => simp
  | cons nalu nalus ih => exact List.forall_mem_cons.mpr ⟨free.1, ih free.2.2⟩

/-- Without filler data and reserved IRAP units there is nothing in the way. -/
theorem passable_of_others {nalus : List Nalu}
    (others : ∀ nalu ∈ nalus, nalu.nalUnitType ≠ .fd ∧ isReservedIrap nalu.nalUnitType = false)
    (passed : List Nalu) : Passable passed nalus := by
  induction nalus generalizing passed with
  | nil => trivial
  | cons nalu nalus ih =>
      obtain ⟨⟨noFd, known⟩, rest⟩ := List.forall_mem_cons.mp others
      exact ⟨noFd, by simp [known], ih rest _⟩

theorem passable_of_splits {nalus : List Nalu}
    (noFd : ∀ nalu ∈ nalus, nalu.nalUnitType ≠ .fd)
    (taken : ∀ front nalu rest, nalus = front ++ nalu :: rest →
      isReservedIrap nalu.nalUnitType → waitingSeis front = []) : Passable [] nalus := by
  have behind : ∀ passed rest, nalus = passed ++ rest → Passable passed rest := by
    intro passed rest
    induction rest generalizing passed with
    | nil => exact fun _ => trivial
    | cons nalu rest ih =>
        intro split
        exact ⟨noFd nalu (by simp [split]), taken passed nalu rest split,
          ih (passed ++ [nalu]) (by simp [split])⟩
  exact behind [] nalus rfl

/-- The units between a picture header and the first slice. -/
@[grind =] def isEarly (t : NalUnitType) : Bool :=
  isTrailing t && t ≠ .suffixAps && t ≠ .suffixSei && t ≠ .fd

/-- The NAL units of a picture. `more` are the slices behind the first one, each with
the units in front of it. -/
structure CodedPicture where
  leading : List Nalu
  header : Nalu
  early : List Nalu
  first : Nalu
  more : List (List Nalu × Nalu)
  trailing : List Nalu

namespace CodedPicture

def moreNalus (pic : CodedPicture) : List Nalu := pic.more.flatMap fun part => part.1 ++ [part.2]

def nalus (pic : CodedPicture) : List Nalu :=
  pic.leading ++ pic.header :: pic.early ++ pic.first :: pic.moreNalus ++ pic.trailing

def slices (pic : CodedPicture) : List Nalu := pic.first :: pic.more.map (·.2)

def poc (pic : CodedPicture) : Int := pic.first.slice.poc

/-- `pic_output_flag`. -/
def output (pic : CodedPicture) : Bool := pic.header.picHeader.picOutputFlag

@[grind =] def isIDR (pic : CodedPicture) : Bool := pic.first.nalUnitType.isIDR

/-- The POCs of the reference pictures. -/
def refs (pic : CodedPicture) : List Int := if pic.isIDR then [] else pic.first.slice.refPocs

def frame (pic : CodedPicture) : Frame := ⟨pic.poc, pic.slices⟩

/-- A unit that leaves open whether a picture starts. -/
def isOpen (nalu : Nalu) : Bool := startsPicture nalu.nalUnitType = none

/-- The units at the end of a picture that leave open whether the next one starts. -/
def openEnd (pic : CodedPicture) : List Nalu := pic.trailing.rtakeWhile isOpen

/-- The syntax of a picture: the order of the NAL units, the agreement of the slices, and
the temporal layers. -/
structure Valid (sps : SPS) (pic : CodedPicture) : Prop where
  leading : ∀ nalu ∈ pic.leading, isLeading nalu.nalUnitType
  header : pic.header.nalUnitType = .ph
  early : ∀ nalu ∈ pic.early, isEarly nalu.nalUnitType
  first : pic.first.nalUnitType.isSlice
  address : pic.first.slice.sliceCurStartCtuTsAddr = 0
  sps : pic.first.slice.sps = sps
  gaps : ∀ part ∈ pic.more, ∀ nalu ∈ part.1, isTrailing nalu.nalUnitType
  types : ∀ part ∈ pic.more, part.2.nalUnitType = pic.first.nalUnitType
  addresses : ∀ part ∈ pic.more, part.2.slice.sliceCurStartCtuTsAddr ≠ 0
  pocs : ∀ part ∈ pic.more, part.2.slice.poc = pic.poc
  lists : ∀ part ∈ pic.more, part.2.slice.refPocs ⊆ pic.first.slice.refPocs
  trailing : ∀ nalu ∈ pic.trailing, isTrailing nalu.nalUnitType
  range : -maxInt < pic.poc
  layers : ∀ nalu ∈ pic.leading ++ pic.header :: pic.early ++ pic.moreNalus,
    DecLib.bindsTemporalId nalu.nalUnitType → pic.first.temporalId ≤ nalu.temporalId
  layer : ∀ part ∈ pic.more, part.2.temporalId = pic.first.temporalId
  lowest : pic.isIDR ∨ pic.first.nalUnitType = .codedSliceGdr → pic.first.temporalId = 0

end CodedPicture

/-- A coded video sequence. -/
structure Cvs where
  pictures : List CodedPicture
  eos : Option Nalu
  sps : SPS

namespace Cvs

def nalus (cvs : Cvs) : List Nalu := cvs.pictures.flatMap CodedPicture.nalus ++ cvs.eos.toList

def numReorderPics (cvs : Cvs) : Nat := cvs.sps.getNumReorderPics (cvs.sps.maxTLayers - 1)

def maxDecPicBuffering (cvs : Cvs) : Nat := cvs.sps.getMaxDecPicBuffering (cvs.sps.maxTLayers - 1)

end Cvs

/-- The pictures of a list that are output. -/
def outputs (pictures : List CodedPicture) : List CodedPicture := pictures.filter (·.output)

/-- The pictures in front of `cur` that are kept while it is decoded: its reference
pictures, and those that follow a picture still to come in output order. -/
@[grind =] def kept (front : List CodedPicture) (cur : CodedPicture) (rest : List CodedPicture) :
    List CodedPicture :=
  front.filter fun pic => pic.poc ∈ cur.refs ∨
    pic.output ∧ ∃ later ∈ cur :: rest, later.output ∧ later.poc < pic.poc

namespace Cvs

/-- A coded video sequence that starts with an IDR picture and obeys its limits. -/
structure Conforming (cvs : Cvs) : Prop where
  valid : ∀ pic ∈ cvs.pictures, pic.Valid cvs.sps
  eos : ∀ nalu ∈ cvs.eos, nalu.nalUnitType = .eos
  idr : ∃ first rest, cvs.pictures = first :: rest ∧ first.isIDR ∧ ∀ pic ∈ rest, pic.isIDR = false
  distinct : (cvs.pictures.map (·.poc)).Nodup
  references : cvs.pictures.IsChain fun pic next => next.refs ⊆ pic.poc :: pic.refs
  layers : cvs.pictures.IsChain fun pic next =>
    ∀ nalu ∈ pic.openEnd, next.first.temporalId ≤ nalu.temporalId
  reorder : ∀ front cur rest, cvs.pictures = front ++ cur :: rest → cur.output →
    ((outputs front).filter fun pic => cur.poc < pic.poc).length ≤ cvs.numReorderPics
  buffering : ∀ front cur rest, cvs.pictures = front ++ cur :: rest →
    (kept front cur rest).length + 1 ≤ cvs.maxDecPicBuffering

variable {cvs : Cvs}

/-- A picture to come has few earlier ones behind it. -/
theorem Conforming.reorder_le (conforms : cvs.Conforming) {front rest : List CodedPicture}
    (split : cvs.pictures = front ++ rest) {later : CodedPicture} (coming : later ∈ outputs rest) :
    (((outputs front).map CodedPicture.frame).filter fun frame => later.poc < frame.poc).length ≤
      cvs.numReorderPics := by
  obtain ⟨inRest, output⟩ := List.mem_filter.mp coming
  obtain ⟨between, behind, rfl⟩ := List.append_of_mem inRest
  have limit := conforms.reorder (front ++ between) later behind (by simp [split]) output
  rw [List.filter_map, List.length_map]
  refine le_trans ?_ limit
  simp only [outputs, List.filter_append, List.length_append]
  exact Nat.le_add_right _ _

/-- While `cur` is in the buffer, what is held in front of an earlier picture to come
fits into it. -/
theorem Conforming.held_le (conforms : cvs.Conforming) {front rest : List CodedPicture}
    {cur : CodedPicture} (split : cvs.pictures = front ++ cur :: rest) {later : CodedPicture}
    (coming : later ∈ outputs (cur :: rest)) {held : List Int} (distinct : held.Nodup)
    (each : ∀ h ∈ held, h = cur.poc ∨ ∃ pic ∈ front, pic.poc = h ∧
      (h ∈ cur.refs ∨ pic.output ∧ later.poc < h)) :
    held.length ≤ cvs.maxDecPicBuffering := by
  obtain ⟨inRest, output⟩ := List.mem_filter.mp coming
  have inside : held ⊆ cur.poc :: (kept front cur rest).map (·.poc) := by
    intro h here
    rcases each h here with rfl | ⟨pic, inFront, rfl, why⟩
    · exact List.mem_cons_self
    · refine List.mem_cons_of_mem _ (List.mem_map_of_mem (List.mem_filter.mpr ⟨inFront, ?_⟩))
      rw [decide_eq_true_eq]
      rcases why with reference | ⟨out, earlier⟩
      · exact .inl reference
      · exact .inr ⟨out, later, inRest, output, earlier⟩
  have fits := (distinct.subperm inside).length_le
  have limit := conforms.buffering front cur rest split
  simp only [List.length_cons, List.length_map] at fits
  omega

end Cvs

/-- The POCs of the pictures of a list that are output. -/
def outputPocs (pictures : List CodedPicture) : List Int := (outputs pictures).map (·.poc)

/-- The frames of the pictures of a list that are output. -/
@[grind =] def outputFrames (pictures : List CodedPicture) : List Frame :=
  (outputs pictures).map CodedPicture.frame

/-- Frames in the order of their POCs. -/
def sortFrames (frames : List Frame) : List Frame := frames.mergeSort fun f g => f.poc ≤ g.poc

/-- The frames of a sequence in output order. -/
def Cvs.outputOrder (cvs : Cvs) : List Frame := sortFrames (outputFrames cvs.pictures)

namespace Cvs.Conforming

variable {cvs : Cvs}

/-- The limits while `cur` is decoded. -/
theorem limits_decoding (conforms : cvs.Conforming) {front rest : List CodedPicture}
    {cur : CodedPicture} (split : cvs.pictures = front ++ cur :: rest) :
    Limits cvs.numReorderPics cvs.maxDecPicBuffering (outputFrames front)
      (outputPocs (cur :: rest)) (cur.poc :: cur.refs) ((front ++ [cur]).map (·.poc)) where
  reorder := by
    intro poc coming
    obtain ⟨later, inside, rfl⟩ := List.mem_map.mp coming
    exact conforms.reorder_le split inside
  buffering := by
    intro poc coming held distinct each
    obtain ⟨later, inside, rfl⟩ := List.mem_map.mp coming
    refine conforms.held_le split inside distinct fun h here => ?_
    obtain ⟨known, why⟩ := each h here
    rcases why with reference | ⟨frame, out, rfl, earlier⟩
    · rcases List.mem_cons.mp reference with rfl | reference
      · exact .inl rfl
      rw [List.map_append, List.mem_append] at known
      rcases known with known | known
      · obtain ⟨pic, inFront, rfl⟩ := List.mem_map.mp known
        exact .inr ⟨pic, inFront, rfl, .inl reference⟩
      · exact .inl (List.mem_singleton.mp known)
    · obtain ⟨pic, output, rfl⟩ := List.mem_map.mp out
      obtain ⟨inFront, out⟩ := List.mem_filter.mp output
      exact .inr ⟨pic, inFront, rfl, .inr ⟨out, earlier⟩⟩

/-- The limits after `cur` is finished. -/
theorem limits_finished (conforms : cvs.Conforming) {front rest : List CodedPicture}
    {cur : CodedPicture} (split : cvs.pictures = front ++ cur :: rest) :
    Limits cvs.numReorderPics cvs.maxDecPicBuffering (outputFrames (front ++ [cur]))
      (outputPocs rest) (cur.poc :: cur.refs) ((front ++ [cur]).map (·.poc)) where
  reorder := by
    intro poc coming
    obtain ⟨later, inside, rfl⟩ := List.mem_map.mp coming
    exact conforms.reorder_le (by simpa using split) inside
  buffering := by
    intro poc coming held distinct each
    obtain ⟨later, inside, rfl⟩ := List.mem_map.mp coming
    have coming' : later ∈ outputs (cur :: rest) := by
      obtain ⟨inRest, output⟩ := List.mem_filter.mp inside
      exact List.mem_filter.mpr ⟨List.mem_cons_of_mem _ inRest, output⟩
    refine conforms.held_le split coming' distinct fun h here => ?_
    obtain ⟨known, why⟩ := each h here
    rw [List.map_append, List.mem_append] at known
    rcases known with known | known
    · obtain ⟨pic, inFront, rfl⟩ := List.mem_map.mp known
      rcases why with reference | ⟨frame, out, poc, earlier⟩
      · rcases List.mem_cons.mp reference with same | reference
        · exact .inl same
        · exact .inr ⟨pic, inFront, rfl, .inl reference⟩
      · obtain ⟨source, output, rfl⟩ := List.mem_map.mp out
        obtain ⟨there, out⟩ := List.mem_filter.mp output
        rcases List.mem_append.mp there with old | new
        · exact .inr ⟨source, old, poc, .inr ⟨out, earlier⟩⟩
        · rw [List.mem_singleton.mp new] at poc
          exact .inl poc.symm
    · exact .inl (List.mem_singleton.mp known)

end Cvs.Conforming

/-- A stream: its coded video sequences, and the end of bitstream NAL unit. -/
structure Stream where
  cvss : List Cvs
  eob : Option Nalu

namespace Stream

def nalus (stream : Stream) : List Nalu := stream.cvss.flatMap Cvs.nalus ++ stream.eob.toList

def pictures (stream : Stream) : List CodedPicture := stream.cvss.flatMap (·.pictures)

structure Conforming (stream : Stream) : Prop where
  cvss : ∀ cvs ∈ stream.cvss, cvs.Conforming
  eob : ∀ nalu ∈ stream.eob, nalu.nalUnitType = .eob

end Stream

end Vtm.Dec
