import Vtm.Decoder.NALread

/-!
# Parcat: filtering a segment

`find_nal_unit` and `filter_segment`, which copies the NAL units of one segment to
its output and gives the slices new picture order counts on the way. A pointer is
the memory behind it: `find_nal_unit` looks at bytes past the end of the buffer.
-/

namespace Vtm.Parcat

/-- What a pointer to bytes leads to. -/
abbrev Memory := Nat → UInt8

/-- The bytes of a buffer, and behind them whatever comes next in memory. -/
def Memory.ofBuffer (v : List UInt8) (beyond : Memory) : Memory :=
  fun i => v.getD i (beyond (i - v.length))

/-- The pointer moved on. -/
def Memory.advance (p : Memory) (count : Nat) : Memory := fun i => p (count + i)

/-- The bytes in front of `p + count`. -/
def Memory.bytes (p : Memory) (count : Nat) : List UInt8 := (List.range count).map p

/-- The search for the beginning in `find_nal_unit`. -/
def findStart (buf : Memory) (size i : Nat) : Option Nat :=
  if (buf i ≠ 0 ∨ buf (i + 1) ≠ 0 ∨ buf (i + 2) ≠ 1) ∧
      (buf i ≠ 0 ∨ buf (i + 1) ≠ 0 ∨ buf (i + 2) ≠ 0 ∨ buf (i + 3) ≠ 1) then
    -- skip leading zero
    if i + 1 + 4 ≥ size then none else findStart buf size (i + 1)
  else some i
termination_by size - i

/-- The search for the end in `find_nal_unit`. -/
def findEnd (buf : Memory) (size i : Nat) : Nat :=
  if i + 3 < size ∧ (buf i ≠ 0 ∨ buf (i + 1) ≠ 0 ∨ buf (i + 2) ≠ 0) ∧
      (buf i ≠ 0 ∨ buf (i + 1) ≠ 0 ∨ buf (i + 2) ≠ 1) then
    findEnd buf size (i + 1)
  else i
termination_by size - i

/-- `next_bits( 24 ) != 0x000001`. -/
def noPrefix (buf : Memory) (i : Nat) : Bool := buf i ≠ 0 ∨ buf (i + 1) ≠ 0 ∨ buf (i + 2) ≠ 1

/-- `find_nal_unit` from the place of the start code on. -/
def findNalUnitAt (buf : Memory) (size i : Nat) : Nat × Nat :=
  if noPrefix buf i then (0, 0)
  else
    let nalStart := i + 3
    let i := findEnd buf size nalStart
    (nalStart, if i + 3 = size then size else i)

/-- `find_nal_unit`: `nal_start` and `nal_end`. It returns their difference. -/
def findNalUnit (buf : Memory) (size : Nat) : Nat × Nat :=
  match findStart buf size 0 with
  | none => (0, 0)
  | some i => findNalUnitAt buf size (if noPrefix buf i then i + 1 else i)

/-- Writing `picOrderCntLSB` over the eight bits behind the first `offset` bits. -/
def patchPoc (nalu : List UInt8) (offset : Nat) (pocBase lastIdrPoc : Int) : List UInt8 :=
  let bitsForPoc := 8
  let byteOffset := offset / 8
  let hiBits := offset % 8
  let data := (nalu.getD byteOffset 0).toNat <<< 8 ||| (nalu.getD (byteOffset + 1) 0).toNat
  let lowBits := 16 - hiBits - bitsForPoc
  let pocLsb := (data >>> lowBits) &&& 0xff
  let newPoc : Int := pocLsb + pocBase
  let picOrderCntLSB := ((newPoc - lastIdrPoc + 2 ^ bitsForPoc) % 2 ^ bitsForPoc).toNat
  let low := data &&& (1 <<< lowBits - 1)
  let hi := data >>> (16 - hiBits)
  let data := (hi <<< (16 - hiBits) ||| picOrderCntLSB <<< lowBits ||| low) % 2 ^ 16
  (nalu.set byteOffset (UInt8.ofNat (data >>> 8))).set (byteOffset + 1)
    (UInt8.ofNat (data &&& 0xff))

/-- The IDR types. -/
def isIdrType (naluType : Nat) : Bool :=
  naluType = NalUnitType.codedSliceIdrWRadl.code ∨ naluType = NalUnitType.codedSliceIdrNLp.code

/-- The types whose NAL units are given a new picture order count. -/
def isPatchedType (naluType : Nat) : Bool :=
  naluType < NalUnitType.codedSliceIdrWRadl.code ∨
    naluType > NalUnitType.codedSliceIdrNLp.code ∧ naluType ≤ NalUnitType.reservedIrapVcl12.code

/-- The types that are left out up to the IDR picture of a further segment. -/
def isLeadingType (naluType : Nat) : Bool :=
  naluType = NalUnitType.dps.code ∨ naluType = NalUnitType.vps.code ∨
    naluType = NalUnitType.sps.code ∨ naluType = NalUnitType.pps.code ∨
    naluType = NalUnitType.prefixAps.code ∨ naluType = NalUnitType.suffixAps.code ∨
    naluType = NalUnitType.ph.code ∨ naluType = NalUnitType.accessUnitDelimiter.code

/-- The local variables of `filter_segment` that tell what to copy. -/
structure CopyFlags where
  idrFound : Bool
  skipNextSei : Bool
deriving DecidableEq, Repr

namespace CopyFlags

/-- The flags when the copying of a NAL unit is decided. -/
def seen (flags : CopyFlags) (idx naluType : Nat) : CopyFlags :=
  if idx > 1 ∧ isIdrType naluType then ⟨true, true⟩ else flags

/-- A NAL unit that is not copied. -/
def drops (flags : CopyFlags) (idx naluType : Nat) : Bool :=
  (idx > 1 ∧ isIdrType naluType) ∨ ((idx > 1 ∧ ¬ flags.idrFound) ∧ isLeadingType naluType) ∨
    (naluType = NalUnitType.suffixSei.code ∧ flags.skipNextSei)

/-- The flags after the decision. -/
def decided (flags : CopyFlags) (naluType : Nat) : CopyFlags :=
  if naluType = NalUnitType.suffixSei.code ∧ flags.skipNextSei then
    { flags with skipNextSei := false }
  else flags

end CopyFlags

/-- The local variables of `filter_segment`, with the parameter sets stored so far. -/
structure FilterState (M : Type) where
  parameterSetManager : M
  firstSliceSegmentInPicFlag : Bool
  flags : CopyFlags
  cnt : Nat
  out : List UInt8

section Filter

variable {M : Type} (store : M → InputNALUnit → Checked M)

/-- `parseSPS`, `parsePPS` and the storing of what they read. -/
def storeParameterSet (manager : M) (inpNalu : InputNALUnit) : Checked M :=
  if inpNalu.nalUnitType = .sps ∨ inpNalu.nalUnitType = .pps then store manager inpNalu
  else pure manager

/-- `read` on a copy of the NAL unit. -/
def readCopy (nalu : List UInt8) : Checked InputNALUnit :=
  NALread.read ⟨⟨.invalid, 0, 0, 0, 0⟩, InputBitstream.ofFifo nalu⟩

/-- One iteration of the loop: the bytes `lead` in front of the NAL unit `nalu`. -/
def filterNalu (idx : Nat) (pocBase lastIdrPoc : Int) (lead nalu : List UInt8)
    (st : FilterState M) : Checked (FilterState M) := do
  let naluType := (nalu.getD 1 0).toNat >>> 3
  let inpNalu ← readCopy nalu
  let manager ← storeParameterSet store st.parameterSetManager inpNalu
  let first := st.firstSliceSegmentInPicFlag || inpNalu.nalUnitType = .ph
  let first := first && !isIdrType naluType
  let counts := isPatchedType naluType && first
  let nalu := if isPatchedType naluType then
      patchPoc nalu inpNalu.bitstream.getNumBitsRead pocBase lastIdrPoc
    else nalu
  let flags := st.flags.seen idx naluType
  return {
    parameterSetManager := manager
    firstSliceSegmentInPicFlag := first && !isPatchedType naluType
    flags := flags.decided naluType
    cnt := if counts then st.cnt + 1 else st.cnt
    out := if flags.drops idx naluType then st.out else st.out ++ lead ++ nalu }

/-- The searches end inside the buffer. -/
theorem findEnd_spec (buf : Memory) (size i : Nat) :
    i ≤ findEnd buf size i ∧ (i < findEnd buf size i → findEnd buf size i + 3 ≤ size) := by
  induction i using findEnd.induct buf size with
  | case1 i here ih =>
      rw [findEnd, if_pos here]
      obtain ⟨after, inside⟩ := ih
      refine ⟨by omega, fun _ => ?_⟩
      by_cases more : i + 1 < findEnd buf size (i + 1)
      · exact inside more
      · omega
  | case2 i here =>
      rw [findEnd, if_neg here]
      exact ⟨le_refl i, fun more => absurd more (lt_irrefl i)⟩

theorem findNalUnitAt_le {buf : Memory} {size i : Nat}
    (found : 0 < (findNalUnitAt buf size i).2 - (findNalUnitAt buf size i).1) :
    (findNalUnitAt buf size i).2 ≤ size := by
  unfold findNalUnitAt at found ⊢
  split
  · exact Nat.zero_le size
  · next here =>
      simp only [if_neg here] at found ⊢
      split
      · exact le_refl size
      · next before =>
          rw [if_neg before] at found
          have inside := (findEnd_spec buf size (i + 3)).2 (by omega)
          omega

theorem findNalUnit_le {buf : Memory} {size : Nat}
    (found : 0 < (findNalUnit buf size).2 - (findNalUnit buf size).1) :
    (findNalUnit buf size).2 ≤ size := by
  unfold findNalUnit at found ⊢
  split
  · exact Nat.zero_le size
  · next i located =>
      rw [located] at found
      exact findNalUnitAt_le found

/-- The loop of `filter_segment`, with `sz` bytes left behind `p`. -/
def filterLoop (idx : Nat) (pocBase lastIdrPoc : Int) (p : Memory) (sz : Nat)
    (st : FilterState M) : Checked (FilterState M) :=
  if _found : 0 < (findNalUnit p sz).2 - (findNalUnit p sz).1 then do
    let nalStart := (findNalUnit p sz).1
    let nalEnd := (findNalUnit p sz).2
    let nalu := (p.advance nalStart).bytes (nalEnd - nalStart)
    let st ← filterNalu store idx pocBase lastIdrPoc (p.bytes nalStart) nalu st
    filterLoop idx pocBase lastIdrPoc (p.advance nalEnd) (sz - nalEnd) st
  else pure st
termination_by sz
decreasing_by
  have inside := findNalUnit_le _found
  omega

/-- `filter_segment`: the output, `poc_base` and the parameter sets after it. -/
def filterSegment (manager : M) (v : List UInt8) (beyond : Memory) (idx : Nat)
    (pocBase lastIdrPoc : Int) : Checked (List UInt8 × Int × M) := do
  let st ← filterLoop store idx pocBase lastIdrPoc (.ofBuffer v beyond) v.length
    ⟨manager, false, ⟨false, false⟩, 0, []⟩
  return (st.out, pocBase + st.cnt, st.parameterSetManager)

end Filter

end Vtm.Parcat
