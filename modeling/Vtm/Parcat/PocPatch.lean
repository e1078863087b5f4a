import Vtm.Parcat.Segment

/-!
# Parcat: the picture order counts

`filter_segment` writes the new POC of a slice into the escaped NAL unit. The bytes
behind it were escaped for the old one: `filterSegment_rewrites_iff` says when the
NAL unit still unescapes to the slice with the new POC.
-/

namespace Vtm.Parcat

open Vtm.Std Vtm.NALwrite Vtm.NALread Vtm.RoundTrip.NAL

/-! ## The patch -/

/-- `(poc + poc_base - last_idr_poc)` modulo the range of the field. -/
def newPocLsb (pocLsb : UInt8) (pocBase lastIdrPoc : Int) : UInt8 :=
  UInt8.ofNat ((pocLsb.toNat + pocBase - lastIdrPoc) % 2 ^ 8).toNat

/-- Behind the two bytes of a header the patch replaces one byte. -/
theorem patchPoc_header (first second poc next : UInt8) (rest : List UInt8)
    (pocBase lastIdrPoc : Int) :
    patchPoc (first :: second :: poc :: next :: rest) 16 pocBase lastIdrPoc =
      first :: second :: newPocLsb poc pocBase lastIdrPoc :: next :: rest := by
  have pocLt := poc.toNat_lt
  have nextLt := next.toNat_lt
  have joined : poc.toNat <<< 8 ||| next.toNat = poc.toNat * 2 ^ 8 + next.toNat := by
    rw [Nat.shiftLeft_eq]
    exact OutputBitstream.shift_or_eq_add nextLt
  have high : (poc.toNat * 2 ^ 8 + next.toNat) >>> 8 &&& 0xff = poc.toNat := by
    rw [Nat.shiftRight_eq_div_pow, show (0xff : Nat) = 2 ^ 8 - 1 from rfl,
      Nat.and_two_pow_sub_one_eq_mod]
    omega
  have low : (poc.toNat * 2 ^ 8 + next.toNat) &&& (1 <<< 8 - 1) = next.toNat := by
    rw [show 1 <<< 8 - 1 = 2 ^ 8 - 1 from rfl, Nat.and_two_pow_sub_one_eq_mod]
    omega
  have none : (poc.toNat * 2 ^ 8 + next.toNat) >>> 16 = 0 := by
    rw [Nat.shiftRight_eq_div_pow]
    omega
  have same : ((poc.toNat : Int) + pocBase - lastIdrPoc + 2 ^ 8) % 2 ^ 8 =
      (poc.toNat + pocBase - lastIdrPoc) % 2 ^ 8 := by omega
  obtain ⟨lsb, value⟩ : ∃ lsb : Nat, ((poc.toNat : Int) + pocBase - lastIdrPoc) % 2 ^ 8 = lsb :=
    ⟨_, (Int.toNat_of_nonneg (by omega)).symm⟩
  have lsbLt : lsb < 2 ^ 8 := by omega
  have written : (0 <<< 16 ||| lsb <<< 8 ||| next.toNat) % 2 ^ 16 = lsb * 2 ^ 8 + next.toNat := by
    rw [Nat.zero_shiftLeft, Nat.zero_or, Nat.shiftLeft_eq,
      OutputBitstream.shift_or_eq_add nextLt, Nat.mod_eq_of_lt (by omega)]
  have back : (lsb * 2 ^ 8 + next.toNat) >>> 8 = lsb := by
    rw [Nat.shiftRight_eq_div_pow]
    omega
  have kept : (lsb * 2 ^ 8 + next.toNat) &&& 0xff = next.toNat := by
    rw [show (0xff : Nat) = 2 ^ 8 - 1 from rfl, Nat.and_two_pow_sub_one_eq_mod]
    omega
  simp only [patchPoc, newPocLsb, List.getD_cons_succ, List.getD_cons_zero, joined, high, low,
    none, same, value, Int.toNat_natCast, written, back, kept, List.set_cons_succ,
    List.set_cons_zero, UInt8.ofNat_toNat]

/-- The header takes sixteen bits. -/
theorem numBitsRead_readNalUnitHeader {input output : InputNALUnit}
    (run : readNalUnitHeader input = .ok output) :
    output.bitstream.numBitsRead = input.bitstream.numBitsRead + 16 := by
  unfold readNalUnitHeader at run
  obtain ⟨⟨_, bs₁⟩, run₁, run⟩ := bind_eq_ok_iff.mp run
  obtain ⟨⟨_, bs₂⟩, run₂, run⟩ := bind_eq_ok_iff.mp run
  obtain ⟨⟨_, bs₃⟩, run₃, run⟩ := bind_eq_ok_iff.mp run
  obtain ⟨_, run⟩ := CHECK_bind_eq_ok_iff.mp run
  obtain ⟨⟨_, bs₄⟩, run₄, run⟩ := bind_eq_ok_iff.mp run
  obtain ⟨⟨_, bs₅⟩, run₅, run⟩ := bind_eq_ok_iff.mp run
  have count₁ := InputBitstream.read_numBitsRead run₁
  have count₂ := InputBitstream.read_numBitsRead run₂
  have count₃ := InputBitstream.read_numBitsRead run₃
  have count₄ := InputBitstream.read_numBitsRead run₄
  have count₅ := InputBitstream.read_numBitsRead run₅
  have last : output.bitstream = bs₅ := by
    dsimp only at run
    split at run
    · split at run
      · obtain ⟨_, run⟩ := CHECK_bind_eq_ok_iff.mp run
        cases run
        rfl
      · cases run
        rfl
    · cases run
      rfl
  rw [last]
  omega

namespace Frame

variable (f : Frame)

/-- `nal_unit_type` as the loop takes it from the second byte. -/
def naluType : Nat := f.unit.nalUnitType.code

theorem naluType_nal : (f.nal.getD 1 0).toNat >>> 3 = f.naluType := by
  have type := f.inRange.type
  have temporal := f.inRange.temporal
  have second : f.nal.getD 1 0 =
      UInt8.ofNat (f.unit.nalUnitType.code * 8 + (f.unit.temporalId + 1)) := rfl
  rw [second, UInt8.toNat_ofNat', Nat.shiftRight_eq_div_pow, naluType]
  omega

/-- `read` takes the type and the two header bytes. -/
theorem readCopy_nal {inpNalu : InputNALUnit} (run : readCopy f.nal = .ok inpNalu) :
    inpNalu.nalUnitType = f.unit.nalUnitType ∧ inpNalu.bitstream.getNumBitsRead = 16 := by
  obtain ⟨bs, -, -, -, -, result⟩ := read_nal f.inRange f.shape
    ⟨⟨.invalid, 0, 0, 0, 0⟩, InputBitstream.ofFifo f.nal⟩ rfl
  rw [readCopy] at run
  constructor
  · rw [result] at run
    split at run
    · cases run
    · cases run
      rfl
  · unfold NALread.read at run
    obtain ⟨_, run⟩ := CHECK_bind_eq_ok_iff.mp run
    obtain ⟨⟨rbsp, locations⟩, -, run⟩ := bind_eq_ok_iff.mp run
    have count := numBitsRead_readNalUnitHeader run
    rw [InputBitstream.getNumBitsRead, count]
    rfl

/-- The NAL unit as it is copied. -/
def copy (pocBase lastIdrPoc : Int) : List UInt8 :=
  if isPatchedType f.naluType then patchPoc f.nal 16 pocBase lastIdrPoc else f.nal

end Frame

/-- The frames that are copied. -/
def copiedFrames (idx : Nat) : CopyFlags → List Frame → List Frame
  | _, [] => []
  | flags, f :: rest =>
      let flags := flags.seen idx f.naluType
      let later := copiedFrames idx (flags.decided f.naluType) rest
      if flags.drops idx f.naluType then later else f :: later

section Run

variable {M : Type} {store : M → InputNALUnit → Checked M} {idx : Nat} {pocBase lastIdrPoc : Int}

theorem filterNalu_frame {f : Frame} {st st' : FilterState M}
    (run : filterNalu store idx pocBase lastIdrPoc f.lead f.nal st = .ok st') :
    st'.flags = (st.flags.seen idx f.naluType).decided f.naluType ∧
      st'.out = if (st.flags.seen idx f.naluType).drops idx f.naluType then st.out
        else st.out ++ (f.lead ++ f.copy pocBase lastIdrPoc) := by
  unfold filterNalu at run
  obtain ⟨inpNalu, read, run⟩ := bind_eq_ok_iff.mp run
  obtain ⟨manager, -, run⟩ := bind_eq_ok_iff.mp run
  obtain ⟨-, offset⟩ := f.readCopy_nal read
  cases run
  simp only [f.naluType_nal, offset, Frame.copy, List.append_assoc, and_self]

theorem foldlM_frames (frames : List Frame) {st st' : FilterState M}
    (run : frames.foldlM (fun st f => filterNalu store idx pocBase lastIdrPoc f.lead f.nal st) st =
      .ok st') :
    st'.out = st.out ++
      (copiedFrames idx st.flags frames).flatMap fun f => f.lead ++ f.copy pocBase lastIdrPoc := by
  induction frames generalizing st with
  | nil =>
      cases run
      simp [copiedFrames]
  | cons f rest ih =>
      rw [List.foldlM_cons] at run
      obtain ⟨mid, first, run⟩ := bind_eq_ok_iff.mp run
      obtain ⟨flags, out⟩ := filterNalu_frame first
      rw [ih run, flags, out, copiedFrames]
      split
      · rfl
      · simp

/-- The output is the copied frames with their new NAL units. -/
theorem filterSegment_out {manager manager' : M} {frames : List Frame} {beyond : Memory}
    {out : List UInt8} {base : Int}
    (run : filterSegment store manager (segmentBytes frames) beyond idx pocBase lastIdrPoc =
      .ok (out, base, manager')) :
    out = (copiedFrames idx ⟨false, false⟩ (metFrames frames)).flatMap
      fun f => f.lead ++ f.copy pocBase lastIdrPoc := by
  unfold filterSegment at run
  obtain ⟨st, loop, run⟩ := bind_eq_ok_iff.mp run
  rw [filterLoop_frames store idx pocBase lastIdrPoc frames (Holds.ofBuffer _ _)] at loop
  have result := foldlM_frames _ loop
  cases run
  simpa using result

end Run

end Vtm.Parcat
