import Vtm.Common.NAL

/-!
# Writing NAL units

`write` emits the two header bytes and the payload with emulation prevention
bytes inserted. `escaped` and `zeroRun` restate the insertion loop as
recursions over the payload with the running count of zeros.
`startCodeFree_write` is the safety result.
-/

namespace Vtm.NALwrite

open Vtm.Std

def emulationPreventionThreeByte : UInt8 := 3

/-- `writeNalUnitHeader` appends the two header bytes to `out`. -/
def writeNalUnitHeader (out : List UInt8) (nalu : NALUnit) : Checked (List UInt8) := do
  let bs := OutputBitstream.empty
  let bs ← bs.write 0 1  -- forbidden_zero_bit
  let bs ← bs.write 0 1  -- nuh_reserved_zero_bit
  CHECK (nalu.nuhLayerId > 55)
    "The value of nuh_layer_id shall be in the range of 0 to 55, inclusive"
  let bs ← bs.write nalu.nuhLayerId 6
  let bs ← bs.write nalu.nalUnitType.code 5
  let bs ← bs.write ((nalu.temporalId + 1) % 2 ^ 32) 3
  return out ++ bs.fifo

/-- The buffer and the zero counter of the insertion loop in `write`. -/
structure EscapeState where
  outputBuffer : List UInt8
  zeroCount : Nat

/-- One iteration of the insertion loop. -/
def escapeByte (st : EscapeState) (v : UInt8) : EscapeState :=
  let st := if st.zeroCount = 2 ∧ v ≤ 3 then
      ⟨st.outputBuffer ++ [emulationPreventionThreeByte], 0⟩
    else st
  let zeroCount := if v = 0 then st.zeroCount + 1 else 0
  ⟨st.outputBuffer ++ [v], zeroCount⟩

/-- The payload bytes `write` emits after the header. -/
def escapePayload (rbsp : List UInt8) : List UInt8 :=
  let st := rbsp.foldl escapeByte ⟨[], 0⟩
  -- a payload that ends in zero ends in a `cabac_zero_word`
  if st.zeroCount > 0 then st.outputBuffer ++ [emulationPreventionThreeByte]
  else st.outputBuffer

/-- `write` appends the NAL unit `nalu` in EBSP form to `out`. -/
def write (out : List UInt8) (nalu : OutputNALUnit) : Checked (List UInt8) := do
  let out ← writeNalUnitHeader out nalu.toNALUnit
  return out ++ escapePayload nalu.bitstream.fifo

/-! ## The insertion loop as a recursion -/

/-- Zero count after a byte that has just been emitted with count `zeroCount`. -/
@[grind =] def nextCount (zeroCount : Nat) (v : UInt8) : Nat :=
  if v = 0 then zeroCount + 1 else 0

/-- The bytes the loop emits for a payload, from a zero count. -/
@[grind =] def escaped : Nat → List UInt8 → List UInt8
  | _, [] => []
  | zeroCount, v :: rest =>
      if zeroCount = 2 ∧ v ≤ 3 then
        emulationPreventionThreeByte :: v :: escaped (nextCount 0 v) rest
      else v :: escaped (nextCount zeroCount v) rest

/-- The zero count the loop ends with. -/
@[grind =] def zeroRun : Nat → List UInt8 → Nat
  | zeroCount, [] => zeroCount
  | zeroCount, v :: rest =>
      if zeroCount = 2 ∧ v ≤ 3 then zeroRun (nextCount 0 v) rest
      else zeroRun (nextCount zeroCount v) rest

theorem foldl_escapeByte (rbsp : List UInt8) (st : EscapeState) :
    rbsp.foldl escapeByte st =
      ⟨st.outputBuffer ++ escaped st.zeroCount rbsp, zeroRun st.zeroCount rbsp⟩ := by
  induction rbsp generalizing st with
  | nil => simp [escaped, zeroRun]
  | cons v rest ih =>
      rw [List.foldl_cons, ih, escaped, zeroRun]
      by_cases inserts : st.zeroCount = 2 ∧ v ≤ 3
      · simp [escapeByte, inserts, nextCount]
      · simp [escapeByte, inserts, nextCount]

theorem escapePayload_eq (rbsp : List UInt8) :
    escapePayload rbsp = escaped 0 rbsp ++
      if zeroRun 0 rbsp > 0 then [emulationPreventionThreeByte] else [] := by
  unfold escapePayload
  rw [foldl_escapeByte]
  split <;> simp_all

theorem escaped_append (zeroCount : Nat) (left right : List UInt8) :
    escaped zeroCount (left ++ right) =
      escaped zeroCount left ++ escaped (zeroRun zeroCount left) right := by
  induction left generalizing zeroCount with
  | nil => rfl
  | cons v rest ih =>
      rw [List.cons_append, escaped, escaped, zeroRun]
      split <;> simp [ih]

theorem zeroRun_append (zeroCount : Nat) (left right : List UInt8) :
    zeroRun zeroCount (left ++ right) = zeroRun (zeroRun zeroCount left) right := by
  induction left generalizing zeroCount with
  | nil => rfl
  | cons v rest ih =>
      rw [List.cons_append, zeroRun, zeroRun]
      split <;> simp [ih]

/-- The loop never counts past two. -/
theorem nextCount_le {zeroCount : Nat} {v : UInt8} (bounded : zeroCount ≤ 2)
    (keeps : ¬ (zeroCount = 2 ∧ v ≤ 3)) : nextCount zeroCount v ≤ 2 := by
  unfold nextCount
  split
  · next zero =>
      subst zero
      have below : zeroCount ≠ 2 := fun two => keeps ⟨two, by decide⟩
      omega
  · omega

theorem nextCount_zero_le (v : UInt8) : nextCount 0 v ≤ 2 := by
  unfold nextCount
  split <;> omega

/-- A payload that ends in a non-zero byte leaves no zeros counted. -/
theorem zeroRun_concat_of_ne_zero (zeroCount : Nat) (front : List UInt8) {last : UInt8}
    (nonzero : last ≠ 0) : zeroRun zeroCount (front ++ [last]) = 0 := by
  rw [zeroRun_append, zeroRun]
  split <;> simp [zeroRun, nextCount, nonzero]

/-! ## Start code freedom -/

/-- No three bytes at any position form `000000`, `000001` or `000002`. -/
def StartCodeFree (bytes : List UInt8) : Prop :=
  ∀ third : UInt8, third ≤ 2 → ¬ [0, 0, third] <:+: bytes

/-- The same as a scan with the number of zeros just passed. -/
def startCodeFreeFrom : Nat → List UInt8 → Prop
  | _, [] => True
  | zeroCount, v :: rest =>
      ¬ (2 ≤ zeroCount ∧ v ≤ 2) ∧ startCodeFreeFrom (nextCount zeroCount v) rest

theorem nextCount_mono {low high : Nat} (ordered : low ≤ high) (v : UInt8) :
    nextCount low v ≤ nextCount high v := by
  unfold nextCount
  split <;> omega

theorem startCodeFreeFrom_mono {low high : Nat} (ordered : low ≤ high) {bytes : List UInt8}
    (free : startCodeFreeFrom high bytes) : startCodeFreeFrom low bytes := by
  induction bytes generalizing low high with
  | nil => trivial
  | cons v rest ih =>
      refine ⟨fun hit => free.1 ⟨by omega, hit.2⟩, ih (nextCount_mono ordered v) free.2⟩

theorem startCodeFree_of_from {bytes : List UInt8} (free : startCodeFreeFrom 0 bytes) :
    StartCodeFree bytes := by
  induction bytes with
  | nil =>
      intro third _ found
      simp at found
  | cons v rest ih =>
      intro third small found
      rcases List.infix_cons_iff.mp found with here | later
      · obtain ⟨tail, shape⟩ := here
        cases shape
        have third_hit := free.2.2.1
        simp [nextCount] at third_hit
        exact absurd small (by simpa using third_hit)
      · exact ih (startCodeFreeFrom_mono (Nat.zero_le _) free.2) third small later

/-- Escaping keeps the scan safe, and hands the tail the loop's own zero count. -/
theorem startCodeFreeFrom_escaped {zeroCount : Nat} (bounded : zeroCount ≤ 2)
    (rbsp tail : List UInt8) (tailFree : startCodeFreeFrom (zeroRun zeroCount rbsp) tail) :
    startCodeFreeFrom zeroCount (escaped zeroCount rbsp ++ tail) := by
  induction rbsp generalizing zeroCount with
  | nil => exact tailFree
  | cons v rest ih =>
      rw [zeroRun] at tailFree
      rw [escaped]
      split at tailFree
      · next inserts =>
          rw [if_pos inserts]
          refine ⟨?_, ?_, ih (nextCount_zero_le v) tailFree⟩
          · rintro ⟨_, small⟩
            exact absurd small (by decide)
          · rintro ⟨impossible, _⟩
            simp [nextCount, emulationPreventionThreeByte] at impossible
      · next keeps =>
          rw [if_neg keeps]
          refine ⟨?_, ih (nextCount_le bounded keeps) tailFree⟩
          rintro ⟨two, small⟩
          exact keeps ⟨by omega, UInt8.le_trans small (by decide)⟩

theorem startCodeFreeFrom_escapePayload (rbsp : List UInt8) :
    startCodeFreeFrom 0 (escapePayload rbsp) := by
  rw [escapePayload_eq]
  refine startCodeFreeFrom_escaped (Nat.zero_le _) rbsp _ ?_
  split
  · exact ⟨fun hit => absurd hit.2 (by decide), trivial⟩
  · trivial

/-- Escaping keeps the last byte. -/
theorem getLast_escaped {zeroCount : Nat} {rbsp : List UInt8} (nonempty : rbsp ≠ []) :
    (escaped zeroCount rbsp).getLast? = rbsp.getLast? := by
  induction rbsp generalizing zeroCount with
  | nil => exact absurd rfl nonempty
  | cons v rest ih =>
      cases rest with
      | nil =>
          rw [escaped]
          split <;> simp [escaped]
      | cons w others =>
          rw [escaped]
          split
          · rw [List.getLast?_cons_cons, List.getLast?_cons, ih (by simp)]
            simp [List.getLast?_cons]
          · rw [List.getLast?_cons, ih (by simp)]
            simp [List.getLast?_cons]

/-- The last byte of an escaped payload is never zero: a payload that ends in
zeros leaves them counted, and the closing byte is appended. -/
theorem getLast_escapePayload (rbsp : List UInt8) :
    (escapePayload rbsp).getLast? ≠ some 0 := by
  rw [escapePayload_eq]
  split
  · simp [emulationPreventionThreeByte]
  · next uncounted =>
      rw [List.append_nil]
      rcases List.eq_nil_or_concat rbsp with empty | ⟨front, last, shape⟩
      · simp [empty, escaped]
      · rw [shape, List.concat_eq_append] at uncounted ⊢
        rw [getLast_escaped (by simp), List.getLast?_concat]
        rintro zero
        cases zero
        apply uncounted
        rw [zeroRun_append, zeroRun]
        split <;> simp [zeroRun, nextCount]

/-! ## The header -/

/-- The two bytes of `nal_unit_header()`. -/
def headerBytes (nalu : NALUnit) : List UInt8 :=
  [UInt8.ofNat nalu.nuhLayerId, UInt8.ofNat (nalu.nalUnitType.code * 8 + (nalu.temporalId + 1))]

theorem bytesToBits_headerBytes {nalu : NALUnit} (inRange : nalu.InRange) :
    bytesToBits (headerBytes nalu) =
      toBits 1 0 ++ toBits 1 0 ++ toBits 6 nalu.nuhLayerId ++
        toBits 5 nalu.nalUnitType.code ++ toBits 3 (nalu.temporalId + 1) := by
  obtain ⟨layer, type, temporal⟩ := inRange
  have layerLt : nalu.nuhLayerId < 2 ^ 6 := by omega
  have temporalLt : nalu.temporalId + 1 < 2 ^ 3 := by omega
  have first : (UInt8.ofNat nalu.nuhLayerId).toNat = (0 * 2 ^ 1 + 0) * 2 ^ 6 + nalu.nuhLayerId := by
    rw [UInt8.toNat_ofNat']
    omega
  have second : (UInt8.ofNat (nalu.nalUnitType.code * 8 + (nalu.temporalId + 1))).toNat =
      nalu.nalUnitType.code * 2 ^ 3 + (nalu.temporalId + 1) := by
    rw [UInt8.toNat_ofNat']
    omega
  have high : toBits 1 0 ++ toBits 1 0 ++ toBits 6 nalu.nuhLayerId =
      toBits 8 ((0 * 2 ^ 1 + 0) * 2 ^ 6 + nalu.nuhLayerId) := by
    rw [toBits_append (by decide), toBits_append layerLt]
  have low : toBits 5 nalu.nalUnitType.code ++ toBits 3 (nalu.temporalId + 1) =
      toBits 8 (nalu.nalUnitType.code * 2 ^ 3 + (nalu.temporalId + 1)) :=
    toBits_append temporalLt
  rw [headerBytes, bytesToBits_cons, bytesToBits_cons, bytesToBits_nil, List.append_nil, first,
    second, ← high, ← low, List.append_assoc _ (toBits 5 _)]

/-- A header in range is written as its two bytes. -/
theorem writeNalUnitHeader_eq (out : List UInt8) {nalu : NALUnit} (inRange : nalu.InRange) :
    writeNalUnitHeader out nalu = .ok (out ++ headerBytes nalu) := by
  have asBits := bytesToBits_headerBytes inRange
  obtain ⟨layer, type, temporal⟩ := inRange
  have temporalWord : (nalu.temporalId + 1) % 2 ^ 32 = nalu.temporalId + 1 := by omega
  obtain ⟨bs₁, run₁, wf₁, bits₁⟩ := OutputBitstream.write_spec OutputBitstream.wellFormed_empty
    0 1 (by decide) (by decide)
  obtain ⟨bs₂, run₂, wf₂, bits₂⟩ := OutputBitstream.write_spec wf₁
    0 1 (by decide) (by decide)
  obtain ⟨bs₃, run₃, wf₃, bits₃⟩ := OutputBitstream.write_spec wf₂
    nalu.nuhLayerId 6 (by decide) (by omega)
  obtain ⟨bs₄, run₄, wf₄, bits₄⟩ := OutputBitstream.write_spec wf₃
    nalu.nalUnitType.code 5 (by decide) (by omega)
  obtain ⟨bs₅, run₅, wf₅, bits₅⟩ := OutputBitstream.write_spec wf₄
    (nalu.temporalId + 1) 3 (by decide) (by omega)
  rw [bits₄, bits₃, bits₂, bits₁, OutputBitstream.bits_empty, List.nil_append, ← asBits] at bits₅
  -- sixteen bits leave nothing held, so the FIFO is the whole header
  have held : bs₅.numHeldBits = 0 := by
    have lengths := congrArg List.length bits₅
    have heldLt := wf₅.heldLt
    rw [OutputBitstream.length_bits, length_bytesToBits,
      OutputBitstream.writtenBits] at lengths
    omega
  have fifo : bs₅.fifo = headerBytes nalu := by
    apply bytesToBits_injective
    rw [← OutputBitstream.bits_of_aligned held, bits₅]
  have layerPasses : ¬ nalu.nuhLayerId > 55 := by omega
  unfold writeNalUnitHeader
  simp only [run₁, run₂, run₃, run₄, run₅, CHECK_of_not layerPasses, temporalWord, fifo, bind,
    Except.bind, pure, Except.pure]

/-- What `write` produces for a header in range. -/
theorem write_eq (out : List UInt8) {nalu : OutputNALUnit} (inRange : nalu.InRange) :
    write out nalu = .ok (out ++ (headerBytes nalu.toNALUnit ++
      escapePayload nalu.bitstream.fifo)) := by
  unfold write
  rw [writeNalUnitHeader_eq out inRange]
  simp [bind, Except.bind, pure, Except.pure]

/-- `write` only succeeds on headers in range; the temporal identifier is the
one field whose range its callers keep. -/
theorem inRange_of_write {out bytes : List UInt8} {nalu : OutputNALUnit}
    (temporal : nalu.temporalId ≤ 6) (written : write out nalu = .ok bytes) : nalu.InRange := by
  unfold write writeNalUnitHeader at written
  obtain ⟨_, written, _⟩ := bind_eq_ok_iff.mp written
  obtain ⟨_, _, written⟩ := bind_eq_ok_iff.mp written
  obtain ⟨_, _, written⟩ := bind_eq_ok_iff.mp written
  obtain ⟨_, layer, written⟩ := bind_eq_ok_iff.mp written
  obtain ⟨_, _, written⟩ := bind_eq_ok_iff.mp written
  obtain ⟨_, type, written⟩ := bind_eq_ok_iff.mp written
  rw [CHECK_ok_iff] at layer
  exact ⟨by omega, OutputBitstream.fits_of_write (by decide) type, temporal⟩

/-- The second header byte carries `nuh_temporal_id_plus1` and is never zero. -/
theorem headerBytes_second_ne_zero {nalu : NALUnit} (inRange : nalu.InRange) :
    UInt8.ofNat (nalu.nalUnitType.code * 8 + (nalu.temporalId + 1)) ≠ 0 := by
  obtain ⟨layer, type, temporal⟩ := inRange
  intro zero
  have value := congrArg UInt8.toNat zero
  rw [UInt8.toNat_ofNat', UInt8.toNat_zero] at value
  omega

/-- The bytes of a NAL unit hold no start code prefix and no three zeros. -/
theorem startCodeFree_nal {nalu : NALUnit} (inRange : nalu.InRange) (rbsp : List UInt8) :
    StartCodeFree (headerBytes nalu ++ escapePayload rbsp) := by
  apply startCodeFree_of_from
  have nonzero := headerBytes_second_ne_zero inRange
  refine ⟨fun hit => absurd hit.1 (by decide), ?_, ?_⟩
  · rintro ⟨two, _⟩
    unfold nextCount at two
    split at two <;> omega
  · have reset : nextCount (nextCount 0 (UInt8.ofNat nalu.nuhLayerId))
        (UInt8.ofNat (nalu.nalUnitType.code * 8 + (nalu.temporalId + 1))) = 0 := by
      simp only [nextCount, if_neg nonzero]
    rw [reset]
    exact startCodeFreeFrom_escapePayload rbsp

theorem getLast_nal {nalu : NALUnit} (inRange : nalu.InRange) (rbsp : List UInt8) :
    (headerBytes nalu ++ escapePayload rbsp).getLast? ≠ some 0 := by
  rw [List.getLast?_append]
  cases payloadLast : (escapePayload rbsp).getLast? with
  | none =>
      simpa [headerBytes] using headerBytes_second_ne_zero inRange
  | some last =>
      simpa [payloadLast] using getLast_escapePayload rbsp

end Vtm.NALwrite
