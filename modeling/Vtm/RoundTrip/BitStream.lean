import Mathlib.Data.List.SplitLengths
import Vtm.Decoder.VLCReader

/-!
# Sequences of bit stream calls

The single calls of `OutputBitstream` and `InputBitstream` are described by the
bits they append and take. Here they are composed: any sequence of `write` and
`addSubstream` calls against any sequence of `read` calls, `read` calls with
peeks between them, and repeated `extractSubstream` calls.
-/

namespace Vtm.RoundTrip.BitStream

open Vtm.Std
open InputBitstream

/-! ## Writing in any order, reading in any split -/

/-- A bit string with zeros up to the next byte boundary. -/
def zeroPadded (bits : List Bool) : List Bool :=
  bits ++ List.replicate ((8 - bits.length % 8) % 8) false

/-- The calls made on an output bitstream since it was created, latest last. The
substreams handed to `addSubstream` were written by calls of the same kind. -/
inductive WriteCalls where
  | start
  | write (before : WriteCalls) (uiBits uiNumberOfBits : Nat)
  | addSubstream (before substream : WriteCalls)
  | writeAlignZero (before : WriteCalls)
deriving DecidableEq, Repr

namespace WriteCalls

/-- The stream the calls leave behind. -/
def run : WriteCalls → Checked OutputBitstream
  | start => .ok OutputBitstream.empty
  | write before uiBits uiNumberOfBits => do
      let s ← before.run
      s.write uiBits uiNumberOfBits
  | addSubstream before substream => do
      let s ← before.run
      let pcSubstream ← substream.run
      s.addSubstream pcSubstream
  | writeAlignZero before => do
      let s ← before.run
      return s.writeAlignZero

/-- Every field is at most a word and fits its width. -/
def Fits : WriteCalls → Prop
  | start => True
  | write before uiBits uiNumberOfBits =>
      before.Fits ∧ uiNumberOfBits ≤ 32 ∧ uiBits < 2 ^ uiNumberOfBits
  | addSubstream before substream => before.Fits ∧ substream.Fits
  | writeAlignZero before => before.Fits

/-- The concatenation of all fields, most significant bit first. -/
def fields : WriteCalls → List Bool
  | start => []
  | write before uiBits uiNumberOfBits => before.fields ++ toBits uiNumberOfBits uiBits
  | addSubstream before substream => before.fields ++ substream.fields
  | writeAlignZero before => zeroPadded before.fields

/-- `writeAlignZero` on a stream carrying `bits`. -/
theorem bits_writeAlignZero {s : OutputBitstream} (wf : s.WellFormed) :
    s.writeAlignZero.bits = zeroPadded s.bits := by
  have heldLt := wf.heldLt
  have padding : s.getNumBitsUntilByteAligned = (8 - s.bits.length % 8) % 8 := by
    rw [OutputBitstream.length_bits, OutputBitstream.writtenBits,
      OutputBitstream.getNumBitsUntilByteAligned]
    omega
  obtain ⟨_, _, padded⟩ := OutputBitstream.writeAlignZero_spec wf
  rw [padded, padding, zeroPadded]

/-- Calls whose fields fit all succeed and leave their fields behind. -/
theorem run_spec (calls : WriteCalls) (fits : calls.Fits) :
    ∃ s, calls.run = .ok s ∧ s.WellFormed ∧ s.bits = calls.fields := by
  induction calls with
  | start =>
      exact ⟨OutputBitstream.empty, rfl, OutputBitstream.wellFormed_empty, rfl⟩
  | write before uiBits uiNumberOfBits ih =>
      obtain ⟨earlier, width, small⟩ := fits
      obtain ⟨s, run, wf, bits⟩ := ih earlier
      obtain ⟨t, written, wf', bits'⟩ := s.write_spec wf uiBits uiNumberOfBits width small
      refine ⟨t, ?_, wf', ?_⟩
      · rw [WriteCalls.run, run]
        exact written
      · rw [bits', bits, fields]
  | addSubstream before substream ihBefore ihSubstream =>
      obtain ⟨s, run, wf, bits⟩ := ihBefore fits.1
      obtain ⟨sub, runSub, wfSub, bitsSub⟩ := ihSubstream fits.2
      obtain ⟨t, added, wf', bits'⟩ := OutputBitstream.addSubstream_spec wf wfSub
      refine ⟨t, ?_, wf', ?_⟩
      · rw [WriteCalls.run, run, runSub]
        exact added
      · rw [bits', bits, bitsSub, fields]
  | writeAlignZero before ih =>
      obtain ⟨s, run, wf, bits⟩ := ih fits
      obtain ⟨_, wf', _⟩ := OutputBitstream.writeAlignZero_spec wf
      refine ⟨s.writeAlignZero, ?_, wf', ?_⟩
      · rw [WriteCalls.run, run]
        rfl
      · rw [bits_writeAlignZero wf, bits, fields]

end WriteCalls

/-- `read` calls one after another. -/
def readAll : List Nat → InputBitstream → Checked (List Nat × InputBitstream)
  | [], s => .ok ([], s)
  | uiNumberOfBits :: rest, s => do
      let (value, s) ← s.read uiNumberOfBits
      let (values, s) ← readAll rest s
      return (value :: values, s)

/-- Reading any split of the bits left gives the numbers of its groups. -/
theorem readAll_spec {widths : List Nat} {s : InputBitstream} (wf : s.WellFormed)
    (words : ∀ width ∈ widths, width ≤ 32) (enough : widths.sum ≤ s.unreadBits) :
    ∃ s', readAll widths s = .ok ((widths.splitLengths s.remaining).map ofBits, s') ∧
      s'.WellFormed ∧ s'.remaining = s.remaining.drop widths.sum ∧
      SameBytes s s' := by
  induction widths generalizing s with
  | nil => exact ⟨s, rfl, wf, by simp, .refl s⟩
  | cons width rest ih =>
      rw [List.sum_cons] at enough
      obtain ⟨t, run, wf', left, same⟩ := read_take wf (words width (by simp))
        (by omega : width ≤ s.unreadBits)
      have fewer : t.unreadBits = s.unreadBits - width := by
        rw [← length_remaining, left, List.length_drop,
          length_remaining]
      obtain ⟨u, others, wf₂, left₂, same₂⟩ := ih wf'
        (fun other member => words other (by simp [member])) (by omega)
      refine ⟨u, ?_, wf₂, ?_, same.trans same₂⟩
      · rw [readAll, run]
        simp only [bind, Except.bind, others, pure, Except.pure, left, List.splitLengths_cons,
          List.map_cons]
      · rw [left₂, left, List.drop_drop, List.sum_cons]

/-- What a `read` of up to a word does at any point of a stream. -/
theorem read_iff_enough {s : InputBitstream} (wf : s.WellFormed) {width : Nat} (word : width ≤ 32) :
    (∀ value s', s.read width = .ok (value, s') →
      value = ofBits (s.remaining.take width) ∧
        s'.unreadBits + width = s.unreadBits) ∧
    (s.read width = .error "Exceeded FIFO size" ↔ s.unreadBits < width) ∧
    ((∃ value s', s.read width = .ok (value, s')) ↔ width ≤ s.unreadBits) := by
  by_cases enough : width ≤ s.unreadBits
  · obtain ⟨t, run, _, left, _⟩ := read_take wf word enough
    refine ⟨?_, ?_, ?_⟩
    · intro value s' other
      rw [run] at other
      cases other
      refine ⟨rfl, ?_⟩
      rw [← length_remaining t, left, List.length_drop,
        length_remaining]
      omega
    · rw [run]
      simp [enough]
    · exact ⟨fun _ => enough, fun _ => ⟨_, t, run⟩⟩
  · have stops := read_exceeds wf word (by omega)
    rw [stops]
    refine ⟨?_, ?_, ?_⟩
    · intro value s' run
      cases run
    · exact ⟨fun _ => by omega, fun _ => rfl⟩
    · constructor
      · rintro ⟨_, _, run⟩
        cases run
      · intro within
        exact absurd within enough

/-- Bytes of zeros written one by one. -/
def zeroBytes : Nat → WriteCalls
  | 0 => .start
  | count + 1 => .write (zeroBytes count) 0 8

theorem zeroBytes_fits (count : Nat) :
    (zeroBytes count).Fits ∧ (zeroBytes count).fields.length = 8 * count := by
  induction count with
  | zero => exact ⟨trivial, rfl⟩
  | succ count ih =>
      refine ⟨⟨ih.1, by decide, by decide⟩, ?_⟩
      rw [zeroBytes, WriteCalls.fields, List.length_append, ih.2, length_toBits, Nat.mul_succ]

/-- The stream with another running count. -/
def counted (s : InputBitstream) (numBitsRead : Nat) : InputBitstream :=
  { s with numBitsRead }

@[simp] theorem counted_self (s : InputBitstream) : counted s s.numBitsRead = s := rfl

@[simp] theorem counted_counted (s : InputBitstream) (first second : Nat) :
    counted (counted s first) second = counted s second := rfl

theorem WellFormed.counted {s : InputBitstream} (wf : s.WellFormed) (numBitsRead : Nat) :
    (counted s numBitsRead).WellFormed := ⟨wf.heldLt, wf.idxLe⟩

/-- The next `n` bits, zero-padded behind the end. -/
def nextBits (s : InputBitstream) (n : Nat) : List Bool :=
  (s.remaining ++ List.replicate n false).take n

/-- A peek looks at no more bits than `getNumBitsLeft` says and pads them with
zeros. All it leaves in the stream is the number of bits it looked at, added to the
running count. -/
theorem pseudoRead_spec {s : InputBitstream} (wf : s.WellFormed) {n : Nat} (width : n ≤ 32) :
    s.pseudoRead n = .ok (ofBits (s.remaining.take (min n s.getNumBitsLeft) ++
        List.replicate (n - min n s.getNumBitsLeft) false),
      counted s (s.numBitsRead + min n s.getNumBitsLeft)) := by
  set taken := min n s.getNumBitsLeft with takenDef
  obtain ⟨t, run, _, _, same⟩ := read_take wf (by omega : taken ≤ 32)
    ((Nat.min_le_right _ _).trans s.getNumBitsLeft_le)
  have value : (ofBits (s.remaining.take taken) <<< (n - taken)) % 2 ^ 32 =
      ofBits (s.remaining.take taken ++ List.replicate (n - taken) false) := by
    have below := ofBits_lt (s.remaining.take taken ++ List.replicate (n - taken) false)
    have short := List.length_take_le taken s.remaining
    rw [Nat.shiftLeft_eq, ofBits_append, ofBits_replicate_false, List.length_replicate,
      Nat.add_zero]
    rw [ofBits_append, ofBits_replicate_false, List.length_append, List.length_replicate,
      Nat.add_zero] at below
    apply Nat.mod_eq_of_lt
    exact lt_of_lt_of_le below (Nat.pow_le_pow_right (by decide) (by omega))
  have restored : ({ t with
      fifoIdx := s.fifoIdx
      heldBits := s.heldBits
      numHeldBits := s.numHeldBits } : InputBitstream) = counted s (s.numBitsRead + taken) := by
    rw [← read_numBitsRead run]
    simp only [counted, same.fifo, same.locations]
  unfold InputBitstream.pseudoRead
  simp only [← takenDef, run, bind, Except.bind, pure, Except.pure, value, restored]

/-- As long as `getNumBitsLeft` covers the bits asked for or all there are, a peek
looks at the right ones. -/
theorem nextBits_eq {s : InputBitstream} {n : Nat}
    (covered : n ≤ s.getNumBitsLeft ∨ s.getNumBitsLeft = s.unreadBits) :
    s.remaining.take (min n s.getNumBitsLeft) ++
      List.replicate (n - min n s.getNumBitsLeft) false = nextBits s n := by
  have atMost := s.getNumBitsLeft_le
  rw [nextBits, List.take_append, List.take_replicate, length_remaining]
  congr 1
  · rcases covered with enough | whole
    · rw [Nat.min_eq_left enough]
    · rw [whole, ← length_remaining, ← List.take_eq_take_min]
  · congr 1
    omega

/-- A call on an input bitstream that reads or looks ahead. -/
inductive ReadCall where
  | read (uiNumberOfBits : Nat)
  | peekBits (uiBits : Nat)
  | xMoreRbspData
deriving DecidableEq, Repr

namespace ReadCall

/-- The values a call reads; what a peek returns is not among them. -/
def run : ReadCall → BitReader (List Nat)
  | read uiNumberOfBits => do
      let value ← VLCReader.read uiNumberOfBits
      return [value]
  | peekBits uiBits => do
      let _ ← VLCReader.peekBits uiBits
      return []
  | xMoreRbspData => do
      let _ ← VLCReader.xMoreRbspData
      return []

def isRead : ReadCall → Bool
  | read _ => true
  | _ => false

/-- A peek of at most a word; `read` checks its own width. -/
def Fits : ReadCall → Prop
  | peekBits uiBits => uiBits ≤ 32
  | _ => True

/-- The bits a call looks at without reading them when `getNumBitsLeft` is `left`. -/
def peeked (left : Nat) : ReadCall → Nat
  | read _ => 0
  | peekBits uiBits => min uiBits left
  | xMoreRbspData => if left > 8 then 0 else left

/-- The bits not read behind a call. -/
def leaves (unread : Nat) : ReadCall → Nat
  | read uiNumberOfBits => unread - uiNumberOfBits
  | _ => unread

end ReadCall

/-- Calls one after another. -/
def runCalls : List ReadCall → BitReader (List Nat)
  | [] => return []
  | call :: rest => do
      let front ← call.run
      let back ← runCalls rest
      return front ++ back

/-- `xMoreRbspData` passes its own checks: more than a byte is left, as far as an
`int` holds the number, or there is a one that can be the stop bit. `bits` are the
bits not read. -/
def Answers (bits : List Bool) : Prop :=
  8 < bits.length % 2 ^ 32 ∧ bits.length % 2 ^ 32 < 2 ^ 31 ∨
    bits.length % 2 ^ 32 ≤ 8 ∧ true ∈ bits.take (bits.length % 2 ^ 32)

/-- `xMoreRbspData` is only asked where it answers. -/
def Answered : List Bool → List ReadCall → Prop
  | _, [] => True
  | bits, .read uiNumberOfBits :: rest => Answered (bits.drop uiNumberOfBits) rest
  | bits, .peekBits _ :: rest => Answered bits rest
  | bits, .xMoreRbspData :: rest => Answers bits ∧ Answered bits rest

/-- The bits looked at by all peeks among the calls, with `unread` bits to go. -/
def peekedBits : Nat → List ReadCall → Nat
  | _, [] => 0
  | unread, call :: rest =>
      call.peeked (unread % 2 ^ 32) + peekedBits (call.leaves unread) rest

/-- A `read` that succeeds moves past the bits it takes. -/
theorem read_moves {s s' : InputBitstream} (wf : s.WellFormed) {n value : Nat}
    (run : s.read n = .ok (value, s')) :
    s'.WellFormed ∧ s'.remaining = s.remaining.drop n := by
  have word := read_word run
  obtain ⟨_, _, within⟩ := read_iff_enough wf word
  obtain ⟨t, taken, wf', left, _⟩ := read_take wf word (within.mp ⟨_, _, run⟩)
  rw [taken] at run
  cases run
  exact ⟨wf', left⟩

/-- `read` does not look at the running count. -/
theorem read_counted {s s' : InputBitstream} {n value : Nat} (run : s.read n = .ok (value, s'))
    (numBitsRead : Nat) :
    (counted s numBitsRead).read n = .ok (value, counted s' (numBitsRead + n)) := by
  unfold InputBitstream.read at run ⊢
  obtain ⟨width, run⟩ := CHECK_bind_eq_ok_iff.mp run
  apply CHECK_bind_eq_ok_iff.mpr ⟨width, ?_⟩
  dsimp only at run
  split at run
  · next within =>
      cases run
      exact if_pos within
  · next beyond =>
      obtain ⟨enough, run⟩ := CHECK_bind_eq_ok_iff.mp run
      cases run
      apply (if_neg beyond).trans
      exact CHECK_bind_eq_ok_iff.mpr ⟨enough, rfl⟩

/-- A number with a one bit has bits left when its trailing zeros are gone. -/
theorem dropTrailingZeros_pos (cnt lastByte : Nat) (fits : lastByte < 2 ^ cnt)
    (nonzero : lastByte ≠ 0) : 0 < VLCReader.dropTrailingZeros cnt lastByte := by
  induction cnt generalizing lastByte with
  | zero => simp at fits; omega
  | succ cnt ih =>
      rw [VLCReader.dropTrailingZeros]
      split
      · apply ih
        · rw [Nat.shiftRight_eq_div_pow]
          rw [pow_succ] at fits
          omega
        · rw [Nat.shiftRight_eq_div_pow]
          omega
      · omega

/-- A bit string with a one denotes a positive number. -/
theorem ofBits_ne_zero {bits : List Bool} (one : true ∈ bits) : ofBits bits ≠ 0 := by
  intro zero
  have same : bits = List.replicate bits.length false :=
    ofBits_injective (by simp) (by simpa using zero)
  rw [same] at one
  simp at one

/-- A bit string without a one denotes zero. -/
theorem ofBits_of_zeros {bits : List Bool} (zeros : true ∉ bits) : ofBits bits = 0 := by
  have same : bits = List.replicate bits.length false := by
    rw [List.eq_replicate_iff]
    refine ⟨rfl, fun bit member => ?_⟩
    cases bit with
    | false => rfl
    | true => exact absurd member zeros
  rw [same, ofBits_replicate_false]

/-- Where it may be asked, `xMoreRbspData` answers and leaves only the bits it
looked at in the running count. -/
theorem xMoreRbspData_spec {s : InputBitstream} (wf : s.WellFormed)
    (answers : Answers s.remaining) :
    ∃ more, VLCReader.xMoreRbspData s = .ok (more,
      counted s (s.numBitsRead + ReadCall.peeked s.getNumBitsLeft .xMoreRbspData)) := by
  have left : VLCReader.bitsLeft s = .ok (s.getNumBitsLeft, s) := rfl
  have small : s.getNumBitsLeft < 2 ^ 31 := by
    rw [Answers, length_remaining] at answers
    unfold getNumBitsLeft
    omega
  have int : (s.getNumBitsLeft : Int).bmod (2 ^ 32) = s.getNumBitsLeft :=
    Int.bmod_eq_of_le (by omega) (by omega)
  unfold VLCReader.xMoreRbspData
  rw [bind_run left]
  simp only [int]
  by_cases large : s.getNumBitsLeft > 8
  · rw [if_pos (by omega)]
    refine ⟨true, ?_⟩
    simp only [ReadCall.peeked, if_pos large, Nat.add_zero, counted_self]
    rfl
  · rw [if_neg (by omega)]
    have one : true ∈ s.remaining.take s.getNumBitsLeft := by
      rw [Answers, length_remaining] at answers
      exact (answers.resolve_left fun more => large more.1).2
    have size : (s.remaining.take s.getNumBitsLeft).length = s.getNumBitsLeft := by
      rw [List.length_take, length_remaining]
      exact Nat.min_eq_left s.getNumBitsLeft_le
    have peek := pseudoRead_spec wf (by omega : s.getNumBitsLeft ≤ 32)
    rw [Nat.min_self, Nat.sub_self, List.replicate_zero, List.append_nil] at peek
    have peek' : VLCReader.peekBits s.getNumBitsLeft s =
        .ok (ofBits (s.remaining.take s.getNumBitsLeft),
          counted s (s.numBitsRead + s.getNumBitsLeft)) := peek
    have below := ofBits_lt (s.remaining.take s.getNumBitsLeft)
    rw [size] at below
    have byte : ofBits (s.remaining.take s.getNumBitsLeft) % 256 =
        ofBits (s.remaining.take s.getNumBitsLeft) := by
      apply Nat.mod_eq_of_lt
      exact lt_of_lt_of_le below
        (Nat.pow_le_pow_right (by decide) (by omega : s.getNumBitsLeft ≤ 8))
    have positive := dropTrailingZeros_pos _ _ below (ofBits_ne_zero one)
    rw [bind_run peek', byte, if_neg (by omega), bind_run (check_run (by omega))]
    simp only [ReadCall.peeked, if_neg large]
    exact ⟨_, rfl⟩

/-- Peeks between the reads of a run: the same values are read, and the running
count grows by the bits looked at. The induction also runs over the count the
reads alone started from. -/
theorem runCalls_peeks {calls : List ReadCall} {s t : InputBitstream} {numBitsRead : Nat}
    {values : List Nat} (wf : s.WellFormed) (fits : ∀ call ∈ calls, call.Fits)
    (answered : Answered s.remaining calls)
    (reads : runCalls (calls.filter ReadCall.isRead) (counted s numBitsRead) = .ok (values, t)) :
    ∃ s', runCalls calls s = .ok (values, s') ∧ s' = counted t s'.numBitsRead ∧
      s'.numBitsRead + numBitsRead =
        t.numBitsRead + s.numBitsRead + peekedBits s.unreadBits calls := by
  induction calls generalizing s numBitsRead values with
  | nil =>
      cases reads
      exact ⟨s, rfl, rfl, by simp [peekedBits, counted, Nat.add_comm]⟩
  | cons call rest ih =>
      have later : ∀ other ∈ rest, other.Fits := fun other member => fits other (by simp [member])
      -- a peek that succeeds only moves the running count
      have skip : ∀ peek : ReadCall, peek.leaves s.unreadBits = s.unreadBits →
          Answered s.remaining rest →
          runCalls (rest.filter ReadCall.isRead) (counted s numBitsRead) = .ok (values, t) →
          peek.run s = .ok ([], counted s (s.numBitsRead + peek.peeked s.getNumBitsLeft)) →
          ∃ s', runCalls (peek :: rest) s = .ok (values, s') ∧ s' = counted t s'.numBitsRead ∧
            s'.numBitsRead + numBitsRead =
              t.numBitsRead + s.numBitsRead + peekedBits s.unreadBits (peek :: rest) := by
        intro peek stays answered reads step
        set moved := counted s (s.numBitsRead + peek.peeked s.getNumBitsLeft) with movedDef
        have unmoved : moved.unreadBits = s.unreadBits := rfl
        have counts : moved.numBitsRead = s.numBitsRead + peek.peeked s.getNumBitsLeft := rfl
        obtain ⟨s', run, same, count⟩ := ih (s := moved) (WellFormed.counted wf _) later answered
          reads
        refine ⟨s', ?_, same, ?_⟩
        · rw [runCalls, bind_run step, bind_run run]
          rfl
        · rw [peekedBits, stays, ← getNumBitsLeft]
          rw [unmoved, counts] at count
          omega
      cases call with
      | read uiNumberOfBits =>
          obtain ⟨front, u, first, others⟩ := bind_run_ok_iff.mp reads
          obtain ⟨value, _, taken, returned⟩ := bind_run_ok_iff.mp first
          cases returned
          obtain ⟨back, _, tail, returned⟩ := bind_run_ok_iff.mp others
          cases returned
          -- the same field is read behind the peeks, where only the count differs
          have step := read_counted taken s.numBitsRead
          rw [counted_counted, counted_self] at step
          have counts := read_numBitsRead taken
          obtain ⟨movedWf, left⟩ := read_moves wf step
          obtain ⟨s', runs, same, count⟩ := ih (s := counted u (s.numBitsRead + uiNumberOfBits))
            movedWf later (by rw [left]; exact answered) tail
          have single : ReadCall.run (.read uiNumberOfBits) s =
              .ok ([value], counted u (s.numBitsRead + uiNumberOfBits)) := bind_run step
          have fewer : (counted u (s.numBitsRead + uiNumberOfBits)).unreadBits =
              s.unreadBits - uiNumberOfBits := by
            rw [← length_remaining, left, List.length_drop,
              length_remaining]
          refine ⟨s', ?_, same, ?_⟩
          · rw [runCalls, bind_run single, bind_run runs]
            rfl
          · rw [peekedBits, ReadCall.peeked, ReadCall.leaves, ← fewer]
            simp only [counted] at count counts ⊢
            omega
      | peekBits uiBits =>
          apply skip (.peekBits uiBits) rfl answered reads
          have peek : VLCReader.peekBits uiBits s = _ :=
            pseudoRead_spec wf (fits (.peekBits uiBits) (by simp))
          rw [ReadCall.run, bind_run peek]
          rfl
      | xMoreRbspData =>
          apply skip .xMoreRbspData rfl answered.2 reads
          obtain ⟨more, step⟩ := xMoreRbspData_spec wf answered.1
          rw [ReadCall.run, bind_run step]
          rfl

/-- A peek never disturbs the reads behind it, but it shows the right bits and leaves
the stream as it was only when it asks for none or when `getNumBitsLeft` is zero and no
one is among the next bits. Over a run the peeks show in `getNumBitsRead` unless the
bits they looked at wrap around. -/
theorem peeks_unnoticed_iff (s : InputBitstream) (wf : s.WellFormed) :
    (∀ n ≤ 32, ∃ value s', s.pseudoRead n = .ok (value, s') ∧
      (n ≤ s.getNumBitsLeft ∨ s.unreadBits < 2 ^ 32 → value = ofBits (nextBits s n)) ∧
      (value = ofBits (nextBits s n) ∧ s' = s ↔
        n = 0 ∨ s.getNumBitsLeft = 0 ∧ true ∉ nextBits s n)) ∧
    ∀ (calls : List ReadCall) (values : List Nat) (t : InputBitstream),
      (∀ call ∈ calls, call.Fits) → Answered s.remaining calls →
      runCalls (calls.filter ReadCall.isRead) s = .ok (values, t) →
      ∃ s', runCalls calls s = .ok (values, s') ∧ s' = counted t s'.numBitsRead ∧
        (s'.getNumBitsRead = t.getNumBitsRead ↔
          peekedBits s.unreadBits calls % 2 ^ 32 = 0) := by
  constructor
  · intro n width
    refine ⟨_, _, pseudoRead_spec wf width, ?_, ?_⟩
    · intro covered
      rw [nextBits_eq (covered.imp_right getNumBitsLeft_of_lt)]
    · constructor
      · rintro ⟨value, same⟩
        have counts := congrArg InputBitstream.numBitsRead same
        simp only [counted] at counts
        by_cases none : n = 0
        · exact Or.inl none
        · have nothing : s.getNumBitsLeft = 0 := by omega
          refine Or.inr ⟨nothing, fun one => ofBits_ne_zero one ?_⟩
          rw [← value, nothing]
          simp
      · rintro (rfl | ⟨nothing, zeros⟩)
        · simp [nextBits]
        · rw [nothing, Nat.min_zero, Nat.add_zero, counted_self, ofBits_of_zeros zeros]
          simp
  · intro calls values t fits answered reads
    have reads' : runCalls (calls.filter ReadCall.isRead) (counted s s.numBitsRead) =
        .ok (values, t) := reads
    obtain ⟨s', run, same, count⟩ := runCalls_peeks wf fits answered reads'
    refine ⟨s', run, same, ?_⟩
    unfold InputBitstream.getNumBitsRead
    omega

/-- Two bytes read in three fields, with a peek across them and two questions whether
more than the trailing bits is left. -/
theorem peeks_unnoticed_iff_sample :
    (∃ value s', (ofFifo [0x80, 0x40]).pseudoRead 0 = .ok (value, s') ∧
      s' = ofFifo [0x80, 0x40]) ∧
    ∃ s', runCalls [.peekBits 11, .read 3, .xMoreRbspData, .read 5, .xMoreRbspData, .read 2]
      (ofFifo [0x80, 0x40]) = .ok ([4, 0, 1], s') := by
  have wf : (ofFifo [0x80, 0x40]).WellFormed := ⟨by decide, by decide⟩
  obtain ⟨single, runs⟩ := peeks_unnoticed_iff (ofFifo [0x80, 0x40]) wf
  obtain ⟨value, s', run, _, same⟩ := single 0 (by decide)
  obtain ⟨s₂, run₂, _⟩ := runs
    [.peekBits 11, .read 3, .xMoreRbspData, .read 5, .xMoreRbspData, .read 2] [4, 0, 1] _
    (by simp [ReadCall.Fits]) (by simp only [Answered, Answers]; decide) rfl
  exact ⟨⟨value, s', run, (same.mpr (Or.inl rfl)).2⟩, s₂, run₂⟩

/-- Peeking at a byte and reading it: the count says two bytes were read. -/
theorem peek_counts_as_read :
    (∃ value s', (ofFifo [0x80]).pseudoRead 8 = .ok (value, s') ∧
      s' ≠ ofFifo [0x80]) ∧
    ∃ s' t, runCalls [.peekBits 8, .read 8] (ofFifo [0x80]) = .ok ([0x80], s') ∧
      runCalls [.read 8] (ofFifo [0x80]) = .ok ([0x80], t) ∧
      s'.getNumBitsRead = 16 ∧ t.getNumBitsRead = 8 :=
  ⟨⟨0x80, ⟨[0x80], [], 0, 0, 0, 8⟩, rfl, by decide⟩, ⟨[0x80], [], 1, 0, 0x80, 16⟩,
    ⟨[0x80], [], 1, 0, 0x80, 8⟩, rfl, rfl, rfl, rfl⟩

/-! ## Cutting substreams -/

theorem bytesToBits_take (bytes : List UInt8) (count : Nat) (within : count ≤ bytes.length) :
    bytesToBits (bytes.take count) = (bytesToBits bytes).take (8 * count) ∧
      bytesToBits (bytes.drop count) = (bytesToBits bytes).drop (8 * count) := by
  have size : (bytesToBits (bytes.take count)).length = 8 * count := by
    rw [length_bytesToBits, List.length_take_of_le within]
  have split : bytesToBits bytes = bytesToBits (bytes.take count) ++ bytesToBits (bytes.drop count) := by
    rw [← bytesToBits_append, List.take_append_drop]
  constructor
  · rw [split, List.take_left' size]
  · rw [split, List.drop_left' size]

/-- A byte read as eight bits is those bits. -/
theorem toBits_byte {bits : List Bool} (byte : bits.length = 8) :
    toBits 8 (UInt8.ofNat (ofBits bits)).toNat = bits := by
  have below := ofBits_lt bits
  rw [byte] at below
  have digits := toBits_ofBits bits
  rw [byte] at digits
  rw [UInt8.toNat_ofNat', Nat.mod_eq_of_lt below, digits]

/-- The path that shifts: whole bytes read from any position. -/
theorem readWholeBytes_spec {count : Nat} {s : InputBitstream} (wf : s.WellFormed)
    (enough : 8 * count ≤ s.unreadBits) :
    ∃ buf s', readWholeBytes count s = .ok (buf, s') ∧
      bytesToBits buf = s.remaining.take (8 * count) ∧ s'.WellFormed ∧
      s'.remaining = s.remaining.drop (8 * count) ∧ SameBytes s s' := by
  induction count generalizing s with
  | zero => exact ⟨[], s, rfl, rfl, wf, rfl, .refl s⟩
  | succ count ih =>
      obtain ⟨t, run, wf', left, same⟩ := read_take wf (by decide : 8 ≤ 32)
        (by omega)
      have fewer : t.unreadBits = s.unreadBits - 8 := by
        rw [← length_remaining, left, List.length_drop,
          length_remaining]
      obtain ⟨buf, u, rest, bits, wf₂, left₂, same₂⟩ := ih wf' (by omega)
      have byte : (s.remaining.take 8).length = 8 := by
        rw [List.length_take, length_remaining]
        omega
      refine ⟨UInt8.ofNat (ofBits (s.remaining.take 8)) :: buf, u, ?_, ?_, wf₂, ?_,
        same.trans same₂⟩
      · rw [readWholeBytes, run]
        simp only [bind, Except.bind, rest, pure, Except.pure]
      · rw [bytesToBits_cons, toBits_byte byte, bits, left, Nat.mul_succ, Nat.add_comm, List.take_add]
      · rw [left₂, left, List.drop_drop, Nat.mul_succ, Nat.add_comm]

/-- The whole bytes of a substream: a block copy or shifted reads. -/
def extractWholeBytes (count : Nat) (s : InputBitstream) : Checked (List UInt8 × InputBitstream) :=
  if s.numHeldBits = 0 then
    .ok ((s.fifo.drop s.fifoIdx).take (min count (s.fifo.length - s.fifoIdx)) ++
        List.replicate (count - min count (s.fifo.length - s.fifoIdx)) 0,
      { s with fifoIdx := s.fifoIdx + min count (s.fifo.length - s.fifoIdx) })
  else readWholeBytes count s

/-- `extractSubstream` is its whole bytes followed by its partial byte. -/
theorem extractSubstream_eq (s : InputBitstream) (n : Nat) :
    s.extractSubstream n = (extractWholeBytes (n / 8) s >>= fun whole =>
      if n % 8 ≠ 0 then
        whole.2.read (n % 8) >>= fun last =>
          .ok (ofFifo (whole.1 ++ [UInt8.ofNat (last.1 <<< (8 - n % 8))]), last.2)
      else .ok (ofFifo whole.1, whole.2)) := by
  unfold extractSubstream extractWholeBytes
  by_cases aligned : s.numHeldBits = 0
  · simp only [if_pos aligned]
    rfl
  · simp only [if_neg aligned]
    rfl

/-- Both paths of `extractSubstream` hand over the whole bytes. -/
theorem extractWholeBytes_spec {count : Nat} {s : InputBitstream} (wf : s.WellFormed)
    (enough : 8 * count ≤ s.unreadBits) :
    ∃ buf s', extractWholeBytes count s = .ok (buf, s') ∧
      bytesToBits buf = s.remaining.take (8 * count) ∧ s'.WellFormed ∧
      s'.remaining = s.remaining.drop (8 * count) ∧ SameBytes s s' := by
  unfold extractWholeBytes
  by_cases aligned : s.numHeldBits = 0
  · have idxLe := wf.idxLe
    have whole : min count (s.fifo.length - s.fifoIdx) = count := by
      unfold unreadBits at enough
      omega
    have view : s.remaining = bytesToBits (s.fifo.drop s.fifoIdx) := by
      simp [remaining, aligned]
    have within : count ≤ (s.fifo.drop s.fifoIdx).length := by
      rw [List.length_drop]
      omega
    obtain ⟨front, back⟩ := bytesToBits_take _ count within
    rw [if_pos aligned, view]
    simp only [whole, Nat.sub_self, List.replicate_zero, List.append_nil]
    refine ⟨_, _, rfl, front, ⟨wf.heldLt, ?_⟩, ?_, ⟨rfl, rfl⟩⟩
    · rw [List.length_drop] at within
      show s.fifoIdx + count ≤ s.fifo.length
      omega
    · rw [← back, List.drop_drop]
      simp [remaining, aligned]
  · rw [if_neg aligned]
    exact readWholeBytes_spec wf enough

/-- A partial byte moved to the top of a byte is its bits, zero-padded. -/
theorem toBits_partial {bits : List Bool} (short : bits.length < 8) :
    toBits 8 (UInt8.ofNat (ofBits bits <<< (8 - bits.length))).toNat =
      bits ++ List.replicate (8 - bits.length) false := by
  have padded : (bits ++ List.replicate (8 - bits.length) false).length = 8 := by
    rw [List.length_append, List.length_replicate]
    omega
  have value : ofBits bits <<< (8 - bits.length) =
      ofBits (bits ++ List.replicate (8 - bits.length) false) := by
    rw [ofBits_append, ofBits_replicate_false, List.length_replicate, Nat.shiftLeft_eq,
      Nat.add_zero]
  rw [value, toBits_byte padded]

/-- `extractSubstream` moves the next bits into a stream of their own, at any
alignment of the source. -/
theorem extractSubstream_spec {n : Nat} {s : InputBitstream} (wf : s.WellFormed)
    (enough : n ≤ s.unreadBits) :
    ∃ sub s', s.extractSubstream n = .ok (sub, s') ∧
      sub.remaining = zeroPadded (s.remaining.take n) ∧ s'.WellFormed ∧
      s'.remaining = s.remaining.drop n ∧ SameBytes s s' := by
  obtain ⟨buf, t, whole, bits, wf', left, same⟩ := extractWholeBytes_spec wf
    (by omega : 8 * (n / 8) ≤ s.unreadBits)
  have fresh : ∀ fifo, (ofFifo fifo).remaining = bytesToBits fifo := fun _ => rfl
  have size : (s.remaining.take n).length = n := by
    rw [List.length_take, length_remaining]
    omega
  rw [extractSubstream_eq, whole]
  dsimp only [bind, Except.bind]
  by_cases rest : n % 8 = 0
  · have exact_bytes : 8 * (n / 8) = n := by omega
    rw [exact_bytes] at bits left
    rw [if_neg (by simpa using rest)]
    refine ⟨_, _, rfl, ?_, wf', left, same⟩
    rw [fresh, bits, zeroPadded, size, rest]
    simp
  · have fewer : t.unreadBits = s.unreadBits - 8 * (n / 8) := by
      rw [← length_remaining, left, List.length_drop,
        length_remaining]
    obtain ⟨u, run, wf₂, left₂, same₂⟩ := read_take wf' (by omega : n % 8 ≤ 32)
      (by omega)
    have last : (t.remaining.take (n % 8)).length = n % 8 := by
      rw [List.length_take, length_remaining]
      omega
    have tail := toBits_partial (by omega : (t.remaining.take (n % 8)).length < 8)
    rw [last] at tail
    rw [if_pos rest, run]
    refine ⟨_, _, rfl, ?_, wf₂, ?_, same.trans same₂⟩
    · have group : s.remaining.take n =
          s.remaining.take (8 * (n / 8)) ++ t.remaining.take (n % 8) := by
        rw [left, ← List.take_add, Nat.div_add_mod]
      rw [fresh, bytesToBits_append, bytesToBits_cons, bytesToBits_nil, List.append_nil, tail, bits,
        zeroPadded, size, group, List.append_assoc, show (8 - n % 8) % 8 = 8 - n % 8 by omega]
    · rw [left₂, left, List.drop_drop, Nat.div_add_mod]

/-- `extractSubstream` calls one after another. -/
def extractAll : List Nat → InputBitstream → Checked (List InputBitstream × InputBitstream)
  | [], s => .ok ([], s)
  | uiNumBits :: rest, s => do
      let (pResult, s) ← s.extractSubstream uiNumBits
      let (results, s) ← extractAll rest s
      return (pResult :: results, s)

theorem extractAll_spec {sizes : List Nat} {s : InputBitstream} (wf : s.WellFormed)
    (enough : sizes.sum ≤ s.unreadBits) :
    ∃ subs s', extractAll sizes s = .ok (subs, s') ∧
      subs.map remaining = (sizes.splitLengths s.remaining).map zeroPadded ∧
      s'.remaining = s.remaining.drop sizes.sum := by
  induction sizes generalizing s with
  | nil => exact ⟨[], s, rfl, rfl, rfl⟩
  | cons size rest ih =>
      rw [List.sum_cons] at enough
      obtain ⟨sub, t, run, bits, wf', left, _⟩ := extractSubstream_spec wf
        (by omega : size ≤ s.unreadBits)
      have fewer : t.unreadBits = s.unreadBits - size := by
        rw [← length_remaining, left, List.length_drop,
          length_remaining]
      obtain ⟨subs, u, others, pieces, left₂⟩ := ih wf' (by omega)
      refine ⟨sub :: subs, u, ?_, ?_, ?_⟩
      · rw [extractAll, run]
        simp only [bind, Except.bind, others, pure, Except.pure]
      · rw [List.map_cons, bits, pieces, left, List.splitLengths_cons, List.map_cons]
      · rw [left₂, left, List.drop_drop, List.sum_cons]

/-- Cutting padded pieces back to their sizes gives the pieces. -/
theorem take_zeroPadded {sizes : List Nat} {bits : List Bool} (enough : sizes.sum ≤ bits.length) :
    List.zipWith List.take sizes ((sizes.splitLengths bits).map zeroPadded) =
      sizes.splitLengths bits := by
  induction sizes generalizing bits with
  | nil => rfl
  | cons size rest ih =>
      rw [List.sum_cons] at enough
      have whole : (bits.take size).length = size := List.length_take_of_le (by omega)
      rw [List.splitLengths_cons, List.map_cons, List.zipWith_cons_cons,
        ih (by rw [List.length_drop]; omega), zeroPadded, List.take_left' whole]

end Vtm.RoundTrip.BitStream
