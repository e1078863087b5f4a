import Mathlib
import Vtm.Common.BitStream

/-!
# Reading an Annex B byte stream

`InputByteStream` reads ahead up to four bytes; `InputByteStream.bytes` is the
byte string it still has to deliver, which looking ahead leaves alone.
`_byteStreamNALUnit` signals the end of the stream by a failure that leaves the
partial results in place, so its state survives a failure.
-/

namespace Vtm

open Vtm.Std

/-- What ends `_byteStreamNALUnit` early. -/
inductive Failure where
  | eof
  | thrown (message : String)
deriving DecidableEq, Repr

/-- A byte stream with the bytes that have been peeked. -/
structure InputByteStream where
  numFutureBytes : Nat
  futureBytes : Nat
  input : List UInt8
deriving DecidableEq, Repr

namespace InputByteStream

def ofInput (input : List UInt8) : InputByteStream := ⟨0, 0, input⟩

/-- The bytes not yet consumed. -/
def bytes (bs : InputByteStream) : List UInt8 :=
  pushBytes bs.numFutureBytes bs.futureBytes ++ bs.input

structure WellFormed (bs : InputByteStream) : Prop where
  few : bs.numFutureBytes ≤ 4
  fits : bs.futureBytes < 256 ^ bs.numFutureBytes

/-- The loop of `eofBeforeNBytes`: move bytes from the input to the look-ahead
word; `true` when the input ends first. -/
def load : Nat → InputByteStream → Bool × InputByteStream
  | 0, bs => (false, bs)
  | n + 1, bs =>
      match bs.input with
      | [] => (true, bs)
      | byte :: rest =>
          load n ⟨bs.numFutureBytes + 1, ((bs.futureBytes <<< 8) ||| byte.toNat) % 2 ^ 32, rest⟩

/-- `eofBeforeNBytes`: whether the stream ends within the next `n` bytes. -/
def eofBeforeNBytes (bs : InputByteStream) (n : Nat) : Except Failure (Bool × InputByteStream) :=
  if n > 4 then .error (.thrown "Unsupported look-ahead value")
  else if bs.numFutureBytes ≥ n then .ok (false, bs)
  else .ok (load (n - bs.numFutureBytes) bs)

/-- `peekBytes`: the next `n` bytes as a big-endian word. Past the end of the
stream the result is unspecified in the source; no caller looks there. -/
def peekBytes (bs : InputByteStream) (n : Nat) : Except Failure (Nat × InputByteStream) := do
  let (_, bs) ← bs.eofBeforeNBytes n
  return (bs.futureBytes >>> (8 * (bs.numFutureBytes - n)), bs)

/-- `readByte` consumes one byte; at the end of the stream it fails. -/
def readByte (bs : InputByteStream) : Except Failure (UInt8 × InputByteStream) :=
  if bs.numFutureBytes = 0 then
    match bs.input with
    | [] => .error .eof
    | byte :: rest => .ok (byte, { bs with input := rest })
  else
    let numFutureBytes := bs.numFutureBytes - 1
    let wantedByte := UInt8.ofNat (bs.futureBytes >>> (8 * numFutureBytes))
    .ok (wantedByte,
      { bs with
        numFutureBytes
        futureBytes := bs.futureBytes % 2 ^ (8 * numFutureBytes) })

theorem wellFormed_ofInput (input : List UInt8) : (ofInput input).WellFormed :=
  ⟨Nat.zero_le 4, Nat.zero_lt_one⟩

private theorem pushBytes_snoc {count word : Nat} (byte : UInt8) :
    pushBytes (count + 1) (word * 256 + byte.toNat) = pushBytes count word ++ [byte] := by
  have byteLt : byte.toNat < 2 ^ 8 := UInt8.toNat_lt byte
  apply bytesToBits_injective
  rw [bytesToBits_append, bytesToBits_pushBytes, bytesToBits_pushBytes, bytesToBits_cons,
    bytesToBits_nil, List.append_nil, toBits_append byteLt]
  rfl

/-- Looking ahead keeps the bytes and finds the end exactly when it is near. -/
theorem load_spec (n : Nat) {bs : InputByteStream} (wf : bs.WellFormed)
    (room : bs.numFutureBytes + n ≤ 4) :
    (load n bs).2.WellFormed ∧ (load n bs).2.bytes = bs.bytes ∧
      ((load n bs).1 = true ↔ bs.input.length < n) ∧
      ((load n bs).1 = false → (load n bs).2.numFutureBytes = bs.numFutureBytes + n) := by
  induction n generalizing bs with
  | zero => exact ⟨wf, rfl, by simp [load], by simp [load]⟩
  | succ n ih =>
      obtain ⟨numFutureBytes, futureBytes, input⟩ := bs
      obtain ⟨few, fits⟩ := wf
      simp only at few fits room
      cases input with
      | nil => exact ⟨⟨few, fits⟩, rfl, by simp [load], by simp [load]⟩
      | cons byte rest =>
          have byteLt : byte.toNat < 2 ^ 8 := UInt8.toNat_lt byte
          have joined : (futureBytes <<< 8) ||| byte.toNat = futureBytes * 256 + byte.toNat := by
            rw [Nat.shiftLeft_eq]
            exact OutputBitstream.shift_or_eq_add byteLt
          have below : futureBytes * 256 + byte.toNat < 256 ^ (numFutureBytes + 1) := by
            rw [pow_succ]
            omega
          have word : (futureBytes * 256 + byte.toNat) % 2 ^ 32 =
              futureBytes * 256 + byte.toNat := by
            apply Nat.mod_eq_of_lt
            refine lt_of_lt_of_le below ?_
            calc 256 ^ (numFutureBytes + 1) ≤ 256 ^ 4 :=
                  Nat.pow_le_pow_right (by decide) (by omega)
              _ = 2 ^ 32 := by norm_num
          have step : load (n + 1) ⟨numFutureBytes, futureBytes, byte :: rest⟩ =
              load n ⟨numFutureBytes + 1, futureBytes * 256 + byte.toNat, rest⟩ := by
            simp only [load, joined, word]
          have wf' : WellFormed ⟨numFutureBytes + 1, futureBytes * 256 + byte.toNat, rest⟩ :=
            ⟨by show numFutureBytes + 1 ≤ 4; omega, below⟩
          obtain ⟨tailWf, tailBytes, tailEof, tailCount⟩ :=
            ih wf' (show numFutureBytes + 1 + n ≤ 4 by omega)
          rw [step]
          refine ⟨tailWf, ?_, ?_, ?_⟩
          · rw [tailBytes, bytes, bytes, pushBytes_snoc]
            simp
          · rw [tailEof]
            simp
          · intro found
            rw [tailCount found]
            show numFutureBytes + 1 + n = numFutureBytes + (n + 1)
            omega

theorem length_bytes (bs : InputByteStream) :
    bs.bytes.length = bs.numFutureBytes + bs.input.length := by
  simp [bytes]

/-- `eofBeforeNBytes` decides whether `n` bytes are left. -/
theorem eofBeforeNBytes_spec {bs : InputByteStream} (wf : bs.WellFormed) {n : Nat}
    (small : n ≤ 4) :
    ∃ bs', bs.eofBeforeNBytes n = .ok (decide (bs.bytes.length < n), bs') ∧ bs'.WellFormed ∧
      bs'.bytes = bs.bytes ∧ (n ≤ bs.bytes.length → n ≤ bs'.numFutureBytes) := by
  unfold eofBeforeNBytes
  rw [if_neg (by omega)]
  split
  · next enough =>
      have plenty : ¬ bs.bytes.length < n := by
        rw [length_bytes]
        omega
      exact ⟨bs, by simp [plenty], wf, rfl, fun _ => enough⟩
  · next scarce =>
      obtain ⟨wf', bytes', eof, count⟩ :=
        load_spec (n - bs.numFutureBytes) wf (by omega)
      have ends : (load (n - bs.numFutureBytes) bs).1 = decide (bs.bytes.length < n) := by
        rw [Bool.eq_iff_iff, eof, decide_eq_true_iff, length_bytes]
        omega
      refine ⟨(load (n - bs.numFutureBytes) bs).2, ?_, wf', bytes', ?_⟩
      · rw [← ends]
      · intro within
        rw [count (by rw [ends]; simpa using within)]
        omega

/-- `peekBytes` reads the next `n` bytes and consumes nothing. -/
theorem peekBytes_spec {bs : InputByteStream} (wf : bs.WellFormed) {n : Nat} (small : n ≤ 4)
    (within : n ≤ bs.bytes.length) :
    ∃ bs', bs.peekBytes n = .ok (ofBytes (bs.bytes.take n), bs') ∧ bs'.WellFormed ∧
      bs'.bytes = bs.bytes := by
  obtain ⟨bs', run, wf', bytes', ahead⟩ := eofBeforeNBytes_spec wf small
  refine ⟨bs', ?_, wf', bytes'⟩
  have enough := ahead within
  have word : bs'.futureBytes >>> (8 * (bs'.numFutureBytes - n)) =
      ofBytes (bs.bytes.take n) := by
    have split : 8 * bs'.numFutureBytes = 8 * n + 8 * (bs'.numFutureBytes - n) := by omega
    have front : bytesToBits (bs.bytes.take n) =
        toBits (8 * n) (bs'.futureBytes / 2 ^ (8 * (bs'.numFutureBytes - n))) := by
      have taken : bs.bytes.take n ++ bs.bytes.drop n = bs'.bytes := by
        rw [bytes', List.take_append_drop]
      have inBits := congrArg bytesToBits taken
      rw [bytesToBits_append, bytes.eq_1 bs', bytesToBits_append, bytesToBits_pushBytes, split,
        toBits_add, List.append_assoc] at inBits
      refine (List.append_inj inBits ?_).1
      rw [length_bytesToBits, List.length_take, length_toBits, Nat.min_eq_left within]
    have fits : bs'.futureBytes / 2 ^ (8 * (bs'.numFutureBytes - n)) < 2 ^ (8 * n) := by
      apply Nat.div_lt_of_lt_mul
      rw [← pow_add, Nat.add_comm, ← split, pow_mul]
      exact wf'.fits
    rw [ofBytes, front, ofBits_toBits_of_lt fits, Nat.shiftRight_eq_div_pow]
  unfold peekBytes
  rw [run]
  simp only [bind, Except.bind, pure, Except.pure, word]

theorem readByte_nil {bs : InputByteStream} (view : bs.bytes = []) :
    bs.readByte = .error .eof := by
  have lengths := congrArg List.length view
  rw [length_bytes, List.length_nil] at lengths
  have none : bs.numFutureBytes = 0 := by omega
  have ended : bs.input = [] := List.length_eq_zero_iff.mp (by omega)
  simp [readByte, none, ended]

/-- `readByte` hands out the first remaining byte. -/
theorem readByte_cons {bs : InputByteStream} (wf : bs.WellFormed) {byte : UInt8}
    {rest : List UInt8} (view : bs.bytes = byte :: rest) :
    ∃ bs', bs.readByte = .ok (byte, bs') ∧ bs'.WellFormed ∧ bs'.bytes = rest := by
  obtain ⟨numFutureBytes, futureBytes, input⟩ := bs
  obtain ⟨few, fits⟩ := wf
  simp only at few fits
  unfold readByte
  cases numFutureBytes with
  | zero =>
      simp only [bytes, pushBytes, List.nil_append] at view
      subst view
      exact ⟨⟨0, futureBytes, rest⟩, rfl, ⟨few, fits⟩, rfl⟩
  | succ count =>
      simp only [bytes, pushBytes, List.cons_append, List.cons.injEq] at view
      obtain ⟨head, tail⟩ := view
      refine ⟨⟨count, futureBytes % 2 ^ (8 * count), input⟩, ?_, ⟨?_, ?_⟩, ?_⟩
      · simp [head]
      · show count ≤ 4
        omega
      · show futureBytes % 2 ^ (8 * count) < 256 ^ count
        rw [show 256 = 2 ^ 8 by rfl, ← pow_mul]
        exact Nat.mod_lt _ (Nat.two_pow_pos _)
      · rw [bytes, ← tail]
        congr 1
        apply bytesToBits_injective
        rw [bytesToBits_pushBytes, bytesToBits_pushBytes, toBits_mod]

end InputByteStream

/-! ## Extracting a NAL unit -/

/-- Statistics associated with Annex B byte streams. -/
structure AnnexBStats where
  numLeadingZero8BitsBytes : UInt32
  numZeroByteBytes : UInt32
  numStartCodePrefixBytes : UInt32
  numBytesInNALUnit : UInt32
  numTrailingZero8BitsBytes : UInt32
deriving DecidableEq, Repr

namespace AnnexBStats

/-- `AnnexBStats()`. -/
def zero : AnnexBStats := ⟨0, 0, 0, 0, 0⟩

/-- `operator+=`. -/
def add (lhs rhs : AnnexBStats) : AnnexBStats :=
  ⟨lhs.numLeadingZero8BitsBytes + rhs.numLeadingZero8BitsBytes,
    lhs.numZeroByteBytes + rhs.numZeroByteBytes,
    lhs.numStartCodePrefixBytes + rhs.numStartCodePrefixBytes,
    lhs.numBytesInNALUnit + rhs.numBytesInNALUnit,
    lhs.numTrailingZero8BitsBytes + rhs.numTrailingZero8BitsBytes⟩

/-- All bytes accounted for. -/
def total (stats : AnnexBStats) : UInt32 :=
  stats.numLeadingZero8BitsBytes + stats.numZeroByteBytes + stats.numStartCodePrefixBytes +
    stats.numBytesInNALUnit + stats.numTrailingZero8BitsBytes

theorem total_add (lhs rhs : AnnexBStats) : (lhs.add rhs).total = lhs.total + rhs.total := by
  simp only [add, total]
  ac_rfl

end AnnexBStats

namespace AnnexBread

/-- What `_byteStreamNALUnit` works on: the stream, and the NAL unit and the
statistics it fills. -/
structure ParseState where
  bs : InputByteStream
  nalUnit : List UInt8
  stats : AnnexBStats
deriving DecidableEq, Repr

/-- A failure keeps the state reached so far. -/
abbrev Parser := EStateM Failure ParseState

/-- An operation of the stream; those that fail leave the stream as it was. -/
@[grind =] def onStream {α : Type} (op : InputByteStream → Except Failure (α × InputByteStream)) : Parser α :=
  fun st =>
    match op st.bs with
    | .ok (value, bs) => .ok value { st with bs }
    | .error failure => .error failure st

/-- `bs.eofBeforeNBytes(n) || bs.peekBytes(n) != code`. -/
def nextDiffers (n code : Nat) : Parser Bool := do
  if ← onStream (·.eofBeforeNBytes n) then return true
  return (← onStream (·.peekBytes n)) ≠ code

/-- The condition of the two loops over zero bytes: no start code ahead. -/
def noStartCodeAhead : Parser Bool := do
  if ← nextDiffers (24 / 8) 0x000001 then nextDiffers (32 / 8) 0x00000001
  else return false

/-- The loops over `leading_zero_8bits` and `trailing_zero_8bits`. Every round
consumes a byte or fails, so `fuel` above the bytes left never runs out. -/
def discardZeros (message : String) (count : AnnexBStats → AnnexBStats) : Nat → Parser Unit
  | 0 => throw (.thrown "out of fuel")
  | fuel + 1 => do
      if ← noStartCodeAhead then
        let zero8bits ← onStream (·.readByte)
        if zero8bits ≠ 0 then throw (.thrown message)
        modify fun st => { st with stats := count st.stats }
        discardZeros message count fuel
      else return ()

/-- The loop that collects the bytes of the NAL unit. -/
@[grind =] def collectNALUnit : Nat → Parser Unit
  | 0 => throw (.thrown "out of fuel")
  | fuel + 1 => do
      let more ← (do
        if ← onStream (·.eofBeforeNBytes (24 / 8)) then return true
        return (← onStream (·.peekBytes (24 / 8))) > 2)
      if more then
        let byte ← onStream (·.readByte)
        modify fun st => { st with nalUnit := st.nalUnit ++ [byte] }
        collectNALUnit fuel
      else return ()

def readBytes : Nat → Nat → Parser Nat
  | 0, val => return val
  | n + 1, val => do
      let byte ← onStream (·.readByte)
      readBytes n (((val <<< 8) ||| byte.toNat) % 2 ^ 32)

def countLeadingZero (stats : AnnexBStats) : AnnexBStats :=
  { stats with numLeadingZero8BitsBytes := stats.numLeadingZero8BitsBytes + 1 }

def countZeroByte (stats : AnnexBStats) : AnnexBStats :=
  { stats with numZeroByteBytes := stats.numZeroByteBytes + 1 }

def countStartCodePrefix (stats : AnnexBStats) : AnnexBStats :=
  { stats with numStartCodePrefixBytes := stats.numStartCodePrefixBytes + 3 }

def countTrailingZero (stats : AnnexBStats) : AnnexBStats :=
  { stats with numTrailingZero8BitsBytes := stats.numTrailingZero8BitsBytes + 1 }

/-- Step 1: a four-byte start code begins with a `zero_byte`. -/
def takeZeroByte : Parser Unit := do
  if (← onStream (·.peekBytes (24 / 8))) ≠ 0x000001 then
    let zeroByte ← onStream (·.readByte)
    if zeroByte ≠ 0 then throw (.thrown "Zero byte not '0'")
    modify fun st => { st with stats := countZeroByte st.stats }

/-- Step 2: the `start_code_prefix_one_3bytes`. -/
def takeStartCodePrefix : Parser Unit := do
  let startCodePrefix ← readBytes (24 / 8) 0
  if startCodePrefix ≠ 0x000001 then throw (.thrown "Invalid code prefix")
  modify fun st => { st with stats := countStartCodePrefix st.stats }

/-- `_byteStreamNALUnit`. -/
def byteStreamNALUnitAux (fuel : Nat) : Parser Unit := do
  discardZeros "Leading zero bits not zero" countLeadingZero fuel
  takeZeroByte
  takeStartCodePrefix
  collectNALUnit fuel
  discardZeros "Trailing zero bits not '0'" countTrailingZero fuel

/-- What one call of `byteStreamNALUnit` hands back besides the stream. -/
structure CallResult where
  nalUnit : List UInt8
  stats : AnnexBStats
  eof : Bool
deriving DecidableEq, Repr

/-- `byteStreamNALUnit` on a fresh NAL unit and fresh statistics. -/
def byteStreamNALUnit (bs : InputByteStream) : CallResult × InputByteStream :=
  let (eof, st) := match byteStreamNALUnitAux (bs.bytes.length + 1) ⟨bs, [], .zero⟩ with
    | .ok _ st => (false, st)
    | .error _ st => (true, st)
  (⟨st.nalUnit, { st.stats with numBytesInNALUnit := UInt32.ofNat st.nalUnit.length }, eof⟩, st.bs)

/-- `calls` consecutive calls of `byteStreamNALUnit`. -/
def byteStreamNALUnits : Nat → InputByteStream → List CallResult
  | 0, _ => []
  | calls + 1, bs =>
      let (result, bs) := byteStreamNALUnit bs
      result :: byteStreamNALUnits calls bs

/-! ## Specifications of the loops -/

section Loops

variable {s : ParseState}

/-- The comparison of the next `n` bytes, as a fact about the bytes left. -/
theorem nextDiffers_spec (wf : s.bs.WellFormed) {n c : Nat} (small : n ≤ 4) :
    ∃ bs, nextDiffers n c s =
        .ok (decide (s.bs.bytes.length < n ∨ ofBytes (s.bs.bytes.take n) ≠ c))
          { s with bs } ∧
      bs.WellFormed ∧ bs.bytes = s.bs.bytes := by
  obtain ⟨bs, run, wf', same, _⟩ := InputByteStream.eofBeforeNBytes_spec wf small
  by_cases short : s.bs.bytes.length < n
  · refine ⟨bs, ?_, wf', same⟩
    simp [nextDiffers, bind, EStateM.bind, pure, EStateM.pure, onStream, run, short]
  · obtain ⟨bs', run', wf'', same'⟩ :=
      InputByteStream.peekBytes_spec wf' small (n := n) (by rw [same]; omega)
    refine ⟨bs', ?_, wf'', same'.trans same⟩
    rw [same] at run'
    simp [nextDiffers, bind, EStateM.bind, pure, EStateM.pure, onStream, run, run', short]

/-- The bytes at the front of the stream form a start code. -/
def AtStartCode (bytes : List UInt8) : Prop :=
  ∃ rest, bytes = [0, 0, 1] ++ rest ∨ bytes = [0, 0, 0, 1] ++ rest

theorem noStartCodeAhead_false (wf : s.bs.WellFormed) (here : AtStartCode s.bs.bytes) :
    ∃ bs, noStartCodeAhead s = .ok false { s with bs } ∧ bs.WellFormed ∧
      bs.bytes = s.bs.bytes := by
  obtain ⟨bs, run, wf', same⟩ := nextDiffers_spec wf (n := 24 / 8) (c := 0x000001) (by decide)
  obtain ⟨rest, three | four⟩ := here
  · refine ⟨bs, ?_, wf', same⟩
    have found : decide (s.bs.bytes.length < 24 / 8 ∨
        ofBytes (s.bs.bytes.take (24 / 8)) ≠ 0x000001) = false := by
      rw [three, decide_eq_false_iff_not]
      rintro (short | differs)
      · simp only [List.length_append, List.length_cons] at short
        omega
      · exact differs rfl
    rw [found] at run
    simp [noStartCodeAhead, bind, EStateM.bind, pure, EStateM.pure, run]
  · obtain ⟨bs', run', wf'', same'⟩ :=
      nextDiffers_spec (s := { s with bs }) wf' (n := 32 / 8) (c := 0x00000001) (by decide)
    refine ⟨bs', ?_, wf'', same'.trans same⟩
    have differs : decide (s.bs.bytes.length < 24 / 8 ∨
        ofBytes (s.bs.bytes.take (24 / 8)) ≠ 0x000001) = true := by
      rw [four, decide_eq_true_iff]
      exact Or.inr (show (0 : Nat) ≠ 1 by decide)
    have found : decide (bs.bytes.length < 32 / 8 ∨
        ofBytes (bs.bytes.take (32 / 8)) ≠ 0x00000001) = false := by
      rw [same, four, decide_eq_false_iff_not]
      rintro (short | differs)
      · simp only [List.length_append, List.length_cons] at short
        omega
      · exact differs rfl
    rw [differs] at run
    simp only [found] at run'
    simp [noStartCodeAhead, bind, EStateM.bind, run, run']

/-- At a start code there are no zero bytes to discard. -/
theorem discardZeros_at_startCode (wf : s.bs.WellFormed) (here : AtStartCode s.bs.bytes)
    (message : String) (count : AnnexBStats → AnnexBStats) (fuel : Nat) :
    ∃ bs, discardZeros message count (fuel + 1) s = .ok () { s with bs } ∧ bs.WellFormed ∧
      bs.bytes = s.bs.bytes := by
  obtain ⟨bs, run, wf', same⟩ := noStartCodeAhead_false wf here
  refine ⟨bs, ?_, wf', same⟩
  simp [discardZeros, bind, EStateM.bind, pure, EStateM.pure, run]

/-- One round of the collecting loop on a byte of the NAL unit. -/
theorem collectNALUnit_step (wf : s.bs.WellFormed) {byte : UInt8} {rest : List UInt8}
    (view : s.bs.bytes = byte :: rest)
    (more : s.bs.bytes.length < 3 ∨ 2 < ofBytes (s.bs.bytes.take 3)) (fuel : Nat) :
    ∃ bs, collectNALUnit (fuel + 1) s =
        collectNALUnit fuel { s with bs, nalUnit := s.nalUnit ++ [byte] } ∧
      bs.WellFormed ∧ bs.bytes = rest := by
  obtain ⟨bs, run, wf', same, _⟩ :=
    InputByteStream.eofBeforeNBytes_spec wf (n := 24 / 8) (by decide)
  by_cases short : s.bs.bytes.length < 24 / 8
  · obtain ⟨bs', read, wf'', left⟩ := InputByteStream.readByte_cons wf' (same.trans view)
    refine ⟨bs', ?_, wf'', left⟩
    simp only [short, decide_true] at run
    simp [collectNALUnit, bind, EStateM.bind, pure, EStateM.pure, onStream, run, read, modify,
      modifyGet, MonadStateOf.modifyGet, EStateM.modifyGet]
  · have large : 2 < ofBytes (s.bs.bytes.take 3) := more.resolve_left short
    obtain ⟨bs', run', wf'', same'⟩ :=
      InputByteStream.peekBytes_spec wf' (n := 24 / 8) (by decide) (by rw [same]; omega)
    obtain ⟨bs₃, read, wf₃, left⟩ :=
      InputByteStream.readByte_cons wf'' ((same'.trans same).trans view)
    refine ⟨bs₃, ?_, wf₃, left⟩
    simp only [short, decide_false] at run
    rw [same] at run'
    simp [collectNALUnit, bind, EStateM.bind, pure, EStateM.pure, onStream, run, run', read,
      large, modify, modifyGet, MonadStateOf.modifyGet, EStateM.modifyGet]

/-- The collecting loop stops in front of a start code. -/
theorem collectNALUnit_stop (wf : s.bs.WellFormed) (here : AtStartCode s.bs.bytes)
    (fuel : Nat) :
    ∃ bs, collectNALUnit (fuel + 1) s = .ok () { s with bs } ∧ bs.WellFormed ∧
      bs.bytes = s.bs.bytes := by
  obtain ⟨bs, run, wf', same, _⟩ :=
    InputByteStream.eofBeforeNBytes_spec wf (n := 24 / 8) (by decide)
  have long : ¬ s.bs.bytes.length < 24 / 8 := by
    obtain ⟨rest, three | four⟩ := here
    · simp [three]
    · simp [four]
  have small : ¬ 2 < ofBytes (s.bs.bytes.take 3) := by
    obtain ⟨rest, three | four⟩ := here
    · rw [three]
      simp
      decide
    · rw [four]
      simp
      decide
  obtain ⟨bs', run', wf'', same'⟩ :=
    InputByteStream.peekBytes_spec wf' (n := 24 / 8) (by decide) (by rw [same]; omega)
  refine ⟨bs', ?_, wf'', same'.trans same⟩
  simp only [long, decide_false] at run
  rw [same] at run'
  simp [collectNALUnit, bind, EStateM.bind, pure, EStateM.pure, onStream, run, run', small]

/-- At the end of the stream the collecting loop fails and keeps what it has. -/
theorem collectNALUnit_eof (wf : s.bs.WellFormed) (ended : s.bs.bytes = []) (fuel : Nat) :
    ∃ bs, collectNALUnit (fuel + 1) s = .error .eof { s with bs } ∧ bs.WellFormed ∧
      bs.bytes = [] := by
  obtain ⟨bs, run, wf', same, _⟩ :=
    InputByteStream.eofBeforeNBytes_spec wf (n := 24 / 8) (by decide)
  have read := InputByteStream.readByte_nil (same.trans ended)
  refine ⟨bs, ?_, wf', same.trans ended⟩
  simp only [ended, List.length_nil, Nat.reduceDiv, Nat.ofNat_pos, decide_true] at run
  simp [collectNALUnit, bind, EStateM.bind, pure, EStateM.pure, onStream, run, read]

end Loops

/-- `readBytes` over a three-byte start code prefix. -/
theorem readBytes_startCodePrefix {s : ParseState} (wf : s.bs.WellFormed) {rest : List UInt8}
    (view : s.bs.bytes = [0, 0, 1] ++ rest) :
    ∃ bs, readBytes (24 / 8) 0 s = .ok 1 { s with bs } ∧ bs.WellFormed ∧ bs.bytes = rest := by
  obtain ⟨bs₁, run₁, wf₁, view₁⟩ := InputByteStream.readByte_cons wf view
  obtain ⟨bs₂, run₂, wf₂, view₂⟩ := InputByteStream.readByte_cons wf₁ view₁
  obtain ⟨bs₃, run₃, wf₃, view₃⟩ := InputByteStream.readByte_cons wf₂ view₂
  refine ⟨bs₃, ?_, wf₃, view₃⟩
  simp [readBytes, bind, EStateM.bind, pure, EStateM.pure, onStream, run₁, run₂, run₃]

/-- The statistics of a unit behind its start code, before the NAL unit bytes
are counted. -/
def codeStats (code : List UInt8) : AnnexBStats :=
  ⟨0, if code = [0, 0, 0, 1] then 1 else 0, 3, 0, 0⟩

theorem bind_ok {α β : Type} {first : Parser α} {next : α → Parser β} {a : α}
    {s t : ParseState} (run : first s = .ok a t) :
    (first >>= next) s = next a t := by
  simp [bind, EStateM.bind, run]

theorem bind_error {α β : Type} {first : Parser α} {next : α → Parser β} {failure : Failure}
    {s t : ParseState} (run : first s = .error failure t) :
    (first >>= next) s = .error failure t := by
  simp [bind, EStateM.bind, run]

theorem takeStartCodePrefix_spec {s : ParseState} (wf : s.bs.WellFormed) {rest : List UInt8}
    (view : s.bs.bytes = [0, 0, 1] ++ rest) :
    ∃ bs, takeStartCodePrefix s =
        .ok () { s with bs, stats := countStartCodePrefix s.stats } ∧
      bs.WellFormed ∧ bs.bytes = rest := by
  obtain ⟨bs, run, wf', left⟩ := readBytes_startCodePrefix wf view
  refine ⟨bs, ?_, wf', left⟩
  rw [takeStartCodePrefix, bind_ok run]
  rfl

/-- Steps 1 and 2 consume and count a start code. -/
theorem takeStartCode_spec {s : ParseState} (wf : s.bs.WellFormed) {code rest : List UInt8}
    (isCode : code = [0, 0, 0, 1] ∨ code = [0, 0, 1]) (view : s.bs.bytes = code ++ rest)
    (fresh : s.stats = .zero) {α : Type} (next : Parser α) :
    ∃ bs, (do takeZeroByte; takeStartCodePrefix; next) s =
        next { s with bs, stats := codeStats code } ∧
      bs.WellFormed ∧ bs.bytes = rest := by
  have long : 24 / 8 ≤ s.bs.bytes.length := by
    rw [view]
    rcases isCode with rfl | rfl <;> simp
  obtain ⟨bs₁, run₁, wf₁, view₁⟩ :=
    InputByteStream.peekBytes_spec wf (n := 24 / 8) (by decide) long
  rw [view] at run₁ view₁
  rcases isCode with rfl | rfl
  · -- the window over a four-byte code is zero, so its first byte is the `zero_byte`
    have window : ofBytes (([0, 0, 0, 1] ++ rest).take (24 / 8)) = 0 := rfl
    rw [window] at run₁
    obtain ⟨bs₂, run₂, wf₂, view₂⟩ := InputByteStream.readByte_cons wf₁ view₁
    have zeroByte : takeZeroByte s =
        .ok () { s with bs := bs₂, stats := countZeroByte s.stats } := by
      simp [takeZeroByte, bind, EStateM.bind, onStream, run₁, run₂, modify, modifyGet,
        MonadStateOf.modifyGet, EStateM.modifyGet]
    obtain ⟨bs₃, run₃, wf₃, view₃⟩ := takeStartCodePrefix_spec
      (s := { s with bs := bs₂, stats := countZeroByte s.stats }) wf₂ view₂
    have counted : countStartCodePrefix (countZeroByte s.stats) = codeStats [0, 0, 0, 1] := by
      rw [fresh]
      rfl
    refine ⟨bs₃, ?_, wf₃, view₃⟩
    rw [bind_ok zeroByte, bind_ok run₃, counted]
  · have window : ofBytes (([0, 0, 1] ++ rest).take (24 / 8)) = 1 := rfl
    rw [window] at run₁
    have zeroByte : takeZeroByte s = .ok () { s with bs := bs₁ } := by
      simp [takeZeroByte, bind, EStateM.bind, pure, EStateM.pure, onStream, run₁]
    obtain ⟨bs₂, run₂, wf₂, view₂⟩ :=
      takeStartCodePrefix_spec (s := { s with bs := bs₁ }) wf₁ view₁
    have counted : countStartCodePrefix s.stats = codeStats [0, 0, 1] := by
      rw [fresh]
      rfl
    refine ⟨bs₂, ?_, wf₂, view₂⟩
    rw [bind_ok zeroByte, bind_ok run₂, counted]

end AnnexBread
end Vtm
