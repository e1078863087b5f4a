import Vtm.Std.Bits

/-!
# Bit streams

`OutputBitstream` accumulates bits in a byte FIFO with up to seven held bits;
`InputBitstream` consumes a byte FIFO from its front. `OutputBitstream.bits`
and `InputBitstream.remaining` give the bit strings the two objects stand for,
and the `_spec` theorems say what each operation does to them. The FIFO and the read
index are unbounded (the `uint32_t` index wraps only behind `2 ^ 32` bytes); what the
members return and every word operation keep their 32-bit or 8-bit width.
-/

namespace Vtm

open Vtm.Std

/-- Result of code that may stop at a `CHECK`; the error is the text of the
failed check. -/
abbrev Checked := Except String

/-- `CHECK(c, x)` throws `x` when `c` holds. -/
def CHECK (c : Prop) [Decidable c] (x : String) : Checked Unit :=
  if c then .error x else .ok ()

@[simp] theorem CHECK_ok_iff {c : Prop} [Decidable c] {x : String} :
    CHECK c x = .ok () ↔ ¬ c := by
  unfold CHECK
  split <;> simp_all

theorem CHECK_of_not {c : Prop} [Decidable c] {x : String} (passes : ¬ c) :
    CHECK c x = .ok () := CHECK_ok_iff.mpr passes

/-- A sequence of checked steps succeeds when each of them does. -/
theorem bind_eq_ok_iff {α β : Type} {first : Checked α} {next : α → Checked β} {result : β} :
    (first >>= next) = .ok result ↔ ∃ value, first = .ok value ∧ next value = .ok result := by
  cases first with
  | error message => simp [bind, Except.bind]
  | ok value => simp [bind, Except.bind]

theorem map_eq_ok_iff {α β : Type} {first : Checked α} {f : α → β} {result : β} :
    first.map f = .ok result ↔ ∃ value, first = .ok value ∧ f value = result := by
  cases first with
  | error message => simp [Except.map]
  | ok value => simp [Except.map]

theorem CHECK_bind_eq_ok_iff {α : Type} {c : Prop} [Decidable c] {x : String}
    {next : Unit → Checked α} {result : α} :
    (CHECK c x >>= next) = .ok result ↔ ¬ c ∧ next () = .ok result := by
  rw [bind_eq_ok_iff]
  constructor
  · rintro ⟨_, passed, rest⟩
    exact ⟨CHECK_ok_iff.mp passed, rest⟩
  · rintro ⟨passes, rest⟩
    exact ⟨(), CHECK_of_not passes, rest⟩

/-- The `count` low bytes of `word`, most significant byte first: the
fall-through `switch` of `OutputBitstream::write`. -/
def pushBytes (count word : Nat) : List UInt8 :=
  match count with
  | 0 => []
  | count + 1 => UInt8.ofNat (word >>> (8 * count)) :: pushBytes count word

@[simp] theorem length_pushBytes (count word : Nat) : (pushBytes count word).length = count := by
  induction count with
  | zero => rfl
  | succ count ih => simp [pushBytes, ih]

theorem bytesToBits_pushBytes (count word : Nat) :
    bytesToBits (pushBytes count word) = toBits (8 * count) word := by
  induction count with
  | zero => rfl
  | succ count ih =>
      have width : 8 * (count + 1) = 8 + 8 * count := by omega
      rw [pushBytes, bytesToBits_cons, ih, width, toBits_add, UInt8.toNat_ofNat',
        Nat.shiftRight_eq_div_pow, ← toBits_mod 8 (word / 2 ^ (8 * count))]

/-- Model of a writable bitstream that accumulates bits to produce a bytestream. -/
structure OutputBitstream where
  fifo : List UInt8
  numHeldBits : Nat
  /-- Bits held and not flushed, always msb-aligned in a byte. -/
  heldBits : Nat
deriving DecidableEq, Repr

namespace OutputBitstream

/-- `OutputBitstream()` and `clear()`. -/
def empty : OutputBitstream := ⟨[], 0, 0⟩

/-- The held bits number fewer than eight and sit at the msb end of a byte. -/
structure WellFormed (s : OutputBitstream) : Prop where
  heldLt : s.numHeldBits < 8
  heldByte : s.heldBits < 256
  aligned : s.heldBits % 2 ^ (8 - s.numHeldBits) = 0

/-- The bit string written since the last `clear()`. -/
@[grind =] def bits (s : OutputBitstream) : List Bool :=
  bytesToBits s.fifo ++ toBits s.numHeldBits (s.heldBits >>> (8 - s.numHeldBits))

/-- `write` appends the `uiNumberOfBits` low bits of `uiBits`. -/
@[grind =] def write (s : OutputBitstream) (uiBits uiNumberOfBits : Nat) : Checked OutputBitstream := do
  CHECK (32 < uiNumberOfBits) "Number of bits is exceeds '32'"
  CHECK (uiNumberOfBits ≠ 32 ∧ uiBits >>> uiNumberOfBits ≠ 0) "Unsupported parameters"
  let numTotalBits := uiNumberOfBits + s.numHeldBits
  let nextNumHeldBits := numTotalBits % 8
  let nextHeldBits := (uiBits <<< (8 - nextNumHeldBits)) % 256
  if numTotalBits >>> 3 = 0 then
    return { s with heldBits := s.heldBits ||| nextHeldBits, numHeldBits := nextNumHeldBits }
  -- `topword` justifies the held bits with the msb of `uiBits`
  let topword := (uiNumberOfBits - nextNumHeldBits) / 8 * 8
  let writeBits := ((s.heldBits <<< topword) ||| (uiBits >>> nextNumHeldBits)) % 2 ^ 32
  return ⟨s.fifo ++ pushBytes (numTotalBits >>> 3) writeBits, nextNumHeldBits, nextHeldBits⟩

/-- `writeAlignZero` flushes the held bits, zero-padded to a byte. -/
def writeAlignZero (s : OutputBitstream) : OutputBitstream :=
  if s.numHeldBits = 0 then s
  else ⟨s.fifo ++ [UInt8.ofNat s.heldBits], 0, 0⟩

/-- `writeByteAlignment` writes a one and pads with zeros. -/
def writeByteAlignment (s : OutputBitstream) : Checked OutputBitstream := do
  return (← s.write 1 1).writeAlignZero

/-- The loop of `addSubstream` over the bytes of the substream. -/
def writeBytes : List UInt8 → OutputBitstream → Checked OutputBitstream
  | [], s => .ok s
  | byte :: rest, s => do
      let s ← s.write byte.toNat 8
      writeBytes rest s

def getNumBitsUntilByteAligned (s : OutputBitstream) : Nat :=
  (8 - s.numHeldBits) % 8

/-- The number of bits written since the last `clear()`. -/
@[grind =] def writtenBits (s : OutputBitstream) : Nat :=
  s.fifo.length * 8 + s.numHeldBits

/-- `getNumberOfWrittenBits`, a `uint32_t`. -/
@[grind =] def getNumberOfWrittenBits (s : OutputBitstream) : Nat := s.writtenBits % 2 ^ 32

/-- `addSubstream` appends the bits of another stream. -/
def addSubstream (s pcSubstream : OutputBitstream) : Checked OutputBitstream := do
  let uiNumBits := pcSubstream.getNumberOfWrittenBits
  let s ← writeBytes pcSubstream.fifo s
  if uiNumBits % 8 ≠ 0 then
    s.write (pcSubstream.heldBits >>> (8 - uiNumBits % 8)) (uiNumBits % 8)
  else return s

/-- `search_n(found, end - 1, 2, 0)`. A position in the FIFO is given by the bytes
from it on; the pair must lie before the last byte, and the last position stands
for no match. -/
def searchZeroPair : List UInt8 → List UInt8
  | first :: second :: third :: rest =>
      if first = 0 ∧ second = 0 then first :: second :: third :: rest
      else searchZeroPair (second :: third :: rest)
  | [_, second] => [second]
  | short => short

/-- The inner loop of `countStartCodeEmulations`: the byte behind the next zero
pair that is at most three, or the end. -/
def nextEmulation : Nat → List UInt8 → List UInt8
  | 0, _ => []
  | fuel + 1, found =>
      match searchZeroPair found with
      | _ :: _ :: third :: rest =>
          if third ≤ 3 then third :: rest else nextEmulation fuel (third :: rest)
      | _ => []

/-- The outer loop of `countStartCodeEmulations`; every round moves on by at
least two bytes. -/
def countEmulationsFrom : Nat → List UInt8 → Nat → Nat
  | 0, _, cnt => cnt
  | fuel + 1, it, cnt =>
      if it = [] then cnt
      else
        let found := nextEmulation it.length it
        countEmulationsFrom fuel found (if found ≠ [] then cnt + 1 else cnt)

def countStartCodeEmulations (s : OutputBitstream) : Nat :=
  countEmulationsFrom s.fifo.length s.fifo 0

@[simp] theorem bits_empty : empty.bits = [] := rfl

theorem wellFormed_empty : empty.WellFormed := ⟨by decide, by decide, by decide⟩

theorem length_bits (s : OutputBitstream) : s.bits.length = s.writtenBits := by
  simp [bits, writtenBits, Nat.mul_comm]

/-- The held byte of a well-formed stream is its bit string shifted to the top. -/
theorem WellFormed.heldBits_eq {s : OutputBitstream} (wf : s.WellFormed) :
    s.heldBits = (s.heldBits >>> (8 - s.numHeldBits)) * 2 ^ (8 - s.numHeldBits) := by
  rw [Nat.shiftRight_eq_div_pow, Nat.div_mul_cancel (Nat.dvd_of_mod_eq_zero wf.aligned)]

theorem WellFormed.held_lt {s : OutputBitstream} (wf : s.WellFormed) :
    s.heldBits >>> (8 - s.numHeldBits) < 2 ^ s.numHeldBits := by
  have byte := wf.heldByte
  have heldLt := wf.heldLt
  rw [Nat.shiftRight_eq_div_pow]
  apply Nat.div_lt_of_lt_mul
  rw [← pow_add]
  have width : 8 - s.numHeldBits + s.numHeldBits = 8 := by omega
  rw [width]
  exact byte

theorem shift_or_eq_add {high low shift : Nat} (fits : low < 2 ^ shift) :
    (high * 2 ^ shift) ||| low = high * 2 ^ shift + low := by
  rw [Nat.mul_comm]
  exact (Nat.two_pow_add_eq_or_of_lt fits high).symm

/-- The bits of a field that stay behind, moved to the msb end of a byte. -/
private theorem nextHeldBits_eq (uiBits : Nat) {kept : Nat} (lt : kept < 8) :
    (uiBits <<< (8 - kept)) % 256 = (uiBits % 2 ^ kept) * 2 ^ (8 - kept) := by
  have byte : (256 : Nat) = 2 ^ kept * 2 ^ (8 - kept) := by
    rw [← pow_add, show kept + (8 - kept) = 8 by omega]
    rfl
  rw [Nat.shiftLeft_eq, byte, Nat.mul_mod_mul_right]

/-- A byte whose `kept` msb bits are `value` is well-formed as held bits. -/
private theorem wellFormed_of_held {fifo : List UInt8} {kept value : Nat} (lt : kept < 8)
    (fits : value < 2 ^ kept) : WellFormed ⟨fifo, kept, value * 2 ^ (8 - kept)⟩ where
  heldLt := lt
  heldByte := by
    have scaled := Nat.mul_lt_mul_of_pos_right fits (Nat.two_pow_pos (8 - kept))
    rwa [← pow_add, show kept + (8 - kept) = 8 by omega] at scaled
  aligned := Nat.mul_mod_left _ _

private theorem bits_of_held (fifo : List UInt8) (kept value : Nat) :
    bits ⟨fifo, kept, value * 2 ^ (8 - kept)⟩ = bytesToBits fifo ++ toBits kept value := by
  simp only [bits, Nat.shiftRight_eq_div_pow, Nat.mul_div_cancel _ (Nat.two_pow_pos _)]

/-- The word of whole bytes is the joined number without the bits kept back. -/
private theorem writeBits_eq {h n held uiBits : Nat} (hLt : h < 8) (width : n ≤ 32)
    (heldLt : held < 2 ^ h) (fits : uiBits < 2 ^ n) (whole : 8 ≤ n + h) :
    (((held * 2 ^ (8 - h)) <<< ((n - (n + h) % 8) / 8 * 8)) ||| (uiBits >>> ((n + h) % 8))) % 2 ^ 32
      = (held * 2 ^ n + uiBits) / 2 ^ ((n + h) % 8) := by
  set kept := (n + h) % 8
  have keptLe : kept ≤ n := by omega
  have power : 2 ^ n = 2 ^ (n - kept) * 2 ^ kept := by
    rw [← pow_add, show n - kept + kept = n by omega]
  have lowFits : uiBits / 2 ^ kept < 2 ^ (n - kept) := by
    apply Nat.div_lt_of_lt_mul
    rw [Nat.mul_comm, ← power]
    exact fits
  have shifted : (held * 2 ^ (8 - h)) <<< ((n - kept) / 8 * 8) = held * 2 ^ (n - kept) := by
    rcases Nat.eq_zero_or_pos h with zero | positive
    · have heldZero : held = 0 := by
        rw [zero, pow_zero] at heldLt
        omega
      simp [heldZero]
    · have total : 8 - h + (n - kept) / 8 * 8 = n - kept := by omega
      rw [Nat.shiftLeft_eq, Nat.mul_assoc, ← pow_add, total]
  have quotient : (held * 2 ^ n + uiBits) / 2 ^ kept =
      held * 2 ^ (n - kept) + uiBits / 2 ^ kept := by
    rw [power, ← Nat.mul_assoc, Nat.add_comm, Nat.add_mul_div_right _ _ (Nat.two_pow_pos _),
      Nat.add_comm]
  have wordLt : held * 2 ^ (n - kept) + uiBits / 2 ^ kept < 2 ^ 32 := by
    have step : held * 2 ^ (n - kept) + uiBits / 2 ^ kept < (held + 1) * 2 ^ (n - kept) := by
      rw [Nat.add_mul, Nat.one_mul]
      omega
    have top : (held + 1) * 2 ^ (n - kept) ≤ 2 ^ h * 2 ^ (n - kept) :=
      Nat.mul_le_mul_right _ heldLt
    have bound : 2 ^ h * 2 ^ (n - kept) ≤ 2 ^ 32 := by
      rw [← pow_add]
      exact Nat.pow_le_pow_right (by decide) (by omega)
    omega
  rw [shifted, Nat.shiftRight_eq_div_pow, shift_or_eq_add lowFits, quotient,
    Nat.mod_eq_of_lt wordLt]

theorem joined_lt {h n held value : Nat} (heldLt : held < 2 ^ h) (fits : value < 2 ^ n) :
    held * 2 ^ n + value < 2 ^ h * 2 ^ n := by
  have step : (held + 1) * 2 ^ n ≤ 2 ^ h * 2 ^ n := Nat.mul_le_mul_right _ heldLt
  rw [Nat.add_mul, Nat.one_mul] at step
  omega

/-- `write` succeeds on every field that fits its width and appends its bits. -/
theorem write_spec {s : OutputBitstream} (wf : s.WellFormed) (uiBits uiNumberOfBits : Nat)
    (width : uiNumberOfBits ≤ 32) (fits : uiBits < 2 ^ uiNumberOfBits) :
    ∃ s', s.write uiBits uiNumberOfBits = .ok s' ∧ s'.WellFormed ∧
      s'.bits = s.bits ++ toBits uiNumberOfBits uiBits := by
  obtain ⟨fifo, h, heldBits⟩ := s
  have hLt : h < 8 := wf.heldLt
  obtain ⟨held, rfl, heldLt⟩ : ∃ held, heldBits = held * 2 ^ (8 - h) ∧ held < 2 ^ h :=
    ⟨_, wf.heldBits_eq, wf.held_lt⟩
  have inRange : ¬ 32 < uiNumberOfBits := by omega
  have noHighBits : ¬ (uiNumberOfBits ≠ 32 ∧ uiBits >>> uiNumberOfBits ≠ 0) := by
    rintro ⟨_, nonzero⟩
    exact nonzero (by rw [Nat.shiftRight_eq_div_pow, Nat.div_eq_of_lt fits])
  -- the field together with the held bits is one number of `h + n` bits
  rw [bits_of_held, List.append_assoc, toBits_append fits]
  unfold write
  rw [CHECK_of_not inRange, CHECK_of_not noHighBits]
  have keptLt : (uiNumberOfBits + h) % 8 < 8 := Nat.mod_lt _ (by decide)
  by_cases short : (uiNumberOfBits + h) >>> 3 = 0
  · have total : uiNumberOfBits + h < 8 := by
      rw [Nat.shiftRight_eq_div_pow] at short
      omega
    have keptEq : (uiNumberOfBits + h) % 8 = h + uiNumberOfBits := by omega
    have exponent : 8 - h = uiNumberOfBits + (8 - (h + uiNumberOfBits)) := by omega
    have newFits : uiBits * 2 ^ (8 - (h + uiNumberOfBits)) < 2 ^ (8 - h) := by
      rw [exponent, pow_add]
      exact Nat.mul_lt_mul_of_pos_right fits (Nat.two_pow_pos _)
    have merged : held * 2 ^ (8 - h) ||| uiBits * 2 ^ (8 - (h + uiNumberOfBits)) =
        (held * 2 ^ uiNumberOfBits + uiBits) * 2 ^ (8 - (h + uiNumberOfBits)) := by
      rw [shift_or_eq_add newFits, exponent, pow_add]
      ring
    have heldFits : uiBits < 2 ^ (h + uiNumberOfBits) :=
      lt_of_lt_of_le fits (Nat.pow_le_pow_right (by decide) (by omega))
    have nextHeld : (uiBits <<< (8 - (h + uiNumberOfBits))) % 256 =
        uiBits * 2 ^ (8 - (h + uiNumberOfBits)) := by
      rw [nextHeldBits_eq uiBits (by omega), Nat.mod_eq_of_lt heldFits]
    refine ⟨_, if_pos short, ?_⟩
    simp only [keptEq, nextHeld, merged]
    refine ⟨wellFormed_of_held (by omega) ?_, bits_of_held _ _ _⟩
    rw [pow_add]
    exact joined_lt heldLt fits
  · have whole : 8 ≤ uiNumberOfBits + h := by
      rw [Nat.shiftRight_eq_div_pow] at short
      omega
    refine ⟨_, if_neg short, ?_⟩
    simp only [nextHeldBits_eq uiBits keptLt, writeBits_eq hLt width heldLt fits whole]
    refine ⟨wellFormed_of_held keptLt (Nat.mod_lt _ (Nat.two_pow_pos _)), ?_⟩
    have split : h + uiNumberOfBits =
        8 * ((uiNumberOfBits + h) >>> 3) + (uiNumberOfBits + h) % 8 := by
      rw [Nat.shiftRight_eq_div_pow]
      omega
    rw [bits_of_held, bytesToBits_append, bytesToBits_pushBytes, List.append_assoc, split,
      toBits_add]
    have keptLe : (uiNumberOfBits + h) % 8 ≤ uiNumberOfBits := by omega
    have power : 2 ^ uiNumberOfBits = 2 ^ (uiNumberOfBits - (uiNumberOfBits + h) % 8) *
        2 ^ ((uiNumberOfBits + h) % 8) := by
      rw [← pow_add, Nat.sub_add_cancel keptLe]
    have keptBits : (held * 2 ^ uiNumberOfBits + uiBits) % 2 ^ ((uiNumberOfBits + h) % 8) =
        uiBits % 2 ^ ((uiNumberOfBits + h) % 8) := by
      rw [power, ← Nat.mul_assoc, Nat.add_comm, Nat.add_mul_mod_self_right]
    rw [← toBits_mod _ (held * 2 ^ uiNumberOfBits + uiBits), keptBits]

/-- A field is only written when it is at most a word. -/
theorem width_of_write {s s' : OutputBitstream} {uiBits uiNumberOfBits : Nat}
    (written : s.write uiBits uiNumberOfBits = .ok s') : uiNumberOfBits ≤ 32 := by
  unfold write at written
  obtain ⟨_, passes, _⟩ := bind_eq_ok_iff.mp written
  rw [CHECK_ok_iff] at passes
  omega

/-- A field narrower than a word is only written when it fits. -/
theorem fits_of_write {s s' : OutputBitstream} {uiBits uiNumberOfBits : Nat}
    (narrow : uiNumberOfBits < 32) (written : s.write uiBits uiNumberOfBits = .ok s') :
    uiBits < 2 ^ uiNumberOfBits := by
  unfold write at written
  obtain ⟨_, _, written⟩ := bind_eq_ok_iff.mp written
  obtain ⟨_, passes, _⟩ := bind_eq_ok_iff.mp written
  rw [CHECK_ok_iff, Nat.shiftRight_eq_div_pow] at passes
  by_contra large
  apply passes
  have quotient := Nat.div_pos (not_lt.mp large) (Nat.two_pow_pos uiNumberOfBits)
  exact ⟨by omega, by omega⟩

/-- `writeAlignZero` pads to the next byte boundary with zero bits. -/
theorem writeAlignZero_spec {s : OutputBitstream} (wf : s.WellFormed) :
    s.writeAlignZero.numHeldBits = 0 ∧ s.writeAlignZero.WellFormed ∧
      s.writeAlignZero.bits = s.bits ++ List.replicate s.getNumBitsUntilByteAligned false := by
  obtain ⟨fifo, h, heldBits⟩ := s
  have hLt : h < 8 := wf.heldLt
  have heldByte : heldBits < 256 := wf.heldByte
  obtain ⟨held, rfl, heldLt⟩ : ∃ held, heldBits = held * 2 ^ (8 - h) ∧ held < 2 ^ h :=
    ⟨_, wf.heldBits_eq, wf.held_lt⟩
  unfold writeAlignZero getNumBitsUntilByteAligned
  by_cases zero : h = 0
  · subst zero
    exact ⟨rfl, wf, by simp⟩
  · rw [if_neg zero]
    refine ⟨rfl, ⟨by simp, by simp, by simp⟩, ?_⟩
    have byteValue : (UInt8.ofNat (held * 2 ^ (8 - h))).toNat = held * 2 ^ (8 - h) := by
      rw [UInt8.toNat_ofNat']
      exact Nat.mod_eq_of_lt heldByte
    have padding : (8 - h) % 8 = 8 - h := Nat.mod_eq_of_lt (by omega)
    have width : h + (8 - h) = 8 := by omega
    rw [bits_of_held, padding, ← toBits_value_zero, List.append_assoc,
      toBits_append (Nat.two_pow_pos _), width, Nat.add_zero]
    simp only [bits, bytesToBits_append, bytesToBits_cons, bytesToBits_nil, byteValue, toBits_zero,
      List.append_nil]

/-- `writeByteAlignment` appends a one and then zeros up to the byte boundary. -/
theorem writeByteAlignment_spec {s : OutputBitstream} (wf : s.WellFormed) :
    ∃ s', s.writeByteAlignment = .ok s' ∧ s'.numHeldBits = 0 ∧
      s'.bits = s.bits ++ true :: List.replicate (7 - s.bits.length % 8) false := by
  obtain ⟨t, run, wf', bits'⟩ := write_spec wf 1 1 (by decide) (by decide)
  obtain ⟨aligned, _, padded⟩ := writeAlignZero_spec wf'
  refine ⟨t.writeAlignZero, ?_, aligned, ?_⟩
  · unfold writeByteAlignment
    rw [run]
    rfl
  · have one : toBits 1 1 = [true] := rfl
    have held : t.numHeldBits = (s.bits.length + 1) % 8 := by
      have lengths := congrArg List.length bits'
      rw [length_bits, List.length_append, length_toBits] at lengths
      have lt := wf'.heldLt
      unfold writtenBits at lengths
      omega
    have padding : t.getNumBitsUntilByteAligned = 7 - s.bits.length % 8 := by
      unfold getNumBitsUntilByteAligned
      rw [held]
      omega
    rw [padded, bits', one, padding, List.append_assoc]
    rfl

/-- A byte-aligned stream is exactly its FIFO. -/
theorem bits_of_aligned {s : OutputBitstream} (aligned : s.numHeldBits = 0) :
    s.bits = bytesToBits s.fifo := by
  simp [bits, aligned]

theorem writeBytes_spec (bytes : List UInt8) {s : OutputBitstream} (wf : s.WellFormed) :
    ∃ s', writeBytes bytes s = .ok s' ∧ s'.WellFormed ∧ s'.bits = s.bits ++ bytesToBits bytes := by
  induction bytes generalizing s with
  | nil => exact ⟨s, rfl, wf, by simp⟩
  | cons byte rest ih =>
      obtain ⟨t, run, wf', bits'⟩ := write_spec wf byte.toNat 8 (by decide) (UInt8.toNat_lt byte)
      obtain ⟨u, loop, wf₂, bits₂⟩ := ih wf'
      refine ⟨u, ?_, wf₂, ?_⟩
      · rw [writeBytes, run]
        exact loop
      · rw [bits₂, bits', bytesToBits_cons, List.append_assoc]

/-- `addSubstream` appends every bit written to the substream, held bits included. -/
theorem addSubstream_spec {s sub : OutputBitstream} (wf : s.WellFormed) (wfSub : sub.WellFormed) :
    ∃ s', s.addSubstream sub = .ok s' ∧ s'.WellFormed ∧ s'.bits = s.bits ++ sub.bits := by
  obtain ⟨t, loop, wf', bits'⟩ := writeBytes_spec sub.fifo wf
  have heldLt := wfSub.heldLt
  have held : sub.getNumberOfWrittenBits % 8 = sub.numHeldBits := by
    unfold getNumberOfWrittenBits writtenBits
    omega
  unfold addSubstream
  rw [loop]
  simp only [held]
  by_cases none : sub.numHeldBits = 0
  · refine ⟨t, if_neg (by simpa using none), wf', ?_⟩
    rw [bits', bits_of_aligned none]
  · obtain ⟨u, run, wf₂, bits₂⟩ := write_spec wf' (sub.heldBits >>> (8 - sub.numHeldBits))
      sub.numHeldBits (by omega) wfSub.held_lt
    refine ⟨u, (if_pos none).trans run, wf₂, ?_⟩
    rw [bits₂, bits', List.append_assoc]
    rfl

end OutputBitstream

/-- Model of an input bitstream that extracts bits from a predefined bytestream. -/
structure InputBitstream where
  fifo : List UInt8
  emulationPreventionByteLocation : List Nat
  /-- Read index into the FIFO. -/
  fifoIdx : Nat
  numHeldBits : Nat
  /-- The last byte loaded; its `numHeldBits` low bits are not yet consumed. -/
  heldBits : Nat
  numBitsRead : Nat
deriving DecidableEq, Repr

namespace InputBitstream

/-- A reader positioned at the start of `fifo`: `resetToStart`. -/
def resetToStart (s : InputBitstream) : InputBitstream :=
  { s with fifoIdx := 0, numHeldBits := 0, heldBits := 0, numBitsRead := 0 }

/-- A fresh stream over a byte string. -/
def ofFifo (fifo : List UInt8) : InputBitstream := ⟨fifo, [], 0, 0, 0, 0⟩

/-- Fewer than eight bits are held and the read index is inside the FIFO. -/
structure WellFormed (s : InputBitstream) : Prop where
  heldLt : s.numHeldBits < 8
  idxLe : s.fifoIdx ≤ s.fifo.length

/-- The bits that have not been consumed. -/
@[grind =] def remaining (s : InputBitstream) : List Bool :=
  toBits s.numHeldBits s.heldBits ++ bytesToBits (s.fifo.drop s.fifoIdx)

/-- `read` extracts `uiNumberOfBits` bits, msb first. -/
@[grind =] def read (s : InputBitstream) (uiNumberOfBits : Nat) : Checked (Nat × InputBitstream) := do
  CHECK (32 < uiNumberOfBits) "Too many bits read"
  let numBitsRead := s.numBitsRead + uiNumberOfBits
  if uiNumberOfBits ≤ s.numHeldBits then
    let retval := (s.heldBits >>> (s.numHeldBits - uiNumberOfBits)) % 2 ^ uiNumberOfBits
    return (retval, { s with numHeldBits := s.numHeldBits - uiNumberOfBits, numBitsRead })
  -- all held bits go into the result, above the bits still to be loaded
  let missing := uiNumberOfBits - s.numHeldBits
  let retval := ((s.heldBits % 2 ^ s.numHeldBits) <<< missing) % 2 ^ 32
  let numBytesToLoad := (missing - 1) >>> 3
  CHECK (s.fifo.length ≤ s.fifoIdx + numBytesToLoad) "Exceeded FIFO size"
  let alignedWord := ofBytes ((s.fifo.drop s.fifoIdx).take (numBytesToLoad + 1))
  let nextNumHeldBits := (32 - missing) % 8
  return (retval ||| (alignedWord >>> nextNumHeldBits),
    { s with
      fifoIdx := s.fifoIdx + (numBytesToLoad + 1)
      numHeldBits := nextNumHeldBits
      heldBits := alignedWord % 256
      numBitsRead })

/-- `readByte` takes the next whole byte of the FIFO. -/
def readByte (s : InputBitstream) : Checked (Nat × InputBitstream) :=
  match s.fifo[s.fifoIdx]? with
  | none => .error "FIFO exceeded"
  | some byte => .ok (byte.toNat, { s with fifoIdx := s.fifoIdx + 1 })

/-- `peekPreviousByte` looks at the byte before the read index. -/
def peekPreviousByte (s : InputBitstream) : Checked Nat := do
  CHECK (s.fifoIdx = 0) "FIFO empty"
  match s.fifo[s.fifoIdx - 1]? with
  | none => .error "FIFO exceeded"
  | some byte => .ok byte.toNat

/-- Reading whole bytes in `extractSubstream` from an unaligned position. -/
def readWholeBytes : Nat → InputBitstream → Checked (List UInt8 × InputBitstream)
  | 0, s => .ok ([], s)
  | count + 1, s => do
      let (uiByte, s) ← s.read 8
      let (buf, s) ← readWholeBytes count s
      return (UInt8.ofNat uiByte :: buf, s)

/-- `extractSubstream` cuts the next `uiNumBits` bits off as a stream of their
own. Whole bytes past the end of the FIFO are zero. -/
def extractSubstream (s : InputBitstream) (uiNumBits : Nat) :
    Checked (InputBitstream × InputBitstream) := do
  let uiNumBytes := uiNumBits / 8
  let (buf, s) ←
    if s.numHeldBits = 0 then
      let uiNumBytesToReadFromFifo := min uiNumBytes (s.fifo.length - s.fifoIdx)
      .ok ((s.fifo.drop s.fifoIdx).take uiNumBytesToReadFromFifo ++
          List.replicate (uiNumBytes - uiNumBytesToReadFromFifo) 0,
        { s with fifoIdx := s.fifoIdx + uiNumBytesToReadFromFifo })
    else readWholeBytes uiNumBytes s
  if uiNumBits % 8 ≠ 0 then
    let (uiByte, s) ← s.read (uiNumBits % 8)
    return (ofFifo (buf ++ [UInt8.ofNat (uiByte <<< (8 - uiNumBits % 8))]), s)
  return (ofFifo buf, s)

def getNumBitsUntilByteAligned (s : InputBitstream) : Nat :=
  s.numHeldBits % 8

/-- The bits that have not been read yet. -/
@[grind =] def unreadBits (s : InputBitstream) : Nat :=
  8 * (s.fifo.length - s.fifoIdx) + s.numHeldBits

/-- `getNumBitsLeft`, a `uint32_t`: from `2 ^ 29` bytes on it is not the number of bits left. -/
@[grind =] def getNumBitsLeft (s : InputBitstream) : Nat := s.unreadBits % 2 ^ 32

/-- `getNumBitsRead`, a `uint32_t`. -/
def getNumBitsRead (s : InputBitstream) : Nat :=
  s.numBitsRead % 2 ^ 32

/-- `pseudoRead`, and with it `peekBits`: a `read` after which three of the four
members it changes are put back. `m_numBitsRead` is not among them. -/
def pseudoRead (s : InputBitstream) (uiNumberOfBits : Nat) : Checked (Nat × InputBitstream) := do
  let numBitsToRead := min uiNumberOfBits s.getNumBitsLeft
  let (ruiBits, s') ← s.read numBitsToRead
  return ((ruiBits <<< (uiNumberOfBits - numBitsToRead)) % 2 ^ 32,
    { s' with fifoIdx := s.fifoIdx, heldBits := s.heldBits, numHeldBits := s.numHeldBits })

theorem length_remaining (s : InputBitstream) : s.remaining.length = s.unreadBits := by
  simp [remaining, unreadBits, Nat.add_comm]

theorem getNumBitsLeft_of_lt {s : InputBitstream} (small : s.unreadBits < 2 ^ 32) :
    s.getNumBitsLeft = s.unreadBits := Nat.mod_eq_of_lt small

theorem getNumBitsLeft_le (s : InputBitstream) : s.getNumBitsLeft ≤ s.unreadBits :=
  Nat.mod_le _ _

/-- The held bits are never more than `getNumBitsLeft` says. -/
theorem WellFormed.numHeldBits_le {s : InputBitstream} (wf : s.WellFormed) :
    s.numHeldBits ≤ s.getNumBitsLeft := by
  have heldLt := wf.heldLt
  unfold getNumBitsLeft unreadBits
  omega

theorem WellFormed.resetToStart (s : InputBitstream) : s.resetToStart.WellFormed :=
  ⟨Nat.zero_lt_succ 7, Nat.zero_le _⟩

@[simp] theorem remaining_resetToStart (s : InputBitstream) :
    s.resetToStart.remaining = bytesToBits s.fifo := by
  simp [remaining, InputBitstream.resetToStart]

/-- What `read` leaves alone: the bytes and the recorded escape positions. -/
structure SameBytes (s s' : InputBitstream) : Prop where
  fifo : s'.fifo = s.fifo
  locations : s'.emulationPreventionByteLocation = s.emulationPreventionByteLocation

theorem SameBytes.refl (s : InputBitstream) : SameBytes s s := ⟨rfl, rfl⟩

theorem SameBytes.trans {first second third : InputBitstream} (left : SameBytes first second)
    (right : SameBytes second third) : SameBytes first third :=
  ⟨right.fifo.trans left.fifo, right.locations.trans left.locations⟩

/-- A field that fits in the held bits is cut from their top. -/
private theorem read_held {s : InputBitstream} {n value : Nat} {rest : List Bool} (fits : value < 2 ^ n) (within : n ≤ s.numHeldBits)
    (view : s.remaining = toBits n value ++ rest) :
    (s.heldBits >>> (s.numHeldBits - n)) % 2 ^ n = value ∧
      toBits (s.numHeldBits - n) s.heldBits ++ bytesToBits (s.fifo.drop s.fifoIdx) = rest := by
  have split : toBits s.numHeldBits s.heldBits =
      toBits n (s.heldBits / 2 ^ (s.numHeldBits - n)) ++
        toBits (s.numHeldBits - n) s.heldBits := by
    rw [← toBits_add, Nat.add_sub_cancel' within]
  rw [remaining, split, List.append_assoc] at view
  obtain ⟨front, back⟩ := List.append_inj view (by simp)
  refine ⟨?_, back⟩
  have values := congrArg ofBits front
  rwa [ofBits_toBits, ofBits_toBits_of_lt fits, ← Nat.shiftRight_eq_div_pow] at values

/-- A field that needs more bytes is the held bits over the loaded word. -/
private theorem read_loaded {s : InputBitstream} {n value : Nat} {rest : List Bool}
    (width : n ≤ 32) (fits : value < 2 ^ n) (beyond : s.numHeldBits < n)
    (view : s.remaining = toBits n value ++ rest) :
    let missing := n - s.numHeldBits
    let count := (missing - 1) / 8 + 1
    let word := ofBytes ((s.fifo.drop s.fifoIdx).take count)
    let next := (32 - missing) % 8
    s.fifoIdx + count ≤ s.fifo.length ∧
      value = (s.heldBits % 2 ^ s.numHeldBits) * 2 ^ missing + word / 2 ^ next ∧
      word / 2 ^ next < 2 ^ missing ∧
      rest = toBits next word ++ bytesToBits (s.fifo.drop (s.fifoIdx + count)) := by
  intro missing count word next
  have lengths := congrArg List.length view
  rw [length_remaining, unreadBits, List.length_append, length_toBits] at lengths
  have enough : s.fifoIdx + count ≤ s.fifo.length := by omega
  have bytesLength : ((s.fifo.drop s.fifoIdx).take count).length = count := by
    rw [List.length_take, List.length_drop]
    omega
  have aligned : 8 * count = missing + next := by omega
  have loaded : bytesToBits ((s.fifo.drop s.fifoIdx).take count) =
      toBits missing (word / 2 ^ next) ++ toBits next word := by
    rw [← toBits_add, ← aligned]
    have whole := toBits_ofBits (bytesToBits ((s.fifo.drop s.fifoIdx).take count))
    rw [length_bytesToBits, bytesLength] at whole
    exact whole.symm
  have wordLt : word / 2 ^ next < 2 ^ missing := by
    apply Nat.div_lt_of_lt_mul
    have below := ofBytes_lt ((s.fifo.drop s.fifoIdx).take count)
    rw [bytesLength] at below
    rw [← pow_add, Nat.add_comm, ← aligned, pow_mul]
    exact below
  have bytes : bytesToBits (s.fifo.drop s.fifoIdx) =
      bytesToBits ((s.fifo.drop s.fifoIdx).take count) ++
        bytesToBits (s.fifo.drop (s.fifoIdx + count)) := by
    rw [← bytesToBits_append, ← List.drop_drop, List.take_append_drop]
  have heldWidth : s.numHeldBits + missing = n := by omega
  rw [remaining, bytes, loaded, ← toBits_mod s.numHeldBits, List.append_assoc,
    ← List.append_assoc, toBits_append wordLt, heldWidth] at view
  obtain ⟨front, back⟩ := List.append_inj view (by simp)
  refine ⟨enough, ?_, wordLt, back.symm⟩
  have values := congrArg ofBits front
  have joinedLt : (s.heldBits % 2 ^ s.numHeldBits) * 2 ^ missing + word / 2 ^ next < 2 ^ n := by
    rw [← heldWidth, pow_add]
    exact OutputBitstream.joined_lt (Nat.mod_lt _ (Nat.two_pow_pos _)) wordLt
  rw [ofBits_toBits_of_lt fits, ofBits_toBits_of_lt joinedLt] at values
  exact values.symm

/-- `read` returns the next field and leaves the bits behind it. -/
theorem read_spec {s : InputBitstream} (wf : s.WellFormed) {n value : Nat} {rest : List Bool}
    (width : n ≤ 32) (fits : value < 2 ^ n) (view : s.remaining = toBits n value ++ rest) :
    ∃ s', s.read n = .ok (value, s') ∧ s'.WellFormed ∧ s'.remaining = rest ∧ SameBytes s s' := by
  unfold read
  rw [CHECK_of_not (show ¬ 32 < n by omega)]
  by_cases within : n ≤ s.numHeldBits
  · obtain ⟨valueEq, restEq⟩ := read_held fits within view
    have heldLt := wf.heldLt
    refine ⟨{ s with
      numHeldBits := s.numHeldBits - n
      numBitsRead := s.numBitsRead + n }, ?_, ⟨?_, wf.idxLe⟩, restEq, ⟨rfl, rfl⟩⟩
    · simp [within, valueEq, bind, Except.bind, pure, Except.pure]
    · show s.numHeldBits - n < 8
      omega
  · obtain ⟨enough, valueEq, wordLt, restEq⟩ := read_loaded width fits (by omega) view
    set missing := n - s.numHeldBits with missingDef
    set word := ofBytes ((s.fifo.drop s.fifoIdx).take ((missing - 1) / 8 + 1)) with wordDef
    have heldPart : ((s.heldBits % 2 ^ s.numHeldBits) <<< missing) % 2 ^ 32 =
        (s.heldBits % 2 ^ s.numHeldBits) * 2 ^ missing := by
      rw [Nat.shiftLeft_eq]
      apply Nat.mod_eq_of_lt
      have below : value < 2 ^ 32 :=
        lt_of_lt_of_le fits (Nat.pow_le_pow_right (by decide) width)
      rw [valueEq] at below
      exact lt_of_le_of_lt (Nat.le_add_right _ _) below
    have available : ¬ s.fifo.length ≤ s.fifoIdx + (missing - 1) / 8 := by omega
    refine ⟨{ s with
      fifoIdx := s.fifoIdx + ((missing - 1) / 8 + 1)
      numHeldBits := (32 - missing) % 8
      heldBits := word % 256
      numBitsRead := s.numBitsRead + n }, ?_, ⟨Nat.mod_lt _ (by decide), enough⟩, ?_, ⟨rfl, rfl⟩⟩
    · simp only [Nat.shiftRight_eq_div_pow, ← wordDef, heldPart,
        OutputBitstream.shift_or_eq_add wordLt, ← valueEq, CHECK_of_not available, if_neg within,
        bind, Except.bind, pure, Except.pure, show (2 : Nat) ^ 3 = 8 by rfl]
    · have keptLt : (32 - missing) % 8 ≤ 8 := (Nat.mod_lt _ (by decide)).le
      simp only [remaining]
      rw [show (256 : Nat) = 2 ^ 8 by rfl, toBits_mod_of_le keptLt, restEq]

/-- The first check of `read`. -/
theorem read_word {s s' : InputBitstream} {n value : Nat} (run : s.read n = .ok (value, s')) :
    n ≤ 32 := by
  unfold read at run
  obtain ⟨width, _⟩ := CHECK_bind_eq_ok_iff.mp run
  omega

/-- A field that was read fits its width. -/
theorem read_lt {s s' : InputBitstream} {n value : Nat} (run : s.read n = .ok (value, s')) :
    value < 2 ^ n := by
  unfold read at run
  obtain ⟨width, run⟩ := CHECK_bind_eq_ok_iff.mp run
  dsimp only at run
  split at run
  · cases run
    exact Nat.mod_lt _ (Nat.two_pow_pos n)
  · rename_i beyond
    obtain ⟨_, run⟩ := CHECK_bind_eq_ok_iff.mp run
    cases run
    generalize bytes : (s.fifo.drop s.fifoIdx).take ((n - s.numHeldBits - 1) >>> 3 + 1) = loaded
    -- the held bits above, the loaded bits below
    refine Nat.or_lt_two_pow ?_ ?_
    · refine Nat.lt_of_le_of_lt (Nat.mod_le _ _) ?_
      rw [Nat.shiftLeft_eq]
      calc s.heldBits % 2 ^ s.numHeldBits * 2 ^ (n - s.numHeldBits)
          < 2 ^ s.numHeldBits * 2 ^ (n - s.numHeldBits) :=
            Nat.mul_lt_mul_of_pos_right (Nat.mod_lt _ (Nat.two_pow_pos _)) (Nat.two_pow_pos _)
        _ = 2 ^ n := by
            rw [← pow_add]
            congr 1
            omega
    · have count : loaded.length ≤ (n - s.numHeldBits - 1) / 8 + 1 := by
        rw [← bytes, Nat.shiftRight_eq_div_pow]
        exact List.length_take_le _ _
      have word : ofBytes loaded < 2 ^ (8 * ((n - s.numHeldBits - 1) / 8 + 1)) := by
        refine Nat.lt_of_lt_of_le (ofBytes_lt loaded) ?_
        rw [show (256 : Nat) = 2 ^ 8 by rfl, ← pow_mul]
        exact Nat.pow_le_pow_right (by decide) (Nat.mul_le_mul_left 8 count)
      rw [Nat.shiftRight_eq_div_pow]
      apply Nat.div_lt_of_lt_mul
      refine Nat.lt_of_lt_of_le word ?_
      rw [← pow_add]
      exact Nat.pow_le_pow_right (by decide) (by omega)

/-- `read` hands out the next bits of the stream. -/
theorem read_take {s : InputBitstream} (wf : s.WellFormed) {n : Nat} (width : n ≤ 32)
    (enough : n ≤ s.unreadBits) :
    ∃ s', s.read n = .ok (ofBits (s.remaining.take n), s') ∧ s'.WellFormed ∧
      s'.remaining = s.remaining.drop n ∧ SameBytes s s' := by
  rw [← length_remaining] at enough
  have count : (s.remaining.take n).length = n := List.length_take_of_le enough
  have fits : ofBits (s.remaining.take n) < 2 ^ n := by
    have below := ofBits_lt (s.remaining.take n)
    rwa [count] at below
  apply read_spec wf width fits
  have digits := toBits_ofBits (s.remaining.take n)
  rw [count] at digits
  rw [digits, List.take_append_drop]

/-- The second check of `read` stops it when the bits left do not suffice. -/
theorem read_exceeds {s : InputBitstream} (wf : s.WellFormed) {n : Nat} (width : n ≤ 32)
    (short : s.unreadBits < n) : s.read n = .error "Exceeded FIFO size" := by
  have idxLe := wf.idxLe
  unfold unreadBits at short
  have beyond : ¬ n ≤ s.numHeldBits := by omega
  have exceeds : s.fifo.length ≤ s.fifoIdx + (n - s.numHeldBits - 1) >>> 3 := by
    rw [Nat.shiftRight_eq_div_pow]
    omega
  unfold read
  rw [CHECK_of_not (by omega)]
  simp [beyond, CHECK, exceeds, bind, Except.bind]

theorem read_numBitsRead {s s' : InputBitstream} {n value : Nat}
    (run : s.read n = .ok (value, s')) : s'.numBitsRead = s.numBitsRead + n := by
  unfold read at run
  obtain ⟨_, run⟩ := CHECK_bind_eq_ok_iff.mp run
  dsimp only at run
  split at run
  · cases run
    rfl
  · obtain ⟨_, run⟩ := CHECK_bind_eq_ok_iff.mp run
    cases run
    rfl

/-- A stream with whole bytes left hands out the next one. -/
theorem readByte_spec {s : InputBitstream} {byte : UInt8} (next : s.fifo[s.fifoIdx]? = some byte) :
    s.readByte = .ok (byte.toNat, { s with fifoIdx := s.fifoIdx + 1 }) := by
  simp [readByte, next]

theorem readByte_lt {s s' : InputBitstream} {byte : Nat} (run : s.readByte = .ok (byte, s')) :
    byte < 256 := by
  unfold readByte at run
  split at run
  · cases run
  · cases run
    exact UInt8.toNat_lt _

end InputBitstream
end Vtm
