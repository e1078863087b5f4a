import Vtm.Std.Guards
import Vtm.Encoder.VLCWriter
import Vtm.Decoder.VLCReader

/-!
# Reading back fixed and variable length codes

Each syntax element writer is in lock step with its reader. `uvlcBits` is the
Exp-Golomb code word; the loop counting its length computes a binary logarithm.
-/

namespace Vtm.RoundTrip.VLC

open Vtm.Std Vtm.VLCWriter Vtm.VLCReader

/-- An output bitstream carries the bits written to it. -/
@[grind =] def outputView : View OutputBitstream Bool := ⟨OutputBitstream.WellFormed, OutputBitstream.bits⟩

/-- An input bitstream over a fixed byte string carries the bits not yet read. -/
def inputView (fifo : List UInt8) (locations : List Nat) : View InputBitstream Bool :=
  ⟨fun s => s.WellFormed ∧ s.fifo = fifo ∧ s.emulationPreventionByteLocation = locations,
    InputBitstream.remaining⟩

section

variable {mayFail : Prop} {fifo : List UInt8} {locations : List Nat}

/-- The reader takes a field of up to a word. -/
theorem accepts_read (n value : Nat) (width : n ≤ 32) (fits : value < 2 ^ n) :
    Accepts (inputView fifo locations) (VLCReader.read n) (toBits n value) value := by
  rintro s rest ⟨wf, sameFifo, sameLocations⟩ view
  obtain ⟨s', run, wf', left, same⟩ := InputBitstream.read_spec wf width fits view
  exact ⟨s', run, ⟨wf', same.fifo.trans sameFifo, same.locations.trans sameLocations⟩, left⟩

/-- The writer appends a field that fits. -/
theorem write_run {s : OutputBitstream} (wf : s.WellFormed) (n value : Nat) (width : n ≤ 32)
    (fits : value < 2 ^ n) :
    ∃ s', VLCWriter.write value n s = .ok ((), s') ∧ s'.WellFormed ∧
      s'.bits = s.bits ++ toBits n value := by
  obtain ⟨s', run, wf', bits'⟩ := OutputBitstream.write_spec wf value n width fits
  refine ⟨s', ?_, wf', bits'⟩
  simp [VLCWriter.write, run, bind, Except.bind, pure, Except.pure]

/-- A field that fits, or whose misfit stops the writer. -/
theorem codes_write {n value : Nat} (width : n ≤ 32)
    (fits : value < 2 ^ n ∨ (mayFail ∧ n < 32)) :
    Codes mayFail outputView (inputView fifo locations) (VLCWriter.write value n)
      (VLCReader.read n) (fun _ read => read = value) := by
  intro s wf
  by_cases small : value < 2 ^ n
  · obtain ⟨s', run, wf', bits'⟩ := write_run wf n value width small
    exact Or.inr ⟨(), s', toBits n value, value, run, wf', bits', rfl, accepts_read n value width small⟩
  · obtain ⟨may, narrow⟩ := fits.resolve_left small
    left
    refine ⟨may, ?_⟩
    cases run : s.write value n with
    | error message => exact ⟨message, by simp [VLCWriter.write, run, bind, Except.bind]⟩
    | ok s' => exact absurd (OutputBitstream.fits_of_write narrow run) small

/-- A code that was written has a length and fits it. -/
theorem usable_of_xWriteCode {n value : Nat} {s s' : OutputBitstream} (word : value < 2 ^ 32)
    (run : xWriteCode value n s = .ok ((), s')) : 0 < n ∧ n ≤ 32 ∧ value < 2 ^ n := by
  unfold xWriteCode at run
  by_cases none : n = 0
  · have failed : (check (n = 0) "Code of length '0' not supported" : BitWriter Unit) s =
        .error "Code of length '0' not supported" := if_pos none
    rw [bind_run_error failed] at run
    cases run
  · rw [bind_run (check_run none)] at run
    obtain ⟨t, written, _⟩ := bind_eq_ok_iff.mp run
    have width : n ≤ 32 := OutputBitstream.width_of_write written
    refine ⟨by omega, width, ?_⟩
    by_cases narrow : n < 32
    · exact OutputBitstream.fits_of_write narrow written
    · rwa [show n = 32 by omega]

theorem codes_code {n value : Nat} (positive : 0 < n) (width : n ≤ 32)
    (fits : value < 2 ^ n ∨ (mayFail ∧ n < 32)) :
    Codes mayFail outputView (inputView fifo locations) (xWriteCode value n) (xReadCode n)
      (fun _ read => read = value) := by
  refine Codes.writerCheck (Or.inr (by omega)) fun _ => ?_
  exact Codes.readerStep (Accepts.check _ (by omega)) (codes_write width fits)

/-- A code of any length; one that does not fit stops the writer. -/
theorem codes_code_word {n value : Nat} (may : mayFail) (word : value < 2 ^ 32) :
    Codes mayFail outputView (inputView fifo locations) (xWriteCode value n) (xReadCode n)
      (fun _ read => read = value ∧ value < 2 ^ n) := by
  by_cases usable : 0 < n ∧ n ≤ 32 ∧ value < 2 ^ n
  · obtain ⟨positive, width, fits⟩ := usable
    exact (codes_code positive width (Or.inl fits)).weaken fun _ _ same => ⟨same, fits⟩
  · intro s _
    refine Or.inl ⟨may, ?_⟩
    cases run : xWriteCode value n s with
    | error message => exact ⟨message, rfl⟩
    | ok result =>
        obtain ⟨_, s'⟩ := result
        exact absurd (usable_of_xWriteCode word run) usable

theorem codes_flag {value : Nat} (fits : value < 2 ∨ mayFail) :
    Codes mayFail outputView (inputView fifo locations) (xWriteFlag value) xReadFlag
      (fun _ read => read = value) :=
  codes_write (by decide) (fits.imp (by simp) fun may => ⟨may, by decide⟩)

theorem codes_bool (flag : Bool) :
    Codes mayFail outputView (inputView fifo locations) (xWriteBool flag) xReadBool
      (fun _ read => read = flag) := by
  have fits : flag.toNat < 2 ∨ mayFail := Or.inl (Bool.toNat_lt flag)
  refine Codes.readerMap (fun code => decide (code ≠ 0)) (codes_flag fits) ?_
  rintro _ _ rfl
  cases flag <;> rfl

/-! ## Exp-Golomb codes -/

/-- The code word of a positive number: its length in zeros, then the number. -/
@[grind =] def uvlcBits (code : Nat) : List Bool :=
  List.replicate (Nat.log2 code) false ++ toBits (Nat.log2 code + 1) code

/-- The counting loop adds twice the binary logarithm. -/
theorem uvlcLength_eq (fuel uiTemp uiLength : Nat) (positive : 0 < uiTemp)
    (enough : uiTemp < 2 ^ fuel) :
    uvlcLength fuel uiTemp uiLength = uiLength + 2 * Nat.log2 uiTemp := by
  induction fuel generalizing uiTemp uiLength with
  | zero => omega
  | succ fuel ih =>
      rw [uvlcLength, Nat.shiftRight_eq_div_pow]
      by_cases one : uiTemp = 1
      · subst one
        rw [if_neg (by decide)]
        rfl
      · have large : 2 ≤ uiTemp := by omega
        rw [if_pos (Ne.symm one), ih (uiTemp / 2 ^ 1) (uiLength + 2) (by omega)
          (by rw [pow_succ] at enough; omega), Nat.log2_def uiTemp, if_pos large]
        simp only [pow_one]
        omega

/-- The reader's loop counts the zeros in front of a one. -/
theorem accepts_leadingZeros (zeros fuel uiLength : Nat) (enough : zeros < fuel) :
    Accepts (inputView fifo locations) (leadingZeros fuel uiLength)
      (List.replicate zeros false ++ [true]) ((uiLength + zeros + 1) % 2 ^ 32) := by
  induction zeros generalizing fuel uiLength with
  | zero =>
      obtain ⟨fuel, rfl⟩ : ∃ rounds, fuel = rounds + 1 := ⟨fuel - 1, by omega⟩
      have one : Accepts (inputView fifo locations) (VLCReader.read 1) [true] 1 :=
        accepts_read 1 1 (by decide) (by decide)
      exact one.bind (Accepts.pure ((uiLength + 1) % 2 ^ 32))
  | succ zeros ih =>
      obtain ⟨fuel, rfl⟩ : ∃ rounds, fuel = rounds + 1 := ⟨fuel - 1, by omega⟩
      have zero : Accepts (inputView fifo locations) (VLCReader.read 1) [false] 0 :=
        accepts_read 1 0 (by decide) (by decide)
      have rest := ih fuel ((uiLength + 1) % 2 ^ 32) (by omega)
      rw [show ((uiLength + 1) % 2 ^ 32 + zeros + 1) % 2 ^ 32 =
        (uiLength + (zeros + 1) + 1) % 2 ^ 32 by omega] at rest
      exact zero.bind rest

/-- A count of zeros that may take as many rounds as there are bits. -/
theorem accepts_unreadBits {α : Type} (count : Nat → BitReader α) {zeros : Nat} {value : α}
    (counts : ∀ fuel, zeros < fuel → Accepts (inputView fifo locations) (count fuel)
      (List.replicate zeros false ++ [true]) value) :
    Accepts (inputView fifo locations) (unreadBits >>= fun rounds => count (rounds + 1))
      (List.replicate zeros false ++ [true]) value := by
  intro s rest inv view
  refine counts _ ?_ s rest inv view
  have lengths := congrArg List.length view
  rw [show (inputView fifo locations).tokens s = s.remaining from rfl,
    InputBitstream.length_remaining] at lengths
  simp only [List.length_append, List.length_replicate, List.length_singleton] at lengths
  omega

theorem accepts_zeroRunLength (zeros : Nat) :
    Accepts (inputView fifo locations) zeroRunLength (List.replicate zeros false ++ [true])
      ((zeros + 1) % 2 ^ 32) := by
  refine accepts_unreadBits (fun rounds => leadingZeros rounds 0) fun fuel enough => ?_
  simpa using accepts_leadingZeros zeros fuel 0 enough

theorem toBits_log2 {code : Nat} (positive : 0 < code) :
    toBits (Nat.log2 code + 1) code = true :: toBits (Nat.log2 code) (code - 2 ^ Nat.log2 code) := by
  have low : 2 ^ Nat.log2 code ≤ code := Nat.log2_self_le (by omega)
  have high : code < 2 ^ (Nat.log2 code + 1) := Nat.lt_log2_self
  rw [pow_succ] at high
  have digit : code / 2 ^ Nat.log2 code = 1 := by
    apply Nat.div_eq_of_lt_le <;> omega
  have tail : code % 2 ^ Nat.log2 code = code - 2 ^ Nat.log2 code := by
    rw [Nat.mod_eq_sub_mod low, Nat.mod_eq_of_lt (by omega)]
  rw [toBits, digit, ← toBits_mod, tail]
  rfl

/-- A code word takes a reader through its length and then its number. -/
theorem accepts_codeWord {α : Type} {code : Nat} (positive : 0 < code) (word : code < 2 ^ 32)
    (one : α) (finish : Nat → Nat → α) (value : α) (short : code = 1 → one = value)
    (long : ∀ zeros, Nat.log2 code = zeros + 1 →
      finish (zeros + 1) (code - 2 ^ (zeros + 1)) = value) :
    Accepts (inputView fifo locations)
      (do
        let bit ← VLCReader.read 1
        if 0 = bit then
          let uiLength ← zeroRunLength
          let uiVal ← VLCReader.read uiLength
          return finish uiLength uiVal
        else return one)
      (uvlcBits code) value := by
  have low : 2 ^ Nat.log2 code ≤ code := Nat.log2_self_le (by omega)
  have high : code < 2 ^ (Nat.log2 code + 1) := Nat.lt_log2_self
  have width : Nat.log2 code < 32 := (Nat.log2_lt (by omega)).mpr word
  rw [uvlcBits, toBits_log2 positive]
  cases logarithm : Nat.log2 code with
  | zero =>
      rw [logarithm] at low high
      obtain rfl : code = 1 := by omega
      have bit : Accepts (inputView fifo locations) (VLCReader.read 1) [true] 1 :=
        accepts_read 1 1 (by decide) (by decide)
      exact short rfl ▸ bit.bind (Accepts.pure one)
  | succ zeros =>
      rw [logarithm] at low high width
      have bit : Accepts (inputView fifo locations) (VLCReader.read 1) [false] 0 :=
        accepts_read 1 0 (by decide) (by decide)
      have number : Accepts (inputView fifo locations) (VLCReader.read (zeros + 1))
          (toBits (zeros + 1) (code - 2 ^ (zeros + 1))) (code - 2 ^ (zeros + 1)) := by
        refine accepts_read _ _ (by omega) ?_
        rw [pow_succ 2 (zeros + 1)] at high
        omega
      have length : Accepts (inputView fifo locations) zeroRunLength
          (List.replicate zeros false ++ [true]) (zeros + 1) :=
        Nat.mod_eq_of_lt (show zeros + 1 < 2 ^ 32 by omega) ▸ accepts_zeroRunLength zeros
      have rest : Accepts (inputView fifo locations)
          (do
            let uiLength ← zeroRunLength
            let uiVal ← VLCReader.read uiLength
            return finish uiLength uiVal)
          (List.replicate zeros false ++ [true] ++
            (toBits (zeros + 1) (code - 2 ^ (zeros + 1)) ++ [])) value := by
        refine length.bind (number.bind ?_)
        rw [long zeros logarithm]
        exact Accepts.pure _
      rw [List.append_nil, List.append_assoc] at rest
      exact bit.bind rest

theorem accepts_uvlcBits {code : Nat} (positive : 0 < code) (word : code < 2 ^ 32) :
    Accepts (inputView fifo locations) xReadUvlc (uvlcBits code) (code - 1) := by
  refine accepts_codeWord positive word 0
    (fun uiLength uiVal => (uiVal + (2 ^ uiLength - 1)) % 2 ^ 32) _ (by omega) ?_
  intro zeros logarithm
  have low : 2 ^ Nat.log2 code ≤ code := Nat.log2_self_le (by omega)
  have some : 0 < 2 ^ (zeros + 1) := Nat.two_pow_pos _
  rw [logarithm] at low
  rw [show code - 2 ^ (zeros + 1) + (2 ^ (zeros + 1) - 1) = code - 1 by omega]
  exact Nat.mod_eq_of_lt (by omega)

/-- A signed value from its unsigned code. -/
def svlcValue (code : Nat) : Int :=
  if code % 2 = 1 then -((code >>> 1 : Nat) : Int) else ((code >>> 1 : Nat) : Int)

theorem accepts_svlcBits {code : Nat} (positive : 0 < code) (word : code < 2 ^ 32) :
    Accepts (inputView fifo locations) xReadSvlc (uvlcBits code) (svlcValue code) := by
  refine accepts_codeWord positive word 0
    (fun uiLength uiBits => svlcValue ((uiBits + 2 ^ uiLength) % 2 ^ 32)) _ (by rintro rfl; rfl) ?_
  intro zeros logarithm
  have low : 2 ^ Nat.log2 code ≤ code := Nat.log2_self_le (by omega)
  rw [logarithm] at low
  rw [Nat.sub_add_cancel low, Nat.mod_eq_of_lt word]

/-- The writer appends the code word of a value that has one. -/
theorem xWriteUvlc_run {value : Nat} (word : value < 2 ^ 32 - 1) {s : OutputBitstream}
    (wf : s.WellFormed) :
    ∃ s', xWriteUvlc value s = .ok ((), s') ∧ s'.WellFormed ∧
      s'.bits = s.bits ++ uvlcBits (value + 1) := by
  have code : (value + 1) % 2 ^ 32 = value + 1 := Nat.mod_eq_of_lt (by omega)
  have high : value + 1 < 2 ^ (Nat.log2 (value + 1) + 1) := Nat.lt_log2_self
  have width : Nat.log2 (value + 1) < 32 := (Nat.log2_lt (by omega)).mpr (by omega)
  have length := uvlcLength_eq 32 (value + 1) 1 (by omega) (by omega)
  have zeros : (1 + 2 * Nat.log2 (value + 1)) >>> 1 = Nat.log2 (value + 1) := by
    rw [Nat.shiftRight_eq_div_pow]
    omega
  have digits : (1 + 2 * Nat.log2 (value + 1) + 1) >>> 1 = Nat.log2 (value + 1) + 1 := by
    rw [Nat.shiftRight_eq_div_pow]
    omega
  obtain ⟨s₁, run₁, wf₁, bits₁⟩ := write_run wf (Nat.log2 (value + 1)) 0 (by omega)
    (Nat.two_pow_pos _)
  obtain ⟨s₂, run₂, wf₂, bits₂⟩ := write_run wf₁ (Nat.log2 (value + 1) + 1) (value + 1)
    (by omega) high
  refine ⟨s₂, ?_, wf₂, ?_⟩
  · unfold xWriteUvlc
    simp only [code, length, zeros, digits]
    rw [bind_run (check_run (by omega)), bind_run run₁, run₂]
  · rw [bits₂, bits₁, uvlcBits, toBits_value_zero, List.append_assoc]

/-- `xWriteUvlc` and `xReadUvlc`, for every value with a code word. -/
theorem codes_uvlc {value : Nat} (word : value < 2 ^ 32 - 1) :
    Codes mayFail outputView (inputView fifo locations) (xWriteUvlc value) xReadUvlc
      (fun _ read => read = value) := by
  intro s wf
  obtain ⟨s', run, wf', bits'⟩ := xWriteUvlc_run word wf
  exact Or.inr ⟨(), s', uvlcBits (value + 1), value, run, wf', bits', rfl,
    accepts_uvlcBits (by omega) (by omega)⟩

/-- The signed value comes back from its code. -/
theorem svlcValue_svlcCode {value : Int} (low : -2 ^ 31 < value) (high : value < 2 ^ 31) :
    svlcCode value < 2 ^ 32 - 1 ∧ svlcValue (svlcCode value + 1) = value := by
  unfold svlcCode svlcValue
  rw [Nat.shiftRight_eq_div_pow]
  split <;> split <;> omega

/-- `xWriteSvlc` and `xReadSvlc`, for every value with a code word. -/
theorem codes_svlc {value : Int} (low : -2 ^ 31 < value) (high : value < 2 ^ 31) :
    Codes mayFail outputView (inputView fifo locations) (xWriteSvlc value) xReadSvlc
      (fun _ read => read = value) := by
  obtain ⟨word, back⟩ := svlcValue_svlcCode low high
  intro s wf
  obtain ⟨s', run, wf', bits'⟩ := xWriteUvlc_run word wf
  refine Or.inr ⟨(), s', uvlcBits (svlcCode value + 1), value, run, wf', bits', rfl, ?_⟩
  have accepts : Accepts (inputView fifo locations) xReadSvlc (uvlcBits (svlcCode value + 1))
      (svlcValue (svlcCode value + 1)) := accepts_svlcBits (by omega) (by omega)
  rwa [back] at accepts

end

/-- Programs in lock step: what one writes to any stream, the other reads from any stream. -/
theorem parses_written {α : Type} {w : BitWriter Unit} {r : BitReader α} {post : Unit → α → Prop}
    (codes : ∀ fifo locations, Codes False outputView (inputView fifo locations) w r post)
    {before : OutputBitstream} (wf : before.WellFormed) :
    ∃ after bits, w before = .ok ((), after) ∧ after.bits = before.bits ++ bits ∧
      ∀ (s : InputBitstream) (rest : List Bool), s.WellFormed → s.remaining = bits ++ rest →
        ∃ parsed s', r s = .ok (parsed, s') ∧ s'.remaining = rest ∧ post () parsed := by
  rcases codes [] [] before wf with ⟨fails, _⟩ | ⟨_, after, bits, _, run, _, appended, _⟩
  · exact absurd fails not_false
  · refine ⟨after, bits, run, appended, fun s rest ready next => ?_⟩
    obtain ⟨tokens, parsed, _, appended', related, accepts⟩ :=
      (codes s.fifo s.emulationPreventionByteLocation).of_run wf run
    have same : tokens = bits := List.append_cancel_left (appended'.symm.trans appended)
    subst same
    obtain ⟨s', parses, _, left⟩ := accepts s rest ⟨ready, rfl, rfl⟩ next
    exact ⟨parsed, s', parses, left, related⟩

/-- What readers that may stop do with what was written, one reader for each `i`. -/
theorem guarded_written {ι α : Type} {w : BitWriter Unit} {r : ι → BitReader α} {c : Prop}
    {e : String} {post : Unit → α → Prop} (i₀ : ι)
    (guards : ∀ i fifo locations,
      Guards outputView (inputView fifo locations) w (r i) c e post)
    {before : OutputBitstream} (wf : before.WellFormed) :
    ∃ after bits, w before = .ok ((), after) ∧ after.WellFormed ∧
      after.bits = before.bits ++ bits ∧
      ∀ (i : ι) (s : InputBitstream) (rest : List Bool), s.WellFormed →
        s.remaining = bits ++ rest →
        (c → ∃ parsed s', r i s = .ok (parsed, s') ∧ s'.remaining = rest ∧ post () parsed) ∧
        (¬ c → r i s = .error e) := by
  obtain ⟨_, after, bits, _, run, wf', appended, _⟩ := guards i₀ [] [] before wf
  refine ⟨after, bits, run, wf', appended, fun i s rest ready next => ?_⟩
  obtain ⟨_, after', bits', parsed, run', _, appended', related, accepts, stops⟩ :=
    guards i s.fifo s.emulationPreventionByteLocation before wf
  rw [run] at run'
  cases run'
  obtain rfl : bits = bits' := List.append_cancel_left (appended.symm.trans appended')
  constructor
  · intro met
    obtain ⟨s', parses, _, left⟩ := accepts met s rest ⟨ready, rfl, rfl⟩ next
    exact ⟨parsed, s', parses, left, related⟩
  · intro unmet
    exact stops unmet s rest ⟨ready, rfl, rfl⟩ next

/-! ## Trailing bits -/

/-- The bits missing to a whole byte are written as zeros. -/
theorem writeAlignmentZeros_run (fuel cnt : Nat) {s : OutputBitstream} (wf : s.WellFormed)
    (enough : s.getNumBitsUntilByteAligned < fuel) :
    ∃ s', writeAlignmentZeros fuel cnt s = .ok (cnt + s.getNumBitsUntilByteAligned, s') ∧
      s'.WellFormed ∧ s'.numHeldBits = 0 ∧
      s'.bits = s.bits ++ List.replicate s.getNumBitsUntilByteAligned false := by
  induction fuel generalizing cnt s with
  | zero => omega
  | succ fuel ih =>
      have held := wf.heldLt
      rw [writeAlignmentZeros, bind_run (show
        (fun s => .ok (s.getNumBitsUntilByteAligned, s) : BitWriter Nat) s =
          .ok (s.getNumBitsUntilByteAligned, s) from rfl)]
      by_cases missing : s.getNumBitsUntilByteAligned ≠ 0
      · obtain ⟨t, wrote, wf', bits⟩ := write_run wf 1 0 (by decide) (by decide)
        have flag : xWriteFlag 0 s = .ok ((), t) := wrote
        have zero : toBits 1 0 = [false] := rfl
        have fewer : s.getNumBitsUntilByteAligned = t.getNumBitsUntilByteAligned + 1 := by
          have lengths := congrArg List.length bits
          rw [List.length_append, length_toBits, OutputBitstream.length_bits,
            OutputBitstream.length_bits] at lengths
          have held' := wf'.heldLt
          unfold OutputBitstream.writtenBits at lengths
          unfold OutputBitstream.getNumBitsUntilByteAligned at missing ⊢
          omega
        obtain ⟨s', run, wf₂, aligned, bits'⟩ := ih (cnt + 1) wf' (by omega)
        refine ⟨s', ?_, wf₂, aligned, ?_⟩
        · rw [if_pos missing, bind_run flag, run, fewer, Nat.add_assoc, Nat.add_comm 1]
        · rw [bits', bits, zero, fewer, List.append_assoc, List.replicate_succ]
          rfl
      · rw [if_neg missing]
        have none : s.getNumBitsUntilByteAligned = 0 := by omega
        rw [none]
        refine ⟨s, rfl, wf, ?_, by simp⟩
        unfold OutputBitstream.getNumBitsUntilByteAligned at none
        omega

/-- In front of whole bytes, the bits up to them are the ones left in the current byte. -/
theorem untilByteAligned_eq {s : InputBitstream} (wf : s.WellFormed) {front rest : List Bool}
    (view : s.remaining = front ++ rest) (few : front.length < 8) (aligned : rest.length % 8 = 0) :
    s.getNumBitsUntilByteAligned = front.length := by
  have lengths := congrArg List.length view
  rw [InputBitstream.length_remaining, List.length_append] at lengths
  have held := wf.heldLt
  unfold InputBitstream.unreadBits at lengths
  unfold InputBitstream.getNumBitsUntilByteAligned
  omega

/-- The zeros up to a whole byte are read. -/
theorem readAlignmentZeros_run (zeros fuel cnt : Nat) (few : zeros < 8) (enough : zeros < fuel)
    {s : InputBitstream} {rest : List Bool} (wf : s.WellFormed)
    (view : s.remaining = List.replicate zeros false ++ rest) (aligned : rest.length % 8 = 0) :
    ∃ s', readAlignmentZeros fuel cnt s = .ok (cnt + zeros, s') ∧ s'.WellFormed ∧
      s'.remaining = rest := by
  induction zeros generalizing fuel cnt s with
  | zero =>
      obtain ⟨fuel, rfl⟩ : ∃ rounds, fuel = rounds + 1 := ⟨fuel - 1, by omega⟩
      have left := untilByteAligned_eq wf view (by simp) aligned
      have looked : (fun s => .ok (s.getNumBitsUntilByteAligned, s) : BitReader Nat) s =
          .ok (0, s) := by
        dsimp only
        rw [left]
        rfl
      refine ⟨s, ?_, wf, view⟩
      rw [readAlignmentZeros, bind_run looked]
      rfl
  | succ zeros ih =>
      obtain ⟨fuel, rfl⟩ : ∃ rounds, fuel = rounds + 1 := ⟨fuel - 1, by omega⟩
      have left := untilByteAligned_eq wf view (by simpa using few) aligned
      rw [List.length_replicate] at left
      have looked : (fun s => .ok (s.getNumBitsUntilByteAligned, s) : BitReader Nat) s =
          .ok (zeros + 1, s) := by
        dsimp only
        rw [left]
      obtain ⟨t, read, wf', view', _⟩ := InputBitstream.read_spec wf (by decide : 1 ≤ 32)
        (by decide : 0 < 2 ^ 1) view
      have flag : xReadFlag s = .ok (0, t) := read
      obtain ⟨s', run, wf₂, view₂⟩ := ih fuel (cnt + 1) (by omega) (by omega) wf' view'
      refine ⟨s', ?_, wf₂, view₂⟩
      rw [readAlignmentZeros, bind_run looked, if_pos (by omega), bind_run flag,
        bind_run (check_run (by decide)), run, Nat.add_assoc, Nat.add_comm 1]

/-- Trailing bits are a one and zeros up to a whole byte. -/
theorem xWriteRbspTrailingBits_run {s : OutputBitstream} (wf : s.WellFormed) :
    ∃ zeros s', zeros < 8 ∧ xWriteRbspTrailingBits s = .ok ((), s') ∧ s'.WellFormed ∧
      s'.numHeldBits = 0 ∧ s'.bits = s.bits ++ (true :: List.replicate zeros false) := by
  obtain ⟨t, wrote, wf', bits⟩ := write_run wf 1 1 (by decide) (by decide)
  have flag : xWriteFlag 1 s = .ok ((), t) := wrote
  have few : t.getNumBitsUntilByteAligned < 8 := Nat.mod_lt _ (by decide)
  obtain ⟨s', run, wf₂, aligned, bits'⟩ := writeAlignmentZeros_run 8 0 wf' few
  refine ⟨t.getNumBitsUntilByteAligned, s', few, ?_, wf₂, aligned, ?_⟩
  · rw [xWriteRbspTrailingBits, bind_run flag, bind_run run]
    exact check_run (by omega)
  · have one : toBits 1 1 = [true] := rfl
    rw [bits', bits, one, List.append_assoc]
    rfl

theorem xReadRbspTrailingBits_run {zeros : Nat} (few : zeros < 8) {s : InputBitstream}
    {rest : List Bool} (wf : s.WellFormed)
    (view : s.remaining = true :: List.replicate zeros false ++ rest)
    (aligned : rest.length % 8 = 0) :
    ∃ s', xReadRbspTrailingBits s = .ok ((), s') ∧ s'.WellFormed ∧ s'.remaining = rest := by
  obtain ⟨t, read, wf', view', _⟩ := InputBitstream.read_spec wf (by decide : 1 ≤ 32)
    (by decide : 1 < 2 ^ 1) view
  have flag : xReadFlag s = .ok (1, t) := read
  obtain ⟨s', run, wf₂, view₂⟩ := readAlignmentZeros_run zeros 8 0 few (by omega) wf' view' aligned
  refine ⟨s', ?_, wf₂, view₂⟩
  rw [xReadRbspTrailingBits, bind_run flag, bind_run (check_run (by decide)), bind_run run]
  exact check_run (by omega)

/-- Trailing bits behind elements that were written from a byte boundary: they are read where
these elements have been read from a byte boundary. -/
theorem trailing_written {before middle : OutputBitstream} {elements : List Bool}
    (wf : middle.WellFormed) (start : before.numHeldBits = 0)
    (whole : middle.bits = before.bits ++ elements) :
    ∃ after ending, xWriteRbspTrailingBits middle = .ok ((), after) ∧ after.WellFormed ∧
      after.bits = before.bits ++ (elements ++ ending) ∧
      ∀ (s t : InputBitstream) (rest : List Bool), s.numHeldBits = 0 →
        s.remaining = elements ++ ending ++ rest → t.WellFormed → t.remaining = ending ++ rest →
        ∃ s', xReadRbspTrailingBits t = .ok ((), s') ∧ s'.remaining = rest := by
  obtain ⟨zeros, after, few, run, wf', aligned, bits⟩ := xWriteRbspTrailingBits_run wf
  have total : after.bits = before.bits ++ (elements ++ (true :: List.replicate zeros false)) := by
    rw [bits, whole, List.append_assoc]
  have bytes : (elements ++ (true :: List.replicate zeros false)).length % 8 = 0 := by
    have lengths := congrArg List.length total
    rw [List.length_append, OutputBitstream.length_bits, OutputBitstream.length_bits] at lengths
    unfold OutputBitstream.writtenBits at lengths
    omega
  refine ⟨after, _, run, wf', total, fun s t rest begins next ready left => ?_⟩
  -- the stream ends on a byte boundary, so what follows the payload starts on one
  have follows : rest.length % 8 = 0 := by
    have lengths := congrArg List.length next
    rw [List.length_append, InputBitstream.length_remaining] at lengths
    unfold InputBitstream.unreadBits at lengths
    omega
  obtain ⟨s', ends, _, view⟩ := xReadRbspTrailingBits_run few ready left follows
  exact ⟨s', ends, view⟩

/-- A payload that ends with trailing bits is read back from a byte boundary, by any of
several readers that follow the writer. -/
theorem rbsp_written {ι α : Type} {w : BitWriter Unit} {r : ι → BitReader α}
    {post : Unit → α → Prop} (i₀ : ι)
    (codes : ∀ i fifo locations, Codes False outputView (inputView fifo locations) w (r i) post)
    {before : OutputBitstream} (wf : before.WellFormed) (start : before.numHeldBits = 0) :
    ∃ after bits,
      (do
        w
        xWriteRbspTrailingBits) before = .ok ((), after) ∧
      after.bits = before.bits ++ bits ∧
      ∀ (i : ι) (s : InputBitstream) (rest : List Bool), s.WellFormed → s.numHeldBits = 0 →
        s.remaining = bits ++ rest →
        ∃ parsed s',
          (do
            let parsed ← r i
            xReadRbspTrailingBits
            return parsed) s = .ok (parsed, s') ∧
          s'.remaining = rest ∧ post () parsed := by
  obtain ⟨_, middle, _, _, run, wf', _, _⟩ :=
    (codes i₀ [] [] before wf).resolve_left fun fails => fails.1
  obtain ⟨elements, _, _, whole, _, _⟩ := (codes i₀ [] []).of_run wf run
  obtain ⟨after, ending, trailing, _, total, reads⟩ := trailing_written wf' start whole
  refine ⟨after, _, (bind_run run).trans trailing, total, fun i s rest ready begins next => ?_⟩
  obtain ⟨tokens, parsed, _, whole', related, accepts⟩ :=
    (codes i s.fifo s.emulationPreventionByteLocation).of_run wf run
  obtain rfl : tokens = elements := List.append_cancel_left (whole'.symm.trans whole)
  obtain ⟨t, parses, ⟨ready', _, _⟩, left⟩ :=
    accepts s (ending ++ rest) ⟨ready, rfl, rfl⟩ (next.trans (List.append_assoc ..))
  obtain ⟨s', ends, view⟩ := reads s t rest begins next ready' left
  exact ⟨parsed, s', (bind_run parses).trans (bind_run ends), view, related⟩

end Vtm.RoundTrip.VLC
