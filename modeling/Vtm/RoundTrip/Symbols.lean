import Vtm.Encoder.Symbols
import Vtm.Decoder.Symbols

/-!
# Binarizations: round trips

Every symbol writer against the reader of the same name.
-/

namespace Vtm.Bin

open Vtm.Std

/-- The prefix loop of the writer splits a symbol into the sum of the powers
behind its ones and a remainder of `count` bits. -/
theorem expGolombPrefix_spec (fuel symbol count bins numBins : Nat)
    (fits : symbol + 2 ^ count < 2 ^ (count + fuel)) :
    ∃ ones rest, CABACWriter.expGolombPrefix fuel symbol count bins numBins =
        (rest, count + ones, (bins + 1) * 2 ^ ones - 1, numBins + ones) ∧
      rest < 2 ^ (count + ones) ∧ symbol + 2 ^ count = rest + 2 ^ (count + ones) ∧
      ones < fuel := by
  induction fuel generalizing symbol count bins numBins with
  | zero => simp at fits
  | succ fuel ih =>
      by_cases large : symbol ≥ 1 <<< count
      · have one : 1 <<< count = 2 ^ count := Nat.one_shiftLeft count
        rw [one] at large
        have fits' : symbol - 2 ^ count + 2 ^ (count + 1) < 2 ^ (count + 1 + fuel) := by
          rw [Nat.add_right_comm, Nat.add_assoc count fuel 1, pow_succ 2 count]
          omega
        obtain ⟨ones, rest, run, small, total, rounds⟩ :=
          ih (symbol - 2 ^ count) (count + 1) (bins <<< 1 + 1) (numBins + 1) fits'
        have bin : (bins <<< 1 + 1 + 1) * 2 ^ ones = (bins + 1) * 2 ^ (ones + 1) := by
          rw [Nat.shiftLeft_eq, pow_succ]
          ring
        refine ⟨ones + 1, rest, ?_, ?_, ?_, by omega⟩
        · rw [CABACWriter.expGolombPrefix, one, if_pos large, run, bin]
          simp only [Nat.add_assoc, Nat.add_comm 1 ones]
        · rwa [← Nat.add_assoc, Nat.add_right_comm]
        · rw [← Nat.add_assoc, Nat.add_right_comm, ← total, pow_succ]
          omega
      · refine ⟨0, symbol, ?_, ?_, rfl, by omega⟩
        · rw [CABACWriter.expGolombPrefix, if_neg large]
          simp
        · rw [Nat.one_shiftLeft] at large
          simpa using large

theorem ofBits_replicate_true (ones : Nat) :
    ofBits (List.replicate ones true) = 2 ^ ones - 1 := by
  induction ones with
  | zero => rfl
  | succ ones ih =>
      have positive : 0 < 2 ^ ones := Nat.two_pow_pos ones
      rw [List.replicate_succ, ofBits_cons, ih, List.length_replicate, Bool.toNat_true, pow_succ]
      omega

/-- A run of ones, as one value. -/
theorem toBits_all_ones (ones : Nat) : toBits ones (2 ^ ones - 1) = List.replicate ones true := by
  have back := toBits_ofBits (List.replicate ones true)
  rwa [List.length_replicate, ofBits_replicate_true] at back

/-- The prefix of ones and its zero, as one value. -/
theorem toBits_ones (ones : Nat) :
    toBits (ones + 1) ((2 ^ ones - 1) <<< 1) = List.replicate ones true ++ [false] := by
  have value : ofBits (List.replicate ones true ++ [false]) = (2 ^ ones - 1) <<< 1 := by
    rw [ofBits_append, ofBits_replicate_true, Nat.shiftLeft_eq]
    simp
  have back := toBits_ofBits (List.replicate ones true ++ [false])
  rw [value] at back
  simpa using back

/-- The prefix loop of the reader adds up the powers behind the ones. -/
theorem expGolombPrefix_accepts (fuel ones symbol count sum : Nat) (rounds : ones < fuel)
    (total : sum + 2 ^ count = symbol + 2 ^ (count + ones)) (fits : sum < 2 ^ 32) :
    Accepts view (CABACReader.expGolombPrefix fuel symbol count)
      ((List.replicate ones true ++ [false]).map Bin.ep) (sum, count + ones + 1) := by
  induction ones generalizing fuel symbol count with
  | zero =>
      obtain ⟨fuel, rfl⟩ := Nat.exists_eq_succ_of_ne_zero (Nat.ne_of_gt rounds)
      obtain rfl : sum = symbol := Nat.add_right_cancel total
      rintro _ rest _ rfl
      refine ⟨rest, ?_, trivial, rfl⟩
      show Except.ok (((sum + 0 <<< count) % 2 ^ 32, count + 1), rest) = _
      rw [Nat.zero_shiftLeft, Nat.add_zero, Nat.mod_eq_of_lt fits, Nat.add_zero]
  | succ ones ih =>
      obtain ⟨fuel, rfl⟩ := Nat.exists_eq_succ_of_ne_zero (Nat.ne_of_gt (Nat.zero_lt_of_lt rounds))
      have wide : 2 ^ (count + 1) ≤ 2 ^ (count + (ones + 1)) :=
        Nat.pow_le_pow_right (by decide) (by omega)
      have double : 2 ^ (count + 1) = 2 ^ count + 2 ^ count := by
        rw [pow_succ]
        omega
      have added : (symbol + 1 <<< count) % 2 ^ 32 = symbol + 2 ^ count := by
        rw [Nat.one_shiftLeft]
        exact Nat.mod_eq_of_lt (by omega)
      have total' : sum + 2 ^ (count + 1) = symbol + 2 ^ count + 2 ^ (count + 1 + ones) := by
        rw [Nat.add_right_comm count 1 ones, Nat.add_assoc count ones 1]
        omega
      rintro _ rest _ rfl
      obtain ⟨after, run, holds, same⟩ :=
        ih fuel (symbol + 2 ^ count) (count + 1) (by omega) total' _ rest trivial rfl
      refine ⟨after, ?_, holds, same⟩
      have step : CABACReader.expGolombPrefix (fuel + 1) symbol count
          ((List.replicate (ones + 1) true ++ [false]).map Bin.ep ++ rest) =
          CABACReader.expGolombPrefix fuel ((symbol + 1 <<< count) % 2 ^ 32) (count + 1)
            ((List.replicate ones true ++ [false]).map Bin.ep ++ rest) := rfl
      rw [Nat.add_right_comm count 1 ones] at run
      exact (step.trans (by rw [added])).trans run

theorem reads_expGolomb {symbol count : Nat} (fits : symbol + 2 ^ count < 2 ^ 32) :
    Reads (CABACWriter.expGolombEqprob symbol count) (CABACReader.expGolombEqprob count)
      (fun _ value => value = symbol) := by
  have fuel : symbol + 2 ^ count < 2 ^ (count + 32) :=
    lt_of_lt_of_le fits (Nat.pow_le_pow_right (by decide) (by omega))
  obtain ⟨ones, rest, run, small, total, rounds⟩ := expGolombPrefix_spec 32 symbol count 0 0 fuel
  have width : count + ones < 32 := by
    refine (Nat.pow_lt_pow_iff_right (by decide : 1 < 2)).mp ?_
    omega
  have grows : 2 ^ count ≤ 2 ^ (count + ones) := Nat.pow_le_pow_right (by decide) (by omega)
  obtain ⟨sum, sumDef⟩ := Nat.exists_eq_add_of_le' grows
  have whole : sum + rest = symbol := by
    rw [sumDef] at total
    omega
  have positive : 0 < 2 ^ count := Nat.two_pow_pos count
  simp only [Nat.zero_add, Nat.one_mul] at run
  rw [CABACWriter.expGolombEqprob, run, CABACReader.expGolombEqprob]
  -- the prefix is read bin by bin
  have front : Reads (CABACWriter.encodeBinsEP ((2 ^ ones - 1) <<< 1) (ones + 1))
      (CABACReader.expGolombPrefix 32 0 count)
      (fun _ value => value = (sum, count + ones + 1)) := by
    have range : (2 ^ ones - 1) <<< 1 < 2 ^ (ones + 1) := by
      have positive : 0 < 2 ^ ones := Nat.two_pow_pos ones
      rw [Nat.shiftLeft_eq, pow_one, pow_succ]
      omega
    refine Codes.writerCheck (Or.inr (by omega)) fun _ => ?_
    intro bins _
    refine Or.inr ⟨(), _, _, _, rfl, trivial, rfl, rfl, ?_⟩
    rw [toBits_ones]
    exact expGolombPrefix_accepts 32 ones 0 count sum rounds (by omega) (by omega)
  refine Codes.bind front ?_
  rintro _ _ rfl
  by_cases none : count + ones = 0
  · simp only [Nat.add_sub_cancel, none, ne_eq, not_true_eq_false, if_false]
    have noRest : rest = 0 := by
      rw [none] at small
      omega
    refine Codes.writerCheck (Or.inr (by simp [noRest])) fun _ => ?_
    intro bins _
    exact Or.inr ⟨(), _, [], _, rfl, trivial, rfl, by omega, Accepts.pure sum⟩
  · simp only [Nat.add_sub_cancel, ne_eq, none, not_false_eq_true, if_true]
    refine Codes.readerMap (fun bins => (sum + bins) % 2 ^ 32)
      (reads_binsEP (by omega) small) ?_
    rintro _ _ rfl
    rw [whole]
    exact Nat.mod_eq_of_lt (by omega)

/-- From `written` ones on, the rest of the unary code. -/
theorem reads_unaryMaxLoop {symbol maxSymbol : Nat} (fits : symbol ≤ maxSymbol) (ctxId0 ctxIdN : Ctx)
    (left written : Nat) (before : written ≤ symbol) (rounds : written + left = maxSymbol) :
    Reads ((List.range' written (min (symbol + 1) maxSymbol - written)).foldlM
        (fun _ binsWritten => CABACWriter.encodeBin (symbol > binsWritten)
          (if binsWritten = 0 then ctxId0 else ctxIdN)) ())
      (CABACReader.unaryMaxLoop ctxId0 ctxIdN left written) (fun _ value => value = symbol) := by
  induction left generalizing written with
  | zero =>
      have none : min (symbol + 1) maxSymbol - written = 0 := by omega
      rw [none]
      exact Codes.pure (by omega)
  | succ left ih =>
      have some : min (symbol + 1) maxSymbol - written =
          min (symbol + 1) maxSymbol - (written + 1) + 1 := by omega
      rw [some, List.range'_succ, List.foldlM_cons]
      refine Codes.bind (reads_bin _ _) ?_
      rintro _ _ rfl
      by_cases more : symbol > written
      · simp only [more, decide_true, if_true]
        exact ih (written + 1) (by omega) (by omega)
      · have last : min (symbol + 1) maxSymbol - (written + 1) = 0 := by omega
        simp only [more, decide_false, Bool.false_eq_true, if_false, last]
        exact Codes.pure (by omega)

theorem reads_unaryMax {symbol maxSymbol : Nat} (fits : symbol ≤ maxSymbol)
    (word : symbol < 2 ^ 32 - 1) (ctxId0 ctxIdN : Ctx) :
    Reads (CABACWriter.unaryMaxSymbol symbol ctxId0 ctxIdN maxSymbol)
      (CABACReader.unaryMaxSymbol ctxId0 ctxIdN maxSymbol) (fun _ value => value = symbol) := by
  refine Codes.writerCheck (Or.inr (by omega)) fun _ => ?_
  rw [Nat.mod_eq_of_lt (by omega : symbol + 1 < 2 ^ 32)]
  exact reads_unaryMaxLoop fits ctxId0 ctxIdN maxSymbol 0 (Nat.zero_le _) (Nat.zero_add _)

/-! ## Unary codes of bypass bins -/

theorem unaryOnes_eq (symbol numBins : Nat) (word : numBins + symbol ≤ 32) :
    CABACWriter.unaryOnes symbol (2 ^ numBins - 1) numBins =
      (2 ^ (numBins + symbol) - 1, numBins + symbol) := by
  induction symbol generalizing numBins with
  | zero => rfl
  | succ symbol ih =>
      have one : (2 ^ numBins - 1) <<< 1 + 1 = 2 ^ (numBins + 1) - 1 := by
        have positive : 0 < 2 ^ numBins := Nat.two_pow_pos numBins
        rw [Nat.shiftLeft_eq, pow_one, pow_succ]
        omega
      have small : 2 ^ (numBins + 1) ≤ 2 ^ 32 := Nat.pow_le_pow_right (by decide) (by omega)
      have positive : 0 < 2 ^ (numBins + 1) := Nat.two_pow_pos (numBins + 1)
      rw [CABACWriter.unaryOnes, one, Nat.mod_eq_of_lt (by omega), ih (numBins + 1) (by omega),
        Nat.add_assoc, Nat.add_comm 1 symbol]

/-- The reader counts the ones up to a zero. -/
theorem unaryMaxEqprobLoop_accepts (maxSymbol ones : Nat) {left k : Nat} (more : ones < left) :
    Accepts view (CABACReader.unaryMaxEqprobLoop maxSymbol left k)
      ((List.replicate ones true ++ [false]).map Bin.ep) (k + ones) := by
  induction ones generalizing left k with
  | zero =>
      obtain ⟨left, rfl⟩ := Nat.exists_eq_succ_of_ne_zero (Nat.ne_of_gt more)
      rintro _ rest _ rfl
      exact ⟨rest, rfl, trivial, rfl⟩
  | succ ones ih =>
      obtain ⟨left, rfl⟩ := Nat.exists_eq_succ_of_ne_zero (Nat.ne_of_gt (Nat.zero_lt_of_lt more))
      have rest : Accepts view (CABACReader.unaryMaxEqprobLoop maxSymbol left (k + 1))
          ((List.replicate ones true ++ [false]).map Bin.ep) (k + (ones + 1)) := by
        rw [← Nat.add_assoc, Nat.add_right_comm]
        exact ih (by omega)
      exact (decodeBinEP_accepts true).bind rest

/-- Without a zero, it counts all of them. -/
theorem unaryMaxEqprobLoop_accepts_all (maxSymbol left k : Nat) :
    Accepts view (CABACReader.unaryMaxEqprobLoop maxSymbol left k)
      ((List.replicate left true).map Bin.ep) maxSymbol := by
  induction left generalizing k with
  | zero => exact Accepts.pure maxSymbol
  | succ left ih =>
      have rest := ih (k + 1)
      exact (decodeBinEP_accepts true).bind rest

theorem reads_unaryMaxEqprob {symbol maxSymbol : Nat} (fits : symbol ≤ maxSymbol)
    (word : maxSymbol ≤ 32) :
    Reads (CABACWriter.unaryMaxEqprob symbol maxSymbol) (CABACReader.unaryMaxEqprob maxSymbol)
      (fun _ value => value = symbol) := by
  unfold CABACWriter.unaryMaxEqprob CABACReader.unaryMaxEqprob
  by_cases none : maxSymbol = 0
  · rw [if_pos none]
    subst none
    exact Codes.pure (by omega)
  · have ones := unaryOnes_eq symbol 0 (by omega)
    rw [Nat.zero_add, pow_zero, Nat.sub_self] at ones
    rw [if_neg none, ones]
    show Reads (if maxSymbol > symbol then _ else _) _ _
    have positive : 0 < 2 ^ symbol := Nat.two_pow_pos symbol
    by_cases last : maxSymbol > symbol
    · have small : 2 ^ (symbol + 1) ≤ 2 ^ 32 := Nat.pow_le_pow_right (by decide) (by omega)
      have range : (2 ^ symbol - 1) <<< 1 < 2 ^ (symbol + 1) := by
        rw [Nat.shiftLeft_eq, pow_one, pow_succ]
        omega
      rw [if_pos last, Nat.mod_eq_of_lt (by omega)]
      refine Codes.writerCheck (Or.inr (by omega)) fun _ => ?_
      intro bins _
      refine Or.inr ⟨(), _, _, symbol, encodeBinsEP_run bins (by omega) range, trivial, rfl, rfl, ?_⟩
      rw [toBits_ones]
      have accepts := unaryMaxEqprobLoop_accepts maxSymbol symbol (k := 0) last
      rwa [Nat.zero_add] at accepts
    · obtain rfl : symbol = maxSymbol := by omega
      rw [if_neg last]
      refine Codes.writerCheck (Or.inr (by omega)) fun _ => ?_
      intro bins _
      refine Or.inr ⟨(), _, _, symbol, encodeBinsEP_run bins (by omega) (by omega), trivial, rfl,
        rfl, ?_⟩
      rw [toBits_all_ones]
      exact unaryMaxEqprobLoop_accepts_all symbol symbol 0

/-! ## Truncated binary codes -/

/-- The code of a symbol has the bits of the threshold, or one more. -/
theorem xWriteTruncBinCode_code {symbol maxSymbol : Nat} (fits : symbol < maxSymbol)
    (word : maxSymbol < 2 ^ 31) :
    ∃ code, (∀ bins, CABACWriter.xWriteTruncBinCode symbol maxSymbol bins = .ok ((), bins ++ code)) ∧
      (code.length = Nat.log2 maxSymbol ∨ code.length = Nat.log2 maxSymbol + 1) ∧
      Accepts view (CABACReader.xReadTruncBinCode maxSymbol) code symbol := by
  obtain ⟨low, high⟩ := truncBinThresh_spec (Nat.zero_lt_of_lt fits) (by omega)
  have width : truncBinThresh maxSymbol < 31 := by
    refine (Nat.pow_lt_pow_iff_right (by decide : 1 < 2)).mp ?_
    omega
  rw [(Nat.log2_eq_iff (by omega)).mpr ⟨low, high⟩]
  unfold CABACWriter.xWriteTruncBinCode CABACReader.xReadTruncBinCode
  simp only [Nat.one_shiftLeft, Nat.shiftLeft_eq _ 1, pow_one]
  have readable : ¬ 2 ^ 31 ≤ maxSymbol := by omega
  generalize truncBinThresh maxSymbol = thresh at *
  obtain ⟨b, rfl⟩ := Nat.exists_eq_add_of_le low
  rw [pow_succ] at high
  rw [Nat.add_sub_cancel_left]
  by_cases short : symbol < 2 ^ thresh - b
  · refine ⟨(toBits thresh symbol).map Bin.ep, fun bins => ?_, Or.inl (by simp), ?_⟩
    · rw [bind_run (check_run readable), bind_run (check_run (by omega)),
        bind_run (check_run (by omega)), bind_run (check_run (by omega)),
        bind_run (check_run (by omega)), if_pos short,
        encodeBinsEP_run bins (by omega) (by omega)]
    · refine Accepts.check _ readable |>.bind ?_
      refine (decodeBinsEP_accepts (by omega)).last ?_
      rw [if_neg (by omega)]
      exact Accepts.pure symbol
  · set long := symbol + (2 ^ thresh - b) with longDef
    have double : 2 ^ (thresh + 1) = 2 * 2 ^ thresh := Nat.pow_succ'
    refine ⟨(toBits (thresh + 1) long).map Bin.ep, fun bins => ?_, Or.inr (by simp), ?_⟩
    · rw [bind_run (check_run readable), bind_run (check_run (by omega)),
        bind_run (check_run (by omega)), bind_run (check_run (by omega)),
        bind_run (check_run (by omega)), if_neg short, bind_run (check_run (by omega)),
        bind_run (check_run (by omega)), encodeBinsEP_run bins (by omega) (by omega)]
    · refine Accepts.check _ readable |>.bind ?_
      show Accepts view _ ((toBits (thresh + 1) long).map Bin.ep) symbol
      rw [toBits_add thresh 1 long, List.map_append]
      refine (decodeBinsEP_accepts (by omega)).bind ?_
      rw [pow_one, if_pos (by omega)]
      have last : (toBits 1 long).map Bin.ep = [.ep (long % 2 == 1)] ++ [] := by simp [toBits]
      rw [last]
      refine (decodeBinEP_accepts _).bind ?_
      have back : long / 2 * 2 + (long % 2 == 1).toNat - (2 ^ thresh - b) = symbol := by
        rcases Nat.mod_two_eq_zero_or_one long with even | odd
        · simp only [even, Nat.reduceBEq, Bool.toNat_false]
          omega
        · simp only [odd, BEq.rfl, Bool.toNat_true]
          omega
      rw [back]
      exact Accepts.pure symbol

theorem reads_truncBinCode {symbol maxSymbol : Nat} (fits : symbol < maxSymbol)
    (word : maxSymbol < 2 ^ 31) :
    Reads (CABACWriter.xWriteTruncBinCode symbol maxSymbol)
      (CABACReader.xReadTruncBinCode maxSymbol) (fun _ value => value = symbol) := by
  obtain ⟨code, writes, _, accepts⟩ := xWriteTruncBinCode_code fits word
  intro bins _
  exact Or.inr ⟨(), _, code, symbol, writes bins, trivial, rfl, rfl, accepts⟩

/-- With a single symbol left there is nothing to read. -/
theorem xReadTruncBinCode_one : Accepts view (CABACReader.xReadTruncBinCode 1) [] 0 := by
  intro bins rest _ same
  exact ⟨bins, rfl, trivial, same⟩

end Vtm.Bin
