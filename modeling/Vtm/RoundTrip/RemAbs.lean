import Vtm.RoundTrip.Symbols

/-!
# The escape code of remainders and motion vector differences

`remAbsBits` is the code word of a value: a unary quotient below the cutoff,
above it an Exp-Golomb code, and a fixed suffix once the prefix is used up. The
writer, the reader and the bit estimator are each compared with it.
-/

namespace Vtm.Bin.RemAbs

open Vtm.Std Vtm.CABACWriter Vtm.CABACReader

/-- The parameters of one call of `encodeRemAbsEP` and its value. -/
structure Args where
  bins : Nat
  goRicePar : Nat
  cutoff : Nat
  maxLog2TrDynamicRange : Nat
deriving DecidableEq, Repr

namespace Args

@[grind =] def maxPrefixLength (a : Args) : Nat := 32 - a.cutoff - a.maxLog2TrDynamicRange

/-- The part of the value above the Rice bits. -/
def quotient (a : Args) : Nat := a.bins / 2 ^ a.goRicePar

/-- The first value of the code words with `length` ones behind the cutoff. -/
def offset (a : Args) (length : Nat) : Nat := (2 ^ length - 1 + a.cutoff) * 2 ^ a.goRicePar

/-- The values the code is used for. -/
structure InRange (a : Args) : Prop where
  room : a.cutoff + a.maxLog2TrDynamicRange < 32
  rice : a.goRicePar ≤ a.maxLog2TrDynamicRange
  bound : a.bins < a.offset a.maxPrefixLength + 2 ^ a.maxLog2TrDynamicRange

/-- No shift by the whole width of a word is made: the dynamic range is not zero,
or neither the longest prefix nor its bound takes 32 bits. -/
def Defined (a : Args) : Prop :=
  0 < a.maxLog2TrDynamicRange ∨ (0 < a.cutoff ∧ a.bins < a.offset a.maxPrefixLength)

/-- The ones behind the cutoff in a code word that is not an escape. -/
def prefixLength (a : Args) : Nat := Nat.log2 (a.quotient - a.cutoff + 1)

/-- The code word. -/
@[grind =] def remAbsBits (a : Args) : List Bool :=
  if a.quotient < a.cutoff then
    List.replicate a.quotient true ++ false :: toBits a.goRicePar a.bins
  else if 2 ^ a.maxPrefixLength - 1 ≤ a.quotient - a.cutoff then
    List.replicate (a.maxPrefixLength + a.cutoff) true ++
      toBits a.maxLog2TrDynamicRange (a.bins - a.offset a.maxPrefixLength)
  else
    List.replicate (a.prefixLength + a.cutoff) true ++
      false :: toBits (a.prefixLength + a.goRicePar) (a.bins - a.offset a.prefixLength)

variable {a : Args}

theorem bins_eq (a : Args) :
    a.bins = a.quotient * 2 ^ a.goRicePar + a.bins % 2 ^ a.goRicePar := by
  rw [quotient, Nat.mul_comm]
  exact (Nat.div_add_mod _ _).symm

theorem InRange.maxPrefix (range : a.InRange) :
    0 < a.maxPrefixLength ∧ a.maxPrefixLength + a.cutoff + a.maxLog2TrDynamicRange = 32 := by
  have room := range.room
  unfold maxPrefixLength
  omega

/-- The cutoff scaled by the Rice bits is half a word at most. -/
theorem InRange.cutoff_small (range : a.InRange) : a.cutoff * 2 ^ a.goRicePar ≤ 2 ^ 31 := by
  have room := range.room
  have rice := range.rice
  calc a.cutoff * 2 ^ a.goRicePar
      ≤ 2 ^ a.cutoff * 2 ^ a.maxLog2TrDynamicRange :=
        Nat.mul_le_mul Nat.lt_two_pow_self.le (Nat.pow_le_pow_right (by decide) rice)
    _ = 2 ^ (a.cutoff + a.maxLog2TrDynamicRange) := (pow_add _ _ _).symm
    _ ≤ 2 ^ 31 := Nat.pow_le_pow_right (by decide) (by omega)

/-- Every value in range is a 32-bit word. -/
theorem InRange.word (range : a.InRange) : a.bins < 2 ^ 32 := by
  have bound := range.bound
  have small := range.cutoff_small
  have rice := range.rice
  obtain ⟨_, total⟩ := range.maxPrefix
  have power : 2 ^ a.maxPrefixLength * 2 ^ a.maxLog2TrDynamicRange = 2 ^ (32 - a.cutoff) := by
    rw [← pow_add]
    congr 1
    omega
  have positive : 0 < 2 ^ a.maxPrefixLength := Nat.two_pow_pos _
  have split : a.offset a.maxPrefixLength =
      (2 ^ a.maxPrefixLength - 1) * 2 ^ a.goRicePar + a.cutoff * 2 ^ a.goRicePar := by
    rw [offset, Nat.add_mul]
  have wider : (2 ^ a.maxPrefixLength - 1) * 2 ^ a.goRicePar ≤
      (2 ^ a.maxPrefixLength - 1) * 2 ^ a.maxLog2TrDynamicRange :=
    Nat.mul_le_mul_left _ (Nat.pow_le_pow_right (by decide) rice)
  have spread : (2 ^ a.maxPrefixLength - 1) * 2 ^ a.maxLog2TrDynamicRange +
      2 ^ a.maxLog2TrDynamicRange = 2 ^ (32 - a.cutoff) := by
    rw [← power, Nat.sub_mul, Nat.one_mul]
    have below := Nat.le_mul_of_pos_left (2 ^ a.maxLog2TrDynamicRange) positive
    omega
  rcases Nat.eq_zero_or_pos a.cutoff with none | some
  · rw [none] at spread split
    omega
  · have half : 2 ^ (32 - a.cutoff) ≤ 2 ^ 31 := Nat.pow_le_pow_right (by decide) (by omega)
    omega

end Args

/-- The loop counts to the binary logarithm. -/
theorem remAbsPrefixLength_eq {codeValue : Nat} (word : codeValue + 1 < 2 ^ 31) (fuel start : Nat)
    (before : start ≤ Nat.log2 (codeValue + 1)) (enough : Nat.log2 (codeValue + 1) < start + fuel) :
    remAbsPrefixLength fuel codeValue start = Nat.log2 (codeValue + 1) := by
  induction fuel generalizing start with
  | zero => omega
  | succ fuel ih =>
      have width : Nat.log2 (codeValue + 1) < 31 := (Nat.log2_lt (by omega)).mpr word
      have power : 2 ^ (start + 1) ≤ 2 ^ 31 := Nat.pow_le_pow_right (by decide) (by omega)
      have two : 2 ≤ 2 ^ (start + 1) := by
        rw [pow_succ]
        have := Nat.two_pow_pos start
        omega
      have limit : subWord (2 <<< start % 2 ^ 32) 2 = 2 ^ (start + 1) - 2 := by
        rw [Nat.shiftLeft_eq, ← pow_succ', Nat.mod_eq_of_lt (by omega), subWord_eq two (by omega)]
      have compare : codeValue > 2 ^ (start + 1) - 2 ↔ start + 1 ≤ Nat.log2 (codeValue + 1) := by
        rw [Nat.le_log2 (by omega)]
        omega
      rw [remAbsPrefixLength, limit]
      simp only [compare]
      split
      · next more => exact ih (start + 1) more (by omega)
      · omega

/-! ## The writer -/

section

variable {a : Args}

theorem below_threshold_iff (a : Args) :
    a.bins < a.cutoff * 2 ^ a.goRicePar ↔ a.quotient < a.cutoff := by
  rw [Args.quotient, Nat.div_lt_iff_lt_mul (Nat.two_pow_pos _)]

/-- The Rice bits under what is left of the quotient. -/
theorem suffix_eq {length : Nat} (above : 2 ^ length - 1 + a.cutoff ≤ a.quotient) :
    (a.quotient - a.cutoff - (2 ^ length - 1)) * 2 ^ a.goRicePar |||
        a.bins % 2 ^ a.goRicePar = a.bins - a.offset length := by
  have split := a.bins_eq
  have product : (a.quotient - a.cutoff - (2 ^ length - 1)) * 2 ^ a.goRicePar =
      a.quotient * 2 ^ a.goRicePar - a.offset length := by
    rw [Args.offset, ← Nat.sub_mul]
    congr 1
    omega
  have le : a.offset length ≤ a.quotient * 2 ^ a.goRicePar := Nat.mul_le_mul_right _ above
  rw [OutputBitstream.shift_or_eq_add (Nat.mod_lt _ (Nat.two_pow_pos _)), product]
  omega

/-- The quotient left in a code word that is not an escape. -/
theorem prefixLength_spec (notBelow : a.cutoff ≤ a.quotient) :
    2 ^ a.prefixLength - 1 + a.cutoff ≤ a.quotient ∧
      a.bins - a.offset a.prefixLength < 2 ^ (a.prefixLength + a.goRicePar) := by
  have low : 2 ^ a.prefixLength ≤ a.quotient - a.cutoff + 1 := Nat.log2_self_le (by omega)
  have high : a.quotient - a.cutoff + 1 < 2 ^ (a.prefixLength + 1) := Nat.lt_log2_self
  rw [pow_succ] at high
  have above : 2 ^ a.prefixLength - 1 + a.cutoff ≤ a.quotient := by omega
  refine ⟨above, ?_⟩
  rw [← suffix_eq above, OutputBitstream.shift_or_eq_add (Nat.mod_lt _ (Nat.two_pow_pos _)),
    pow_add]
  exact OutputBitstream.joined_lt (by omega) (Nat.mod_lt _ (Nat.two_pow_pos _))

/-- A code word with fewer ones than an escape. -/
theorem prefixLength_lt (notBelow : a.cutoff ≤ a.quotient)
    (noEscape : ¬ 2 ^ a.maxPrefixLength - 1 ≤ a.quotient - a.cutoff) :
    a.prefixLength < a.maxPrefixLength := by
  rw [Args.prefixLength, Nat.log2_lt (by omega)]
  omega

/-- The suffix of an escape fits its fixed length. -/
theorem escape_suffix_lt (range : a.InRange) :
    a.bins - a.offset a.maxPrefixLength < 2 ^ a.maxLog2TrDynamicRange := by
  have bound := range.bound
  have positive : 0 < 2 ^ a.maxLog2TrDynamicRange := Nat.two_pow_pos _
  omega

/-- Where no shift is out of range, an escape has a suffix. -/
theorem escape_defined (defined : a.Defined) (notBelow : a.cutoff ≤ a.quotient)
    (escape : 2 ^ a.maxPrefixLength - 1 ≤ a.quotient - a.cutoff) :
    0 < a.maxLog2TrDynamicRange := by
  rcases defined with positive | ⟨_, below⟩
  · exact positive
  · have above : a.offset a.maxPrefixLength ≤ a.bins := by
      have scaled : a.offset a.maxPrefixLength ≤ a.quotient * 2 ^ a.goRicePar :=
        Nat.mul_le_mul_right _ (by omega)
      have split := a.bins_eq
      omega
    omega

theorem powerWord {n : Nat} (defined : n < 32) : 1 * 2 ^ n < 2 ^ 32 := by
  rw [Nat.one_mul]
  exact Nat.pow_lt_pow_right (by decide) defined

/-- `(1 << n) - 1` in a word. -/
theorem subWord_power {n : Nat} (defined : n < 32) : subWord (1 * 2 ^ n) 1 = 2 ^ n - 1 := by
  have positive : 0 < 2 ^ n := Nat.two_pow_pos n
  rw [subWord_eq (by omega) (powerWord defined), Nat.one_mul]

theorem maxPrefixLength_lt (range : a.InRange) (defined : a.Defined) : a.maxPrefixLength < 32 := by
  obtain ⟨_, total⟩ := range.maxPrefix
  rcases defined with positive | ⟨positive, _⟩ <;> omega

/-- The loop finds the prefix of a code word that is not an escape. -/
theorem counted_prefixLength (range : a.InRange) (defined : a.Defined)
    (notBelow : a.cutoff ≤ a.quotient)
    (noEscape : ¬ 2 ^ a.maxPrefixLength - 1 ≤ a.quotient - a.cutoff) :
    remAbsPrefixLength 32 (a.quotient - a.cutoff) 0 = a.prefixLength := by
  have short := maxPrefixLength_lt range defined
  have fewer : Nat.log2 (a.quotient - a.cutoff + 1) < a.maxPrefixLength :=
    prefixLength_lt notBelow noEscape
  have power : 2 ^ a.maxPrefixLength ≤ 2 ^ 31 := Nat.pow_le_pow_right (by decide) (by omega)
  exact remAbsPrefixLength_eq (by omega) 32 0 (Nat.zero_le _) (by omega)

/-- The common end of the writer above the cutoff: `length` ones behind the cutoff,
then the suffix. -/
theorem encode_above (range : a.InRange) {length suffixLength : Nat} (s : List Bin)
    (above : 2 ^ length - 1 + a.cutoff ≤ a.quotient) (ones : length + a.cutoff < 32)
    (width : suffixLength ≤ 32) (fits : a.bins - a.offset length < 2 ^ suffixLength) :
    (do
      let bitMask := subWord (← shiftLeftWord 1 a.goRicePar) 1
      let ones := subWord (← shiftLeftWord 1 (length + a.cutoff)) 1
      let offset := subWord (← shiftLeftWord 1 length) 1
      let above ← shiftLeftWord (subWord (a.quotient - a.cutoff) offset) a.goRicePar
      encodeBinsEP ones (length + a.cutoff)
      encodeBinsEP (above ||| (a.bins &&& bitMask)) suffixLength : BinWriter Unit) s =
      .ok ((), s ++ (List.replicate (length + a.cutoff) true ++
        toBits suffixLength (a.bins - a.offset length)).map Bin.ep) := by
  have room := range.room
  have rice := range.rice
  have word := range.word
  have scaled : (a.quotient - a.cutoff - (2 ^ length - 1)) * 2 ^ a.goRicePar < 2 ^ 32 := by
    refine lt_of_le_of_lt (Nat.mul_le_mul_right _ ?_) (lt_of_le_of_lt (Nat.div_mul_le_self _ _) word)
    exact (Nat.sub_le _ _).trans (Nat.sub_le _ _)
  have quotientWord : a.quotient - a.cutoff < 2 ^ 32 := by
    have le : a.quotient ≤ a.bins := Nat.div_le_self _ _
    omega
  rw [bind_run (shiftLeftWord_run s (by omega) (powerWord (by omega))),
    bind_run (shiftLeftWord_run s ones (powerWord ones)),
    bind_run (shiftLeftWord_run s (by omega) (powerWord (by omega)))]
  simp only [subWord_power ones, subWord_power (by omega : a.goRicePar < 32),
    subWord_power (by omega : length < 32),
    subWord_eq (by omega : 2 ^ length - 1 ≤ a.quotient - a.cutoff) quotientWord]
  rw [bind_run (shiftLeftWord_run s (by omega) scaled)]
  have onesFit : 2 ^ (length + a.cutoff) - 1 < 2 ^ (length + a.cutoff) := by
    have positive : 0 < 2 ^ (length + a.cutoff) := Nat.two_pow_pos _
    omega
  rw [bind_run (encodeBinsEP_run s (by omega) onesFit), Nat.and_two_pow_sub_one_eq_mod,
    suffix_eq above, encodeBinsEP_run _ width fits, toBits_all_ones, List.map_append,
    List.append_assoc]

theorem encodeRemAbsEP_run (range : a.InRange) (defined : a.Defined) (s : List Bin) :
    encodeRemAbsEP a.bins a.goRicePar a.cutoff a.maxLog2TrDynamicRange s =
      .ok ((), s ++ a.remAbsBits.map Bin.ep) := by
  have room := range.room
  have rice := range.rice
  have word := range.word
  have small := range.cutoff_small
  obtain ⟨positive, total⟩ := range.maxPrefix
  have le : a.quotient ≤ a.bins := Nat.div_le_self _ _
  unfold encodeRemAbsEP Args.remAbsBits
  rw [bind_run (shiftLeftWord_run s (by omega) (by omega)), Nat.shiftRight_eq_div_pow,
    show a.bins / 2 ^ a.goRicePar = a.quotient from rfl]
  simp only [below_threshold_iff]
  by_cases below : a.quotient < a.cutoff
  · have unary : 1 * 2 ^ (a.quotient + 1) < 2 ^ 32 := powerWord (by omega)
    have two : 2 ≤ 2 ^ (a.quotient + 1) := by
      rw [pow_succ]
      have := Nat.two_pow_pos a.quotient
      omega
    have ones : subWord (1 * 2 ^ (a.quotient + 1)) 2 = (2 ^ a.quotient - 1) <<< 1 := by
      rw [subWord_eq (by omega) unary, Nat.one_mul, Nat.shiftLeft_eq, pow_one, pow_succ]
      omega
    have riceShift : a.goRicePar < 32 := by omega
    have onesFit : (2 ^ a.quotient - 1) <<< 1 < 2 ^ (a.quotient + 1) := by
      have positive : 0 < 2 ^ a.quotient := Nat.two_pow_pos _
      rw [Nat.shiftLeft_eq, pow_one, pow_succ]
      omega
    rw [if_pos below, if_pos below, bind_run (shiftLeftWord_run s riceShift (powerWord riceShift)),
      bind_run (shiftLeftWord_run s (by omega) unary), ones, subWord_power riceShift,
      bind_run (encodeBinsEP_run s (by omega) onesFit), Nat.and_two_pow_sub_one_eq_mod,
      encodeBinsEP_run _ (by omega) (Nat.mod_lt _ (Nat.two_pow_pos _)), toBits_ones, toBits_mod]
    simp
  · have notBelow : a.cutoff ≤ a.quotient := by omega
    have short := maxPrefixLength_lt range defined
    have longest : 32 - a.cutoff - a.maxLog2TrDynamicRange = a.maxPrefixLength := rfl
    rw [if_neg below, if_neg below]
    simp only [longest]
    rw [bind_run (shiftLeftWord_run s short (powerWord short))]
    simp only [subWord_eq notBelow (by omega), subWord_power short]
    by_cases escape : 2 ^ a.maxPrefixLength - 1 ≤ a.quotient - a.cutoff
    · have suffix := escape_defined defined notBelow escape
      simp only [ge_iff_le, escape, decide_true, if_true]
      exact encode_above range s (by omega) (by omega) (by omega) (escape_suffix_lt range)
    · have fewer := prefixLength_lt notBelow escape
      have counted := counted_prefixLength range defined notBelow escape
      obtain ⟨above, fits⟩ := prefixLength_spec notBelow
      have wider : a.bins - a.offset a.prefixLength < 2 ^ (a.prefixLength + a.goRicePar + 1) := by
        rw [pow_succ]
        omega
      have separator : toBits (a.prefixLength + a.goRicePar + 1)
          (a.bins - a.offset a.prefixLength) =
          false :: toBits (a.prefixLength + a.goRicePar) (a.bins - a.offset a.prefixLength) := by
        rw [toBits, Nat.div_eq_of_lt fits]
        rfl
      simp only [ge_iff_le, escape, decide_false, Bool.false_eq_true, if_false, counted]
      rw [← separator]
      exact encode_above range s above (by omega) (by omega) wider

/-! ## The reader -/

/-- Fewer ones than the longest prefix, and the zero behind them. -/
theorem accepts_ones_zero (maxPrefix count fuel start : Nat) (rounds : count < fuel)
    (room : start + count < maxPrefix) :
    Accepts view (remAbsPrefix maxPrefix fuel start)
      ((List.replicate count true ++ [false]).map Bin.ep) (start + count) := by
  induction count generalizing fuel start with
  | zero =>
      obtain ⟨fuel, rfl⟩ : ∃ fewer, fuel = fewer + 1 := ⟨fuel - 1, by omega⟩
      exact (decodeBinEP_accepts false).bind (Accepts.pure start)
  | succ count ih =>
      obtain ⟨fuel, rfl⟩ : ∃ fewer, fuel = fewer + 1 := ⟨fuel - 1, by omega⟩
      have rest := ih fuel (start + 1) (by omega) (by omega)
      rw [Nat.add_assoc, Nat.add_comm 1 count] at rest
      rw [List.replicate_succ, List.cons_append, List.map_cons, remAbsPrefix]
      refine (decodeBinEP_accepts true).bind ?_
      rw [if_pos ⟨rfl, by omega⟩]
      exact rest

/-- As many ones as the longest prefix has; there is no zero behind them. -/
theorem accepts_all_ones (maxPrefix count fuel start : Nat) (rounds : count < fuel)
    (full : start + (count + 1) = maxPrefix) :
    Accepts view (remAbsPrefix maxPrefix fuel start)
      ((List.replicate (count + 1) true).map Bin.ep) maxPrefix := by
  induction count generalizing fuel start with
  | zero =>
      obtain ⟨fuel, rfl⟩ : ∃ fewer, fuel = fewer + 1 := ⟨fuel - 1, by omega⟩
      have last : Accepts view (pure (start + 1 - (1 - true.toNat)) : BinReader Nat) [] maxPrefix := by
        rw [← full]
        exact Accepts.pure _
      refine (decodeBinEP_accepts true).bind ?_
      rw [if_neg (by omega)]
      exact last
  | succ count ih =>
      obtain ⟨fuel, rfl⟩ : ∃ fewer, fuel = fewer + 1 := ⟨fuel - 1, by omega⟩
      have rest := ih fuel (start + 1) (by omega) (by omega)
      rw [List.replicate_succ, List.map_cons, remAbsPrefix]
      refine (decodeBinEP_accepts true).bind ?_
      rw [if_pos ⟨rfl, by omega⟩]
      exact rest

theorem accepts_shiftLeftWord {x n : Nat} (defined : n < 32) (fits : x * 2 ^ n < 2 ^ 32) :
    Accepts view (shiftLeftWord x n) [] (x * 2 ^ n) := by
  intro s rest _ same
  exact ⟨s, shiftLeftWord_run s defined fits, trivial, same⟩

/-- The common end of the reader above the cutoff. -/
theorem accepts_above (range : a.InRange) {length suffixLength : Nat} (short : length < 32)
    (above : 2 ^ length - 1 + a.cutoff ≤ a.quotient)
    (fits : a.bins - a.offset length < 2 ^ suffixLength) :
    Accepts view (do
      let power ← shiftLeftWord 1 length
      let offset ← shiftLeftWord (subWord ((power + a.cutoff) % 2 ^ 32) 1) a.goRicePar
      let bins ← decodeBinsEP suffixLength
      return (offset + bins) % 2 ^ 32)
      ((toBits suffixLength (a.bins - a.offset length)).map Bin.ep) a.bins := by
  have room := range.room
  have rice := range.rice
  have word := range.word
  have power : 2 ^ length ≤ 2 ^ 31 := Nat.pow_le_pow_right (by decide) (by omega)
  have positive : 0 < 2 ^ length := Nat.two_pow_pos _
  have first : subWord ((1 * 2 ^ length + a.cutoff) % 2 ^ 32) 1 = 2 ^ length - 1 + a.cutoff := by
    rw [Nat.one_mul, Nat.mod_eq_of_lt (by omega), subWord_eq (by omega) (by omega)]
    omega
  have le : a.offset length ≤ a.bins := by
    have scaled : a.offset length ≤ a.quotient * 2 ^ a.goRicePar := Nat.mul_le_mul_right _ above
    have split := a.bins_eq
    omega
  have value : (a.offset length + (a.bins - a.offset length)) % 2 ^ 32 = a.bins := by
    rw [Nat.add_sub_cancel' le, Nat.mod_eq_of_lt word]
  have shifted : Accepts view (shiftLeftWord (subWord ((1 * 2 ^ length + a.cutoff) % 2 ^ 32) 1)
      a.goRicePar) [] (a.offset length) := by
    rw [first]
    exact accepts_shiftLeftWord (by omega) (lt_of_le_of_lt le word)
  have ends : Accepts view (pure ((a.offset length + (a.bins - a.offset length)) % 2 ^ 32) :
      BinReader Nat) [] a.bins := by
    rw [value]
    exact Accepts.pure _
  refine Accepts.step (accepts_shiftLeftWord short (by omega)) ?_
  exact shifted.step ((decodeBinsEP_accepts fits).last ends)

/-- The reader takes the code word and returns the value. -/
theorem accepts_remAbsBits (range : a.InRange) (defined : a.Defined) :
    Accepts view (decodeRemAbsEP a.goRicePar a.cutoff a.maxLog2TrDynamicRange)
      (a.remAbsBits.map Bin.ep) a.bins := by
  have room := range.room
  have rice := range.rice
  have word := range.word
  have small := range.cutoff_small
  obtain ⟨positive, total⟩ := range.maxPrefix
  unfold decodeRemAbsEP Args.remAbsBits
  by_cases below : a.quotient < a.cutoff
  · have front := accepts_ones_zero (32 - a.maxLog2TrDynamicRange) a.quotient 32 0 (by omega)
      (by omega)
    rw [Nat.zero_add] at front
    have scaled : a.quotient * 2 ^ a.goRicePar < 2 ^ 32 :=
      lt_of_le_of_lt (Nat.div_mul_le_self _ _) word
    have value : (a.quotient * 2 ^ a.goRicePar + a.bins % 2 ^ a.goRicePar) % 2 ^ 32 = a.bins := by
      rw [← a.bins_eq, Nat.mod_eq_of_lt word]
    have ends : Accepts view (pure ((a.quotient * 2 ^ a.goRicePar + a.bins % 2 ^ a.goRicePar) %
        2 ^ 32) : BinReader Nat) [] a.bins := by
      rw [value]
      exact Accepts.pure _
    have low := decodeBinsEP_accepts (Nat.mod_lt a.bins (Nat.two_pow_pos a.goRicePar))
    rw [if_pos below, ← toBits_mod, List.append_cons, List.map_append]
    refine front.bind ?_
    rw [if_pos below]
    exact (accepts_shiftLeftWord (by omega) scaled).step (low.last ends)
  · rw [if_neg below]
    have notBelow : a.cutoff ≤ a.quotient := by omega
    by_cases escape : 2 ^ a.maxPrefixLength - 1 ≤ a.quotient - a.cutoff
    · have suffix := escape_defined defined notBelow escape
      have front := accepts_all_ones (32 - a.maxLog2TrDynamicRange)
        (a.maxPrefixLength + a.cutoff - 1) 32 0 (by omega) (by omega)
      rw [show a.maxPrefixLength + a.cutoff - 1 + 1 = a.maxPrefixLength + a.cutoff by omega] at front
      rw [if_pos escape, List.map_append]
      refine front.bind ?_
      have length : a.goRicePar + (a.maxLog2TrDynamicRange - a.goRicePar) =
          a.maxLog2TrDynamicRange := by omega
      have behind : 32 - a.maxLog2TrDynamicRange - a.cutoff = a.maxPrefixLength := by omega
      rw [if_neg (by omega), if_pos rfl, length, behind]
      exact accepts_above range (by omega) (by omega) (escape_suffix_lt range)
    · have fewer := prefixLength_lt notBelow escape
      obtain ⟨above, fits⟩ := prefixLength_spec notBelow
      have front := accepts_ones_zero (32 - a.maxLog2TrDynamicRange) (a.prefixLength + a.cutoff) 32 0
        (by omega) (by omega)
      rw [Nat.zero_add] at front
      rw [if_neg escape, List.append_cons, List.map_append]
      refine front.bind ?_
      rw [if_neg (by omega), if_neg (by omega), Nat.add_sub_cancel, Nat.add_comm a.goRicePar]
      exact accepts_above range (by omega) above fits

/-! ## The number of bins -/

theorem length_remAbsBits (a : Args) :
    a.remAbsBits.length =
      if a.quotient < a.cutoff then a.quotient + 1 + a.goRicePar
      else if 2 ^ a.maxPrefixLength - 1 ≤ a.quotient - a.cutoff then
        a.cutoff + a.maxPrefixLength + a.maxLog2TrDynamicRange
      else a.cutoff + a.prefixLength + (a.prefixLength + a.goRicePar + 1) := by
  unfold Args.remAbsBits
  split
  · simp only [List.length_append, List.length_replicate, List.length_cons, length_toBits]
    omega
  · split
    · simp only [List.length_append, List.length_replicate, length_toBits]
      omega
    · simp only [List.length_append, List.length_replicate, List.length_cons, length_toBits]
      omega

theorem length_remAbsBits_le (range : a.InRange) :
    a.remAbsBits.length ≤ max 32 (63 + a.goRicePar - a.cutoff - 2 * a.maxLog2TrDynamicRange) := by
  have room := range.room
  have rice := range.rice
  obtain ⟨positive, total⟩ := range.maxPrefix
  rw [length_remAbsBits]
  split
  · omega
  · split
    · omega
    · next notBelow noEscape =>
        have fewer := prefixLength_lt (by omega) noEscape
        omega

/-- The estimator adds a whole bit for each bin. -/
theorem estimate_run (range : a.InRange) (defined : a.Defined) (estFracBits : Nat) :
    BitEstimator.encodeRemAbsEP a.bins a.goRicePar a.cutoff a.maxLog2TrDynamicRange estFracBits =
      .ok ((), estFracBits + a.remAbsBits.length * 2 ^ BitEstimator.SCALE_BITS) := by
  have room := range.room
  have rice := range.rice
  have word := range.word
  have small := range.cutoff_small
  obtain ⟨positive, total⟩ := range.maxPrefix
  have bound := length_remAbsBits_le range
  have scale : ∀ numBins ≤ 96, BitEstimator.estFracBitsEP numBins =
      numBins * 2 ^ BitEstimator.SCALE_BITS := by
    intro numBins few
    rw [BitEstimator.estFracBitsEP, Nat.shiftLeft_eq, BitEstimator.SCALE_BITS]
    omega
  rw [← scale _ (by omega), length_remAbsBits]
  unfold BitEstimator.encodeRemAbsEP
  rw [bind_run (shiftLeftWord_run _ (by omega) (by omega)), Nat.shiftRight_eq_div_pow,
    show a.bins / 2 ^ a.goRicePar = a.quotient from rfl]
  simp only [below_threshold_iff]
  by_cases below : a.quotient < a.cutoff
  · rw [if_pos below, if_pos below]
    rfl
  · have notBelow : a.cutoff ≤ a.quotient := by omega
    have le : a.quotient ≤ a.bins := Nat.div_le_self _ _
    have short := maxPrefixLength_lt range defined
    have longest : 32 - a.cutoff - a.maxLog2TrDynamicRange = a.maxPrefixLength := rfl
    rw [if_neg below, if_neg below]
    simp only [longest]
    rw [bind_run (shiftLeftWord_run _ short (powerWord short))]
    simp only [subWord_eq notBelow (by omega), subWord_power short]
    by_cases escape : 2 ^ a.maxPrefixLength - 1 ≤ a.quotient - a.cutoff
    · simp only [ge_iff_le, escape, decide_true, if_true]
      rfl
    · simp only [ge_iff_le, escape, decide_false, Bool.false_eq_true, if_false,
        counted_prefixLength range defined notBelow escape]
      rfl

/-- The longest code word that is not an escape. -/
theorem longest_remAbsBits (goRicePar : Nat) {cutoff maxLog2TrDynamicRange : Nat}
    (room : cutoff + maxLog2TrDynamicRange < 32) :
    ∃ bins, bins < (2 ^ (32 - cutoff - maxLog2TrDynamicRange) - 1 + cutoff) * 2 ^ goRicePar ∧
      (Args.mk bins goRicePar cutoff maxLog2TrDynamicRange).remAbsBits.length =
        63 + goRicePar - cutoff - 2 * maxLog2TrDynamicRange := by
  obtain ⟨shorter, prefixEq⟩ :
      ∃ shorter, 32 - cutoff - maxLog2TrDynamicRange = shorter + 1 :=
    ⟨31 - cutoff - maxLog2TrDynamicRange, by omega⟩
  have positive : 0 < 2 ^ shorter := Nat.two_pow_pos _
  refine ⟨(2 ^ shorter - 1 + cutoff) * 2 ^ goRicePar, ?_, ?_⟩
  · rw [prefixEq, pow_succ]
    exact Nat.mul_lt_mul_of_pos_right (by omega) (Nat.two_pow_pos _)
  · have quotient : (Args.mk ((2 ^ shorter - 1 + cutoff) * 2 ^ goRicePar) goRicePar cutoff
        maxLog2TrDynamicRange).quotient = 2 ^ shorter - 1 + cutoff :=
      Nat.mul_div_cancel _ (Nat.two_pow_pos _)
    have length : (Args.mk ((2 ^ shorter - 1 + cutoff) * 2 ^ goRicePar) goRicePar cutoff
        maxLog2TrDynamicRange).prefixLength = shorter := by
      rw [Args.prefixLength, quotient]
      dsimp only
      rw [show 2 ^ shorter - 1 + cutoff - cutoff + 1 = 2 ^ shorter by omega, Nat.log2_two_pow]
    rw [length_remAbsBits, quotient, length, Args.maxPrefixLength, prefixEq, pow_succ,
      if_neg (by dsimp only; omega), if_neg (by dsimp only; omega)]
    dsimp only
    omega

end

/-- Where no shift reaches the width of a word, the writer, the reader and the
estimator agree on every value in range. The bins number at most 32 for all values
exactly when the Rice parameter is small against the cutoff and the range. -/
theorem remAbs_round_trip (goRicePar cutoff maxLog2TrDynamicRange : Nat)
    (room : cutoff + maxLog2TrDynamicRange < 32) (rice : goRicePar ≤ maxLog2TrDynamicRange) :
    (∀ v, v < (2 ^ (32 - cutoff - maxLog2TrDynamicRange) - 1 + cutoff) * 2 ^ goRicePar +
        2 ^ maxLog2TrDynamicRange →
      (0 < maxLog2TrDynamicRange ∨ (0 < cutoff ∧ v < 2 ^ (32 - cutoff) - 1 + cutoff)) →
      ∃ bits : List Bool,
        (∀ s, encodeRemAbsEP v goRicePar cutoff maxLog2TrDynamicRange s =
          .ok ((), s ++ bits.map Bin.ep)) ∧
        (∀ rest, decodeRemAbsEP goRicePar cutoff maxLog2TrDynamicRange (bits.map Bin.ep ++ rest) =
          .ok (v, rest)) ∧
        bits.length ≤ max 32 (63 + goRicePar - cutoff - 2 * maxLog2TrDynamicRange) ∧
        ∀ estFracBits, BitEstimator.encodeRemAbsEP v goRicePar cutoff maxLog2TrDynamicRange
            estFracBits =
          .ok ((), estFracBits + bits.length * 2 ^ BitEstimator.SCALE_BITS)) ∧
    (0 < maxLog2TrDynamicRange →
      ((∀ v, v < (2 ^ (32 - cutoff - maxLog2TrDynamicRange) - 1 + cutoff) * 2 ^ goRicePar +
          2 ^ maxLog2TrDynamicRange →
        ∀ bins, encodeRemAbsEP v goRicePar cutoff maxLog2TrDynamicRange [] = .ok ((), bins) →
          bins.length ≤ 32) ↔
        goRicePar + 31 ≤ cutoff + 2 * maxLog2TrDynamicRange)) := by
  have range : ∀ v, v < (2 ^ (32 - cutoff - maxLog2TrDynamicRange) - 1 + cutoff) * 2 ^ goRicePar +
      2 ^ maxLog2TrDynamicRange → (Args.mk v goRicePar cutoff maxLog2TrDynamicRange).InRange :=
    fun v bound => ⟨room, rice, bound⟩
  constructor
  · intro v bound shifts
    have defined : (Args.mk v goRicePar cutoff maxLog2TrDynamicRange).Defined := by
      rcases Nat.eq_zero_or_pos maxLog2TrDynamicRange with none | positive
      · obtain ⟨some, below⟩ := shifts.resolve_left (by omega)
        obtain rfl : goRicePar = 0 := by omega
        subst none
        refine Or.inr ⟨some, ?_⟩
        simpa [Args.offset, Args.maxPrefixLength] using below
      · exact Or.inl positive
    refine ⟨_, encodeRemAbsEP_run (range v bound) defined, fun rest => ?_,
      length_remAbsBits_le (range v bound), estimate_run (range v bound) defined⟩
    obtain ⟨rest', run, _, same⟩ := accepts_remAbsBits (range v bound) defined _ rest trivial rfl
    rw [run, show rest' = rest from same]
  · intro positive
    constructor
    · intro few
      obtain ⟨v, below, length⟩ := longest_remAbsBits goRicePar room
      have inside : v < (2 ^ (32 - cutoff - maxLog2TrDynamicRange) - 1 + cutoff) * 2 ^ goRicePar +
          2 ^ maxLog2TrDynamicRange := Nat.lt_add_right _ below
      have bound := few v inside _ (encodeRemAbsEP_run (range v inside) (Or.inl positive) [])
      rw [List.nil_append, List.length_map, length] at bound
      omega
    · intro enough v bound bins run
      rw [encodeRemAbsEP_run (range v bound) (Or.inl positive) []] at run
      cases run
      have length := length_remAbsBits_le (range v bound)
      rw [List.nil_append, List.length_map]
      dsimp only at length
      omega

/-- The parameters of transform coefficients and of motion vector differences. -/
theorem remAbs_round_trip_sample :
    (∃ bits : List Bool, ∀ rest, decodeRemAbsEP 4 5 15 (bits.map Bin.ep ++ rest) =
      .ok (65600, rest)) ∧
    ∀ v < (2 ^ 15 - 1) * 2 + 2 ^ 17,
      ∀ bins, encodeRemAbsEP v 1 0 17 [] = .ok ((), bins) → bins.length ≤ 32 := by
  obtain ⟨bits, _, reads, _⟩ := (remAbs_round_trip 4 5 15 (by decide) (by decide)).1 65600
    (by decide) (Or.inl (by decide))
  exact ⟨⟨bits, reads⟩, ((remAbs_round_trip 1 0 17 (by decide) (by decide)).2 (by decide)).mpr
    (by decide)⟩

/-- With the range of 2 that the palette coder passes, a value in range takes 56
bins; and with a range of 0 the longest prefix needs a shift by 32. -/
theorem remAbs_long_code_word :
    (∃ bins, encodeRemAbsEP 67108880 2 5 2 [] = .ok ((), bins) ∧ bins.length = 56) ∧
      67108880 < (2 ^ (32 - 5 - 2) - 1 + 5) * 2 ^ 2 + 2 ^ 2 ∧
      encodeRemAbsEP (2 ^ 31) 0 1 0 [] = .error "shift out of range" ∧
      2 ^ 31 < (2 ^ (32 - 1 - 0) - 1 + 1) * 2 ^ 0 + 2 ^ 0 := by
  have range : (Args.mk 67108880 2 5 2).InRange := ⟨by decide, by decide, by decide⟩
  refine ⟨⟨_, encodeRemAbsEP_run range (Or.inl (by decide)) [], ?_⟩, by decide, by decide, by decide⟩
  rw [List.nil_append, List.length_map, length_remAbsBits]
  decide

end Vtm.Bin.RemAbs
