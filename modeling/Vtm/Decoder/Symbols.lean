import Vtm.Common.Bins
import Vtm.Common.Rom

/-!
# Binarizations: reading

The symbol readers of `CABACReader` that several syntax structures share.
-/

namespace Vtm.CABACReader

open Vtm.Std

/-- The loop of `exp_golomb_eqprob` on `symbol` and `count`. Its shifts are only
defined below 32 bits, which bounds the rounds. -/
def expGolombPrefix : Nat → Nat → Nat → BinReader (Nat × Nat)
  | 0, _, _ => fun _ => .error "shift out of range"
  | fuel + 1, symbol, count => do
      let bit ← decodeBinEP
      let symbol := (symbol + bit.toNat <<< count) % 2 ^ 32
      if bit then expGolombPrefix fuel symbol (count + 1) else return (symbol, count + 1)

/-- `exp_golomb_eqprob`. -/
def expGolombEqprob (count : Nat) : BinReader Nat := do
  let (symbol, count) ← expGolombPrefix 32 0 count
  let count := count - 1
  if count ≠ 0 then
    let bins ← decodeBinsEP count
    return (symbol + bins) % 2 ^ 32
  else return symbol

/-- The loop of `unary_max_symbol`, with `left` bins to go. -/
def unaryMaxLoop (ctxId0 ctxIdN : Ctx) : Nat → Nat → BinReader Nat
  | 0, onesRead => pure onesRead
  | left + 1, onesRead => do
      let bin ← decodeBin (if onesRead = 0 then ctxId0 else ctxIdN)
      if bin then unaryMaxLoop ctxId0 ctxIdN left (onesRead + 1) else return onesRead

/-- `unary_max_symbol`. -/
def unaryMaxSymbol (ctxId0 ctxIdN : Ctx) (maxSymbol : Nat) : BinReader Nat :=
  unaryMaxLoop ctxId0 ctxIdN maxSymbol 0

/-- The loop of `unary_max_eqprob`, with `left` bins to go. -/
def unaryMaxEqprobLoop (maxSymbol : Nat) : Nat → Nat → BinReader Nat
  | 0, _ => pure maxSymbol
  | left + 1, k => do
      let bin ← decodeBinEP
      if bin then unaryMaxEqprobLoop maxSymbol left (k + 1) else return k

/-- `unary_max_eqprob`. -/
def unaryMaxEqprob (maxSymbol : Nat) : BinReader Nat := unaryMaxEqprobLoop maxSymbol maxSymbol 0

/-- `xReadTruncBinCode`, which stops where `xWriteTruncBinCode` does. -/
def xReadTruncBinCode (maxSymbol : Nat) : BinReader Nat := do
  check (2 ^ 31 ≤ maxSymbol) "threshVal out of range"
  let thresh := truncBinThresh maxSymbol
  let val := 1 <<< thresh
  let b := maxSymbol - val
  let symbol ← decodeBinsEP thresh
  if symbol ≥ val - b then
    let altSymbol ← decodeBinEP
    return symbol <<< 1 + altSymbol.toNat - (val - b)
  else return symbol

/-- The loop of `decodeRemAbsEP` over the ones of the prefix, at most `maxPrefix` of
them, with the correction behind it. -/
def remAbsPrefix (maxPrefix : Nat) : Nat → Nat → BinReader Nat
  | 0, ones => return ones
  | fuel + 1, ones => do
      let ones := ones + 1
      let codeWord ← decodeBinEP
      if codeWord ∧ ones < maxPrefix then remAbsPrefix maxPrefix fuel ones
      else return ones - (1 - codeWord.toNat)

/-- `BinDecoderBase::decodeRemAbsEP`. The loop makes one round at least and
`maxPrefix` at most. -/
def decodeRemAbsEP (goRicePar cutoff maxLog2TrDynamicRange : Nat) : BinReader Nat := do
  let maxPrefix := 32 - maxLog2TrDynamicRange
  let ones ← remAbsPrefix maxPrefix 32 0
  if ones < cutoff then
    let offset ← shiftLeftWord ones goRicePar
    let bins ← decodeBinsEP goRicePar
    return (offset + bins) % 2 ^ 32
  else
    let power ← shiftLeftWord 1 (ones - cutoff)
    let offset ← shiftLeftWord (subWord ((power + cutoff) % 2 ^ 32) 1) goRicePar
    let length := goRicePar +
      if ones = 32 - maxLog2TrDynamicRange then maxLog2TrDynamicRange - goRicePar
      else ones - cutoff
    let bins ← decodeBinsEP length
    return (offset + bins) % 2 ^ 32

end Vtm.CABACReader
