import Vtm.Common.Bins
import Vtm.Common.Rom

/-!
# Binarizations: writing

The symbol writers of `CABACWriter` that several syntax structures share.
-/

namespace Vtm.CABACWriter

open Vtm.Std

/-- The loop of `exp_golomb_eqprob` on `symbol`, `count`, `bins` and `numBins`. A
32-bit symbol leaves it within 32 rounds. -/
def expGolombPrefix : Nat → Nat → Nat → Nat → Nat → Nat × Nat × Nat × Nat
  | 0, symbol, count, bins, numBins => (symbol, count, bins, numBins)
  | fuel + 1, symbol, count, bins, numBins =>
      if symbol ≥ 1 <<< count then
        expGolombPrefix fuel (symbol - 1 <<< count) (count + 1) (bins <<< 1 + 1) (numBins + 1)
      else (symbol, count, bins, numBins)

/-- `exp_golomb_eqprob`. -/
def expGolombEqprob (symbol count : Nat) : BinWriter Unit := do
  let (symbol, count, bins, numBins) := expGolombPrefix 32 symbol count 0 0
  encodeBinsEP (bins <<< 1) (numBins + 1)
  encodeBinsEP symbol count

/-- `unary_max_symbol`; `symbol + 1` is a 32-bit word. -/
def unaryMaxSymbol (symbol : Nat) (ctxId0 ctxIdN : Ctx) (maxSymbol : Nat) : BinWriter Unit := do
  check (symbol > maxSymbol) "symbol > maxSymbol"
  (List.range' 0 (min ((symbol + 1) % 2 ^ 32) maxSymbol)).foldlM (fun _ binsWritten =>
    encodeBin (symbol > binsWritten) (if binsWritten = 0 then ctxId0 else ctxIdN)) ()

/-- The loop of `unary_max_eqprob` on `bins` and `numBins`. -/
def unaryOnes : Nat → Nat → Nat → Nat × Nat
  | 0, bins, numBins => (bins, numBins)
  | symbol + 1, bins, numBins => unaryOnes symbol ((bins <<< 1 + 1) % 2 ^ 32) (numBins + 1)

/-- The bins of `unary_max_eqprob`. -/
def encodeUnary (bins numBins : Nat) : BinWriter Unit := do
  check (¬ numBins ≤ 32) "Unspecified error"
  encodeBinsEP bins numBins

/-- `unary_max_eqprob`. -/
def unaryMaxEqprob (symbol maxSymbol : Nat) : BinWriter Unit :=
  if maxSymbol = 0 then pure ()
  else
    let (bins, numBins) := unaryOnes symbol 0 0
    -- `codeLast`
    if maxSymbol > symbol then encodeUnary ((bins <<< 1) % 2 ^ 32) (numBins + 1)
    else encodeUnary bins numBins

/-- `xWriteTruncBinCode`. An alphabet of `2 ^ 31` symbols shifts the signed `threshVal`
out of its range; the model stops there. -/
def xWriteTruncBinCode (symbol maxSymbol : Nat) : BinWriter Unit := do
  check (2 ^ 31 ≤ maxSymbol) "threshVal out of range"
  let thresh := truncBinThresh maxSymbol
  let val := 1 <<< thresh
  check (¬ val ≤ maxSymbol) "val <= maxSymbol"
  check (¬ val <<< 1 > maxSymbol) "(val << 1) > maxSymbol"
  check (¬ symbol < maxSymbol) "symbol < maxSymbol"
  let b := maxSymbol - val
  check (¬ b < val) "b < val"
  if symbol < val - b then encodeBinsEP symbol thresh
  else
    let symbol := symbol + (val - b)
    check (¬ symbol < val <<< 1) "symbol < (val << 1)"
    check (¬ symbol >>> 1 ≥ val - b) "(symbol >> 1) >= val - b"
    encodeBinsEP symbol (thresh + 1)

/-- The loop of `encodeRemAbsEP` on `prefixLength`. Its bound passes every 32-bit
`codeValue` but the largest within 32 rounds. -/
def remAbsPrefixLength : Nat → Nat → Nat → Nat
  | 0, _, prefixLength => prefixLength
  | fuel + 1, codeValue, prefixLength =>
      if codeValue > subWord (2 <<< prefixLength % 2 ^ 32) 2 then
        remAbsPrefixLength fuel codeValue (prefixLength + 1)
      else prefixLength

def encodeRemAbsEP (bins goRicePar cutoff maxLog2TrDynamicRange : Nat) : BinWriter Unit := do
  let threshold ← shiftLeftWord cutoff goRicePar
  if bins < threshold then
    let bitMask := subWord (← shiftLeftWord 1 goRicePar) 1
    let length := bins >>> goRicePar + 1
    encodeBinsEP (subWord (← shiftLeftWord 1 length) 2) length
    encodeBinsEP (bins &&& bitMask) goRicePar
  else
    let maxPrefixLength := 32 - cutoff - maxLog2TrDynamicRange
    let codeValue := subWord (bins >>> goRicePar) cutoff
    let lastPrefix := subWord (← shiftLeftWord 1 maxPrefixLength) 1
    let escapes : Bool := codeValue ≥ lastPrefix
    let prefixLength :=
      if escapes then maxPrefixLength else remAbsPrefixLength 32 codeValue 0
    -- one more for the separator bit, which the suffix holds
    let suffixLength :=
      if escapes then maxLog2TrDynamicRange else prefixLength + goRicePar + 1
    let totalPrefixLength := prefixLength + cutoff
    let bitMask := subWord (← shiftLeftWord 1 goRicePar) 1
    let ones := subWord (← shiftLeftWord 1 totalPrefixLength) 1
    let offset := subWord (← shiftLeftWord 1 prefixLength) 1
    let above ← shiftLeftWord (subWord codeValue offset) goRicePar
    encodeBinsEP ones totalPrefixLength
    encodeBinsEP (above ||| (bins &&& bitMask)) suffixLength

end Vtm.CABACWriter

namespace Vtm.BitEstimator

open Vtm.Std Vtm.CABACWriter

def SCALE_BITS : Nat := 15

/-- `estFracBitsEP` of a number of bins. -/
def estFracBitsEP (numBins : Nat) : Nat :=
  (numBins <<< SCALE_BITS) % 2 ^ 32

/-- `BitEstimatorBase::encodeRemAbsEP` on `m_EstFracBits`. -/
def encodeRemAbsEP (bins goRicePar cutoff maxLog2TrDynamicRange : Nat) : StateT Nat Checked Unit := do
  let threshold ← shiftLeftWord cutoff goRicePar
  if bins < threshold then
    modify fun estFracBits => estFracBits + estFracBitsEP (bins >>> goRicePar + 1 + goRicePar)
  else
    let maxPrefixLength := 32 - cutoff - maxLog2TrDynamicRange
    let codeValue := subWord (bins >>> goRicePar) cutoff
    let lastPrefix := subWord (← shiftLeftWord 1 maxPrefixLength) 1
    let escapes : Bool := codeValue ≥ lastPrefix
    let prefixLength :=
      if escapes then maxPrefixLength else remAbsPrefixLength 32 codeValue 0
    let suffixLength :=
      if escapes then maxLog2TrDynamicRange else prefixLength + goRicePar + 1
    modify fun estFracBits => estFracBits + estFracBitsEP (cutoff + prefixLength + suffixLength)

end Vtm.BitEstimator
