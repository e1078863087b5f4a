import Vtm.Std.Bits

/-!
# Context models

`BinProbModel` is the two-window probability estimate of one context. A context
store is a function from context indices; the index type stays abstract.
-/

namespace Vtm

def PROB_BITS : Nat := 15
def PROB_BITS_0 : Nat := 10
def PROB_BITS_1 : Nat := 14
def MASK_0 : Nat := (2 ^ PROB_BITS_0 - 1) <<< (PROB_BITS - PROB_BITS_0)
def MASK_1 : Nat := (2 ^ PROB_BITS_1 - 1) <<< (PROB_BITS - PROB_BITS_1)

/-- `m_RenormTable_32`. -/
def renormTable32 : List Nat :=
  [6, 5, 4, 4, 3, 3, 3, 3, 2, 2, 2, 2, 2, 2, 2, 2,
    1, 1, 1, 1, 1, 1, 1, 1, 1, 1, 1, 1, 1, 1, 1, 1]

/-- `BinProbModel_Std`: two estimates and the packed window sizes. -/
structure BinProbModel where
  state0 : UInt16
  state1 : UInt16
  rate : UInt8
deriving DecidableEq, Repr

namespace BinProbModel

/-- The constructor: one half, default windows. -/
def default : BinProbModel := ⟨0x4000, 0x4000, 8⟩

/-- `update` moves both estimates towards `bin`. -/
def update (m : BinProbModel) (bin : Bool) : BinProbModel :=
  let rate0 := m.rate.toNat >>> 4
  let rate1 := m.rate.toNat &&& 15
  let state0 := m.state0 - UInt16.ofNat ((m.state0.toNat >>> rate0) &&& MASK_0)
  let state1 := m.state1 - UInt16.ofNat ((m.state1.toNat >>> rate1) &&& MASK_1)
  if bin then
    { m with
      state0 := state0 + UInt16.ofNat ((0x7fff >>> rate0) &&& MASK_0)
      state1 := state1 + UInt16.ofNat ((0x7fff >>> rate1) &&& MASK_1) }
  else { m with state0, state1 }

/-- `state()`, an eight-bit summary of both estimates. -/
def state (m : BinProbModel) : Nat := ((m.state0.toNat + m.state1.toNat) >>> 8) % 256

/-- `mps()`. -/
def mps (m : BinProbModel) : Bool := m.state >>> 7 = 1

/-- The probability index of the less probable symbol. -/
def lpsIndex (state : Nat) : Nat := if state &&& 0x80 ≠ 0 then state ^^^ 0xff else state

def getLPS (m : BinProbModel) (range : Nat) : Nat :=
  ((((lpsIndex m.state) >>> 2) * (range >>> 5)) >>> 1 + 4) % 256

def getRenormBitsLPS (LPS : Nat) : Nat := renormTable32.getD (LPS >>> 3) 0

def getRenormBitsRange (_range : Nat) : Nat := 1

private theorem lpsIndex_fin : ∀ state : Fin 256, lpsIndex state.val ≤ 127 := by
  decide +kernel

theorem lpsIndex_le (m : BinProbModel) : lpsIndex m.state ≤ 127 :=
  lpsIndex_fin ⟨m.state, Nat.mod_lt _ (by decide)⟩

/-- The less probable part of a range is at least four and leaves the other
part at least 128. -/
theorem getLPS_bounds (m : BinProbModel) {range : Nat} (low : 256 ≤ range) (high : range ≤ 510) :
    4 ≤ m.getLPS range ∧ m.getLPS range ≤ 236 ∧ m.getLPS range + 128 ≤ range := by
  have index := m.lpsIndex_le
  simp only [getLPS, Nat.shiftRight_eq_div_pow, Nat.reducePow]
  set q := lpsIndex m.state / 4 with qDef
  set r := range / 32 with rDef
  have qLe : q ≤ 31 := by omega
  have rLow : 8 ≤ r := by omega
  have rHigh : r ≤ 15 := by omega
  have product : q * r ≤ 31 * r := Nat.mul_le_mul_right r qLe
  have small : q * r / 2 + 4 < 256 := by omega
  rw [Nat.mod_eq_of_lt small]
  omega

private theorem renormLPS_fin : ∀ LPS : Fin 256, 4 ≤ LPS.val →
    256 ≤ LPS.val * 2 ^ getRenormBitsLPS LPS.val ∧
      LPS.val * 2 ^ getRenormBitsLPS LPS.val ≤ 510 ∧ getRenormBitsLPS LPS.val ≤ 6 := by
  decide +kernel

/-- Renormalising a less probable part brings it back into the working range. -/
theorem renormLPS_bounds {LPS : Nat} (low : 4 ≤ LPS) (high : LPS ≤ 236) :
    256 ≤ LPS * 2 ^ getRenormBitsLPS LPS ∧ LPS * 2 ^ getRenormBitsLPS LPS ≤ 510 ∧
      getRenormBitsLPS LPS ≤ 6 :=
  renormLPS_fin ⟨LPS, by omega⟩ low

end BinProbModel

/-- A context store: one model for each context index. -/
abbrev CtxStore (ι : Type) := ι → BinProbModel

/-- `m_Ctx[ctxId].update( bin )`. -/
def CtxStore.update {ι : Type} [DecidableEq ι] (ctx : CtxStore ι) (ctxId : ι) (bin : Bool) :
    CtxStore ι :=
  Function.update ctx ctxId ((ctx ctxId).update bin)

end Vtm
