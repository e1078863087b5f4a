import Vtm.Common.BitStream

/-!
# Hypothetical reference decoder parameters

`HRDParameters` and its sub-layers. The tables of a sub-layer are indexed by the
coded picture buffer and by `nalOrVcl`. Fields of the source that the syntax does
not carry (the decoding unit values of a sub-layer) are left out.
-/

namespace Vtm.HRD

def MAX_CPB_CNT : Nat := 32

structure HrdSubLayerInfo where
  fixedPicRateFlag : Bool
  fixedPicRateWithinCvsFlag : Bool
  picDurationInTcMinus1 : Nat
  lowDelayHrdFlag : Bool
  cpbCntMinus1 : Nat
  bitRateValueMinus1 : Nat → Nat → Nat
  cpbSizeValue : Nat → Nat → Nat
  cbrFlag : Nat → Nat → Bool

structure HRDParameters where
  nalHrdParametersPresentFlag : Bool
  vclHrdParametersPresentFlag : Bool
  tickDivisorMinus2 : Nat
  generalDecodingUnitHrdParamsPresentFlag : Bool
  bitRateScale : Nat
  cpbSizeScale : Nat
  cpbSizeDuScale : Nat
  m_HRD : Nat → HrdSubLayerInfo

/-- The condition both loops over `nalOrVcl` test. -/
def HRDParameters.present (hrd : HRDParameters) (nalOrVcl : Nat) : Bool :=
  (nalOrVcl == 0 && hrd.nalHrdParametersPresentFlag) ||
    (nalOrVcl == 1 && hrd.vclHrdParametersPresentFlag)

/-- Set one entry of a table. -/
def setEntry {α : Type} (table : Nat → Nat → α) (j nalOrVcl : Nat) (value : α) : Nat → Nat → α :=
  fun j' nalOrVcl' => if j' = j ∧ nalOrVcl' = nalOrVcl then value else table j' nalOrVcl'

/-- Replace sub-layer `i`. -/
def HRDParameters.setLayer (hrd : HRDParameters) (i : Nat) (info : HrdSubLayerInfo) :
    HRDParameters :=
  { hrd with m_HRD := fun i' => if i' = i then info else hrd.m_HRD i' }

end Vtm.HRD
