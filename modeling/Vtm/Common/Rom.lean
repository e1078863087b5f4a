import Vtm.Std.Bits

/-!
# Tables

`g_tbMax` and the threshold of truncated binary codes that both sides derive
from it.
-/

namespace Vtm

/-- `g_tbMax`. -/
def gTbMax : List Nat :=
  [0, 0] ++ List.replicate 2 1 ++ List.replicate 4 2 ++ List.replicate 8 3 ++
    List.replicate 16 4 ++ List.replicate 32 5 ++ List.replicate 64 6 ++ List.replicate 128 7 ++ [8]

/-- The loop of the truncated binary codes over `thresh` and `threshVal`. A 32-bit
`maxSymbol` leaves it within 24 rounds. -/
def threshLoop (maxSymbol : Nat) : Nat → Nat → Nat → Nat
  | 0, thresh, _ => thresh
  | fuel + 1, thresh, threshVal =>
      if threshVal ≤ maxSymbol then threshLoop maxSymbol fuel (thresh + 1) (threshVal <<< 1)
      else thresh

/-- `thresh` of `xWriteTruncBinCode` and `xReadTruncBinCode`. -/
def truncBinThresh (maxSymbol : Nat) : Nat :=
  if maxSymbol > 256 then threshLoop maxSymbol 24 8 (1 <<< 8) - 1 else gTbMax.getD maxSymbol 0

private theorem gTbMax_entries : ∀ entry ∈ gTbMax.zipIdx, 0 < entry.2 →
    2 ^ entry.1 ≤ entry.2 ∧ entry.2 < 2 ^ (entry.1 + 1) := by
  decide +kernel

private theorem gTbMax_fin (n : Fin 257) (positive : 0 < n.val) :
    2 ^ gTbMax.getD n.val 0 ≤ n.val ∧ n.val < 2 ^ (gTbMax.getD n.val 0 + 1) := by
  have size : gTbMax.length = 257 := by
    simp only [gTbMax, List.length_append, List.length_replicate, List.length_cons, List.length_nil]
  have length : n.val < gTbMax.length := by omega
  rw [List.getD_eq_getElem?_getD, List.getElem?_eq_getElem length]
  exact gTbMax_entries (gTbMax[n.val], n.val) (List.mk_mem_zipIdx_iff_getElem?.mpr
    (List.getElem?_eq_getElem length)) positive

private theorem threshLoop_spec {maxSymbol : Nat} (fuel thresh : Nat)
    (below : 2 ^ thresh ≤ 2 * maxSymbol) (enough : maxSymbol < 2 ^ (thresh + fuel))
    (positive : 0 < thresh) :
    2 ^ (threshLoop maxSymbol fuel thresh (2 ^ thresh) - 1) ≤ maxSymbol ∧
      maxSymbol < 2 ^ (threshLoop maxSymbol fuel thresh (2 ^ thresh)) ∧
      0 < threshLoop maxSymbol fuel thresh (2 ^ thresh) := by
  induction fuel generalizing thresh with
  | zero =>
      obtain ⟨previous, rfl⟩ := Nat.exists_eq_succ_of_ne_zero positive.ne'
      simp only [threshLoop, Nat.add_zero, Nat.succ_sub_one, pow_succ] at *
      omega
  | succ fuel ih =>
      by_cases more : 2 ^ thresh ≤ maxSymbol
      · have shifted : 2 ^ thresh <<< 1 = 2 ^ (thresh + 1) := by
          rw [Nat.shiftLeft_eq, pow_one, pow_succ]
        rw [threshLoop, if_pos more, shifted]
        refine ih (thresh + 1) (by rw [pow_succ]; omega) ?_ (by omega)
        rwa [Nat.add_right_comm, Nat.add_assoc thresh fuel 1]
      · rw [threshLoop, if_neg more]
        obtain ⟨previous, rfl⟩ := Nat.exists_eq_succ_of_ne_zero positive.ne'
        simp only [Nat.succ_sub_one, pow_succ] at *
        omega

/-- The threshold is the number of bits below the leading one. -/
theorem truncBinThresh_spec {maxSymbol : Nat} (positive : 0 < maxSymbol)
    (word : maxSymbol < 2 ^ 32) :
    2 ^ truncBinThresh maxSymbol ≤ maxSymbol ∧ maxSymbol < 2 ^ (truncBinThresh maxSymbol + 1) := by
  by_cases large : maxSymbol > 256
  · have spec := threshLoop_spec 24 8 (by omega : 2 ^ 8 ≤ 2 * maxSymbol) word (by decide)
    rw [truncBinThresh, if_pos large, show 1 <<< 8 = 2 ^ 8 from rfl]
    refine ⟨spec.1, ?_⟩
    rw [Nat.sub_add_cancel spec.2.2]
    exact spec.2.1
  · rw [truncBinThresh, if_neg large]
    exact gTbMax_fin ⟨maxSymbol, by omega⟩ positive

end Vtm
