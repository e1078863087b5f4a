import Mathlib.Algebra.BigOperators.Intervals
import Mathlib.Algebra.Order.BigOperators.Group.Finset
import Vtm.Std.Pieces

/-!
# Piecewise linear luma mappings

A mapping with bins of equal length and a number of code words for each, zero outside a range of
bins. There and back it does not fall, and bins with enough code words come back to within one.
-/

namespace Vtm

open Vtm.Std
open LinearPiece (backward forward forward_nonneg)

structure LumaMapping where
  length : Nat
  bins : Nat
  count : Nat → Int
  first : Nat
  last : Nat
  length_pos : 0 < length
  first_lt : first < bins
  last_lt : last < bins
  outside : ∀ i, ¬ (first ≤ i ∧ i ≤ last) → count i = 0
  inside : ∀ i, first ≤ i → i ≤ last → 0 < count i

namespace LumaMapping

variable (m : LumaMapping)

/-- The first level of a bin. -/
def level (i : Nat) : Int := ∑ k ∈ Finset.range i, m.count k

/-- The mapping of a sample. -/
def there (x : Nat) : Int :=
  m.level (x / m.length) + forward m.length (m.count (x / m.length)) (x % m.length : Nat)

/-- The bin of a level. -/
def bin (v : Int) : Nat := min (pieceOf m.level v (m.last + 1 - m.first) m.first) (m.bins - 1)

/-- The slope of the way back; there is none in a bin without code words. -/
@[grind =] def slope (half : Int) (i : Nat) : Int :=
  if m.count i = 0 then 0 else LinearPiece.slope half m.length (m.count i)

/-- The way back of a level, if it is in the bin. -/
@[grind =] def backFrom (half : Int) (i : Nat) (v : Int) : Int :=
  i * m.length + backward half (m.slope half i) (v - m.level i)

/-- The way back of a level. -/
def back (half v : Int) : Int := m.backFrom half (m.bin v) v

section Levels

theorem count_nonneg (i : Nat) : 0 ≤ m.count i := by
  by_cases within : m.first ≤ i ∧ i ≤ m.last
  · exact le_of_lt (m.inside i within.1 within.2)
  · exact le_of_eq (m.outside i within).symm

theorem level_succ (i : Nat) : m.level (i + 1) = m.level i + m.count i := Finset.sum_range_succ _ _

theorem level_mono : Monotone m.level :=
  monotone_nat_of_le_succ fun i => by
    have nonneg := m.count_nonneg i
    rw [level_succ]
    omega

theorem level_nonneg (i : Nat) : 0 ≤ m.level i := Finset.sum_nonneg fun k _ => m.count_nonneg k

/-- No code words below the first bin, and none behind the last one. -/
theorem level_first {i : Nat} (le : i ≤ m.first) : m.level i = 0 :=
  Finset.sum_eq_zero fun k member => m.outside k fun within => by
    have below := Finset.mem_range.mp member
    omega

theorem level_last {i : Nat} (less : m.last < i) : m.level i = m.level m.bins := by
  have last_lt := m.last_lt
  have above {k : Nat} (le : m.last + 1 ≤ k) : m.level k = m.level (m.last + 1) := by
    induction k, le using Nat.le_induction with
    | base => rfl
    | succ k le ih => rw [level_succ, ih, m.outside k (by omega), add_zero]
  rw [above (by omega), above (k := m.bins) (by omega)]

theorem level_le (i : Nat) : m.level i ≤ m.level m.bins := by
  by_cases le : i ≤ m.bins
  · exact m.level_mono le
  · have last_lt := m.last_lt
    exact le_of_eq (m.level_last (by omega))

end Levels

section There

theorem there_mono : Monotone m.there := by
  have positive : (0 : Int) < m.length := Int.ofNat_lt.mpr m.length_pos
  refine @pieces_mono (fun x => x / m.length)
    (fun i x => m.level i + forward m.length (m.count i) (x % m.length : Nat)) m.level
    (fun x y le => Nat.div_le_div_right le) m.level_mono (fun x => ?_) (fun x y _ => ?_)
    fun x y le same => ?_
  · have nonneg := forward_nonneg positive (m.count_nonneg (x / m.length))
      (Int.natCast_nonneg (x % m.length))
    omega
  · have small := LinearPiece.forward_le positive (m.count_nonneg (x / m.length))
      (d := (x % m.length : Nat)) (by
        have less := Nat.mod_lt x m.length_pos
        omega)
    rw [level_succ]
    omega
  · have order : x % m.length ≤ y % m.length := by
      have splitX := Nat.div_add_mod x m.length
      have splitY := Nat.div_add_mod y m.length
      rw [same] at splitX
      omega
    rw [same]
    have mono := LinearPiece.forward_mono positive (m.count_nonneg (y / m.length))
      (Int.ofNat_le.mpr order)
    omega

theorem there_mem (x : Nat) : m.level (x / m.length) ≤ m.there x ∧
    m.there x ≤ m.level (x / m.length + 1) := by
  have positive : (0 : Int) < m.length := Int.ofNat_lt.mpr m.length_pos
  have nonneg := forward_nonneg positive (m.count_nonneg (x / m.length))
    (Int.natCast_nonneg (x % m.length))
  have small := LinearPiece.forward_le positive (m.count_nonneg (x / m.length))
    (d := (x % m.length : Nat)) (by
      have less := Nat.mod_lt x m.length_pos
      omega)
  rw [level_succ, there]
  constructor <;> omega

theorem there_nonneg (x : Nat) : 0 ≤ m.there x := (m.level_nonneg _).trans (m.there_mem x).1

theorem there_le (x : Nat) : m.there x ≤ m.level m.bins := (m.there_mem x).2.trans (m.level_le _)

end There

section Back

theorem bin_lt (v : Int) : m.bin v < m.bins := by
  have first_lt := m.first_lt
  unfold bin
  omega

/-- A level is not below its bin, and in a bin that is not the last one searched it is in it. -/
theorem bin_spec {v : Int} (nonneg : 0 ≤ v) : m.level (m.bin v) ≤ v ∧
    ∀ w, m.bin v < m.bin w → v < m.level (m.bin v + 1) ∧ 0 < m.count (m.bin v) := by
  obtain ⟨low, high, found, passed⟩ := pieceOf_spec m.level v (m.last + 1 - m.first) m.first
  have first_lt := m.first_lt
  constructor
  · by_cases start : m.bin v ≤ m.first
    · rw [m.level_first start]
      exact nonneg
    · have before := passed (m.bin v - 1) (by omega) (by
        unfold bin at start ⊢
        omega)
      rwa [Nat.sub_add_cancel (by omega)] at before
  · intro w less
    obtain ⟨_, high', -, -⟩ := pieceOf_spec m.level w (m.last + 1 - m.first) m.first
    have same : m.bin v = pieceOf m.level v (m.last + 1 - m.first) m.first := by
      unfold bin at less ⊢
      omega
    have most : m.bin w ≤ m.first + (m.last + 1 - m.first) := (Nat.min_le_left _ _).trans high'
    rw [same] at less ⊢
    exact ⟨found (by omega), m.inside _ low (by omega)⟩

theorem within_of_count {i : Nat} (some : m.count i ≠ 0) : m.first ≤ i ∧ i ≤ m.last := by
  by_contra outside
  exact some (m.outside i outside)

/-- A level of a bin is found in it. -/
theorem bin_eq {i : Nat} {v : Int} (above : m.level i ≤ v) (below : v < m.level (i + 1)) :
    m.bin v = i := by
  have last_lt := m.last_lt
  have within := m.within_of_count (i := i) (by
    rw [level_succ] at below
    omega)
  unfold bin
  rw [pieceOf_eq m.level_mono within.1 (by omega) above below]
  omega

/-- Above all code words is the bin behind the last one, unless there is none. -/
theorem bin_above {v : Int} (above : m.level m.bins ≤ v) :
    m.bin v = min (m.first + (m.last + 1 - m.first)) (m.bins - 1) := by
  obtain ⟨-, high, found, -⟩ := pieceOf_spec m.level v (m.last + 1 - m.first) m.first
  have behind : pieceOf m.level v (m.last + 1 - m.first) m.first =
      m.first + (m.last + 1 - m.first) := by
    by_contra inside
    have below := found (by omega)
    have le := m.level_le (pieceOf m.level v (m.last + 1 - m.first) m.first + 1)
    omega
  rw [bin, behind]

variable {half : Int} (unit : 0 < half)
include unit

theorem slope_nonneg (i : Nat) : 0 ≤ m.slope half i := by
  unfold slope
  split
  · exact le_rfl
  · rename_i some
    exact LinearPiece.slope_nonneg unit (Int.ofNat_lt.mpr m.length_pos)
      (lt_of_le_of_ne (m.count_nonneg i) (Ne.symm some))

theorem backFrom_mono (i : Nat) {v w : Int} (le : v ≤ w) :
    m.backFrom half i v ≤ m.backFrom half i w := by
  have mono := LinearPiece.backward_mono unit (m.slope_nonneg unit i)
    (show v - m.level i ≤ w - m.level i by omega)
  unfold backFrom
  omega

theorem le_backFrom {i : Nat} {v : Int} (above : m.level i ≤ v) :
    (i * m.length : Int) ≤ m.backFrom half i v := by
  have nonneg := LinearPiece.backward_nonneg unit (m.slope_nonneg unit i)
    (show 0 ≤ v - m.level i by omega)
  unfold backFrom
  omega

/-- The way back of a level of a bin stays in the bin. -/
theorem backFrom_le {i : Nat} {v : Int} (some : 0 < m.count i) (below : v < m.level (i + 1)) :
    m.backFrom half i v ≤ ((i + 1) * m.length : Int) := by
  rw [level_succ] at below
  have small := LinearPiece.backward_le unit (Int.ofNat_lt.mpr m.length_pos) some
    (show v - m.level i < m.count i by omega)
  have expand : ((i : Int) + 1) * m.length = i * m.length + m.length := by ring
  unfold backFrom slope
  rw [if_neg some.ne', expand]
  omega

theorem back_mono : Monotone fun v : Nat => m.back half v := by
  refine @pieces_mono (fun v : Nat => m.bin v) (fun i (v : Nat) => m.backFrom half i v)
    (fun i => (i * m.length : Nat)) (fun v w le => ?_) (fun i j le => ?_) (fun v => ?_)
    (fun v w less => ?_) fun v w le same => ?_
  · have order := pieceOf_mono m.level (Int.ofNat_le.mpr le) (m.last + 1 - m.first) m.first
    exact min_le_min_right _ order
  · exact Int.ofNat_le.mpr (Nat.mul_le_mul_right _ le)
  · push_cast
    exact m.le_backFrom unit (m.bin_spec (Int.natCast_nonneg v)).1
  · obtain ⟨below, some⟩ := (m.bin_spec (Int.natCast_nonneg v)).2 w less
    push_cast
    exact m.backFrom_le unit some below
  · rw [same]
    exact m.backFrom_mono unit _ (Int.ofNat_le.mpr le)

theorem back_nonneg {v : Int} (nonneg : 0 ≤ v) : 0 ≤ m.back half v := by
  have start := m.le_backFrom unit (m.bin_spec nonneg).1
  exact le_trans (by positivity) start

/-- The first level of a bin is mapped back to its first sample. -/
theorem back_level {i : Nat} (some : 0 < m.count i) : m.back half (m.level i) = i * m.length := by
  have found := m.bin_eq (i := i) le_rfl (by
    rw [level_succ]
    omega)
  have zero : backward half (m.slope half i) 0 = 0 := by
    rw [backward, mul_zero, zero_add]
    exact Int.ediv_eq_zero_of_lt (le_of_lt unit) (by omega)
  rw [back, backFrom, found, sub_self, zero, add_zero]

/-- A sample of a bin with enough code words comes back to within one. -/
theorem back_there {x : Nat} (enough : m.length ≤ m.count (x / m.length))
    (most : m.count (x / m.length) < 2 * half) :
    |m.back half (m.there x) - x| ≤ 1 := by
  have positive : (0 : Int) < m.length := Int.ofNat_lt.mpr m.length_pos
  have some : 0 < m.count (x / m.length) := lt_of_lt_of_le positive enough
  have rest : ((x % m.length : Nat) : Int) < m.length := Int.ofNat_lt.mpr (Nat.mod_lt x m.length_pos)
  have used := LinearPiece.forward_lt positive enough rest
  have nonneg := forward_nonneg positive (le_of_lt some)
    (Int.natCast_nonneg (x % m.length))
  have below : m.there x < m.level (x / m.length + 1) := by
    rw [level_succ, there]
    omega
  have found : m.bin (m.there x) = x / m.length := m.bin_eq (m.there_mem x).1 below
  have offset : m.there x - m.level (x / m.length) =
      forward m.length (m.count (x / m.length)) (x % m.length : Nat) := by
    rw [there]
    omega
  have near := LinearPiece.backward_forward unit positive some enough most
    (Int.natCast_nonneg (x % m.length)) rest
  have place : (x : Int) = (x / m.length : Nat) * m.length + (x % m.length : Nat) := by
    have split := Nat.div_add_mod x m.length
    rw [Nat.mul_comm] at split
    exact_mod_cast split.symm
  have value : m.back half (m.there x) = (x / m.length : Nat) * m.length +
      backward half (LinearPiece.slope half m.length (m.count (x / m.length)))
        (forward m.length (m.count (x / m.length)) (x % m.length : Nat)) := by
    unfold back backFrom slope
    rw [found, if_neg some.ne', offset]
  rw [value]
  generalize backward half _ _ = z at near ⊢
  rw [abs_le] at near ⊢
  omega

end Back

end LumaMapping

end Vtm
