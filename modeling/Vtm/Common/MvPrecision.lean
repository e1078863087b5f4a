import Vtm.Common.MotionInfo

/-!
# Precisions of motion vectors

Motion vectors are stored in sixteenths of a sample, and their differences are signalled in the
precision of the `imv` mode. A shift to the right rounds half towards zero.
-/

namespace Vtm.Motion

def MV_BITS : Nat := 18

inductive MvPrecision where
  | MV_PRECISION_4PEL
  | MV_PRECISION_INT
  | MV_PRECISION_HALF
  | MV_PRECISION_QUARTER
  | MV_PRECISION_SIXTEENTH
deriving DecidableEq, Repr

namespace MvPrecision

/-- The value of an enumerator. -/
def value : MvPrecision → Nat
  | MV_PRECISION_4PEL => 0
  | MV_PRECISION_INT => 2
  | MV_PRECISION_HALF => 3
  | MV_PRECISION_QUARTER => 4
  | MV_PRECISION_SIXTEENTH => 6

/-- `MV_PRECISION_INTERNAL`, which has the value of `MV_PRECISION_SIXTEENTH`. -/
abbrev MV_PRECISION_INTERNAL : MvPrecision := MV_PRECISION_SIXTEENTH

/-- The distance of two vectors of a precision, in sixteenths. -/
def step (p : MvPrecision) : Int := 2 ^ (MV_PRECISION_INTERNAL.value - p.value)

theorem value_le (p : MvPrecision) : p.value ≤ MV_PRECISION_INTERNAL.value := by
  cases p <;> decide

end MvPrecision

open MvPrecision

/-- `changePrecision` of a component. -/
def changePrecisionComp (src dst : MvPrecision) (v : Int) : Int :=
  if src.value ≤ dst.value then v * 2 ^ (dst.value - src.value)
  else
    let rightShift := src.value - dst.value
    let nOffset : Int := 2 ^ (rightShift - 1)
    if 0 ≤ v then (v + nOffset - 1) >>> rightShift else (v + nOffset) >>> rightShift

namespace Mv

variable (mv : Mv)

def changePrecision (src dst : MvPrecision) : Mv :=
  ⟨changePrecisionComp src dst mv.hor, changePrecisionComp src dst mv.ver⟩

def getSymmvdMv (curMvPred tarMvPred : Mv) : Mv :=
  ⟨tarMvPred.hor - mv.hor + curMvPred.hor, tarMvPred.ver - mv.ver + curMvPred.ver⟩

end Mv

/-- `m_amvrPrecision`, by `imv`. -/
def m_amvrPrecision : List MvPrecision :=
  [MV_PRECISION_QUARTER, MV_PRECISION_INT, MV_PRECISION_4PEL, MV_PRECISION_HALF]

def m_amvrPrecAffine : List MvPrecision :=
  [MV_PRECISION_QUARTER, MV_PRECISION_SIXTEENTH, MV_PRECISION_INT]

def m_amvrPrecIbc : List MvPrecision := [MV_PRECISION_INT, MV_PRECISION_INT, MV_PRECISION_4PEL]

/-- An access to one of the tables, which must not pass its end. -/
def precisionAt (table : List MvPrecision) (amvr : Nat) : Checked MvPrecision :=
  match table[amvr]? with
  | some p => .ok p
  | none => .error "amvr out of range"

namespace Mv

variable (mv : Mv) (amvr : Nat)

/-- The three `Internal2Amvr` conversions. -/
def internal2Amvr (table : List MvPrecision) : Checked Mv := do
  return mv.changePrecision MV_PRECISION_INTERNAL (← precisionAt table amvr)

/-- The three `Amvr2Internal` conversions. -/
def amvr2Internal (table : List MvPrecision) : Checked Mv := do
  return mv.changePrecision (← precisionAt table amvr) MV_PRECISION_INTERNAL

def changeTransPrecInternal2Amvr : Checked Mv := mv.internal2Amvr amvr m_amvrPrecision
def changeTransPrecAmvr2Internal : Checked Mv := mv.amvr2Internal amvr m_amvrPrecision
def changeAffinePrecInternal2Amvr : Checked Mv := mv.internal2Amvr amvr m_amvrPrecAffine
def changeAffinePrecAmvr2Internal : Checked Mv := mv.amvr2Internal amvr m_amvrPrecAffine
def changeIbcPrecInternal2Amvr : Checked Mv := mv.internal2Amvr amvr m_amvrPrecIbc
def changeIbcPrecAmvr2Internal : Checked Mv := mv.amvr2Internal amvr m_amvrPrecIbc

/-- A vector of a precision. -/
def OnGrid (p : MvPrecision) : Prop := p.step ∣ mv.hor ∧ p.step ∣ mv.ver

end Mv

/-! ## Changes of the precision -/

variable {p : MvPrecision} {v : Int} {mv : Mv}

theorem changePrecisionComp_back (v : Int) :
    changePrecisionComp p MV_PRECISION_INTERNAL v = v * p.step := by
  unfold changePrecisionComp
  rw [if_pos p.value_le]
  rfl

/-- No bit of a multiple of the step is shifted out. -/
theorem changePrecisionComp_mul (w : Int) :
    changePrecisionComp MV_PRECISION_INTERNAL p (w * p.step) = w := by
  unfold changePrecisionComp
  by_cases same : MV_PRECISION_INTERNAL.value ≤ p.value
  · have whole : p.step = 1 := by
      rw [step, Nat.sub_eq_zero_of_le same, pow_zero]
    rw [if_pos same, Nat.sub_eq_zero_of_le p.value_le, pow_zero, mul_one, whole, mul_one]
  · rw [if_neg same]
    obtain ⟨k, shift⟩ : ∃ k, MV_PRECISION_INTERNAL.value - p.value = k + 1 :=
      ⟨MV_PRECISION_INTERNAL.value - p.value - 1, by omega⟩
    have half : (0 : Int) < 2 ^ k := by positivity
    have size : p.step = 2 * 2 ^ k := by
      rw [step, shift, pow_succ']
    simp only [shift, Nat.add_sub_cancel, Int.shiftRight_eq_div_pow, pow_succ', size,
      Nat.cast_mul, Nat.cast_pow, Nat.cast_ofNat]
    -- what is added is less than a step, from either side
    split
    · rw [add_sub_assoc, add_comm, Int.add_mul_ediv_right _ _ (by omega),
        Int.ediv_eq_zero_of_lt (by omega) (by omega), zero_add]
    · rw [add_comm, Int.add_mul_ediv_right _ _ (by omega),
        Int.ediv_eq_zero_of_lt (by omega) (by omega), zero_add]

theorem changePrecisionComp_exact (grid : p.step ∣ v) :
    changePrecisionComp p MV_PRECISION_INTERNAL (changePrecisionComp MV_PRECISION_INTERNAL p v) = v := by
  obtain ⟨w, rfl⟩ := grid
  rw [mul_comm, changePrecisionComp_mul, changePrecisionComp_back]

theorem changePrecision_exact (grid : mv.OnGrid p) :
    (mv.changePrecision MV_PRECISION_INTERNAL p).changePrecision p MV_PRECISION_INTERNAL = mv :=
  Mv.ext (changePrecisionComp_exact grid.1) (changePrecisionComp_exact grid.2)

namespace Mv

@[simp] theorem add_hor (a b : Mv) : (a + b).hor = a.hor + b.hor := rfl
@[simp] theorem add_ver (a b : Mv) : (a + b).ver = a.ver + b.ver := rfl
@[simp] theorem sub_hor (a b : Mv) : (a - b).hor = a.hor - b.hor := rfl
@[simp] theorem sub_ver (a b : Mv) : (a - b).ver = a.ver - b.ver := rfl

theorem OnGrid.sub {a b : Mv} (left : a.OnGrid p) (right : b.OnGrid p) : (a - b).OnGrid p :=
  ⟨Int.dvd_sub left.1 right.1, Int.dvd_sub left.2 right.2⟩

end Mv

end Vtm.Motion
