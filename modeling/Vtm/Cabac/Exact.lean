import Vtm.Std.Interval
import Vtm.Common.Contexts

/-!
# The exact arithmetic coder

What the CABAC engine computes, with an unbounded lower bound: each bin keeps a
part of the interval and doubles it until the range is at least 256. The
operations are those of the engine's interface; `run` performs a sequence of
them.
-/

namespace Vtm.Cabac

open Vtm.Std

/-- The operations of the engine before termination. -/
inductive Op (ι : Type) where
  | bin (bin : Bool) (ctxId : ι)
  | binEP (bin : Bool)
  | binsEP (bins numBins : Nat)
  | trmZero
  | align
deriving DecidableEq, Repr

/-- The argument ranges of the interface. -/
def Op.Valid {ι : Type} : Op ι → Prop
  | .binsEP bins numBins => numBins ≤ 32 ∧ bins < 2 ^ numBins
  | _ => True

/-- An interval and the contexts the next bins will use. -/
structure Exact (ι : Type) where
  interval : Interval
  ctx : CtxStore ι

namespace Exact

variable {ι : Type} [DecidableEq ι]

/-- The state after `start()`. -/
def start (ctx : CtxStore ι) : Exact ι := ⟨⟨0, 510, 0⟩, ctx⟩

/-- Keep `range` from `offset` on and double `count` times. -/
def narrow (i : Interval) (offset range count : Nat) : Interval :=
  i.advance count (offset * 2 ^ count) (range * 2 ^ count)

/-- A bin under a context model. The more probable part comes first. -/
def codeBin (i : Interval) (m : BinProbModel) (bin : Bool) : Interval :=
  let LPS := m.getLPS i.range
  let range := i.range - LPS
  if bin ≠ m.mps then narrow i range LPS (BinProbModel.getRenormBitsLPS LPS)
  else if range < 256 then narrow i 0 range (BinProbModel.getRenormBitsRange range)
  else narrow i 0 range 0

/-- A context coded bin. -/
def encodeBin (c : Exact ι) (bin : Bool) (ctxId : ι) : Exact ι :=
  ⟨codeBin c.interval (c.ctx ctxId) bin, c.ctx.update ctxId bin⟩

/-- A bypass bin halves the interval; the doubled one has the old range. -/
def bypass (i : Interval) (bin : Bool) : Interval :=
  i.advance 1 (bin.toNat * i.range) i.range

/-- Bypass bins, most significant first. -/
def bypassBins (i : Interval) (bins : List Bool) : Interval := bins.foldl bypass i

/-- A terminating bin keeps the last two values for a one. -/
def encodeBinTrm (i : Interval) (bin : Bool) : Interval :=
  let range := i.range - 2
  if bin then narrow i range 2 7
  else if range ≥ 256 then narrow i 0 range 0
  else narrow i 0 range 1

/-- One operation. -/
def step (c : Exact ι) : Op ι → Exact ι
  | .bin bin ctxId => c.encodeBin bin ctxId
  | .binEP bin => { c with interval := bypass c.interval bin }
  | .binsEP bins numBins => { c with interval := bypassBins c.interval (toBits numBins bins) }
  | .trmZero => { c with interval := encodeBinTrm c.interval false }
  | .align => { c with interval := { c.interval with range := 256 } }

/-- A sequence of operations. -/
def run (c : Exact ι) (ops : List (Op ι)) : Exact ι := ops.foldl step c

/-- The working range between operations. -/
def Ready (i : Interval) : Prop := 256 ≤ i.range ∧ i.range ≤ 510

theorem ready_start : Ready ⟨0, 510, 0⟩ := ⟨by decide, by decide⟩

theorem within_narrow {i : Interval} {offset range : Nat} (count : Nat)
    (fits : offset + range ≤ i.range) : i.Within (narrow i offset range count) := by
  apply Interval.within_advance
  rw [← Nat.add_mul]
  exact Nat.mul_le_mul_right _ fits

theorem bypass_within (i : Interval) (bin : Bool) : i.Within (bypass i bin) := by
  apply Interval.within_advance
  cases bin <;> simp <;> omega

/-- A group of bypass bins scales by a power of two. -/
theorem bypassBins_eq (i : Interval) (bins : List Bool) :
    bypassBins i bins = i.advance bins.length (i.range * ofBits bins) i.range := by
  induction bins generalizing i with
  | nil => simp [bypassBins, Interval.advance]
  | cons bin rest ih =>
      have step : bypassBins i (bin :: rest) = bypassBins (bypass i bin) rest := rfl
      rw [step, ih, ofBits_cons, List.length_cons]
      simp only [bypass, Interval.advance, Interval.mk.injEq, true_and]
      refine ⟨?_, by omega⟩
      rw [pow_succ]
      ring

theorem bypassBins_append (i : Interval) (front back : List Bool) :
    bypassBins i (front ++ back) = bypassBins (bypassBins i front) back :=
  List.foldl_append

theorem bypassBins_within (i : Interval) (bins : List Bool) : i.Within (bypassBins i bins) := by
  rw [bypassBins_eq]
  apply Interval.within_advance
  have below := ofBits_lt bins
  calc i.range * ofBits bins + i.range = i.range * (ofBits bins + 1) := by ring
    _ ≤ i.range * 2 ^ bins.length := Nat.mul_le_mul_left _ below


/-- Either symbol leaves a part of the range that renormalises. -/
theorem codeBin_spec {i : Interval} (ready : Ready i) (m : BinProbModel) (bin : Bool) :
    i.Within (codeBin i m bin) ∧ Ready (codeBin i m bin) := by
  obtain ⟨low, high⟩ := ready
  obtain ⟨lpsLow, lpsHigh, rest⟩ := m.getLPS_bounds low high
  unfold codeBin
  simp only
  split
  · obtain ⟨scaledLow, scaledHigh, _⟩ := BinProbModel.renormLPS_bounds lpsLow lpsHigh
    exact ⟨within_narrow _ (by omega), scaledLow, scaledHigh⟩
  · split
    · refine ⟨within_narrow _ (by omega), ?_⟩
      simp only [Ready, narrow, Interval.advance, BinProbModel.getRenormBitsRange]
      omega
    · refine ⟨within_narrow _ (by omega), ?_⟩
      simp only [Ready, narrow, Interval.advance]
      omega

theorem encodeBinTrm_within {i : Interval} (ready : Ready i) (bin : Bool) :
    i.Within (encodeBinTrm i bin) := by
  obtain ⟨low, _⟩ := ready
  simp only [encodeBinTrm]
  split
  · exact within_narrow _ (by omega)
  · split <;> exact within_narrow _ (by omega)

theorem encodeBinTrm_ready {i : Interval} (ready : Ready i) (bin : Bool) :
    Ready (encodeBinTrm i bin) := by
  obtain ⟨low, high⟩ := ready
  simp only [encodeBinTrm]
  split
  · simp [Ready, narrow, Interval.advance]
  · split
    · simp only [Ready, narrow, Interval.advance]
      omega
    · simp only [Ready, narrow, Interval.advance]
      omega

/-- Every operation stays inside the interval and in the working range. -/
theorem step_spec (c : Exact ι) (ready : Ready c.interval) (op : Op ι) :
    c.interval.Within (c.step op).interval ∧ Ready (c.step op).interval := by
  cases op with
  | bin bin ctxId => exact codeBin_spec ready _ bin
  | binEP bin => exact ⟨bypass_within _ _, ready⟩
  | binsEP bins numBins =>
      refine ⟨bypassBins_within _ _, ?_⟩
      simp only [step, bypassBins_eq]
      exact ready
  | trmZero => exact ⟨encodeBinTrm_within ready false, encodeBinTrm_ready ready false⟩
  | align =>
      obtain ⟨low, high⟩ := ready
      refine ⟨⟨le_rfl, by simp [step], ?_⟩, le_rfl, by simp [step]⟩
      simp only [step]
      rw [Nat.sub_self, pow_zero, Nat.mul_one]
      omega

theorem run_spec (c : Exact ι) (ready : Ready c.interval) (ops : List (Op ι)) :
    c.interval.Within (c.run ops).interval ∧ Ready (c.run ops).interval := by
  induction ops generalizing c with
  | nil => exact ⟨Interval.Within.refl _, ready⟩
  | cons op rest ih =>
      obtain ⟨within, ready'⟩ := c.step_spec ready op
      obtain ⟨within', ready₂⟩ := ih (c.step op) ready'
      exact ⟨within.trans within', ready₂⟩

end Exact
end Vtm.Cabac
