import Vtm.Common.Quantisation
import Vtm.Quant.ScanPositions
import Mathlib.Algebra.BigOperators.Intervals
import Mathlib.Algebra.BigOperators.Ring.Finset
import Mathlib.Algebra.Order.BigOperators.Group.Finset
import Mathlib.Data.List.Find

/-!
# Sign data hiding

`xSignBitHidingHDQ` changes one level of a sub-block where the parity of its levels does not
give the sign of the first one, and leaves the parity right: `hide_spec`, `signHidden_adjusted`.
-/

namespace Vtm.SignBitHiding

open Function

/-! ## The first and the last level of a sub-block -/

section

variable (level : Nat → Int) (groupSize : Nat)

/-- The lowest scan position with a level that is not zero. -/
def IsFirst (n : Nat) : Prop := n < groupSize ∧ level n ≠ 0 ∧ ∀ k < n, level k = 0

/-- The highest scan position with a level that is not zero. -/
def IsLast (n : Nat) : Prop := n < groupSize ∧ level n ≠ 0 ∧ ∀ k, n < k → k < groupSize → level k = 0

/-- The sub-blocks whose sign is hidden. -/
def Spans : Prop :=
  ∃ first last, IsFirst level groupSize first ∧ IsLast level groupSize last ∧ first + 4 ≤ last

/-- The sum of the absolute levels. -/
def absLevels : Int := ∑ n ∈ Finset.range groupSize, |level n|

/-- The decoder finds the sign of the first level in the parity. -/
def SignHidden : Prop :=
  ∀ first last, IsFirst level groupSize first → IsLast level groupSize last → first + 4 ≤ last →
    absLevels level groupSize % 2 = if 0 < level first then 0 else 1

end

variable {level : Nat → Int} {groupSize : Nat}

theorem IsFirst.unique {m n : Nat} (first : IsFirst level groupSize m)
    (first' : IsFirst level groupSize n) : m = n := by
  obtain ⟨-, here, below⟩ := first
  obtain ⟨-, here', below'⟩ := first'
  rcases Nat.lt_trichotomy m n with less | same | more
  · exact absurd (below' m less) here
  · exact same
  · exact absurd (below n more) here'

theorem IsLast.unique {m n : Nat} (last : IsLast level groupSize m)
    (last' : IsLast level groupSize n) : m = n := by
  obtain ⟨inside, here, above⟩ := last
  obtain ⟨inside', here', above'⟩ := last'
  rcases Nat.lt_trichotomy m n with less | same | more
  · exact absurd (above n less inside') here'
  · exact same
  · exact absurd (above' m more inside) here

theorem lastNZPosInCG_spec (level : Nat → Int) (groupSize : Nat) :
    ((∀ n < groupSize, level n = 0) ∧ lastNZPosInCG level groupSize = -1) ∨
      ∃ last : Nat, IsLast level groupSize last ∧ lastNZPosInCG level groupSize = last := by
  induction groupSize with
  | zero => exact Or.inl ⟨fun n inside => absurd inside (Nat.not_lt_zero n), rfl⟩
  | succ n ih =>
      rw [lastNZPosInCG]
      by_cases here : level n = 0
      · rw [if_neg (not_not.mpr here)]
        have still {k : Nat} (inside : k < n + 1) (ne : level k ≠ 0) : k < n := by
          rcases Nat.lt_succ_iff_lt_or_eq.mp inside with less | rfl
          · exact less
          · exact absurd here ne
        rcases ih with ⟨zero, none⟩ | ⟨last, ⟨inside, ne, above⟩, found⟩
        · refine Or.inl ⟨fun k inside => ?_, none⟩
          by_contra ne
          exact ne (zero k (still inside ne))
        · refine Or.inr ⟨last, ⟨Nat.lt_succ_of_lt inside, ne, fun k more inside' => ?_⟩, found⟩
          by_contra ne'
          exact ne' (above k more (still inside' ne'))
      · rw [if_pos here]
        exact Or.inr ⟨n, ⟨Nat.lt_succ_self n, here, fun k more inside => by omega⟩, rfl⟩

theorem firstNZPosInCG_spec (level : Nat → Int) (groupSize : Nat) :
    ((∀ n < groupSize, level n = 0) ∧ firstNZPosInCG level groupSize = groupSize) ∨
      IsFirst level groupSize (firstNZPosInCG level groupSize) := by
  unfold firstNZPosInCG
  cases found : (List.range groupSize).find? fun n => level n ≠ 0 with
  | none =>
      refine Or.inl ⟨fun n inside => ?_, rfl⟩
      simpa using List.find?_eq_none.mp found n (List.mem_range.mpr inside)
  | some first =>
      obtain ⟨ne, inside, before⟩ := List.find?_range_eq_some.mp found
      exact Or.inr ⟨List.mem_range.mp inside, by simpa using ne,
        fun k less => by simpa using before k less⟩

section Congr

variable {level' : Nat → Int} (same : ∀ n < groupSize, level n = level' n)
include same

theorem isFirst_congr {n : Nat} (first : IsFirst level groupSize n) :
    IsFirst level' groupSize n := by
  obtain ⟨inside, here, below⟩ := first
  exact ⟨inside, same n inside ▸ here, fun k less => same k (less.trans inside) ▸ below k less⟩

theorem isLast_congr {n : Nat} (last : IsLast level groupSize n) : IsLast level' groupSize n := by
  obtain ⟨inside, here, above⟩ := last
  exact ⟨inside, same n inside ▸ here, fun k more inside' => same k inside' ▸ above k more inside'⟩

theorem spans_congr (spans : Spans level groupSize) : Spans level' groupSize := by
  obtain ⟨first, last, isFirst, isLast, wide⟩ := spans
  exact ⟨first, last, isFirst_congr same isFirst, isLast_congr same isLast, wide⟩

theorem signHidden_congr (hidden : SignHidden level groupSize) : SignHidden level' groupSize := by
  intro first last isFirst isLast wide
  have back : ∀ n < groupSize, level' n = level n := fun n inside => (same n inside).symm
  have parity := hidden first last (isFirst_congr back isFirst) (isLast_congr back isLast) wide
  have sums : absLevels level groupSize = absLevels level' groupSize :=
    Finset.sum_congr rfl fun n member => congrArg abs (same n (Finset.mem_range.mp member))
  rw [← sums, parity, same first isFirst.1]

end Congr

/-! ## Parities -/

/-- A parity that is wrong. -/
theorem exists_of_not_signHidden (wrong : ¬ SignHidden level groupSize) :
    ∃ first last, IsFirst level groupSize first ∧ IsLast level groupSize last ∧
      first + 4 ≤ last ∧ absLevels level groupSize % 2 ≠ if 0 < level first then 0 else 1 := by
  unfold SignHidden at wrong
  push Not at wrong
  exact wrong

theorem sum_emod_two (level : Nat → Int) (s : Finset Nat) :
    (∑ n ∈ s, level n) % 2 = (∑ n ∈ s, |level n|) % 2 := by
  induction s using Finset.induction_on with
  | empty => rfl
  | insert n s apart ih =>
      rw [Finset.sum_insert apart, Finset.sum_insert apart]
      rcases abs_cases (level n) with ⟨same, _⟩ | ⟨same, _⟩ <;> omega

/-- The sum when one level changes. -/
theorem absLevels_update (level : Nat → Int) {groupSize n : Nat} (inside : n < groupSize)
    (value : Int) : absLevels (update level n value) groupSize =
      absLevels level groupSize - |level n| + |value| := by
  have mem : n ∈ Finset.range groupSize := Finset.mem_range.mpr inside
  have rest : ∑ k ∈ (Finset.range groupSize).erase n, |update level n value k| =
      ∑ k ∈ (Finset.range groupSize).erase n, |level k| :=
    Finset.sum_congr rfl fun k other =>
      congrArg abs (update_of_ne (Finset.ne_of_mem_erase other) _ _)
  rw [absLevels, absLevels, ← Finset.add_sum_erase _ _ mem, ← Finset.add_sum_erase _ _ mem, rest,
    update_self]
  ring

/-- A change of the parity that leaves the sign of the first level. -/
theorem signHidden_update {first n : Nat} {value : Int} (inside : n < groupSize)
    (wrong : absLevels level groupSize % 2 ≠ if 0 < level first then 0 else 1)
    (odd : |value| % 2 ≠ |level n| % 2)
    (sign : ∀ first', IsFirst (update level n value) groupSize first' →
      (0 < update level n value first' ↔ 0 < level first)) :
    SignHidden (update level n value) groupSize := by
  intro first' last' isFirst _ _
  have same := sign first' isFirst
  rw [absLevels_update level inside]
  by_cases positive : 0 < level first
  · rw [if_pos positive] at wrong
    rw [if_pos (same.mpr positive)]
    omega
  · rw [if_neg positive] at wrong
    rw [if_neg fun now => positive (same.mp now)]
    omega

/-! ## The sub-block -/

/-- The levels have the signs of their coefficients. -/
def Aligned (pQCoef pCoef : Nat → Int) (p : Nat) : Prop :=
  (0 < pQCoef p → 0 ≤ pCoef p) ∧ (pQCoef p < 0 → pCoef p < 0)

/-- Inside the entropy coding range. -/
def InRange (pQCoef : Nat → Int) (p : Nat) : Prop :=
  entropyCodingMinimum ≤ pQCoef p ∧ pQCoef p ≤ entropyCodingMaximum

namespace SubBlock

variable {block : SubBlock} {pQCoef pCoef deltaU : Nat → Int}

section

variable {first last : Nat} (isFirst : IsFirst (block.level pQCoef) block.groupSize first)
  (isLast : IsLast (block.level pQCoef) block.groupSize last)

include isFirst in
theorem first_eq : block.first pQCoef = first := by
  rcases firstNZPosInCG_spec (block.level pQCoef) block.groupSize with ⟨zero, _⟩ | found
  · exact absurd (zero first isFirst.1) isFirst.2.1
  · exact found.unique isFirst

include isLast in
theorem last_eq : block.last pQCoef = last := by
  rcases lastNZPosInCG_spec (block.level pQCoef) block.groupSize with ⟨zero, _⟩ | ⟨_, found, eq⟩
  · exact absurd (zero last isLast.1) isLast.2.1
  · exact eq.trans (congrArg _ (found.unique isLast))

include isFirst in
theorem signbit_eq :
    block.signbit pQCoef = if 0 < block.level pQCoef first then 0 else 1 := by
  rw [signbit, first_eq isFirst]

include isFirst isLast in
/-- The levels outside the sum are zero. -/
theorem absSum_eq :
    block.absSum pQCoef = ∑ n ∈ Finset.range block.groupSize, block.level pQCoef n := by
  have total (ns : List Nat) (start : Int) :
      ns.foldl (fun absSum n => absSum + block.level pQCoef n) start =
        start + (ns.map (block.level pQCoef)).sum := by
    induction ns generalizing start with
    | nil => exact (add_zero start).symm
    | cons n ns ih => rw [List.foldl_cons, ih, List.map_cons, List.sum_cons, add_assoc]
  have inner (ns : List Nat) (inside : ∀ n ∈ ns, n < block.groupSize) :
      ((ns.filter fun n => first ≤ n ∧ (n : Int) ≤ last).map (block.level pQCoef)).sum =
        (ns.map (block.level pQCoef)).sum := by
    induction ns with
    | nil => rfl
    | cons n ns ih =>
        obtain ⟨here, later⟩ := List.forall_mem_cons.mp inside
        rw [List.map_cons, List.sum_cons, ← ih later, List.filter_cons]
        by_cases between : first ≤ n ∧ (n : Int) ≤ last
        · rw [if_pos (decide_eq_true between), List.map_cons, List.sum_cons]
        · have zero : block.level pQCoef n = 0 := by
            by_cases below : n < first
            · exact isFirst.2.2 n below
            · exact isLast.2.2 n (by omega) here
          rw [if_neg (by simpa using between), zero, zero_add]
  rw [absSum, first_eq isFirst, last_eq isLast, total, zero_add,
    inner _ fun n member => List.mem_range.mp member, ← List.sum_toFinset _ List.nodup_range,
    List.toFinset_range]

end

theorem hides_iff : block.hides pQCoef = true ↔ Spans (block.level pQCoef) block.groupSize := by
  unfold hides SBH_THRESHOLD
  rw [decide_eq_true_eq]
  constructor
  · intro wide
    rcases firstNZPosInCG_spec (block.level pQCoef) block.groupSize with ⟨_, none⟩ | isFirst
    · rcases lastNZPosInCG_spec (block.level pQCoef) block.groupSize with ⟨_, none'⟩ | ⟨l, isLast, eq⟩
      · rw [first, last, none, none'] at wide
        omega
      · have inside := isLast.1
        rw [first, last, none, eq] at wide
        omega
    · rcases lastNZPosInCG_spec (block.level pQCoef) block.groupSize with ⟨_, none'⟩ | ⟨l, isLast, eq⟩
      · rw [last, none'] at wide
        omega
      · refine ⟨_, l, isFirst, isLast, ?_⟩
        rw [first, last, eq] at wide
        omega
  · rintro ⟨f, l, isFirst, isLast, wide⟩
    rw [first_eq isFirst, last_eq isLast]
    omega

/-- The condition under which a level is changed. -/
theorem hides_and_mismatch_iff :
    (block.hides pQCoef = true ∧ block.mismatch pQCoef = true) ↔
      ¬ SignHidden (block.level pQCoef) block.groupSize := by
  rw [hides_iff]
  unfold mismatch
  rw [decide_eq_true_eq]
  constructor
  · rintro ⟨⟨f, l, isFirst, isLast, wide⟩, wrong⟩ hidden
    apply wrong
    rw [absSum_eq isFirst isLast, sum_emod_two, signbit_eq isFirst]
    exact (hidden f l isFirst isLast wide).symm
  · intro wrong
    unfold SignHidden at wrong
    push Not at wrong
    obtain ⟨f, l, isFirst, isLast, wide, wrong⟩ := wrong
    refine ⟨⟨f, l, isFirst, isLast, wide⟩, fun same => wrong ?_⟩
    rw [signbit_eq isFirst, absSum_eq isFirst isLast, sum_emod_two] at same
    exact same.symm

/-! ## The search for the cheapest change -/

/-- A change of a level, in the direction of its coefficient, that leaves the sign of the first
level. -/
structure Eligible (block : SubBlock) (pQCoef pCoef : Nat → Int) (n : Nat) (change : Int) : Prop where
  inside : n < block.groupSize
  change_eq : change = 1 ∨ change = -1
  shrink : change = -1 → block.level pQCoef n ≠ 0 ∧
    ¬ (n = block.first pQCoef ∧ |block.level pQCoef n| = 1)
  before : block.level pQCoef n = 0 → n < block.first pQCoef →
    ((0 ≤ pCoef (block.blockPos n)) ↔ 0 < block.level pQCoef (block.first pQCoef))

/-- What the search has found. -/
structure SearchInv (block : SubBlock) (pQCoef pCoef : Nat → Int) (s : Search) : Prop where
  cost_le : s.minCostInc ≤ maxCost
  untouched : s.minPos = none → s.minCostInc = maxCost
  found : ∀ p, s.minPos = some p →
    ∃ n, p = block.blockPos n ∧ Eligible block pQCoef pCoef n s.finalChange

/-- A candidate costs the maximum, or its change is eligible. -/
theorem candidate_spec {n : Nat} (inside : n < block.groupSize) (curChange : Int) :
    (block.candidate pQCoef pCoef deltaU n curChange).1 = maxCost ∨
      Eligible block pQCoef pCoef n (block.candidate pQCoef pCoef deltaU n curChange).2 := by
  have grows (before : block.level pQCoef n = 0 → n < block.first pQCoef →
      ((0 ≤ pCoef (block.blockPos n)) ↔ 0 < block.level pQCoef (block.first pQCoef))) :
      Eligible block pQCoef pCoef n 1 :=
    ⟨inside, Or.inl rfl, fun shrink => absurd shrink (by decide), before⟩
  unfold candidate
  dsimp only
  by_cases zero : pQCoef (block.blockPos n) = 0
  · rw [if_neg (not_not.mpr zero)]
    by_cases before : n < block.first pQCoef
    · rw [if_pos before]
      by_cases same :
          (if pCoef (block.blockPos n) ≥ 0 then 0 else 1 : Int) = block.signbit pQCoef
      · rw [if_neg (not_not.mpr same)]
        refine Or.inr (grows fun _ _ => ?_)
        rw [signbit] at same
        constructor
        · intro nonneg
          by_contra negative
          rw [if_pos nonneg, if_neg negative] at same
          exact absurd same (by decide)
        · intro positive
          by_contra negative
          rw [if_neg negative, if_pos positive] at same
          exact absurd same (by decide)
      · rw [if_pos same]
        exact Or.inl rfl
    · rw [if_neg before]
      exact Or.inr (grows fun _ before' => absurd before' before)
  · rw [if_pos zero]
    by_cases positive : deltaU (block.blockPos n) > 0
    · rw [if_pos positive]
      exact Or.inr (grows fun zero' => absurd zero' zero)
    · rw [if_neg positive]
      by_cases kept : n = block.first pQCoef ∧ |pQCoef (block.blockPos n)| = 1
      · rw [if_pos kept]
        exact Or.inl rfl
      · rw [if_neg kept]
        exact Or.inr ⟨inside, Or.inr rfl, fun _ => ⟨zero, kept⟩, fun zero' => absurd zero' zero⟩

/-- A level behind the first one is a candidate. -/
theorem candidate_cost_lt {n : Nat} (ne : block.level pQCoef n ≠ 0)
    (behind : n ≠ block.first pQCoef) (curChange : Int) :
    (block.candidate pQCoef pCoef deltaU n curChange).1 < maxCost := by
  have here : pQCoef (block.blockPos n) ≠ 0 := ne
  unfold candidate maxCost
  dsimp only
  rw [if_pos here]
  by_cases positive : deltaU (block.blockPos n) > 0
  · rw [if_pos positive]
    dsimp only
    omega
  · rw [if_neg positive, if_neg fun all => behind all.1]
    dsimp only
    omega

variable {s : Search}

theorem searchStep_inv {n : Nat} (inside : n < block.groupSize)
    (inv : SearchInv block pQCoef pCoef s) :
    SearchInv block pQCoef pCoef (block.searchStep pQCoef pCoef deltaU n s) := by
  have cost := inv.cost_le
  unfold searchStep
  dsimp only
  split
  · rename_i cheaper
    refine ⟨by dsimp only; omega, fun absent => (nomatch absent), fun p here => ?_⟩
    obtain rfl := Option.some.inj here
    refine ⟨n, rfl, ?_⟩
    rcases @candidate_spec block pQCoef pCoef deltaU n inside s.curChange with dear | eligible
    · omega
    · exact eligible
  · exact ⟨inv.cost_le, inv.untouched, inv.found⟩

theorem searchStep_isSome {n : Nat} (some : s.minPos.isSome = true) :
    (block.searchStep pQCoef pCoef deltaU n s).minPos.isSome = true := by
  unfold searchStep
  dsimp only
  split
  · rfl
  · exact some

theorem searchStep_finds {n : Nat} (inv : SearchInv block pQCoef pCoef s)
    (ne : block.level pQCoef n ≠ 0) (behind : n ≠ block.first pQCoef) :
    (block.searchStep pQCoef pCoef deltaU n s).minPos.isSome = true := by
  have cheap := @candidate_cost_lt block pQCoef pCoef deltaU n ne behind s.curChange
  cases here : s.minPos with
  | some p => exact searchStep_isSome (by rw [here]; rfl)
  | none =>
      unfold searchStep
      dsimp only
      rw [inv.untouched here, if_pos cheap]
      rfl

theorem search_inv {start : Nat} (inside : start < block.groupSize)
    (inv : SearchInv block pQCoef pCoef s) :
    SearchInv block pQCoef pCoef (block.search pQCoef pCoef deltaU start s) := by
  induction start generalizing s with
  | zero => exact searchStep_inv inside inv
  | succ n ih => exact ih (Nat.lt_of_succ_lt inside) (searchStep_inv inside inv)

theorem search_isSome {start : Nat} (some : s.minPos.isSome = true) :
    (block.search pQCoef pCoef deltaU start s).minPos.isSome = true := by
  induction start generalizing s with
  | zero => exact searchStep_isSome some
  | succ n ih => exact ih (searchStep_isSome some)

/-- The search finds a change if it passes a level behind the first one. -/
theorem search_finds {start n : Nat} (inside : start < block.groupSize) (passed : n ≤ start)
    (inv : SearchInv block pQCoef pCoef s) (ne : block.level pQCoef n ≠ 0)
    (behind : n ≠ block.first pQCoef) :
    (block.search pQCoef pCoef deltaU start s).minPos.isSome = true := by
  induction start generalizing s with
  | zero =>
      obtain rfl := Nat.le_zero.mp passed
      exact searchStep_finds inv ne behind
  | succ start ih =>
      rcases Nat.le_succ_iff.mp passed with later | rfl
      · exact ih (Nat.lt_of_succ_lt inside) later (searchStep_inv inside inv)
      · rw [search]
        exact search_isSome (searchStep_finds inv ne behind)

/-- The search does not go above its start. -/
theorem search_minPos_le {start bound : Nat} (within : start ≤ bound)
    (below : ∀ p, s.minPos = some p → ∃ n ≤ bound, p = block.blockPos n) :
    ∀ p, (block.search pQCoef pCoef deltaU start s).minPos = some p →
      ∃ n ≤ bound, p = block.blockPos n := by
  have step {n : Nat} (here : n ≤ bound) {s : Search}
      (below : ∀ p, s.minPos = some p → ∃ n ≤ bound, p = block.blockPos n) :
      ∀ p, (block.searchStep pQCoef pCoef deltaU n s).minPos = some p →
        ∃ n ≤ bound, p = block.blockPos n := by
    unfold searchStep
    dsimp only
    split
    · intro p found
      exact ⟨n, here, (Option.some.inj found).symm⟩
    · exact below
  induction start generalizing s with
  | zero => exact step within below
  | succ n ih => exact ih (Nat.le_of_succ_le within) (step within below)

/-- The level that the adjustment stores. -/
@[grind =] def adjusted (pQCoef pCoef : Nat → Int) (p : Nat) (change : Int) : Int :=
  let finalChange :=
    if pQCoef p = entropyCodingMaximum ∨ pQCoef p = entropyCodingMinimum then -1 else change
  if pCoef p ≥ 0 then pQCoef p + finalChange else pQCoef p - finalChange

/-- A sub-block is left if its parity is right or its sign is not hidden; otherwise one level
is changed. -/
theorem hide_spec (lastCG : Int) :
    (SignHidden (block.level pQCoef) block.groupSize ∧
        block.hide pQCoef pCoef deltaU lastCG = some pQCoef) ∨
      (Spans (block.level pQCoef) block.groupSize ∧
        ¬ SignHidden (block.level pQCoef) block.groupSize ∧
          ∃ n change, Eligible block pQCoef pCoef n change ∧
            block.hide pQCoef pCoef deltaU lastCG =
              some (update pQCoef (block.blockPos n)
                (adjusted pQCoef pCoef (block.blockPos n) change))) := by
  unfold hide
  by_cases hidden : SignHidden (block.level pQCoef) block.groupSize
  · exact Or.inl ⟨hidden, if_neg fun both => hides_and_mismatch_iff.mp both hidden⟩
  · have both := hides_and_mismatch_iff.mpr hidden
    have spans := hides_iff.mp both.1
    obtain ⟨first, last, isFirst, isLast, wide⟩ := id spans
    have lastInside := isLast.1
    rw [if_pos both]
    dsimp only
    set start := if lastCG = 1 then (block.last pQCoef).toNat else block.groupSize - 1
    have start_ge : last ≤ start ∧ start < block.groupSize := by
      have lastEq := last_eq isLast
      by_cases final : lastCG = 1
      · simp only [start, if_pos final, lastEq]
        omega
      · simp only [start, if_neg final]
        omega
    have inv : SearchInv block pQCoef pCoef ⟨maxCost, none, 0, 0⟩ :=
      ⟨le_rfl, fun _ => rfl, fun p here => nomatch here⟩
    have behind : last ≠ block.first pQCoef := by
      rw [first_eq isFirst]
      omega
    have finds := @search_finds block pQCoef pCoef deltaU _ start last start_ge.2 start_ge.1 inv
      isLast.2.1 behind
    obtain ⟨p, here⟩ := Option.isSome_iff_exists.mp finds
    obtain ⟨n, rfl, eligible⟩ := (search_inv start_ge.2 inv).found p here
    refine Or.inr ⟨spans, hidden, n, _, eligible, ?_⟩
    rw [adjust, here]
    rfl

/-- In the last sub-block with levels a change is not behind the last level. -/
theorem hide_last {last : Nat} (isLast : IsLast (block.level pQCoef) block.groupSize last)
    {after : Nat → Int} (hidden : block.hide pQCoef pCoef deltaU 1 = some after) {p : Nat}
    (changed : after p ≠ pQCoef p) : ∃ n ≤ last, p = block.blockPos n := by
  unfold hide at hidden
  split at hidden
  · rw [if_pos rfl, last_eq isLast, Int.toNat_natCast] at hidden
    dsimp only at hidden
    obtain ⟨minPos, found, rfl⟩ := Option.map_eq_some_iff.mp hidden
    have here : p = minPos := by
      by_contra other
      exact changed (update_of_ne other _ _)
    rw [here]
    refine search_minPos_le le_rfl ?_ minPos found
    intro p absent
    cases absent
  · obtain rfl := Option.some.inj hidden
    exact absurd rfl changed

/-! ## The changed level -/

section

variable {n : Nat} {change : Int} (eligible : Eligible block pQCoef pCoef n change)
include eligible

theorem adjusted_ne : adjusted pQCoef pCoef (block.blockPos n) change ≠
    pQCoef (block.blockPos n) := by
  have unit := eligible.change_eq
  unfold adjusted
  dsimp only
  split <;> split <;> omega

theorem abs_adjusted_sub_le : |adjusted pQCoef pCoef (block.blockPos n) change -
    pQCoef (block.blockPos n)| ≤ 1 := by
  have unit := eligible.change_eq
  rw [abs_le]
  unfold adjusted
  dsimp only
  split <;> split <;> omega

variable (aligned : Aligned pQCoef pCoef (block.blockPos n))
include aligned

/-- The magnitude grows, unless the level is at a limit or shrinks. -/
theorem adjusted_cases :
    (change = 1 ∧ pQCoef (block.blockPos n) ≠ entropyCodingMaximum ∧
        pQCoef (block.blockPos n) ≠ entropyCodingMinimum ∧
        adjusted pQCoef pCoef (block.blockPos n) change = pQCoef (block.blockPos n) +
          if pCoef (block.blockPos n) ≥ 0 then 1 else -1) ∨
      (pQCoef (block.blockPos n) ≠ 0 ∧
        ¬ (n = block.first pQCoef ∧ |pQCoef (block.blockPos n)| = 1) ∧
        adjusted pQCoef pCoef (block.blockPos n) change = pQCoef (block.blockPos n) +
          if pQCoef (block.blockPos n) > 0 then -1 else 1) := by
  obtain ⟨up, down⟩ := aligned
  unfold adjusted
  dsimp only
  by_cases limit : pQCoef (block.blockPos n) = entropyCodingMaximum ∨
      pQCoef (block.blockPos n) = entropyCodingMinimum
  · right
    have large : pQCoef (block.blockPos n) = 32767 ∨ pQCoef (block.blockPos n) = -32768 := limit
    rw [if_pos limit]
    refine ⟨by omega, fun small => ?_, ?_⟩
    · have one := small.2
      rcases large with here | here <;> rw [here] at one <;> exact absurd one (by decide)
    · split <;> split <;> omega
  · rw [if_neg limit]
    obtain ⟨notMax, notMin⟩ := not_or.mp limit
    rcases eligible.change_eq with rfl | rfl
    · refine Or.inl ⟨rfl, notMax, notMin, ?_⟩
      split <;> omega
    · obtain ⟨ne, kept⟩ := eligible.shrink rfl
      refine Or.inr ⟨ne, kept, ?_⟩
      have ne' : pQCoef (block.blockPos n) ≠ 0 := ne
      split <;> split <;> omega

theorem adjusted_parity : |adjusted pQCoef pCoef (block.blockPos n) change| % 2 ≠
    |pQCoef (block.blockPos n)| % 2 := by
  rcases adjusted_cases eligible aligned with ⟨-, -, -, eq⟩ | ⟨-, -, eq⟩
  · rcases abs_cases (adjusted pQCoef pCoef (block.blockPos n) change) with ⟨a, _⟩ | ⟨a, _⟩ <;>
      rcases abs_cases (pQCoef (block.blockPos n)) with ⟨b, _⟩ | ⟨b, _⟩ <;>
        split at eq <;> omega
  · rcases abs_cases (adjusted pQCoef pCoef (block.blockPos n) change) with ⟨a, _⟩ | ⟨a, _⟩ <;>
      rcases abs_cases (pQCoef (block.blockPos n)) with ⟨b, _⟩ | ⟨b, _⟩ <;>
        split at eq <;> omega

theorem inRange_adjusted (inRange : InRange pQCoef (block.blockPos n)) :
    entropyCodingMinimum ≤ adjusted pQCoef pCoef (block.blockPos n) change ∧
      adjusted pQCoef pCoef (block.blockPos n) change ≤ entropyCodingMaximum := by
  obtain ⟨low, high⟩ := inRange
  have minimum : entropyCodingMinimum = -32768 := rfl
  have maximum : entropyCodingMaximum = 32767 := rfl
  rcases adjusted_cases eligible aligned with ⟨-, notMax, notMin, eq⟩ | ⟨ne, -, eq⟩
  · split at eq <;> omega
  · split at eq <;> omega

/-- The sign of the first level is kept. -/
theorem first_adjusted {first first' : Nat}
    (isFirst : IsFirst (block.level pQCoef) block.groupSize first)
    (isFirst' : IsFirst (update (block.level pQCoef) n
      (adjusted pQCoef pCoef (block.blockPos n) change)) block.groupSize first') :
    0 < update (block.level pQCoef) n
        (adjusted pQCoef pCoef (block.blockPos n) change) first' ↔
      0 < block.level pQCoef first := by
  set value := adjusted pQCoef pCoef (block.blockPos n) change with value_eq
  have firstEq := first_eq isFirst
  rcases Nat.lt_trichotomy n first with earlier | rfl | later
  · -- a zero before the first level gets the sign of that level
    have zero : pQCoef (block.blockPos n) = 0 := isFirst.2.2 n earlier
    have sign := eligible.before zero (firstEq ▸ earlier)
    rw [firstEq] at sign
    have unit : value = if pCoef (block.blockPos n) ≥ 0 then 1 else -1 := by
      rcases adjusted_cases eligible aligned with ⟨-, -, -, eq⟩ | ⟨ne, -, -⟩
      · rw [value_eq, eq, zero, zero_add]
      · exact absurd zero ne
    have isFirst'' : IsFirst (update (block.level pQCoef) n value) block.groupSize n := by
      refine ⟨eligible.inside, ?_, fun k less => ?_⟩
      · rw [update_self, unit]
        split <;> decide
      · rw [update_of_ne (Nat.ne_of_lt less)]
        exact isFirst.2.2 k (less.trans earlier)
    obtain rfl := isFirst'.unique isFirst''
    rw [update_self, unit, ← sign]
    split <;> simp_all
  · -- the first level keeps its sign
    have ne : pQCoef (block.blockPos n) ≠ 0 := isFirst.2.1
    have sign : value ≠ 0 ∧ (0 < value ↔ 0 < pQCoef (block.blockPos n)) := by
      obtain ⟨up, down⟩ := aligned
      rcases adjusted_cases eligible ⟨up, down⟩ with ⟨-, -, -, eq⟩ | ⟨-, kept, eq⟩
      · split at eq <;> omega
      · have large : |pQCoef (block.blockPos n)| ≠ 1 := fun one => kept ⟨firstEq.symm, one⟩
        rcases abs_cases (pQCoef (block.blockPos n)) with ⟨a, _⟩ | ⟨a, _⟩ <;>
          split at eq <;> omega
    have isFirst'' : IsFirst (update (block.level pQCoef) n value) block.groupSize n := by
      refine ⟨eligible.inside, ?_, fun k less => ?_⟩
      · rw [update_self]
        exact sign.1
      · rw [update_of_ne (Nat.ne_of_lt less)]
        exact isFirst.2.2 k less
    obtain rfl := isFirst'.unique isFirst''
    rw [update_self]
    exact sign.2
  · have isFirst'' :
        IsFirst (update (block.level pQCoef) n value) block.groupSize first := by
      refine ⟨isFirst.1, ?_, fun k less => ?_⟩
      · rw [update_of_ne (Nat.ne_of_lt later)]
        exact isFirst.2.1
      · rw [update_of_ne (Nat.ne_of_lt (less.trans later))]
        exact isFirst.2.2 k less
    obtain rfl := isFirst'.unique isFirst''
    rw [update_of_ne (Nat.ne_of_lt later)]

end

/-! ## What the loop makes of a sub-block -/

/-- The levels of a sub-block before and behind the loop: left if the parity is right or the
sign is not hidden, and otherwise with one level adjusted. -/
def Treated (block : SubBlock) (pCoef before after : Nat → Int) : Prop :=
  (SignHidden (block.level before) block.groupSize ∧
      ∀ m < block.groupSize, block.level after m = block.level before m) ∨
    (Spans (block.level before) block.groupSize ∧
      ¬ SignHidden (block.level before) block.groupSize ∧
        ∃ n change, Eligible block before pCoef n change ∧ ∀ m < block.groupSize,
          block.level after m = update (block.level before) n
            (adjusted before pCoef (block.blockPos n) change) m)

/-- The samples of a sub-block are apart. -/
def Distinct (block : SubBlock) : Prop :=
  ∀ m < block.groupSize, ∀ n < block.groupSize, block.blockPos m = block.blockPos n → m = n

section Treated

variable {before after : Nat → Int}

theorem level_update (distinct : block.Distinct) {n : Nat} (inside : n < block.groupSize)
    (value : Int) {m : Nat} (inside' : m < block.groupSize) :
    block.level (update before (block.blockPos n) value) m =
      update (block.level before) n value m := by
  by_cases here : m = n
  · subst here
    rw [update_self, level, update_self]
  · rw [update_of_ne here, level, level,
      update_of_ne fun same => here (distinct m inside' n inside same)]

theorem first_congr {before' : Nat → Int}
    (same : ∀ n < block.groupSize, block.level before n = block.level before' n) :
    block.first before = block.first before' := by
  have found : ((List.range block.groupSize).find? fun n => block.level before n ≠ 0) =
      (List.range block.groupSize).find? fun n => block.level before' n ≠ 0 :=
    List.find?_congr fun n member => by rw [same n (List.mem_range.mp member)]
  rw [first, first, firstNZPosInCG, firstNZPosInCG, found]

theorem eligible_congr {before' : Nat → Int}
    (same : ∀ n < block.groupSize, block.level before n = block.level before' n) {n : Nat}
    {change : Int} (spans : Spans (block.level before) block.groupSize)
    (eligible : Eligible block before pCoef n change) :
    Eligible block before' pCoef n change := by
  obtain ⟨first, last, isFirst, -, -⟩ := spans
  have here := same n eligible.inside
  have firstEq := first_congr same
  have atFirst := same (block.first before) (by rw [first_eq isFirst]; exact isFirst.1)
  refine ⟨eligible.inside, eligible.change_eq, ?_, ?_⟩
  · rw [← here, ← firstEq]
    exact eligible.shrink
  · rw [← here, ← firstEq, ← atFirst]
    exact eligible.before

theorem treated_congr {before' : Nat → Int}
    (same : ∀ n < block.groupSize, block.level before n = block.level before' n)
    (treated : block.Treated pCoef before after) : block.Treated pCoef before' after := by
  rcases treated with ⟨hidden, left⟩ | ⟨spans, wrong, n, change, eligible, changed⟩
  · exact Or.inl ⟨signHidden_congr same hidden,
      fun m inside => (left m inside).trans (same m inside)⟩
  · have back : ∀ n < block.groupSize, block.level before' n = block.level before n :=
      fun n inside => (same n inside).symm
    refine Or.inr ⟨spans_congr same spans, fun hidden => wrong (signHidden_congr back hidden),
      n, change, eligible_congr same spans eligible, fun m inside => ?_⟩
    have value : adjusted before pCoef (block.blockPos n) change =
        adjusted before' pCoef (block.blockPos n) change := by
      have here : before (block.blockPos n) = before' (block.blockPos n) := same n eligible.inside
      unfold adjusted
      rw [here]
    rw [changed m inside, value]
    by_cases here : m = n
    · rw [here, update_self, update_self]
    · rw [update_of_ne here, update_of_ne here, same m inside]

/-- The loop leaves a sub-block exactly if nothing is wrong with its parity. -/
theorem treated_unchanged_iff (treated : block.Treated pCoef before after) :
    (∀ m < block.groupSize, block.level after m = block.level before m) ↔
      SignHidden (block.level before) block.groupSize := by
  rcases treated with ⟨hidden, left⟩ | ⟨-, wrong, n, change, eligible, changed⟩
  · exact ⟨fun _ => hidden, fun _ => left⟩
  · constructor
    · intro same
      have here := (changed n eligible.inside).symm.trans (same n eligible.inside)
      rw [update_self] at here
      exact absurd here (adjusted_ne eligible)
    · exact fun hidden => absurd hidden wrong

variable (treated : block.Treated pCoef before after)
include treated

theorem treated_le {m : Nat} (inside : m < block.groupSize) :
    |block.level after m - block.level before m| ≤ 1 := by
  rcases treated with ⟨-, left⟩ | ⟨-, -, n, change, eligible, changed⟩
  · rw [left m inside, sub_self, abs_zero]
    exact zero_le_one
  · rw [changed m inside]
    by_cases here : m = n
    · subst here
      rw [update_self]
      exact abs_adjusted_sub_le eligible
    · rw [update_of_ne here, sub_self, abs_zero]
      exact zero_le_one

theorem treated_spans {m : Nat} (inside : m < block.groupSize)
    (changed : block.level after m ≠ block.level before m) :
    Spans (block.level before) block.groupSize := by
  rcases treated with ⟨-, left⟩ | ⟨spans, -⟩
  · exact absurd (left m inside) changed
  · exact spans

variable (aligned : ∀ m < block.groupSize, Aligned before pCoef (block.blockPos m))
include aligned

theorem treated_signHidden : SignHidden (block.level after) block.groupSize := by
  rcases treated with ⟨hidden, left⟩ | ⟨-, wrong, n, change, eligible, changed⟩
  · exact signHidden_congr (fun m inside => (left m inside).symm) hidden
  · obtain ⟨first, last, isFirst, isLast, wide, parity⟩ := exists_of_not_signHidden wrong
    have here := aligned n eligible.inside
    exact signHidden_congr (fun m inside => (changed m inside).symm)
      (signHidden_update eligible.inside parity (adjusted_parity eligible here)
        fun first' isFirst' => first_adjusted eligible here isFirst isFirst')

theorem treated_inRange {m : Nat} (inside : m < block.groupSize)
    (inRange : InRange before (block.blockPos m)) : InRange after (block.blockPos m) := by
  rcases treated with ⟨-, left⟩ | ⟨-, -, n, change, eligible, changed⟩
  · have same : after (block.blockPos m) = before (block.blockPos m) := left m inside
    unfold InRange
    rw [same]
    exact inRange
  · have here : after (block.blockPos m) = _ := changed m inside
    unfold InRange
    rw [here]
    by_cases self : m = n
    · subst self
      rw [update_self]
      exact inRange_adjusted eligible (aligned m inside) inRange
    · rw [update_of_ne self]
      exact inRange

end Treated

end SubBlock

/-! ## The loop over the sub-blocks -/

/-- The sub-blocks are apart, except for those without levels. -/
structure Separated (blocks : Nat → SubBlock) (count : Nat) (pQCoef : Nat → Int) : Prop where
  distinct : ∀ a < count, (∀ n < (blocks a).groupSize, (blocks a).level pQCoef n = 0) ∨
    (blocks a).Distinct
  apart : ∀ a < count, ∀ b < count, a ≠ b →
    (∀ n < (blocks a).groupSize, ∀ m < (blocks b).groupSize,
      (blocks a).blockPos n ≠ (blocks b).blockPos m) ∨
    ((∀ n < (blocks a).groupSize, (blocks a).level pQCoef n = 0) ∧
      ∀ m < (blocks b).groupSize, (blocks b).level pQCoef m = 0)

theorem not_spans_of_zero (zero : ∀ n < groupSize, level n = 0) : ¬ Spans level groupSize := by
  rintro ⟨first, _, isFirst, -, -⟩
  exact isFirst.2.1 (zero first isFirst.1)

section Loop

variable {blocks : Nat → SubBlock} {pCoef deltaU : Nat → Int}

theorem Separated.of_succ {count : Nat} {pQCoef : Nat → Int}
    (separated : Separated blocks (count + 1) pQCoef) : Separated blocks count pQCoef :=
  ⟨fun a inside => separated.distinct a (Nat.lt_succ_of_lt inside),
    fun a insideA b insideB => separated.apart a (Nat.lt_succ_of_lt insideA) b
      (Nat.lt_succ_of_lt insideB)⟩

theorem Separated.congr {count : Nat} {pQCoef pQCoef' : Nat → Int}
    (separated : Separated blocks count pQCoef)
    (same : ∀ a < count, ∀ n < (blocks a).groupSize,
      (blocks a).level pQCoef' n = (blocks a).level pQCoef n) :
    Separated blocks count pQCoef' := by
  have zero {a : Nat} (inside : a < count)
      (dead : ∀ n < (blocks a).groupSize, (blocks a).level pQCoef n = 0) :
      ∀ n < (blocks a).groupSize, (blocks a).level pQCoef' n = 0 :=
    fun n inside' => (same a inside n inside').trans (dead n inside')
  refine ⟨fun a inside => (separated.distinct a inside).imp_left (zero inside),
    fun a insideA b insideB other => ?_⟩
  rcases separated.apart a insideA b insideB other with apart | ⟨deadA, deadB⟩
  · exact Or.inl apart
  · exact Or.inr ⟨zero insideA deadA, zero insideB deadB⟩

/-- Each sub-block is treated once, and the samples outside are left. -/
theorem hideSubSets_spec {count : Nat} {pQCoef : Nat → Int}
    (separated : Separated blocks count pQCoef) (lastCG : Int) :
    ∃ after, hideSubSets blocks pCoef deltaU count lastCG pQCoef = some after ∧
      (∀ p, (∀ a < count, ∀ n < (blocks a).groupSize, p ≠ (blocks a).blockPos n) →
        after p = pQCoef p) ∧
      ∀ a < count, (blocks a).Treated pCoef pQCoef after := by
  induction count generalizing pQCoef lastCG with
  | zero => exact ⟨pQCoef, rfl, fun _ _ => rfl, fun a inside => absurd inside (Nat.not_lt_zero a)⟩
  | succ count ih =>
      have last : count < count + 1 := Nat.lt_succ_self count
      rw [hideSubSets]
      generalize (if (blocks count).last pQCoef ≥ 0 ∧ lastCG = -1 then (1 : Int) else lastCG) =
        lastCG'
      rcases @SubBlock.hide_spec (blocks count) pQCoef pCoef deltaU lastCG' with
        ⟨hidden, left⟩ | ⟨spans, wrong, n, change, eligible, changed⟩
      · obtain ⟨after, run, frame, treated⟩ := ih separated.of_succ (if lastCG' = 1 then 0 else lastCG')
        refine ⟨after, by rw [left]; exact run, fun p outside => ?_, fun a inside => ?_⟩
        · exact frame p fun a inside => outside a (Nat.lt_succ_of_lt inside)
        · rcases Nat.lt_succ_iff_lt_or_eq.mp inside with less | rfl
          · exact treated a less
          · refine Or.inl ⟨hidden, fun m insideM => ?_⟩
            by_cases shared : ∃ b < a, ∃ k < (blocks b).groupSize,
                (blocks a).blockPos m = (blocks b).blockPos k
            · -- an overlap has no levels and is left
              obtain ⟨b, less, k, insideK, same⟩ := shared
              rcases separated.apart a last b (Nat.lt_succ_of_lt less) (Nat.ne_of_gt less) with
                apart | ⟨-, dead⟩
              · exact absurd same (apart m insideM k insideK)
              · rcases treated b less with ⟨-, leftB⟩ | ⟨spansB, -⟩
                · have kept := leftB k insideK
                  rwa [SubBlock.level, SubBlock.level, ← same] at kept
                · exact absurd spansB (not_spans_of_zero dead)
            · exact frame _ fun b less k insideK same => shared ⟨b, less, k, insideK, same⟩
      · have alive : ¬ ∀ k < (blocks count).groupSize, (blocks count).level pQCoef k = 0 :=
          fun dead => not_spans_of_zero dead spans
        have distinct := (separated.distinct count last).resolve_left alive
        have apart {a : Nat} (less : a < count) {m k : Nat} (insideM : m < (blocks a).groupSize)
            (insideK : k < (blocks count).groupSize) :
            (blocks a).blockPos m ≠ (blocks count).blockPos k := by
          rcases separated.apart a (Nat.lt_succ_of_lt less) count last (Nat.ne_of_lt less) with
            apart | ⟨-, dead⟩
          · exact apart m insideM k insideK
          · exact absurd dead alive
        set pQCoef' := update pQCoef ((blocks count).blockPos n)
          (SubBlock.adjusted pQCoef pCoef ((blocks count).blockPos n) change)
        have same : ∀ a < count, ∀ m < (blocks a).groupSize,
            (blocks a).level pQCoef' m = (blocks a).level pQCoef m := fun a less m insideM =>
          update_of_ne (apart less insideM eligible.inside) _ _
        obtain ⟨after, run, frame, treated⟩ := ih (separated.of_succ.congr same) (if lastCG' = 1 then 0 else lastCG')
        refine ⟨after, by rw [changed]; exact run, fun p outside => ?_, fun a inside => ?_⟩
        · refine (frame p fun a inside => outside a (Nat.lt_succ_of_lt inside)).trans ?_
          exact update_of_ne (outside count last n eligible.inside) _ _
        · rcases Nat.lt_succ_iff_lt_or_eq.mp inside with less | rfl
          · exact SubBlock.treated_congr (same a less) (treated a less)
          · refine Or.inr ⟨spans, wrong, n, change, eligible, fun m insideM => ?_⟩
            have here : (blocks a).level after m = (blocks a).level pQCoef' m :=
              frame _ fun b less k insideK same => apart less insideK insideM same.symm
            rw [here]
            exact SubBlock.level_update distinct eligible.inside _ insideM

/-- Sub-blocks without levels are passed. -/
theorem hideSubSets_pass {count : Nat} {pQCoef : Nat → Int}
    (zero : ∀ a < count, ∀ n < (blocks (a + 1)).groupSize, (blocks (a + 1)).level pQCoef n = 0) :
    hideSubSets blocks pCoef deltaU (count + 1) (-1) pQCoef =
      hideSubSets blocks pCoef deltaU 1 (-1) pQCoef := by
  induction count with
  | zero => rfl
  | succ count ih =>
      have dead := zero count (Nat.lt_succ_self count)
      have none : (blocks (count + 1)).last pQCoef = -1 := by
        rcases lastNZPosInCG_spec ((blocks (count + 1)).level pQCoef)
          (blocks (count + 1)).groupSize with ⟨-, none⟩ | ⟨last, isLast, -⟩
        · exact none
        · exact absurd (dead last isLast.1) isLast.2.1
      have left : (blocks (count + 1)).hide pQCoef pCoef deltaU (-1) = some pQCoef := by
        rcases @SubBlock.hide_spec (blocks (count + 1)) pQCoef pCoef deltaU (-1) with
          ⟨-, left⟩ | ⟨spans, -⟩
        · exact left
        · exact absurd spans (not_spans_of_zero dead)
      rw [hideSubSets]
      simp only [none, ge_iff_le, Int.reduceLE, false_and, if_false, left]
      exact ih fun a inside => zero a (Nat.lt_succ_of_lt inside)

/-- If only the first sub-block has levels, a change is not behind the last one. -/
theorem hideSubSets_changed {count : Nat} {pQCoef after : Nat → Int}
    (zero : ∀ a < count, ∀ n < (blocks (a + 1)).groupSize, (blocks (a + 1)).level pQCoef n = 0)
    (hidden : hideSubSets blocks pCoef deltaU (count + 1) (-1) pQCoef = some after) {p : Nat}
    (changed : after p ≠ pQCoef p) :
    ∃ last, IsLast ((blocks 0).level pQCoef) (blocks 0).groupSize last ∧
      ∃ n ≤ last, p = (blocks 0).blockPos n := by
  rw [hideSubSets_pass zero, hideSubSets] at hidden
  obtain ⟨pQCoef', first, rest⟩ := Option.bind_eq_some_iff.mp hidden
  obtain rfl : pQCoef' = after := Option.some.inj rest
  rcases lastNZPosInCG_spec ((blocks 0).level pQCoef) (blocks 0).groupSize with
    ⟨dead, -⟩ | ⟨last, isLast, -⟩
  · -- nothing to change
    rcases @SubBlock.hide_spec (blocks 0) pQCoef pCoef deltaU
      (if (blocks 0).last pQCoef ≥ 0 ∧ (-1 : Int) = -1 then 1 else -1) with ⟨-, left⟩ | ⟨spans, -⟩
    · rw [left] at first
      obtain rfl := Option.some.inj first
      exact absurd rfl changed
    · exact absurd spans (not_spans_of_zero dead)
  · have some : (blocks 0).last pQCoef = last := SubBlock.last_eq isLast
    rw [if_pos ⟨by omega, rfl⟩] at first
    exact ⟨last, isLast, SubBlock.hide_last isLast first changed⟩

end Loop

end Vtm.SignBitHiding
