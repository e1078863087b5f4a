import Vtm.Partition.Nesting

/-!
# Visits of a split

The steps a caller takes inside of an open split, and the partitioners a caller can
reach from a coding tree unit. Each split is left as it was found.
-/

namespace Vtm.Partitioner

/-- The questions that may be asked about the current area. -/
inductive Asks : Partitioner → Partitioner → Prop
  | getImplicitSplit {p q : Partitioner} {cs : PartitionParams} {split : PartSplit}
      (answer : p.getImplicitSplit cs = .ok (split, q)) : Asks p q
  | isSplitImplicit {p q : Partitioner} {cs : PartitionParams} {kind : PartSplit} {is : Bool}
      (answer : p.isSplitImplicit cs kind = .ok (is, q)) : Asks p q
  | canSplitAll {p q : Partitioner} {cs : PartitionParams} {can : CanSplit}
      (answer : p.canSplitAll cs = .ok (can, q)) : Asks p q
  | canSplit {p q : Partitioner} {cs : PartitionParams} {kind : PartSplit} {may : Bool}
      (answer : p.canSplit cs kind = .ok (may, q)) : Asks p q

/-- What is done inside of a split before it is left: parts, questions, other modes and
splits that are left again. -/
inductive Visits : Partitioner → Partitioner → Prop
  | stay (q : Partitioner) : Visits q q
  | next {q r s : Partitioner} {cs : PartitionParams} {more : Bool} (visits : Visits q r)
      (small : r.back.idx + 1 < 2 ^ 32) (run : r.nextPart cs false = .ok (more, s)) : Visits q s
  | ask {q r s : Partitioner} (visits : Visits q r) (asks : Asks r s) : Visits q s
  | turn {q r : Partitioner} (visits : Visits q r) (chType : ChannelType) (treeType : TreeType)
      (modeType : ModeType) : Visits q (r.turn chType treeType modeType)
  | nested {q r s t u : Partitioner} {cs : PartitionParams} {kind : PartSplit}
      (visits : Visits q r) (may : r.Permits cs kind) (apart : r.Apart kind)
      (enter : r.splitCurrArea cs kind = .ok s) (inside : Visits s t)
      (leave : t.exitCurrSplit = .ok u) : Visits q u

/-- The partitioners a caller can have. -/
inductive Reachable : Partitioner → Prop
  | ctu (ctuArea : UnitArea) (chType : ChannelType) : Reachable (initCtu ctuArea chType)
  | next {p q : Partitioner} {cs : PartitionParams} {autoPop more : Bool} (before : Reachable p)
      (small : p.back.idx + 1 < 2 ^ 32) (run : p.nextPart cs autoPop = .ok (more, q)) :
      Reachable q
  | ask {p q : Partitioner} (before : Reachable p) (asks : Asks p q) : Reachable q
  | turn {p : Partitioner} (before : Reachable p) (chType : ChannelType) (treeType : TreeType)
      (modeType : ModeType) : Reachable (p.turn chType treeType modeType)
  | split {p q : Partitioner} {cs : PartitionParams} {kind : PartSplit} (before : Reachable p)
      (may : p.Permits cs kind) (apart : p.Apart kind) (run : p.splitCurrArea cs kind = .ok q) :
      Reachable q
  | exit {p q : Partitioner} (before : Reachable p) (run : p.exitCurrSplit = .ok q) : Reachable q

section

variable {kind : PartSplit} {p q r : Partitioner}

theorem Asks.implicit (asks : Asks p q) :
    ∃ cs, p.getImplicitSplit cs = .ok (q.back.implicitSplit, q) := by
  cases asks with
  | @getImplicitSplit cs _ answer =>
    obtain ⟨-, -, rfl, -⟩ := getImplicitSplit_spec answer
    exact ⟨cs, answer⟩
  | @isSplitImplicit cs _ _ answer =>
    obtain ⟨⟨split, r⟩, answer, result⟩ := bind_eq_ok_iff.mp answer
    cases result
    obtain ⟨-, -, rfl, -⟩ := getImplicitSplit_spec answer
    exact ⟨cs, answer⟩
  | @canSplitAll cs _ answer =>
    obtain ⟨_, -, answer, -⟩ := canSplitAll_spec answer
    exact ⟨cs, answer⟩
  | @canSplit cs _ _ answer =>
    obtain ⟨_, -, -, answer⟩ := canSplit_spec answer
    exact ⟨cs, answer⟩

/-- A question leaves all but the cached answer as it is. -/
theorem Asks.keeps (asks : Asks p q) : SameButCache p q ∧ (p.CacheSound → q.CacheSound) := by
  obtain ⟨_, answer⟩ := asks.implicit
  obtain ⟨-, same, -, sound, -⟩ := getImplicitSplit_spec answer
  exact ⟨same, sound⟩

theorem Good.ask (good : p.Good) (asks : Asks p q) : q.Good :=
  good.of_sameButCache asks.keeps.1 (asks.keeps.2 good.sound)

/-- Whatever is done inside of a split, it stays open. -/
theorem Opened.visits (visits : Visits q r) :
    ∀ {kind : PartSplit} {p : Partitioner}, Opened kind p q → q.Good →
      Opened kind p r ∧ r.Good := by
  induction visits with
  | stay q => exact fun opened good => ⟨opened, good⟩
  | next _ small run ih =>
    intro kind p opened good
    obtain ⟨opened, -⟩ := ih opened good
    exact ⟨opened.next small run, nextPart_good run⟩
  | ask _ asks ih =>
    intro kind p opened good
    obtain ⟨opened, good⟩ := ih opened good
    exact ⟨opened.of_sameButCache asks.keeps.1, good.ask asks⟩
  | turn _ chType treeType modeType ih =>
    intro kind p opened good
    obtain ⟨opened, good⟩ := ih opened good
    exact ⟨opened.turn chType treeType modeType, good.turn chType treeType modeType⟩
  | nested _ may apart enter _ leave outer inner =>
    intro kind p opened good
    obtain ⟨opened, good⟩ := outer opened good
    obtain ⟨r, question, nested, inside⟩ := opened_of_split good may apart enter
    have asks : Asks _ r := .getImplicitSplit question
    have left := (inner nested inside).1.exitCurrSplit_eq
    rw [leave] at left
    cases left
    exact ⟨(opened.of_sameButCache asks.keeps.1).turn _ _ _, (good.ask asks).turn _ _ _⟩

/-! ## Reachable partitioners -/

/-- The stack is a chain of open splits. -/
inductive Chained : Partitioner → Prop
  | root {p : Partitioner} (bottom : p.below = []) : Chained p
  | inside {kind : PartSplit} {p q : Partitioner} (outer : Chained p) (opened : Opened kind p q) :
      Chained q

theorem Chained.of_sameButCache (chained : Chained p) (same : SameButCache p q) : Chained q := by
  cases chained with
  | root bottom =>
    obtain ⟨_, _, _, rfl⟩ := same
    exact .root bottom
  | inside outer opened => exact .inside outer (opened.of_sameButCache same)

theorem Chained.turn (chained : Chained p) (chType : ChannelType) (treeType : TreeType)
    (modeType : ModeType) : Chained (p.turn chType treeType modeType) := by
  cases chained with
  | root bottom => exact .root bottom
  | inside outer opened => exact .inside outer (opened.turn chType treeType modeType)

theorem Chained.next {cs : PartitionParams} {more : Bool} (chained : Chained p)
    (small : p.back.idx + 1 < 2 ^ 32) (run : p.nextPart cs false = .ok (more, q)) :
    Chained q := by
  cases chained with
  | root bottom => exact .root ((nextPart_below run).trans bottom)
  | inside outer opened => exact .inside outer (opened.next small run)

theorem Chained.exit (chained : Chained p) (run : p.exitCurrSplit = .ok q) :
    Chained q ∧ q.Good := by
  cases chained with
  | root bottom =>
    obtain ⟨r, popped, -⟩ := bind_eq_ok_iff.mp run
    unfold popLevel at popped
    rw [bottom] at popped
    cases popped
  | inside outer opened =>
    have left := opened.exitCurrSplit_eq
    rw [run] at left
    cases left
    exact ⟨outer.turn _ _ _, opened.good.turn _ _ _⟩

/-- With `autoPop`, the split is left behind its last part. -/
theorem nextPart_autoPop {cs : PartitionParams} {more : Bool}
    (run : p.nextPart cs true = .ok (more, q)) :
    p.nextPart cs false = .ok (more, q) ∨
      ∃ r, p.nextPart cs false = .ok (false, r) ∧ r.exitCurrSplit = .ok q := by
  obtain ⟨level, next, run⟩ := bind_eq_ok_iff.mp run
  change (if level.idx < level.parts.length then _ else _) = _ at run
  split at run
  · next inside =>
    refine .inl (bind_eq_ok_iff.mpr ⟨level, next, ?_⟩)
    show (if level.idx < level.parts.length then _ else _) = _
    rw [if_pos inside]
    exact run
  · next outside =>
    obtain ⟨r, left, run⟩ := bind_eq_ok_iff.mp run
    cases run
    refine .inr ⟨_, bind_eq_ok_iff.mpr ⟨level, next, ?_⟩, left⟩
    show (if level.idx < level.parts.length then _ else _) = _
    rw [if_neg outside]
    rfl

theorem initCtu_good (ctuArea : UnitArea) (chType : ChannelType) :
    (initCtu ctuArea chType).Good := by
  refine ⟨?_, fun asked => Bool.noConfusion asked⟩
  intro area current
  cases current
  exact ⟨fun _ => rfl, fun _ => rfl⟩

theorem Reachable.chained (reachable : Reachable p) : Chained p ∧ p.Good := by
  induction reachable with
  | ctu ctuArea chType => exact ⟨.root rfl, initCtu_good ctuArea chType⟩
  | @next _ _ _ autoPop _ _ small run ih =>
    cases autoPop with
    | false => exact ⟨ih.1.next small run, nextPart_good run⟩
    | true =>
      obtain stays | ⟨r, behind, left⟩ := nextPart_autoPop run
      · exact ⟨ih.1.next small stays, nextPart_good stays⟩
      · exact (ih.1.next small behind).exit left
  | ask _ asks ih => exact ⟨ih.1.of_sameButCache asks.keeps.1, ih.2.ask asks⟩
  | turn _ chType treeType modeType ih =>
    exact ⟨ih.1.turn chType treeType modeType, ih.2.turn chType treeType modeType⟩
  | split _ may apart run ih =>
    obtain ⟨r, question, opened, good⟩ := opened_of_split ih.2 may apart run
    have asks : Asks _ r := .getImplicitSplit question
    exact ⟨.inside (ih.1.of_sameButCache asks.keeps.1) opened, good⟩
  | exit _ run ih => exact ih.1.exit run

/-! ## Balance -/

/-- `s` has the counters, the positions and the stack of `p`, which only may have
learnt its implicit split. -/
structure Restored (p s : Partitioner) : Prop where
  depth : s.currDepth = p.currDepth
  qtDepth : s.currQtDepth = p.currQtDepth
  btDepth : s.currBtDepth = p.currBtDepth
  mtDepth : s.currMtDepth = p.currMtDepth
  subdiv : s.currSubdiv = p.currSubdiv
  implicitBtDepth : s.currImplicitBtDepth = p.currImplicitBtDepth
  trDepth : s.currTrDepth = p.currTrDepth
  qgPos : s.currQgPos = p.currQgPos
  qgChromaPos : s.currQgChromaPos = p.currQgChromaPos
  below : s.below = p.below
  back : ∃ checkd isImplicit implicitSplit, s.back = { p.back with
    checkdIfImplicit := checkd, isImplicit, implicitSplit }
  stack : p.Asked → s.partStack = p.partStack

/-- A split is left as it was found, whatever was done inside and behind whichever part. -/
theorem exitCurrSplit_restores {cs : PartitionParams} (reachable : Reachable p)
    (may : p.Permits cs kind) (apart : p.Apart kind) (enter : p.splitCurrArea cs kind = .ok q)
    (visits : Visits q r) : ∃ s, r.exitCurrSplit = .ok s ∧ Restored p s := by
  obtain ⟨asked, question, opened, good⟩ :=
    opened_of_split reachable.chained.2 may apart enter
  obtain ⟨opened, -⟩ := Opened.visits visits opened good
  obtain ⟨-, same, -, -, known⟩ := getImplicitSplit_spec question
  have stack (before : p.Asked) : asked.partStack = p.partStack := by rw [known before]
  refine ⟨_, opened.exitCurrSplit_eq, ?_⟩
  obtain ⟨_, _, _, rfl⟩ := same
  exact ⟨rfl, rfl, rfl, rfl, rfl, rfl, rfl, rfl, rfl, rfl, ⟨_, _, _, rfl⟩, stack⟩

end

/-! ## A coding tree unit of 128 samples -/

/-- Limits of a picture of 256 x 256 samples. -/
def wideLimits : PartitionParams where
  maxBtDepth _ := 3
  maxBtSize _ := 128
  minBtSize _ := 4
  maxTtSize _ := 64
  minTtSize _ := 4
  minQtSize _ := 8
  maxTbSize := 64
  isDualITree := false
  pictureY := ⟨⟨0, 0⟩, 256, 256⟩
  cuQpDeltaSubdiv := 0
  cuChromaQpOffsetSubdiv := 0
  getCU _ _ := none

def wideCtu : Partitioner :=
  initCtu ⟨[⟨⟨0, 0⟩, 128, 128⟩, ⟨⟨0, 0⟩, 64, 64⟩, ⟨⟨0, 0⟩, 64, 64⟩]⟩ .CHANNEL_TYPE_LUMA

theorem wideCtu_reachable : Reachable wideCtu := .ctu _ _

/-- A ternary split of the first quarter is left at its middle part. -/
theorem exitCurrSplit_restores_ternary :
    ∃ p q r s, wideCtu.splitCurrArea wideLimits .CU_QUAD_SPLIT = .ok p ∧
      p.splitCurrArea wideLimits .CU_TRIH_SPLIT = .ok q ∧
      q.nextPart wideLimits false = .ok (true, r) ∧ r.exitCurrSplit = .ok s ∧ Restored p s := by
  have run : ∃ p q r, wideCtu.splitCurrArea wideLimits .CU_QUAD_SPLIT = .ok p ∧
      p.Permits wideLimits .CU_TRIH_SPLIT ∧ p.currTrDepth = 0 ∧
      p.splitCurrArea wideLimits .CU_TRIH_SPLIT = .ok q ∧ q.back.idx = 0 ∧
      q.nextPart wideLimits false = .ok (true, r) :=
    ⟨_, _, _, rfl, ⟨_, rfl⟩, rfl, rfl, rfl, rfl⟩
  obtain ⟨p, q, r, quad, may, apart, ternary, first, next⟩ := run
  have quarter : Reachable p := .split wideCtu_reachable ⟨_, rfl⟩ (fun _ => rfl) quad
  have visits : Visits q r := .next (.stay q) (by rw [first]; decide) next
  obtain ⟨s, left, restored⟩ :=
    exitCurrSplit_restores quarter may (fun _ => apart) ternary visits
  exact ⟨p, q, r, s, quad, ternary, next, left, restored⟩

/-- A split of coding units is permitted inside of a split of transform units, and
leaving it does not bring the transform depth back. -/
theorem exitCurrSplit_forgets_trDepth :
    ¬ ∀ (p q r : Partitioner) (cs : PartitionParams) (kind : PartSplit), Reachable p →
      p.Permits cs kind → p.splitCurrArea cs kind = .ok q → Visits q r →
        ∃ s, r.exitCurrSplit = .ok s ∧ s.currTrDepth = p.currTrDepth := by
  intro claim
  have run : ∃ p q s, wideCtu.splitCurrArea wideLimits .TU_MAX_TR_SPLIT = .ok p ∧
      p.Permits wideLimits .CU_HORZ_SPLIT ∧ p.splitCurrArea wideLimits .CU_HORZ_SPLIT = .ok q ∧
      q.exitCurrSplit = .ok s ∧ p.currTrDepth = 1 ∧ s.currTrDepth = 0 :=
    ⟨_, _, _, rfl, ⟨_, rfl⟩, rfl, rfl, rfl, rfl⟩
  obtain ⟨p, q, s, tiles, may, halves, left, before, after⟩ := run
  have tile : Reachable p :=
    .split wideCtu_reachable ⟨_, rfl⟩ (fun no => Bool.noConfusion no) tiles
  obtain ⟨s', left', same⟩ := claim p q q wideLimits _ tile may halves (.stay q)
  cases left.symm.trans left'
  rw [before, after] at same
  exact Nat.noConfusion same

end Vtm.Partitioner
