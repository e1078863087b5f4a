import Vtm.Partition.Visits
import Vtm.Std.Fields
import Vtm.Std.Int32

/-!
# The series of splits

A coding unit keeps the splits that led to it in one word and the mode types in another. A
partitioner cannot reach more than ten splits of coding units, and both words give back all of
them: `splitSeries_faithful`.
-/

namespace Vtm

open Vtm.Std (shl32)

def SPLIT_DMULT : Nat := 5

/-- The value of a split. -/
def PartSplit.code : PartSplit → Nat
  | .CTU_LEVEL => 0
  | .CU_QUAD_SPLIT => 1
  | .CU_HORZ_SPLIT => 2
  | .CU_VERT_SPLIT => 3
  | .CU_TRIH_SPLIT => 4
  | .CU_TRIV_SPLIT => 5
  | .TU_MAX_TR_SPLIT => 6
  | .TU_NO_ISP => 7
  | .TU_1D_HORZ_SPLIT => 8
  | .TU_1D_VERT_SPLIT => 9
  | .SBT_VER_HALF_POS0_SPLIT => 10
  | .SBT_VER_HALF_POS1_SPLIT => 11
  | .SBT_HOR_HALF_POS0_SPLIT => 12
  | .SBT_HOR_HALF_POS1_SPLIT => 13
  | .SBT_VER_QUAD_POS0_SPLIT => 14
  | .SBT_VER_QUAD_POS1_SPLIT => 15
  | .SBT_HOR_QUAD_POS0_SPLIT => 16
  | .SBT_HOR_QUAD_POS1_SPLIT => 17
  | .CU_MT_SPLIT => 1000
  | .CU_BT_SPLIT => 1001
  | .CU_DONT_SPLIT => 2000

/-- The value of a mode type. -/
def ModeType.code : ModeType → Nat
  | .MODE_TYPE_ALL => 0
  | .MODE_TYPE_INTER => 1
  | .MODE_TYPE_INTRA => 2

/-- What `setCUData` sets of a coding unit. -/
structure PartitionedUnit extends SplitUnit where
  btDepth : Nat
  mtDepth : Nat
  qtDepth : Nat
  modeTypeSeries : Nat
deriving DecidableEq, Repr

/-- `CU::getModeTypeAtDepth`; the result is the value of the mode type. -/
def getModeTypeAtDepth (cu : PartitionedUnit) (depth : Nat) : Checked Nat := do
  let modeType := (cu.modeTypeSeries >>> (depth * 3)) &&& 7
  CHECK (depth > cu.depth) " depth is wrong"
  return modeType

/-- A shift of 64 bits. -/
def shl64 (a k : Nat) : Checked Nat := if k < 64 then .ok (a * 2 ^ k % 2 ^ 64) else .error "shift"

/-- A shift of an `int`. -/
def shlInt (a k : Nat) : Checked Int := if k < 32 then shl32 a k else .error "shift"

namespace Partitioner

/-- The loop over the stack, from its bottom, with the depth of the level. -/
def sumLevels (term : PartLevel → Nat → Checked Int) :
    Nat × Nat → List PartLevel → Checked (Nat × Nat)
  | state, [] => .ok state
  | (series, depth), level :: rest =>
      if level.split = .CTU_LEVEL then sumLevels term (series, depth) rest
      else do
        let added ← term level depth
        sumLevels term (((series + added) % 2 ^ 64).toNat, depth + 1) rest

def getSplitSeries (p : Partitioner) : Checked Nat := do
  let sum ← sumLevels (fun level depth => do
    let added ← shl64 level.split.code (depth * SPLIT_DMULT)
    return added) (0, 0) p.partStack.reverse
  return sum.1

def getModeTypeSeries (p : Partitioner) : Checked Nat := do
  let sum ← sumLevels (fun level depth => shlInt level.modeType.code (depth * 3)) (0, 0)
    p.partStack.reverse
  return sum.1

def setCUData (p : Partitioner) : Checked PartitionedUnit := do
  let splitSeries ← p.getSplitSeries
  let modeTypeSeries ← p.getModeTypeSeries
  return {
    depth := p.currDepth
    splitSeries
    btDepth := p.currBtDepth
    mtDepth := p.currMtDepth
    qtDepth := p.currQtDepth
    modeTypeSeries }

/-- The levels of the splits, the outermost first. -/
def splitLevels (p : Partitioner) : List PartLevel :=
  p.partStack.reverse.filter fun level => level.split ≠ .CTU_LEVEL

end Partitioner

/-! ## The parts of a split -/

namespace PartSplit

/-- A split of coding units that makes the parts less high. -/
def isTall (split : PartSplit) : Bool :=
  split = CU_QUAD_SPLIT ∨ split = CU_HORZ_SPLIT ∨ split = CU_TRIH_SPLIT

/-- A split of coding units in vertical direction only. -/
def isWide (split : PartSplit) : Bool := split = CU_VERT_SPLIT ∨ split = CU_TRIV_SPLIT

end PartSplit

/-- The split of a level and its parts. -/
abbrev StackEntry := PartSplit × List UnitArea

def PartLevel.entry (level : PartLevel) : StackEntry := (level.split, level.parts)

namespace PartitionerImpl

/-- What one part has of the luma block of its area. -/
theorem mapBlocks_Y (area : UnitArea) {part : CompArea → CompArea} (empty : part .none = .none) :
    (area.mapBlocks part).Y = part area.Y := by
  unfold UnitArea.mapBlocks UnitArea.Y
  cases area.blocks with
  | nil => exact empty.symm
  | cons Y others => rfl

theorem half_le (size : Nat) : 2 * (size >>> 1) ≤ size := by
  rw [Nat.shiftRight_eq_div_pow]
  omega

theorem ternaryPart_le (i : Nat) (start : Int) (size : Nat) :
    2 * (ternaryPart i start size).2 ≤ size := by
  unfold ternaryPart
  dsimp only
  split
  · have inner := half_le (size >>> 1)
    have outer := half_le size
    omega
  · exact half_le size

/-- The parts that a split of coding units returns, if all of them are large enough. -/
theorem CHECK_subs {α : Type} {subs parts : List α} {small : α → Prop} [DecidablePred small]
    {text : String} (run : (do CHECK (∃ sub ∈ subs, small sub) text; return subs) = Except.ok parts) :
    parts = subs ∧ ∀ sub ∈ parts, ¬ small sub := by
  obtain ⟨large, run⟩ := CHECK_bind_eq_ok_iff.mp run
  cases run
  exact ⟨rfl, fun sub member tiny => large ⟨sub, member, tiny⟩⟩

/-- A split that halves one side of the luma block and does not extend the other one. -/
structure Halves (side other : CompArea → Nat) (area : UnitArea) (parts : List UnitArea) : Prop where
  some : parts ≠ []
  large : ∀ sub ∈ parts, MIN_TB_SIZEY ≤ side sub.Y
  half : ∀ sub ∈ parts, 2 * side sub.Y ≤ side area.Y
  within : ∀ sub ∈ parts, other sub.Y ≤ other area.Y

theorem halves_of_subs {side other : CompArea → Nat} {area : UnitArea} {parts : List UnitArea}
    {count : Nat} {part : Nat → CompArea → CompArea} (some : 0 < count)
    (same : parts = (List.range count).map fun i => area.mapBlocks (part i))
    (large : ∀ sub ∈ parts, ¬ side sub.Y < MIN_TB_SIZEY) (empty : ∀ i, part i .none = .none)
    (half : ∀ i, 2 * side (part i area.Y) ≤ side area.Y)
    (within : ∀ i, other (part i area.Y) ≤ other area.Y) : Halves side other area parts := by
  have luma : ∀ sub ∈ parts, ∃ i, sub.Y = part i area.Y := by
    intro sub member
    rw [same] at member
    obtain ⟨i, -, rfl⟩ := List.mem_map.mp member
    exact ⟨i, mapBlocks_Y area (empty i)⟩
  refine ⟨?_, fun sub member => not_lt.mp (large sub member), fun sub member => ?_, fun sub member => ?_⟩
  · rw [same]
    simpa using some.ne'
  · obtain ⟨i, Y⟩ := luma sub member
    rw [Y]
    exact half i
  · obtain ⟨i, Y⟩ := luma sub member
    rw [Y]
    exact within i

end PartitionerImpl

namespace Partitioner

open PartitionerImpl

variable {kind : PartSplit} {cs : PartitionParams} {area : UnitArea} {parts : List UnitArea}

theorem partsOf_tall (run : partsOf cs kind area = .ok parts) (tall : kind.isTall) :
    Halves CompArea.height CompArea.width area parts := by
  cases kind <;> cases tall
  · obtain ⟨same, large⟩ := CHECK_subs run
    exact halves_of_subs (by decide) same large (fun i => by simp [quadPart, CompArea.none])
      (fun i => half_le _) fun i => Nat.shiftRight_le _ _
  · obtain ⟨same, large⟩ := CHECK_subs run
    exact halves_of_subs (by decide) same large (fun i => by simp [horzPart, CompArea.none])
      (fun i => half_le _) fun i => le_refl _
  · obtain ⟨same, large⟩ := CHECK_subs run
    exact halves_of_subs (by decide) same large
      (fun i => by simp [trihPart, ternaryPart, CompArea.none])
      (fun i => ternaryPart_le i area.Y.y area.Y.height) fun i => le_refl _

theorem partsOf_wide (run : partsOf cs kind area = .ok parts) (wide : kind.isWide) :
    Halves CompArea.width CompArea.height area parts := by
  cases kind <;> cases wide
  · obtain ⟨same, large⟩ := CHECK_subs run
    exact halves_of_subs (by decide) same large (fun i => by simp [vertPart, CompArea.none])
      (fun i => half_le _) fun i => le_refl _
  · obtain ⟨same, large⟩ := CHECK_subs run
    exact halves_of_subs (by decide) same large
      (fun i => by simp [trivPart, ternaryPart, CompArea.none])
      (fun i => ternaryPart_le i area.Y.x area.Y.width) fun i => le_refl _

/-! ## The stack -/

/-- The splits and the parts of all levels. -/
def entries (p : Partitioner) : List StackEntry := p.partStack.map PartLevel.entry

/-- How often the height is halved at least. -/
def tall (stack : List StackEntry) : Nat := stack.countP (·.1.isTall)

/-- How often only the width is halved. -/
def wide (stack : List StackEntry) : Nat := stack.countP (·.1.isWide)

/-- An area behind the splits of a stack, in a coding tree unit of a size. -/
structure Shrunk (size : Nat) (stack : List StackEntry) (area : UnitArea) : Prop where
  height : area.Y.height * 2 ^ tall stack ≤ size
  width : area.Y.width * 2 ^ wide stack ≤ size

/-- Neither side can be halved more often than to the smallest transform size. -/
structure Few (size : Nat) (stack : List StackEntry) : Prop where
  tall : MIN_TB_SIZEY * 2 ^ tall stack ≤ max MIN_TB_SIZEY size
  wide : MIN_TB_SIZEY * 2 ^ wide stack ≤ max MIN_TB_SIZEY size

/-- The stack of a partitioner: splits of coding units below splits of transform units. -/
inductive Stack (size : Nat) : List StackEntry → Prop
  | ctu {area : UnitArea} (height : area.Y.height ≤ size) (width : area.Y.width ≤ size) :
      Stack size [(.CTU_LEVEL, [area])]
  | unit {kind : PartSplit} {parts : List UnitArea} {rest : List StackEntry} (below : Stack size rest)
      (split : kind.isTall ∨ kind.isWide) (few : Few size ((kind, parts) :: rest))
      (shrunk : ∀ area ∈ parts, Shrunk size ((kind, parts) :: rest) area) :
      Stack size ((kind, parts) :: rest)
  | transform {kind : PartSplit} {parts : List UnitArea} {rest : List StackEntry}
      (below : Stack size rest) (split : kind.isTransform) : Stack size ((kind, parts) :: rest)

theorem not_tall_wide_of_transform (transform : kind.isTransform) :
    kind.isTall = false ∧ kind.isWide = false := by
  cases kind <;> cases transform <;> decide

theorem tall_cons (kind : PartSplit) (parts : List UnitArea) (rest : List StackEntry) :
    tall ((kind, parts) :: rest) = tall rest + if kind.isTall then 1 else 0 := List.countP_cons

theorem wide_cons (kind : PartSplit) (parts : List UnitArea) (rest : List StackEntry) :
    wide ((kind, parts) :: rest) = wide rest + if kind.isWide then 1 else 0 := List.countP_cons

namespace Stack

variable {size : Nat} {stack : List StackEntry}

theorem few (holds : Stack size stack) : Few size stack := by
  induction holds with
  | ctu => exact ⟨le_max_left _ _, le_max_left _ _⟩
  | unit _ _ few => exact few
  | transform _ split below =>
      obtain ⟨noTall, noWide⟩ := not_tall_wide_of_transform split
      constructor
      · rw [tall_cons, noTall]
        exact below.tall
      · rw [wide_cons, noWide]
        exact below.wide

/-- The parts of the last split of coding units have the size that its stack leaves. -/
theorem shrunk {entry : StackEntry} (holds : Stack size (entry :: stack))
    (unit : entry.1.isTransform = false) : ∀ area ∈ entry.2, Shrunk size (entry :: stack) area := by
  cases holds with
  | ctu height width =>
      intro area member
      obtain rfl := List.mem_singleton.mp member
      exact ⟨by simpa [tall, PartSplit.isTall] using height, by simpa [wide, PartSplit.isWide] using width⟩
  | unit _ _ _ shrunk => exact shrunk
  | transform _ split => exact absurd split (by simp [unit])

/-- What one more halving leaves. -/
theorem halve {side half n size : Nat} (shrunk : side * 2 ^ n ≤ size) (halved : 2 * half ≤ side) :
    half * 2 ^ (n + 1) ≤ size := by
  calc
    half * 2 ^ (n + 1) = 2 * half * 2 ^ n := by rw [Nat.pow_succ]; ring
    _ ≤ side * 2 ^ n := Nat.mul_le_mul_right _ halved
    _ ≤ size := shrunk

theorem few_of_shrunk {side n size : Nat} (large : MIN_TB_SIZEY ≤ side) (shrunk : side * 2 ^ n ≤ size) :
    MIN_TB_SIZEY * 2 ^ n ≤ max MIN_TB_SIZEY size :=
  le_trans (Nat.mul_le_mul_right _ large) (le_trans shrunk (le_max_right _ _))

/-- A split of the coding units of a part of the last level. -/
theorem push {entry : StackEntry} (holds : Stack size (entry :: stack)) (unit : entry.1.isTransform = false)
    {area : UnitArea} (member : area ∈ entry.2) {cs : PartitionParams} {kind : PartSplit}
    {parts : List UnitArea} (run : partsOf cs kind area = .ok parts)
    (split : kind.isTall ∨ kind.isWide) : Stack size ((kind, parts) :: entry :: stack) := by
  obtain ⟨height, width⟩ := holds.shrunk unit area member
  obtain ⟨tallBelow, wideBelow⟩ := holds.few
  rcases split with isTall | isWide
  · have noWide : kind.isWide = false := by cases kind <;> cases isTall <;> rfl
    obtain ⟨some, large, half, within⟩ := partsOf_tall run isTall
    have shrunk : ∀ sub ∈ parts, Shrunk size ((kind, parts) :: entry :: stack) sub := by
      intro sub inside
      constructor
      · rw [tall_cons, if_pos isTall]
        exact halve height (half sub inside)
      · rw [wide_cons, noWide]
        exact le_trans (Nat.mul_le_mul_right _ (within sub inside)) width
    obtain ⟨sub, inside⟩ := List.exists_mem_of_ne_nil parts some
    refine .unit holds (.inl isTall) ⟨few_of_shrunk (large sub inside) (shrunk sub inside).height, ?_⟩
      shrunk
    rw [wide_cons, noWide]
    exact wideBelow
  · have noTall : kind.isTall = false := by cases kind <;> cases isWide <;> rfl
    obtain ⟨some, large, half, within⟩ := partsOf_wide run isWide
    have shrunk : ∀ sub ∈ parts, Shrunk size ((kind, parts) :: entry :: stack) sub := by
      intro sub inside
      constructor
      · rw [tall_cons, noTall]
        exact le_trans (Nat.mul_le_mul_right _ (within sub inside)) height
      · rw [wide_cons, if_pos isWide]
        exact halve width (half sub inside)
    obtain ⟨sub, inside⟩ := List.exists_mem_of_ne_nil parts some
    refine .unit holds (.inr isWide) ⟨?_, few_of_shrunk (large sub inside) (shrunk sub inside).width⟩
      shrunk
    rw [tall_cons, noTall]
    exact tallBelow

end Stack

/-! ## The steps of the partitioner -/

section

variable {p q : Partitioner}

/-- Neither the levels nor their number nor the transform depth have changed. -/
structure Kept (p q : Partitioner) : Prop where
  entries : q.entries = p.entries
  depth : q.currDepth = p.currDepth
  trDepth : q.currTrDepth = p.currTrDepth

theorem SameButCache.kept (same : SameButCache p q) : Kept p q := by
  obtain ⟨_, _, _, rfl⟩ := same
  exact ⟨rfl, rfl, rfl⟩

theorem nextPart_kept {more : Bool} (run : p.nextPart cs false = .ok (more, q)) : Kept p q := by
  obtain ⟨level, next, ⟨-, moved⟩ | ⟨-, rfl⟩⟩ := nextPart_cases run
  · obtain ⟨_, rfl⟩ := nextLevel_cases next
    obtain ⟨_, _, entered⟩ := enterPart_eq { p with back := _ }
    rw [entered] at moved
    obtain ⟨_, _, rfl, -⟩ := moveQg_cases moved
    exact ⟨rfl, rfl, rfl⟩
  · obtain ⟨_, rfl⟩ := nextLevel_cases next
    exact ⟨rfl, rfl, rfl⟩

/-- `q` has one level more than `p`. -/
structure Deeper (kind : PartSplit) (parts : List UnitArea) (p q : Partitioner) : Prop where
  known : kind.isMultiType ∨ kind.isTransform ∨ kind = .CU_QUAD_SPLIT
  entries : q.entries = (kind, parts) :: p.entries
  depth : q.currDepth = p.currDepth + 1
  trDepth : q.currTrDepth = p.currTrDepth + if kind.isTransform then 1 else 0

theorem currArea_mem (current : p.currArea = .ok area) : area ∈ p.back.parts := by
  unfold currArea at current
  cases here : p.back.parts[p.back.idx]? with
  | none =>
      rw [here] at current
      cases current
  | some found =>
      rw [here] at current
      cases current
      exact List.mem_of_getElem? here

theorem splitCurrArea_deeper (apart : p.Apart kind) (run : p.splitCurrArea cs kind = .ok q) :
    ∃ area ∈ p.back.parts, ∃ parts, partsOf cs kind area = .ok parts ∧ Deeper kind parts p q := by
  obtain ⟨r, area, parts, canQt, s, question, current, split, entered, moved⟩ :=
    splitCurrArea_cases run
  obtain ⟨-, same, -⟩ := getImplicitSplit_spec question
  obtain ⟨known, -⟩ := partsOf_known split
  obtain ⟨_, pushed⟩ := pushLevel_cases r kind parts
  rw [pushed] at entered
  obtain ⟨_, rfl⟩ := enterSplit_cases entered
  obtain ⟨_, _, rfl, -⟩ := moveQg_cases moved
  obtain ⟨_, _, _, rfl⟩ := same
  refine ⟨area, currArea_mem current, parts, split, known, rfl, rfl, ?_⟩
  show (if kind.isTransform then p.currTrDepth + 1 else 0) = _
  cases transform : kind.isTransform with
  | false => exact (apart transform).symm
  | true => rfl

theorem exitCurrSplit_deeper (chained : Chained p) (run : p.exitCurrSplit = .ok q) :
    ∃ kind parts, Deeper kind parts q p := by
  cases chained with
  | root bottom =>
      obtain ⟨r, popped, -⟩ := bind_eq_ok_iff.mp run
      unfold popLevel at popped
      rw [bottom] at popped
      cases popped
  | @inside kind outer _ _ opened =>
      have left := opened.exitCurrSplit_eq
      rw [run] at left
      cases left
      refine ⟨kind, p.back.parts, opened.known, ?_, opened.depth, opened.trDepth⟩
      unfold entries partStack
      rw [opened.below, List.map_cons, PartLevel.entry, opened.split]
      rfl

end

/-! ## What a reachable partitioner knows of its stack -/

/-- The coding tree unit at the bottom of a stack is not larger than `size`. -/
def WithinCtu (size : Nat) (stack : List StackEntry) : Prop :=
  ∀ entry ∈ stack, entry.1 = .CTU_LEVEL → ∀ area ∈ entry.2, area.Y.height ≤ size ∧ area.Y.width ≤ size

/-- The counters count the levels, and the levels are a stack. -/
structure Stacked (p : Partitioner) : Prop where
  depth : p.currDepth + 1 = p.entries.length
  trDepth : p.currTrDepth = p.entries.countP (·.1.isTransform)
  stack : ∀ size, WithinCtu size p.entries → Stack size p.entries

section

variable {p q : Partitioner}

theorem Stacked.kept (stacked : Stacked p) (kept : Kept p q) : Stacked q := by
  obtain ⟨depth, trDepth, stack⟩ := stacked
  refine ⟨?_, ?_, ?_⟩
  · rw [kept.depth, kept.entries, depth]
  · rw [kept.trDepth, kept.entries, trDepth]
  · rw [kept.entries]
    exact stack

theorem Stacked.initCtu (ctuArea : UnitArea) (chType : ChannelType) :
    Stacked (Partitioner.initCtu ctuArea chType) := by
  refine ⟨rfl, rfl, fun size within => ?_⟩
  obtain ⟨height, width⟩ := within (.CTU_LEVEL, [ctuArea]) (List.mem_singleton.mpr rfl) rfl ctuArea
    (List.mem_singleton.mpr rfl)
  exact .ctu height width

theorem ne_ctu (known : kind.isMultiType ∨ kind.isTransform ∨ kind = .CU_QUAD_SPLIT) :
    kind ≠ .CTU_LEVEL := by
  rintro rfl
  revert known
  decide

theorem Stacked.outer {parts : List UnitArea} (stacked : Stacked q) (deeper : Deeper kind parts p q) :
    Stacked p := by
  obtain ⟨known, entries, depth, trDepth⟩ := deeper
  refine ⟨?_, ?_, fun size within => ?_⟩
  · have count := stacked.depth
    rw [entries, List.length_cons, depth] at count
    omega
  · have count := stacked.trDepth
    rw [entries, List.countP_cons, trDepth] at count
    exact Nat.add_right_cancel count
  · have inside : WithinCtu size q.entries := by
      rw [entries]
      intro entry member ctu
      rcases List.mem_cons.mp member with rfl | member
      · exact absurd ctu (ne_ctu known)
      · exact within entry member ctu
    have holds := stacked.stack size inside
    rw [entries] at holds
    cases holds with
    | unit below => exact below
    | transform below => exact below

theorem Stacked.inner {parts : List UnitArea} (stacked : Stacked p) (apart : p.Apart kind)
    (member : area ∈ p.back.parts) (split : partsOf cs kind area = .ok parts)
    (deeper : Deeper kind parts p q) : Stacked q := by
  obtain ⟨known, entries, depth, trDepth⟩ := deeper
  refine ⟨?_, ?_, fun size within => ?_⟩
  · rw [entries, List.length_cons, depth, stacked.depth]
  · rw [entries, List.countP_cons, trDepth, stacked.trDepth]
  · rw [entries] at within ⊢
    have holds := stacked.stack size fun entry inside => within entry (List.mem_cons_of_mem _ inside)
    cases transform : kind.isTransform with
    | true => exact .transform holds transform
    | false =>
        have units : p.entries.countP (·.1.isTransform) = 0 := by
          rw [← stacked.trDepth]
          exact apart transform
        have unit : p.back.split.isTransform = false := by
          have none := List.countP_eq_zero.mp units p.back.entry (List.mem_cons_self ..)
          exact Bool.eq_false_iff.mpr none
        refine holds.push unit member split ?_
        revert known
        rw [transform]
        cases kind <;> decide

theorem Reachable.stacked (reachable : Reachable p) : Stacked p := by
  induction reachable with
  | ctu ctuArea chType => exact .initCtu ctuArea chType
  | @next _ _ _ autoPop _ before small run ih =>
      cases autoPop with
      | false => exact ih.kept (nextPart_kept run)
      | true =>
          obtain stays | ⟨r, behind, left⟩ := nextPart_autoPop run
          · exact ih.kept (nextPart_kept stays)
          · obtain ⟨kind, parts, deeper⟩ :=
              exitCurrSplit_deeper (before.chained.1.next small behind) left
            exact (ih.kept (nextPart_kept behind)).outer deeper
  | ask _ asks ih => exact ih.kept asks.keeps.1.kept
  | turn _ chType treeType modeType ih => exact ih.kept ⟨rfl, rfl, rfl⟩
  | split _ _ apart run ih =>
      obtain ⟨area, member, parts, split, deeper⟩ := splitCurrArea_deeper apart run
      exact ih.inner apart member split deeper
  | exit before run ih =>
      obtain ⟨kind, parts, deeper⟩ := exitCurrSplit_deeper before.chained.1 run
      exact ih.outer deeper

end

/-! ## The words -/

namespace Stack

variable {size : Nat} {stack : List StackEntry}

/-- Every split of the stack is counted once. -/
theorem splits (holds : Stack size stack) :
    (stack.filter (·.1 ≠ .CTU_LEVEL)).length = tall stack + wide stack + stack.countP (·.1.isTransform) := by
  unfold tall wide
  induction holds with
  | ctu => rfl
  | @unit kind parts rest _ split _ _ ih =>
      have counts : kind ≠ .CTU_LEVEL ∧ kind.isTransform = false ∧
          (kind.isTall.toNat + kind.isWide.toNat = 1) := by
        revert split
        cases kind <;> decide
      obtain ⟨inside, unit, one⟩ := counts
      rw [List.filter_cons_of_pos (by simpa using inside), List.length_cons, ih, List.countP_cons,
        List.countP_cons, List.countP_cons, unit]
      cases tall : kind.isTall <;> cases wide : kind.isWide <;> simp [tall, wide] at one ⊢ <;> omega
  | @transform kind parts rest _ split ih =>
      have counts : kind ≠ .CTU_LEVEL ∧ kind.isTall = false ∧ kind.isWide = false := by
        revert split
        cases kind <;> decide
      obtain ⟨inside, noTall, noWide⟩ := counts
      rw [List.filter_cons_of_pos (by simpa using inside), List.length_cons, ih, List.countP_cons,
        List.countP_cons, List.countP_cons, noTall, noWide, split]
      simp
      omega

/-- There is one coding tree unit below the splits. -/
theorem ctu_once (holds : Stack size stack) :
    stack.length = (stack.filter (·.1 ≠ .CTU_LEVEL)).length + 1 := by
  induction holds with
  | ctu => rfl
  | @unit kind _ _ _ split _ _ ih =>
      have inside : kind ≠ .CTU_LEVEL := by
        rintro rfl
        revert split
        decide
      rw [List.filter_cons_of_pos (by simpa using inside), List.length_cons, List.length_cons, ih]
  | @transform kind _ _ _ split ih =>
      have inside : kind ≠ .CTU_LEVEL := by
        rintro rfl
        cases split
      rw [List.filter_cons_of_pos (by simpa using inside), List.length_cons, List.length_cons, ih]

theorem known (holds : Stack size stack) : ∀ entry ∈ stack, entry.1 = .CTU_LEVEL ∨
    (entry.1.isTall ∨ entry.1.isWide) ∨ entry.1.isTransform := by
  induction holds with
  | ctu => exact fun entry member => .inl (List.mem_singleton.mp member ▸ rfl)
  | unit _ split _ _ ih => exact List.forall_mem_cons.mpr ⟨.inr (.inl split), ih⟩
  | transform _ split ih => exact List.forall_mem_cons.mpr ⟨.inr (.inr split), ih⟩

end Stack

/-- The largest coding tree unit. -/
def MAX_CU_SIZE : Nat := 128

theorem few_le_five {stack : List StackEntry} (few : Few MAX_CU_SIZE stack) :
    tall stack ≤ 5 ∧ wide stack ≤ 5 := by
  have five : ∀ n : Nat, MIN_TB_SIZEY * 2 ^ n ≤ max MIN_TB_SIZEY MAX_CU_SIZE → n ≤ 5 := by
    intro n bound
    by_contra beyond
    have power : 2 ^ 6 ≤ 2 ^ n := Nat.pow_le_pow_right (by decide) (by omega)
    have most : max MIN_TB_SIZEY MAX_CU_SIZE = 128 := by decide
    have least : MIN_TB_SIZEY = 4 := rfl
    rw [most, least] at bound
    omega
  exact ⟨five _ few.tall, five _ few.wide⟩

section

open Vtm.Std (packed packed_lt packed_append field_packed)

theorem sumLevels_filter (term : PartLevel → Nat → Checked Int) (state : Nat × Nat) (levels : List PartLevel) :
    sumLevels term state levels = sumLevels term state (levels.filter (·.split ≠ .CTU_LEVEL)) := by
  induction levels generalizing state with
  | nil => rfl
  | cons level rest ih =>
      obtain ⟨series, depth⟩ := state
      by_cases ctu : level.split = .CTU_LEVEL
      · rw [List.filter_cons_of_neg (by simpa using ctu), sumLevels, if_pos ctu, ih]
      · rw [List.filter_cons_of_pos (by simpa using ctu), sumLevels, sumLevels, if_neg ctu, if_neg ctu]
        exact bind_congr fun added => ih _

/-- The sum is the word with the values as its fields, as long as these fit. -/
theorem sumLevels_packed (term : PartLevel → Nat → Checked Int) (value : PartLevel → Nat)
    (width bound : Nat) (some : 0 < width) (fits : bound * width ≤ 64) {levels : List PartLevel}
    (units : ∀ level ∈ levels, level.split ≠ .CTU_LEVEL)
    (small : ∀ level ∈ levels, value level < 2 ^ width)
    (terms : ∀ level ∈ levels, ∀ depth < bound,
      term level depth = .ok (value level * 2 ^ (depth * width) : Nat))
    (front : List Nat) (smallFront : ∀ v ∈ front, v < 2 ^ width)
    (within : front.length + levels.length ≤ bound) :
    sumLevels term (packed width front, front.length) levels =
      .ok (packed width (front ++ levels.map value), front.length + levels.length) := by
  induction levels generalizing front with
  | nil => simp [sumLevels]
  | cons level rest ih =>
      rw [List.length_cons] at within
      have here := small level (List.mem_cons_self ..)
      have longer : ∀ v ∈ front ++ [value level], v < 2 ^ width := by
        intro v member
        rcases List.mem_append.mp member with member | member
        · exact smallFront v member
        · exact List.mem_singleton.mp member ▸ here
      have word : (((packed width front : Int) + (value level * 2 ^ (front.length * width) : Nat)) %
          2 ^ 64).toNat = packed width (front ++ [value level]) := by
        have less := packed_lt some longer
        have power : 2 ^ ((front ++ [value level]).length * width) ≤ 2 ^ 64 := by
          refine Nat.pow_le_pow_right (by decide) (le_trans (Nat.mul_le_mul_right width ?_) fits)
          rw [List.length_append, List.length_singleton]
          omega
        rw [packed_append] at less ⊢
        omega
      rw [sumLevels, if_neg (units level (List.mem_cons_self ..)),
        terms level (List.mem_cons_self ..) front.length (by omega)]
      show sumLevels term ((((packed width front : Int) +
        (value level * 2 ^ (front.length * width) : Nat)) % 2 ^ 64).toNat, front.length + 1) rest = _
      have behind := ih (fun other member => units other (List.mem_cons_of_mem _ member))
        (fun other member => small other (List.mem_cons_of_mem _ member))
        (fun other member => terms other (List.mem_cons_of_mem _ member)) _ longer
        (by rw [List.length_append, List.length_singleton]; omega)
      rw [List.length_append, List.length_singleton] at behind
      rw [word, behind, List.append_assoc, List.length_cons, List.map_cons, List.singleton_append,
        Nat.add_right_comm, Nat.add_assoc]

end

/-! ## What the coding unit gives back -/

section

open Vtm.Std (packed field field_packed fields_disjoint)

variable {p : Partitioner}

/-- A level of a split of coding units. -/
def UnitLevel (level : PartLevel) : Prop := level.split.isTall ∨ level.split.isWide

theorem UnitLevel.facts {level : PartLevel} (unit : UnitLevel level) :
    level.split ≠ .CTU_LEVEL ∧ level.split.code < 2 ^ SPLIT_DMULT := by
  unfold UnitLevel at unit
  revert unit
  cases level.split <;> decide

/-- Where coding units are set there are at most ten splits, all of them of coding units. -/
theorem splitLevels_spec (reachable : Reachable p) (ctu : WithinCtu MAX_CU_SIZE p.entries)
    (unit : p.currTrDepth = 0) :
    p.splitLevels.length = p.currDepth ∧ p.splitLevels.length ≤ 10 ∧
      ∀ level ∈ p.splitLevels, UnitLevel level := by
  obtain ⟨depth, trDepth, stack⟩ := reachable.stacked
  have holds := stack _ ctu
  obtain ⟨tallFive, wideFive⟩ := few_le_five holds.few
  have none : p.entries.countP (·.1.isTransform) = 0 := trDepth.symm.trans unit
  have same : p.splitLevels.length = (p.entries.filter (·.1 ≠ .CTU_LEVEL)).length := by
    unfold splitLevels entries
    rw [List.filter_map, List.length_map, List.filter_reverse, List.length_reverse]
    rfl
  have count := holds.splits
  have one := holds.ctu_once
  rw [none] at count
  refine ⟨by omega, by omega, fun level member => ?_⟩
  obtain ⟨inside, split⟩ := List.mem_filter.mp member
  have entry : level.entry ∈ p.entries := List.mem_map_of_mem (List.mem_reverse.mp inside)
  rcases holds.known level.entry entry with root | unitSplit | transform
  · exact absurd root (of_decide_eq_true split)
  · exact unitSplit
  · exact absurd transform (List.countP_eq_zero.mp none level.entry entry)

theorem shl64_split {level : PartLevel} (unit : UnitLevel level) {depth : Nat} (within : depth < 10) :
    shl64 level.split.code (depth * SPLIT_DMULT) =
      .ok (level.split.code * 2 ^ (depth * SPLIT_DMULT)) := by
  have small := unit.facts.2
  have power : 2 ^ (depth * SPLIT_DMULT) ≤ 2 ^ 45 :=
    Nat.pow_le_pow_right (by decide) (by unfold SPLIT_DMULT; omega)
  unfold shl64
  rw [if_pos (by unfold SPLIT_DMULT; omega), Nat.mod_eq_of_lt]
  calc
    level.split.code * 2 ^ (depth * SPLIT_DMULT) ≤ 2 ^ SPLIT_DMULT * 2 ^ 45 :=
      Nat.mul_le_mul (Nat.le_of_lt small) power
    _ < 2 ^ 64 := by decide

theorem shlInt_modeType (modeType : ModeType) {depth : Nat} (within : depth < 10) :
    shlInt modeType.code (depth * 3) = .ok (modeType.code * 2 ^ (depth * 3) : Nat) := by
  have small : modeType.code ≤ 2 := by cases modeType <;> decide
  have power : 2 ^ (depth * 3) ≤ 2 ^ 27 := Nat.pow_le_pow_right (by decide) (by omega)
  have product : modeType.code * 2 ^ (depth * 3) ≤ 2 * 2 ^ 27 := Nat.mul_le_mul small power
  unfold shlInt Vtm.Std.shl32
  rw [if_pos (by omega)]
  have same : (modeType.code : Int) * 2 ^ (depth * 3) = (modeType.code * 2 ^ (depth * 3) : Nat) := by
    push_cast
    rfl
  rw [same, Vtm.Std.int32_eq]
  exact ⟨by omega, by omega⟩

/-- The value of a split stands for it. -/
theorem getSplitAtDepth_of_field {cu : SplitUnit} {depth : Nat} {level : PartLevel}
    (unit : UnitLevel level) (inside : depth < cu.depth)
    (same : field SPLIT_DMULT cu.splitSeries depth = level.split.code) :
    getSplitAtDepth cu depth = .ok level.split := by
  have word : (cu.splitSeries >>> (depth * 5)) &&& 31 = level.split.code := same
  unfold getSplitAtDepth
  rw [if_neg (by omega), word]
  unfold UnitLevel at unit
  revert unit
  cases level.split <;> decide

/-- A coding unit gives back all splits and mode types of the partitioner it was set by, which are
never more than the words hold. -/
theorem splitSeries_faithful (reachable : Reachable p) (ctu : WithinCtu MAX_CU_SIZE p.entries)
    (unit : p.currTrDepth = 0) :
    ∃ cu, p.setCUData = .ok cu ∧ cu.depth = p.splitLevels.length ∧ cu.depth * SPLIT_DMULT ≤ 50 ∧
      (∀ depth level, p.splitLevels[depth]? = some level →
        getSplitAtDepth cu.toSplitUnit depth = .ok level.split ∧
          getModeTypeAtDepth cu depth = .ok level.modeType.code) ∧
      (∀ depth, cu.depth ≤ depth → getSplitAtDepth cu.toSplitUnit depth = .ok .CU_DONT_SPLIT) ∧
      (∀ i j level other, p.splitLevels[i]? = some level → p.splitLevels[j]? = some other → i ≠ j →
        (level.split.code * 2 ^ (i * SPLIT_DMULT)) &&& (other.split.code * 2 ^ (j * SPLIT_DMULT)) = 0) := by
  obtain ⟨length, ten, units⟩ := splitLevels_spec reachable ctu unit
  have smallMode : ∀ level ∈ p.splitLevels, level.modeType.code < 2 ^ 3 := by
    intro level _
    cases level.modeType <;> decide
  have splits : p.getSplitSeries =
      .ok (packed SPLIT_DMULT (p.splitLevels.map fun level => level.split.code)) := by
    have sum := sumLevels_packed (fun level depth => do
        let added ← shl64 level.split.code (depth * SPLIT_DMULT)
        return added) (fun level => level.split.code) SPLIT_DMULT 10 (by decide) (by decide)
      (fun level member => (units level member).facts.1)
      (fun level member => (units level member).facts.2)
      (fun level member depth within => by rw [shl64_split (units level member) within]; rfl)
      [] (by simp) (by simpa using ten)
    unfold getSplitSeries
    rw [sumLevels_filter]
    exact bind_eq_ok_iff.mpr ⟨_, sum, rfl⟩
  have modes : p.getModeTypeSeries =
      .ok (packed 3 (p.splitLevels.map fun level => level.modeType.code)) := by
    have sum := sumLevels_packed (fun level depth => shlInt level.modeType.code (depth * 3))
      (fun level => level.modeType.code) 3 10 (by decide) (by decide)
      (fun level member => (units level member).facts.1) smallMode
      (fun level _ depth within => shlInt_modeType level.modeType within)
      [] (by simp) (by simpa using ten)
    unfold getModeTypeSeries
    rw [sumLevels_filter]
    exact bind_eq_ok_iff.mpr ⟨_, sum, rfl⟩
  have set : p.setCUData = .ok {
      depth := p.currDepth
      splitSeries := packed SPLIT_DMULT (p.splitLevels.map fun level => level.split.code)
      btDepth := p.currBtDepth
      mtDepth := p.currMtDepth
      qtDepth := p.currQtDepth
      modeTypeSeries := packed 3 (p.splitLevels.map fun level => level.modeType.code) } := by
    unfold setCUData
    rw [splits, modes]
    rfl
  refine ⟨_, set, length.symm, ?_, fun depth level here => ?_, fun depth beyond => ?_,
    fun i j level other here there differ => ?_⟩
  · show p.currDepth * SPLIT_DMULT ≤ 50
    unfold SPLIT_DMULT
    omega
  · obtain ⟨inside, -⟩ := List.getElem?_eq_some_iff.mp here
    have member : level ∈ p.splitLevels := List.mem_of_getElem? here
    constructor
    · refine getSplitAtDepth_of_field (units level member) (length ▸ inside) (field_packed ?_ ?_)
      · simpa using fun other member => (units other member).facts.2
      · simp [here]
    · have mode : field 3 (packed 3 (p.splitLevels.map fun level => level.modeType.code)) depth =
          level.modeType.code := by
        refine field_packed ?_ ?_
        · simpa using smallMode
        · simp [here]
      refine bind_eq_ok_iff.mpr ⟨(), CHECK_ok_iff.mpr ?_, congrArg Except.ok mode⟩
      show ¬ depth > p.currDepth
      omega
  · exact if_pos beyond
  · exact fields_disjoint (units level (List.mem_of_getElem? here)).facts.2
      (units other (List.mem_of_getElem? there)).facts.2 differ

/-! ## A coding tree unit over the lower edge of the picture -/

/-- What a caller does with a partitioner. -/
inductive Move where
  | next
  | turn (modeType : ModeType)
  | split (kind : PartSplit)

/-- One move, if it is permitted. -/
def move (cs : PartitionParams) (p : Partitioner) : Move → Option Partitioner
  | .next =>
      if p.back.idx + 1 < 2 ^ 32 then
        match p.nextPart cs false with
        | .ok (true, q) => some q
        | _ => none
      else none
  | .turn modeType => some (p.turn p.chType p.treeType modeType)
  | .split kind =>
      if kind.isTransform = false → p.currTrDepth = 0 then
        match p.canSplit cs kind, p.splitCurrArea cs kind with
        | .ok (true, _), .ok q => some q
        | _, _ => none
      else none

theorem Reachable.move {q : Partitioner} {cs : PartitionParams} {m : Move} (reachable : Reachable p)
    (run : Partitioner.move cs p m = some q) : Reachable q := by
  cases m with
  | next =>
      rw [Partitioner.move] at run
      split at run
      case isFalse => cases run
      case isTrue small =>
        split at run
        case h_1 next =>
          cases run
          exact reachable.next small next
        case h_2 => cases run
  | turn modeType =>
      cases run
      exact reachable.turn _ _ _
  | split kind =>
      rw [Partitioner.move] at run
      split at run
      case isFalse => cases run
      case isTrue apart =>
        split at run
        case h_1 may enter =>
          cases run
          exact reachable.split ⟨_, may⟩ apart enter
        case h_2 => cases run

theorem Reachable.moves {q : Partitioner} {cs : PartitionParams} {ms : List Move}
    (reachable : Reachable p) (run : ms.foldlM (Partitioner.move cs) p = some q) : Reachable q := by
  induction ms generalizing p with
  | nil =>
      cases run
      exact reachable
  | cons m ms ih =>
      rw [List.foldlM_cons] at run
      obtain ⟨next, first, rest⟩ := Option.bind_eq_some_iff.mp run
      exact ih (reachable.move first) rest

/-- A picture that ends eight samples below the last but one row of 32. -/
def lowLimits : PartitionParams :=
  { wideLimits with
    maxBtSize := fun _ => 32, maxTtSize := fun _ => 32, pictureY := ⟨⟨0, 0⟩, 256, 232⟩ }

def lowCtu : Partitioner :=
  initCtu ⟨[⟨⟨128, 128⟩, 128, 128⟩, ⟨⟨64, 64⟩, 64, 64⟩, ⟨⟨64, 64⟩, 64, 64⟩]⟩ .CHANNEL_TYPE_LUMA

/-- Two implicit quad splits and two implicit binary ones down to the edge; then, in
intra mode, a ternary split and a binary one of its middle part. -/
def edgeMoves : List Move :=
  [.split .CU_QUAD_SPLIT, .next, .next, .split .CU_QUAD_SPLIT, .next, .next, .split .CU_HORZ_SPLIT,
    .split .CU_HORZ_SPLIT, .turn .MODE_TYPE_INTRA, .split .CU_TRIV_SPLIT, .next,
    .split .CU_HORZ_SPLIT]

theorem splitSeries_faithful_edge :
    ∃ p cu, edgeMoves.foldlM (move lowLimits) lowCtu = some p ∧ p.setCUData = .ok cu ∧
      cu.depth = 6 ∧ p.splitLevels.map PartLevel.isImplicit = [true, true, true, false, false, false] ∧
      getSplitAtDepth cu.toSplitUnit 0 = .ok .CU_QUAD_SPLIT ∧
      getSplitAtDepth cu.toSplitUnit 3 = .ok .CU_HORZ_SPLIT ∧
      getSplitAtDepth cu.toSplitUnit 4 = .ok .CU_TRIV_SPLIT ∧
      getModeTypeAtDepth cu 3 = .ok ModeType.MODE_TYPE_ALL.code ∧
      getModeTypeAtDepth cu 5 = .ok ModeType.MODE_TYPE_INTRA.code := by
  have run : ∃ p parts₁ parts₂ parts₃ parts₄ parts₅ parts₆,
      edgeMoves.foldlM (move lowLimits) lowCtu = some p ∧ p.currTrDepth = 0 ∧
      p.entries = [(.CU_HORZ_SPLIT, parts₁), (.CU_TRIV_SPLIT, parts₂), (.CU_HORZ_SPLIT, parts₃),
        (.CU_HORZ_SPLIT, parts₄), (.CU_QUAD_SPLIT, parts₅), (.CU_QUAD_SPLIT, parts₆),
        (.CTU_LEVEL, [⟨[⟨⟨128, 128⟩, 128, 128⟩, ⟨⟨64, 64⟩, 64, 64⟩, ⟨⟨64, 64⟩, 64, 64⟩]⟩])] ∧
      p.splitLevels.map PartLevel.isImplicit = [true, true, true, false, false, false] ∧
      p.splitLevels.map PartLevel.split = [.CU_QUAD_SPLIT, .CU_QUAD_SPLIT, .CU_HORZ_SPLIT,
        .CU_HORZ_SPLIT, .CU_TRIV_SPLIT, .CU_HORZ_SPLIT] ∧
      p.splitLevels.map PartLevel.modeType = [.MODE_TYPE_ALL, .MODE_TYPE_ALL, .MODE_TYPE_ALL,
        .MODE_TYPE_ALL, .MODE_TYPE_INTRA, .MODE_TYPE_INTRA] :=
    ⟨_, _, _, _, _, _, _, rfl, rfl, rfl, rfl, rfl, rfl⟩
  obtain ⟨p, _, _, _, _, _, _, run, unit, entries, implicit, splits, modes⟩ := run
  have within : WithinCtu MAX_CU_SIZE p.entries := by
    rw [entries]
    intro entry member ctu area inside
    simp only [List.mem_cons, List.not_mem_nil, or_false] at member
    rcases member with rfl | rfl | rfl | rfl | rfl | rfl | rfl
    case inr.inr.inr.inr.inr.inr =>
      obtain rfl := List.mem_singleton.mp inside
      decide
    all_goals cases ctu
  have depth : p.splitLevels.length = 6 := by
    rw [← List.length_map PartLevel.split, splits]
    rfl
  obtain ⟨cu, set, deep, -, back, -⟩ :=
    splitSeries_faithful (Reachable.moves (.ctu _ _) run) within unit
  have splitAt {i : Nat} {kind : PartSplit}
      (here : (p.splitLevels.map PartLevel.split)[i]? = some kind) :
      getSplitAtDepth cu.toSplitUnit i = .ok kind := by
    rw [List.getElem?_map, Option.map_eq_some_iff] at here
    obtain ⟨level, here, rfl⟩ := here
    exact (back i level here).1
  have modeAt {i : Nat} {mode : ModeType}
      (here : (p.splitLevels.map PartLevel.modeType)[i]? = some mode) :
      getModeTypeAtDepth cu i = .ok mode.code := by
    rw [List.getElem?_map, Option.map_eq_some_iff] at here
    obtain ⟨level, here, rfl⟩ := here
    exact (back i level here).2
  exact ⟨p, cu, run, set, deep.trans depth, implicit, splitAt (by rw [splits]; rfl),
    splitAt (by rw [splits]; rfl), splitAt (by rw [splits]; rfl), modeAt (by rw [modes]; rfl),
    modeAt (by rw [modes]; rfl)⟩

end

end Partitioner

end Vtm
