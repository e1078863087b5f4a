import Vtm.Slice.Substreams
import Vtm.Decoder.VLCReader
import Mathlib.Data.List.Destutter
import Mathlib.Data.List.TakeWhile
import Mathlib.Order.Interval.Finset.Nat
import Mathlib.Algebra.BigOperators.Group.Finset.Basic

/-!
# Substream indices

The substreams that `DecSlice::decompressSlice` selects, whatever it reads from them. The
number of substreams comes from the slice header and the index from the bricks, and nothing
compares the two: `indexesSubstreams_iff` says when they agree.
-/

namespace Vtm

open Vtm.Std
open BrickMap (create)

namespace DecSlice

/-- What the loop reads from the substreams: `coding_tree_unit`, which returns
`isLastCtuOfSliceSegment`, then `terminating_bit` and `remaining_bytes`. -/
structure SliceData where
  codingTreeUnit : Nat → Checked Bool
  terminatingBit : Nat → Checked Bool
  remainingBytes : (noTrailingBytesExpected : Bool) → Nat → Checked Unit

section Walk

variable (map : BrickMap) (slice : SliceArea) (data : SliceData)

/-- The reading of a CTU up to the end of its round; the result is
`isLastCtuOfSliceSegment`. -/
def readCtu (ctuTsAddr : Nat) : Checked Bool := do
  let isLastCtuOfSliceSegment ← data.codingTreeUnit ctuTsAddr
  if isLastCtuOfSliceSegment then
    data.remainingBytes false ctuTsAddr
    return true
  else if endsSubstream map slice ctuTsAddr then
    let binVal ← data.terminatingBit ctuTsAddr
    CHECK (!binVal) "Expecting a terminating bit"
    data.remainingBytes true ctuTsAddr
    return false
  else return false

/-- The loop over addresses in brick scan: the indices of the substreams that
`initBitstream` is called with, and how it ends. -/
@[grind =] def selectSubstreams : List Nat → Nat → List Nat × Checked Unit
  | [], _ => ([], .error "Last CTU of slice segment not signalled as such")
  | ctuTsAddr :: rest, subStrmId =>
      if map.skips slice ctuTsAddr then selectSubstreams rest subStrmId
      else
        match readCtu map slice data ctuTsAddr with
        | .error e => ([subStrmId], .error e)
        | .ok true => ([subStrmId], .ok ())
        | .ok false =>
            let (selected, result) := selectSubstreams rest
              (if endsSubstream map slice ctuTsAddr then subStrmId + 1 else subStrmId)
            (subStrmId :: selected, result)

/-- The addresses of the loop. -/
def loopAddresses : List Nat :=
  List.range' slice.startCtuTsAddr (map.sizeInCtus - slice.startCtuTsAddr)

/-- `decompressSlice`. In front of the loop the first substream is selected. -/
def selectedSubstreams : List Nat × Checked Unit :=
  let (selected, result) := selectSubstreams map slice data (loopAddresses map slice) 0
  (0 :: selected, result)

/-- The CTUs of the slice and those behind it. -/
def visitedCtus : List Nat :=
  (loopAddresses map slice).filter fun ctuTsAddr => !map.skips slice ctuTsAddr

/-- The loop is left behind a CTU: it is the last one, or a `CHECK` fails. -/
def stops (ctuTsAddr : Nat) : Bool :=
  match readCtu map slice data ctuTsAddr with
  | .ok false => false
  | _ => true

/-- The CTU that the loop is left behind. -/
@[grind =] def lastCtu (ctus : List Nat) : Option Nat := ctus.find? (stops map slice data)

/-- The CTUs in front of the last one that is read. -/
@[grind =] def ctusBeforeLast (ctus : List Nat) : List Nat :=
  match lastCtu map slice data ctus with
  | some _ => ctus.takeWhile fun ctuTsAddr => !stops map slice data ctuTsAddr
  | none => ctus.dropLast

/-- The substreams that end in front of the last CTU that is read. -/
@[grind =] def substreamEnds (ctus : List Nat) : Nat :=
  (ctusBeforeLast map slice data ctus).countP (endsSubstream map slice)

/-- The last CTU that is read ends the slice. -/
@[grind =] def endsSlice (ctus : List Nat) : Bool :=
  match (lastCtu map slice data ctus).map (readCtu map slice data) with
  | some (.ok true) => true
  | _ => false

end Walk

/-- The substreams of a slice are indexed in range, and a slice that is decoded hands each of
them to the bin decoder once, one after the other. To name the current one again does
nothing. -/
def IndexesSubstreams (numSubstreams : Nat) (run : List Nat × Checked Unit) : Prop :=
  (∀ subStrmId ∈ run.1, subStrmId < numSubstreams) ∧
    (run.2 = .ok () → run.1.destutter (· ≠ ·) = List.range numSubstreams)

/-- The number of entry points is that of the substreams that end in front of the CTU where
the data ends the slice, or not less than in front of the last CTU if the data does not end
it. For a slice of whole bricks that its data codes as it should, `matchesLayout_iff` says
what that number is. -/
def MatchesLayout (map : BrickMap) (slice : SliceArea) (data : SliceData)
    (numEntryPointOffsets : Nat) : Prop :=
  if endsSlice map slice data (visitedCtus map slice) then
    numEntryPointOffsets = substreamEnds map slice data (visitedCtus map slice)
  else substreamEnds map slice data (visitedCtus map slice) ≤ numEntryPointOffsets

instance (map : BrickMap) (slice : SliceArea) (data : SliceData) (numEntryPointOffsets : Nat) :
    Decidable (MatchesLayout map slice data numEntryPointOffsets) := by
  unfold MatchesLayout
  infer_instance

section Select

variable {map : BrickMap} {slice : SliceArea} {data : SliceData}

theorem selectSubstreams_filter (ctus : List Nat) (subStrmId : Nat) :
    selectSubstreams map slice data ctus subStrmId =
      selectSubstreams map slice data
        (ctus.filter fun ctuTsAddr => !map.skips slice ctuTsAddr) subStrmId := by
  induction ctus generalizing subStrmId with
  | nil => rfl
  | cons ctuTsAddr rest ih =>
      by_cases skips : map.skips slice ctuTsAddr
      · rw [selectSubstreams, if_pos skips, ih, List.filter_cons_of_neg (by simp [skips])]
      · rw [List.filter_cons_of_pos (by simp [skips]), selectSubstreams, selectSubstreams,
          if_neg skips, if_neg skips, ih]

/-- A CTU behind which the loop is left. -/
theorem last_of_stops {ctuTsAddr : Nat} (left : stops map slice data ctuTsAddr)
    (rest : List Nat) :
    substreamEnds map slice data (ctuTsAddr :: rest) = 0 ∧
      (endsSlice map slice data (ctuTsAddr :: rest) ↔
        readCtu map slice data ctuTsAddr = .ok true) := by
  have last : lastCtu map slice data (ctuTsAddr :: rest) = some ctuTsAddr := by
    rw [lastCtu, List.find?_cons, left]
  constructor
  · rw [substreamEnds, ctusBeforeLast, last]
    simp [left]
  · rw [endsSlice, last, Option.map_some]
    split <;> simp_all

/-- A CTU behind which the loop goes on. -/
theorem endsSlice_cons {ctuTsAddr : Nat} (goesOn : stops map slice data ctuTsAddr = false)
    (rest : List Nat) :
    endsSlice map slice data (ctuTsAddr :: rest) = endsSlice map slice data rest := by
  rw [endsSlice, lastCtu, List.find?_cons, goesOn, endsSlice, lastCtu]

theorem substreamEnds_cons {ctuTsAddr : Nat} {rest : List Nat}
    (goesOn : stops map slice data ctuTsAddr = false) (more : rest ≠ []) :
    substreamEnds map slice data (ctuTsAddr :: rest) =
      substreamEnds map slice data rest +
        if endsSubstream map slice ctuTsAddr then 1 else 0 := by
  have last : lastCtu map slice data (ctuTsAddr :: rest) = lastCtu map slice data rest := by
    rw [lastCtu, List.find?_cons, goesOn, lastCtu]
  have front : ctusBeforeLast map slice data (ctuTsAddr :: rest) =
      ctuTsAddr :: ctusBeforeLast map slice data rest := by
    rw [ctusBeforeLast, last, ctusBeforeLast]
    split
    · rw [List.takeWhile_cons, if_pos (by simp [goesOn])]
    · exact List.dropLast_cons_of_ne_nil more
  rw [substreamEnds, front, List.countP_cons, substreamEnds]

theorem stops_eq_false_iff {ctuTsAddr : Nat} :
    stops map slice data ctuTsAddr = false ↔ readCtu map slice data ctuTsAddr = .ok false := by
  rw [stops]
  split <;> simp_all

/-- A round that does not leave the loop. -/
theorem selectSubstreams_cons {ctuTsAddr : Nat} (visited : map.skips slice ctuTsAddr = false)
    (goesOn : stops map slice data ctuTsAddr = false) (rest : List Nat) (subStrmId : Nat) :
    selectSubstreams map slice data (ctuTsAddr :: rest) subStrmId =
      let next := selectSubstreams map slice data rest
        (if endsSubstream map slice ctuTsAddr then subStrmId + 1 else subStrmId)
      (subStrmId :: next.1, next.2) := by
  rw [selectSubstreams, if_neg (by simp [visited]), stops_eq_false_iff.mp goesOn]

/-- The round that leaves the loop. -/
theorem selectSubstreams_of_stops {ctuTsAddr : Nat} (visited : map.skips slice ctuTsAddr = false)
    (left : stops map slice data ctuTsAddr) (rest : List Nat) (subStrmId : Nat) :
    (selectSubstreams map slice data (ctuTsAddr :: rest) subStrmId).1 = [subStrmId] ∧
      ((selectSubstreams map slice data (ctuTsAddr :: rest) subStrmId).2 = .ok () ↔
        readCtu map slice data ctuTsAddr = .ok true) := by
  rw [selectSubstreams, if_neg (by simp [visited])]
  cases read : readCtu map slice data ctuTsAddr with
  | error e => simp
  | ok last =>
      cases last with
      | true => simp
      | false => exact absurd left (by simp [stops_eq_false_iff.mpr read])

/-- What is selected from a CTU on. -/
theorem selectSubstreams_spec {ctus : List Nat}
    (visited : ∀ ctuTsAddr ∈ ctus, map.skips slice ctuTsAddr = false) (subStrmId : Nat) :
    (ctus ≠ [] → ∃ selected,
      (selectSubstreams map slice data ctus subStrmId).1 = subStrmId :: selected) ∧
    (selectSubstreams map slice data ctus subStrmId).1.destutter' (· ≠ ·) subStrmId =
      List.range' subStrmId (substreamEnds map slice data ctus + 1) ∧
    ((selectSubstreams map slice data ctus subStrmId).2 = .ok () ↔
      endsSlice map slice data ctus) := by
  induction ctus generalizing subStrmId with
  | nil =>
      refine ⟨fun h => absurd rfl h, rfl, ?_⟩
      simp [selectSubstreams, endsSlice, lastCtu]
  | cons ctuTsAddr rest ih =>
      have here := visited ctuTsAddr List.mem_cons_self
      have ih := ih fun t member => visited t (List.mem_cons_of_mem _ member)
      cases left : stops map slice data ctuTsAddr with
      | true =>
          obtain ⟨selected, result⟩ := selectSubstreams_of_stops here left rest subStrmId
          obtain ⟨none', ends⟩ := last_of_stops left rest
          rw [selected, result, none', ends]
          exact ⟨fun _ => ⟨[], rfl⟩, by simp, Iff.rfl⟩
      | false =>
          rw [selectSubstreams_cons here left, endsSlice_cons left]
          obtain ⟨first, handed, result⟩ :=
            ih (if endsSubstream map slice ctuTsAddr then subStrmId + 1 else subStrmId)
          refine ⟨fun _ => ⟨_, rfl⟩, ?_, result⟩
          simp only [List.destutter'_cons, ne_eq, not_true_eq_false, if_false]
          by_cases none' : rest = []
          · subst none'
            simp [selectSubstreams, substreamEnds, ctusBeforeLast, lastCtu, left]
          · rw [substreamEnds_cons left none']
            by_cases ended : endsSubstream map slice ctuTsAddr
            · -- the next CTU selects the next substream
              rw [if_pos ended] at first handed
              rw [if_pos ended, if_pos ended]
              obtain ⟨selected, cons⟩ := first none'
              rw [cons] at handed ⊢
              simp only [List.destutter'_cons, ne_eq, not_true_eq_false, if_false] at handed
              rw [List.destutter'_cons_pos _ (by simp), handed, ← List.range'_succ]
            · rw [if_neg ended] at handed
              rw [if_neg ended, Nat.add_zero]
              rw [if_neg ended]
              exact handed

theorem mem_destutter'_ne {prev x : Nat} {l : List Nat} :
    x ∈ l.destutter' (· ≠ ·) prev ↔ x ∈ prev :: l := by
  induction l generalizing prev with
  | nil => rfl
  | cons current l ih =>
      by_cases same : prev = current
      · subst same
        rw [List.destutter'_cons_neg _ (by simp), ih]
        simp
      · rw [List.destutter'_cons_pos _ same, List.mem_cons, ih]
        simp

end Select

/-! ## Slices of whole bricks -/

/-- The data of a slice that is coded as it should be: its last CTU says so, and each
substream ends with its terminating bit. -/
structure Conforms (map : BrickMap) (slice : SliceArea) (data : SliceData) : Prop where
  last : ∀ ctuTsAddr, Visited map slice ctuTsAddr →
    data.codingTreeUnit ctuTsAddr = .ok (ctuTsAddr + 1 = slice.endCtuTsAddr)
  ended : ∀ ctuTsAddr, data.terminatingBit ctuTsAddr = .ok true
  emptied : ∀ expected ctuTsAddr, data.remainingBytes expected ctuTsAddr = .ok ()

instance (map : BrickMap) (slice : SliceArea) (ctuTsAddr : Nat) :
    Decidable (Visited map slice ctuTsAddr) :=
  inferInstanceAs (Decidable (_ ∧ _ ∧ _))

/-- The CTUs of the slice. -/
def ctusOfSlice (map : BrickMap) (slice : SliceArea) : Finset Nat :=
  (Finset.range map.sizeInCtus).filter (Visited map slice)

/-- The substreams of a slice of whole bricks: one for each brick, or with wavefronts one for
each row of CTUs of a brick. -/
def numSubstreamsOfLayout (map : BrickMap) (slice : SliceArea) : Nat :=
  ∑ k ∈ (ctusOfSlice map slice).image map.brickIdxBsMap,
    if slice.entropyCodingSyncEnabledFlag then (map.bricks.getD k default).heightInCtus else 1

section Whole

variable {sps : SPS} {pps : PPS} (valid : ValidTiles sps pps) {slice : SliceArea}

include valid in
/-- The substreams of a brick: one for each of its rows with wavefronts, or one. -/
theorem card_ends_brick (slice : SliceArea) {k : Nat} (hk : k < (pps.bricks sps).length) :
    ((Finset.range (create sps pps).sizeInCtus).filter fun ctuTsAddr =>
      (create sps pps).brickIdxBsMap ctuTsAddr = k ∧
        endsSubstream (create sps pps) slice ctuTsAddr).card =
      if slice.entropyCodingSyncEnabledFlag then (pps.bricks sps)[k].heightInCtus else 1 := by
  obtain ⟨columns, tall⟩ := valid.brick_pos (List.getElem_mem hk)
  have getD : (create sps pps).bricks.getD k default = (pps.bricks sps)[k] :=
    List.getD_eq_getElem _ _ hk
  set rect := (pps.bricks sps)[k].rect with rectEq
  have width : 0 < rect.width := columns
  have tall : 0 < rect.height := tall
  have height : rect.height = (pps.bricks sps)[k].heightInCtus := rfl
  have right : rect.right = rect.left + rect.width := rfl
  have bottom : rect.bottom = rect.top + rect.height := rfl
  set place := fun y =>
    cellsBefore ((pps.bricks sps).map Brick.rect) k + rect.offset (rect.right - 1) y with placeEq
  set rows := if slice.entropyCodingSyncEnabledFlag then Finset.Ico rect.top rect.bottom
    else {rect.bottom - 1} with rowsEq
  have mem_rows (y : Nat) : y ∈ rows ↔ (rect.top ≤ y ∧ y < rect.bottom) ∧
      (y + 1 = rect.bottom ∨ slice.entropyCodingSyncEnabledFlag = true) := by
    rw [rowsEq]
    by_cases sync : slice.entropyCodingSyncEnabledFlag = true
    · simp [sync]
    · rw [if_neg sync, Finset.mem_singleton]
      constructor
      · intro same
        exact ⟨⟨by omega, by omega⟩, Or.inl (by omega)⟩
      · rintro ⟨-, row | sync'⟩
        · omega
        · exact absurd sync' sync
  have image : ((Finset.range (create sps pps).sizeInCtus).filter fun ctuTsAddr =>
      (create sps pps).brickIdxBsMap ctuTsAddr = k ∧
        endsSubstream (create sps pps) slice ctuTsAddr) = rows.image place := by
    ext ctuTsAddr
    rw [Finset.mem_filter, Finset.mem_range, Finset.mem_image]
    constructor
    · rintro ⟨inside, idx, ends⟩
      obtain ⟨k', x, y, ctuAt⟩ := exists_ctuAt valid inside
      obtain rfl : k' = k := ctuAt.idxBs.symm.trans idx
      obtain ⟨column, row⟩ := (decEnds_iff ctuAt).mp ends
      rw [getD] at column row
      have contains : rect.Contains x y := ctuAt.inside
      refine ⟨y, (mem_rows y).mpr ⟨contains.2, row⟩, ?_⟩
      have here : ctuTsAddr = cellsBefore ((pps.bricks sps).map Brick.rect) k' +
        rect.offset x y := ctuAt.place
      rw [here, placeEq, ← column]
      rfl
    · rintro ⟨y, member, rfl⟩
      obtain ⟨inRows, row⟩ := (mem_rows y).mp member
      have contains : rect.Contains (rect.right - 1) y := ⟨⟨by omega, by omega⟩, inRows⟩
      have ctuAt := ctuAt_of_contains valid hk contains
      refine ⟨ctuAt.lt valid, ctuAt.idxBs, (decEnds_iff ctuAt).mpr ?_⟩
      rw [getD]
      exact ⟨Nat.sub_add_cancel (by omega), row⟩
  rw [image, Finset.card_image_of_injOn]
  · rw [rowsEq]
    split
    · rw [Nat.card_Ico, bottom, height, Nat.add_sub_cancel_left]
    · rfl
  · intro y member y' member' same
    have above := ((mem_rows y).mp member).1.1
    have above' := ((mem_rows y').mp member').1.1
    have offsets : (y - rect.top) * rect.width = (y' - rect.top) * rect.width := by
      have := Nat.add_left_cancel same
      simp only [Rect.offset] at this
      omega
    have equal := Nat.eq_of_mul_eq_mul_right width offsets
    omega

variable (whole : WholeBricks (create sps pps) slice)
include valid whole

/-- The last CTU of the slice is the last one of its brick. -/
theorem ends_last :
    endsSubstream (create sps pps) slice (slice.endCtuTsAddr - 1) = true := by
  have inside := lt_of_lt_of_le whole.last.2.1 whole.within
  obtain ⟨k, x, y, ctuAt⟩ := exists_ctuAt valid inside
  have hk : k < (pps.bricks sps).length := ctuAt.brick
  have contains : (pps.bricks sps)[k].rect.Contains x y := ctuAt.inside
  have place : slice.endCtuTsAddr - 1 = cellsBefore ((pps.bricks sps).map Brick.rect) k +
    (pps.bricks sps)[k].rect.offset x y := ctuAt.place
  have all : (pps.bricks sps)[k].rect.offset x y + 1 = (pps.bricks sps)[k].rect.area := by
    by_contra more
    -- the next CTU would be in the brick, but not in the slice
    obtain ⟨there, offset⟩ := (pps.bricks sps)[k].rect.contains_of_offset
      (lt_of_le_of_ne contains.offset_lt more)
    have next := ctuAt_of_contains valid hk there
    have visited := whole.whole _ _ whole.last (next.lt valid)
      (next.idxBs.trans ctuAt.idxBs.symm)
    have before := visited.2.1
    rw [offset] at before
    have last := whole.last.2.1
    omega
  obtain ⟨column, row⟩ := contains.last_iff.mp all
  have brick : (create sps pps).bricks.getD k default = (pps.bricks sps)[k] :=
    List.getD_eq_getElem _ _ hk
  refine (decEnds_iff ctuAt).mpr ?_
  rw [brick]
  exact ⟨column, Or.inl row⟩

theorem card_ends_slice : ((ctusOfSlice (create sps pps) slice).filter fun ctuTsAddr =>
      endsSubstream (create sps pps) slice ctuTsAddr = true).card =
    numSubstreamsOfLayout (create sps pps) slice := by
  set map := create sps pps with mapEq
  rw [Finset.card_eq_sum_card_fiberwise (f := map.brickIdxBsMap)
    (t := (ctusOfSlice map slice).image map.brickIdxBsMap), numSubstreamsOfLayout]
  · refine Finset.sum_congr rfl fun k member => ?_
    obtain ⟨ctuTsAddr, inSlice, idx⟩ := Finset.mem_image.mp member
    obtain ⟨inside, visited⟩ := Finset.mem_filter.mp inSlice
    obtain ⟨k', x, y, ctuAt⟩ := exists_ctuAt valid (Finset.mem_range.mp inside)
    obtain rfl : k' = k := ctuAt.idxBs.symm.trans idx
    have hk : k' < (pps.bricks sps).length := ctuAt.brick
    have brick : map.bricks.getD k' default = (pps.bricks sps)[k'] := List.getD_eq_getElem _ _ hk
    rw [brick, ← card_ends_brick valid slice hk]
    congr 1
    ext other
    simp only [Finset.mem_filter, ctusOfSlice, ← mapEq]
    constructor
    · rintro ⟨⟨⟨inside', -⟩, ends⟩, same⟩
      exact ⟨inside', same, ends⟩
    · rintro ⟨inside', same, ends⟩
      have visited' := whole.whole _ _ visited (Finset.mem_range.mp inside') (same.trans idx.symm)
      exact ⟨⟨⟨inside', visited'⟩, ends⟩, same⟩
  · intro ctuTsAddr member
    exact Finset.mem_image_of_mem _ (Finset.mem_filter.mp member).1

end Whole

section Conforming

variable {map : BrickMap} {slice : SliceArea} {data : SliceData}

theorem readCtu_of_conforms (conforms : Conforms map slice data) {ctuTsAddr : Nat}
    (visited : Visited map slice ctuTsAddr) :
    readCtu map slice data ctuTsAddr = .ok (ctuTsAddr + 1 = slice.endCtuTsAddr) := by
  rw [readCtu, conforms.last _ visited, conforms.ended, conforms.emptied, conforms.emptied]
  by_cases last : ctuTsAddr + 1 = slice.endCtuTsAddr
  · simp [last]
    rfl
  · simp [last]
    split <;> rfl

/-- The CTUs in front of the last one of the slice. -/
def ctusInFront (map : BrickMap) (slice : SliceArea) : List Nat :=
  (List.range' slice.startCtuTsAddr (slice.endCtuTsAddr - 1 - slice.startCtuTsAddr)).filter
    fun ctuTsAddr => !map.skips slice ctuTsAddr

theorem mem_ctusInFront {ctuTsAddr : Nat} :
    ctuTsAddr ∈ ctusInFront map slice ↔
      Visited map slice ctuTsAddr ∧ ctuTsAddr + 1 < slice.endCtuTsAddr := by
  simp only [ctusInFront, List.mem_filter, List.mem_range'_1, Visited, Bool.not_eq_true']
  constructor
  · rintro ⟨⟨start, before⟩, visited⟩
    exact ⟨⟨start, by omega, visited⟩, by omega⟩
  · rintro ⟨⟨start, -, visited⟩, before⟩
    exact ⟨⟨start, by omega⟩, visited⟩

/-- The last CTU of the slice among the visited ones. -/
theorem visitedCtus_eq (whole : WholeBricks map slice) : ∃ rest,
    visitedCtus map slice = ctusInFront map slice ++ (slice.endCtuTsAddr - 1) :: rest := by
  obtain ⟨start, before, visited⟩ := whole.last
  have within := whole.within
  refine ⟨(List.range' slice.endCtuTsAddr (map.sizeInCtus - slice.endCtuTsAddr)).filter
    fun ctuTsAddr => !map.skips slice ctuTsAddr, ?_⟩
  have addresses : loopAddresses map slice =
      List.range' slice.startCtuTsAddr (slice.endCtuTsAddr - 1 - slice.startCtuTsAddr) ++
        List.range' (slice.endCtuTsAddr - 1) (map.sizeInCtus - slice.endCtuTsAddr + 1) := by
    have joined := @List.range'_append_1 slice.startCtuTsAddr
      (slice.endCtuTsAddr - 1 - slice.startCtuTsAddr) (map.sizeInCtus - slice.endCtuTsAddr + 1)
    rw [Nat.add_sub_cancel' start] at joined
    rw [joined, loopAddresses]
    congr 1
    omega
  rw [visitedCtus, addresses, List.filter_append, List.range'_succ, List.filter_cons_of_pos
    (by simp [visited]), Nat.sub_add_cancel (by omega)]
  rfl

theorem stops_last (whole : WholeBricks map slice) (conforms : Conforms map slice data) :
    readCtu map slice data (slice.endCtuTsAddr - 1) = .ok true ∧
      stops map slice data (slice.endCtuTsAddr - 1) = true := by
  have before := whole.last.2.1
  have read := readCtu_of_conforms conforms whole.last
  rw [Nat.sub_add_cancel (by omega), decide_eq_true rfl] at read
  exact ⟨read, by rw [stops, read]⟩

theorem not_stops_inFront (conforms : Conforms map slice data) :
    ∀ ctuTsAddr ∈ ctusInFront map slice, stops map slice data ctuTsAddr = false := by
  intro ctuTsAddr member
  obtain ⟨visited, before⟩ := mem_ctusInFront.mp member
  have read := readCtu_of_conforms conforms visited
  rw [decide_eq_false (by omega)] at read
  exact stops_eq_false_iff.mpr read

/-- The data of the slice ends it at its last CTU. -/
theorem lastCtu_of_conforms (whole : WholeBricks map slice) (conforms : Conforms map slice data) :
    lastCtu map slice data (visitedCtus map slice) = some (slice.endCtuTsAddr - 1) ∧
      ctusBeforeLast map slice data (visitedCtus map slice) = ctusInFront map slice := by
  obtain ⟨rest, visited⟩ := visitedCtus_eq whole
  obtain ⟨-, left⟩ := stops_last whole conforms
  have goesOn := not_stops_inFront conforms
  have last : lastCtu map slice data (visitedCtus map slice) = some (slice.endCtuTsAddr - 1) := by
    have inFront : (ctusInFront map slice).find? (stops map slice data) = none :=
      List.find?_eq_none.mpr fun ctuTsAddr member => by simp [goesOn ctuTsAddr member]
    rw [lastCtu, visited, List.find?_append, inFront, Option.none_or, List.find?_cons, left]
  refine ⟨last, ?_⟩
  rw [ctusBeforeLast, last, visited]
  dsimp only
  rw [List.takeWhile_append_of_pos fun ctuTsAddr member => by simp [goesOn ctuTsAddr member],
    List.takeWhile_cons_of_neg (by simp [left]), List.append_nil]

theorem endsSlice_of_conforms (whole : WholeBricks map slice) (conforms : Conforms map slice data) :
    endsSlice map slice data (visitedCtus map slice) = true := by
  rw [endsSlice, (lastCtu_of_conforms whole conforms).1, Option.map_some,
    (stops_last whole conforms).1]

/-- The number of entry points of a slice of whole bricks that is coded as it should be. -/
theorem matchesLayout_iff {sps : SPS} {pps : PPS} (valid : ValidTiles sps pps)
    (whole : WholeBricks (create sps pps) slice)
    (conforms : Conforms (create sps pps) slice data) (numEntryPointOffsets : Nat) :
    MatchesLayout (create sps pps) slice data numEntryPointOffsets ↔
      numEntryPointOffsets + 1 = numSubstreamsOfLayout (create sps pps) slice := by
  have ends : ((slice.endCtuTsAddr - 1) :: ctusInFront (create sps pps) slice).countP
      (endsSubstream (create sps pps) slice) =
        numSubstreamsOfLayout (create sps pps) slice := by
    have nodup : ((slice.endCtuTsAddr - 1) :: ctusInFront (create sps pps) slice).Nodup := by
      refine List.nodup_cons.mpr ⟨fun member => ?_, List.Nodup.filter _ List.nodup_range'⟩
      have before := (mem_ctusInFront.mp member).2
      omega
    rw [List.countP_eq_length_filter, ← List.toFinset_card_of_nodup (nodup.filter _),
      ← card_ends_slice valid whole]
    congr 1
    ext ctuTsAddr
    rw [List.mem_toFinset, List.mem_filter, List.mem_cons, mem_ctusInFront, Finset.mem_filter,
      ctusOfSlice, Finset.mem_filter, Finset.mem_range]
    have within := whole.within
    constructor
    · rintro ⟨rfl | ⟨visited, -⟩, ended⟩
      · exact ⟨⟨lt_of_lt_of_le whole.last.2.1 within, whole.last⟩, ended⟩
      · exact ⟨⟨lt_of_lt_of_le visited.2.1 within, visited⟩, ended⟩
    · rintro ⟨⟨-, visited⟩, ended⟩
      have before := visited.2.1
      refine ⟨?_, ended⟩
      by_cases last : ctuTsAddr = slice.endCtuTsAddr - 1
      · exact Or.inl last
      · exact Or.inr ⟨visited, by omega⟩
  rw [List.countP_cons, if_pos (ends_last valid whole)] at ends
  rw [MatchesLayout, if_pos (endsSlice_of_conforms whole conforms), substreamEnds,
    (lastCtu_of_conforms whole conforms).2]
  omega

end Conforming

theorem length_extractSubstreams {sizes : List Nat} {bs : InputBitstream}
    {substreams : List InputBitstream}
    (extracted : SliceHeader.extractSubstreams sizes bs = .ok substreams) :
    substreams.length = sizes.length + 1 := by
  induction sizes generalizing bs substreams with
  | nil =>
      simp only [SliceHeader.extractSubstreams, bind_eq_ok_iff] at extracted
      obtain ⟨_, -, built⟩ := extracted
      cases built
      rfl
  | cons size rest ih =>
      simp only [SliceHeader.extractSubstreams, bind_eq_ok_iff] at extracted
      obtain ⟨_, -, later, rest', built⟩ := extracted
      cases built
      rw [List.length_cons, List.length_cons, ih rest']

theorem length_adjustEntryPoints (headerEnd : Nat) (locations : List Nat) (prev : Nat)
    (offsets : List Nat) :
    (SliceHeader.adjustEntryPoints headerEnd locations prev offsets).length = offsets.length := by
  induction offsets generalizing prev with
  | nil => rfl
  | cons offset rest ih => rw [SliceHeader.adjustEntryPoints, List.length_cons, ih, List.length_cons]

/-- There is a substream size for each entry point. -/
theorem length_parseSubstreamSizes {single sync : Bool} {bs front bs' : InputBitstream}
    {offsets sizes : List Nat}
    (signalled : SliceHeader.parseEntryPointOffsets single sync bs = .ok (offsets, front))
    (parsed : SliceHeader.parseSubstreamSizes single sync bs = .ok (sizes, bs')) :
    sizes.length = offsets.length := by
  rw [SliceHeader.parseSubstreamSizes, bind_run signalled, bind_run_ok_iff] at parsed
  obtain ⟨_, aligned, -, rest⟩ := parsed
  split at rest
  · cases rest
    exact length_adjustEntryPoints ..
  · rename_i unsignalled
    rw [SliceHeader.parseEntryPointOffsets, if_neg unsignalled] at signalled
    cases signalled
    cases rest
    rfl

section Index

variable {map : BrickMap} {slice : SliceArea} {data : SliceData} {numEntryPointOffsets : Nat}

theorem selectSubstreams_visitedCtus :
    (selectSubstreams map slice data (loopAddresses map slice) 0).1.destutter' (· ≠ ·) 0 =
        List.range' 0 (substreamEnds map slice data (visitedCtus map slice) + 1) ∧
      ((selectSubstreams map slice data (loopAddresses map slice) 0).2 = .ok () ↔
        endsSlice map slice data (visitedCtus map slice)) := by
  have visited : ∀ ctuTsAddr ∈ visitedCtus map slice, map.skips slice ctuTsAddr = false := by
    intro ctuTsAddr member
    simpa using (List.mem_filter.mp member).2
  have run : selectSubstreams map slice data (loopAddresses map slice) 0 =
      selectSubstreams map slice data (visitedCtus map slice) 0 :=
    selectSubstreams_filter _ 0
  rw [run]
  exact (@selectSubstreams_spec map slice data _ visited 0).2

/-- The indices are those of the substreams that end, and the one behind them. -/
theorem selectedSubstreams_lt_iff :
    (∀ subStrmId ∈ (selectedSubstreams map slice data).1, subStrmId < numEntryPointOffsets + 1) ↔
      substreamEnds map slice data (visitedCtus map slice) ≤ numEntryPointOffsets := by
  have handed := (@selectSubstreams_visitedCtus map slice data).1
  simp only [selectedSubstreams, ← mem_destutter'_ne, handed, List.mem_range'_1]
  constructor
  · intro all
    have last := all (substreamEnds map slice data (visitedCtus map slice)) (by omega)
    omega
  · intro few subStrmId inside
    omega

theorem indexesSubstreams_iff_matchesLayout :
    IndexesSubstreams (numEntryPointOffsets + 1) (selectedSubstreams map slice data) ↔
      MatchesLayout map slice data numEntryPointOffsets := by
  obtain ⟨handed, result⟩ := @selectSubstreams_visitedCtus map slice data
  rw [IndexesSubstreams, selectedSubstreams_lt_iff]
  simp only [selectedSubstreams, List.destutter_cons', handed, result, MatchesLayout]
  rw [← List.range_eq_range']
  have same : List.range (substreamEnds map slice data (visitedCtus map slice) + 1) =
      List.range (numEntryPointOffsets + 1) ↔
        numEntryPointOffsets = substreamEnds map slice data (visitedCtus map slice) := by
    constructor
    · intro ranges
      have lengths := congrArg List.length ranges
      simp only [List.length_range] at lengths
      omega
    · intro lengths
      rw [lengths]
  rw [same]
  split
  · rename_i ends
    constructor
    · exact fun well => well.2 ends
    · exact fun lengths => ⟨lengths.ge, fun _ => lengths⟩
  · rename_i open'
    exact ⟨fun well => well.1, fun few => ⟨few, fun ends => absurd ends open'⟩⟩

/-- The loop is left in front of the last CTU that it can come to, or behind it. -/
theorem substreamEnds_le (ctus : List Nat) :
    substreamEnds map slice data ctus ≤ ctus.dropLast.countP (endsSubstream map slice) := by
  rw [substreamEnds, ctusBeforeLast]
  split
  · rename_i ctuTsAddr last
    have front := List.takeWhile_prefix (l := ctus) fun ctuTsAddr => !stops map slice data ctuTsAddr
    have proper : (ctus.takeWhile fun ctuTsAddr => !stops map slice data ctuTsAddr).length <
        ctus.length := by
      refine lt_of_le_of_ne front.length_le fun whole => ?_
      have all := front.eq_of_length whole
      have member := List.mem_of_find?_eq_some last
      rw [← all] at member
      have goesOn := List.mem_takeWhile_imp member
      rw [List.find?_some last] at goesOn
      cases goesOn
    exact (List.prefix_of_prefix_length_le front (List.dropLast_prefix ctus) (by
      rw [List.length_dropLast]
      omega)).sublist.countP_le
  · exact le_rfl

/-- Data that never ends the slice. -/
def endlessData : SliceData where
  codingTreeUnit _ := .ok false
  terminatingBit _ := .ok true
  remainingBytes _ _ := .ok ()

theorem substreamEnds_endlessData (ctus : List Nat) :
    substreamEnds map slice endlessData ctus = ctus.dropLast.countP (endsSubstream map slice) := by
  have goesOn : ∀ ctuTsAddr, stops map slice endlessData ctuTsAddr = false := by
    intro ctuTsAddr
    rw [stops_eq_false_iff]
    show (if endsSubstream map slice ctuTsAddr then _ else _ : Checked Bool) = _
    split <;> rfl
  have last : lastCtu map slice endlessData ctus = none :=
    List.find?_eq_none.mpr fun ctuTsAddr _ => by simp [goesOn ctuTsAddr]
  rw [substreamEnds, ctusBeforeLast, last]

end Index

/-- Data that is as it should be. -/
def conformingData (slice : SliceArea) : SliceData where
  codingTreeUnit ctuTsAddr := .ok (ctuTsAddr + 1 = slice.endCtuTsAddr)
  terminatingBit _ := .ok true
  remainingBytes _ _ := .ok ()

/-- The end of a slice header in `byte`, with two bytes of data behind it. -/
def headerEnd (byte : UInt8) : InputBitstream := ⟨[byte, 0x80, 0x80], [], 0, 0, 0, 0⟩

/-- What is left behind the header. -/
def sliceData : InputBitstream := ⟨[0x54, 0x80, 0x80], [], 1, 0, 0x54, 8⟩

end DecSlice

end Vtm
