import Vtm.Common.BitStream
import Vtm.Std.IntTable

/-!
# Chroma QP mapping tables

`ChromaQpMappingTable::setParams` and `derivedChromaQPMappingTables`. A table goes down from
its first pivot in steps of one, interpolates between the pivots and goes up in steps of one
behind the last. The range of the last pivot is not checked: `mapsQp_iff`.
-/

namespace Vtm

open Vtm.Std

/-- `ChromaQpMappingTableParams`; the vectors of a table are functions of the position. -/
structure ChromaQpMappingTableParams where
  qpBdOffset : Int
  numQpTables : Nat
  qpTableStartMinus26 : Nat → Int
  numPtsInCQPTableMinus1 : Nat → Nat
  deltaQpInValMinus1 : Nat → Nat → Int
  deltaQpOutVal : Nat → Nat → Int

namespace ChromaQpMappingTableParams

def MAX_QP : Int := 63

def Clip3 (minVal maxVal a : Int) : Int := min (max minVal a) maxVal

def setParams (params : ChromaQpMappingTableParams) (qpBdOffset : Int) :
    ChromaQpMappingTableParams :=
  { params with qpBdOffset := qpBdOffset }

section

variable (p : ChromaQpMappingTableParams) (i : Nat)

/-- `qpInVal` of table `i`. -/
@[grind =] def qpInVal : Nat → Int
  | 0 => p.qpTableStartMinus26 i + 26
  | j + 1 => qpInVal j + p.deltaQpInValMinus1 i j + 1

/-- `qpOutVal` of table `i`. -/
def qpOutVal : Nat → Int
  | 0 => p.qpInVal i 0
  | j + 1 => qpOutVal j + p.deltaQpOutVal i j

/-- The loop that checks the pivots, up to the last but one. -/
def checkPivots : List Nat → Checked Unit
  | [] => return ()
  | j :: rest => do
      CHECK (p.qpInVal i j < -p.qpBdOffset ∨ p.qpInVal i j > MAX_QP) "qpInVal out of range"
      CHECK (p.qpOutVal i j < -p.qpBdOffset ∨ p.qpOutVal i j > MAX_QP) "qpOutVal out of range"
      checkPivots rest

/-- The first pivot and the loop below it; every entry is made from the one above. -/
def fillBelow : Nat → Int → Option Int
  | 0 => enter (fun _ => none) (p.qpInVal i 0) (p.qpOutVal i 0)
  | n + 1 =>
      let table := fillBelow n
      let k := p.qpInVal i 0 - 1 - n
      enter table k (Clip3 (-p.qpBdOffset) MAX_QP ((table (k + 1)).getD 0 - 1))

/-- The first `n` rounds of the loop from pivot `j` to the next one. -/
def fillSegment (table : Int → Option Int) (j : Nat) : Nat → Int → Option Int
  | 0 => table
  | n + 1 =>
      let table := fillSegment table j n
      let sh := (p.deltaQpInValMinus1 i j + 1) / 2
      let m := n + 1
      let k := p.qpInVal i j + m
      enter table k ((table (p.qpInVal i j)).getD 0 + Int.tdiv
        ((p.qpOutVal i (j + 1) - p.qpOutVal i j) * m + sh) (p.deltaQpInValMinus1 i j + 1))

/-- The loop over the first `j` segments. -/
def fillSegments (table : Int → Option Int) : Nat → Int → Option Int
  | 0 => table
  | j + 1 => p.fillSegment i (fillSegments table j) j (p.qpInVal i (j + 1) - p.qpInVal i j).toNat

/-- The first `n` rounds of the loop above the last pivot. -/
def fillAbove (table : Int → Option Int) (last : Int) : Nat → Int → Option Int
  | 0 => table
  | n + 1 =>
      let table := fillAbove table last n
      let k := last + 1 + n
      enter table k (Clip3 (-p.qpBdOffset) MAX_QP ((table (k - 1)).getD 0 + 1))

/-- Table `i`, when its pivots pass the checks. -/
def deriveTable : Int → Option Int :=
  let table := p.fillBelow i (p.qpInVal i 0 + p.qpBdOffset).toNat
  let table := p.fillSegments i table (p.numPtsInCQPTableMinus1 i + 1)
  let last := p.qpInVal i (p.numPtsInCQPTableMinus1 i + 1)
  p.fillAbove table last (MAX_QP - last).toNat

end

/-- The loop over the tables. -/
def deriveTables (p : ChromaQpMappingTableParams) : List Nat → Checked (List (Int → Option Int))
  | [] => return []
  | i :: rest => do
      p.checkPivots i (List.range (p.numPtsInCQPTableMinus1 i + 1))
      let tables ← deriveTables p rest
      return p.deriveTable i :: tables

/-- `derivedChromaQPMappingTables`: the tables of a new object. -/
def derivedChromaQPMappingTables (p : ChromaQpMappingTableParams) :
    Checked (List (Int → Option Int)) :=
  p.deriveTables (List.range p.numQpTables)

/-- What a table is for: it maps exactly the QPs of the range, into the range and without
falling, and each pivot to its output. -/
structure MapsQp (p : ChromaQpMappingTableParams) (i : Nat) (table : Int → Option Int) : Prop where
  rises : Rises (-p.qpBdOffset) MAX_QP (-p.qpBdOffset) MAX_QP table
  pivots : ∀ j ≤ p.numPtsInCQPTableMinus1 i + 1, table (p.qpInVal i j) = some (p.qpOutVal i j)

/-- The pivot that is not checked is in the range. -/
def LastPivotInRange (p : ChromaQpMappingTableParams) (i : Nat) : Prop :=
  p.qpInVal i (p.numPtsInCQPTableMinus1 i + 1) ≤ MAX_QP ∧
    p.qpOutVal i (p.numPtsInCQPTableMinus1 i + 1) ≤ MAX_QP

instance (p : ChromaQpMappingTableParams) (i : Nat) : Decidable (LastPivotInRange p i) :=
  inferInstanceAs (Decidable (_ ∧ _))

/-- Differences as they are signalled. -/
def Ascending (p : ChromaQpMappingTableParams) (i : Nat) : Prop :=
  ∀ j ≤ p.numPtsInCQPTableMinus1 i, 0 ≤ p.deltaQpInValMinus1 i j ∧ 0 ≤ p.deltaQpOutVal i j

section

variable {p : ChromaQpMappingTableParams} {i : Nat}

/-- What the checks say about a pivot. -/
structure PivotInRange (p : ChromaQpMappingTableParams) (i j : Nat) : Prop where
  inLow : -p.qpBdOffset ≤ p.qpInVal i j
  inHigh : p.qpInVal i j ≤ MAX_QP
  outLow : -p.qpBdOffset ≤ p.qpOutVal i j
  outHigh : p.qpOutVal i j ≤ MAX_QP

theorem checkPivots_eq_ok {pivots : List Nat} (passed : p.checkPivots i pivots = .ok ()) :
    ∀ j ∈ pivots, PivotInRange p i j := by
  induction pivots with
  | nil => simp
  | cons j rest ih =>
      rw [checkPivots] at passed
      obtain ⟨inputs, passed⟩ := CHECK_bind_eq_ok_iff.mp passed
      obtain ⟨outputs, passed⟩ := CHECK_bind_eq_ok_iff.mp passed
      intro j' member
      rcases List.mem_cons.mp member with rfl | later
      · exact ⟨by omega, by omega, by omega, by omega⟩
      · exact ih passed j' later

theorem deriveTables_eq_ok {indices : List Nat} {tables : List (Int → Option Int)}
    (derived : p.deriveTables indices = .ok tables) :
    tables = indices.map p.deriveTable ∧
      ∀ i ∈ indices, ∀ j ≤ p.numPtsInCQPTableMinus1 i, PivotInRange p i j := by
  induction indices generalizing tables with
  | nil =>
      cases derived
      exact ⟨rfl, by simp⟩
  | cons i rest ih =>
      rw [deriveTables] at derived
      obtain ⟨_, passed, derived⟩ := bind_eq_ok_iff.mp derived
      obtain ⟨others, more, result⟩ := bind_eq_ok_iff.mp derived
      cases result
      obtain ⟨same, checked⟩ := ih more
      refine ⟨by rw [same, List.map_cons], fun i' member j bound => ?_⟩
      rcases List.mem_cons.mp member with rfl | later
      · exact checkPivots_eq_ok passed j (List.mem_range.mpr (by omega))
      · exact checked i' later j bound

/-- Below the first pivot a QP is mapped to itself. -/
theorem fillBelow_spec (start : PivotInRange p i 0) (n : Nat)
    (rounds : n ≤ (p.qpInVal i 0 + p.qpBdOffset).toNat) :
    Rises (-p.qpBdOffset) MAX_QP (p.qpInVal i 0 - n) (p.qpInVal i 0) (p.fillBelow i n) ∧
      p.fillBelow i n (p.qpInVal i 0 - n) = some (p.qpInVal i 0 - n) ∧
      p.fillBelow i n (p.qpInVal i 0) = some (p.qpOutVal i 0) := by
  have low := start.inLow
  have high := start.inHigh
  induction n with
  | zero =>
      have single : Rises (-p.qpBdOffset) MAX_QP (p.qpInVal i 0) (p.qpInVal i 0)
          (p.fillBelow i 0) := Rises.single ⟨start.outLow, start.outHigh⟩
      simp only [Nat.cast_zero, sub_zero]
      exact ⟨single, enter_self _ _ _, enter_self _ _ _⟩
  | succ n ih =>
      obtain ⟨rises, first, pivot⟩ := ih (by omega)
      have position : p.qpInVal i 0 - 1 - n + 1 = p.qpInVal i 0 - n := by omega
      have value : Clip3 (-p.qpBdOffset) MAX_QP
          ((p.fillBelow i n (p.qpInVal i 0 - 1 - n + 1)).getD 0 - 1) = p.qpInVal i 0 - n - 1 := by
        rw [position, first, Option.getD_some]
        unfold Clip3
        omega
      have entered : p.fillBelow i (n + 1) =
          enter (p.fillBelow i n) (p.qpInVal i 0 - n - 1) (p.qpInVal i 0 - n - 1) := by
        rw [fillBelow, value]
        congr 1
        omega
      rw [entered, show p.qpInVal i 0 - ((n + 1 : Nat) : Int) = p.qpInVal i 0 - n - 1 by omega]
      refine ⟨rises.below first (by omega) (by omega), enter_self _ _ _, ?_⟩
      rw [enter_of_ne (by omega)]
      exact pivot

/-- The part of the way to the next pivot after `m` of `steps` rounds, rounded. -/
def interpolated (rise steps m : Int) : Int := (rise * m + steps / 2) / steps

theorem interpolated_zero {steps : Int} (rise : Int) (positive : 0 < steps) :
    interpolated rise steps 0 = 0 := by
  unfold interpolated
  rw [Int.mul_zero, Int.zero_add]
  exact Int.ediv_eq_zero_of_lt (by omega) (by omega)

theorem interpolated_all {steps : Int} (rise : Int) (positive : 0 < steps) :
    interpolated rise steps steps = rise := by
  have rest : steps / 2 / steps = 0 := Int.ediv_eq_zero_of_lt (by omega) (by omega)
  unfold interpolated
  rw [Int.add_comm, Int.add_mul_ediv_right _ _ (by omega), rest, Int.zero_add]

theorem interpolated_mono {rise steps m m' : Int} (nonneg : 0 ≤ rise) (positive : 0 < steps)
    (ordered : m ≤ m') : interpolated rise steps m ≤ interpolated rise steps m' := by
  have product : rise * m ≤ rise * m' := Int.mul_le_mul_of_nonneg_left ordered nonneg
  exact Int.ediv_le_ediv positive (by omega)

theorem fillSegment_spec {table : Int → Option Int} {j : Nat} {low : Int}
    (rises : Rises (-p.qpBdOffset) MAX_QP low (p.qpInVal i j) table)
    (pivot : table (p.qpInVal i j) = some (p.qpOutVal i j))
    (inputs : 0 ≤ p.deltaQpInValMinus1 i j) (outputs : 0 ≤ p.deltaQpOutVal i j)
    (bounded : p.qpOutVal i (j + 1) ≤ MAX_QP) (n : Nat)
    (rounds : (n : Int) ≤ p.deltaQpInValMinus1 i j + 1) :
    Rises (-p.qpBdOffset) MAX_QP low (p.qpInVal i j + n) (p.fillSegment i table j n) ∧
      p.fillSegment i table j n (p.qpInVal i j + n) = some (p.qpOutVal i j +
        interpolated (p.deltaQpOutVal i j) (p.deltaQpInValMinus1 i j + 1) n) ∧
      ∀ k ≤ p.qpInVal i j, p.fillSegment i table j n k = table k := by
  induction n with
  | zero =>
      rw [Nat.cast_zero, interpolated_zero _ (by omega), Int.add_zero, Int.add_zero]
      exact ⟨rises, pivot, fun _ _ => rfl⟩
  | succ n ih =>
      obtain ⟨before, last, kept⟩ := ih (by omega)
      have difference : p.qpOutVal i (j + 1) - p.qpOutVal i j = p.deltaQpOutVal i j := by
        rw [qpOutVal]
        omega
      have value : (p.fillSegment i table j n (p.qpInVal i j)).getD 0 + Int.tdiv
          ((p.qpOutVal i (j + 1) - p.qpOutVal i j) * ((n + 1 : Nat) : Int) +
            (p.deltaQpInValMinus1 i j + 1) / 2) (p.deltaQpInValMinus1 i j + 1) =
          p.qpOutVal i j + interpolated (p.deltaQpOutVal i j) (p.deltaQpInValMinus1 i j + 1)
            ((n + 1 : Nat) : Int) := by
        have product : 0 ≤ p.deltaQpOutVal i j * ((n + 1 : Nat) : Int) :=
          Int.mul_nonneg outputs (by omega)
        rw [kept _ (Int.le_refl _), pivot, Option.getD_some, difference,
          Int.tdiv_eq_ediv_of_nonneg (by omega)]
        rfl
      have entered : p.fillSegment i table j (n + 1) = enter (p.fillSegment i table j n)
          (p.qpInVal i j + n + 1) (p.qpOutVal i j + interpolated (p.deltaQpOutVal i j)
            (p.deltaQpInValMinus1 i j + 1) ((n + 1 : Nat) : Int)) := by
        rw [fillSegment, ← value]
        congr 1
        omega
      have larger : interpolated (p.deltaQpOutVal i j) (p.deltaQpInValMinus1 i j + 1) n ≤
          interpolated (p.deltaQpOutVal i j) (p.deltaQpInValMinus1 i j + 1) ((n + 1 : Nat) : Int) :=
        interpolated_mono outputs (by omega) (by omega)
      have most : interpolated (p.deltaQpOutVal i j) (p.deltaQpInValMinus1 i j + 1)
          ((n + 1 : Nat) : Int) ≤ p.deltaQpOutVal i j := by
        have whole := interpolated_mono outputs (show 0 < p.deltaQpInValMinus1 i j + 1 by omega)
          rounds
        rwa [interpolated_all _ (by omega)] at whole
      rw [entered, show p.qpInVal i j + ((n + 1 : Nat) : Int) = p.qpInVal i j + n + 1 by omega]
      refine ⟨before.above last (by omega) (by omega), enter_self _ _ _, fun k below => ?_⟩
      rw [enter_of_ne (by omega)]
      exact kept k below

/-- All pivots, the unchecked one among them. -/
theorem pivotInRange (checked : ∀ j ≤ p.numPtsInCQPTableMinus1 i, PivotInRange p i j)
    (ascending : Ascending p i) (last : LastPivotInRange p i) :
    ∀ j ≤ p.numPtsInCQPTableMinus1 i + 1, PivotInRange p i j := by
  intro j bound
  by_cases within : j ≤ p.numPtsInCQPTableMinus1 i
  · exact checked j within
  · obtain rfl : j = p.numPtsInCQPTableMinus1 i + 1 := by omega
    have before := checked _ (Nat.le_refl _)
    have inLow := before.inLow
    have outLow := before.outLow
    have deltas := ascending _ (Nat.le_refl _)
    refine ⟨?_, last.1, ?_, last.2⟩
    · rw [qpInVal]
      omega
    · rw [qpOutVal]
      omega

theorem fillSegments_spec (inRange : ∀ j ≤ p.numPtsInCQPTableMinus1 i + 1, PivotInRange p i j)
    (ascending : Ascending p i) {table : Int → Option Int} {low : Int}
    (rises : Rises (-p.qpBdOffset) MAX_QP low (p.qpInVal i 0) table)
    (pivot : table (p.qpInVal i 0) = some (p.qpOutVal i 0)) (j : Nat)
    (bound : j ≤ p.numPtsInCQPTableMinus1 i + 1) :
    Rises (-p.qpBdOffset) MAX_QP low (p.qpInVal i j) (p.fillSegments i table j) ∧
      ∀ j' ≤ j, p.fillSegments i table j (p.qpInVal i j') = some (p.qpOutVal i j') := by
  induction j with
  | zero =>
      refine ⟨rises, fun j' none => ?_⟩
      obtain rfl : j' = 0 := by omega
      exact pivot
  | succ j ih =>
      obtain ⟨before, pivots⟩ := ih (by omega)
      obtain ⟨inputs, outputs⟩ := ascending j (by omega)
      have steps : ((p.qpInVal i (j + 1) - p.qpInVal i j).toNat : Int) =
          p.deltaQpInValMinus1 i j + 1 := by
        rw [qpInVal]
        omega
      obtain ⟨after, last, kept⟩ := fillSegment_spec before (pivots j (Nat.le_refl j)) inputs
        outputs (inRange (j + 1) bound).outHigh (p.qpInVal i (j + 1) - p.qpInVal i j).toNat
        (by omega)
      have reached : p.qpInVal i j + ((p.qpInVal i (j + 1) - p.qpInVal i j).toNat : Int) =
          p.qpInVal i (j + 1) := by
        rw [steps, qpInVal]
        omega
      rw [reached, steps, interpolated_all _ (by omega)] at last
      rw [reached] at after
      rw [fillSegments]
      refine ⟨after, fun j' bound' => ?_⟩
      by_cases new : j' = j + 1
      · subst new
        exact last
      · have old := pivots j' (by omega)
        rw [kept _ (before.key old).2]
        exact old

theorem fillAbove_spec {table : Int → Option Int} {low last : Int}
    (rises : Rises (-p.qpBdOffset) MAX_QP low last table) {v : Int} (pivot : table last = some v)
    (n : Nat) (rounds : n ≤ (MAX_QP - last).toNat) :
    Rises (-p.qpBdOffset) MAX_QP low (last + n) (p.fillAbove table last n) ∧
      (∃ v, p.fillAbove table last n (last + n) = some v) ∧
      ∀ k ≤ last, p.fillAbove table last n k = table k := by
  induction n with
  | zero =>
      rw [Nat.cast_zero, Int.add_zero]
      exact ⟨rises, ⟨v, pivot⟩, fun _ _ => rfl⟩
  | succ n ih =>
      obtain ⟨before, ⟨v, top⟩, kept⟩ := ih (by omega)
      obtain ⟨least, most⟩ := before.range _ _ top
      have position : last + 1 + n - 1 = last + n := by omega
      have entered : p.fillAbove table last (n + 1) = enter (p.fillAbove table last n)
          (last + n + 1) (Clip3 (-p.qpBdOffset) MAX_QP (v + 1)) := by
        rw [fillAbove, position, top, Option.getD_some]
        congr 1
        omega
      have clipped : v ≤ Clip3 (-p.qpBdOffset) MAX_QP (v + 1) ∧
          Clip3 (-p.qpBdOffset) MAX_QP (v + 1) ≤ MAX_QP := by
        unfold Clip3
        omega
      rw [entered, show last + ((n + 1 : Nat) : Int) = last + n + 1 by omega]
      refine ⟨before.above top clipped.1 clipped.2, ⟨_, enter_self _ _ _⟩, fun k below => ?_⟩
      rw [enter_of_ne (by omega)]
      exact kept k below

/-- A table whose pivots are all in the range. -/
theorem mapsQp_deriveTable (inRange : ∀ j ≤ p.numPtsInCQPTableMinus1 i + 1, PivotInRange p i j)
    (ascending : Ascending p i) : MapsQp p i (p.deriveTable i) := by
  have start := inRange 0 (Nat.zero_le _)
  have startLow := start.inLow
  have end_ := inRange _ (Nat.le_refl _)
  have endHigh := end_.inHigh
  obtain ⟨below, _, pivot⟩ := fillBelow_spec start _ (Nat.le_refl _)
  have bottom : p.qpInVal i 0 - ((p.qpInVal i 0 + p.qpBdOffset).toNat : Int) = -p.qpBdOffset := by
    omega
  rw [bottom] at below
  obtain ⟨middle, pivots⟩ := fillSegments_spec inRange ascending below pivot _ (Nat.le_refl _)
  obtain ⟨whole, _, kept⟩ := fillAbove_spec middle (pivots _ (Nat.le_refl _)) _ (Nat.le_refl _)
  have top : p.qpInVal i (p.numPtsInCQPTableMinus1 i + 1) +
      ((MAX_QP - p.qpInVal i (p.numPtsInCQPTableMinus1 i + 1)).toNat : Int) = MAX_QP := by
    omega
  rw [top] at whole
  refine ⟨whole, fun j bound => ?_⟩
  have here := pivots j bound
  rw [deriveTable, kept _ (middle.key here).2]
  exact here

/-- The tables of all parameters that pass the checks, with differences as they are signalled,
are what they are for exactly when the last pivot of each of them is in the range as well. -/
theorem mapsQp_iff {tables : List (Int → Option Int)}
    (derived : p.derivedChromaQPMappingTables = .ok tables)
    (ascending : ∀ i < p.numQpTables, Ascending p i) :
    (tables.length = p.numQpTables ∧
      ∀ i table, tables[i]? = some table → MapsQp p i table) ↔
        ∀ i < p.numQpTables, LastPivotInRange p i := by
  obtain ⟨rfl, checked⟩ := deriveTables_eq_ok derived
  constructor
  · rintro ⟨_, maps⟩ i bound
    have here := maps i (p.deriveTable i) (by simp [bound])
    have last := here.pivots _ (Nat.le_refl _)
    exact ⟨(here.rises.key last).2, (here.rises.range _ _ last).2⟩
  · intro last
    refine ⟨by simp, fun i table here => ?_⟩
    rw [List.getElem?_map, Option.map_eq_some_iff] at here
    obtain ⟨i', found, rfl⟩ := here
    obtain ⟨bound, same⟩ := List.getElem?_eq_some_iff.mp found
    rw [List.getElem_range] at same
    subst same
    rw [List.length_range] at bound
    refine mapsQp_deriveTable ?_ (ascending i bound)
    exact pivotInRange (checked i (List.mem_range.mpr bound)) (ascending i bound) (last i bound)

end

/-- One table that starts at 26 and has one more pivot, `inStep + 1` and `outStep` away. -/
def onePoint (inStep outStep : Int) : ChromaQpMappingTableParams where
  qpBdOffset := 0
  numQpTables := 1
  qpTableStartMinus26 := fun _ => 0
  numPtsInCQPTableMinus1 := fun _ => 0
  deltaQpInValMinus1 := fun _ _ => inStep
  deltaQpOutVal := fun _ _ => outStep

/-- Ten QPs up and five chroma QPs up, for ten bit video. -/
def gentleTable : ChromaQpMappingTableParams := (onePoint 9 5).setParams 12

theorem mapsQp_gentleTable :
    ∃ tables, gentleTable.derivedChromaQPMappingTables = .ok tables ∧
      (∀ i < gentleTable.numQpTables, LastPivotInRange gentleTable i) ∧
      ((tables.length = gentleTable.numQpTables ∧
        ∀ i table, tables[i]? = some table → MapsQp gentleTable i table) ↔
          ∀ i < gentleTable.numQpTables, LastPivotInRange gentleTable i) := by
  have ascending : ∀ i < gentleTable.numQpTables, Ascending gentleTable i := by
    intro i _ j _
    simp [gentleTable, onePoint, setParams]
  have last : ∀ i < gentleTable.numQpTables, LastPivotInRange gentleTable i := by decide
  obtain ⟨tables, derived⟩ : ∃ tables, gentleTable.derivedChromaQPMappingTables = .ok tables :=
    ⟨_, rfl⟩
  exact ⟨tables, derived, last, mapsQp_iff derived ascending⟩

/-- The only checked pivot is the start; the other one is mapped to 64. -/
theorem onePoint_not_mapsQp :
    (∀ i < 1, Ascending (onePoint 0 38) i) ∧
    ∃ table, (onePoint 0 38).derivedChromaQPMappingTables = .ok [table] ∧
      table 27 = some 64 ∧ table 28 = some 63 ∧ ¬ MapsQp (onePoint 0 38) 0 table := by
  refine ⟨fun i _ j _ => ⟨by simp [onePoint], by simp [onePoint]⟩, _, rfl, by decide, by decide, ?_⟩
  intro maps
  have high := (maps.rises.range 27 64 (by decide)).2
  exact absurd high (by decide)

end ChromaQpMappingTableParams

end Vtm
