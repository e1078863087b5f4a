import Mathlib.Data.List.Induction
import Mathlib.Order.Basic

/-!
# Arrays with checked accesses

An array with a size that every access is checked against, and the counted loop that ends at the
first access outside. A loop succeeds if each round does, and fails if one of them is bound to.
-/

namespace Vtm.Std

structure CheckedArray (α : Type) where
  size : Nat
  entry : Nat → α

namespace CheckedArray

variable {α : Type}

/-- `a[i]`. -/
def get (a : CheckedArray α) (i : Int) : Except String α :=
  if 0 ≤ i ∧ i < a.size then .ok (a.entry i.toNat) else .error "index out of range"

/-- The array behind a write that succeeds. -/
def put (a : CheckedArray α) (i : Nat) (v : α) : CheckedArray α :=
  ⟨a.size, Function.update a.entry i v⟩

/-- `a[i] = v`. -/
def set (a : CheckedArray α) (i : Int) (v : α) : Except String (CheckedArray α) :=
  if 0 ≤ i ∧ i < a.size then .ok (a.put i.toNat v) else .error "index out of range"

/-- Give an array a size if it has none. -/
def resizeEmpty (a : CheckedArray α) (size : Nat) (v : α) : CheckedArray α :=
  if a.size = 0 then ⟨size, fun _ => v⟩ else a

/-- The first `n` elements. -/
def first (a : CheckedArray α) (n : Nat) : List α := (List.range n).map a.entry

variable {a : CheckedArray α}

@[simp] theorem first_length (n : Nat) : (a.first n).length = n := by
  unfold first
  rw [List.length_map, List.length_range]

theorem first_put (n : Nat) (v : α) : (a.put n v).first (n + 1) = a.first n ++ [v] := by
  unfold first
  rw [List.range_succ, List.map_append, List.map_singleton]
  refine congrArg₂ (· ++ ·) (List.map_congr_left fun i inside => ?_) (by simp [put])
  exact Function.update_of_ne (Nat.ne_of_lt (List.mem_range.mp inside)) _ _

theorem get_of_lt {i : Nat} (inside : i < a.size) : a.get i = .ok (a.entry i) :=
  if_pos ⟨Int.natCast_nonneg i, Int.ofNat_lt.mpr inside⟩

@[simp] theorem put_size (i : Nat) (v : α) : (a.put i v).size = a.size := rfl

@[simp] theorem put_self (i : Nat) (v : α) : (a.put i v).entry i = v := Function.update_self _ _ _

theorem put_of_ne {i k : Nat} (apart : k ≠ i) (v : α) : (a.put i v).entry k = a.entry k :=
  Function.update_of_ne apart _ _

theorem set_of_lt {i : Nat} (inside : i < a.size) (v : α) : a.set i v = .ok (a.put i v) :=
  if_pos ⟨Int.natCast_nonneg i, Int.ofNat_lt.mpr inside⟩

theorem set_outside {i : Int} (outside : i < 0 ∨ a.size ≤ i) (v : α) :
    a.set i v = .error "index out of range" := if_neg (by omega)

theorem resizeEmpty_size {size : Nat} (known : a.size = 0 ∨ a.size = size) (v : α) :
    (a.resizeEmpty size v).size = size := by
  unfold resizeEmpty
  rcases known with none | same
  · rw [if_pos none]
  · by_cases none : a.size = 0
    · rw [if_pos none]
    · rw [if_neg none, same]

end CheckedArray

section Loops

variable {σ ε : Type}

/-- `for (int i = start; i < stop; i++)`. -/
@[grind =] def forRange (start stop : Int) (body : σ → Int → Except ε σ) (s : σ) : Except ε σ :=
  (List.range (stop - start).toNat).foldlM (fun s (k : Nat) => body s (start + k)) s

/-- What the rounds keep holds behind the loop. -/
theorem forRange_ok {body : σ → Int → Except ε σ} {start : Int} (count : Nat)
    (loopInv : Nat → σ → Prop)
    (step : ∀ k s, k < count → loopInv k s → ∃ s', body s (start + k) = .ok s' ∧ loopInv (k + 1) s')
    {s : σ} (begin : loopInv 0 s) :
    ∃ s', forRange start (start + count) body s = .ok s' ∧ loopInv count s' := by
  have rounds : (start + count - start).toNat = count := by omega
  unfold forRange
  rw [rounds]
  clear rounds
  induction count with
  | zero => exact ⟨s, rfl, begin⟩
  | succ count ih =>
      obtain ⟨s', run, reached⟩ := ih fun k s less => step k s (Nat.lt_succ_of_lt less)
      obtain ⟨s₂, last, done⟩ := step count s' (Nat.lt_succ_self count) reached
      refine ⟨s₂, ?_, done⟩
      rw [List.range_succ, List.foldlM_append, run]
      simp only [bind, Except.bind, List.foldlM_cons, List.foldlM_nil, last]
      rfl

/-- A loop in which each round writes one element. -/
theorem forRange_writes {α : Type} {a : CheckedArray α} {start stop : Nat}
    (fits : start < stop → stop ≤ a.size) (value : Nat → α)
    {body : CheckedArray α → Int → Except String (CheckedArray α)}
    (each : ∀ (b : CheckedArray α) (i : Nat), start ≤ i → i < stop → body b i = b.set i (value i)) :
    ∃ b, forRange start stop body a = .ok b ∧ b.size = a.size ∧
      ∀ i, b.entry i = if start ≤ i ∧ i < stop then value i else a.entry i := by
  by_cases some : start < stop
  · have rounds := fits some
    have written := @forRange_ok _ _ body start (stop - start) (fun k (b : CheckedArray α) =>
      b.size = a.size ∧ ∀ i, b.entry i = if start ≤ i ∧ i < start + k then value i else a.entry i)
      (by
        rintro k b less ⟨size, entries⟩
        have place : (start : Int) + k = (start + k : Nat) := by omega
        refine ⟨b.put (start + k) (value (start + k)), ?_, size, fun i => ?_⟩
        · rw [place, each b _ (Nat.le_add_right _ _) (by omega)]
          exact CheckedArray.set_of_lt (by omega) _
        · by_cases here : i = start + k
          · rw [here, CheckedArray.put_self, if_pos (by omega)]
          · rw [CheckedArray.put_of_ne here, entries i]
            exact if_congr (by omega) rfl rfl)
      a ⟨rfl, fun i => (if_neg (by omega)).symm⟩
    obtain ⟨b, run, size, entries⟩ := written
    have whole : (start : Int) + (stop - start : Nat) = stop := by omega
    rw [whole] at run
    refine ⟨b, run, size, fun i => (entries i).trans (if_congr (by omega) rfl rfl)⟩
  · have none : ((stop : Int) - start).toNat = 0 := by omega
    refine ⟨a, ?_, rfl, fun i => (if_neg (by omega)).symm⟩
    unfold forRange
    rw [none]
    rfl

/-- A loop over items: what one round establishes for its item, the others keep. -/
theorem foldlM_each {ι : Type} {f : σ → ι → Except ε σ} {loopInv : σ → Prop} {done : σ → ι → Prop}
    {items : List ι}
    (step : ∀ i ∈ items, ∀ s, loopInv s →
      ∃ s', f s i = .ok s' ∧ loopInv s' ∧ done s' i ∧ ∀ j, done s j → done s' j)
    {s : σ} (begin : loopInv s) :
    ∃ s', items.foldlM f s = .ok s' ∧ loopInv s' ∧ ∀ i ∈ items, done s' i := by
  induction items using List.reverseRecOn with
  | nil => exact ⟨s, rfl, begin, fun i none => absurd none List.not_mem_nil⟩
  | append_singleton items i ih =>
      obtain ⟨s', run, kept, before⟩ := ih fun j member => step j (List.mem_append_left _ member)
      obtain ⟨s₂, last, kept₂, here, others⟩ :=
        step i (List.mem_append_right _ (List.mem_singleton.mpr rfl)) s' kept
      refine ⟨s₂, ?_, kept₂, fun j member => ?_⟩
      · rw [List.foldlM_append, run]
        simp only [bind, Except.bind, List.foldlM_cons, List.foldlM_nil, last]
        rfl
      · rcases List.mem_append.mp member with earlier | same
        · exact others j (before j earlier)
        · exact List.mem_singleton.mp same ▸ here

/-- `memcpy` of the first `n` elements. -/
def memcpy {α : Type} (dst src : CheckedArray α) (n : Nat) : Except String (CheckedArray α) :=
  forRange 0 n (fun dst i => do dst.set i (← src.get i)) dst

theorem memcpy_ok {α : Type} {dst src : CheckedArray α} {n : Nat} (room : n ≤ dst.size)
    (source : n ≤ src.size) :
    ∃ after, memcpy dst src n = .ok after ∧ after.size = dst.size ∧ after.first n = src.first n := by
  unfold memcpy
  obtain ⟨after, run, size, entries⟩ := @forRange_writes _ dst 0 n (fun _ => room) src.entry
    (fun dst i => do dst.set i (← src.get i)) fun b i _ inside => by
      rw [CheckedArray.get_of_lt (Nat.lt_of_lt_of_le inside source)]
      rfl
  refine ⟨after, run, size, List.map_congr_left fun i inside => ?_⟩
  rw [entries, if_pos ⟨Nat.zero_le i, List.mem_range.mp inside⟩]

/-- A loop with a round that is bound to fail. -/
theorem forRange_error {body : σ → Int → Except ε σ} {start stop : Int} {holds : σ → Prop}
    (keeps : ∀ s i s', start ≤ i → i < stop → holds s → body s i = .ok s' → holds s') {bad : Int}
    (low : start ≤ bad) (high : bad < stop) (fails : ∀ s, holds s → ∃ e, body s bad = .error e)
    {s : σ} (begin : holds s) : ∃ e, forRange start stop body s = .error e := by
  have member : (bad - start).toNat ∈ List.range (stop - start).toNat :=
    List.mem_range.mpr (by omega)
  have place : start + ((bad - start).toNat : Int) = bad := by omega
  have within : ∀ k ∈ List.range (stop - start).toNat, start + (k : Int) < stop := fun k inside => by
    rw [List.mem_range] at inside
    omega
  unfold forRange
  generalize List.range (stop - start).toNat = rounds at member within
  induction rounds generalizing s with
  | nil => cases member
  | cons k rounds ih =>
      rw [List.foldlM_cons]
      cases run : body s (start + k) with
      | error e => exact ⟨e, rfl⟩
      | ok s' =>
          rcases List.mem_cons.mp member with here | later
          · rw [← here, place] at run
            obtain ⟨e, failed⟩ := fails s begin
            rw [failed] at run
            cases run
          · obtain ⟨here, others⟩ := List.forall_mem_cons.mp within
            exact ih (keeps s _ s' (Int.le_add_of_nonneg_right (Int.natCast_nonneg k)) here begin run)
              later others

end Loops

end Vtm.Std
