import Vtm.Std.Codec
import Vtm.Common.BitStream

/-!
# Bin strings

What `CABACWriter` hands to the arithmetic coder and `CABACReader` takes from
it: bins with their context index, and bypass bins. A reader that asks for a bin
under another context than the one it was written with has lost the writer; the
model stops there.
-/

namespace Vtm

open Vtm.Std

/-- The context sets of `ContextSetCfg` that the modelled syntax uses. -/
inductive CtxSet where
  | RotationFlag
  | RunTypeFlag
  | IdxRunModel
  | CopyRunModel
  | DeltaQP
  | ChromaQpAdjFlag
  | ChromaQpAdjIdc
  | MergeFlag
  | RegularMergeFlag
  | MergeIdx
  | InterDir
  | RefPic
  | MmvdFlag
  | MmvdMergeIdx
  | MmvdStepMvpIdx
  | SubblockMergeFlag
  | AffineFlag
  | AffineType
  | AffMergeIdx
  | Mvd
  | MVPIdx
  | MHIntraFlag
  | SmvdFlag
  | SaoMergeFlag
  | SaoTypeIdx
  | ctbAlfFlag
  | ctbAlfAlternative
  | AlfUseTemporalFilt
deriving DecidableEq, Repr

/-- A context index: the set and the increment in it. -/
structure Ctx where
  set : CtxSet
  inc : Nat
deriving DecidableEq, Repr

/-- One bin: under a context, or bypass. -/
inductive Bin where
  | ctx (id : Ctx) (bin : Bool)
  | ep (bin : Bool)
deriving DecidableEq, Repr

/-- A program that appends bins. -/
abbrev BinWriter := StateT (List Bin) Checked

/-- A program that takes bins from the front. -/
abbrev BinReader := StateT (List Bin) Checked

/-- `x << n` on a 32-bit word. A shift by the width of the word or more is not
defined; the model stops there. -/
def shiftLeftWord {σ : Type} (x n : Nat) : StateT σ Checked Nat := do
  check (32 ≤ n) "shift out of range"
  return (x <<< n) % 2 ^ 32

/-- `x - y` on 32-bit words. -/
def subWord (x y : Nat) : Nat :=
  (x + 2 ^ 32 - y) % 2 ^ 32

theorem shiftLeftWord_run {σ : Type} {x n : Nat} (s : σ) (defined : n < 32)
    (fits : x * 2 ^ n < 2 ^ 32) : shiftLeftWord x n s = .ok (x * 2 ^ n, s) := by
  rw [shiftLeftWord, bind_run (check_run (by omega)), Nat.shiftLeft_eq, Nat.mod_eq_of_lt fits]
  rfl

theorem subWord_eq {x y : Nat} (le : y ≤ x) (word : x < 2 ^ 32) : subWord x y = x - y := by
  unfold subWord
  omega

namespace CABACWriter

def encodeBin (bin : Bool) (ctxId : Ctx) : BinWriter Unit :=
  fun bins => .ok ((), bins ++ [.ctx ctxId bin])

def encodeBinEP (bin : Bool) : BinWriter Unit :=
  fun bins => .ok ((), bins ++ [.ep bin])

/-- `m_BinEncoder.encodeBinsEP`, most significant bin first. The engine is only
defined for values of the given width. -/
def encodeBinsEP (value numBins : Nat) : BinWriter Unit := do
  check (32 < numBins ∨ 2 ^ numBins ≤ value) "bypass bins out of range"
  fun bins => .ok ((), bins ++ (toBits numBins value).map Bin.ep)

end CABACWriter

namespace CABACReader

def decodeBin (ctxId : Ctx) : BinReader Bool
  | .ctx id bin :: rest => if id = ctxId then .ok (bin, rest) else .error "context mismatch"
  | .ep _ :: _ => .error "bypass bin in place of a context bin"
  | [] => .error "no bins left"

def decodeBinEP : BinReader Bool
  | .ep bin :: rest => .ok (bin, rest)
  | .ctx _ _ :: _ => .error "context bin in place of a bypass bin"
  | [] => .error "no bins left"

/-- `count` bypass bins below `value`. -/
def decodeBelow (value : Nat) : Nat → BinReader Nat
  | 0 => pure value
  | count + 1 => do
      let bin ← decodeBinEP
      decodeBelow (2 * value + bin.toNat) count

def decodeBinsEP (numBins : Nat) : BinReader Nat := decodeBelow 0 numBins

end CABACReader

namespace Bin

/-- Bin strings on both sides. -/
abbrev view : View (List Bin) Bin := View.list Bin

open CABACWriter CABACReader

/-- Writer and reader agree bin by bin, and the writer does not fail. -/
abbrev Reads {α β : Type} (w : BinWriter α) (r : BinReader β) (post : α → β → Prop) : Prop :=
  Codes False view view w r post

/-- What the writer appends to nothing, the reader takes in front of anything. -/
theorem taken_of_reads {α β : Type} {w : BinWriter α} {r : BinReader β} {post : α → β → Prop}
    (reads : Reads w r post) :
    ∃ bins a b, w [] = .ok (a, bins) ∧ post a b ∧ ∀ rest, r (bins ++ rest) = .ok (b, rest) := by
  obtain ⟨never, _⟩ | ⟨a, bins, _, b, run, _, appended, related, accepts⟩ := reads [] trivial
  · exact never.elim
  refine ⟨bins, a, b, run, related, fun rest => ?_⟩
  have whole : bins = _ := appended
  obtain ⟨left, read, _, behind⟩ := accepts (bins ++ rest) rest trivial (by rw [whole]; rfl)
  have last : left = rest := behind
  rw [read, last]

theorem reads_bin (bin : Bool) (ctxId : Ctx) :
    Reads (encodeBin bin ctxId) (decodeBin ctxId) (fun _ value => value = bin) := by
  intro bins _
  refine Or.inr ⟨(), _, [.ctx ctxId bin], bin, rfl, trivial, rfl, rfl, ?_⟩
  rintro _ rest _ rfl
  exact ⟨rest, if_pos rfl, trivial, rfl⟩

theorem decodeBinEP_accepts (bin : Bool) : Accepts view decodeBinEP [.ep bin] bin := by
  rintro _ rest _ rfl
  exact ⟨rest, rfl, trivial, rfl⟩

theorem reads_binEP (bin : Bool) :
    Reads (encodeBinEP bin) decodeBinEP (fun _ value => value = bin) := by
  intro bins _
  exact Or.inr ⟨(), _, [.ep bin], bin, rfl, trivial, rfl, rfl, decodeBinEP_accepts bin⟩

theorem decodeBelow_accepts (bits : List Bool) (value : Nat) :
    Accepts view (decodeBelow value bits.length) (bits.map Bin.ep)
      (value * 2 ^ bits.length + ofBits bits) := by
  induction bits generalizing value with
  | nil => simpa [decodeBelow] using Accepts.pure (R := view) (ε := String) value
  | cons bit rest ih =>
      rintro _ after _ rfl
      obtain ⟨after', run, holds, same⟩ := ih (2 * value + bit.toNat) _ after trivial rfl
      refine ⟨after', ?_, holds, same⟩
      have step : decodeBelow value (rest.length + 1) (.ep bit :: (rest.map Bin.ep ++ after)) =
          decodeBelow (2 * value + bit.toNat) rest.length (rest.map Bin.ep ++ after) := rfl
      have total : value * 2 ^ (rest.length + 1) + ofBits (bit :: rest) =
          (2 * value + bit.toNat) * 2 ^ rest.length + ofBits rest := by
        rw [ofBits_cons, pow_succ]
        ring
      rw [List.length_cons, total]
      exact step.trans run

theorem decodeBinsEP_accepts {value numBins : Nat} (fits : value < 2 ^ numBins) :
    Accepts view (decodeBinsEP numBins) ((toBits numBins value).map Bin.ep) value := by
  have accepts := decodeBelow_accepts (toBits numBins value) 0
  rwa [length_toBits, ofBits_toBits_of_lt fits, Nat.zero_mul, Nat.zero_add] at accepts

theorem encodeBinsEP_run {value numBins : Nat} (bins : List Bin) (width : numBins ≤ 32)
    (fits : value < 2 ^ numBins) :
    encodeBinsEP value numBins bins = .ok ((), bins ++ (toBits numBins value).map Bin.ep) := by
  rw [encodeBinsEP, bind_run (check_run (by omega))]

theorem reads_binsEP {value numBins : Nat} (width : numBins ≤ 32) (fits : value < 2 ^ numBins) :
    Reads (encodeBinsEP value numBins) (decodeBinsEP numBins) (fun _ read => read = value) := by
  refine Codes.writerCheck (Or.inr (by omega)) fun _ => ?_
  intro bins _
  exact Or.inr ⟨(), _, (toBits numBins value).map Bin.ep, value, rfl, trivial, rfl, rfl,
    decodeBinsEP_accepts fits⟩

end Bin
end Vtm
