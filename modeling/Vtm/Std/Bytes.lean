import Mathlib.Tactic.Ring

/-!
# Words in memory

The byte image of a word on a little-endian host, and the change between host
and network order.
-/

namespace Vtm.Std

/-- The `count` bytes of a word in memory, least significant byte first. -/
@[grind =] def wordBytes : Nat → Nat → List UInt8
  | 0, _ => []
  | count + 1, value => UInt8.ofNat value :: wordBytes count (value / 256)

/-- The word that lies in memory as `bytes`. -/
def wordValue (bytes : List UInt8) : Nat :=
  bytes.foldr (fun byte above => byte.toNat + 256 * above) 0

@[simp] theorem wordValue_cons (byte : UInt8) (rest : List UInt8) :
    wordValue (byte :: rest) = byte.toNat + 256 * wordValue rest := rfl

@[simp] theorem length_wordBytes (count value : Nat) : (wordBytes count value).length = count := by
  induction count generalizing value with
  | zero => rfl
  | succ count ih => rw [wordBytes, List.length_cons, ih]

theorem wordValue_wordBytes {count value : Nat} (fits : value < 256 ^ count) :
    wordValue (wordBytes count value) = value := by
  induction count generalizing value with
  | zero =>
      obtain rfl : value = 0 := by simpa using fits
      rfl
  | succ count ih =>
      have rest : value / 256 < 256 ^ count := by
        rw [pow_succ] at fits
        exact Nat.div_lt_of_lt_mul (by omega)
      rw [wordBytes, wordValue_cons, ih rest, UInt8.toNat_ofNat']
      omega

theorem wordValue_lt (bytes : List UInt8) : wordValue bytes < 256 ^ bytes.length := by
  induction bytes with
  | nil => simp [wordValue]
  | cons byte rest ih =>
      have low := byte.toNat_lt
      rw [wordValue_cons, List.length_cons, pow_succ]
      omega

theorem wordBytes_wordValue (bytes : List UInt8) :
    wordBytes bytes.length (wordValue bytes) = bytes := by
  induction bytes with
  | nil => rfl
  | cons byte rest ih =>
      have low := byte.toNat_lt
      have upper : (byte.toNat + 256 * wordValue rest) / 256 = wordValue rest := by omega
      have lower : UInt8.ofNat (byte.toNat + 256 * wordValue rest) = byte := by
        apply UInt8.toNat_inj.mp
        rw [UInt8.toNat_ofNat']
        omega
      rw [List.length_cons, wordValue_cons, wordBytes, upper, lower, ih]

/-- A word with its `count` bytes in the opposite order. -/
def swapBytes (count value : Nat) : Nat := wordValue (wordBytes count value).reverse

theorem swapBytes_lt (count value : Nat) : swapBytes count value < 256 ^ count := by
  have bound := wordValue_lt (wordBytes count value).reverse
  rwa [List.length_reverse, length_wordBytes] at bound

theorem swapBytes_swapBytes {count value : Nat} (fits : value < 256 ^ count) :
    swapBytes count (swapBytes count value) = value := by
  have inner := wordBytes_wordValue (wordBytes count value).reverse
  rw [List.length_reverse, length_wordBytes] at inner
  unfold swapBytes
  rw [inner, List.reverse_reverse, wordValue_wordBytes fits]

end Vtm.Std
