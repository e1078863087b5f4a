import Mathlib.Tactic.Ring
import Mathlib.Tactic.Linarith
import Mathlib.Data.List.Basic
import Mathlib.Data.Nat.Bits

/-!
# Most-significant-bit-first numerals

Bit strings are `List Bool` read from the most significant end. `ofBits` is the
number a bit string denotes and `toBits width value` the `width` low bits of a
number; `ofBits_append` and `toBits_add` are the two splitting laws every
serializer proof reduces to. Byte strings are flattened by `bytesToBits` and
read as base-256 numerals by `ofBytes`.
-/

namespace Vtm.Std

/-- The number denoted by a bit string, most significant bit first. -/
def ofBits (bits : List Bool) : Nat :=
  bits.foldl (fun acc bit => 2 * acc + bit.toNat) 0

/-- The `width` low bits of `value`, most significant bit first. -/
@[grind =] def toBits : Nat → Nat → List Bool
  | 0, _ => []
  | width + 1, value => (value / 2 ^ width % 2 == 1) :: toBits width value

private theorem ofBits_foldl (bits : List Bool) (acc : Nat) :
    bits.foldl (fun acc bit => 2 * acc + bit.toNat) acc =
      acc * 2 ^ bits.length + ofBits bits := by
  induction bits generalizing acc with
  | nil => simp [ofBits]
  | cons bit rest ih =>
      have unfolded : ofBits (bit :: rest) =
          rest.foldl (fun acc bit => 2 * acc + bit.toNat) (2 * 0 + bit.toNat) := rfl
      rw [List.foldl_cons, ih, unfolded, ih, List.length_cons, pow_succ]
      ring

@[simp] theorem ofBits_nil : ofBits [] = 0 := rfl

@[simp] theorem ofBits_cons (bit : Bool) (rest : List Bool) :
    ofBits (bit :: rest) = bit.toNat * 2 ^ rest.length + ofBits rest := by
  have unfolded : ofBits (bit :: rest) =
      rest.foldl (fun acc bit => 2 * acc + bit.toNat) (2 * 0 + bit.toNat) := rfl
  rw [unfolded, ofBits_foldl]
  simp

/-- Concatenation shifts the left numeral over the right one. -/
theorem ofBits_append (left right : List Bool) :
    ofBits (left ++ right) = ofBits left * 2 ^ right.length + ofBits right := by
  induction left with
  | nil => simp
  | cons bit rest ih =>
      rw [List.cons_append, ofBits_cons, ih, ofBits_cons, List.length_append, pow_add]
      ring

/-- A bit string of length `n` denotes a number below `2 ^ n`. -/
theorem ofBits_lt (bits : List Bool) : ofBits bits < 2 ^ bits.length := by
  induction bits with
  | nil => simp
  | cons bit rest ih =>
      rw [ofBits_cons, List.length_cons, pow_succ]
      cases bit <;> simp <;> omega

@[simp] theorem ofBits_replicate_false (count : Nat) :
    ofBits (List.replicate count false) = 0 := by
  induction count with
  | zero => rfl
  | succ count ih => simp [List.replicate_succ, ih]

@[simp] theorem toBits_zero (value : Nat) : toBits 0 value = [] := rfl

@[simp] theorem length_toBits (width value : Nat) : (toBits width value).length = width := by
  induction width with
  | zero => rfl
  | succ width ih => simp [toBits, ih]

private theorem toNat_beq_one (value : Nat) : (value % 2 == 1).toNat = value % 2 := by
  rcases Nat.mod_two_eq_zero_or_one value with even | odd
  · simp [even]
  · simp [odd]

/-- `toBits` keeps exactly the low bits of its argument. -/
theorem ofBits_toBits (width value : Nat) : ofBits (toBits width value) = value % 2 ^ width := by
  induction width with
  | zero => simp [Nat.mod_one]
  | succ width ih =>
      rw [toBits, ofBits_cons, ih, length_toBits, toNat_beq_one, Nat.pow_succ, Nat.mod_mul]
      ring

/-- A value that fits its width is recovered from its bits. -/
theorem ofBits_toBits_of_lt {width value : Nat} (fits : value < 2 ^ width) :
    ofBits (toBits width value) = value := by
  rw [ofBits_toBits, Nat.mod_eq_of_lt fits]

/-- Splitting a field of `high + low` bits. -/
theorem toBits_add (high low value : Nat) :
    toBits (high + low) value = toBits high (value / 2 ^ low) ++ toBits low value := by
  induction high with
  | zero => simp
  | succ high ih =>
      have shape : high + 1 + low = (high + low) + 1 := by omega
      rw [shape, toBits, ih, toBits, Nat.div_div_eq_div_mul, ← pow_add, Nat.add_comm low high]
      rfl

/-- Bits at or above the width do not matter. -/
theorem toBits_mod_of_le {width bound : Nat} (within : width ≤ bound) (value : Nat) :
    toBits width (value % 2 ^ bound) = toBits width value := by
  induction width with
  | zero => rfl
  | succ width ih =>
      have split : bound = width + 1 + (bound - (width + 1)) := by omega
      have power : 2 ^ bound = 2 ^ width * (2 * 2 ^ (bound - (width + 1))) := by
        conv_lhs => rw [split]
        rw [pow_add, pow_succ]
        ring
      have digit : value % 2 ^ bound / 2 ^ width % 2 = value / 2 ^ width % 2 := by
        rw [power, Nat.mod_mul_right_div_self, Nat.mod_mul_right_mod]
      rw [toBits, toBits, digit, ih (by omega)]

theorem toBits_mod (width value : Nat) : toBits width (value % 2 ^ width) = toBits width value :=
  toBits_mod_of_le le_rfl value

/-- Every bit string is the numeral of the number it denotes. -/
theorem toBits_ofBits (bits : List Bool) : toBits bits.length (ofBits bits) = bits := by
  induction bits with
  | nil => rfl
  | cons bit rest ih =>
      have below := ofBits_lt rest
      have positive : 0 < 2 ^ rest.length := Nat.two_pow_pos _
      have quotient : (bit.toNat * 2 ^ rest.length + ofBits rest) / 2 ^ rest.length =
          bit.toNat := by
        rw [Nat.add_comm, Nat.add_mul_div_right _ _ positive, Nat.div_eq_of_lt below]
        simp
      have remainder : (bit.toNat * 2 ^ rest.length + ofBits rest) % 2 ^ rest.length =
          ofBits rest := by
        rw [Nat.add_comm, Nat.add_mul_mod_self_right, Nat.mod_eq_of_lt below]
      rw [List.length_cons, toBits, ofBits_cons, quotient, ← toBits_mod, remainder, ih]
      cases bit <;> rfl

/-- Bit strings of one length are determined by the number they denote. -/
theorem ofBits_injective {left right : List Bool} (lengths : left.length = right.length)
    (values : ofBits left = ofBits right) : left = right := by
  rw [← toBits_ofBits left, ← toBits_ofBits right, lengths, values]

/-- Concatenating two fields is one field of the combined number. -/
theorem toBits_append {high low upper lower : Nat} (fits : lower < 2 ^ low) :
    toBits high upper ++ toBits low lower = toBits (high + low) (upper * 2 ^ low + lower) := by
  have positive : 0 < 2 ^ low := Nat.two_pow_pos _
  have quotient : (upper * 2 ^ low + lower) / 2 ^ low = upper := by
    rw [Nat.add_comm, Nat.add_mul_div_right _ _ positive, Nat.div_eq_of_lt fits, Nat.zero_add]
  have remainder : (upper * 2 ^ low + lower) % 2 ^ low = lower := by
    rw [Nat.add_comm, Nat.add_mul_mod_self_right, Nat.mod_eq_of_lt fits]
  rw [toBits_add, quotient, ← toBits_mod low (upper * 2 ^ low + lower), remainder]

@[simp] theorem toBits_value_zero (width : Nat) : toBits width 0 = List.replicate width false := by
  induction width with
  | zero => rfl
  | succ width ih => simp [toBits, ih, List.replicate_succ]

/-! ## Bytes -/

/-- The bits of a byte string, most significant bit of each byte first. -/
def bytesToBits (bytes : List UInt8) : List Bool :=
  bytes.flatMap fun byte => toBits 8 byte.toNat

/-- The base-256 number denoted by a byte string, most significant byte first. -/
def ofBytes (bytes : List UInt8) : Nat :=
  ofBits (bytesToBits bytes)

@[simp] theorem bytesToBits_nil : bytesToBits [] = [] := rfl

@[simp] theorem bytesToBits_cons (byte : UInt8) (rest : List UInt8) :
    bytesToBits (byte :: rest) = toBits 8 byte.toNat ++ bytesToBits rest := by
  simp [bytesToBits]

@[simp] theorem bytesToBits_append (left right : List UInt8) :
    bytesToBits (left ++ right) = bytesToBits left ++ bytesToBits right := by
  simp [bytesToBits]

@[simp] theorem length_bytesToBits (bytes : List UInt8) :
    (bytesToBits bytes).length = 8 * bytes.length := by
  induction bytes with
  | nil => rfl
  | cons byte rest ih =>
      simp [ih]
      omega

/-- A byte string is determined by its bits. -/
theorem bytesToBits_injective {left right : List UInt8}
    (same : bytesToBits left = bytesToBits right) : left = right := by
  induction left generalizing right with
  | nil =>
      have lengths := congrArg List.length same
      simp at lengths
      simpa using lengths.symm
  | cons byte rest ih =>
      cases right with
      | nil =>
          have lengths := congrArg List.length same
          simp at lengths
      | cons other others =>
          simp only [bytesToBits_cons] at same
          obtain ⟨heads, tails⟩ := List.append_inj same (by simp)
          have values := congrArg ofBits heads
          rw [ofBits_toBits_of_lt (UInt8.toNat_lt byte),
            ofBits_toBits_of_lt (UInt8.toNat_lt other)] at values
          rw [UInt8.toNat_inj.mp values, ih tails]

@[simp] theorem ofBytes_nil : ofBytes [] = 0 := rfl

theorem ofBytes_append (left right : List UInt8) :
    ofBytes (left ++ right) = ofBytes left * 256 ^ right.length + ofBytes right := by
  rw [ofBytes, bytesToBits_append, ofBits_append, length_bytesToBits, pow_mul]
  rfl

@[simp] theorem ofBytes_singleton (byte : UInt8) : ofBytes [byte] = byte.toNat := by
  simp only [ofBytes, bytesToBits_cons, bytesToBits_nil, List.append_nil]
  exact ofBits_toBits_of_lt (UInt8.toNat_lt byte)

theorem ofBytes_lt (bytes : List UInt8) : ofBytes bytes < 256 ^ bytes.length := by
  have below := ofBits_lt (bytesToBits bytes)
  rwa [length_bytesToBits, pow_mul] at below

end Vtm.Std
