import Mathlib.Data.BitVec
import Mathlib.Tactic.Common

/-! Byte-addressed memory as a partial map on natural addresses, with little-endian accesses
to several bytes at once.
-/

/-- The bytes at the mapped addresses. -/
abbrev ByteMap := ℕ → Option (BitVec 8)

namespace ByteMap

variable {w : ℕ}

/-- Byte `i` of a value, counted from its low end; zero beyond the value. -/
def byte (value : BitVec w) (i : ℕ) : BitVec 8 := value.extractLsb' (8 * i) 8

/-- All `size` bytes from `address` on are mapped. -/
def Maps (mem : ByteMap) (address size : ℕ) : Prop :=
  ∀ i < size, mem (address + i) ≠ none

/-- The `size` bytes from `address` on are the little-endian representation of `value`. -/
structure Holds (mem : ByteMap) (address size : ℕ) (value : BitVec w) : Prop where
  bounded : value.toNat < 2 ^ (8 * size)
  bytes : ∀ i < size, mem (address + i) = some (byte value i)

/-- The memory with the low `size` bytes of `value` from `address` on. -/
def write (mem : ByteMap) (address size : ℕ) (value : BitVec w) : ByteMap :=
  fun k => if address ≤ k ∧ k < address + size then some (byte value (k - address)) else mem k

theorem getLsbD_byte (value : BitVec w) (i j : ℕ)
    : (byte value i).getLsbD j = (decide (j < 8) && value.getLsbD (8 * i + j)) := by
  rw [byte, BitVec.getLsbD_extractLsb']

/-- Every bit of a value is in one of its bytes. -/
theorem getLsbD_eq_byte (value : BitVec w) (k : ℕ)
    : value.getLsbD k = (byte value (k / 8)).getLsbD (k % 8) := by
  have small : k % 8 < 8 := Nat.mod_lt k (by decide)
  rw [getLsbD_byte, Nat.div_add_mod, decide_eq_true small, Bool.true_and]

/-- A value is below `2 ^ (8 * size)` if its bytes from `size` on are zero. -/
theorem toNat_lt_of_bytes {value : BitVec w} {size : ℕ}
    (zero : ∀ i, size ≤ i → byte value i = 0) : value.toNat < 2 ^ (8 * size) := by
  apply Nat.lt_pow_two_of_testBit
  intro k above
  rw [BitVec.testBit_toNat, getLsbD_eq_byte, zero (k / 8) (by omega), BitVec.ofNat_eq_ofNat,
    BitVec.getLsbD_zero]

/-- Memory holds one value at a place. -/
theorem Holds.toNat_eq {v : ℕ} {mem : ByteMap} {address size : ℕ} {left : BitVec w}
    {right : BitVec v} (first : mem.Holds address size left)
    (second : mem.Holds address size right) : left.toNat = right.toNat := by
  apply Nat.eq_of_testBit_eq
  intro k
  by_cases inside : k < 8 * size
  · have same := (first.bytes (k / 8) (by omega)).symm.trans (second.bytes (k / 8) (by omega))
    rw [BitVec.testBit_toNat, BitVec.testBit_toNat, getLsbD_eq_byte left, Option.some.inj same,
      ← getLsbD_eq_byte]
  · have wide : 2 ^ (8 * size) ≤ 2 ^ k := Nat.pow_le_pow_right (by decide) (by omega)
    rw [Nat.testBit_lt_two_pow (first.bounded.trans_le wide),
      Nat.testBit_lt_two_pow (second.bounded.trans_le wide)]

/-- A byte read after a write: from the written value where the ranges overlap, and from the
old memory elsewhere.
-/
theorem Holds.byte_of_write {mem : ByteMap} {a s b t : ℕ} {value : BitVec w} {read : BitVec w}
    (h : (mem.write a s value).Holds b t read) {i : ℕ} (inside : i < t)
    : some (byte read i)
      = if a ≤ b + i ∧ b + i < a + s then some (byte value (b + i - a)) else mem (b + i) :=
  (h.bytes i inside).symm

end ByteMap
