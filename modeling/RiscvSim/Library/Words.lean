import Mathlib.Data.BitVec
import Mathlib.Tactic.Common

/-! Masks and sign bits of machine words. -/

namespace Words

variable {w n : ℕ}

/-- A field of a field. -/
theorem extract_extract (word : BitVec w) {start len first size : ℕ} (inside : first + size ≤ len)
    : (word.extractLsb' start len).extractLsb' first size
      = word.extractLsb' (start + first) size := by
  ext i bound
  have within : first + i < len := by omega
  simp [within, Nat.add_assoc]

/-- A mask of the `n` low bits. -/
theorem toNat_mask (bound : n < w) : ((1#w <<< n) - 1#w).toNat = 2 ^ n - 1 := by
  have wide : 2 ^ n < 2 ^ w := Nat.pow_lt_pow_right (by omega) bound
  have positive := Nat.two_pow_pos n
  have one : (1#w).toNat = 1 := by
    rw [BitVec.toNat_ofNat, Nat.mod_eq_of_lt (by omega)]
  have power : (1#w <<< n).toNat = 2 ^ n := by
    rw [BitVec.toNat_shiftLeft, one, Nat.shiftLeft_eq, one_mul, Nat.mod_eq_of_lt wide]
  rw [BitVec.toNat_sub_of_le (by rw [BitVec.le_def, one]; omega), power, one]

theorem getLsbD_mask (bound : n < w) (i : ℕ)
    : ((1#w <<< n) - 1#w).getLsbD i = decide (i < n) := by
  rw [← BitVec.testBit_toNat, toNat_mask bound, Nat.testBit_two_pow_sub_one]

theorem getLsbD_and_bit (word : BitVec w) (bound : n < w) (i : ℕ)
    : (word &&& (1#w <<< n)).getLsbD i = (decide (i = n) && word.getLsbD i) := by
  rw [BitVec.getLsbD_and, BitVec.getLsbD_shiftLeft, BitVec.getLsbD_one]
  by_cases same : i = n
  · subst same
    simp [bound, show 0 < w by omega]
  · have apart : ¬ (n ≤ i ∧ i - n = 0) := by omega
    grind

/-- The test of one bit. -/
theorem and_bit_ne_zero (word : BitVec w) (bound : n < w)
    : word &&& (1#w <<< n) ≠ 0#w ↔ word.getLsbD n = true := by
  constructor
  · intro nonzero
    by_contra clear
    apply nonzero
    apply BitVec.eq_of_getLsbD_eq
    intro i _
    rw [getLsbD_and_bit word bound]
    by_cases same : i = n
    · subst same
      simp [clear]
    · simp [same]
  · intro set zero
    have bit := getLsbD_and_bit word bound n
    rw [zero] at bit
    simp [set] at bit

/-- Filling the bits above a value with ones or zeros, by its top bit, extends its sign. -/
theorem fill_eq_signExtend (value : BitVec n)
    : (if value.msb then value.setWidth w ||| (BitVec.allOnes w <<< n) else value.setWidth w)
      = value.signExtend w := by
  ext i below
  rw [BitVec.getElem_signExtend]
  by_cases inside : i < n
  · cases value.msb <;> simp [inside]
  · have outside : value.getLsbD i = false := BitVec.getLsbD_of_ge _ _ (Nat.not_lt.mp inside)
    cases value.msb <;> simp [inside, outside]

/-- Extending a value from its top bit, as a program does it: test the bit, then fill. -/
theorem signFill_eq (value : BitVec n) (positive : 0 < n) (bound : n ≤ w)
    : (if value.setWidth w &&& (1#w <<< (n - 1)) ≠ 0#w then
          value.setWidth w ||| (BitVec.allOnes w <<< (n - 1 + 1))
        else value.setWidth w)
      = value.signExtend w := by
  have top : n - 1 < w := by omega
  have sign : (value.setWidth w).getLsbD (n - 1) = value.msb := by
    rw [BitVec.getLsbD_setWidth, BitVec.msb_eq_getLsbD_last]
    simp [top]
  rw [← fill_eq_signExtend, Nat.sub_add_cancel positive]
  simp only [and_bit_ne_zero _ top, sign]

/-- A widened field is compared with a small code in its own width. -/
theorem setWidth_eq_iff {field : BitVec n} {code : BitVec w} (bound : n ≤ w)
    (small : code.toNat < 2 ^ n)
    : field.setWidth w = code ↔ field = code.setWidth n := by
  constructor
  · rintro rfl
    rw [BitVec.setWidth_setWidth_of_le _ bound, BitVec.setWidth_eq]
  · rintro rfl
    apply BitVec.eq_of_toNat_eq
    rw [BitVec.toNat_setWidth, BitVec.toNat_setWidth, Nat.mod_eq_of_lt small,
      Nat.mod_eq_of_lt code.isLt]

/-- A counter misses the addends that are multiples of its range, and no others. -/
theorem ofNat_eq_ofNat_add (a b : ℕ)
    : BitVec.ofNat w a = BitVec.ofNat w (a + b) ↔ 2 ^ w ∣ b := by
  rw [← BitVec.toNat_inj, BitVec.toNat_ofNat, BitVec.toNat_ofNat]
  have same := Nat.modEq_iff_dvd' (n := 2 ^ w) (Nat.le_add_right a b)
  rw [Nat.add_sub_cancel_left] at same
  exact same

end Words
