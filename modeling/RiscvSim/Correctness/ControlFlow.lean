import RiscvSim.Instructions.Encoding

/-! Next-PC resolution inverts the encodings of branches and jumps. -/

namespace RiscvSim

open Rv64i (Instr BranchOp)

/-- An offset in range is extended from its encoded width. -/
theorem signExtend_ofInt {n : ℕ} {offset : ℤ} (positive : 0 < n)
    (low : -(2 ^ (n - 1) : ℤ) ≤ offset) (high : offset < 2 ^ (n - 1))
    : (BitVec.ofInt n offset).signExtend 64 = BitVec.ofInt 64 offset := by
  obtain ⟨m, rfl⟩ : ∃ m, n = m + 1 := ⟨n - 1, by omega⟩
  have whole : (BitVec.ofInt (m + 1) offset).toInt = offset := by
    rw [BitVec.toInt_ofInt]
    simp only [Nat.add_sub_cancel] at low high
    apply Int.bmod_eq_of_le
    · push_cast
      omega
    · push_cast
      omega
  rw [BitVec.signExtend, whole]

/-- Bit 0 of an even offset is clear. -/
theorem ofInt_even {n : ℕ} {offset : ℤ} (even : 2 ∣ offset)
    : (BitVec.ofInt n offset).getLsbD 0 = false := by
  cases n with
  | zero => exact BitVec.getLsbD_of_ge _ _ (Nat.le_refl 0)
  | succ m =>
      have divides : (2 : ℤ) ∣ ((2 ^ (m + 1) : ℕ) : ℤ) := by
        rw [pow_succ]
        exact Dvd.intro_left _ (by push_cast; rfl)
      have residue : offset % ((2 ^ (m + 1) : ℕ) : ℤ) % 2 = 0 := by
        rw [Int.emod_emod_of_dvd _ divides]
        exact Int.emod_eq_zero_of_dvd even
      have positive : (0 : ℤ) ≤ offset % ((2 ^ (m + 1) : ℕ) : ℤ) :=
        Int.emod_nonneg _ (by positivity)
      rw [← BitVec.testBit_toNat, BitVec.toNat_ofInt, Nat.testBit_zero]
      apply decide_eq_false
      omega

/-- The parts of a branch offset, put together again. -/
theorem branchParts (offset : BitVec 13) (even : offset.getLsbD 0 = false)
    : (offset.extractLsb 12 12).setWidth 64 <<< 12 ||| (offset.extractLsb 10 5).setWidth 64 <<< 5
        ||| (offset.extractLsb 4 1).setWidth 64 <<< 1
        ||| (offset.extractLsb 11 11).setWidth 64 <<< 11
      = offset.setWidth 64 := by
  rw [BitVec.getLsbD_eq_getElem (by decide)] at even
  apply BitVec.eq_of_getLsbD_eq
  intro i bound
  simp only [BitVec.getLsbD_or, BitVec.getLsbD_shiftLeft, BitVec.getLsbD_setWidth,
    BitVec.extractLsb, BitVec.getLsbD_extractLsb']
  by_cases inside : i < 13
  · interval_cases i <;> simp [even]
  · have top : ¬ i - 12 < 1 := by omega
    have upper : ¬ i - 5 < 6 := by omega
    have lower : ¬ i - 1 < 4 := by omega
    have middle : ¬ i - 11 < 1 := by omega
    simp [top, upper, lower, middle, BitVec.getLsbD_of_ge offset i (by omega)]

/-- The parts of a jump offset, put together again. -/
theorem jumpParts (offset : BitVec 21) (even : offset.getLsbD 0 = false)
    : (offset.extractLsb 20 20).setWidth 64 <<< 20 ||| (offset.extractLsb 10 1).setWidth 64 <<< 1
        ||| (offset.extractLsb 11 11).setWidth 64 <<< 11
        ||| (offset.extractLsb 19 12).setWidth 64 <<< 12
      = offset.setWidth 64 := by
  rw [BitVec.getLsbD_eq_getElem (by decide)] at even
  apply BitVec.eq_of_getLsbD_eq
  intro i bound
  simp only [BitVec.getLsbD_or, BitVec.getLsbD_shiftLeft, BitVec.getLsbD_setWidth,
    BitVec.extractLsb, BitVec.getLsbD_extractLsb']
  by_cases inside : i < 21
  · interval_cases i <;> simp [even]
  · have top : ¬ i - 20 < 1 := by omega
    have lower : ¬ i - 1 < 10 := by omega
    have middle : ¬ i - 11 < 1 := by omega
    have upper : ¬ i - 12 < 8 := by omega
    simp [top, upper, lower, middle, BitVec.getLsbD_of_ge offset i (by omega)]

-----------------------------------------------------------------------------------------
-- Next-PC resolution
-----------------------------------------------------------------------------------------

section Resolution

variable {x : Instruction}

/-- The condition of a branch, read off `funct3`, is that of the instruction. -/
theorem branchCondition_eq {op : BranchOp} (funct3 : x.funct3 = op.funct3.setWidth 64)
    : branchCondition x = true ↔ op.taken x.op1Val x.op2Val := by
  unfold branchCondition
  rw [funct3]
  cases op with
  | beq => simp +decide [BranchOp.taken]
  | bne => simp +decide [BranchOp.taken]
  | blt => simp +decide [BranchOp.taken, BitVec.slt]
  | bge => simp +decide [BranchOp.taken, BitVec.slt]
  | bltu => simp +decide [BranchOp.taken, BitVec.ult]
  | bgeu => simp +decide [BranchOp.taken, BitVec.ult]

/-- The offset of a branch, collected from the fields. -/
theorem branchOffset {op : BranchOp} {rs1 rs2 : Rv64i.Reg} {offset : BitVec 13}
    (even : offset.getLsbD 0 = false) (h : x.Shows (Instr.branch op rs1 rs2 offset).encode)
    : sext64 (extractBits x.funct7 6 6 <<< 12 ||| extractBits x.funct7 5 0 <<< 5
        ||| extractBits x.rd 4 1 <<< 1 ||| extractBits x.rd 0 0 <<< 11) 12
      = offset.signExtend 64 := by
  have top : extractBits x.funct7 6 6 = (offset.extractLsb 12 12).setWidth 64 := by
    rw [h.funct7]
    refine (extractBits_subfield _ 6 1 (by decide) (by decide) (by decide)).trans ?_
    simp [Instr.encode, Rv64i.bType, BitVec.extractLsb'_or]
  have upper : extractBits x.funct7 5 0 = (offset.extractLsb 10 5).setWidth 64 := by
    rw [h.funct7]
    refine (extractBits_subfield _ 0 6 (by decide) (by decide) (by decide)).trans ?_
    simp [Instr.encode, Rv64i.bType, BitVec.extractLsb'_or]
  have lower : extractBits x.rd 4 1 = (offset.extractLsb 4 1).setWidth 64 := by
    rw [h.rd]
    refine (extractBits_subfield _ 1 4 (by decide) (by decide) (by decide)).trans ?_
    simp [Instr.encode, Rv64i.bType, BitVec.extractLsb'_or]
  have middle : extractBits x.rd 0 0 = (offset.extractLsb 11 11).setWidth 64 := by
    rw [h.rd]
    refine (extractBits_subfield _ 0 1 (by decide) (by decide) (by decide)).trans ?_
    simp [Instr.encode, Rv64i.bType, BitVec.extractLsb'_or]
  rw [top, upper, lower, middle, branchParts offset even]
  exact sext64_setWidth offset (by decide) (by decide)

/-- The offset of a jump, collected from the upper twenty bits. -/
theorem jumpOffset {rd : Rv64i.Reg} {offset : BitVec 21} (even : offset.getLsbD 0 = false)
    {imm20 : U64}
    (carries : imm20 = ((Instr.jal rd offset).encode.extractLsb' 12 20).setWidth 64)
    : sext64 (extractBits imm20 19 19 <<< 20 ||| extractBits imm20 18 9 <<< 1
        ||| extractBits imm20 8 8 <<< 11 ||| extractBits imm20 7 0 <<< 12) 20
      = offset.signExtend 64 := by
  have top : extractBits imm20 19 19 = (offset.extractLsb 20 20).setWidth 64 := by
    rw [carries]
    refine (extractBits_subfield _ 19 1 (by decide) (by decide) (by decide)).trans ?_
    simp [Instr.encode, Rv64i.jType, BitVec.extractLsb'_or]
  have lower : extractBits imm20 18 9 = (offset.extractLsb 10 1).setWidth 64 := by
    rw [carries]
    refine (extractBits_subfield _ 9 10 (by decide) (by decide) (by decide)).trans ?_
    simp [Instr.encode, Rv64i.jType, BitVec.extractLsb'_or]
  have middle : extractBits imm20 8 8 = (offset.extractLsb 11 11).setWidth 64 := by
    rw [carries]
    refine (extractBits_subfield _ 8 1 (by decide) (by decide) (by decide)).trans ?_
    simp [Instr.encode, Rv64i.jType, BitVec.extractLsb'_or]
  have upper : extractBits imm20 7 0 = (offset.extractLsb 19 12).setWidth 64 := by
    rw [carries]
    refine (extractBits_subfield _ 0 8 (by decide) (by decide) (by decide)).trans ?_
    simp [Instr.encode, Rv64i.jType, BitVec.extractLsb'_or]
  rw [top, upper, lower, middle, jumpParts offset even]
  exact sext64_setWidth offset (by decide) (by decide)

theorem nextPC_branch {op : BranchOp} {rs1 rs2 : Rv64i.Reg} {offset : BitVec 13}
    (even : offset.getLsbD 0 = false) (h : x.Shows (Instr.branch op rs1 rs2 offset).encode)
    : (simNextPCResolution x).nextPC
      = if op.taken x.op1Val x.op2Val then x.pc + offset.signExtend 64 else x.pc + 4 := by
  have opcode : x.opcode = opBranch := h.opcode_encode
  have funct3 : x.funct3 = op.funct3.setWidth 64 := by
    rw [h.funct3, Instr.encode, Rv64i.funct3_bType]
  unfold simNextPCResolution
  simp +decide only [opcode, if_true, if_false, branchOffset even h, branchCondition_eq funct3]

theorem nextPC_jal {rd : Rv64i.Reg} {offset : BitVec 21}
    (even : offset.getLsbD 0 = false) (h : x.Shows (Instr.jal rd offset).encode)
    : (simNextPCResolution x).nextPC = x.pc + offset.signExtend 64 := by
  have opcode : x.opcode = opJal := h.opcode_encode
  have imm20 : extractBits x.instruction 31 12
      = ((Instr.jal rd offset).encode.extractLsb' 12 20).setWidth 64 := by
    rw [h.instruction]
    exact extractBits_word _ 12 20 (by decide) (by decide)
  unfold simNextPCResolution
  simp +decide only [opcode, if_true, if_false, jumpOffset even imm20]

theorem nextPC_jalr {rd rs1 : Rv64i.Reg} {imm : BitVec 12}
    (h : x.Shows (Instr.jalr rd rs1 imm).encode)
    : (simNextPCResolution x).nextPC = (x.op1Val + imm.signExtend 64) &&& ~~~1#64 := by
  have opcode : x.opcode = opJalr := h.opcode_encode
  have imm12 : sext64 (extractBits x.instruction 31 20) 11 = imm.signExtend 64 := by
    rw [sext64_imm12 h, Instr.encode, Rv64i.imm_iType]
  unfold simNextPCResolution
  simp +decide only [opcode, if_true, imm12]

end Resolution

/-- Encoded control flow goes where the manual says. The offset of a branch or a jump is an
even integer of its range, that of an indirect jump any integer of its range. Witness: the
decoder reassembles the immediate that the encoding has split.
-/
theorem nextPC_of_encode (inst : Instruction) (a b : U64) (rd rs1 rs2 : Rv64i.Reg)
    : (∀ (op : BranchOp) (offset : ℤ), -4096 ≤ offset → offset ≤ 4094 → 2 ∣ offset
        → inst.instruction
          = (Instr.branch op rs1 rs2 (BitVec.ofInt 13 offset)).encode.setWidth 64
        → (simNextPCResolution (inst.decodedWith a b)).nextPC
          = if op.taken a b then inst.pc + BitVec.ofInt 64 offset else inst.pc + 4)
      ∧ (∀ offset : ℤ, -(2 ^ 20) ≤ offset → offset ≤ 2 ^ 20 - 2 → 2 ∣ offset
        → inst.instruction = (Instr.jal rd (BitVec.ofInt 21 offset)).encode.setWidth 64
        → (simNextPCResolution (inst.decodedWith a b)).nextPC
          = inst.pc + BitVec.ofInt 64 offset)
      ∧ (∀ offset : ℤ, -2048 ≤ offset → offset ≤ 2047
        → inst.instruction = (Instr.jalr rd rs1 (BitVec.ofInt 12 offset)).encode.setWidth 64
        → (simNextPCResolution (inst.decodedWith a b)).nextPC
          = (a + BitVec.ofInt 64 offset) &&& ~~~1#64) := by
  refine ⟨?_, ?_, ?_⟩
  · intro op offset low high even carries
    have shows := decodedWith_shows carries a b
    rw [nextPC_branch (ofInt_even even) shows, Instruction.decodedWith_pc,
      signExtend_ofInt (by decide) (by omega) (by omega)]
    rfl
  · intro offset low high even carries
    have shows := decodedWith_shows carries a b
    rw [nextPC_jal (ofInt_even even) shows, Instruction.decodedWith_pc,
      signExtend_ofInt (by decide) (by omega) (by omega)]
  · intro offset low high carries
    have shows := decodedWith_shows carries a b
    rw [nextPC_jalr shows, signExtend_ofInt (by decide) (by omega) (by omega)]
    rfl

/-- `blt` and `jal` at the lowest offset of their ranges, and `jalr` at an odd target. -/
theorem nextPC_of_negative_offsets
    : (simNextPCResolution (Instruction.decodedWith
          { instruction := (Instr.branch .blt 1 2 (BitVec.ofInt 13 (-4096))).encode.setWidth 64 }
          (-1) 0)).nextPC
        = 0xFFFF_FFFF_FFFF_F000
      ∧ (simNextPCResolution (Instruction.decodedWith
          { instruction := (Instr.jal 1 (BitVec.ofInt 21 (-(2 ^ 20)))).encode.setWidth 64 }
          0 0)).nextPC
        = 0xFFFF_FFFF_FFF0_0000
      ∧ (simNextPCResolution (Instruction.decodedWith
          { instruction := (Instr.jalr 1 2 (BitVec.ofInt 12 (-1))).encode.setWidth 64 }
          4 0)).nextPC
        = 2 := by
  refine ⟨?_, ?_, ?_⟩
  · have runs := nextPC_of_encode
      { instruction := (Instr.branch .blt 1 2 (BitVec.ofInt 13 (-4096))).encode.setWidth 64 }
      (-1) 0 0 1 2
    exact (runs.1 .blt (-4096) (by decide) (by decide) (by decide) rfl).trans (by decide)
  · have runs := nextPC_of_encode
      { instruction := (Instr.jal 1 (BitVec.ofInt 21 (-(2 ^ 20)))).encode.setWidth 64 }
      0 0 1 0 0
    exact (runs.2.1 (-(2 ^ 20)) (by decide) (by decide) (by decide) rfl).trans (by decide)
  · have runs := nextPC_of_encode
      { instruction := (Instr.jalr 1 2 (BitVec.ofInt 12 (-1))).encode.setWidth 64 }
      4 0 1 2 0
    exact (runs.2.2 (-1) (by decide) (by decide) rfl).trans (by decide)

end RiscvSim
