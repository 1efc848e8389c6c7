import RiscvSim.Correctness.Decoder
import RiscvSim.Source.Shifts

/-! Arithmetic as RV64I defines it, for every encoding of an instruction that computes a
value.
-/

namespace RiscvSim

open Rv64i (Instr RegOp RegOpW ImmOp ShiftOp)

-----------------------------------------------------------------------------------------
-- Shifts
-----------------------------------------------------------------------------------------

/-- A mask built in an `int` is the same mask. -/
theorem signExtend_mask {n : ℕ} (bound : n < 31)
    : ((1#32 <<< n) - 1#32).signExtend 64 = (1#64 <<< n) - 1#64 := by
  have narrow : ((1#32 <<< n) - 1#32).toNat = 2 ^ n - 1 := Words.toNat_mask (by omega)
  have wide : ((1#64 <<< n) - 1#64).toNat = 2 ^ n - 1 := Words.toNat_mask (by omega)
  have small : 2 ^ n < 2 ^ 31 := Nat.pow_lt_pow_right (by omega) bound
  have positive : ((1#32 <<< n) - 1#32).msb = false := by
    rw [BitVec.msb_eq_false_iff_two_mul_lt, narrow]
    omega
  apply BitVec.eq_of_toNat_eq
  rw [BitVec.signExtend_eq_setWidth_of_msb_false positive, BitVec.toNat_setWidth, narrow, wide,
    Nat.mod_eq_of_lt (by omega)]

theorem extractBits?_eq (instruction : U64) {start stop : ℕ} (narrow : start - stop + 1 < 31)
    (inside : stop < 64)
    : extractBits? instruction start stop = some (extractBits instruction start stop) := by
  have bound : start - stop + 1 < 32 := by omega
  have mask : (((1 : BitVec 32) <<< (start - stop + 1)) - 1).signExtend 64
      = (1#64 <<< (start - stop + 1)) - 1 :=
    signExtend_mask narrow
  simp only [extractBits?, shiftLeft?, shiftRight?, bound, inside, if_true, Option.bind_eq_bind,
    Option.bind_some]
  rw [mask]
  rfl

theorem sext64?_eq (imm : U64) {signBit : ℕ} (bound : signBit + 1 < 64)
    : sext64? imm signBit = some (sext64 imm signBit) := by
  have low : signBit < 64 := by omega
  simp only [sext64?, shiftLeft?, low, bound, if_true, Option.bind_eq_bind, Option.bind_some]
  exact (apply_ite some _ _ _).symm

theorem sext32?_eq (imm : BitVec 32) {signBit : ℕ} (bound : signBit + 1 < 32)
    : sext32? imm signBit = some (sext32 imm signBit) := by
  have low : signBit < 32 := by omega
  simp only [sext32?, shiftLeft?, low, bound, if_true, Option.bind_eq_bind, Option.bind_some]
  exact (apply_ite some _ _ _).symm

/-- No shift of the decoder is undefined. -/
theorem simDecode?_eq (inst : Instruction) : simDecode? inst = some (simDecode inst) := by
  simp [simDecode?, extractBits?_eq, simDecode, decodeFields]

theorem toNat_low (v : U64) : (v &&& 0x3F).toNat = v.toNat % 64 := by
  rw [BitVec.toNat_and]
  exact Nat.and_two_pow_sub_one_eq_mod v.toNat 6

theorem toNat_lowW (v : U64) : ((v &&& 0x1F).setWidth 32 : BitVec 32).toNat = v.toNat % 32 := by
  have low : (v &&& 0x1F).toNat = v.toNat % 32 := by
    rw [BitVec.toNat_and]
    exact Nat.and_two_pow_sub_one_eq_mod v.toNat 5
  rw [BitVec.toNat_setWidth, low]
  omega

theorem arithInt?_eq (inst : Instruction)
    (masked : inst.funct3 = funct3Sll ∨ inst.funct3 = funct3Sr → inst.op2Val.toNat < 64)
    : arithInt? inst (extractBits inst.instruction 31 26) = some (arithInt inst) := by
  by_cases shift : inst.funct3 = funct3Sll ∨ inst.funct3 = funct3Sr
  · have small := masked shift
    simp only [arithInt?, shiftLeft?, shiftRight?, sshiftRight?, small, if_true, arithInt,
      apply_ite some, BitVec.shiftLeft_eq', BitVec.ushiftRight_eq']
  · simp only [not_or] at shift
    simp only [arithInt?, arithInt, shift, if_false, apply_ite some]

theorem arithIntW?_eq (inst : Instruction)
    (masked
      : inst.funct3 = funct3Sll ∨ inst.funct3 = funct3Sr
        → (inst.op2Val.setWidth 32 : BitVec 32).toNat < 32)
    : arithIntW? inst (extractBits inst.instruction 31 26) = some (arithIntW inst) := by
  by_cases shift : inst.funct3 = funct3Sll ∨ inst.funct3 = funct3Sr
  · have small := masked shift
    simp only [arithIntW?, shiftLeft?, shiftRight?, sshiftRight?, small, if_true, arithIntW,
      sext64?_eq _ (show 31 + 1 < 64 by decide), Option.bind_eq_bind, Option.bind_some,
      apply_ite some, BitVec.shiftLeft_eq', BitVec.ushiftRight_eq']
  · simp only [not_or] at shift
    simp only [arithIntW?, arithIntW, shift, if_false, sext64?_eq _ (show 31 + 1 < 64 by decide),
      apply_ite some]

theorem arithIntImm?_eq (inst : Instruction)
    : arithIntImm? inst (extractBits inst.instruction 31 20) (extractBits inst.instruction 31 26)
      = some (arithIntImm inst) := by
  have small : (extractBits inst.instruction 31 20 &&& 0x3F).toNat < 64 := by
    rw [toNat_low]
    omega
  simp only [arithIntImm?, shiftLeft?, shiftRight?, sshiftRight?, small, if_true, arithIntImm,
    sext64?_eq _ (show 11 + 1 < 64 by decide), Option.bind_eq_bind, Option.bind_some,
    Option.pure_def, apply_ite some, BitVec.shiftLeft_eq', BitVec.ushiftRight_eq']

theorem arithIntImmW?_eq (inst : Instruction)
    : arithIntImmW? inst (extractBits inst.instruction 31 20) (extractBits inst.instruction 31 26)
      = some (arithIntImmW inst) := by
  have small
      : ((extractBits inst.instruction 31 20 &&& 0x1F).setWidth 32 : BitVec 32).toNat < 32 := by
    rw [toNat_lowW]
    omega
  simp only [arithIntImmW?, shiftLeft?, shiftRight?, sshiftRight?, small, if_true, arithIntImmW,
    sext64?_eq _ (show 31 + 1 < 64 by decide), sext32?_eq _ (show 11 + 1 < 32 by decide),
    Option.bind_eq_bind, Option.bind_some, apply_ite some, BitVec.shiftLeft_eq',
    BitVec.ushiftRight_eq']

theorem upperImm?_eq (imm20 : U64) : upperImm? imm20 = some (sext64 (imm20 <<< 12) 31) := by
  simp only [upperImm?, shiftLeft?, show 12 < 64 by decide, if_true, Option.bind_eq_bind,
    Option.bind_some, sext64?_eq _ (show 31 + 1 < 64 by decide)]

theorem arithResult?_eq (inst : Instruction)
    : arithResult? inst.maskShift (extractBits inst.instruction 31 20)
        (extractBits inst.instruction 31 26) (extractBits inst.instruction 31 12)
      = some (aluResult inst.maskShift) := by
  have kept := Instruction.sameControl (Instruction.control_maskShift inst)
  have int (code : inst.maskShift.opcode = opInt)
      : arithInt? inst.maskShift (extractBits inst.maskShift.instruction 31 26)
        = some (arithInt inst.maskShift) := by
    apply arithInt?_eq
    intro shift
    rw [kept.funct3] at shift
    rw [Instruction.maskShift_op2Val, if_pos ⟨kept.opcode ▸ code, shift⟩, toNat_low]
    omega
  have intW (code : inst.maskShift.opcode = opIntW)
      : arithIntW? inst.maskShift (extractBits inst.maskShift.instruction 31 26)
        = some (arithIntW inst.maskShift) := by
    apply arithIntW?_eq
    intro shift
    rw [kept.funct3] at shift
    have other : ¬ inst.opcode = opInt := by
      rw [← kept.opcode, code]
      decide
    rw [Instruction.maskShift_op2Val, if_neg (fun both => other both.1),
      if_pos ⟨kept.opcode ▸ code, shift⟩, toNat_lowW]
    omega
  rw [← kept.instruction, arithResult?, aluResult]
  by_cases h : inst.maskShift.opcode = opInt
  · rw [if_pos h, if_pos h, int h]
  rw [if_neg h, if_neg h]
  by_cases h : inst.maskShift.opcode = opIntW
  · rw [if_pos h, if_pos h, intW h]
  rw [if_neg h, if_neg h]
  simp only [arithIntImm?_eq, arithIntImmW?_eq, upperImm?_eq, Option.map_some, apply_ite some]

/-- No shift of the ALU is undefined. -/
theorem simArithLogic?_eq (inst : Instruction)
    : simArithLogic? inst = some (simArithLogic inst) := by
  have masked : simArithLogic? inst
      = (arithResult? inst.maskShift (extractBits inst.instruction 31 20)
          (extractBits inst.instruction 31 26) (extractBits inst.instruction 31 12)).map
          fun arithResult => { inst.maskShift with arithResult := arithResult } := by
    rw [simArithLogic?, extractBits?_eq _ (by decide) (by decide),
      extractBits?_eq _ (by decide) (by decide), extractBits?_eq _ (by decide) (by decide)]
    exact Option.map_eq_bind.symm
  have word := (Instruction.sameControl (Instruction.control_maskShift inst)).instruction
  rw [masked, arithResult?_eq, Option.map_some, aluResult, word]
  rfl

-----------------------------------------------------------------------------------------
-- Values
-----------------------------------------------------------------------------------------

theorem ofBool_slt (a b : U64) : ofBool (a.slt b) = Rv64i.flag (a.toInt < b.toInt) := by
  simp [ofBool, Rv64i.flag, BitVec.slt]

theorem ofBool_ult (a b : U64) : ofBool (a.ult b) = Rv64i.flag (a.toNat < b.toNat) := by
  simp [ofBool, Rv64i.flag, BitVec.ult]

theorem sext64_fromWord (word : BitVec 32) : sext64 (word.setWidth 64) 31 = Rv64i.fromWord word :=
  sext64_setWidth word (by decide) (by decide)

/-- A word that is already extended stays as it is. -/
theorem sext64_signExtend (word : BitVec 32)
    : sext64 (word.signExtend 64) 31 = Rv64i.fromWord word := by
  cases sign : word.msb with
  | false =>
      rw [BitVec.signExtend_eq_setWidth_of_msb_false sign]
      exact sext64_fromWord word
  | true =>
      have set : (word.signExtend 64 &&& (1#64 <<< 31)) ≠ 0#64 := by
        rw [Words.and_bit_ne_zero _ (by decide), BitVec.getLsbD_signExtend]
        simpa [BitVec.msb_eq_getLsbD_last] using sign
      have filled : sext64 (word.signExtend 64) 31
          = word.signExtend 64 ||| (BitVec.allOnes 64 <<< 32) :=
        if_pos set
      rw [filled]
      ext i bound
      rw [BitVec.getElem_or, Rv64i.fromWord, BitVec.getElem_signExtend]
      by_cases inside : i < 32
      · simp [inside, -BitVec.reduceAllOnes]
      · simp [inside, sign, -BitVec.reduceAllOnes]

variable {x : Instruction} {rd rs1 rs2 : Rv64i.Reg}

theorem upperImm12_eq {word : BitVec 32} (h : x.Shows word)
    : extractBits x.instruction 31 26 = (Rv64i.funct6 word).setWidth 64 := by
  rw [h.instruction]
  exact extractBits_word word 26 6 (by omega) (by omega)

theorem arithResult_reg {op : RegOp} (h : x.Shows (Instr.reg op rd rs1 rs2).encode)
    : (simArithLogic x).arithResult = op.value x.op1Val x.op2Val := by
  have opcode : x.opcode = opInt := h.opcode_encode
  have f3 := h.funct3
  have f7 := h.funct7
  have upper := upperImm12_eq h
  rw [← Rv64i.extract_funct7] at upper
  simp only [Instr.encode, Rv64i.funct3_rType, Rv64i.funct7_rType] at f3 f7 upper
  cases op <;>
    simp +decide [simArithLogic, opcode, f3, f7, upper, arithInt, RegOp.funct3, RegOp.funct7,
      RegOp.value, ofBool_slt, ofBool_ult, Nat.and_two_pow_sub_one_eq_mod _ 6]

theorem arithResult_regW {op : RegOpW} (h : x.Shows (Instr.regW op rd rs1 rs2).encode)
    : (simArithLogic x).arithResult = op.value x.op1Val x.op2Val := by
  have opcode : x.opcode = opIntW := h.opcode_encode
  have f3 := h.funct3
  have f7 := h.funct7
  have upper := upperImm12_eq h
  rw [← Rv64i.extract_funct7] at upper
  simp only [Instr.encode, Rv64i.funct3_rType, Rv64i.funct7_rType] at f3 f7 upper
  have low : ((x.op2Val &&& 0x1F).setWidth 32 : BitVec 32).toNat = x.op2Val.toNat % 32 :=
    toNat_lowW x.op2Val
  cases op <;>
    simp +decide only [simArithLogic, opcode, f3, f7, upper, arithIntW, RegOpW.funct3,
      RegOpW.funct7, RegOpW.value, sext64_fromWord, sext64_signExtend, Rv64i.lowWord,
      BitVec.shiftLeft_eq', BitVec.ushiftRight_eq', low, if_true, if_false, true_and, and_true,
      false_and, or_true, or_false]

theorem arithResult_regImm {op : ImmOp} {imm : BitVec 12}
    (h : x.Shows (Instr.regImm op rd rs1 imm).encode)
    : (simArithLogic x).arithResult = op.value x.op1Val (imm.signExtend 64) := by
  have opcode : x.opcode = opIntImm := h.opcode_encode
  have f3 := h.funct3
  have imm12 := imm12_eq h
  simp only [Instr.encode, Rv64i.funct3_iType, Rv64i.imm_iType] at f3 imm12
  have extended : sext64 (imm.setWidth 64) 11 = imm.signExtend 64 :=
    sext64_setWidth imm (by decide) (by decide)
  cases op <;>
    simp +decide only [simArithLogic, opcode, f3, imm12, extended, arithIntImm, ImmOp.funct3,
      ImmOp.value, ofBool_slt, ofBool_ult, if_true, if_false, false_and]

/-- The low bits of the immediate, by which an immediate shift shifts. -/
theorem imm12_mod {word : BitVec 32} (h : x.Shows word) (len : ℕ) (short : len ≤ 12)
    : (extractBits x.instruction 31 20).toNat % 2 ^ len = (word.extractLsb' 20 len).toNat := by
  have small := (word.extractLsb' 20 12).isLt
  have wide : (extractBits x.instruction 31 20).toNat = (word.extractLsb' 20 12).toNat := by
    rw [imm12_eq h, BitVec.toNat_setWidth]
    exact Nat.mod_eq_of_lt (by omega)
  rw [wide, BitVec.extractLsb'_toNat, BitVec.extractLsb'_toNat,
    Nat.mod_mod_of_dvd _ (Nat.pow_dvd_pow 2 short)]

theorem arithResult_shiftImm {op : ShiftOp} {shamt : BitVec 6}
    (h : x.Shows (Instr.shiftImm op rd rs1 shamt).encode)
    : (simArithLogic x).arithResult = op.value x.op1Val shamt.toNat := by
  have opcode : x.opcode = opIntImm := h.opcode_encode
  have low : (extractBits x.instruction 31 20 &&& 0x3F).toNat = shamt.toNat := by
    rw [toNat_low, ← Rv64i.shamt_shiftImm op rd rs1 shamt]
    exact imm12_mod h 6 (by decide)
  have f3 := h.funct3
  have upper := upperImm12_eq h
  rw [Rv64i.funct6_shiftImm] at upper
  rw [Instr.encode, Rv64i.funct3_iType] at f3
  cases op <;>
    simp +decide only [simArithLogic, opcode, f3, upper, arithIntImm, ShiftOp.funct3,
      ShiftOp.funct6, ShiftOp.value, BitVec.shiftLeft_eq', BitVec.ushiftRight_eq', low, if_true,
      if_false, false_and]

theorem arithResult_addiw {imm : BitVec 12} (h : x.Shows (Instr.addiw rd rs1 imm).encode)
    : (simArithLogic x).arithResult
      = Rv64i.fromWord (Rv64i.lowWord x.op1Val + imm.signExtend 32) := by
  have opcode : x.opcode = opIntImmW := h.opcode_encode
  have f3 := h.funct3
  have imm12 := imm12_eq h
  simp only [Instr.encode, Rv64i.funct3_iType, Rv64i.imm_iType] at f3 imm12
  have extended : sext32 ((imm.setWidth 64).setWidth 32) 11 = imm.signExtend 32 := by
    rw [BitVec.setWidth_setWidth_of_le _ (by decide)]
    exact sext32_setWidth imm (by decide) (by decide)
  simp +decide only [simArithLogic, opcode, f3, imm12, extended, arithIntImmW, Rv64i.lowWord,
    sext64_fromWord, if_true, if_false, false_and]

theorem arithResult_shiftImmW {op : ShiftOp} {shamt : BitVec 5}
    (h : x.Shows (Instr.shiftImmW op rd rs1 shamt).encode)
    : (simArithLogic x).arithResult
      = Rv64i.fromWord (op.value (Rv64i.lowWord x.op1Val) shamt.toNat) := by
  have opcode : x.opcode = opIntImmW := h.opcode_encode
  have f3 := h.funct3
  have upper := upperImm12_eq h
  rw [← Rv64i.extract_funct7] at upper
  have low : ((extractBits x.instruction 31 20 &&& 0x1F).setWidth 32 : BitVec 32).toNat
      = shamt.toNat := by
    have rs2 : (Instr.shiftImmW op rd rs1 shamt).encode.extractLsb' 20 5 = shamt := by
      rw [Instr.encode, Rv64i.rs2_rType]
    rw [toNat_lowW, ← rs2]
    exact imm12_mod h 5 (by decide)
  simp only [Instr.encode, Rv64i.funct3_rType, Rv64i.funct7_rType] at f3 upper
  cases op <;>
    simp +decide only [simArithLogic, opcode, f3, upper, arithIntImmW, ShiftOp.funct3,
      ShiftOp.funct7, ShiftOp.value, Rv64i.lowWord, sext64_fromWord, sext64_signExtend,
      BitVec.shiftLeft_eq', BitVec.ushiftRight_eq', low, if_true, if_false, false_and]

/-- The operand of LUI and AUIPC. -/
theorem sext64_upper {word : BitVec 32} (h : x.Shows word)
    : sext64 (extractBits x.instruction 31 12 <<< 12) 31
      = Rv64i.fromWord (word.extractLsb' 12 20 ++ 0#12) := by
  have imm20 : extractBits x.instruction 31 12 = (word.extractLsb' 12 20).setWidth 64 := by
    rw [h.instruction]
    exact extractBits_word word 12 20 (by omega) (by omega)
  have shifted (imm : BitVec 20)
      : (imm.setWidth 64 : U64) <<< 12 = (imm ++ 0#12).setWidth 64 := by
    ext i bound
    rw [BitVec.getElem_shiftLeft, BitVec.getElem_setWidth, BitVec.getElem_setWidth,
      BitVec.getLsbD_append]
    by_cases low : i < 12
    · simp [low]
    · simp [low]
  rw [imm20, shifted, sext64_fromWord]

/-- The result of an encoded instruction is the value the manual defines for `rd`. -/
theorem arithResult_encode {instr : Instr} {value : U64} (h : x.Shows instr.encode)
    (defined : instr.value x.pc x.op1Val x.op2Val = some value)
    : (simArithLogic x).arithResult = value := by
  cases instr with
  | reg op rd rs1 rs2 => exact (arithResult_reg h).trans (Option.some.inj defined)
  | regW op rd rs1 rs2 => exact (arithResult_regW h).trans (Option.some.inj defined)
  | regImm op rd rs1 imm => exact (arithResult_regImm h).trans (Option.some.inj defined)
  | shiftImm op rd rs1 shamt => exact (arithResult_shiftImm h).trans (Option.some.inj defined)
  | addiw rd rs1 imm => exact (arithResult_addiw h).trans (Option.some.inj defined)
  | shiftImmW op rd rs1 shamt => exact (arithResult_shiftImmW h).trans (Option.some.inj defined)
  | lui rd imm =>
      have opcode : x.opcode = opLui := h.opcode_encode
      have upper := sext64_upper h
      rw [Instr.encode, Rv64i.imm_uType] at upper
      rw [← Option.some.inj defined, ← upper]
      simp +decide only [simArithLogic, opcode, if_true, if_false, false_and]
  | auipc rd imm =>
      have opcode : x.opcode = opAuipc := h.opcode_encode
      have upper := sext64_upper h
      rw [Instr.encode, Rv64i.imm_uType] at upper
      rw [← Option.some.inj defined, ← upper]
      simp +decide only [simArithLogic, opcode, if_true, if_false, false_and]
  | jal rd offset =>
      have opcode : x.opcode = opJal := h.opcode_encode
      rw [← Option.some.inj defined]
      simp +decide only [simArithLogic, opcode, if_true, if_false, false_and]
  | jalr rd rs1 imm =>
      have opcode : x.opcode = opJalr := h.opcode_encode
      rw [← Option.some.inj defined]
      simp +decide only [simArithLogic, opcode, if_true, if_false, false_and]
  | load op => exact absurd defined (by simp [Instr.value])
  | store op => exact absurd defined (by simp [Instr.value])
  | branch op => exact absurd defined (by simp [Instr.value])

/-- Arithmetic matches RV64I: an encoding that computes a value is accepted, no shift on the
way is undefined, and the result is the value the manual defines.
-/
theorem arithmetic_of_encode (instr : Instr) (inst : Instruction) (a b value : U64)
    (carries : inst.instruction = instr.encode.setWidth 64)
    (defined : instr.value inst.pc a b = some value)
    : (simDecode inst).isLegal = true
      ∧ simDecode? inst = some (simDecode inst)
      ∧ simArithLogic? (inst.decodedWith a b) = some (simArithLogic (inst.decodedWith a b))
      ∧ (simArithLogic (inst.decodedWith a b)).arithResult = value := by
  have accepted : Accepted (Rv64i.opcode instr.encode) (Rv64i.funct3 instr.encode)
      (Rv64i.funct7 instr.encode) :=
    (accepted_iff _ _ _).mpr (.inl (Rv64i.listed_encode instr))
  refine ⟨(isLegal_simDecode carries).mpr (.inr accepted), simDecode?_eq inst,
    simArithLogic?_eq _, arithResult_encode (decodedWith_shows carries a b) ?_⟩
  rwa [Instruction.decodedWith_pc]

/-- `sraw x3, x1, x2` shifts the sign of the lower word in, by the lower five bits of `x2`. -/
theorem arithmetic_of_sraw
    : (simArithLogic (Instruction.decodedWith { instruction := 0x4020d1bb } 0x180000000 0x3F)
        ).arithResult
      = 0xFFFFFFFFFFFFFFFF :=
  (arithmetic_of_encode (.regW .sraw 3 1 2) { instruction := 0x4020d1bb } 0x180000000 0x3F _
    (by decide) (by decide)).2.2.2

end RiscvSim
