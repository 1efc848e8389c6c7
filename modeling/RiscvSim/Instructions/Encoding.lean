import RiscvSim.Instructions.Execution
import RiscvSim.Library.Rv64i
import RiscvSim.Library.Words

/-! How the decoder's bit helpers act on the fields of an instruction word, and what
`simDecode` makes of each field.
-/

namespace RiscvSim

theorem getLsbD_extractBits (instruction : U64) {start stop : ℕ}
    (bound : start - stop + 1 < 64) (i : ℕ)
    : (extractBits instruction start stop).getLsbD i
      = (decide (i < start - stop + 1) && instruction.getLsbD (stop + i)) := by
  have mask : ((1#64 <<< (start - stop + 1)) - 1).getLsbD i = decide (i < start - stop + 1) :=
    Words.getLsbD_mask bound i
  unfold extractBits
  simp only [BitVec.getLsbD_and, BitVec.getLsbD_ushiftRight, mask]
  exact Bool.and_comm _ _

/-- The bits of a field are a field of it. -/
theorem extractBits_field {n : ℕ} (field : BitVec n) (lsb len : ℕ) (positive : 0 < len)
    (bound : len < 64) (wide : n ≤ 64)
    : extractBits (field.setWidth 64) (lsb + len - 1) lsb
      = (field.extractLsb' lsb len).setWidth 64 := by
  have width : lsb + len - 1 - lsb + 1 = len := by omega
  ext i below
  rw [← BitVec.getLsbD_eq_getElem, getLsbD_extractBits _ (by omega), width,
    BitVec.getLsbD_setWidth, BitVec.getElem_setWidth, BitVec.getLsbD_extractLsb']
  cases bit : field.getLsbD (lsb + i) with
  | false => simp
  | true =>
      have inside := BitVec.lt_of_getLsbD bit
      have small : lsb + i < 64 := by omega
      simp [small]

theorem extractBits_word (word : BitVec 32) (lsb len : ℕ) (positive : 0 < len)
    (bound : len < 64)
    : extractBits (word.setWidth 64) (lsb + len - 1) lsb
      = (word.extractLsb' lsb len).setWidth 64 :=
  extractBits_field word lsb len positive bound (by decide)

/-- A field of a field of a word. -/
theorem extractBits_subfield (word : BitVec 32) {start size : ℕ} (lsb len : ℕ)
    (positive : 0 < len) (inside : lsb + len ≤ size) (bound : size < 64)
    : extractBits ((word.extractLsb' start size).setWidth 64) (lsb + len - 1) lsb
      = (word.extractLsb' (start + lsb) len).setWidth 64 := by
  rw [extractBits_field _ lsb len positive (by omega) (by omega),
    Words.extract_extract word inside]

/-- Extending a field from its top bit extends its sign. -/
theorem sext64_setWidth {n : ℕ} (field : BitVec n) (positive : 0 < n) (bound : n ≤ 64)
    : sext64 (field.setWidth 64) (n - 1) = field.signExtend 64 :=
  Words.signFill_eq field positive bound

theorem sext32_setWidth {n : ℕ} (field : BitVec n) (positive : 0 < n) (bound : n ≤ 32)
    : sext32 (field.setWidth 32) (n - 1) = field.signExtend 32 :=
  Words.signFill_eq field positive bound

-----------------------------------------------------------------------------------------
-- The fields of a decoded word
-----------------------------------------------------------------------------------------

/-- The instruction holds `word`, and its fields are those of the word. -/
structure Instruction.Shows (inst : Instruction) (word : BitVec 32) : Prop where
  instruction : inst.instruction = word.setWidth 64
  opcode : inst.opcode = (Rv64i.opcode word).setWidth 64
  funct3 : inst.funct3 = (Rv64i.funct3 word).setWidth 64
  funct7 : inst.funct7 = (Rv64i.funct7 word).setWidth 64
  rd : inst.rd = (word.extractLsb' 7 5).setWidth 64

theorem decodeSignals_fields (inst : Instruction)
    : (decodeSignals inst).opcode = inst.opcode ∧ (decodeSignals inst).funct3 = inst.funct3
      ∧ (decodeSignals inst).funct7 = inst.funct7 ∧ (decodeSignals inst).rd = inst.rd := by
  unfold decodeSignals
  refine ⟨?_, ?_, ?_, ?_⟩
  · simp only [apply_ite Instruction.opcode, ite_self]
  · simp only [apply_ite Instruction.funct3, ite_self]
  · simp only [apply_ite Instruction.funct7, ite_self]
  · simp only [apply_ite Instruction.rd, ite_self]

theorem decodeFields_shows {inst : Instruction} {word : BitVec 32}
    (carries : inst.instruction = word.setWidth 64) : (decodeFields inst).Shows word := by
  constructor
  · exact carries
  · rw [decodeFields, carries]
    exact extractBits_word word 0 7 (by omega) (by omega)
  · rw [decodeFields, carries]
    exact extractBits_word word 12 3 (by omega) (by omega)
  · rw [decodeFields, carries]
    exact extractBits_word word 25 7 (by omega) (by omega)
  · rw [decodeFields, carries]
    exact extractBits_word word 7 5 (by omega) (by omega)

theorem simDecode_shows {inst : Instruction} {word : BitVec 32}
    (carries : inst.instruction = word.setWidth 64) : (simDecode inst).Shows word := by
  have fields := decodeFields_shows carries
  obtain ⟨opcode, funct3, funct7, rd⟩ := decodeSignals_fields (decodeFields inst)
  constructor
  · rw [simDecode_instruction, carries]
  · rw [simDecode, opcode, fields.opcode]
  · rw [simDecode, funct3, fields.funct3]
  · rw [simDecode, funct7, fields.funct7]
  · rw [simDecode, rd, fields.rd]

/-- The decoded instruction with the operands `a` and `b`. -/
def Instruction.decodedWith (inst : Instruction) (a b : U64) : Instruction :=
  { simDecode inst with op1Val := a, op2Val := b }

@[simp]
theorem Instruction.decodedWith_pc (inst : Instruction) (a b : U64)
    : (inst.decodedWith a b).pc = inst.pc :=
  simDecode_pc inst

theorem decodedWith_shows {inst : Instruction} {word : BitVec 32}
    (carries : inst.instruction = word.setWidth 64) (a b : U64)
    : (inst.decodedWith a b).Shows word := by
  have shows := simDecode_shows carries
  exact ⟨shows.instruction, shows.opcode, shows.funct3, shows.funct7, shows.rd⟩

/-- The opcode of an encoded instruction. -/
theorem Instruction.Shows.opcode_encode {inst : Instruction} {instr : Rv64i.Instr}
    (h : inst.Shows instr.encode) : inst.opcode = instr.opcode.setWidth 64 := by
  rw [h.opcode, Rv64i.opcode_encode]

section Immediates

variable {inst : Instruction} {word : BitVec 32}

/-- The immediate of the I format. -/
theorem imm12_eq (h : inst.Shows word)
    : extractBits inst.instruction 31 20 = (word.extractLsb' 20 12).setWidth 64 := by
  rw [h.instruction]
  exact extractBits_word word 20 12 (by omega) (by omega)

theorem sext64_imm12 (h : inst.Shows word)
    : sext64 (extractBits inst.instruction 31 20) 11
      = (word.extractLsb' 20 12).signExtend 64 := by
  rw [imm12_eq h]
  exact sext64_setWidth _ (by decide) (by decide)

end Immediates

section Comparisons

variable {inst : Instruction} {word : BitVec 32}

/-- A field is compared with a code of the source in its own width. -/
theorem Instruction.Shows.opcode_eq_iff (h : inst.Shows word) {code : U64}
    (small : code.toNat < 128)
    : inst.opcode = code ↔ Rv64i.opcode word = code.setWidth 7 := by
  rw [h.opcode, Words.setWidth_eq_iff (by omega) small]

theorem Instruction.Shows.funct3_eq_iff (h : inst.Shows word) {code : U64}
    (small : code.toNat < 8)
    : inst.funct3 = code ↔ Rv64i.funct3 word = code.setWidth 3 := by
  rw [h.funct3, Words.setWidth_eq_iff (by omega) small]

theorem Instruction.Shows.funct7_eq_iff (h : inst.Shows word) {code : U64}
    (small : code.toNat < 128)
    : inst.funct7 = code ↔ Rv64i.funct7 word = code.setWidth 7 := by
  rw [h.funct7, Words.setWidth_eq_iff (by omega) small]

/-- The upper six bits of `funct7`. -/
theorem Instruction.Shows.funct6_eq_iff (h : inst.Shows word) {code : U64}
    (small : code.toNat < 64)
    : inst.funct7.ushiftRight 1 = code ↔ Rv64i.funct6 word = code.setWidth 6 := by
  have upper : inst.funct7.ushiftRight 1 = (Rv64i.funct6 word).setWidth 64 := by
    apply BitVec.eq_of_getLsbD_eq
    intro i bound
    rw [h.funct7, ← Rv64i.extract_funct7, BitVec.ushiftRight_eq, BitVec.getLsbD_ushiftRight,
      BitVec.getLsbD_setWidth, BitVec.getLsbD_setWidth, BitVec.getLsbD_extractLsb']
    by_cases inside : i < 6
    · simp [inside, bound, show 1 + i < 64 by omega]
    · have outside := BitVec.getLsbD_of_ge (Rv64i.funct7 word) (1 + i) (by omega)
      simp [inside, outside]
  rw [upper, Words.setWidth_eq_iff (by omega) small]

end Comparisons

end RiscvSim
