import RiscvSim.Correctness.ControlFlow
import RiscvSim.Correctness.LoadStore
import RiscvSim.Correctness.TraceImmediates
import RiscvSim.Correctness.Rv64iExecution
import RiscvSim.Library.Rv64iText
import RiscvSim.Source.Drivers

/-! The lines of the pipe-state file as texts of instructions: which instructions are written as
their mnemonic and their operands, and what can be read back from the file.
-/

namespace RiscvSim

open Rv64i (Instr Operand Reg)
open Texts (Separates)

-----------------------------------------------------------------------------------------
-- Fields
-----------------------------------------------------------------------------------------

/-- The fields that the handlers read from a word. -/
theorem trace_fields (word : BitVec 32)
    : extractBits (word.setWidth 64) 6 0 = (Rv64i.opcode word).setWidth 64
      ∧ extractBits (word.setWidth 64) 11 7 = (word.extractLsb' 7 5).setWidth 64
      ∧ extractBits (word.setWidth 64) 14 12 = (Rv64i.funct3 word).setWidth 64
      ∧ extractBits (word.setWidth 64) 19 15 = (word.extractLsb' 15 5).setWidth 64
      ∧ extractBits (word.setWidth 64) 24 20 = (word.extractLsb' 20 5).setWidth 64
      ∧ extractBits (word.setWidth 64) 31 25 = (Rv64i.funct7 word).setWidth 64 :=
  ⟨extractBits_word word 0 7 (by decide) (by decide),
    extractBits_word word 7 5 (by decide) (by decide),
    extractBits_word word 12 3 (by decide) (by decide),
    extractBits_word word 15 5 (by decide) (by decide),
    extractBits_word word 20 5 (by decide) (by decide),
    extractBits_word word 25 7 (by decide) (by decide)⟩

theorem shows_word (word : BitVec 32)
    : (decodeFields { instruction := word.setWidth 64 }).Shows word :=
  decodeFields_shows rfl

theorem regName_eq (r : Reg) : regName (r.setWidth 64) = Rv64i.abiName r := by
  rw [regName, Rv64i.abiName, BitVec.toNat_setWidth_of_le (by decide)]
  rfl

/-- `funct7` of an immediate is its upper part. -/
theorem funct7_iType (imm : BitVec 12) (rs1 rd : Reg) (f3 : BitVec 3) (op : BitVec 7)
    : Rv64i.funct7 (Rv64i.iType imm rs1 f3 rd op) = imm.extractLsb' 5 7 := by
  have part (word : BitVec 32) : Rv64i.funct7 word = (word.extractLsb' 20 12).extractLsb' 5 7 :=
    (Words.extract_extract word (show 5 + 7 ≤ 12 by decide)).symm
  rw [part, Rv64i.imm_iType]

theorem funct7_shiftImm (op : Rv64i.ShiftOp) (rd rs1 : Reg) (shamt : BitVec 6)
    : ((Rv64i.funct7 (Instr.shiftImm op rd rs1 shamt).encode).setWidth 64).ushiftRight 1
      = op.funct6.setWidth 64 := by
  rw [← (shows_word _).funct7, (shows_word _).funct6_eq_iff (by cases op <;> decide),
    Rv64i.funct6_shiftImm, BitVec.setWidth_setWidth_of_le _ (by decide), BitVec.setWidth_eq]

-----------------------------------------------------------------------------------------
-- Names
-----------------------------------------------------------------------------------------

/-- The name in the line of an instruction. SLTIU is named in its own way, and `addiw` by the
upper part of its immediate.
-/
def shownName : Instr → String
  | .regImm .sltiu .. => "sltui"
  | .addiw _ _ imm =>
      if imm.extractLsb' 5 7 = 0b0000000 then "addiw"
      else if imm.extractLsb' 5 7 = 0b0100000 then "subiw"
      else "ILLEGAL"
  | instr => instr.mnemonic.name

theorem getOpString_encode (instr : Instr)
    : getOpString (instr.opcode.setWidth 64) ((Rv64i.funct3 instr.encode).setWidth 64)
        ((Rv64i.funct7 instr.encode).setWidth 64)
      = shownName instr := by
  cases instr with
  | reg op rd rs1 rs2 =>
      rw [Instr.encode, Rv64i.funct3_rType, Rv64i.funct7_rType]
      cases op <;> rfl
  | regW op rd rs1 rs2 =>
      rw [Instr.encode, Rv64i.funct3_rType, Rv64i.funct7_rType]
      cases op <;> rfl
  | regImm op rd rs1 imm =>
      rw [Instr.encode, Rv64i.funct3_iType]
      cases op <;> rfl
  | shiftImm op rd rs1 shamt =>
      have upper := funct7_shiftImm op rd rs1 shamt
      rw [Instr.encode, Rv64i.funct3_iType, ← Instr.encode]
      generalize (Rv64i.funct7 _).setWidth 64 = funct7 at upper ⊢
      cases op with
      | sll => rfl
      | srl => simp only [getOpString, intBody, upper]; rfl
      | sra => simp only [getOpString, intBody, upper]; rfl
  | addiw rd rs1 imm =>
      rw [Instr.encode, Rv64i.funct3_iType, funct7_iType, shownName, Instr.opcode]
      generalize imm.extractLsb' 5 7 = upper
      revert upper
      decide +kernel
  | shiftImmW op rd rs1 shamt =>
      rw [Instr.encode, Rv64i.funct3_rType, Rv64i.funct7_rType]
      cases op <;> rfl
  | load op rd rs1 imm =>
      rw [Instr.encode, Rv64i.funct3_iType]
      cases op <;> rfl
  | store op rs1 rs2 imm =>
      rw [Instr.encode, Rv64i.funct3_sType]
      cases op <;> rfl
  | branch op rs1 rs2 offset =>
      rw [Instr.encode, Rv64i.funct3_bType]
      cases op <;> rfl
  | jalr => rfl
  | jal => rfl
  | lui => rfl
  | auipc => rfl

/-- Loads, stores and branches are named without `funct7`, and the others without `funct3` too. -/
theorem getOpString_short {opcode : U64} (funct3 funct7 : U64)
    (op : opcode = opLoad ∨ opcode = opStore ∨ opcode = opBranch)
    : getOpString opcode funct3 funct7 = getOpString opcode funct3 0 := by
  rcases op with rfl | rfl | rfl <;> rfl

theorem getOpString_shortest {opcode : U64} (funct3 funct7 : U64)
    (op : opcode = opJal ∨ opcode = opLui ∨ opcode = opAuipc)
    : getOpString opcode funct3 funct7 = getOpString opcode 0 0 := by
  rcases op with rfl | rfl | rfl <;> rfl

-----------------------------------------------------------------------------------------
-- Operands
-----------------------------------------------------------------------------------------

/-- The number in the line of LUI and AUIPC. -/
def shownUpper (imm : BitVec 20) : ℤ := (sext64 (imm.setWidth 64 <<< 12) 19).toInt

/-- The operands in the line of an instruction. -/
def shownOperands : Instr → List Operand
  | .lui rd imm | .auipc rd imm => [.reg rd, .number (shownUpper imm)]
  | instr => instr.operands

section Numbers

variable (rd rs1 rs2 : Reg)

theorem iAndRImm_signed {word : BitVec 32} (plain : Rv64i.funct3 word ≠ 0b001)
    (plain' : Rv64i.funct3 word ≠ 0b101)
    : iAndRImm (word.setWidth 64) = (word.extractLsb' 20 12).toInt := by
  have shows := shows_word word
  have left : extractBits (word.setWidth 64) 14 12 ≠ funct3Sll :=
    fun same => plain ((shows.funct3_eq_iff (by decide)).mp same)
  have right : extractBits (word.setWidth 64) 14 12 ≠ funct3Sr :=
    fun same => plain' ((shows.funct3_eq_iff (by decide)).mp same)
  rw [iAndRImm, if_neg (not_or.mpr ⟨left, right⟩)]
  exact toInt_imm12 word

theorem iAndRImm_amount {word : BitVec 32}
    (shift : Rv64i.funct3 word = 0b001 ∨ Rv64i.funct3 word = 0b101)
    : iAndRImm (word.setWidth 64) = ((word.extractLsb' 20 12).toNat % 64 : ℕ) := by
  have shows := shows_word word
  have amount
      : extractBits (word.setWidth 64) 14 12 = funct3Sll
        ∨ extractBits (word.setWidth 64) 14 12 = funct3Sr :=
    shift.imp (shows.funct3_eq_iff (by decide)).mpr (shows.funct3_eq_iff (by decide)).mpr
  rw [iAndRImm, if_pos amount, (toNat_shamt word).1]

theorem iAndRImm_iType (imm : BitVec 12) {f3 : BitVec 3} (op : BitVec 7)
    (plain : f3 ≠ 0b001 ∧ f3 ≠ 0b101)
    : iAndRImm ((Rv64i.iType imm rs1 f3 rd op).setWidth 64) = imm.toInt := by
  rw [iAndRImm_signed, Rv64i.imm_iType]
  · rw [Rv64i.funct3_iType]
    exact plain.1
  · rw [Rv64i.funct3_iType]
    exact plain.2

theorem iAndRImm_shiftImm (op : Rv64i.ShiftOp) (shamt : BitVec 6)
    : iAndRImm ((Instr.shiftImm op rd rs1 shamt).encode.setWidth 64) = shamt.toNat := by
  rw [iAndRImm_amount, Instr.encode, Rv64i.imm_iType]
  · have low : (op.funct6 ++ shamt).extractLsb' 0 6 = shamt := BitVec.extractLsb'_append_eq_right
    rw [← congrArg BitVec.toNat low, BitVec.extractLsb'_toNat, Nat.shiftRight_zero]
  · rw [Instr.encode, Rv64i.funct3_iType]
    cases op <;> decide

theorem iAndRImm_shiftImmW (op : Rv64i.ShiftOp) (shamt : BitVec 5)
    : iAndRImm ((Instr.shiftImmW op rd rs1 shamt).encode.setWidth 64) = shamt.toNat := by
  have low (word : BitVec 32)
      : (word.extractLsb' 20 12).toNat % 32 = (word.extractLsb' 20 5).toNat := by
    rw [← Words.extract_extract word (show 0 + 5 ≤ 12 by decide),
      BitVec.extractLsb'_toNat 0 5 (word.extractLsb' 20 12), Nat.shiftRight_zero]
  have clear : (Instr.shiftImmW op rd rs1 shamt).encode.getLsbD 25 = false := by
    have bit (word : BitVec 32) : word.getLsbD 25 = (Rv64i.funct7 word).getLsbD 0 := by
      simp [Rv64i.funct7]
    rw [bit, Instr.encode, Rv64i.funct7_rType]
    cases op <;> rfl
  rw [iAndRImm_amount]
  · rw [(shamt_agrees_iff _).mpr clear, low, Instr.encode, Rv64i.rs2_rType]
  · rw [Instr.encode, Rv64i.funct3_rType]
    cases op <;> decide

theorem lAndSImm_load (op : Rv64i.LoadOp) (imm : BitVec 12)
    : lAndSImm ((Instr.load op rd rs1 imm).encode.setWidth 64) = imm.toInt := by
  have opcode : extractBits ((Instr.load op rd rs1 imm).encode.setWidth 64) 6 0 = opLoad := by
    rw [(trace_fields _).1, Rv64i.opcode_encode]
    rfl
  rw [lAndSImm, if_pos opcode, toInt_imm12, Instr.encode, Rv64i.imm_iType]

theorem lAndSImm_store (op : Rv64i.StoreOp) (imm : BitVec 12)
    : lAndSImm ((Instr.store op rs1 rs2 imm).encode.setWidth 64) = imm.toInt := by
  obtain ⟨opcode, lower, _, _, _, upper⟩ := trace_fields (Instr.store op rs1 rs2 imm).encode
  have other : extractBits ((Instr.store op rs1 rs2 imm).encode.setWidth 64) 6 0 ≠ opLoad := by
    rw [opcode, Rv64i.opcode_encode, Instr.opcode]
    decide
  have parts
      : Rv64i.funct7 (Instr.store op rs1 rs2 imm).encode = imm.extractLsb 11 5
        ∧ (Instr.store op rs1 rs2 imm).encode.extractLsb' 7 5 = imm.extractLsb 4 0 := by
    simp [Rv64i.funct7, Instr.encode, Rv64i.sType, BitVec.extractLsb'_or]
  simp only [lAndSImm, if_neg other]
  rw [lower, upper, parts.1, parts.2, storeParts, sext64_setWidth imm (by decide) (by decide),
    BitVec.toInt_signExtend_of_le (by decide)]

theorem branchImm_branch (op : Rv64i.BranchOp) {offset : BitVec 13}
    (even : offset.getLsbD 0 = false)
    : branchImm ((Instr.branch op rs1 rs2 offset).encode.setWidth 64) = offset.toInt := by
  have shows := shows_word (Instr.branch op rs1 rs2 offset).encode
  rw [← BitVec.toInt_signExtend_of_le (show 13 ≤ 64 by decide), ← branchOffset even shows]
  rfl

theorem specialImm_jal {offset : BitVec 21} (even : offset.getLsbD 0 = false)
    : specialImm ((Instr.jal rd offset).encode.setWidth 64) = offset.toInt := by
  have opcode : extractBits ((Instr.jal rd offset).encode.setWidth 64) 6 0 = opJal := by
    rw [(trace_fields _).1, Rv64i.opcode_encode]
    rfl
  rw [← BitVec.toInt_signExtend_of_le (show 21 ≤ 64 by decide), ← jumpOffset even
    (extractBits_word (Instr.jal rd offset).encode 12 20 (by decide) (by decide)),
    specialImm, if_pos opcode]

theorem specialImm_upper {instr : Instr} {imm : BitVec 20}
    (upper : instr = .lui rd imm ∨ instr = .auipc rd imm)
    : specialImm (instr.encode.setWidth 64) = shownUpper imm := by
  have other : extractBits (instr.encode.setWidth 64) 6 0 ≠ opJal := by
    rw [(trace_fields _).1, Rv64i.opcode_encode]
    rcases upper with rfl | rfl <;> rw [Instr.opcode] <;> decide
  have field : instr.encode.extractLsb' 12 20 = imm := by
    rcases upper with rfl | rfl <;> exact Rv64i.imm_uType _ _ _
  have bits : extractBits (instr.encode.setWidth 64) 31 12 = imm.setWidth 64 :=
    (extractBits_word instr.encode 12 20 (by decide) (by decide)).trans (by rw [field])
  simp only [specialImm, if_neg other, bits]
  rfl

end Numbers

-----------------------------------------------------------------------------------------
-- Lines
-----------------------------------------------------------------------------------------

/-- What a line shows of an instruction. -/
def shownText (instr : Instr) : String :=
  if instr.encode = 0x00000013 then "NOP"
  else if shownName instr = "ILLEGAL" then "ILLEGAL"
  else shownName instr ++ " " ++ Operand.list (shownOperands instr)

/-- What the handlers read from the word of an instruction. -/
structure Reads (instr : Instr) (word : U64) : Prop where
  opcode : extractBits word 6 0 = instr.opcode.setWidth 64
  rd : instr.hasRd = true → regName (extractBits word 11 7) = Rv64i.abiName instr.rd
  rs1 : instr.hasRs1 = true → regName (extractBits word 19 15) = Rv64i.abiName instr.rs1
  rs2 : instr.hasRs2 = true → regName (extractBits word 24 20) = Rv64i.abiName instr.rs2
  name
    : getOpString (instr.opcode.setWidth 64) (extractBits word 14 12) (extractBits word 31 25)
      = shownName instr

theorem reads_encode (instr : Instr) : Reads instr (instr.encode.setWidth 64) := by
  obtain ⟨opcode, rd, funct3, rs1, rs2, funct7⟩ := trace_fields instr.encode
  constructor
  · rw [opcode, Rv64i.opcode_encode]
  · intro has
    rw [rd, regName_eq, Instr.rd_encode, if_pos has]
  · intro has
    rw [rs1, regName_eq, Instr.rs1_encode, if_pos has]
  · intro has
    rw [rs2, regName_eq, Instr.rs2_encode, if_pos has]
  · rw [funct3, funct7, getOpString_encode]

section Handlers

variable {instr : Instr} {word : U64}

/-- The line of an instruction behind its name, where it has one. -/
def shownLine (instr : Instr) : String :=
  if shownName instr = "ILLEGAL" then " ILLEGAL"
  else " " ++ shownName instr ++ " " ++ Operand.list (shownOperands instr)

theorem handleIAndR_regs (reads : Reads instr word)
    (op : instr.opcode.setWidth 64 = opInt ∨ instr.opcode.setWidth 64 = opIntW)
    (regs : shownOperands instr = [.reg instr.rd, .reg instr.rs1, .reg instr.rs2])
    (has : instr.hasRd = true ∧ instr.hasRs1 = true ∧ instr.hasRs2 = true)
    : handleIAndR word = shownLine instr := by
  simp only [handleIAndR, reads.opcode, reads.name, reads.rd has.1, reads.rs1 has.2.1,
    reads.rs2 has.2.2, if_pos op, shownLine, regs, Operand.list, Operand.text, String.append_assoc]

theorem handleIAndR_imm (reads : Reads instr word)
    (op : ¬ (instr.opcode.setWidth 64 = opInt ∨ instr.opcode.setWidth 64 = opIntW))
    (regs : shownOperands instr = [.reg instr.rd, .reg instr.rs1, .number (iAndRImm word)])
    (has : instr.hasRd = true ∧ instr.hasRs1 = true)
    : handleIAndR word = shownLine instr := by
  simp only [handleIAndR, reads.opcode, reads.name, reads.rd has.1, reads.rs1 has.2,
    if_neg op, shownLine, regs, Operand.list, Operand.text, String.append_assoc]

theorem handleLAndS_load (reads : Reads instr word) (op : instr.opcode.setWidth 64 = opLoad)
    (regs : shownOperands instr = [.reg instr.rd, .offset (lAndSImm word) instr.rs1])
    (has : instr.hasRd = true ∧ instr.hasRs1 = true)
    : handleLAndS word = shownLine instr := by
  have name := reads.name
  rw [getOpString_short _ _ (.inl op)] at name
  simp only [handleLAndS, reads.opcode, name, reads.rd has.1, reads.rs1 has.2, if_pos op,
    shownLine, regs, Operand.list, Operand.text, String.append_assoc]

theorem handleLAndS_store (reads : Reads instr word) (op : instr.opcode.setWidth 64 = opStore)
    (regs : shownOperands instr = [.reg instr.rs2, .offset (lAndSImm word) instr.rs1])
    (has : instr.hasRs1 = true ∧ instr.hasRs2 = true)
    : handleLAndS word = shownLine instr := by
  have name := reads.name
  have other : opStore ≠ opLoad := by decide
  rw [getOpString_short _ _ (.inr (.inl op)), op] at name
  simp only [handleLAndS, reads.opcode, op, name, reads.rs1 has.1, reads.rs2 has.2, if_neg other,
    shownLine, regs, Operand.list, Operand.text, String.append_assoc]

theorem handleBranch_reads (reads : Reads instr word) (op : instr.opcode.setWidth 64 = opBranch)
    (regs : shownOperands instr = [.reg instr.rs1, .reg instr.rs2, .number (branchImm word)])
    (has : instr.hasRs1 = true ∧ instr.hasRs2 = true)
    : handleBranch word = shownLine instr := by
  have name := reads.name
  rw [getOpString_short _ _ (.inr (.inr op))] at name
  simp only [handleBranch, reads.opcode, name, reads.rs1 has.1, reads.rs2 has.2,
    shownLine, regs, Operand.list, Operand.text, String.append_assoc]

theorem handleSpecial_reads (reads : Reads instr word)
    (op
      : instr.opcode.setWidth 64 = opJal ∨ instr.opcode.setWidth 64 = opLui
        ∨ instr.opcode.setWidth 64 = opAuipc)
    (regs : shownOperands instr = [.reg instr.rd, .number (specialImm word)])
    (has : instr.hasRd = true)
    : handleSpecial word = shownLine instr := by
  have name := reads.name
  rw [getOpString_shortest _ _ op] at name
  simp only [handleSpecial, reads.opcode, name, reads.rd has, shownLine, regs, Operand.list,
    Operand.text, String.append_assoc]

end Handlers

/-- The opcodes of `handleSpecial` are those of no other handler. -/
theorem handled_special {opcode word : U64} {text : String}
    (op : opcode = opJal ∨ opcode = opLui ∨ opcode = opAuipc) (handled : handleSpecial word = text)
    : (if opcode = opInt ∨ opcode = opIntW ∨ opcode = opIntImm ∨ opcode = opIntImmW
          ∨ opcode = opJalr then handleIAndR word
        else if opcode = opLoad ∨ opcode = opStore then handleLAndS word
        else if opcode = opBranch then handleBranch word
        else if opcode = opJal ∨ opcode = opLui ∨ opcode = opAuipc then handleSpecial word
        else " ILLEGAL")
      = text := by
  rcases op with rfl | rfl | rfl
  · exact handled
  · exact handled
  · exact handled

/-- The handler of an instruction writes its line. Witness: by the format of the instruction. -/
theorem printInstr_handled (instr : Instr) (even : instr.EvenOffset) (status : StageStatus)
    (plain : instr.encode ≠ 0x00000013)
    : printInstr instr.encode status = setwLeft 25 (shownLine instr ++ status.str) := by
  have reads := reads_encode instr
  simp only [printInstr, if_neg (encode_ne_halt instr), if_neg plain, reads.opcode]
  congr 2
  cases instr with
  | reg op rd rs1 rs2 =>
      exact (if_pos (.inl rfl)).trans (handleIAndR_regs reads (.inl rfl) rfl ⟨rfl, rfl, rfl⟩)
  | regW op rd rs1 rs2 =>
      exact (if_pos (.inr (.inl rfl))).trans
        (handleIAndR_regs reads (.inr rfl) rfl ⟨rfl, rfl, rfl⟩)
  | regImm op rd rs1 imm =>
      refine (if_pos (.inr (.inr (.inl rfl)))).trans
        (handleIAndR_imm reads (by rw [Instr.opcode]; decide) ?_ ⟨rfl, rfl⟩)
      rw [Instr.encode, iAndRImm_iType rd rs1 imm _ (by cases op <;> decide)]
      rfl
  | shiftImm op rd rs1 shamt =>
      refine (if_pos (.inr (.inr (.inl rfl)))).trans
        (handleIAndR_imm reads (by rw [Instr.opcode]; decide) ?_ ⟨rfl, rfl⟩)
      rw [iAndRImm_shiftImm]
      rfl
  | addiw rd rs1 imm =>
      refine (if_pos (.inr (.inr (.inr (.inl rfl))))).trans
        (handleIAndR_imm reads (by rw [Instr.opcode]; decide) ?_ ⟨rfl, rfl⟩)
      rw [Instr.encode, iAndRImm_iType rd rs1 imm _ (by decide)]
      rfl
  | shiftImmW op rd rs1 shamt =>
      refine (if_pos (.inr (.inr (.inr (.inl rfl))))).trans
        (handleIAndR_imm reads (by rw [Instr.opcode]; decide) ?_ ⟨rfl, rfl⟩)
      rw [iAndRImm_shiftImmW]
      rfl
  | load op rd rs1 imm =>
      refine (if_neg (by rw [Instr.opcode]; decide)).trans ((if_pos (.inl rfl)).trans
        (handleLAndS_load reads rfl ?_ ⟨rfl, rfl⟩))
      rw [lAndSImm_load]
      rfl
  | store op rs1 rs2 imm =>
      refine (if_neg (by rw [Instr.opcode]; decide)).trans ((if_pos (.inr rfl)).trans
        (handleLAndS_store reads rfl ?_ ⟨rfl, rfl⟩))
      rw [lAndSImm_store]
      rfl
  | branch op rs1 rs2 offset =>
      refine (if_neg (by rw [Instr.opcode]; decide)).trans
        ((if_neg (by rw [Instr.opcode]; decide)).trans ((if_pos rfl).trans
          (handleBranch_reads reads rfl ?_ ⟨rfl, rfl⟩)))
      rw [branchImm_branch _ _ _ even]
      rfl
  | jalr rd rs1 imm =>
      refine (if_pos (.inr (.inr (.inr (.inr rfl))))).trans
        (handleIAndR_imm reads (by rw [Instr.opcode]; decide) ?_ ⟨rfl, rfl⟩)
      rw [Instr.encode, iAndRImm_iType rd rs1 imm _ (by decide)]
      rfl
  | jal rd offset =>
      refine handled_special (.inl rfl) (handleSpecial_reads reads (.inl rfl) ?_ rfl)
      rw [specialImm_jal _ even]
      rfl
  | lui rd imm =>
      refine handled_special (.inr (.inl rfl))
        (handleSpecial_reads reads (.inr (.inl rfl)) ?_ rfl)
      rw [specialImm_upper rd (.inl rfl)]
      rfl
  | auipc rd imm =>
      refine handled_special (.inr (.inr rfl))
        (handleSpecial_reads reads (.inr (.inr rfl)) ?_ rfl)
      rw [specialImm_upper rd (.inr rfl)]
      rfl

/-- The line of an instruction. -/
theorem printInstr_encode (instr : Instr) (even : instr.EvenOffset) (status : StageStatus)
    : printInstr instr.encode status = setwLeft 25 (" " ++ shownText instr ++ status.str) := by
  by_cases plain : instr.encode = 0x00000013
  · rw [shownText, if_pos plain, plain]
    rfl
  · rw [printInstr_handled instr even status plain, shownLine, shownText, if_neg plain]
    split
    · rfl
    · simp only [String.append_assoc]

-----------------------------------------------------------------------------------------
-- Misprinted instructions
-----------------------------------------------------------------------------------------

/-- The instructions whose line is not their text: SLTIU, the NOP, an `addiw` whose immediate
reaches `funct7`, and an upper immediate that the extension from bit 19 changes.
-/
def Misprinted : Instr → Prop
  | .regImm op rd rs1 imm => op = .sltiu ∨ (op = .addi ∧ rd = 0 ∧ rs1 = 0 ∧ imm = 0)
  | .addiw _ _ imm => imm.extractLsb' 5 7 ≠ 0b0000000
  | .lui _ imm | .auipc _ imm =>
      if imm.getLsbD 7 then imm.extractLsb' 8 12 ≠ BitVec.allOnes 12 else imm.msb = true
  | _ => False

instance : DecidablePred Misprinted := fun instr => by
  cases instr <;> unfold Misprinted <;> infer_instance

theorem shownUpper_iff (imm : BitVec 20)
    : shownUpper imm = (imm ++ 0#12).toInt
      ↔ ¬ (if imm.getLsbD 7 then imm.extractLsb' 8 12 ≠ BitVec.allOnes 12
          else imm.msb = true) := by
  have field : (imm ++ 0#12).extractLsb' 12 20 = imm := BitVec.extractLsb'_append_eq_left
  have bits : extractBits ((imm ++ 0#12).setWidth 64) 31 12 = imm.setWidth 64 :=
    (extractBits_word (imm ++ 0#12) 12 20 (by decide) (by decide)).trans (by rw [field])
  have whole : (sext64 (imm.setWidth 64 <<< 12) 31).toInt = (imm ++ 0#12).toInt := by
    have value := sext64_upper (shows_word (imm ++ 0#12))
    rw [(shows_word (imm ++ 0#12)).instruction, bits, field] at value
    rw [value, Rv64i.fromWord, BitVec.toInt_signExtend_of_le (by decide)]
  have upper := upper_agrees_iff (imm ++ 0#12)
  have above : (imm ++ 0#12).extractLsb' 20 12 = imm.extractLsb' 8 12 := by
    rw [← field, Words.extract_extract _ (by decide), field]
  have low : (imm ++ 0#12).getLsbD 19 = imm.getLsbD 7 := BitVec.getLsbD_append.trans rfl
  have top : (imm ++ 0#12).getLsbD 31 = imm.msb := by
    rw [BitVec.msb_eq_getLsbD_last]
    exact BitVec.getLsbD_append.trans rfl
  rw [bits, whole, above, low, top] at upper
  exact upper

/-- The NOP is the only instruction of its word. -/
theorem encode_eq_nop_iff (instr : Instr)
    : instr.encode = 0x00000013 ↔ instr = .regImm .addi 0 0 0 := by
  constructor
  · intro nop
    have opcode := Rv64i.opcode_encode instr
    rw [nop] at opcode
    cases instr with
    | regImm op rd rs1 imm =>
        have f3 : op.funct3 = 0 := by
          rw [← Rv64i.funct3_iType rs1 rd op.funct3 0b0010011 imm, ← Instr.encode, nop]
          rfl
        have field : imm = 0 := by
          rw [← Rv64i.imm_iType rs1 rd op.funct3 0b0010011 imm, ← Instr.encode, nop]
          rfl
        have target := (Instr.regImm op rd rs1 imm).rd_encode
        have source := (Instr.regImm op rd rs1 imm).rs1_encode
        rw [nop] at target source
        obtain rfl : op = .addi := by
          revert f3
          cases op <;> decide
        rw [field, show rd = 0 from target, show rs1 = 0 from source]
    | shiftImm op rd rs1 shamt =>
        have f3 : op.funct3 = 0 := by
          rw [← Rv64i.funct3_iType rs1 rd op.funct3 0b0010011 (op.funct6 ++ shamt),
            ← Instr.encode, nop]
          rfl
        cases op <;> cases f3
    | _ => exact absurd opcode (by rw [Instr.opcode]; decide)
  · rintro rfl
    rfl

theorem shownText_of_same {instr : Instr} (plain : instr ≠ .regImm .addi 0 0 0)
    (name : shownName instr = instr.mnemonic.name)
    (operands : shownOperands instr = instr.operands)
    : shownText instr = instr.text := by
  have legal : instr.mnemonic.name ≠ "ILLEGAL" := by
    intro same
    exact absurd (instr.mnemonic.letters_name 'I' (by rw [same]; decide)) (by decide)
  rw [shownText, if_neg ((encode_eq_nop_iff instr).not.mpr plain), name, if_neg legal, operands,
    Instr.text]

/-- The text of an instruction that has a name. -/
theorem shownText_named {instr : Instr} (plain : instr ≠ .regImm .addi 0 0 0)
    (named : shownName instr ≠ "ILLEGAL")
    : shownText instr = shownName instr ++ " " ++ Operand.list (shownOperands instr) := by
  rw [shownText, if_neg ((encode_eq_nop_iff instr).not.mpr plain), if_neg named]

theorem shownText_upper {instr : Instr} {rd : Reg} {imm : BitVec 20}
    (upper : instr = .lui rd imm ∨ instr = .auipc rd imm)
    : shownText instr = instr.text ↔ shownUpper imm = (imm ++ 0#12).toInt := by
  have plain : instr ≠ .regImm .addi 0 0 0 := by
    rcases upper with rfl | rfl <;> simp
  have name : shownName instr = instr.mnemonic.name := by
    rcases upper with rfl | rfl <;> rfl
  have named : shownName instr ≠ "ILLEGAL" := by
    rcases upper with rfl | rfl <;> exact of_decide_eq_true rfl
  have operands
      : shownOperands instr = [.reg rd, .number (shownUpper imm)]
        ∧ instr.operands = [.reg rd, .number (imm ++ 0#12).toInt] := by
    rcases upper with rfl | rfl <;> exact ⟨rfl, rfl⟩
  rw [shownText_named plain named, Instr.text, name, operands.1, operands.2, Operand.list,
    Operand.list, Operand.list, Operand.list]
  simp only [String.append_right_inj, Operand.text]
  rw [← String.toList_inj, Texts.toList_int_inj]

/-- A line is the text of the instruction unless it is misprinted. -/
theorem shownText_eq_iff (instr : Instr) : shownText instr = instr.text ↔ ¬ Misprinted instr := by
  cases instr with
  | regImm op rd rs1 imm =>
      by_cases nop : op = .addi ∧ rd = 0 ∧ rs1 = 0 ∧ imm = 0
      · obtain ⟨rfl, rfl, rfl, rfl⟩ := nop
        decide +kernel
      by_cases unsigned : op = .sltiu
      · subst unsigned
        refine iff_of_false ?_ (not_not.mpr (.inl rfl))
        rw [shownText_named (by simp) (of_decide_eq_true rfl)]
        simp [← String.toList_inj, shownName, Instr.text, Instr.mnemonic, Rv64i.Mnemonic.name]
      · refine iff_of_true (shownText_of_same ?_ ?_ rfl) (not_or.mpr ⟨unsigned, nop⟩)
        · simpa using nop
        · cases op <;> first | rfl | exact absurd rfl unsigned
  | addiw rd rs1 imm =>
      rw [Misprinted, not_not]
      constructor
      · intro same
        by_contra wide
        by_cases sub : imm.extractLsb' 5 7 = 0b0100000
        · have name : shownName (.addiw rd rs1 imm) = "subiw" := by
            rw [shownName, if_neg wide, if_pos sub]
          rw [shownText_named (by simp) (by rw [name]; decide), name] at same
          simp [← String.toList_inj, Instr.text, Instr.mnemonic, Rv64i.Mnemonic.name] at same
        · have name : shownName (.addiw rd rs1 imm) = "ILLEGAL" := by
            rw [shownName, if_neg wide, if_neg sub]
          rw [shownText, if_neg ((encode_eq_nop_iff _).not.mpr (by simp)), if_pos name] at same
          simp [← String.toList_inj, Instr.text, Instr.mnemonic, Rv64i.Mnemonic.name] at same
      · intro narrow
        exact shownText_of_same (by simp) (if_pos narrow) rfl
  | lui rd imm => exact (shownText_upper (.inl rfl)).trans (shownUpper_iff imm)
  | auipc rd imm => exact (shownText_upper (.inr rfl)).trans (shownUpper_iff imm)
  | _ => exact iff_of_true (shownText_of_same (by simp) rfl rfl) id

-----------------------------------------------------------------------------------------
-- Columns
-----------------------------------------------------------------------------------------

/-- A status is written between spaces, if at all, and with a space at its end. -/
theorem status_ends (status : StageStatus)
    : ∃ core, status.str.toList = core ++ [' '] ∧ core.getLast? ≠ some ' '
        ∧ status.str.toList.head? = some ' ' := by
  cases status with
  | bubble => exact ⟨" (bubble)".toList, by decide, by decide, by decide⟩
  | idle => exact ⟨" (idle)".toList, by decide, by decide, by decide⟩
  | normal => exact ⟨[], by decide, by decide, by decide⟩
  | speculative => exact ⟨" (spcu)".toList, by decide, by decide, by decide⟩
  | squashed => exact ⟨" (squashed)".toList, by decide, by decide, by decide⟩

/-- What is written behind the text and a space shows the status. -/
theorem status_shown {status status' : StageStatus} {m n : ℕ}
    (same
      : status.str.toList.tail ++ List.replicate m ' '
        = status'.str.toList.tail ++ List.replicate n ' ')
    : status = status' := by
  have letters := congrArg (List.filter (· != ' ')) same
  simp only [List.filter_append, List.filter_replicate, bne_self_eq_false, Bool.false_eq_true,
    if_false, List.append_nil] at letters
  revert letters
  cases status <;> cases status' <;> decide

/-- The text in a column, in front of its status. -/
theorem toList_column (text : String) (status : StageStatus)
    : (setwLeft 25 (" " ++ text ++ status.str)).toList
      = [' '] ++ (text.toList ++ [' '])
        ++ (status.str.toList.tail
          ++ List.replicate (25 - (" " ++ text ++ status.str).length) ' ') := by
  obtain ⟨_, _, _, first⟩ := status_ends status
  have status_eq : status.str.toList = ' ' :: status.str.toList.tail :=
    (List.cons_head?_tail first).symm
  rw [setwLeft, String.toList_append, String.toList_append, String.toList_append,
    String.toList_ofList]
  conv_lhs => rw [status_eq]
  simp

/-- A column shows its text, where the text does not end with a space. -/
theorem column_inj {text text' : String} {status : StageStatus}
    (ends : text.toList.getLast? ≠ some ' ') (ends' : text'.toList.getLast? ≠ some ' ')
    (same : setwLeft 25 (" " ++ text ++ status.str) = setwLeft 25 (" " ++ text' ++ status.str))
    : text = text' := by
  obtain ⟨core, written, last, _⟩ := status_ends status
  have column (text : String)
      : (setwLeft 25 (" " ++ text ++ status.str)).toList
        = ' ' :: ((text.toList ++ core)
          ++ List.replicate (25 - (" " ++ text ++ status.str).length + 1) ' ') := by
    rw [setwLeft, String.toList_append, String.toList_append, String.toList_append,
      String.toList_ofList, written, List.replicate_succ]
    simp
  have trimmed {text : String} (ends : text.toList.getLast? ≠ some ' ')
      : (text.toList ++ core).getLast? ≠ some ' ' := by
    rw [List.getLast?_append]
    cases shown : core.getLast? with
    | none => simpa using ends
    | some c => simpa [shown] using last
  rw [← String.toList_inj, column, column, List.cons.injEq] at same
  exact String.toList_inj.mp
    (List.append_cancel_right (Texts.append_replicate_inj (trimmed ends) (trimmed ends') same.2))

/-- A column that a bar ends shows its text and its status. -/
theorem separates_column {text text' : String} {status status' : StageStatus} {P : Prop}
    (texts : Separates (text.toList ++ [' ']) (text'.toList ++ [' ']) P)
    : Separates ((setwLeft 25 (" " ++ text ++ status.str)).toList ++ ['|'])
        ((setwLeft 25 (" " ++ text' ++ status'.str)).toList ++ ['|']) (P ∧ status = status') := by
  have noBar (status : StageStatus) (n : ℕ)
      : ∀ c ∈ status.str.toList.tail ++ List.replicate n ' ', (c != '|') = true := by
    have letters : status.str.toList.tail.all (· != '|') = true := by
      cases status <;> decide
    intro c member
    rcases List.mem_append.mp member with written | filled
    · exact List.all_eq_true.mp letters c written
    · rw [List.eq_of_mem_replicate filled]
      rfl
  have rest : P
      → Separates
          (status.str.toList.tail
            ++ List.replicate (25 - (" " ++ text ++ status.str).length) ' ' ++ ['|'])
          (status'.str.toList.tail
            ++ List.replicate (25 - (" " ++ text' ++ status'.str).length) ' ' ++ ['|'])
          (status = status') := by
    intro agree
    obtain rfl : text = text' :=
      String.toList_inj.mp (List.append_cancel_right (texts.eq_iff.mpr agree))
    refine (Texts.separates_stop (noBar status _) (noBar status' _) rfl).congr
      ⟨status_shown, ?_⟩
    rintro rfl
    rfl
  rw [toList_column, toList_column, List.append_assoc, List.append_assoc ([' '] ++ _)]
  refine (((Texts.separates_refl [' ']).append texts).append_of fun agree => rest agree.2).congr ?_
  rw [true_and]

-----------------------------------------------------------------------------------------
-- The line of an instruction
-----------------------------------------------------------------------------------------

theorem text_ends (instr : Instr) : instr.text.toList.getLast? ≠ some ' ' := by
  obtain ⟨front, c, row, plain⟩ := Operand.list_ends instr.operands_ne
  rw [Instr.text, String.toList_append, row, ← List.append_assoc, List.getLast?_concat]
  simpa using plain

theorem shownText_ends (instr : Instr) : (shownText instr).toList.getLast? ≠ some ' ' := by
  have operands : shownOperands instr ≠ [] := by
    cases instr <;> exact List.cons_ne_nil _ _
  obtain ⟨front, c, row, plain⟩ := Operand.list_ends operands
  unfold shownText
  split_ifs
  · decide
  · decide
  · rw [String.toList_append, row, ← List.append_assoc, List.getLast?_concat]
    simpa using plain

/-- The pipe-state file writes the word of an instruction as the text of the instruction, exactly
if it is not misprinted. Witness: the handler of each format reads the fields of the encoding.
-/
theorem printInstr_eq_text_iff (instr : Instr) (even : instr.EvenOffset) (status : StageStatus)
    : printInstr instr.encode status = setwLeft 25 (" " ++ instr.text ++ status.str)
      ↔ ¬ Misprinted instr := by
  rw [printInstr_encode instr even status, ← shownText_eq_iff]
  constructor
  · exact column_inj (shownText_ends instr) (text_ends instr)
  · intro same
    rw [same]

/-- `lw t1, -4(gp)` in a stage that waits. -/
theorem printInstr_eq_text_iff_lw
    : (Instr.load .lw 6 3 (-4)).text = "lw t1, -4(gp)"
      ∧ printInstr (Instr.load .lw 6 3 (-4)).encode .idle
        = setwLeft 25 (" " ++ (Instr.load .lw 6 3 (-4)).text ++ " (idle) ") :=
  ⟨by decide +kernel, (printInstr_eq_text_iff (.load .lw 6 3 (-4)) trivial .idle).mpr (by decide)⟩

end RiscvSim
