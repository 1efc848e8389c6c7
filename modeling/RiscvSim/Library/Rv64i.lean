import RiscvSim.Library.Words
import Mathlib.Data.Fintype.Basic
import Mathlib.Tactic.IntervalCases

/-! The register, memory and control-flow instructions of RV64I: their formats, their
encodings and the values the manual defines for them.
-/

namespace Rv64i

/-- A register number. -/
abbrev Reg := BitVec 5

/-- A register value. -/
abbrev Value := BitVec 64

-----------------------------------------------------------------------------------------
-- Fields of an instruction word
-----------------------------------------------------------------------------------------

/-- The bits of `field` from bit `lsb` of a word on, the others zero. -/
def place {w : ℕ} (field : BitVec w) (lsb : ℕ) : BitVec 32 := field.setWidth 32 <<< lsb

def opcode (word : BitVec 32) : BitVec 7 := word.extractLsb' 0 7

def funct3 (word : BitVec 32) : BitVec 3 := word.extractLsb' 12 3

def funct7 (word : BitVec 32) : BitVec 7 := word.extractLsb' 25 7

/-- The upper six bits, which select the operation of a 64-bit shift by an immediate. -/
def funct6 (word : BitVec 32) : BitVec 6 := word.extractLsb' 26 6

theorem getLsbD_place {w : ℕ} (field : BitVec w) (lsb i : ℕ)
    : (place field lsb).getLsbD i
      = (decide (i < 32) && decide (lsb ≤ i) && field.getLsbD (i - lsb)) := by
  unfold place
  rw [BitVec.getLsbD_shiftLeft, BitVec.getLsbD_setWidth]
  by_cases below : i < 32
  · have within : i - lsb < 32 := by omega
    by_cases low : i < lsb
    · simp [low, Nat.not_le.mpr low]
    · simp [below, within, low, Nat.not_lt.mp low]
  · simp [below]

/-- A placed field is read back. -/
@[simp]
theorem extract_place {w lsb : ℕ} (field : BitVec w) (fits : lsb + w ≤ 32)
    : (place field lsb).extractLsb' lsb w = field := by
  ext i bound
  have within : lsb + i < 32 := by omega
  rw [BitVec.getElem_extractLsb', getLsbD_place]
  simp [within, BitVec.getLsbD_eq_getElem bound]

/-- Elsewhere a placed field is zero. -/
@[simp]
theorem extract_place_of_disjoint {w lsb start len : ℕ} (field : BitVec w)
    (disjoint : start + len ≤ lsb ∨ lsb + w ≤ start)
    : (place field lsb).extractLsb' start len = 0 := by
  ext i bound
  rw [BitVec.getElem_extractLsb', getLsbD_place]
  rcases disjoint with below | above
  · have outside : ¬ lsb ≤ start + i := by omega
    simp [outside]
  · have outside : w ≤ start + i - lsb := by omega
    simp [BitVec.getLsbD_of_ge _ _ outside]

/-- Two adjacent fields of a word are one field. -/
theorem place_adjacent {word : BitVec 32} {low high m n : ℕ} (adjacent : high = low + m)
    (fits : high + n ≤ 32)
    : place (word.extractLsb' high n) high ||| place (word.extractLsb' low m) low
      = place (word.extractLsb' low (m + n)) low := by
  subst adjacent
  apply BitVec.eq_of_getLsbD_eq
  intro i bound
  simp only [BitVec.getLsbD_or, getLsbD_place, BitVec.getLsbD_extractLsb']
  by_cases lower : i < low + m
  · by_cases inside : low ≤ i
    · have first : i - low < m := by omega
      have both : i - low < m + n := by omega
      simp [bound, inside, first, both, Nat.not_le.mpr lower]
    · simp [inside, Nat.not_le.mpr lower]
  · have second : ¬ i - low < m := by omega
    have above : low + m ≤ i := by omega
    have inside : low ≤ i := by omega
    have within : i - low < m + n ↔ i - (low + m) < n := by omega
    simp [bound, above, inside, second, within]

theorem place_whole (word : BitVec 32) : place (word.extractLsb' 0 32) 0 = word := by
  simp [place]

-----------------------------------------------------------------------------------------
-- Formats
-----------------------------------------------------------------------------------------

def rType (f7 : BitVec 7) (rs2 rs1 : Reg) (f3 : BitVec 3) (rd : Reg) (op : BitVec 7)
    : BitVec 32 :=
  place f7 25 ||| place rs2 20 ||| place rs1 15 ||| place f3 12 ||| place rd 7 ||| place op 0

def iType (imm : BitVec 12) (rs1 : Reg) (f3 : BitVec 3) (rd : Reg) (op : BitVec 7)
    : BitVec 32 :=
  place imm 20 ||| place rs1 15 ||| place f3 12 ||| place rd 7 ||| place op 0

def sType (imm : BitVec 12) (rs2 rs1 : Reg) (f3 : BitVec 3) (op : BitVec 7) : BitVec 32 :=
  place (imm.extractLsb 11 5) 25 ||| place rs2 20 ||| place rs1 15 ||| place f3 12
    ||| place (imm.extractLsb 4 0) 7 ||| place op 0

/-- The offset of a branch is even: its bit 0 is not encoded. -/
def bType (imm : BitVec 13) (rs2 rs1 : Reg) (f3 : BitVec 3) (op : BitVec 7) : BitVec 32 :=
  place (imm.extractLsb 12 12) 31 ||| place (imm.extractLsb 10 5) 25 ||| place rs2 20
    ||| place rs1 15 ||| place f3 12 ||| place (imm.extractLsb 4 1) 8
    ||| place (imm.extractLsb 11 11) 7 ||| place op 0

def uType (imm : BitVec 20) (rd : Reg) (op : BitVec 7) : BitVec 32 :=
  place imm 12 ||| place rd 7 ||| place op 0

/-- The offset of a jump is even: its bit 0 is not encoded. -/
def jType (imm : BitVec 21) (rd : Reg) (op : BitVec 7) : BitVec 32 :=
  place (imm.extractLsb 20 20) 31 ||| place (imm.extractLsb 10 1) 21
    ||| place (imm.extractLsb 11 11) 20 ||| place (imm.extractLsb 19 12) 12 ||| place rd 7
    ||| place op 0

section Fields

variable (f7 : BitVec 7) (rs2 rs1 rd : Reg) (f3 : BitVec 3) (op : BitVec 7) (imm : BitVec 12)

@[simp]
theorem opcode_rType : opcode (rType f7 rs2 rs1 f3 rd op) = op := by
  simp [opcode, rType, BitVec.extractLsb'_or]

@[simp]
theorem funct3_rType : funct3 (rType f7 rs2 rs1 f3 rd op) = f3 := by
  simp [funct3, rType, BitVec.extractLsb'_or]

@[simp]
theorem funct7_rType : funct7 (rType f7 rs2 rs1 f3 rd op) = f7 := by
  simp [funct7, rType, BitVec.extractLsb'_or]

@[simp]
theorem rs2_rType : (rType f7 rs2 rs1 f3 rd op).extractLsb' 20 5 = rs2 := by
  simp [rType, BitVec.extractLsb'_or]

@[simp]
theorem opcode_iType : opcode (iType imm rs1 f3 rd op) = op := by
  simp [opcode, iType, BitVec.extractLsb'_or]

@[simp]
theorem funct3_iType : funct3 (iType imm rs1 f3 rd op) = f3 := by
  simp [funct3, iType, BitVec.extractLsb'_or]

@[simp]
theorem imm_iType : (iType imm rs1 f3 rd op).extractLsb' 20 12 = imm := by
  simp [iType, BitVec.extractLsb'_or]

@[simp]
theorem opcode_sType : opcode (sType imm rs2 rs1 f3 op) = op := by
  simp [opcode, sType, BitVec.extractLsb'_or]

@[simp]
theorem funct3_sType : funct3 (sType imm rs2 rs1 f3 op) = f3 := by
  simp [funct3, sType, BitVec.extractLsb'_or]

@[simp]
theorem opcode_bType (offset : BitVec 13) : opcode (bType offset rs2 rs1 f3 op) = op := by
  simp [opcode, bType, BitVec.extractLsb'_or]

@[simp]
theorem funct3_bType (offset : BitVec 13) : funct3 (bType offset rs2 rs1 f3 op) = f3 := by
  simp [funct3, bType, BitVec.extractLsb'_or]

@[simp]
theorem opcode_uType (upper : BitVec 20) : opcode (uType upper rd op) = op := by
  simp [opcode, uType, BitVec.extractLsb'_or]

@[simp]
theorem imm_uType (upper : BitVec 20) : (uType upper rd op).extractLsb' 12 20 = upper := by
  simp [uType, BitVec.extractLsb'_or]

@[simp]
theorem opcode_jType (offset : BitVec 21) : opcode (jType offset rd op) = op := by
  simp [opcode, jType, BitVec.extractLsb'_or]

end Fields

-----------------------------------------------------------------------------------------
-- Instructions
-----------------------------------------------------------------------------------------

/-- The operations on two registers. -/
inductive RegOp
  | add | sub | sll | slt | sltu | xor | srl | sra | or | and
  deriving DecidableEq, Repr

/-- The operations on the lower words of two registers. -/
inductive RegOpW
  | addw | subw | sllw | srlw | sraw
  deriving DecidableEq, Repr

/-- The operations on a register and a twelve-bit immediate. -/
inductive ImmOp
  | addi | slti | sltiu | xori | ori | andi
  deriving DecidableEq, Repr

/-- The shifts by an immediate amount. -/
inductive ShiftOp
  | sll | srl | sra
  deriving DecidableEq, Repr

inductive LoadOp
  | lb | lh | lw | ld | lbu | lhu | lwu
  deriving DecidableEq, Repr

inductive StoreOp
  | sb | sh | sw | sd
  deriving DecidableEq, Repr

inductive BranchOp
  | beq | bne | blt | bge | bltu | bgeu
  deriving DecidableEq, Repr

inductive Instr
  | reg (op : RegOp) (rd rs1 rs2 : Reg)
  | regW (op : RegOpW) (rd rs1 rs2 : Reg)
  | regImm (op : ImmOp) (rd rs1 : Reg) (imm : BitVec 12)
  | shiftImm (op : ShiftOp) (rd rs1 : Reg) (shamt : BitVec 6)
  | addiw (rd rs1 : Reg) (imm : BitVec 12)
  | shiftImmW (op : ShiftOp) (rd rs1 : Reg) (shamt : BitVec 5)
  | load (op : LoadOp) (rd rs1 : Reg) (imm : BitVec 12)
  | store (op : StoreOp) (rs1 rs2 : Reg) (imm : BitVec 12)
  | branch (op : BranchOp) (rs1 rs2 : Reg) (offset : BitVec 13)
  | jalr (rd rs1 : Reg) (imm : BitVec 12)
  | jal (rd : Reg) (offset : BitVec 21)
  | lui (rd : Reg) (imm : BitVec 20)
  | auipc (rd : Reg) (imm : BitVec 20)
  deriving DecidableEq, Repr

instance : Fintype RegOp :=
  ⟨{.add, .sub, .sll, .slt, .sltu, .xor, .srl, .sra, .or, .and},
    fun op => by cases op <;> decide⟩

instance : Fintype ImmOp :=
  ⟨{.addi, .slti, .sltiu, .xori, .ori, .andi}, fun op => by cases op <;> decide⟩

instance : Fintype LoadOp :=
  ⟨{.lb, .lh, .lw, .ld, .lbu, .lhu, .lwu}, fun op => by cases op <;> decide⟩

instance : Fintype StoreOp := ⟨{.sb, .sh, .sw, .sd}, fun op => by cases op <;> decide⟩

instance : Fintype BranchOp :=
  ⟨{.beq, .bne, .blt, .bge, .bltu, .bgeu}, fun op => by cases op <;> decide⟩

def RegOp.funct3 : RegOp → BitVec 3
  | .add | .sub => 0b000
  | .sll => 0b001
  | .slt => 0b010
  | .sltu => 0b011
  | .xor => 0b100
  | .srl | .sra => 0b101
  | .or => 0b110
  | .and => 0b111

def RegOp.funct7 : RegOp → BitVec 7
  | .sub | .sra => 0b0100000
  | _ => 0b0000000

def RegOpW.funct3 : RegOpW → BitVec 3
  | .addw | .subw => 0b000
  | .sllw => 0b001
  | .srlw | .sraw => 0b101

def RegOpW.funct7 : RegOpW → BitVec 7
  | .subw | .sraw => 0b0100000
  | _ => 0b0000000

def ImmOp.funct3 : ImmOp → BitVec 3
  | .addi => 0b000
  | .slti => 0b010
  | .sltiu => 0b011
  | .xori => 0b100
  | .ori => 0b110
  | .andi => 0b111

def ShiftOp.funct3 : ShiftOp → BitVec 3
  | .sll => 0b001
  | .srl | .sra => 0b101

def ShiftOp.funct6 : ShiftOp → BitVec 6
  | .sra => 0b010000
  | _ => 0b000000

def ShiftOp.funct7 : ShiftOp → BitVec 7
  | .sra => 0b0100000
  | _ => 0b0000000

def LoadOp.funct3 : LoadOp → BitVec 3
  | .lb => 0b000
  | .lh => 0b001
  | .lw => 0b010
  | .ld => 0b011
  | .lbu => 0b100
  | .lhu => 0b101
  | .lwu => 0b110

def StoreOp.funct3 : StoreOp → BitVec 3
  | .sb => 0b000
  | .sh => 0b001
  | .sw => 0b010
  | .sd => 0b011

def BranchOp.funct3 : BranchOp → BitVec 3
  | .beq => 0b000
  | .bne => 0b001
  | .blt => 0b100
  | .bge => 0b101
  | .bltu => 0b110
  | .bgeu => 0b111

/-- A 64-bit shift by an immediate is an I-type word whose immediate is `funct6` over the
shift amount, a 32-bit one an R-type word with the amount in the place of `rs2`.
-/
def Instr.encode : Instr → BitVec 32
  | .reg op rd rs1 rs2 => rType op.funct7 rs2 rs1 op.funct3 rd 0b0110011
  | .regW op rd rs1 rs2 => rType op.funct7 rs2 rs1 op.funct3 rd 0b0111011
  | .regImm op rd rs1 imm => iType imm rs1 op.funct3 rd 0b0010011
  | .shiftImm op rd rs1 shamt => iType (op.funct6 ++ shamt) rs1 op.funct3 rd 0b0010011
  | .addiw rd rs1 imm => iType imm rs1 0b000 rd 0b0011011
  | .shiftImmW op rd rs1 shamt => rType op.funct7 shamt rs1 op.funct3 rd 0b0011011
  | .load op rd rs1 imm => iType imm rs1 op.funct3 rd 0b0000011
  | .store op rs1 rs2 imm => sType imm rs2 rs1 op.funct3 0b0100011
  | .branch op rs1 rs2 offset => bType offset rs2 rs1 op.funct3 0b1100011
  | .jalr rd rs1 imm => iType imm rs1 0b000 rd 0b1100111
  | .jal rd offset => jType offset rd 0b1101111
  | .lui rd imm => uType imm rd 0b0110111
  | .auipc rd imm => uType imm rd 0b0010111

/-- The opcode of each encoding. -/
def Instr.opcode : Instr → BitVec 7
  | .reg .. => 0b0110011
  | .regW .. => 0b0111011
  | .regImm .. | .shiftImm .. => 0b0010011
  | .addiw .. | .shiftImmW .. => 0b0011011
  | .load .. => 0b0000011
  | .store .. => 0b0100011
  | .branch .. => 0b1100011
  | .jalr .. => 0b1100111
  | .jal .. => 0b1101111
  | .lui .. => 0b0110111
  | .auipc .. => 0b0010111

@[simp]
theorem opcode_encode (instr : Instr) : opcode instr.encode = instr.opcode := by
  cases instr <;> simp only [Instr.encode, opcode_rType, opcode_iType, opcode_sType, opcode_bType,
    opcode_uType, opcode_jType] <;> rfl

/-- The two parts of the immediate of a shift. -/
theorem funct6_shiftImm (op : ShiftOp) (rd rs1 : Reg) (shamt : BitVec 6)
    : funct6 (Instr.shiftImm op rd rs1 shamt).encode = op.funct6 := by
  have part (word : BitVec 32) : (word.extractLsb' 20 12).extractLsb' 6 6 = funct6 word :=
    Words.extract_extract word (by decide)
  rw [← part, Instr.encode, imm_iType]
  exact BitVec.extractLsb'_append_eq_left

theorem shamt_shiftImm (op : ShiftOp) (rd rs1 : Reg) (shamt : BitVec 6)
    : (Instr.shiftImm op rd rs1 shamt).encode.extractLsb' 20 6 = shamt := by
  have part (word : BitVec 32)
      : (word.extractLsb' 20 12).extractLsb' 0 6 = word.extractLsb' 20 6 :=
    Words.extract_extract word (by decide)
  rw [← part, Instr.encode, imm_iType]
  exact BitVec.extractLsb'_append_eq_right

-----------------------------------------------------------------------------------------
-- Which words are instructions
-----------------------------------------------------------------------------------------

/-- The fixed fields are those of an instruction. -/
def Listed (op : BitVec 7) (f3 : BitVec 3) (f7 : BitVec 7) : Prop :=
  (op = 0b0110011 ∧ (f7 = 0b0000000 ∨ (f7 = 0b0100000 ∧ (f3 = 0b000 ∨ f3 = 0b101))))
  ∨ (op = 0b0111011
    ∧ ((f7 = 0b0000000 ∧ (f3 = 0b000 ∨ f3 = 0b001 ∨ f3 = 0b101))
      ∨ (f7 = 0b0100000 ∧ (f3 = 0b000 ∨ f3 = 0b101))))
  ∨ (op = 0b0010011
    ∧ ((f3 ≠ 0b001 ∧ f3 ≠ 0b101) ∨ f7.extractLsb' 1 6 = 0b000000
      ∨ (f7.extractLsb' 1 6 = 0b010000 ∧ f3 = 0b101)))
  ∨ (op = 0b0011011
    ∧ (f3 = 0b000 ∨ (f7 = 0b0000000 ∧ (f3 = 0b001 ∨ f3 = 0b101))
      ∨ (f7 = 0b0100000 ∧ f3 = 0b101)))
  ∨ (op = 0b0000011 ∧ f3 ≠ 0b111)
  ∨ (op = 0b0100011 ∧ (f3 = 0b000 ∨ f3 = 0b001 ∨ f3 = 0b010 ∨ f3 = 0b011))
  ∨ (op = 0b1100011 ∧ f3 ≠ 0b010 ∧ f3 ≠ 0b011)
  ∨ (op = 0b1100111 ∧ f3 = 0b000)
  ∨ op = 0b1101111 ∨ op = 0b0110111 ∨ op = 0b0010111

instance (op : BitVec 7) (f3 : BitVec 3) (f7 : BitVec 7) : Decidable (Listed op f3 f7) := by
  unfold Listed
  infer_instance

/-- A word is put together again from the fields of any format. -/
theorem eq_rType (word : BitVec 32)
    : word = rType (funct7 word) (word.extractLsb' 20 5) (word.extractLsb' 15 5) (funct3 word)
        (word.extractLsb' 7 5) (opcode word) := by
  unfold rType funct7 funct3 opcode
  rw [place_adjacent (by rfl) (by omega), place_adjacent (by rfl) (by omega),
    place_adjacent (by rfl) (by omega), place_adjacent (by rfl) (by omega),
    place_adjacent (by rfl) (by omega), place_whole]

theorem eq_iType (word : BitVec 32)
    : word = iType (word.extractLsb' 20 12) (word.extractLsb' 15 5) (funct3 word)
        (word.extractLsb' 7 5) (opcode word) := by
  unfold iType funct3 opcode
  rw [place_adjacent (by rfl) (by omega), place_adjacent (by rfl) (by omega),
    place_adjacent (by rfl) (by omega), place_adjacent (by rfl) (by omega), place_whole]

theorem eq_uType (word : BitVec 32)
    : word = uType (word.extractLsb' 12 20) (word.extractLsb' 7 5) (opcode word) := by
  unfold uType opcode
  rw [place_adjacent (by rfl) (by omega), place_adjacent (by rfl) (by omega), place_whole]

/-- The parts of an immediate can be chosen separately. -/
theorem exists_storeImm (upper : BitVec 7) (lower : BitVec 5)
    : ∃ imm : BitVec 12, imm.extractLsb 11 5 = upper ∧ imm.extractLsb 4 0 = lower := by
  refine ⟨upper.setWidth 12 <<< 5 ||| lower.setWidth 12, ?_, ?_⟩
  · ext i bound
    have inside : i < 7 := bound
    simp [inside, show 5 + i < 12 by omega]
  · ext i bound
    have inside : i < 5 := bound
    simp [inside, show i < 12 by omega]

theorem exists_branchOffset (b12 b11 : BitVec 1) (upper : BitVec 6) (lower : BitVec 4)
    : ∃ offset : BitVec 13,
        offset.extractLsb 12 12 = b12 ∧ offset.extractLsb 10 5 = upper
        ∧ offset.extractLsb 4 1 = lower ∧ offset.extractLsb 11 11 = b11 := by
  refine ⟨b12.setWidth 13 <<< 12 ||| b11.setWidth 13 <<< 11 ||| upper.setWidth 13 <<< 5
    ||| lower.setWidth 13 <<< 1, ?_, ?_, ?_, ?_⟩
  all_goals
    ext i bound
    simp only [BitVec.extractLsb, BitVec.getElem_extractLsb', BitVec.getLsbD_or,
      BitVec.getLsbD_shiftLeft, BitVec.getLsbD_setWidth]
    interval_cases i <;> simp

theorem exists_jumpOffset (b20 b11 : BitVec 1) (upper : BitVec 8) (lower : BitVec 10)
    : ∃ offset : BitVec 21,
        offset.extractLsb 20 20 = b20 ∧ offset.extractLsb 10 1 = lower
        ∧ offset.extractLsb 11 11 = b11 ∧ offset.extractLsb 19 12 = upper := by
  refine ⟨b20.setWidth 21 <<< 20 ||| upper.setWidth 21 <<< 12 ||| b11.setWidth 21 <<< 11
    ||| lower.setWidth 21 <<< 1, ?_, ?_, ?_, ?_⟩
  all_goals
    ext i bound
    simp only [BitVec.extractLsb, BitVec.getElem_extractLsb', BitVec.getLsbD_or,
      BitVec.getLsbD_shiftLeft, BitVec.getLsbD_setWidth]
    interval_cases i <;> simp

theorem eq_sType (word : BitVec 32)
    : ∃ imm,
        word = sType imm (word.extractLsb' 20 5) (word.extractLsb' 15 5) (funct3 word)
          (opcode word) := by
  obtain ⟨imm, upper, lower⟩ := exists_storeImm (word.extractLsb' 25 7) (word.extractLsb' 7 5)
  refine ⟨imm, ?_⟩
  unfold sType
  rw [upper, lower]
  exact eq_rType word

theorem eq_bType (word : BitVec 32)
    : ∃ offset,
        word = bType offset (word.extractLsb' 20 5) (word.extractLsb' 15 5) (funct3 word)
          (opcode word) := by
  obtain ⟨offset, b12, upper, lower, b11⟩ := exists_branchOffset (word.extractLsb' 31 1)
    (word.extractLsb' 7 1) (word.extractLsb' 25 6) (word.extractLsb' 8 4)
  refine ⟨offset, ?_⟩
  unfold bType funct3 opcode
  rw [b12, upper, lower, b11, place_adjacent (by rfl) (by omega),
    place_adjacent (by rfl) (by omega), place_adjacent (by rfl) (by omega),
    place_adjacent (by rfl) (by omega), place_adjacent (by rfl) (by omega),
    place_adjacent (by rfl) (by omega), place_adjacent (by rfl) (by omega), place_whole]

theorem eq_jType (word : BitVec 32)
    : ∃ offset, word = jType offset (word.extractLsb' 7 5) (opcode word) := by
  obtain ⟨offset, b20, lower, b11, upper⟩ := exists_jumpOffset (word.extractLsb' 31 1)
    (word.extractLsb' 20 1) (word.extractLsb' 12 8) (word.extractLsb' 21 10)
  refine ⟨offset, ?_⟩
  unfold jType opcode
  rw [b20, upper, lower, b11, place_adjacent (by rfl) (by omega),
    place_adjacent (by rfl) (by omega), place_adjacent (by rfl) (by omega),
    place_adjacent (by rfl) (by omega), place_adjacent (by rfl) (by omega), place_whole]

theorem extract_funct7 (word : BitVec 32) : (funct7 word).extractLsb' 1 6 = funct6 word :=
  Words.extract_extract word (by omega)

/-- The fixed fields of an encoding. -/
theorem listed_encode (instr : Instr)
    : Listed (opcode instr.encode) (funct3 instr.encode) (funct7 instr.encode) := by
  unfold Listed
  cases instr with
  | shiftImm op rd rs1 shamt =>
      rw [extract_funct7, funct6_shiftImm]
      simp only [Instr.encode, opcode_iType, funct3_iType]
      cases op <;> simp [ShiftOp.funct3, ShiftOp.funct6]
  | reg op => cases op <;> simp [Instr.encode, RegOp.funct3, RegOp.funct7]
  | regW op => cases op <;> simp [Instr.encode, RegOpW.funct3, RegOpW.funct7]
  | regImm op => cases op <;> simp [Instr.encode, ImmOp.funct3]
  | shiftImmW op => cases op <;> simp [Instr.encode, ShiftOp.funct3, ShiftOp.funct7]
  | load op => cases op <;> simp [Instr.encode, LoadOp.funct3]
  | store op => cases op <;> simp [Instr.encode, StoreOp.funct3]
  | branch op => cases op <;> simp [Instr.encode, BranchOp.funct3]
  | _ => simp [Instr.encode]

theorem RegOp.exists_of_listed {f3 : BitVec 3} {f7 : BitVec 7}
    (listed : f7 = 0b0000000 ∨ (f7 = 0b0100000 ∧ (f3 = 0b000 ∨ f3 = 0b101)))
    : ∃ op : RegOp, op.funct3 = f3 ∧ op.funct7 = f7 := by
  rcases listed with rfl | ⟨rfl, rfl | rfl⟩
  · revert f3
    decide
  · exact ⟨.sub, rfl, rfl⟩
  · exact ⟨.sra, rfl, rfl⟩

theorem RegOpW.exists_of_listed {f3 : BitVec 3} {f7 : BitVec 7}
    (listed
      : (f7 = 0b0000000 ∧ (f3 = 0b000 ∨ f3 = 0b001 ∨ f3 = 0b101))
        ∨ (f7 = 0b0100000 ∧ (f3 = 0b000 ∨ f3 = 0b101)))
    : ∃ op : RegOpW, op.funct3 = f3 ∧ op.funct7 = f7 := by
  rcases listed with ⟨rfl, rfl | rfl | rfl⟩ | ⟨rfl, rfl | rfl⟩
  · exact ⟨.addw, rfl, rfl⟩
  · exact ⟨.sllw, rfl, rfl⟩
  · exact ⟨.srlw, rfl, rfl⟩
  · exact ⟨.subw, rfl, rfl⟩
  · exact ⟨.sraw, rfl, rfl⟩

theorem ShiftOp.exists_of_listed {f3 : BitVec 3} {f7 : BitVec 7}
    (listed : (f7 = 0b0000000 ∧ (f3 = 0b001 ∨ f3 = 0b101)) ∨ (f7 = 0b0100000 ∧ f3 = 0b101))
    : ∃ op : ShiftOp, op.funct3 = f3 ∧ op.funct7 = f7 := by
  rcases listed with ⟨rfl, rfl | rfl⟩ | ⟨rfl, rfl⟩
  · exact ⟨.sll, rfl, rfl⟩
  · exact ⟨.srl, rfl, rfl⟩
  · exact ⟨.sra, rfl, rfl⟩

theorem ImmOp.exists_of_listed
    : ∀ f3 : BitVec 3, f3 ≠ 0b001 ∧ f3 ≠ 0b101 → ∃ op : ImmOp, op.funct3 = f3 := by
  decide

theorem LoadOp.exists_of_listed : ∀ f3 : BitVec 3, f3 ≠ 0b111 → ∃ op : LoadOp, op.funct3 = f3 := by
  decide

theorem StoreOp.exists_of_listed
    : ∀ f3 : BitVec 3,
        f3 = 0b000 ∨ f3 = 0b001 ∨ f3 = 0b010 ∨ f3 = 0b011 → ∃ op : StoreOp, op.funct3 = f3 := by
  decide

theorem BranchOp.exists_of_listed
    : ∀ f3 : BitVec 3, f3 ≠ 0b010 ∧ f3 ≠ 0b011 → ∃ op : BranchOp, op.funct3 = f3 := by
  decide

/-- An operation on a register and an immediate, as far as `funct6` says. -/
theorem exists_encode_opImm {word : BitVec 32} (op : opcode word = 0b0010011)
    (listed
      : (funct3 word ≠ 0b001 ∧ funct3 word ≠ 0b101) ∨ funct6 word = 0b000000
        ∨ (funct6 word = 0b010000 ∧ funct3 word = 0b101))
    : ∃ instr : Instr, instr.encode = word := by
  have immediate := eq_iType word
  by_cases plain : funct3 word ≠ 0b001 ∧ funct3 word ≠ 0b101
  · obtain ⟨o, f3⟩ := ImmOp.exists_of_listed _ plain
    rw [op, ← f3] at immediate
    exact ⟨.regImm o _ _ _, immediate.symm⟩
  · have shift : ∃ o : ShiftOp, o.funct3 = funct3 word ∧ o.funct6 = funct6 word := by
      rcases listed with other | zero | ⟨arith, right⟩
      · exact absurd other plain
      · rw [zero]
        by_cases left : funct3 word = 0b001
        · exact ⟨.sll, left.symm, rfl⟩
        · have right : funct3 word = 0b101 := by
            by_contra other
            exact plain ⟨left, other⟩
          exact ⟨.srl, right.symm, rfl⟩
      · exact ⟨.sra, right.symm, arith.symm⟩
    obtain ⟨o, f3, f6⟩ := shift
    have imm : o.funct6 ++ word.extractLsb' 20 6 = word.extractLsb' 20 12 := by
      rw [f6]
      exact BitVec.extractLsb'_append_extractLsb'_eq_extractLsb' (by rfl)
    rw [op, ← f3, ← imm] at immediate
    exact ⟨.shiftImm o _ _ _, immediate.symm⟩

/-- A word whose fixed fields are those of an instruction encodes one. -/
theorem Listed.exists_encode {word : BitVec 32}
    (h : Listed (opcode word) (funct3 word) (funct7 word))
    : ∃ instr : Instr, instr.encode = word := by
  have reg := eq_rType word
  have immediate := eq_iType word
  have upper := eq_uType word
  rcases h with ⟨op, fields⟩ | ⟨op, fields⟩ | ⟨op, fields⟩ | ⟨op, f3 | fields⟩ | ⟨op, fields⟩
    | ⟨op, fields⟩ | ⟨op, fields⟩ | ⟨op, f3⟩ | op | op | op
  · obtain ⟨o, f3, f7⟩ := RegOp.exists_of_listed fields
    rw [op, ← f3, ← f7] at reg
    exact ⟨.reg o _ _ _, reg.symm⟩
  · obtain ⟨o, f3, f7⟩ := RegOpW.exists_of_listed fields
    rw [op, ← f3, ← f7] at reg
    exact ⟨.regW o _ _ _, reg.symm⟩
  · rw [extract_funct7] at fields
    exact exists_encode_opImm op fields
  · rw [op, f3] at immediate
    exact ⟨.addiw _ _ _, immediate.symm⟩
  · obtain ⟨o, f3, f7⟩ := ShiftOp.exists_of_listed fields
    rw [op, ← f3, ← f7] at reg
    exact ⟨.shiftImmW o _ _ _, reg.symm⟩
  · obtain ⟨o, f3⟩ := LoadOp.exists_of_listed _ fields
    rw [op, ← f3] at immediate
    exact ⟨.load o _ _ _, immediate.symm⟩
  · obtain ⟨o, f3⟩ := StoreOp.exists_of_listed _ fields
    obtain ⟨imm, same⟩ := eq_sType word
    rw [op, ← f3] at same
    exact ⟨.store o _ _ _, same.symm⟩
  · obtain ⟨o, f3⟩ := BranchOp.exists_of_listed _ fields
    obtain ⟨offset, same⟩ := eq_bType word
    rw [op, ← f3] at same
    exact ⟨.branch o _ _ _, same.symm⟩
  · rw [op, f3] at immediate
    exact ⟨.jalr _ _ _, immediate.symm⟩
  · obtain ⟨offset, same⟩ := eq_jType word
    rw [op] at same
    exact ⟨.jal _ _, same.symm⟩
  · rw [op] at upper
    exact ⟨.lui _ _, upper.symm⟩
  · rw [op] at upper
    exact ⟨.auipc _ _, upper.symm⟩

theorem exists_encode_iff {word : BitVec 32}
    : (∃ instr : Instr, instr.encode = word)
      ↔ Listed (opcode word) (funct3 word) (funct7 word) := by
  constructor
  · rintro ⟨instr, rfl⟩
    exact listed_encode instr
  · exact Listed.exists_encode

-----------------------------------------------------------------------------------------
-- Values
-----------------------------------------------------------------------------------------

/-- The result of a comparison. -/
def flag (p : Prop) [Decidable p] : Value := if p then 1 else 0

/-- A result of 32 bits fills a register with its sign. -/
def fromWord (word : BitVec 32) : Value := word.signExtend 64

def lowWord (value : Value) : BitVec 32 := value.setWidth 32

def RegOp.value : RegOp → Value → Value → Value
  | .add, a, b => a + b
  | .sub, a, b => a - b
  | .sll, a, b => a <<< (b.toNat % 64)
  | .slt, a, b => flag (a.toInt < b.toInt)
  | .sltu, a, b => flag (a.toNat < b.toNat)
  | .xor, a, b => a ^^^ b
  | .srl, a, b => a >>> (b.toNat % 64)
  | .sra, a, b => a.sshiftRight (b.toNat % 64)
  | .or, a, b => a ||| b
  | .and, a, b => a &&& b

def RegOpW.value : RegOpW → Value → Value → Value
  | .addw, a, b => fromWord (lowWord a + lowWord b)
  | .subw, a, b => fromWord (lowWord a - lowWord b)
  | .sllw, a, b => fromWord (lowWord a <<< (b.toNat % 32))
  | .srlw, a, b => fromWord (lowWord a >>> (b.toNat % 32))
  | .sraw, a, b => fromWord ((lowWord a).sshiftRight (b.toNat % 32))

/-- The value for an immediate that is already sign-extended. -/
def ImmOp.value : ImmOp → Value → Value → Value
  | .addi, a, imm => a + imm
  | .slti, a, imm => flag (a.toInt < imm.toInt)
  | .sltiu, a, imm => flag (a.toNat < imm.toNat)
  | .xori, a, imm => a ^^^ imm
  | .ori, a, imm => a ||| imm
  | .andi, a, imm => a &&& imm

def ShiftOp.value {w : ℕ} : ShiftOp → BitVec w → ℕ → BitVec w
  | .sll, a, shamt => a <<< shamt
  | .srl, a, shamt => a >>> shamt
  | .sra, a, shamt => a.sshiftRight shamt

/-- The number of bytes a load reads. -/
def LoadOp.bytes : LoadOp → ℕ
  | .lb | .lbu => 1
  | .lh | .lhu => 2
  | .lw | .lwu => 4
  | .ld => 8

/-- The number of bytes a store writes. -/
def StoreOp.bytes : StoreOp → ℕ
  | .sb => 1
  | .sh => 2
  | .sw => 4
  | .sd => 8

/-- The value a load gives `rd` if memory holds the low bytes of `v`. -/
def LoadOp.value : LoadOp → Value → Value
  | .lb, v => (v.setWidth 8).signExtend 64
  | .lh, v => (v.setWidth 16).signExtend 64
  | .lw, v => (v.setWidth 32).signExtend 64
  | .ld, v => v
  | .lbu, v => (v.setWidth 8).setWidth 64
  | .lhu, v => (v.setWidth 16).setWidth 64
  | .lwu, v => (v.setWidth 32).setWidth 64

/-- The value an instruction at `pc` computes for `rd` from the values of `rs1` and `rs2`;
none for branches and for the instructions that access memory.
-/
def Instr.value (pc a b : Value) : Instr → Option Value
  | .reg op _ _ _ => some (op.value a b)
  | .regW op _ _ _ => some (op.value a b)
  | .regImm op _ _ imm => some (op.value a (imm.signExtend 64))
  | .shiftImm op _ _ shamt => some (op.value a shamt.toNat)
  | .addiw _ _ imm => some (fromWord (lowWord a + imm.signExtend 32))
  | .shiftImmW op _ _ shamt => some (fromWord (op.value (lowWord a) shamt.toNat))
  | .lui _ imm => some (fromWord (imm ++ 0#12))
  | .auipc _ imm => some (pc + fromWord (imm ++ 0#12))
  | .jal _ _ => some (pc + 4)
  | .jalr _ _ _ => some (pc + 4)
  | .load .. => none
  | .store .. => none
  | .branch .. => none

/-- The condition of a branch on the values of `rs1` and `rs2`. -/
def BranchOp.taken : BranchOp → Value → Value → Prop
  | .beq, a, b => a = b
  | .bne, a, b => a ≠ b
  | .blt, a, b => a.toInt < b.toInt
  | .bge, a, b => b.toInt ≤ a.toInt
  | .bltu, a, b => a.toNat < b.toNat
  | .bgeu, a, b => b.toNat ≤ a.toNat

instance : ∀ (op : BranchOp) (a b : Value), Decidable (op.taken a b)
  | .beq, a, b => inferInstanceAs (Decidable (a = b))
  | .bne, a, b => inferInstanceAs (Decidable (a ≠ b))
  | .blt, a, b => inferInstanceAs (Decidable (a.toInt < b.toInt))
  | .bge, a, b => inferInstanceAs (Decidable (b.toInt ≤ a.toInt))
  | .bltu, a, b => inferInstanceAs (Decidable (a.toNat < b.toNat))
  | .bgeu, a, b => inferInstanceAs (Decidable (b.toNat ≤ a.toNat))

end Rv64i
