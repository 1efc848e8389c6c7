import RiscvSim.Library.Rv64i
import RiscvSim.Library.ByteMap

/-! A hart that executes RV64I: its registers, its program counter and its memory, what each
instruction does to them, and the runs of a program. Jump targets need no more than even
alignment, and a hart that accesses an unmapped address makes no step.
-/

namespace Rv64i

-----------------------------------------------------------------------------------------
-- Registers
-----------------------------------------------------------------------------------------

/-- The integer registers, of which register 0 always reads as 0. -/
structure Registers where
  read : Reg → Value
  read_zero : read 0 = 0

namespace Registers

def cleared : Registers where
  read _ := 0
  read_zero := rfl

/-- A write to register 0 has no effect. -/
def write (regs : Registers) (rd : Reg) (value : Value) : Registers where
  read r := if r = rd ∧ rd ≠ 0 then value else regs.read r
  read_zero := by
    rw [if_neg (fun both => both.2 both.1.symm)]
    exact regs.read_zero

theorem read_write (regs : Registers) (rd r : Reg) (value : Value)
    : (regs.write rd value).read r = if r = rd ∧ rd ≠ 0 then value else regs.read r :=
  rfl

@[simp]
theorem write_zero (regs : Registers) (value : Value) : regs.write 0 value = regs := by
  have same : (regs.write 0 value).read = regs.read :=
    funext fun r => if_neg fun both => both.2 rfl
  cases regs
  simp only [write, mk.injEq]
  exact same

end Registers

-----------------------------------------------------------------------------------------
-- Registers and targets of an instruction
-----------------------------------------------------------------------------------------

namespace Instr

def hasRd : Instr → Bool
  | .store .. | .branch .. => false
  | _ => true

def hasRs1 : Instr → Bool
  | .jal .. | .lui .. | .auipc .. => false
  | _ => true

def hasRs2 : Instr → Bool
  | .reg .. | .regW .. | .store .. | .branch .. => true
  | _ => false

def isLoad : Instr → Bool
  | .load .. => true
  | _ => false

def isStore : Instr → Bool
  | .store .. => true
  | _ => false

/-- The instructions for which `value` is defined. -/
def computes : Instr → Bool
  | .load .. | .store .. | .branch .. => false
  | _ => true

theorem isSome_value (instr : Instr) (pc a b : Value)
    : (instr.value pc a b).isSome = instr.computes := by
  cases instr <;> rfl

/-- The destination, or register 0 if the format has none. -/
def rd : Instr → Reg
  | .reg _ rd _ _ | .regW _ rd _ _ | .regImm _ rd _ _ | .shiftImm _ rd _ _ | .addiw rd _ _
  | .shiftImmW _ rd _ _ | .load _ rd _ _ | .jalr rd _ _ | .jal rd _ | .lui rd _
  | .auipc rd _ => rd
  | .store .. | .branch .. => 0

/-- The first source, or register 0 if the format has none. -/
def rs1 : Instr → Reg
  | .reg _ _ rs1 _ | .regW _ _ rs1 _ | .regImm _ _ rs1 _ | .shiftImm _ _ rs1 _ | .addiw _ rs1 _
  | .shiftImmW _ _ rs1 _ | .load _ _ rs1 _ | .store _ rs1 _ _ | .branch _ rs1 _ _
  | .jalr _ rs1 _ => rs1
  | .jal .. | .lui .. | .auipc .. => 0

/-- The second source, or register 0 if the format has none. -/
def rs2 : Instr → Reg
  | .reg _ _ _ rs2 | .regW _ _ _ rs2 | .store _ _ rs2 _ | .branch _ _ rs2 _ => rs2
  | _ => 0

theorem rd_encode (instr : Instr)
    : instr.rd = if instr.hasRd then instr.encode.extractLsb' 7 5 else 0 := by
  cases instr <;>
    simp [rd, hasRd, encode, rType, iType, uType, jType, BitVec.extractLsb'_or]

theorem rs1_encode (instr : Instr)
    : instr.rs1 = if instr.hasRs1 then instr.encode.extractLsb' 15 5 else 0 := by
  cases instr <;>
    simp [rs1, hasRs1, encode, rType, iType, sType, bType, BitVec.extractLsb'_or]

theorem rs2_encode (instr : Instr)
    : instr.rs2 = if instr.hasRs2 then instr.encode.extractLsb' 20 5 else 0 := by
  cases instr <;>
    simp [rs2, hasRs2, encode, rType, sType, bType, BitVec.extractLsb'_or]

/-- Where an instruction at `pc` continues, from the values of `rs1` and `rs2`. -/
def target (pc a b : Value) : Instr → Value
  | .branch op _ _ offset => if op.taken a b then pc + offset.signExtend 64 else pc + 4
  | .jal _ offset => pc + offset.signExtend 64
  | .jalr _ _ imm => (a + imm.signExtend 64) &&& ~~~1#64
  | _ => pc + 4

/-- The offsets that an encoding can hold. -/
def EvenOffset : Instr → Prop
  | .branch _ _ _ offset => offset.getLsbD 0 = false
  | .jal _ offset => offset.getLsbD 0 = false
  | _ => True

end Instr

-----------------------------------------------------------------------------------------
-- Execution
-----------------------------------------------------------------------------------------

structure Hart where
  regs : Registers
  pc : Value
  mem : ByteMap

namespace Hart

/-- A hart before the first instruction of a program in `mem`. -/
def boot (mem : ByteMap) : Hart where
  regs := .cleared
  pc := 0
  mem := mem

/-- The address of an access. -/
def address (hart : Hart) (base : Reg) (imm : BitVec 12) : Value :=
  hart.regs.read base + imm.signExtend 64

/-- Where the instruction continues. -/
def target (hart : Hart) (instr : Instr) : Value :=
  instr.target hart.pc (hart.regs.read instr.rs1) (hart.regs.read instr.rs2)

/-- The effect of each kind of instruction. -/
inductive Executes (hart : Hart) : Instr → Hart → Prop
  | value {instr : Instr} {value : Value}
      (defined
        : instr.value hart.pc (hart.regs.read instr.rs1) (hart.regs.read instr.rs2) = some value)
    : Executes hart instr
        { hart with regs := hart.regs.write instr.rd value, pc := hart.target instr }
  | branch {op : BranchOp} {rs1 rs2 : Reg} {offset : BitVec 13}
    : Executes hart (.branch op rs1 rs2 offset)
        { hart with pc := hart.target (.branch op rs1 rs2 offset) }
  | load {op : LoadOp} {rd rs1 : Reg} {imm : BitVec 12} {value : Value}
      (holds : hart.mem.Holds (hart.address rs1 imm).toNat op.bytes value)
    : Executes hart (.load op rd rs1 imm)
        { hart with regs := hart.regs.write rd (op.value value), pc := hart.pc + 4 }
  | store {op : StoreOp} {rs1 rs2 : Reg} {imm : BitVec 12}
      (maps : hart.mem.Maps (hart.address rs1 imm).toNat op.bytes)
    : Executes hart (.store op rs1 rs2 imm)
        { hart with
          mem := hart.mem.write (hart.address rs1 imm).toNat op.bytes (hart.regs.read rs2)
          pc := hart.pc + 4 }

/-- The word at the program counter. -/
def Fetches (hart : Hart) (word : BitVec 32) : Prop := hart.mem.Holds hart.pc.toNat 4 word

/-- The hart executes the instruction at its program counter. -/
inductive Step (hart : Hart) : Hart → Prop
  | intro {instr : Instr} {after : Hart} (fetched : hart.Fetches instr.encode)
      (even : instr.EvenOffset) (executes : hart.Executes instr after)
    : Step hart after

/-- A run of `n` instructions. -/
inductive Run : ℕ → Hart → Hart → Prop
  | none {hart : Hart} : Run 0 hart hart
  | step {n : ℕ} {hart next final : Hart} (first : hart.Step next) (rest : Run n next final)
    : Run (n + 1) hart final

end Hart
end Rv64i
