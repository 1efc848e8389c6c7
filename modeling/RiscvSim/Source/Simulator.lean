import RiscvSim.Source.MemoryStore

/-! The instruction record, the functional steps and the pipeline stage helpers of
`Simulator`. The pipeline itself is in `Source/Cycle`.
-/

namespace RiscvSim

/-- The register array of `REGS`. Register numbers are five-bit fields of an instruction
word, so only the indices below 32 are ever used.
-/
abbrev Registers := U64 → U64

/-- `registers[rd] = value`. -/
def Registers.set (registers : Registers) (rd value : U64) : Registers :=
  fun r => if r = rd then value else registers r

/-- `Simulator::Instruction`, with the defaults of the source. -/
structure Instruction where
  pc : U64 := 0
  instruction : U64 := 0
  isHalt : Bool := false
  isLegal : Bool := false
  isNop : Bool := false
  readsMem : Bool := false
  writesMem : Bool := false
  doesArithLogic : Bool := false
  writesRd : Bool := false
  readsRs1 : Bool := false
  readsRs2 : Bool := false
  opcode : U64 := 0
  funct3 : U64 := 0
  funct7 : U64 := 0
  rd : U64 := 0
  rs1 : U64 := 0
  rs2 : U64 := 0
  nextPC : U64 := 0
  op1Val : U64 := 0
  op2Val : U64 := 0
  arithResult : U64 := 0
  memAddress : U64 := 0
  memException : Bool := false
  memResult : U64 := 0
  instructionID : U64 := 0
  dinCounted : Bool := false
  status : StageStatus := .normal

/-- The members of `Simulator`: registers, memory and the decode counter. -/
structure Simulator where
  regData : Registers
  memory : MemoryStore
  din : U64
  countDin : Bool

/-- The constructor followed by `setMemory`. -/
def Simulator.new (memory : MemoryStore) : Simulator where
  regData := fun _ => 0
  memory := memory
  din := 0
  countDin := true

def simFetch (pc : U64) (myMem : MemoryStore) : Instruction :=
  let inst : Instruction := { pc := pc }
  let (ret, instruction) := myMem.getMemValue pc .wordSize
  if ret ≠ 0 then
    { inst with memException := true, instruction := 0 }
  else
    { inst with instruction := (instruction.setWidth 32).setWidth 64 }

/-- The head of `simDecode`: the fields of the word, which is assumed legal for now. -/
def decodeFields (inst : Instruction) : Instruction :=
  { inst with
    opcode := extractBits inst.instruction 6 0
    rd := extractBits inst.instruction 11 7
    funct3 := extractBits inst.instruction 14 12
    rs1 := extractBits inst.instruction 19 15
    rs2 := extractBits inst.instruction 24 20
    funct7 := extractBits inst.instruction 31 25
    isLegal := true }

/-- The rest of `simDecode`: HALT, NOP and the switch over the opcode. -/
def decodeSignals (inst : Instruction) : Instruction :=
  if inst.instruction = haltWord then { inst with isHalt := true }
  else if inst.instruction = nopWord then { inst with isNop := true }
  else if inst.opcode = opInt then
    if (inst.funct3 = funct3Add ∧ (inst.funct7 = funct7Add ∨ inst.funct7 = funct7Sub))
        ∨ inst.funct3 = funct3Sll ∨ inst.funct3 = funct3Slt ∨ inst.funct3 = funct3Sltu
        ∨ inst.funct3 = funct3Xor
        ∨ (inst.funct3 = funct3Sr
          ∧ (inst.funct7.ushiftRight 1 = upperImmArith
            ∨ inst.funct7.ushiftRight 1 = upperImmLogical))
        ∨ inst.funct3 = funct3Or ∨ inst.funct3 = funct3And then
      { inst with
        doesArithLogic := true, writesRd := true, readsRs1 := true, readsRs2 := true }
    else { inst with isLegal := false }
  else if inst.opcode = opIntW then
    if (inst.funct3 = funct3Add ∧ (inst.funct7 = funct7Add ∨ inst.funct7 = funct7Sub))
        ∨ inst.funct3 = funct3Sll
        ∨ (inst.funct3 = funct3Sr
          ∧ (inst.funct7 = funct7Arith ∨ inst.funct7 = funct7Logical)) then
      { inst with
        doesArithLogic := true, writesRd := true, readsRs1 := true, readsRs2 := true }
    else { inst with isLegal := false }
  else if inst.opcode = opLoad then
    if inst.funct3 = funct3B ∨ inst.funct3 = funct3H ∨ inst.funct3 = funct3W
        ∨ inst.funct3 = funct3D ∨ inst.funct3 = funct3Bu ∨ inst.funct3 = funct3Hu
        ∨ inst.funct3 = funct3Wu then
      { inst with readsRs1 := true, writesRd := true, readsMem := true }
    else { inst with isLegal := false }
  else if inst.opcode = opIntImm then
    if inst.funct3 = funct3Add ∨ inst.funct3 = funct3Sll ∨ inst.funct3 = funct3Slt
        ∨ inst.funct3 = funct3Sltu ∨ inst.funct3 = funct3Xor
        ∨ (inst.funct3 = funct3Sr
          ∧ (inst.funct7.ushiftRight 1 = upperImmArith
            ∨ inst.funct7.ushiftRight 1 = upperImmLogical))
        ∨ inst.funct3 = funct3Or ∨ inst.funct3 = funct3And then
      { inst with doesArithLogic := true, writesRd := true, readsRs1 := true }
    else { inst with isLegal := false }
  else if inst.opcode = opIntImmW then
    if inst.funct3 = funct3Add ∨ inst.funct3 = funct3Sll
        ∨ (inst.funct3 = funct3Sr
          ∧ (inst.funct7 = funct7Arith ∨ inst.funct7 = funct7Logical)) then
      { inst with doesArithLogic := true, writesRd := true, readsRs1 := true }
    else { inst with isLegal := false }
  else if inst.opcode = opJalr then
    { inst with isLegal := true, doesArithLogic := true, writesRd := true, readsRs1 := true }
  else if inst.opcode = opStore then
    if inst.funct3 = funct3B ∨ inst.funct3 = funct3H ∨ inst.funct3 = funct3W
        ∨ inst.funct3 = funct3D then
      { inst with readsRs1 := true, readsRs2 := true, writesMem := true }
    else { inst with isLegal := false }
  else if inst.opcode = opBranch then
    if inst.funct3 = funct3Beq ∨ inst.funct3 = funct3Bne ∨ inst.funct3 = funct3Blt
        ∨ inst.funct3 = funct3Bge ∨ inst.funct3 = funct3Bltu ∨ inst.funct3 = funct3Bgeu then
      { inst with readsRs1 := true, readsRs2 := true }
    else { inst with isLegal := false }
  else if inst.opcode = opAuipc ∨ inst.opcode = opLui ∨ inst.opcode = opJal then
    { inst with isLegal := true, doesArithLogic := true, writesRd := true }
  else { inst with isLegal := false }

def simDecode (inst : Instruction) : Instruction := decodeSignals (decodeFields inst)

/-- The register file is passed by value: the zeroed slot 0 is the copy's. -/
def simOperandCollection (inst : Instruction) (regData : Registers) : Instruction :=
  let regData := regData.set 0 0
  { inst with
    op1Val := if inst.readsRs1 then regData inst.rs1 else inst.op1Val
    op2Val := if inst.readsRs2 then regData inst.rs2 else inst.op2Val }

/-- Whether the branch condition of `funct3` holds on the operands. The unlisted codes 2
and 3 leave `nextPC` at the fall-through, like a condition that fails.
-/
def branchCondition (inst : Instruction) : Bool :=
  if inst.funct3 = funct3Beq then inst.op1Val == inst.op2Val
  else if inst.funct3 = funct3Bne then inst.op1Val != inst.op2Val
  else if inst.funct3 = funct3Blt then inst.op1Val.slt inst.op2Val
  else if inst.funct3 = funct3Bge then !inst.op1Val.slt inst.op2Val
  else if inst.funct3 = funct3Bltu then inst.op1Val.ult inst.op2Val
  else if inst.funct3 = funct3Bgeu then !inst.op1Val.ult inst.op2Val
  else false

def simNextPCResolution (inst : Instruction) : Instruction :=
  let imm5 := inst.rd
  let imm7 := inst.funct7
  let imm12 := extractBits inst.instruction 31 20
  let imm20 := extractBits inst.instruction 31 12
  let branchTarget := inst.pc + sext64
    (extractBits imm7 6 6 <<< 12 ||| extractBits imm7 5 0 <<< 5
      ||| extractBits imm5 4 1 <<< 1 ||| extractBits imm5 0 0 <<< 11) 12
  let jalTarget := inst.pc + sext64
    (extractBits imm20 19 19 <<< 20 ||| extractBits imm20 18 9 <<< 1
      ||| extractBits imm20 8 8 <<< 11 ||| extractBits imm20 7 0 <<< 12) 20
  if inst.opcode = opJalr then
    { inst with nextPC := (inst.op1Val + sext64 imm12 11) &&& ~~~1#64 }
  else if inst.opcode = opBranch then
    { inst with nextPC := if branchCondition inst then branchTarget else inst.pc + 4 }
  else if inst.opcode = opJal then
    { inst with nextPC := jalTarget }
  else
    { inst with nextPC := inst.pc + 4 }

/-- A comparison result stored in a register. -/
def ofBool (b : Bool) : U64 := if b then 1 else 0

/-- The `OP_INT` arm of `simArithLogic`, on the masked second operand. -/
def arithInt (inst : Instruction) : U64 :=
  let upperImm12 := extractBits inst.instruction 31 26
  if inst.funct3 = funct3Add then
    if inst.funct7 = funct7Add then inst.op1Val + inst.op2Val
    else if inst.funct7 = funct7Sub then inst.op1Val - inst.op2Val
    else inst.arithResult
  else if inst.funct3 = funct3Sll then inst.op1Val <<< inst.op2Val
  else if inst.funct3 = funct3Slt then ofBool (inst.op1Val.slt inst.op2Val)
  else if inst.funct3 = funct3Sltu then ofBool (inst.op1Val.ult inst.op2Val)
  else if inst.funct3 = funct3Xor then inst.op1Val ^^^ inst.op2Val
  else if inst.funct3 = funct3Sr then
    if upperImm12 = funct7Logical then inst.op1Val >>> inst.op2Val
    else if upperImm12 = upperImmArith then inst.op1Val.sshiftRight inst.op2Val.toNat
    else inst.arithResult
  else if inst.funct3 = funct3Or then inst.op1Val ||| inst.op2Val
  else if inst.funct3 = funct3And then inst.op1Val &&& inst.op2Val
  else inst.arithResult

/-- The `OP_INTW` arm: 32-bit operations, sign-extended from bit 31. The arithmetic shift
yields an `int32_t`, which widens with its sign.
-/
def arithIntW (inst : Instruction) : U64 :=
  let upperImm12 := extractBits inst.instruction 31 26
  let a : BitVec 32 := inst.op1Val.setWidth 32
  let b : BitVec 32 := inst.op2Val.setWidth 32
  if inst.funct3 = funct3Add then
    if inst.funct7 = funct7Add then sext64 ((a + b).setWidth 64) 31
    else if inst.funct7 = funct7Sub then sext64 ((a - b).setWidth 64) 31
    else inst.arithResult
  else if inst.funct3 = funct3Sll then sext64 ((a <<< b).setWidth 64) 31
  else if inst.funct3 = funct3Sr then
    if upperImm12 = funct7Logical then sext64 ((a >>> b).setWidth 64) 31
    else if upperImm12 = upperImmArith then sext64 ((a.sshiftRight b.toNat).signExtend 64) 31
    else inst.arithResult
  else inst.arithResult

/-- The `OP_INTIMM` arm. -/
def arithIntImm (inst : Instruction) : U64 :=
  let imm12 := extractBits inst.instruction 31 20
  let upperImm12 := extractBits inst.instruction 31 26
  if inst.funct3 = funct3Add then inst.op1Val + sext64 imm12 11
  else if inst.funct3 = funct3Sll then inst.op1Val <<< (imm12 &&& 0x3F)
  else if inst.funct3 = funct3Slt then ofBool (inst.op1Val.slt (sext64 imm12 11))
  else if inst.funct3 = funct3Sltu then ofBool (inst.op1Val.ult (sext64 imm12 11))
  else if inst.funct3 = funct3Xor then inst.op1Val ^^^ sext64 imm12 11
  else if inst.funct3 = funct3Sr then
    if upperImm12 = upperImmLogical then inst.op1Val >>> (imm12 &&& 0x3F)
    else if upperImm12 = upperImmArith then inst.op1Val.sshiftRight (imm12 &&& 0x3F).toNat
    else inst.arithResult
  else if inst.funct3 = funct3Or then inst.op1Val ||| sext64 imm12 11
  else if inst.funct3 = funct3And then inst.op1Val &&& sext64 imm12 11
  else inst.arithResult

/-- The `OP_INTIMMW` arm. -/
def arithIntImmW (inst : Instruction) : U64 :=
  let imm12 := extractBits inst.instruction 31 20
  let upperImm12 := extractBits inst.instruction 31 26
  let a : BitVec 32 := inst.op1Val.setWidth 32
  let shamt : BitVec 32 := (imm12 &&& 0x1F).setWidth 32
  if inst.funct3 = funct3Add then
    sext64 ((a + sext32 (imm12.setWidth 32) 11).setWidth 64) 31
  else if inst.funct3 = funct3Sll then sext64 ((a <<< shamt).setWidth 64) 31
  else if inst.funct3 = funct3Sr then
    if upperImm12 = upperImmLogical then sext64 ((a >>> shamt).setWidth 64) 31
    else if upperImm12 = upperImmArith then
      sext64 ((a.sshiftRight shamt.toNat).signExtend 64) 31
    else inst.arithResult
  else inst.arithResult

def simArithLogic (inst : Instruction) : Instruction :=
  let imm20 := extractBits inst.instruction 31 12
  -- only the low bits of rs2 count as a shift amount
  let inst :=
    if inst.opcode = opInt ∧ (inst.funct3 = funct3Sll ∨ inst.funct3 = funct3Sr) then
      { inst with op2Val := inst.op2Val &&& 0x3F }
    else if inst.opcode = opIntW ∧ (inst.funct3 = funct3Sll ∨ inst.funct3 = funct3Sr) then
      { inst with op2Val := inst.op2Val &&& 0x1F }
    else inst
  { inst with
    arithResult :=
      if inst.opcode = opInt then arithInt inst
      else if inst.opcode = opIntW then arithIntW inst
      else if inst.opcode = opIntImm then arithIntImm inst
      else if inst.opcode = opIntImmW then arithIntImmW inst
      else if inst.opcode = opJalr then inst.pc + 4
      else if inst.opcode = opAuipc then inst.pc + sext64 (imm20 <<< 12) 31
      else if inst.opcode = opLui then sext64 (imm20 <<< 12) 31
      else if inst.opcode = opJal then inst.pc + 4
      else inst.arithResult }

def simAddrGen (inst : Instruction) : Instruction :=
  let imm5 := inst.rd
  let imm7 := inst.funct7
  let imm12 := extractBits inst.instruction 31 20
  let storeImm := sext64 ((imm7 <<< 5) ||| imm5) 11
  if inst.readsMem then { inst with memAddress := inst.op1Val + sext64 imm12 11 }
  else if inst.writesMem then { inst with memAddress := inst.op1Val + storeImm }
  else inst

/-- The access size `simMemAccess` selects from `funct3`. -/
def accessSize (inst : Instruction) : MemEntrySize :=
  if inst.funct3 = funct3B ∨ inst.funct3 = funct3Bu then .byteSize
  else if inst.funct3 = funct3H ∨ inst.funct3 = funct3Hu then .halfSize
  else if inst.funct3 = funct3W ∨ inst.funct3 = funct3Wu then .wordSize
  else .doubleSize

def simMemAccess (inst : Instruction) (myMem : MemoryStore) : Instruction × MemoryStore :=
  let size := accessSize inst
  if inst.readsMem then
    let (ret, value) := myMem.getMemValue inst.memAddress size
    if ret ≠ 0 then ({ inst with memException := true }, myMem)
    else if inst.funct3 = funct3B ∨ inst.funct3 = funct3H ∨ inst.funct3 = funct3W then
      ({ inst with memResult := sext64 value (size.bytes * 8 - 1) }, myMem)
    else ({ inst with memResult := value }, myMem)
  else if inst.writesMem then
    let (ret, written) := myMem.setMemValue inst.memAddress inst.op2Val size
    if ret ≠ 0 then ({ inst with memException := true }, written) else (inst, written)
  else (inst, myMem)

/-- The register file after the write; the instruction is returned unchanged. -/
def simCommit (inst : Instruction) (regData : Registers) : Registers :=
  regData.set inst.rd (if inst.readsMem then inst.memResult else inst.arithResult)

-----------------------------------------------------------------------------------------
-- Pipeline stage helpers
-----------------------------------------------------------------------------------------

namespace Simulator

def simIF (sim : Simulator) (pc : U64) : Instruction :=
  { simFetch pc sim.memory with nextPC := pc + 4, status := .normal }

def simID (sim : Simulator) (inst : Instruction) : Instruction × Simulator :=
  let inst := simDecode inst
  let counted := !inst.isNop && sim.countDin
  let inst :=
    if counted then { inst with instructionID := sim.din, dinCounted := true } else inst
  let sim := if counted then { sim with din := sim.din + 1 } else sim
  if !inst.isLegal then ({ inst with nextPC := exceptionHandler, status := .normal }, sim)
  else
    let sim := if inst.isHalt then { sim with countDin := false } else sim
    let inst := simOperandCollection inst sim.regData
    let inst := simNextPCResolution inst
    ({ inst with status := .normal }, sim)

/-- `simEX` touches no state of the simulator. -/
def simEX (inst : Instruction) : Instruction :=
  if !inst.isLegal || inst.memException then { inst with status := .normal }
  else
    let inst := if inst.doesArithLogic then simArithLogic inst else inst
    { inst with status := .normal }

def simMEM (sim : Simulator) (inst : Instruction) : Instruction × Simulator :=
  if !inst.isLegal || inst.memException then ({ inst with status := .normal }, sim)
  else if inst.readsMem || inst.writesMem then
    let (inst, memory) := simMemAccess (simAddrGen inst) sim.memory
    ({ inst with status := .normal }, { sim with memory := memory })
  else ({ inst with status := .normal }, sim)

def simWB (sim : Simulator) (inst : Instruction) : Instruction × Simulator :=
  if !inst.isLegal || inst.memException then
    ({ inst with nextPC := exceptionHandler, status := .normal }, sim)
  else if inst.isHalt || inst.isNop then
    ({ inst with nextPC := inst.pc + 4, status := .normal }, sim)
  else if inst.writesRd && inst.rd != 0 then
    ({ inst with status := .normal }, { sim with regData := simCommit inst sim.regData })
  else ({ inst with status := .normal }, sim)

/-- One whole instruction. Unlike `simWB` this commits with only `writesRd` checked: the
slot of register 0 and the target of a faulting load are written too.
-/
def simInstruction (sim : Simulator) (pc : U64) : Instruction × Simulator :=
  let inst := simDecode (simFetch pc sim.memory)
  let inst := { inst with instructionID := sim.din }
  let sim := { sim with din := sim.din + 1 }
  if !inst.isLegal || inst.isHalt then (inst, sim)
  else
    let inst := simNextPCResolution (simOperandCollection inst sim.regData)
    let inst := if inst.doesArithLogic then simArithLogic inst else inst
    let (inst, memory) :=
      if inst.readsMem || inst.writesMem then simMemAccess (simAddrGen inst) sim.memory
      else (inst, sim.memory)
    let sim := { sim with memory := memory }
    let sim :=
      if inst.writesRd then { sim with regData := simCommit inst sim.regData } else sim
    (inst, sim)

end Simulator
end RiscvSim
