import RiscvSim.Source.Cycle

/-! What the simulator reports: the pipe-state line with its disassembled instructions, and
the statistics.
-/

namespace RiscvSim

def regNames : List String :=
  ["zero", "ra", "sp", "gp", "tp", "t0", "t1", "t2", "s0", "s1", "a0", "a1", "a2", "a3", "a4",
    "a5", "a6", "a7", "s2", "s3", "s4", "s5", "s6", "s7", "s8", "s9", "s10", "s11", "t3", "t4",
    "t5", "t6"]

/-- `regNames[r]`. -/
def regName (r : U64) : String := regNames.getD r.toNat ""

/-- `stageStatusStr`. -/
def StageStatus.str : StageStatus → String
  | .bubble => " (bubble) "
  | .idle => " (idle) "
  | .normal => " "
  | .speculative => " (spcu) "
  | .squashed => " (squashed) "

-----------------------------------------------------------------------------------------
-- The names of the instructions
-----------------------------------------------------------------------------------------

/-- The switch that `OP_INTIMM` and `OP_INT` share. In this and the next three, `none` is
`return "ILLEGAL"`.
-/
def intBody (opcode funct3 funct7 : U64) : Option String :=
  if funct3 = funct3Add then
    if opcode = opInt then
      if funct7 = funct7Add then some "add"
      else if funct7 = funct7Sub then some "sub"
      else none
    else some "add"
  else if funct3 = funct3Sll then some "sll"
  else if funct3 = funct3Slt then some "slt"
  else if funct3 = funct3Sltu then some "sltu"
  else if funct3 = funct3Xor then some "xor"
  else if funct3 = funct3Sr then
    if funct7.ushiftRight 1 = upperImmLogical then some "srl"
    else if funct7.ushiftRight 1 = upperImmArith then some "sra"
    else none
  else if funct3 = funct3Or then some "or"
  else if funct3 = funct3And then some "and"
  else none

/-- The switch that `OP_INTIMMW` and `OP_INTW` share. -/
def intWBody (funct3 funct7 : U64) : Option String :=
  if funct3 = funct3Add then
    if funct7 = funct7Add then some "add"
    else if funct7 = funct7Sub then some "sub"
    else none
  else if funct3 = funct3Sll then some "sll"
  else if funct3 = funct3Sr then
    if funct7 = funct7Logical then some "srl"
    else if funct7 = funct7Arith then some "sra"
    else none
  else none

def loadBody (funct3 : U64) : Option String :=
  if funct3 = funct3B then some "b"
  else if funct3 = funct3H then some "h"
  else if funct3 = funct3W then some "w"
  else if funct3 = funct3D then some "d"
  else if funct3 = funct3Bu then some "bu"
  else if funct3 = funct3Hu then some "hu"
  else if funct3 = funct3Wu then some "wu"
  else none

def storeBody (funct3 : U64) : Option String :=
  if funct3 = funct3B then some "b"
  else if funct3 = funct3H then some "h"
  else if funct3 = funct3W then some "w"
  else if funct3 = funct3D then some "d"
  else none

def branchBody (funct3 : U64) : Option String :=
  if funct3 = funct3Beq then some "eq"
  else if funct3 = funct3Bne then some "ne"
  else if funct3 = funct3Blt then some "lt"
  else if funct3 = funct3Bge then some "ge"
  else if funct3 = funct3Bltu then some "ltu"
  else if funct3 = funct3Bgeu then some "geu"
  else none

/-- The name a switch has put together. -/
def opName (front suffix : String) (body : Option String) : String :=
  match body with
  | some body => front ++ body ++ suffix
  | none => "ILLEGAL"

def getOpString (opcode funct3 funct7 : U64) : String :=
  if opcode = opIntImm then opName "" "i" (intBody opcode funct3 funct7)
  else if opcode = opInt then opName "" "" (intBody opcode funct3 funct7)
  else if opcode = opIntImmW then opName "" "iw" (intWBody funct3 funct7)
  else if opcode = opIntW then opName "" "w" (intWBody funct3 funct7)
  else if opcode = opLoad then opName "l" "" (loadBody funct3)
  else if opcode = opStore then opName "s" "" (storeBody funct3)
  else if opcode = opBranch then opName "b" "" (branchBody funct3)
  else if opcode = opJal then "jal"
  else if opcode = opJalr then "jalr"
  else if opcode = opLui then "lui"
  else if opcode = opAuipc then "auipc"
  else "ILLEGAL"

-----------------------------------------------------------------------------------------
-- The immediates of the trace
-----------------------------------------------------------------------------------------

/-- The number `handleIAndR` streams for an I-type instruction: the field of a shift is
unsigned, every other immediate an `int64_t`.
-/
def iAndRImm (curInst : U64) : ℤ :=
  let funct3 := extractBits curInst 14 12
  let imm12 := extractBits curInst 31 20
  let sextImm12 := sext64 imm12 11
  if funct3 = funct3Sll ∨ funct3 = funct3Sr then ((imm12 &&& 0x3F).toNat : ℤ)
  else sextImm12.toInt

/-- The number `handleLAndS` streams. -/
def lAndSImm (curInst : U64) : ℤ :=
  let opcode := extractBits curInst 6 0
  let imm5 := extractBits curInst 11 7
  let imm7 := extractBits curInst 31 25
  let imm12 := extractBits curInst 31 20
  let sextImm12 := sext64 imm12 11
  let storeImm := sext64 ((imm7 <<< 5) ||| imm5) 11
  if opcode = opLoad then sextImm12.toInt else storeImm.toInt

/-- The number `handleBranch` streams. -/
def branchImm (curInst : U64) : ℤ :=
  let imm7 := extractBits curInst 31 25
  let imm5 := extractBits curInst 11 7
  (sext64
    (extractBits imm7 6 6 <<< 12 ||| extractBits imm7 5 0 <<< 5
      ||| extractBits imm5 4 1 <<< 1 ||| extractBits imm5 0 0 <<< 11) 12).toInt

/-- The number `handleSpecial` streams. -/
def specialImm (curInst : U64) : ℤ :=
  let opcode := extractBits curInst 6 0
  let imm20 := extractBits curInst 31 12
  let sextUpper := sext64 (imm20 <<< 12) 19
  let jalImm := sext64
    (extractBits imm20 19 19 <<< 20 ||| extractBits imm20 18 9 <<< 1
      ||| extractBits imm20 8 8 <<< 11 ||| extractBits imm20 7 0 <<< 12) 20
  if opcode = opJal then jalImm.toInt else sextUpper.toInt

-----------------------------------------------------------------------------------------
-- The text of an instruction
-----------------------------------------------------------------------------------------

/-- What `handleIAndR` writes. -/
def handleIAndR (curInst : U64) : String :=
  let opcode := extractBits curInst 6 0
  let rd := extractBits curInst 11 7
  let funct3 := extractBits curInst 14 12
  let rs1 := extractBits curInst 19 15
  let rs2 := extractBits curInst 24 20
  let funct7 := extractBits curInst 31 25
  let opcodeStr := getOpString opcode funct3 funct7
  if opcodeStr = "ILLEGAL" then " ILLEGAL"
  else if opcode = opInt ∨ opcode = opIntW then
    " " ++ opcodeStr ++ " " ++ regName rd ++ ", " ++ regName rs1 ++ ", " ++ regName rs2
  else
    " " ++ opcodeStr ++ " " ++ regName rd ++ ", " ++ regName rs1 ++ ", "
      ++ toString (iAndRImm curInst)

/-- What `handleLAndS` writes. -/
def handleLAndS (curInst : U64) : String :=
  let opcode := extractBits curInst 6 0
  let rd := extractBits curInst 11 7
  let funct3 := extractBits curInst 14 12
  let rs1 := extractBits curInst 19 15
  let rs2 := extractBits curInst 24 20
  let opcodeStr := getOpString opcode funct3 0
  if opcodeStr = "ILLEGAL" then " ILLEGAL"
  else if opcode = opLoad then
    " " ++ opcodeStr ++ " " ++ regName rd ++ ", " ++ toString (lAndSImm curInst)
      ++ "(" ++ regName rs1 ++ ")"
  else
    " " ++ opcodeStr ++ " " ++ regName rs2 ++ ", " ++ toString (lAndSImm curInst)
      ++ "(" ++ regName rs1 ++ ")"

/-- What `handleBranch` writes. -/
def handleBranch (curInst : U64) : String :=
  let opcode := extractBits curInst 6 0
  let rs1 := extractBits curInst 19 15
  let rs2 := extractBits curInst 24 20
  let funct3 := extractBits curInst 14 12
  let opcodeStr := getOpString opcode funct3 0
  if opcodeStr = "ILLEGAL" then " ILLEGAL"
  else
    " " ++ opcodeStr ++ " " ++ regName rs1 ++ ", " ++ regName rs2 ++ ", "
      ++ toString (branchImm curInst)

/-- What `handleSpecial` writes. -/
def handleSpecial (curInst : U64) : String :=
  let opcode := extractBits curInst 6 0
  let rd := extractBits curInst 11 7
  let opcodeStr := getOpString opcode 0 0
  if opcodeStr = "ILLEGAL" then " ILLEGAL"
  else " " ++ opcodeStr ++ " " ++ regName rd ++ ", " ++ toString (specialImm curInst)

/-- `std::left << std::setw(width)` before a text. -/
def setwLeft (width : ℕ) (text : String) : String :=
  text ++ String.ofList (List.replicate (width - text.length) ' ')

/-- What `printInstr` writes for the word in a latch. -/
def printInstr (curInst : BitVec 32) (status : StageStatus) : String :=
  let word := curInst.setWidth 64
  let opcode := extractBits word 6 0
  if curInst = 0xfeedfeed then setwLeft 25 (" HALT" ++ status.str)
  else if curInst = 0x00000013 then setwLeft 25 (" NOP" ++ status.str)
  else
    let text :=
      if opcode = opInt ∨ opcode = opIntW ∨ opcode = opIntImm ∨ opcode = opIntImmW
          ∨ opcode = opJalr then handleIAndR word
      else if opcode = opLoad ∨ opcode = opStore then handleLAndS word
      else if opcode = opBranch then handleBranch word
      else if opcode = opJal ∨ opcode = opLui ∨ opcode = opAuipc then handleSpecial word
      else " ILLEGAL"
    setwLeft 25 (text ++ status.str)

-----------------------------------------------------------------------------------------
-- The state and the statistics
-----------------------------------------------------------------------------------------

/-- The record behind a line of the pipe-state dump. -/
structure PipeState where
  cycle : U64
  ifStatus : StageStatus
  ifPC : U64
  idStatus : StageStatus
  idInstr : U64
  exStatus : StageStatus
  exInstr : U64
  memStatus : StageStatus
  memInstr : U64
  wbStatus : StageStatus
  wbInstr : U64

structure SimulationStats where
  dynamicInstructions : U64
  totalCycles : U64
  icHits : U64
  icMisses : U64
  dcHits : U64
  dcMisses : U64
  loadUseStalls : U64

namespace CycleState

/-- What `runCycles` dumps when it returns. -/
def pipeState {κ : Type} (s : CycleState κ) : PipeState where
  cycle := if s.cycleCount = 0 then 0 else s.cycleCount - 1
  ifStatus := s.ifInst.status
  ifPC := s.ifInst.pc
  idStatus := s.idInst.status
  idInstr := s.idInst.instruction
  exStatus := s.exInst.status
  exInstr := s.exInst.instruction
  memStatus := s.memInst.status
  memInstr := s.memInst.instruction
  wbStatus := s.wbInst.status
  wbInstr := s.wbInst.instruction

/-- What `finalizeSimulator` dumps besides registers and memory. -/
def simulationStats (s : CycleState Cache) : SimulationStats where
  dynamicInstructions := s.dynRetired
  totalCycles := s.cycleCount
  icHits := s.iCache.hits
  icMisses := s.iCache.misses
  dcHits := s.dCache.hits
  dcMisses := s.dCache.misses
  loadUseStalls := s.loadUseStallCount

end CycleState
end RiscvSim
