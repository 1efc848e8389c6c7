import RiscvSim.Source.Simulator

/-! `simDecode` and `simArithLogic` with the shifts of the source checked: a shift whose
amount reaches the width of its operand is undefined there and has no value here.
-/

namespace RiscvSim

def shiftLeft? {w : ℕ} (operand : BitVec w) (amount : ℕ) : Option (BitVec w) :=
  if amount < w then some (operand <<< amount) else none

def shiftRight? {w : ℕ} (operand : BitVec w) (amount : ℕ) : Option (BitVec w) :=
  if amount < w then some (operand >>> amount) else none

/-- The right shift of a signed operand. -/
def sshiftRight? {w : ℕ} (operand : BitVec w) (amount : ℕ) : Option (BitVec w) :=
  if amount < w then some (operand.sshiftRight amount) else none

/-- The mask is built in an `int` and widened with its sign. -/
def extractBits? (instruction : U64) (start stop : ℕ) : Option U64 := do
  let bit ← shiftLeft? (1 : BitVec 32) (start - stop + 1)
  let mask : U64 := (bit - 1).signExtend 64
  let clipped ← shiftRight? instruction stop
  return clipped &&& mask

def sext32? (imm : BitVec 32) (signBit : ℕ) : Option (BitVec 32) := do
  let bit ← shiftLeft? (1 : BitVec 32) signBit
  if imm &&& bit ≠ 0 then
    let fill ← shiftLeft? (BitVec.allOnes 32) (signBit + 1)
    return imm ||| fill
  else
    return imm

def sext64? (imm : U64) (signBit : ℕ) : Option U64 := do
  let bit ← shiftLeft? (1 : U64) signBit
  if imm &&& bit ≠ 0 then
    let fill ← shiftLeft? (BitVec.allOnes 64) (signBit + 1)
    return imm ||| fill
  else
    return imm

/-- The shifts in the switch are all by one bit. -/
def simDecode? (inst : Instruction) : Option Instruction := do
  let opcode ← extractBits? inst.instruction 6 0
  let rd ← extractBits? inst.instruction 11 7
  let funct3 ← extractBits? inst.instruction 14 12
  let rs1 ← extractBits? inst.instruction 19 15
  let rs2 ← extractBits? inst.instruction 24 20
  let funct7 ← extractBits? inst.instruction 31 25
  return decodeSignals { inst with
    opcode := opcode, rd := rd, funct3 := funct3, rs1 := rs1, rs2 := rs2, funct7 := funct7
    isLegal := true }

def arithInt? (inst : Instruction) (upperImm12 : U64) : Option U64 :=
  if inst.funct3 = funct3Add then
    if inst.funct7 = funct7Add then some (inst.op1Val + inst.op2Val)
    else if inst.funct7 = funct7Sub then some (inst.op1Val - inst.op2Val)
    else some inst.arithResult
  else if inst.funct3 = funct3Sll then shiftLeft? inst.op1Val inst.op2Val.toNat
  else if inst.funct3 = funct3Slt then some (ofBool (inst.op1Val.slt inst.op2Val))
  else if inst.funct3 = funct3Sltu then some (ofBool (inst.op1Val.ult inst.op2Val))
  else if inst.funct3 = funct3Xor then some (inst.op1Val ^^^ inst.op2Val)
  else if inst.funct3 = funct3Sr then
    if upperImm12 = funct7Logical then shiftRight? inst.op1Val inst.op2Val.toNat
    else if upperImm12 = upperImmArith then sshiftRight? inst.op1Val inst.op2Val.toNat
    else some inst.arithResult
  else if inst.funct3 = funct3Or then some (inst.op1Val ||| inst.op2Val)
  else if inst.funct3 = funct3And then some (inst.op1Val &&& inst.op2Val)
  else some inst.arithResult

def arithIntW? (inst : Instruction) (upperImm12 : U64) : Option U64 :=
  let a : BitVec 32 := inst.op1Val.setWidth 32
  let b : BitVec 32 := inst.op2Val.setWidth 32
  if inst.funct3 = funct3Add then
    if inst.funct7 = funct7Add then sext64? ((a + b).setWidth 64) 31
    else if inst.funct7 = funct7Sub then sext64? ((a - b).setWidth 64) 31
    else some inst.arithResult
  else if inst.funct3 = funct3Sll then do
    let shifted ← shiftLeft? a b.toNat
    sext64? (shifted.setWidth 64) 31
  else if inst.funct3 = funct3Sr then
    if upperImm12 = funct7Logical then do
      let shifted ← shiftRight? a b.toNat
      sext64? (shifted.setWidth 64) 31
    else if upperImm12 = upperImmArith then do
      let shifted ← sshiftRight? a b.toNat
      sext64? (shifted.signExtend 64) 31
    else some inst.arithResult
  else some inst.arithResult

def arithIntImm? (inst : Instruction) (imm12 upperImm12 : U64) : Option U64 :=
  let shamt := (imm12 &&& 0x3F).toNat
  if inst.funct3 = funct3Add then do
    return inst.op1Val + (← sext64? imm12 11)
  else if inst.funct3 = funct3Sll then shiftLeft? inst.op1Val shamt
  else if inst.funct3 = funct3Slt then do
    return ofBool (inst.op1Val.slt (← sext64? imm12 11))
  else if inst.funct3 = funct3Sltu then do
    return ofBool (inst.op1Val.ult (← sext64? imm12 11))
  else if inst.funct3 = funct3Xor then do
    return inst.op1Val ^^^ (← sext64? imm12 11)
  else if inst.funct3 = funct3Sr then
    if upperImm12 = upperImmLogical then shiftRight? inst.op1Val shamt
    else if upperImm12 = upperImmArith then sshiftRight? inst.op1Val shamt
    else some inst.arithResult
  else if inst.funct3 = funct3Or then do
    return inst.op1Val ||| (← sext64? imm12 11)
  else if inst.funct3 = funct3And then do
    return inst.op1Val &&& (← sext64? imm12 11)
  else some inst.arithResult

def arithIntImmW? (inst : Instruction) (imm12 upperImm12 : U64) : Option U64 :=
  let a : BitVec 32 := inst.op1Val.setWidth 32
  let shamt : BitVec 32 := (imm12 &&& 0x1F).setWidth 32
  if inst.funct3 = funct3Add then do
    let imm ← sext32? (imm12.setWidth 32) 11
    sext64? ((a + imm).setWidth 64) 31
  else if inst.funct3 = funct3Sll then do
    let shifted ← shiftLeft? a shamt.toNat
    sext64? (shifted.setWidth 64) 31
  else if inst.funct3 = funct3Sr then
    if upperImm12 = upperImmLogical then do
      let shifted ← shiftRight? a shamt.toNat
      sext64? (shifted.setWidth 64) 31
    else if upperImm12 = upperImmArith then do
      let shifted ← sshiftRight? a shamt.toNat
      sext64? (shifted.signExtend 64) 31
    else some inst.arithResult
  else some inst.arithResult

/-- The operand of LUI and AUIPC: `sext64(imm20 << 12, 31)`. -/
def upperImm? (imm20 : U64) : Option U64 := do
  let upper ← shiftLeft? imm20 12
  sext64? upper 31

/-- The switch over the opcode, on the masked operands. -/
def arithResult? (inst : Instruction) (imm12 upperImm12 imm20 : U64) : Option U64 :=
  if inst.opcode = opInt then arithInt? inst upperImm12
  else if inst.opcode = opIntW then arithIntW? inst upperImm12
  else if inst.opcode = opIntImm then arithIntImm? inst imm12 upperImm12
  else if inst.opcode = opIntImmW then arithIntImmW? inst imm12 upperImm12
  else if inst.opcode = opJalr then some (inst.pc + 4)
  else if inst.opcode = opAuipc then (upperImm? imm20).map (inst.pc + ·)
  else if inst.opcode = opLui then upperImm? imm20
  else if inst.opcode = opJal then some (inst.pc + 4)
  else some inst.arithResult

def simArithLogic? (inst : Instruction) : Option Instruction := do
  let imm12 ← extractBits? inst.instruction 31 20
  let upperImm12 ← extractBits? inst.instruction 31 26
  let imm20 ← extractBits? inst.instruction 31 12
  let inst :=
    if inst.opcode = opInt ∧ (inst.funct3 = funct3Sll ∨ inst.funct3 = funct3Sr) then
      { inst with op2Val := inst.op2Val &&& 0x3F }
    else if inst.opcode = opIntW ∧ (inst.funct3 = funct3Sll ∨ inst.funct3 = funct3Sr) then
      { inst with op2Val := inst.op2Val &&& 0x1F }
    else inst
  let arithResult ← arithResult? inst imm12 upperImm12 imm20
  return { inst with arithResult := arithResult }

end RiscvSim
