import Mathlib.Data.BitVec

/-! Machine words, encoding constants and bit helpers shared by both simulators. -/

namespace RiscvSim

/-- The `uint64_t` of the source. -/
abbrev U64 := BitVec 64

/-- The result of a simulator call. -/
inductive Status
  | success
  | error
  | halt
  deriving DecidableEq, Repr

/-- The marking a pipeline register carries for the trace. -/
inductive StageStatus
  | normal
  | bubble
  | idle
  | speculative
  | squashed
  deriving DecidableEq, Repr

def opInt : U64 := 0b0110011
def opIntW : U64 := 0b0111011
def opLoad : U64 := 0b0000011
def opIntImm : U64 := 0b0010011
def opIntImmW : U64 := 0b0011011
def opJalr : U64 := 0b1100111
def opStore : U64 := 0b0100011
def opBranch : U64 := 0b1100011
def opAuipc : U64 := 0b0010111
def opLui : U64 := 0b0110111
def opJal : U64 := 0b1101111

def funct3Add : U64 := 0b000
def funct3Sll : U64 := 0b001
def funct3Slt : U64 := 0b010
def funct3Sltu : U64 := 0b011
def funct3Xor : U64 := 0b100
def funct3Sr : U64 := 0b101
def funct3Or : U64 := 0b110
def funct3And : U64 := 0b111

def funct3B : U64 := 0b000
def funct3H : U64 := 0b001
def funct3W : U64 := 0b010
def funct3D : U64 := 0b011
def funct3Bu : U64 := 0b100
def funct3Hu : U64 := 0b101
def funct3Wu : U64 := 0b110

def funct3Beq : U64 := 0b000
def funct3Bne : U64 := 0b001
def funct3Blt : U64 := 0b100
def funct3Bge : U64 := 0b101
def funct3Bltu : U64 := 0b110
def funct3Bgeu : U64 := 0b111

def funct7Add : U64 := 0b0000000
def funct7Sub : U64 := 0b0100000
def funct7Logical : U64 := 0b0000000
def funct7Arith : U64 := 0b0100000

def upperImmLogical : U64 := 0b000000
def upperImmArith : U64 := 0b010000

/-- The word that halts both simulators. -/
def haltWord : U64 := 0xfeedfeed

/-- `addi x0, x0, 0`, the canonical no-operation. -/
def nopWord : U64 := 0x00000013

/-- The address a trap fetches from. -/
def exceptionHandler : U64 := 0x8000

/-- Bits `stop` to `start` of an instruction word, moved down to bit 0. The source builds
the mask in an `int`; every caller extracts fewer than 31 bits.
-/
def extractBits (instruction : U64) (start stop : Nat) : U64 :=
  let bitsToExtract := start - stop + 1
  let mask : U64 := (1#64 <<< bitsToExtract) - 1
  let clipped := instruction >>> stop
  clipped &&& mask

/-- Sign extension of `imm` to 32 bits from bit `signBit`. -/
def sext32 (imm : BitVec 32) (signBit : Nat) : BitVec 32 :=
  if imm &&& (1#32 <<< signBit) ≠ 0 then imm ||| (BitVec.allOnes 32 <<< (signBit + 1)) else imm

/-- Sign extension of `imm` to 64 bits from bit `signBit`. -/
def sext64 (imm : U64) (signBit : Nat) : U64 :=
  if imm &&& (1#64 <<< signBit) ≠ 0 then imm ||| (BitVec.allOnes 64 <<< (signBit + 1)) else imm

end RiscvSim
