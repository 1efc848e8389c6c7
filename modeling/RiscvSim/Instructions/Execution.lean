import RiscvSim.Instructions.ControlSignals

/-! What an instruction computes is determined by its control part and its operands: the rest
of the record, which differs between the pipeline and sequential execution, plays no role.
-/

namespace RiscvSim

/-- The instruction has register `r` as its destination. -/
def Instruction.writes (inst : Instruction) (r : U64) : Bool :=
  !inst.isNop && inst.writesRd && inst.rd == r

theorem Instruction.writes_of_control {left right : Instruction}
    (same : left.control = right.control) (r : U64) : left.writes r = right.writes r := by
  have fields := Instruction.sameControl same
  simp [Instruction.writes, fields.isNop, fields.writesRd, fields.rd]

theorem Instruction.writesRd_of_writes {inst : Instruction} {r : U64}
    (writes : inst.writes r = true) : inst.writesRd = true := by
  simp only [Instruction.writes, Bool.and_eq_true] at writes
  exact writes.1.2

@[simp]
theorem writes_nop (status : StageStatus) (r : U64) : (nop status).writes r = false := rfl

/-- The operands `inst` reads are those of the register file, with register 0 as 0. -/
structure Instruction.Collected (inst : Instruction) (registers : Registers) : Prop where
  rs1 : inst.readsRs1 = true → inst.op1Val = registers.set 0 0 inst.rs1
  rs2 : inst.readsRs2 = true → inst.op2Val = registers.set 0 0 inst.rs2

theorem collected_simOperandCollection (inst : Instruction) (registers : Registers)
    : (simOperandCollection inst registers).Collected registers :=
  ⟨fun reads => by simp_all [simOperandCollection], fun reads => by simp_all [simOperandCollection]⟩

@[simp]
theorem simNextPCResolution_op1Val (inst : Instruction)
    : (simNextPCResolution inst).op1Val = inst.op1Val := by
  simp only [simNextPCResolution]
  split_ifs <;> rfl

@[simp]
theorem simNextPCResolution_op2Val (inst : Instruction)
    : (simNextPCResolution inst).op2Val = inst.op2Val := by
  simp only [simNextPCResolution]
  split_ifs <;> rfl

@[simp]
theorem simNextPCResolution_arithResult (inst : Instruction)
    : (simNextPCResolution inst).arithResult = inst.arithResult := by
  simp only [simNextPCResolution]
  split_ifs <;> rfl

@[simp]
theorem simNextPCResolution_memException (inst : Instruction)
    : (simNextPCResolution inst).memException = inst.memException := by
  simp only [simNextPCResolution]
  split_ifs <;> rfl

/-- Resolving the next PC leaves the operands alone. -/
theorem Instruction.Collected.simNextPCResolution {inst : Instruction} {registers : Registers}
    (h : inst.Collected registers) : (simNextPCResolution inst).Collected registers := by
  have fields := Instruction.sameControl (control_simNextPCResolution inst)
  constructor
  · intro reads
    rw [simNextPCResolution_op1Val, fields.rs1]
    exact h.rs1 (fields.readsRs1 ▸ reads)
  · intro reads
    rw [simNextPCResolution_op2Val, fields.rs2]
    exact h.rs2 (fields.readsRs2 ▸ reads)

namespace Instruction.HasKind

variable {inst : Instruction}

theorem branch_reads (h : inst.HasKind) (legal : inst.isLegal = true)
    (branch : inst.opcode = opBranch)
    : inst.readsRs1 = true ∧ inst.readsRs2 = true := by
  obtain ⟨kind, signals, opcodes⟩ := h
  cases kind <;>
    simp only [Instruction.signals, SignalKind.signals, Prod.mk.injEq, SignalKind.Opcodes, branch]
      at signals opcodes
  case branch => exact ⟨signals.2.2.2.2.2.2.2.1, signals.2.2.2.2.2.2.2.2⟩
  case illegal => simp [legal] at signals
  all_goals exact absurd opcodes (by decide)

theorem jalr_reads (h : inst.HasKind) (jalr : inst.opcode = opJalr)
    : inst.readsRs1 = true := by
  obtain ⟨kind, signals, opcodes⟩ := h
  cases kind <;>
    simp only [Instruction.signals, SignalKind.signals, Prod.mk.injEq, SignalKind.Opcodes, jalr]
      at signals opcodes
  case jalr => exact signals.2.2.2.2.2.2.2.1
  case illegal => exact absurd rfl opcodes.1
  all_goals exact absurd opcodes (by decide)

theorem jal_reads (h : inst.HasKind) (legal : inst.isLegal = true)
    (jal : inst.opcode = opJal)
    : inst.readsRs1 = false ∧ inst.readsRs2 = false := by
  obtain ⟨kind, signals, opcodes⟩ := h
  cases kind <;>
    simp only [Instruction.signals, SignalKind.signals, Prod.mk.injEq, SignalKind.Opcodes, jal]
      at signals opcodes
  case upper => exact ⟨signals.2.2.2.2.2.2.2.1, signals.2.2.2.2.2.2.2.2⟩
  case illegal => simp [legal] at signals
  all_goals exact absurd opcodes (by decide)

/-- The ALU reads its operands from the registers the decoder has marked. -/
theorem arith_reads (h : inst.HasKind) (arith : inst.doesArithLogic = true)
    : (inst.opcode = opInt ∨ inst.opcode = opIntW
        → inst.readsRs1 = true ∧ inst.readsRs2 = true)
      ∧ (inst.opcode = opIntImm ∨ inst.opcode = opIntImmW → inst.readsRs1 = true) := by
  obtain ⟨kind, signals, opcodes⟩ := h
  have apart : opJalr ≠ opInt ∧ opJalr ≠ opIntW ∧ opJalr ≠ opIntImm ∧ opJalr ≠ opIntImmW := by
    decide
  cases kind <;>
    simp only [Instruction.signals, SignalKind.signals, Prod.mk.injEq, SignalKind.Opcodes, arith]
      at signals opcodes
  case register => exact ⟨fun _ => ⟨signals.2.2.2.2.2.2.2.1, signals.2.2.2.2.2.2.2.2⟩,
    fun _ => signals.2.2.2.2.2.2.2.1⟩
  case immediate =>
    refine ⟨fun register => ?_, fun _ => signals.2.2.2.2.2.2.2.1⟩
    rcases opcodes with same | same <;> rw [same] at register <;>
      exact absurd register (by decide)
  case jalr =>
    rw [opcodes]
    exact ⟨fun wrong => absurd wrong (by decide), fun wrong => absurd wrong (by decide)⟩
  case upper =>
    rcases opcodes with same | same | same <;> rw [same] <;>
      exact ⟨fun wrong => absurd wrong (by decide), fun wrong => absurd wrong (by decide)⟩
  all_goals exact absurd signals.2.2.2.2.2.1 (by decide)

end Instruction.HasKind

/-- The first half: the shift amount is cut to its low bits. -/
def Instruction.maskShift (inst : Instruction) : Instruction :=
  if inst.opcode = opInt ∧ (inst.funct3 = funct3Sll ∨ inst.funct3 = funct3Sr) then
    { inst with op2Val := inst.op2Val &&& 0x3F }
  else if inst.opcode = opIntW ∧ (inst.funct3 = funct3Sll ∨ inst.funct3 = funct3Sr) then
    { inst with op2Val := inst.op2Val &&& 0x1F }
  else inst

/-- The second half: the result by opcode. -/
def aluResult (inst : Instruction) : U64 :=
  let imm20 := extractBits inst.instruction 31 12
  if inst.opcode = opInt then arithInt inst
  else if inst.opcode = opIntW then arithIntW inst
  else if inst.opcode = opIntImm then arithIntImm inst
  else if inst.opcode = opIntImmW then arithIntImmW inst
  else if inst.opcode = opJalr then inst.pc + 4
  else if inst.opcode = opAuipc then inst.pc + sext64 (imm20 <<< 12) 31
  else if inst.opcode = opLui then sext64 (imm20 <<< 12) 31
  else if inst.opcode = opJal then inst.pc + 4
  else inst.arithResult

@[simp]
theorem Instruction.control_maskShift (inst : Instruction)
    : inst.maskShift.control = inst.control := by
  unfold Instruction.maskShift
  split_ifs <;> rfl

theorem simArithLogic_arithResult (inst : Instruction)
    : (simArithLogic inst).arithResult = aluResult inst.maskShift := by
  have word : inst.maskShift.instruction = inst.instruction :=
    (Instruction.sameControl (Instruction.control_maskShift inst)).instruction
  rw [aluResult, word]
  rfl

@[simp]
theorem Instruction.maskShift_op1Val (inst : Instruction)
    : inst.maskShift.op1Val = inst.op1Val := by
  unfold Instruction.maskShift
  split_ifs <;> rfl

@[simp]
theorem Instruction.maskShift_arithResult (inst : Instruction)
    : inst.maskShift.arithResult = inst.arithResult := by
  unfold Instruction.maskShift
  split_ifs <;> rfl

/-- The ALU leaves the next PC alone. -/
theorem simArithLogic_nextPC (inst : Instruction)
    : (simArithLogic inst).nextPC = inst.nextPC := by
  have kept : inst.maskShift.nextPC = inst.nextPC := by
    unfold Instruction.maskShift
    split_ifs <;> rfl
  exact kept

theorem Instruction.maskShift_op2Val (inst : Instruction)
    : inst.maskShift.op2Val
      = if inst.opcode = opInt ∧ (inst.funct3 = funct3Sll ∨ inst.funct3 = funct3Sr) then
          inst.op2Val &&& 0x3F
        else if inst.opcode = opIntW ∧ (inst.funct3 = funct3Sll ∨ inst.funct3 = funct3Sr) then
          inst.op2Val &&& 0x1F
        else inst.op2Val := by
  unfold Instruction.maskShift
  split_ifs <;> rfl

theorem aluResult_congr {left right : Instruction} (same : left.control = right.control)
    (register
      : right.opcode = opInt ∨ right.opcode = opIntW
        → left.op1Val = right.op1Val ∧ left.op2Val = right.op2Val)
    (immediate
      : right.opcode = opIntImm ∨ right.opcode = opIntImmW → left.op1Val = right.op1Val)
    (initial : left.arithResult = right.arithResult)
    : aluResult left = aluResult right := by
  have fields := Instruction.sameControl same
  simp only [aluResult, fields.opcode, fields.instruction, fields.pc, initial]
  by_cases int : right.opcode = opInt
  · obtain ⟨op1, op2⟩ := register (.inl int)
    simp only [if_pos int, arithInt, fields.instruction, fields.funct3, fields.funct7, op1, op2,
      initial]
  rw [if_neg int, if_neg int]
  by_cases intW : right.opcode = opIntW
  · obtain ⟨op1, op2⟩ := register (.inr intW)
    simp only [if_pos intW, arithIntW, fields.instruction, fields.funct3, fields.funct7, op1, op2,
      initial]
  rw [if_neg intW, if_neg intW]
  by_cases intImm : right.opcode = opIntImm
  · simp only [if_pos intImm, arithIntImm, fields.instruction, fields.funct3,
      immediate (.inl intImm), initial]
  rw [if_neg intImm, if_neg intImm]
  by_cases intImmW : right.opcode = opIntImmW
  · simp only [if_pos intImmW, arithIntImmW, fields.instruction, fields.funct3,
      immediate (.inr intImmW), initial]
  rw [if_neg intImmW, if_neg intImmW]

section SameOperands

variable {left right : Instruction} {registers : Registers}
  (same : left.control = right.control)
  (leftOperands : left.Collected registers) (rightOperands : right.Collected registers)
include same leftOperands rightOperands

theorem op1Val_of_collected (reads : right.readsRs1 = true) : left.op1Val = right.op1Val := by
  have fields := Instruction.sameControl same
  rw [leftOperands.rs1 (fields.readsRs1.trans reads), rightOperands.rs1 reads, fields.rs1]

theorem op2Val_of_collected (reads : right.readsRs2 = true) : left.op2Val = right.op2Val := by
  have fields := Instruction.sameControl same
  rw [leftOperands.rs2 (fields.readsRs2.trans reads), rightOperands.rs2 reads, fields.rs2]

theorem nextPC_of_collected (kind : right.HasKind)
    : (simNextPCResolution left).nextPC = (simNextPCResolution right).nextPC := by
  have fields := Instruction.sameControl same
  cases legal : right.isLegal with
  | false =>
      rw [(kind.of_control same).illegal_fallthrough (fields.isLegal.trans legal),
        kind.illegal_fallthrough legal, fields.pc]
  | true =>
      simp only [simNextPCResolution, fields.opcode, fields.pc, fields.instruction, fields.rd,
        fields.funct7]
      by_cases jalr : right.opcode = opJalr
      · simp only [if_pos jalr,
          op1Val_of_collected same leftOperands rightOperands (kind.jalr_reads jalr)]
      rw [if_neg jalr, if_neg jalr]
      by_cases branch : right.opcode = opBranch
      · obtain ⟨reads1, reads2⟩ := kind.branch_reads legal branch
        simp only [if_pos branch, branchCondition, fields.funct3,
          op1Val_of_collected same leftOperands rightOperands reads1,
          op2Val_of_collected same leftOperands rightOperands reads2]
        rfl
      rw [if_neg branch, if_neg branch]
      split <;> rfl

theorem arithResult_of_collected (kind : right.HasKind) (arith : right.doesArithLogic = true)
    (initial : left.arithResult = right.arithResult)
    : (simArithLogic left).arithResult = (simArithLogic right).arithResult := by
  obtain ⟨register, immediate⟩ := kind.arith_reads arith
  have masked : left.maskShift.control = right.maskShift.control := by simp [same]
  have opcode : right.maskShift.opcode = right.opcode :=
    (Instruction.sameControl (Instruction.control_maskShift right)).opcode
  rw [simArithLogic_arithResult, simArithLogic_arithResult]
  refine aluResult_congr masked (fun alu => ⟨?_, ?_⟩) (fun alu => ?_) (by simpa using initial)
  · rw [opcode] at alu
    simpa using op1Val_of_collected same leftOperands rightOperands (register alu).1
  · rw [opcode] at alu
    have op2 := op2Val_of_collected same leftOperands rightOperands (register alu).2
    have fields := Instruction.sameControl same
    simp only [Instruction.maskShift_op2Val, fields.opcode, fields.funct3, op2]
  · rw [opcode] at alu
    simpa using op1Val_of_collected same leftOperands rightOperands (immediate alu)

/-- The address of a load or store, and the data of a store. -/
theorem simAddrGen_of_collected (kind : right.HasKind)
    (access : right.readsMem = true ∨ right.writesMem = true)
    : (simAddrGen left).memAddress = (simAddrGen right).memAddress
      ∧ (right.writesMem = true → (simAddrGen left).op2Val = (simAddrGen right).op2Val) := by
  have fields := Instruction.sameControl same
  cases reads : right.readsMem with
  | true =>
      have signals := kind.load reads
      have op1 := op1Val_of_collected same leftOperands rightOperands signals.readsRs1
      simp [simAddrGen, fields.readsMem, fields.instruction, reads, op1, signals.writesMem]
  | false =>
      have writes : right.writesMem = true := by simpa [reads] using access
      have signals := kind.store writes
      have op1 := op1Val_of_collected same leftOperands rightOperands signals.readsRs1
      have op2 := op2Val_of_collected same leftOperands rightOperands signals.readsRs2
      simp [simAddrGen, fields.readsMem, fields.writesMem, fields.rd, fields.funct7, reads, writes,
        op1, op2]

/-- The access of a load or store reads and writes the same. -/
theorem simMemAccess_of_collected (kind : right.HasKind) (mem : MemoryStore)
    (sound : left.memException = right.memException)
    : (simMemAccess (simAddrGen left) mem).2 = (simMemAccess (simAddrGen right) mem).2
      ∧ (simMemAccess (simAddrGen left) mem).1.memException
        = (simMemAccess (simAddrGen right) mem).1.memException
      ∧ (right.readsMem = true
        → (simMemAccess (simAddrGen right) mem).1.memException = false
        → (simMemAccess (simAddrGen left) mem).1.memResult
          = (simMemAccess (simAddrGen right) mem).1.memResult) := by
  have generated : (simAddrGen left).control = (simAddrGen right).control := by simp [same]
  have fields := Instruction.sameControl generated
  have original := Instruction.sameControl (control_simAddrGen right)
  have size : accessSize (simAddrGen left) = accessSize (simAddrGen right) := by
    simp only [accessSize, fields.funct3]
  simp only [simMemAccess, fields.readsMem, fields.writesMem, fields.funct3, size,
    original.readsMem, original.writesMem]
  cases reads : right.readsMem with
  | true =>
      have address := (simAddrGen_of_collected same leftOperands rightOperands kind
        (.inl reads)).1
      simp only [address, if_true]
      split
      · simp
      · split <;> simp [sound]
  | false =>
      cases writes : right.writesMem with
      | true =>
          obtain ⟨address, data⟩ := simAddrGen_of_collected same leftOperands rightOperands kind
            (.inr writes)
          simp only [address, data writes, Bool.false_eq_true, if_false, if_true]
          split <;> simp [sound]
      | false => simp [sound]

end SameOperands

-----------------------------------------------------------------------------------------
-- What MEM does to memory
-----------------------------------------------------------------------------------------

/-- The address of an access depends on the control part and the base register only. -/
theorem memAddress_congr {left right : Instruction} (same : left.control = right.control)
    (base : left.op1Val = right.op1Val)
    (access : right.readsMem = true ∨ right.writesMem = true)
    : (simAddrGen left).memAddress = (simAddrGen right).memAddress := by
  have fields := Instruction.sameControl same
  cases reads : right.readsMem with
  | true => simp [simAddrGen, fields.readsMem, fields.instruction, reads, base]
  | false =>
      have writes : right.writesMem = true := by simpa [reads] using access
      simp [simAddrGen, fields.readsMem, fields.writesMem, fields.rd, fields.funct7, reads, writes,
        base]

section MEM

variable (sim : Simulator) {inst : Instruction} (legal : inst.isLegal = true)
  (sound : inst.memException = false)
include legal sound

/-- A load or store generates its address and accesses memory there. -/
theorem simMEM_access (access : inst.readsMem = true ∨ inst.writesMem = true)
    : sim.simMEM inst
      = ({ (simMemAccess (simAddrGen inst) sim.memory).1 with status := .normal },
        { sim with memory := (simMemAccess (simAddrGen inst) sim.memory).2 }) := by
  have guard : (inst.readsMem || inst.writesMem) = true := by simpa using access
  simp only [Simulator.simMEM, legal, sound, guard, Bool.not_true, Bool.or_self,
    Bool.false_eq_true, if_false, if_true]

/-- A load leaves the simulator as it is, and faults if its address cannot be read. -/
theorem simMEM_load (reads : inst.readsMem = true)
    : (sim.simMEM inst).2 = sim
      ∧ ((sim.simMEM inst).1.memException = false
        ↔ (sim.memory.getMemValue (simAddrGen inst).memAddress (accessSize inst)).1 = 0) := by
  have fields := Instruction.sameControl (control_simAddrGen inst)
  have size : accessSize (simAddrGen inst) = accessSize inst := by
    simp only [accessSize, fields.funct3]
  simp only [Simulator.simMEM, legal, sound, reads, Bool.not_true, Bool.or_self, Bool.true_or,
    Bool.false_eq_true, if_false, if_true, simMemAccess, fields.readsMem, size]
  by_cases readable
    : (sim.memory.getMemValue (simAddrGen inst).memAddress (accessSize inst)).1 = 0
  · simp only [readable, ne_eq, not_true_eq_false, if_false]
    split <;> simp [sound]
  · simp [readable]

/-- A store changes memory as `setMemValue` does, and faults if that fails. -/
theorem simMEM_store (noLoad : inst.readsMem = false) (writes : inst.writesMem = true)
    : (sim.simMEM inst).2
        = { sim with memory :=
            (sim.memory.setMemValue (simAddrGen inst).memAddress inst.op2Val
              (accessSize inst)).2 }
      ∧ ((sim.simMEM inst).1.memException = false
        ↔ (sim.memory.setMemValue (simAddrGen inst).memAddress inst.op2Val
            (accessSize inst)).1 = 0) := by
  have fields := Instruction.sameControl (control_simAddrGen inst)
  have size : accessSize (simAddrGen inst) = accessSize inst := by
    simp only [accessSize, fields.funct3]
  have data : (simAddrGen inst).op2Val = inst.op2Val := by
    simp only [simAddrGen]
    split_ifs <;> rfl
  simp only [Simulator.simMEM, legal, sound, noLoad, writes, Bool.not_true, Bool.or_self,
    Bool.or_true, Bool.false_eq_true, if_false, if_true, simMemAccess, fields.readsMem,
    fields.writesMem, size, data]
  split <;> simp_all

theorem simMEM_other (noLoad : inst.readsMem = false) (noStore : inst.writesMem = false)
    : (sim.simMEM inst).2 = sim ∧ (sim.simMEM inst).1.memException = false := by
  simp [Simulator.simMEM, legal, sound, noLoad, noStore]

end MEM

end RiscvSim
