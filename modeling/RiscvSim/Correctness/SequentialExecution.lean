import RiscvSim.Correctness.ProgramOrder
import RiscvSim.Instructions.Sequential
import RiscvSim.Pipeline.Halting

/-! The pipeline follows sequential execution of the image: after `c` retired instructions,
each stage works on the state of sequential execution that its place in the order gives it.
This holds up to HALT while every operand is forwarded.
-/

namespace RiscvSim

/-- Every source register. -/
def Sources.all : Sources where
  rs1 _ := true
  rs2 _ := true

/-- The word fetched from `pc`; 0 if the fetch faults. -/
def MemoryStore.word (mem : MemoryStore) (pc : U64) : U64 := (simFetch pc mem).instruction

/-- `inst` in EX is the instruction of `a` with its operands and its ALU result. -/
structure Instruction.Executes (image : MemoryStore) (a : FunctState) (inst : Instruction)
    : Prop where
  control : inst.control = (a.decodedFrom image).control
  result
    : inst.doesArithLogic = true → inst.arithResult = (a.executedFrom image).arithResult
  base
    : inst.readsMem = true ∨ inst.writesMem = true
      → inst.op1Val = a.simulator.regData.set 0 0 inst.rs1
  zero : inst.writesMem = true → inst.rs2 = 0 → inst.op2Val = 0

theorem simFetch_pc (pc : U64) (mem : MemoryStore) : (simFetch pc mem).pc = pc := by
  simp only [simFetch]
  split <;> rfl

/-- A fetched instruction with the image's word is decoded as the image's. -/
theorem Instruction.Fetched.decodedFrom {inst : Instruction} (h : inst.Fetched)
    {image : MemoryStore} {a : FunctState} (here : inst.pc = a.pc)
    (word : inst.instruction = image.word a.pc)
    : (simDecode inst).control = (a.decodedFrom image).control := by
  rw [FunctState.decodedFrom, h.control_simDecode_eq,
    (fetched_simFetch a.pc image).control_simDecode_eq, simFetch_pc, here, word]
  rfl

namespace CycleState

variable {κ : Type} {s : CycleState κ}

theorem OperandInv.of_all (h : s.OperandInv .all) (which : Sources) : s.OperandInv which where
  committed := h.committed
  operands :=
    ⟨fun _ reads nonzero => h.operands.rs1 rfl reads nonzero,
      fun _ reads nonzero => h.operands.rs2 rfl reads nonzero⟩
  zero := h.zero
  storeData := fun _ store nonzero => h.storeData (fun _ _ => rfl) store nonzero

/-- The number of the instruction in EX, or of the next one there, when `c` have retired. -/
def exIndex (s : CycleState κ) (c : ℕ) : ℕ := c + s.memInst.slot.length

/-- The number of the instruction in ID, or of the next one there. -/
def idIndex (s : CycleState κ) (c : ℕ) : ℕ := s.exIndex c + s.exInst.slot.length

/-- HALT is past ID: what ID does now is never seen. -/
def haltAhead (s : CycleState κ) : Bool := s.exInst.isHalt || s.memInst.isHalt

/-- MEM, EX and what has retired, against the states of sequential execution. -/
structure Retired (image : MemoryStore) (s : CycleState κ) (c : ℕ) : Prop where
  registers
    : ∀ r, r ≠ 0 →
        s.simulator.regData r = (FunctState.path image c).simulator.regData r
  values
    : ∀ r, r ≠ 0 →
        s.valuesBeforeEX r = (FunctState.path image (s.exIndex c)).simulator.regData r
  memory : s.simulator.memory = (FunctState.path image (s.exIndex c)).simulator.memory
  halt
    : s.memInst.inFlight = true
      → s.memInst.isHalt = ((FunctState.path image c).decodedFrom image).isHalt
  executes
    : s.memInst.isHalt = false → s.exInst.inFlight = true
      → s.exInst.Executes image (FunctState.path image (s.exIndex c))

/-- ID and the address fetched next, against sequential execution. -/
structure Fetches (image : MemoryStore) (s : CycleState κ) (c : ℕ) : Prop where
  front : s.FrontInv
  operands : s.OperandInv .all
  legal : s.idInst.isLegal = true
  decoded
    : s.idInst.inFlight = true
      → s.idInst.control
        = ((FunctState.path image (s.idIndex c)).decodedFrom image).control
  pending : ∀ pc ∈ s.pendingPC, pc = (FunctState.path image (s.idIndex c)).pc

/-- What IF has fetched from the addresses in `code` is what the image has there. -/
structure HoldsCode (image : MemoryStore) (code : U64 → Prop) (s : CycleState κ) : Prop where
  latched
    : s.ifInst.isNop = false → code s.ifInst.pc
      → s.ifInst.instruction = image.word s.ifInst.pc
  memory : ∀ pc, code pc → s.simulator.memory.word pc = image.word pc

/-- The refinement relation, with `c` the number of retired instructions. -/
structure Follows (image : MemoryStore) (code : U64 → Prop) (s : CycleState κ) (c : ℕ)
    : Prop where
  latches : s.LatchInv
  retired : s.Retired image c
  holds : s.HoldsCode image code
  fetches : s.haltAhead = false → s.Fetches image c

variable {image : MemoryStore} {code : U64 → Prop} {c : ℕ} {a : FunctState}

theorem follows_initCycle (past : CycleState κ) (iCache dCache : κ)
    : (initCycle past iCache dCache image).Follows image code 0 where
  latches := latchInv_initCycle past iCache dCache image
  retired :=
    { registers := fun r _ => rfl
      values := fun r _ => rfl
      memory := rfl
      halt := fun flight => by simp [initCycle, nop, Instruction.inFlight] at flight
      executes := fun _ flight => by simp [initCycle, nop, Instruction.inFlight] at flight }
  holds := ⟨fun busy => by simp [initCycle, nop] at busy, fun _ _ => rfl⟩
  fetches := fun _ =>
    { front := frontInv_initCycle past iCache dCache image
      operands := operandInv_initCycle past iCache dCache image
      legal := rfl
      decoded := fun flight => by simp [initCycle, nop, Instruction.inFlight] at flight
      pending := fun pc member => List.mem_singleton.mp member }

theorem slot_length (inst : Instruction)
    : inst.slot.length = if inst.inFlight then 1 else 0 := by
  unfold Instruction.slot
  split <;> rfl

/-- The access of MEM is on the operands of sequential execution. -/
theorem memInput_collected (l : s.LatchInv) (executes : s.exInst.Executes image a)
    (data
      : s.exInst.writesMem = true → s.exInst.rs2 ≠ 0
        → s.storedData = a.simulator.regData s.exInst.rs2)
    (access : s.exInst.readsMem = true ∨ s.exInst.writesMem = true)
    : s.memInput.Collected a.simulator.regData := by
  have fields := Instruction.sameControl s.control_memInput
  constructor
  · intro _
    rw [memInput_op1Val, fields.rs1]
    exact executes.base access
  · intro reads
    rw [fields.readsRs2] at reads
    have writes : s.exInst.writesMem = true := by
      refine access.resolve_left fun load => ?_
      have single := (l.inEX.kind.load load).readsRs2
      simp [reads] at single
    rw [memInput_op2Val writes, fields.rs2]
    by_cases zero : s.exInst.rs2 = 0
    · simp only [Registers.set, storedData, zero, ne_eq, not_true_eq_false, and_false, if_false]
      exact executes.zero writes zero
    · simp only [Registers.set, if_neg zero]
      exact data writes zero

section MEM

variable (l : s.LatchInv) (moving : s.dStallActive = false)
  (executes : s.exInst.Executes image a)
  (data
    : s.exInst.writesMem = true → s.exInst.rs2 ≠ 0
      → s.storedData = a.simulator.regData s.exInst.rs2)
  (memory : s.simulator.memory = a.simulator.memory)
include l moving executes data memory

/-- What the instruction writes back is the result of sequential execution. -/
theorem newMEM_result_eq (sound : s.newMEM.memException = false) {r : U64}
    (writes : s.exInst.writes r = true)
    : s.newMEM.result = (a.executedFrom image).result := by
  have fields := Instruction.sameControl executes.control
  have legal := fields.isLegal.symm.trans l.inEX.legal
  obtain ⟨_, _, busy, _, arith⟩ := l.inEX.kind.writer (Instruction.writesRd_of_writes writes)
  have executed : (a.executedFrom image).SameControl (a.decodedFrom image) :=
    Instruction.sameControl FunctState.control_executedFrom
  cases load : s.exInst.readsMem with
  | false =>
      rw [(l.newMEM_result moving writes load).2, executes.result (by simp [arith, load]),
        Instruction.result, executed.readsMem, ← fields.readsMem, load]
      rfl
  | true =>
      have input := Instruction.sameControl s.control_memInput
      have unfaulted := (LatchInv.memInput_memException s).trans l.inEX.fault
      have collected := memInput_collected l executes data (.inl load)
      obtain ⟨_, loaded⟩ := FunctState.stepFrom_access
        (s.control_memInput.trans executes.control) collected legal
        (.inl (fields.readsMem.symm.trans load)) unfaulted
      have accessed := simMEM_access s.simAfterWB (input.isLegal.trans l.inEX.legal) unfaulted
        (.inl (input.readsMem.trans load))
      rw [simAfterWB_memory, memory] at accessed
      have after := Instruction.sameControl
        ((control_simMemAccess (simAddrGen s.memInput) a.simulator.memory).trans
          ((control_simAddrGen _).trans s.control_memInput))
      rw [l.newMEM_active moving busy, memAfterAccess, accessed] at sound ⊢
      simp only [Instruction.result, after.readsMem, executed.readsMem, ← fields.readsMem, load,
        if_true]
      exact (loaded (fields.readsMem.symm.trans load) sound).symm

/-- Memory becomes that of sequential execution. -/
theorem simAfterMEM_memory_eq : s.simAfterMEM.memory = (a.stepFrom image).simulator.memory := by
  have fields := Instruction.sameControl executes.control
  have input := Instruction.sameControl s.control_memInput
  have unfaulted := (LatchInv.memInput_memException s).trans l.inEX.fault
  have legal := fields.isLegal.symm.trans l.inEX.legal
  by_cases access : s.exInst.readsMem = true ∨ s.exInst.writesMem = true
  · have busy := (l.inEX.kind.access access).2.1
    have collected := memInput_collected l executes data access
    obtain ⟨accessed, _⟩ := FunctState.stepFrom_access
      (s.control_memInput.trans executes.control) collected legal
      (by rwa [← fields.readsMem, ← fields.writesMem]) unfaulted
    rw [simAfterMEM, l.memActive_eq, moving, busy, memAfterAccess,
      simMEM_access s.simAfterWB (input.isLegal.trans l.inEX.legal) unfaulted
        (by rwa [input.readsMem, input.writesMem]),
      simAfterWB_memory, memory, accessed]
    rfl
  · simp only [not_or, Bool.not_eq_true] at access
    rw [FunctState.stepFrom_memory (fields.readsMem.symm.trans access.1)
      (fields.writesMem.symm.trans access.2), ← memory, ← simAfterWB_memory s, simAfterMEM]
    split
    · rw [(l.memAfterAccess_other access.1 access.2).1]
    · rfl

end MEM

-----------------------------------------------------------------------------------------
-- The instruction that leaves ID
-----------------------------------------------------------------------------------------

@[simp]
theorem exInput_arithResult (s : CycleState κ)
    : s.exInput.arithResult = s.idInst.arithResult := by
  have forwarded (src : Instruction) (fwd : U64) (unshadowed : Bool) (inst : Instruction)
      : (forwardFrom src fwd unshadowed inst).arithResult = inst.arithResult := by
    unfold forwardFrom
    split <;> rfl
  simp only [exInput, forwarded]

/-- What EX makes of the operands it receives. -/
theorem LatchInv.newEX_executed (l : s.LatchInv) (moving : s.held = false)
    (legal : s.idInst.isLegal = true) (busy : s.idInst.isNop = false)
    : s.newEX.arithResult
        = (if s.idInst.doesArithLogic then simArithLogic s.exInput else s.exInput).arithResult
      ∧ (s.idInst.doesArithLogic = false
        → s.newEX.op1Val = s.exInput.op1Val ∧ s.newEX.op2Val = s.exInput.op2Val) := by
  have input := Instruction.sameControl s.control_exInput
  have word := Instruction.sameControl (control_simEX s.exInput)
  have unfaulted : s.exInput.memException = false := by
    simp [exInput, l.inID.fault legal]
  rw [held_free] at moving
  have result : s.newEX = Simulator.simEX s.exInput := by
    simp only [newEX, moving.1, moving.2, legal, word.isNop, input.isNop, busy, Bool.not_true,
      Bool.and_false, Bool.false_eq_true, if_false]
  rw [result]
  simp only [Simulator.simEX, input.isLegal, legal, unfaulted, input.doesArithLogic,
    Bool.not_true, Bool.or_self, Bool.false_eq_true, if_false]
  refine ⟨trivial, fun noArith => ?_⟩
  simp [noArith]

section Issue

variable (l : s.LatchInv) (h : s.Retired image c) (f : s.Fetches image c)
  (sound : s.memInst.memException = false) (ahead : s.haltAhead = false)
include l h sound ahead

/-- Unless it is being loaded, the program-order value of a register for the instruction in ID
is that of sequential execution.
-/
theorem Retired.valuesBeforeID_eq {r : U64} (nonzero : r ≠ 0)
    (noLoad : s.exInst.writes r = true → s.exInst.readsMem = false)
    : s.valuesBeforeID r
      = (FunctState.path image (s.idIndex c)).simulator.regData r := by
  simp only [haltAhead, Bool.or_eq_false_iff] at ahead
  have older := h.values r nonzero
  rw [l.valuesBeforeEX_eq sound nonzero] at older
  rw [l.valuesBeforeID_eq sound nonzero noLoad, older]
  cases flight : s.exInst.inFlight with
  | false =>
      have here : s.idIndex c = s.exIndex c := by simp [idIndex, slot_length, flight]
      have silent : s.exInst.writes r = false := by
        rw [Instruction.writes, l.inEX.empty flight]
        rfl
      rw [silent, here]
      rfl
  | true =>
      have executes := h.executes ahead.2 flight
      have step : s.idIndex c = s.exIndex c + 1 := by simp [idIndex, slot_length, flight]
      rw [step, FunctState.path_succ, FunctState.stepFrom_regData,
        ← Instruction.writes_of_control executes.control]
      cases writes : s.exInst.writes r with
      | false => rfl
      | true =>
          have fields := Instruction.sameControl executes.control
          obtain ⟨_, _, _, _, arith⟩ :=
            l.inEX.kind.writer (Instruction.writesRd_of_writes writes)
          have executed : ((FunctState.path image (s.exIndex c)).executedFrom image).SameControl
              ((FunctState.path image (s.exIndex c)).decodedFrom image) :=
            Instruction.sameControl FunctState.control_executedFrom
          simp only [if_true, Instruction.result, executed.readsMem, ← fields.readsMem,
            noLoad writes, Bool.false_eq_true, if_false]
          exact executes.result (by simp [arith, noLoad writes])

include f

/-- What EX receives are the operands of sequential execution, but for the data of a store. -/
theorem Fetches.exInput_collected (moving : s.held = false) (noStore : s.idInst.writesMem = false)
    : s.exInput.Collected (FunctState.path image (s.idIndex c)).simulator.regData := by
  have fields := Instruction.sameControl s.control_exInput
  refine collected_of_inOrder f.operands.zeroOperands_exInput ?_ ?_
  · rw [fields.readsRs1, fields.rs1]
    intro reads nonzero
    rw [f.operands.exInput_op1Val_eq l moving sound rfl reads nonzero]
    exact h.valuesBeforeID_eq l sound ahead nonzero
      (l.no_load_read moving nonzero (.inl ⟨reads, rfl⟩))
  · rw [fields.readsRs2, fields.rs2]
    intro reads nonzero
    rw [f.operands.exInput_op2Val_eq l moving sound rfl reads noStore nonzero]
    exact h.valuesBeforeID_eq l sound ahead nonzero
      (l.no_load_read moving nonzero (.inr ⟨reads, rfl, noStore⟩))

/-- EX receives the instruction of sequential execution. -/
theorem Fetches.newEX_executes (moving : s.held = false) (flight : s.newEX.inFlight = true)
    : s.newEX.Executes image (FunctState.path image (s.idIndex c)) := by
  obtain ⟨same, issued, _⟩ := l.newEX_issued moving f.legal
  have decoded := f.decoded (issued ▸ flight)
  have control := same.trans decoded
  have fields := Instruction.sameControl same
  have input := Instruction.sameControl s.control_exInput
  refine ⟨control, ?_, ?_, ?_⟩
  · rw [fields.doesArithLogic]
    intro arith
    have target := Instruction.sameControl decoded
    have kinds : s.idInst.isNop = false ∧ s.idInst.isHalt = false
        ∧ s.idInst.writesMem = false := by
      obtain ⟨kind, signals, _⟩ := l.inID.kind
      cases kind <;> simp_all [Instruction.signals, SignalKind.signals]
    rw [(l.newEX_executed moving f.legal kinds.1).1, if_pos arith]
    exact (FunctState.executedFrom_arithResult (s.control_exInput.trans decoded)
      (f.exInput_collected l h sound ahead moving kinds.2.2)
      (target.isLegal.symm.trans f.legal) (target.isHalt.symm.trans kinds.2.1)
      (target.doesArithLogic.symm.trans arith)
      ((exInput_arithResult s).trans l.inID.result)).symm
  · rw [fields.readsMem, fields.writesMem, fields.rs1]
    intro mem
    obtain ⟨_, busy, noArith, reads⟩ := l.inID.kind.access mem
    rw [((l.newEX_executed moving f.legal busy).2 noArith).1]
    by_cases zero : s.idInst.rs1 = 0
    · simp only [Registers.set, if_pos zero]
      exact f.operands.zeroOperands_exInput.rs1 (input.readsRs1.trans reads)
        (input.rs1.trans zero)
    · simp only [Registers.set, if_neg zero]
      rw [f.operands.exInput_op1Val_eq l moving sound rfl reads zero]
      exact h.valuesBeforeID_eq l sound ahead zero
        (l.no_load_read moving zero (.inl ⟨reads, rfl⟩))
  · rw [fields.writesMem, fields.rs2]
    intro writes zero
    have signals := l.inID.kind.store writes
    have reads := signals.readsRs2
    rw [((l.newEX_executed moving f.legal signals.isNop).2 signals.doesArithLogic).2]
    exact f.operands.zeroOperands_exInput.rs2 (input.readsRs2.trans reads)
      (input.rs2.trans zero)

/-- A branch, JAL or JALR that is resolved has the operands of sequential execution. -/
theorem Fetches.idEval_collected (moving : s.held = false) (resolves : s.resolvesInID = true)
    (transfers
      : s.idInst.opcode = opBranch ∨ s.idInst.opcode = opJalr ∨ s.idInst.opcode = opJal)
    : s.idEval.Collected (FunctState.path image (s.idIndex c)).simulator.regData := by
  have input := Instruction.sameControl s.control_idEval
  have busy : s.idInst.isNop = false := by
    simp only [resolvesInID, Bool.and_eq_true, Bool.not_eq_true'] at resolves
    exact resolves.1.2
  have branchLike (reads : s.idInst.readsRs1 = true ∨ s.idInst.readsRs2 = true)
      : s.idInst.opcode = opBranch ∨ s.idInst.opcode = opJalr := by
    by_contra jal
    have upper : s.idInst.opcode = opJal := by tauto
    have silent := l.inID.kind.jal_reads f.legal upper
    simp [silent] at reads
  have ordered (reads : s.idInst.readsRs1 = true ∨ s.idInst.readsRs2 = true) :=
    (f.operands.of_all .branch).branchOperandsInOrder l resolves (branchLike reads)
  have clear {r : U64} (nonzero : r ≠ 0)
      (reads
        : (s.idInst.readsRs1 = true ∧ s.idInst.rs1 = r)
          ∨ (s.idInst.readsRs2 = true ∧ s.idInst.rs2 = r))
      : s.valuesBeforeID r = (FunctState.path image (s.idIndex c)).simulator.regData r := by
    have like := branchLike (reads.imp And.left And.left)
    have silent := no_producer_ahead moving (by simpa [idIsBranchLike, busy] using like)
      nonzero reads
    exact h.valuesBeforeID_eq l sound ahead nonzero (by simp [silent])
  refine collected_of_inOrder
    (f.operands.zeroOperands_idEval (held_free.mp moving).1 busy) ?_ ?_
  · rw [input.readsRs1, input.rs1]
    intro reads nonzero
    rw [(ordered (.inl reads)).1 reads nonzero]
    exact clear nonzero (.inl ⟨reads, rfl⟩)
  · rw [input.readsRs2, input.rs2]
    intro reads nonzero
    rw [(ordered (.inr reads)).2.1 reads nonzero]
    exact clear nonzero (.inr ⟨reads, rfl⟩)

/-- ID resolves the next PC of sequential execution. -/
theorem Fetches.resolvedPC_eq (moving : s.held = false) (calm : s.wbMemException = false)
    (flight : s.idInst.inFlight = true) (running : s.idInst.isHalt = false)
    : s.resolvedPC = (FunctState.path image (s.idIndex c + 1)).pc := by
  have decoded := f.decoded flight
  have fields := Instruction.sameControl decoded
  have legal := fields.isLegal.symm.trans f.legal
  have halts := fields.isHalt.symm.trans running
  rw [FunctState.path_succ]
  by_cases transfers
    : s.idInst.opcode = opBranch ∨ s.idInst.opcode = opJalr ∨ s.idInst.opcode = opJal
  · have resolves := l.resolvesInID_eq calm moving f.legal transfers
    have collected := f.idEval_collected l h sound ahead moving resolves transfers
    rw [FunctState.stepFrom_pc (s.control_idEval.trans decoded) collected legal halts]
    simp [resolvedPC, f.legal, transfers, resolved]
  · have word := Instruction.sameControl
      (FunctState.control_collected.trans decoded.symm)
    rw [FunctState.stepFrom_pc FunctState.control_collected FunctState.collected_collected legal
      halts]
    simp only [not_or] at transfers
    simp [resolvedPC, f.legal, transfers, simNextPCResolution, word.opcode, word.pc]

end Issue

/-- The instruction in MEM retires unless a D-cache stall keeps it there. -/
theorem retires_length (l : s.LatchInv) (moving : s.dStallActive = false)
    (sound : s.memInst.memException = false)
    : s.entersWB.toList.length = s.memInst.slot.length := by
  rw [slot_length, entersWB, (l.newWB_eq moving sound).2.1]
  split <;> rfl

theorem entersWB_frozen (frozen : s.dStallActive = true) : s.entersWB = none := by
  simp [entersWB, newWB, frozen, nop, Instruction.inFlight]

variable [CacheUnit κ]

theorem exIndex_moving (l : s.LatchInv) (moving : s.dStallActive = false)
    (calm : s.wbMemException = false)
    : s.next.exIndex (s.exIndex c) = s.idIndex c := by
  simp only [exIndex, idIndex, slot_length, next_memInst calm, l.newMEM_inFlight moving]

section Retired

variable (h : s.Retired image c) (calm : s.wbMemException = false)
include h calm

/-- A D-cache stall changes nothing. -/
theorem Retired.next_frozen (frozen : s.dStallActive = true) : s.next.Retired image c := by
  have mem : s.next.memInst = s.memInst := by simp [next_memInst calm, newMEM, frozen]
  have ex : s.next.exInst = s.exInst := by simp [next_exInst calm, newEX, frozen]
  have registers : s.next.simulator.regData = s.simulator.regData := by
    rw [next_regData, simAfterWB_frozen frozen]
  have memory : s.next.simulator.memory = s.simulator.memory := by
    rw [next_memory, simAfterMEM, memActive, frozen]
    exact simAfterWB_memory s
  have index : s.next.exIndex c = s.exIndex c := by simp only [exIndex, mem]
  exact {
    registers := by rw [registers]; exact h.registers
    values := by rw [valuesBeforeEX_congr mem registers, index]; exact h.values
    memory := by rw [memory, index]; exact h.memory
    halt := by rw [mem]; exact h.halt
    executes := by rw [mem, ex, index]; exact h.executes }

/-- Otherwise MEM takes the instruction of sequential execution from EX, and EX the one that
is issued to it.
-/
theorem Retired.next_moving (l : s.LatchInv) (moving : s.dStallActive = false)
    (sound : s.memInst.memException = false) (after : s.newMEM.memException = false)
    (running : s.memInst.isHalt = false)
    (data
      : s.exInst.writesMem = true → s.exInst.rs2 ≠ 0
        → s.storedData = s.valuesBeforeEX s.exInst.rs2)
    (issues
      : s.exInst.isHalt = false → s.newEX.inFlight = true
        → s.newEX.Executes image (FunctState.path image (s.idIndex c)))
    : s.next.Retired image (s.exIndex c) := by
  have index : s.next.exIndex (s.exIndex c) = s.idIndex c := exIndex_moving l moving calm
  have registers (r : U64) (nonzero : r ≠ 0)
      : s.next.simulator.regData r
        = (FunctState.path image (s.exIndex c)).simulator.regData r := by
    rw [l.next_regData_eq moving sound]
    exact h.values r nonzero
  have writes (r : U64) : s.next.memInst.writes r = s.exInst.writes r := by
    rw [next_memInst calm, l.newMEM_writes moving]
  have executes
      : s.next.memInst.isHalt = false → s.next.exInst.inFlight = true
        → s.next.exInst.Executes image
            (FunctState.path image (s.next.exIndex (s.exIndex c))) := by
    rw [index, next_memInst calm, next_exInst calm]
    intro behind
    exact issues ((l.newMEM_isHalt moving).symm.trans behind)
  cases flight : s.exInst.inFlight with
  | false =>
      have empty := l.inEX.empty flight
      have here : s.idIndex c = s.exIndex c := by simp [idIndex, slot_length, flight]
      refine ⟨registers, fun r nonzero => ?_, ?_, ?_, executes⟩
      · have silent : s.next.memInst.writes r = false := by
          rw [writes, Instruction.writes, empty]
          rfl
        rw [l.inv_next.valuesBeforeEX_silent nonzero silent, index, here]
        exact registers r nonzero
      · rw [index, here, ← h.memory, next_memory, simAfterMEM, l.memActive_eq, empty,
          Bool.not_true, Bool.and_false, if_neg (by simp), simAfterWB_memory]
      · rw [next_memInst calm, l.newMEM_inFlight moving, flight]
        exact fun wrong => absurd wrong (by simp)
  | true =>
      have inEX := h.executes running flight
      have fields := Instruction.sameControl inEX.control
      have stored (store : s.exInst.writesMem = true) (nonzero : s.exInst.rs2 ≠ 0)
          : s.storedData
            = (FunctState.path image (s.exIndex c)).simulator.regData s.exInst.rs2 :=
        (data store nonzero).trans (h.values _ nonzero)
      have step : s.idIndex c = s.exIndex c + 1 := by simp [idIndex, slot_length, flight]
      refine ⟨registers, fun r nonzero => ?_, ?_, fun _ => ?_, executes⟩
      · rw [l.inv_next.valuesBeforeEX_eq (by rwa [next_memInst calm]) nonzero, writes, index, step,
          FunctState.path_succ, FunctState.stepFrom_regData, registers r nonzero,
          ← Instruction.writes_of_control inEX.control]
        cases wrote : s.exInst.writes r with
        | false => rfl
        | true =>
            simp only [if_true, next_memInst calm]
            exact newMEM_result_eq l moving inEX stored h.memory after wrote
      · rw [next_memory, simAfterMEM_memory_eq l moving inEX stored h.memory, index, step,
          FunctState.path_succ]
      · rw [next_memInst calm, ← fields.isHalt]
        exact l.newMEM_isHalt moving

end Retired

omit [CacheUnit κ] in
/-- HALT stays past ID until it halts the run. -/
theorem LatchInv.halt_passed (l : s.LatchInv) (running : s.halts = false)
    (ahead : s.haltAhead = true)
    : s.newEX.isHalt = true ∨ s.newMEM.isHalt = true := by
  simp only [haltAhead, Bool.or_eq_true] at ahead
  cases moving : s.dStallActive with
  | true => simpa [newEX, newMEM, moving] using ahead
  | false =>
      rw [l.halts_eq, moving] at running
      simp only [Bool.not_false, Bool.true_and] at running
      have halt := ahead.resolve_right (by simp [running])
      exact .inr ((l.newMEM_isHalt moving).trans halt)

/-- HALT is past ID once it leaves ID. -/
theorem LatchInv.id_running (l : s.LatchInv) (moving : s.held = false)
    (calm : s.wbMemException = false) (legal : s.idInst.isLegal = true)
    (ahead : s.next.haltAhead = false)
    : s.idInst.isHalt = false := by
  have issued := (l.newEX_issued moving legal).1
  simp only [haltAhead, next_exInst calm, Bool.or_eq_false_iff] at ahead
  rw [← (Instruction.sameControl issued).isHalt, ahead.1]

/-- The conditions on a cycle up to HALT: no exception, no illegal instruction ahead of HALT,
no store into the program, and no operand that is not forwarded.
-/
structure Proceeds (image : MemoryStore) (code : U64 → Prop) (s : CycleState κ) : Prop where
  running : s.halts = false
  calm : s.wbMemException = false
  sound : s.next.memInst.memException = false
  legal : s.next.haltAhead = false → s.next.idInst.isLegal = true
  keeps : s.haltAhead = false → s.losesOperands .all = false
  forwards : s.haltAhead = false → s.misforwardsStore = false
  decoded : s.decodes = true → code s.ifInst.pc
  memory : ∀ pc, code pc → s.next.simulator.memory.word pc = image.word pc

/-- What IF fetches is what the image has, as long as memory has it. -/
theorem HoldsCode.next (h : s.HoldsCode image code)
    (memory : ∀ pc, code pc → s.next.simulator.memory.word pc = image.word pc)
    : s.next.HoldsCode image code where
  latched := by
    have latched := h.latched
    rcases s.newIF_cases with ⟨pc, status, same⟩ | ⟨pc, status, same⟩ | ⟨status, same⟩
    · exact fun busy => by simp [CycleState.next, same, fetchSlot, nop] at busy
    · simp only [CycleState.next, same]
      intro _ known
      rw [simIF_pc] at known ⊢
      exact memory pc known
    · simpa only [CycleState.next, same] using latched
  memory := memory

section Follows

variable (h : s.Follows image code c)
include h

theorem Follows.holds_next
    (memory : ∀ pc, code pc → s.next.simulator.memory.word pc = image.word pc)
    : s.next.HoldsCode image code :=
  h.holds.next memory

theorem Follows.ahead (calm : s.wbMemException = false) (running : s.halts = false)
    (ahead : s.next.haltAhead = false)
    : s.haltAhead = false := by
  by_contra halt
  have passed := h.latches.halt_passed running (by simpa using halt)
  simp only [haltAhead, next_exInst calm, next_memInst calm, Bool.or_eq_false_iff] at ahead
  simp [ahead] at passed

/-- MEM, EX and the registers follow whether or not HALT is ahead. -/
theorem Follows.retired_step (running : s.halts = false) (calm : s.wbMemException = false)
    (after : s.next.memInst.memException = false)
    (forwards : s.haltAhead = false → s.misforwardsStore = false)
    : s.next.Retired image (c + s.entersWB.toList.length) := by
  have l := h.latches
  cases moving : s.dStallActive with
  | true =>
      rw [entersWB_frozen moving]
      exact h.retired.next_frozen calm moving
  | false =>
      have sound := l.calm_iff.mp calm
      have running : s.memInst.isHalt = false := by
        simpa [l.halts_eq, moving] using running
      rw [next_memInst calm] at after
      have ahead (free : s.exInst.isHalt = false) : s.haltAhead = false := by
        simp [haltAhead, free, running]
      rw [retires_length l moving sound]
      refine h.retired.next_moving calm l moving sound after running
        (fun store nonzero => ?_) (fun free flight => ?_)
      · have signals := l.inEX.kind.store store
        have gate := ahead signals.isHalt
        exact ((h.fetches gate).operands.of_all .storeData).storedData_eq l
          (forwards gate) (by simp [l.memActive_eq, moving, signals.isNop]) store nonzero
      · have held : s.held = false := by
          have inFlight : s.next.exInst.inFlight = true := by
            rwa [next_exInst calm]
          have source := (l.next_ex_inFlight inFlight).2
          simp only [moving, Bool.false_eq_true, false_and, false_or] at source
          exact source.1
        exact (h.fetches (ahead free)).newEX_executes l h.retired sound (ahead free) held flight

theorem Follows.retired_next (proceeds : s.Proceeds image code)
    : s.next.Retired image (c + s.entersWB.toList.length) :=
  h.retired_step proceeds.running proceeds.calm proceeds.sound proceeds.forwards

omit h in
/-- The instruction that leaves ID is the only one that moves ID on in the order. -/
theorem idIndex_next (l : s.LatchInv) (calm : s.wbMemException = false)
    (legal : s.idInst.isLegal = true)
    : s.next.idIndex (c + s.entersWB.toList.length)
      = s.idIndex c + s.leavesID.toList.length := by
  cases moving : s.dStallActive with
  | true =>
      have leaves : s.leavesID = none := by simp [leavesID, held, moving]
      simp only [idIndex, exIndex, next_exInst calm, next_memInst calm, newEX, newMEM, moving,
        if_true, entersWB_frozen moving, leaves]
      rfl
  | false =>
      have sound := l.calm_iff.mp calm
      have slot : s.next.exInst.slot.length = s.leavesID.toList.length := by
        rw [slot_length, next_exInst calm]
        cases hazard : s.hazardStall with
        | true =>
            rw [l.newEX_hazard moving hazard]
            simp [leavesID, held, moving, hazard, nop, Instruction.inFlight]
        | false =>
            have free := held_free.mpr ⟨moving, hazard⟩
            rw [(l.newEX_issued free legal).2.1]
            cases flight : s.idInst.inFlight <;> simp [leavesID, free, calm, flight]
      rw [retires_length l moving sound, idIndex, ← exIndex, exIndex_moving l moving calm, slot]

/-- The addresses that ID may take next are those of sequential execution. -/
theorem Follows.pending_next (calm : s.wbMemException = false) (gate : s.haltAhead = false)
    (ahead : s.next.haltAhead = false)
    : ∀ pc ∈ (s.entersID.map Instruction.pc).toList ++ s.next.pendingPC,
        pc = (FunctState.path image (s.next.idIndex (c + s.entersWB.toList.length))).pc := by
  have l := h.latches
  have f := h.fetches gate
  rw [idIndex_next l calm f.legal, ← f.front.pendingPC_moves l calm]
  cases leaves : s.leavesID with
  | none =>
      simpa [leavesResolved, leaves] using f.pending
  | some inst =>
      simp only [leavesID, Option.ite_none_right_eq_some, Bool.and_eq_true, Bool.not_eq_true',
        Option.some.injEq] at leaves
      obtain ⟨⟨⟨moving, _⟩, flight⟩, same⟩ := leaves
      have sound := l.calm_iff.mp calm
      have running := l.id_running moving calm f.legal ahead
      have resolved := f.resolvedPC_eq l h.retired sound gate moving calm flight running
      simp [pendingPC, flight, leavesResolved, leavesID, moving, calm, resolved]

/-- What ID takes is decoded as sequential execution decodes it. -/
theorem Follows.decoded_next (calm : s.wbMemException = false) (gate : s.haltAhead = false)
    (ahead : s.next.haltAhead = false) (known : s.decodes = true → code s.ifInst.pc)
    (flight : s.next.idInst.inFlight = true)
    : s.next.idInst.control
      = ((FunctState.path image (s.next.idIndex (c + s.entersWB.toList.length))).decodedFrom
          image).control := by
  have l := h.latches
  have f := h.fetches gate
  have pending := h.pending_next calm gate ahead
  rw [next_idInst calm]
  rcases (next_id_inFlight flight).2 with ⟨frozen, occupied⟩ | ⟨moving, decodes⟩
  · rw [newID_held frozen, idIndex_next l calm f.legal, f.decoded occupied]
    simp [leavesID, frozen]
  · have busy := (decodes_clear decodes).2.2.2.2
    have here := pending s.newID.pc (by simp [entersID, decodes, calm])
    rw [newID_pc decodes] at here
    rw [newID_decoded decodes, decoded, simID_control]
    refine (l.fetched busy).decodedFrom here ?_
    rw [← here]
    exact h.holds.latched busy (known decodes)

/-- ID and the next addresses follow as long as HALT is not ahead. -/
theorem Follows.fetches_step (running : s.halts = false) (calm : s.wbMemException = false)
    (ahead : s.next.haltAhead = false) (legal : s.next.idInst.isLegal = true)
    (keeps : s.losesOperands .all = false) (known : s.decodes = true → code s.ifInst.pc)
    : s.next.Fetches image (c + s.entersWB.toList.length) := by
  have l := h.latches
  have gate := h.ahead calm running ahead
  have f := h.fetches gate
  have decodes : s.illegalDecoded = false := by
    rw [l.illegalDecoded_eq, ← next_idInst calm, legal, Bool.not_true, Bool.and_false]
  exact {
    front := f.front.inv_next l (by simp [trapsOddly, decodes])
    operands := f.operands.inv_next l keeps
    legal := legal
    decoded := h.decoded_next calm gate ahead known
    pending := fun pc member =>
      h.pending_next calm gate ahead pc (List.mem_append_right _ member) }

theorem Follows.fetches_next (proceeds : s.Proceeds image code)
    (ahead : s.next.haltAhead = false)
    : s.next.Fetches image (c + s.entersWB.toList.length) :=
  h.fetches_step proceeds.running proceeds.calm ahead (proceeds.legal ahead)
    (proceeds.keeps (h.ahead proceeds.calm proceeds.running ahead)) proceeds.decoded

/-- One cycle follows as many steps of sequential execution as instructions retire in it. -/
theorem Follows.inv_next (proceeds : s.Proceeds image code)
    : s.next.Follows image code (c + s.entersWB.toList.length) where
  latches := h.latches.inv_next
  retired := h.retired_next proceeds
  holds := h.holds_next proceeds.memory
  fetches := h.fetches_next proceeds

end Follows

/-- The number of instructions that have retired in `n` cycles. -/
def retiredCount (start : CycleState κ) (n : ℕ) : ℕ := (Runs.events next entersWB start n).length

/-- A run that proceeds follows sequential execution. -/
theorem follows_iterate {start : CycleState κ} (base : start.Follows image code 0) {n : ℕ}
    (proceeds : ∀ m < n, (next^[m] start).Proceeds image code)
    : (next^[n] start).Follows image code (retiredCount start n) := by
  induction n with
  | zero => exact base
  | succ n ih =>
      have before := ih fun m earlier => proceeds m (by omega)
      rw [Function.iterate_succ_apply', retiredCount, Runs.events_succ, List.length_append]
      exact before.inv_next (proceeds n (by omega))

/-- Before the run halts, no HALT of sequential execution has retired. -/
theorem retired_running {start : CycleState κ} (base : start.Follows image code 0) {n : ℕ}
    (proceeds : ∀ m < n, (next^[m] start).Proceeds image code)
    : ∀ k < retiredCount start n,
        ((FunctState.path image k).decodedFrom image).isHalt = false := by
  induction n with
  | zero => exact fun k earlier => absurd earlier (Nat.not_lt_zero k)
  | succ n ih =>
      have now := proceeds n (by omega)
      have follows : (next^[n] start).Follows image code (retiredCount start n) :=
        follows_iterate base fun m earlier => proceeds m (by omega)
      intro k earlier
      rw [retiredCount, Runs.events_succ, List.length_append] at earlier
      by_cases before : k < retiredCount start n
      · exact ih (fun m earlier => proceeds m (by omega)) k before
      · cases moving : (next^[n] start).dStallActive with
        | true =>
            rw [entersWB_frozen moving] at earlier
            exact absurd earlier before
        | false =>
            have sound := follows.latches.calm_iff.mp now.calm
            rw [retires_length follows.latches moving sound, slot_length] at earlier
            have flight : (next^[n] start).memInst.inFlight = true := by
              by_contra empty
              simp only [Bool.not_eq_true] at empty
              simp only [empty, Bool.false_eq_true, if_false] at earlier
              exact before earlier
            simp only [flight, if_true] at earlier
            have here : k = retiredCount start n := by
              simp only [retiredCount] at before ⊢
              omega
            rw [here, ← follows.retired.halt flight]
            simpa [follows.latches.halts_eq, moving] using now.running

/-- In the cycle that halts, the HALT of sequential execution retires. -/
theorem Follows.halts_eq (h : s.Follows image code c) (halts : s.halts = true)
    : ((FunctState.path image c).decodedFrom image).isHalt = true
      ∧ s.entersWB.toList.length = 1
      ∧ ∀ r, r ≠ 0 →
          s.next.simulator.regData r
            = (FunctState.path image (c + 1)).simulator.regData r := by
  have l := h.latches
  obtain ⟨moving, halt, flight, sound⟩ := l.halts_mem halts
  have index : s.exIndex c = c + 1 := by simp [exIndex, slot_length, flight]
  refine ⟨(h.retired.halt flight).symm.trans halt, ?_, fun r nonzero => ?_⟩
  · rw [retires_length l moving sound, slot_length, if_pos flight]
  · rw [l.next_regData_eq moving sound, h.retired.values r nonzero, index]

/-- Where a run that proceeds halts, sequential execution is at its first HALT, and the
registers it has then are the final ones.
-/
theorem halted {start : CycleState κ} (base : start.Follows image code 0) {n : ℕ}
    (proceeds : ∀ m < n, (next^[m] start).Proceeds image code)
    (halts : (next^[n] start).halts = true)
    : ((FunctState.path image (retiredCount start n)).decodedFrom image).isHalt = true
      ∧ ∀ r, r ≠ 0 →
          (next^[n + 1] start).simulator.regData r
            = (FunctState.path image (retiredCount start n)).simulator.regData r := by
  obtain ⟨here, _, registers⟩ := (follows_iterate base proceeds).halts_eq halts
  refine ⟨here, fun r nonzero => ?_⟩
  have silent : ((FunctState.path image (retiredCount start n)).decodedFrom image).writes r
      = false := by
    have kind : ((FunctState.path image (retiredCount start n)).decodedFrom image).HasKind :=
      FunctState.decodedFrom_decoded.hasKind
    simp [Instruction.writes, (kind.halt here).writesRd]
  rw [Function.iterate_succ_apply', registers r nonzero, FunctState.path_succ,
    FunctState.stepFrom_regData, silent]
  rfl

end CycleState
end RiscvSim
