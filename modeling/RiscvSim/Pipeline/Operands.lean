import RiscvSim.Instructions.Execution
import RiscvSim.Pipeline.Streams

/-! Where the value of a register is while instructions older than its reader are in flight:
in the register file, or in one of the latches the reader is forwarded from.
-/

namespace RiscvSim

/-- A choice among the source registers of instructions. -/
structure Sources where
  rs1 : Instruction → Bool
  rs2 : Instruction → Bool

/-- What each chosen source register other than 0, with the value latched for it, satisfies.
-/
structure Instruction.Operands (which : Sources) (inst : Instruction) (P : U64 → U64 → Prop)
    : Prop where
  rs1 : which.rs1 inst = true → inst.readsRs1 = true → inst.rs1 ≠ 0 → P inst.rs1 inst.op1Val
  rs2 : which.rs2 inst = true → inst.readsRs2 = true → inst.rs2 ≠ 0 → P inst.rs2 inst.op2Val

/-- The operands that are register 0 are 0. -/
structure Instruction.ZeroOperands (inst : Instruction) : Prop where
  rs1 : inst.readsRs1 = true → inst.rs1 = 0 → inst.op1Val = 0
  rs2 : inst.readsRs2 = true → inst.rs2 = 0 → inst.op2Val = 0

/-- Collected operands are the values of their registers, and of register 0 they are 0. -/
theorem Instruction.Collected.operands {inst : Instruction} {registers : Registers}
    {which : Sources} (h : inst.Collected registers)
    : inst.Operands which fun r v => v = registers r :=
  ⟨fun _ reads nonzero => (h.rs1 reads).trans (if_neg nonzero),
    fun _ reads nonzero => (h.rs2 reads).trans (if_neg nonzero)⟩

theorem Instruction.Collected.zeroOperands {inst : Instruction} {registers : Registers}
    (h : inst.Collected registers) : inst.ZeroOperands :=
  ⟨fun reads zero => (h.rs1 reads).trans (if_pos zero),
    fun reads zero => (h.rs2 reads).trans (if_pos zero)⟩

/-- The forwarding guards, which do not test `isNop`, test what `writes` does. -/
theorem Instruction.HasKind.shadows_eq {producer consumer : Instruction} {r : U64}
    (h : producer.HasKind) (target : consumer.writes r = true)
    : producer.shadows consumer = producer.writes r := by
  have rd : consumer.rd = r := by
    simp only [Instruction.writes, Bool.and_eq_true, beq_iff_eq] at target
    exact target.2
  cases writes : producer.writesRd with
  | false => simp [Instruction.shadows, Instruction.writes, writes]
  | true => simp [Instruction.shadows, Instruction.writes, writes, (h.writer writes).2.2.1, rd]

theorem forwardFrom_op1Val (src : Instruction) (fwd : U64) (unshadowed : Bool)
    {inst : Instruction} (reads : inst.readsRs1 = true) (nonzero : inst.rs1 ≠ 0)
    : (forwardFrom src fwd unshadowed inst).op1Val
      = if src.writes inst.rs1 && unshadowed then fwd else inst.op1Val := by
  unfold forwardFrom
  by_cases target : src.rd = inst.rs1
  · have wide : inst.rs1 ≠ 0#64 := nonzero
    cases nop : src.isNop <;> cases writes : src.writesRd <;>
      simp [Instruction.writes, nop, writes, reads, target, wide]
  · have other : inst.rs1 ≠ src.rd := fun same => target same.symm
    split <;> simp [Instruction.writes, target, other]

theorem forwardFrom_op2Val (src : Instruction) (fwd : U64) (unshadowed : Bool)
    {inst : Instruction} (reads : inst.readsRs2 = true) (nonzero : inst.rs2 ≠ 0)
    : (forwardFrom src fwd unshadowed inst).op2Val
      = if src.writes inst.rs2 && unshadowed then fwd else inst.op2Val := by
  unfold forwardFrom
  by_cases target : src.rd = inst.rs2
  · have wide : inst.rs2 ≠ 0#64 := nonzero
    cases nop : src.isNop <;> cases writes : src.writesRd <;>
      simp [Instruction.writes, nop, writes, reads, target, wide]
  · have other : inst.rs2 ≠ src.rd := fun same => target same.symm
    split <;> simp [Instruction.writes, target, other]

/-- A producer that forwards its result is not one of register 0. -/
theorem forwards_other {src : Instruction} {operand : U64}
    (forwards : (!src.isNop && src.writesRd && src.rd != 0) = true) (zero : operand = 0)
    : (operand == src.rd) = false := by
  simp only [Bool.and_eq_true, bne_iff_ne] at forwards
  rw [zero]
  exact beq_eq_false_iff_ne.mpr forwards.2.symm

/-- Register 0 is never forwarded. -/
theorem zeroOperands_forwardFrom (src : Instruction) (fwd : U64) (unshadowed : Bool)
    {inst : Instruction} (h : inst.ZeroOperands)
    : (forwardFrom src fwd unshadowed inst).ZeroOperands := by
  have fields := Instruction.sameControl (control_forwardFrom src fwd unshadowed inst)
  constructor
  · intro reads zero
    rw [fields.readsRs1] at reads
    rw [fields.rs1] at zero
    have value := h.rs1 reads zero
    unfold forwardFrom
    split
    case isTrue forwards =>
      simpa only [forwards_other forwards zero, Bool.and_false, Bool.false_and,
        Bool.false_eq_true, if_false] using value
    case isFalse => exact value
  · intro reads zero
    rw [fields.readsRs2] at reads
    rw [fields.rs2] at zero
    have value := h.rs2 reads zero
    unfold forwardFrom
    split
    case isTrue forwards =>
      simpa only [forwards_other forwards zero, Bool.and_false, Bool.false_and,
        Bool.false_eq_true, if_false] using value
    case isFalse => exact value

@[simp]
theorem simMEM_regData (sim : Simulator) (inst : Instruction)
    : (sim.simMEM inst).2.regData = sim.regData := by
  simp only [Simulator.simMEM]
  split_ifs <;> rfl

@[simp]
theorem simID_regData (sim : Simulator) (inst : Instruction)
    : (sim.simID inst).2.regData = sim.regData := by
  simp only [Simulator.simID]
  split_ifs <;> rfl

/-- WB does not commit an instruction that carries an exception. -/
theorem simWB_faulted (sim : Simulator) {inst : Instruction} (fault : inst.memException = true)
    : (sim.simWB inst).2 = sim := by
  simp [Simulator.simWB, fault]

/-- WB writes the destination register and no other. -/
theorem simWB_regData (sim : Simulator) {inst : Instruction} (kind : inst.HasKind)
    (legal : inst.isLegal = true) (sound : inst.memException = false) {r : U64}
    (nonzero : r ≠ 0)
    : (sim.simWB inst).2.regData r
      = if inst.writes r then inst.result else sim.regData r := by
  simp only [Simulator.simWB, legal, sound, Bool.not_true, Bool.or_self, Bool.false_eq_true,
    if_false]
  cases writes : inst.writesRd with
  | false =>
      simp only [Instruction.writes, writes, Bool.false_and, Bool.and_false, Bool.false_eq_true,
        if_false]
      split_ifs <;> rfl
  | true =>
      obtain ⟨_, halt, nop, _⟩ := kind.writer writes
      simp only [halt, nop, Bool.or_self, Bool.false_eq_true, if_false, Bool.true_and,
        Instruction.writes, writes, Bool.not_false]
      by_cases target : inst.rd = r
      · have wide : r ≠ 0#64 := nonzero
        simp [target, wide, simCommit, Registers.set, Instruction.result]
      · have other : r ≠ inst.rd := fun same => target same.symm
        split <;> simp [other, target, simCommit, Registers.set]

namespace CycleState

variable {κ : Type} {s : CycleState κ}

/-- The register file once every instruction older than the one in EX has committed. -/
def valuesBeforeEX (s : CycleState κ) : Registers := (s.simulator.simWB s.memInst).2.regData

/-- The register file once every instruction older than the one in ID has committed: WB of
the instruction in MEM, then MEM and WB of the one in EX.
-/
def valuesBeforeID (s : CycleState κ) : Registers :=
  let (inst, sim) := (s.simulator.simWB s.memInst).2.simMEM s.exInst
  (sim.simWB inst).2.regData

theorem simAfterMEM_regData (s : CycleState κ)
    : s.simAfterMEM.regData = s.simAfterWB.regData := by
  simp only [simAfterMEM, memAfterAccess]
  split <;> simp

theorem next_regData [CacheUnit κ] (s : CycleState κ)
    : s.next.simulator.regData = s.simAfterWB.regData := by
  rw [← simAfterMEM_regData]
  simp only [next, simAfterID, decoded]
  split <;> simp

theorem simAfterWB_frozen (frozen : s.dStallActive = true) : s.simAfterWB = s.simulator := by
  simp [simAfterWB, frozen]

namespace LatchInv

variable (h : s.LatchInv)
include h

theorem simAfterWB_eq (moving : s.dStallActive = false) (sound : s.memInst.memException = false)
    : s.simAfterWB = (s.simulator.simWB s.memInst).2 := by
  simp [simAfterWB, moving, h.memFaulted_eq, sound]

/-- The value of `r` for the instruction in EX: in MEM, or in the register file. -/
theorem valuesBeforeEX_eq (sound : s.memInst.memException = false) {r : U64} (nonzero : r ≠ 0)
    : s.valuesBeforeEX r
      = if s.memInst.writes r then s.memInst.result else s.simulator.regData r :=
  simWB_regData _ h.inMEM.kind h.inMEM.legal sound nonzero

/-- The register file after a cycle that neither stalls nor traps. -/
theorem next_regData_eq [CacheUnit κ] (moving : s.dStallActive = false)
    (sound : s.memInst.memException = false)
    : s.next.simulator.regData = s.valuesBeforeEX := by
  rw [next_regData, h.simAfterWB_eq moving sound]
  rfl

/-- The value of `r` for the instruction in ID, unless the one in EX is a load of `r`. -/
theorem valuesBeforeID_eq (sound : s.memInst.memException = false) {r : U64} (nonzero : r ≠ 0)
    (noLoad : s.exInst.writes r = true → s.exInst.readsMem = false)
    : s.valuesBeforeID r
      = if s.exInst.writes r then s.exInst.arithResult
        else if s.memInst.writes r then s.memInst.result else s.simulator.regData r := by
  have same := control_simMEM (s.simulator.simWB s.memInst).2 s.exInst
  have fields := Instruction.sameControl same
  have kind := h.inEX.kind.of_control same
  have legal := fields.isLegal.trans h.inEX.legal
  simp only [valuesBeforeID]
  cases fault : ((s.simulator.simWB s.memInst).2.simMEM s.exInst).1.memException with
  | true =>
      -- only a load or store faults, and neither writes `r`
      have access := simMEM_fault h.inEX.fault fault
      have silent : s.exInst.writes r = false := by
        by_contra writes
        simp only [Bool.not_eq_false] at writes
        have store := (h.inEX.kind.writer (Instruction.writesRd_of_writes writes)).2.2.2.1
        simp [noLoad writes, store] at access
      rw [simWB_faulted _ fault, simMEM_regData, ← valuesBeforeEX,
        h.valuesBeforeEX_eq sound nonzero, silent]
      rfl
  | false =>
      rw [simWB_regData _ kind legal fault nonzero, Instruction.writes_of_control same,
        simMEM_regData, ← valuesBeforeEX, h.valuesBeforeEX_eq sound nonzero]
      cases writes : s.exInst.writes r with
      | false => rfl
      | true =>
          have reads := noLoad writes
          have store := (h.inEX.kind.writer (Instruction.writesRd_of_writes writes)).2.2.2.1
          simp [Instruction.result, Simulator.simMEM, h.inEX.legal, h.inEX.fault, reads, store]

/-- The register file seen from EX is the committed one where MEM writes nothing. -/
theorem valuesBeforeEX_silent {r : U64} (nonzero : r ≠ 0)
    (silent : s.memInst.writes r = false)
    : s.valuesBeforeEX r = s.simulator.regData r := by
  cases fault : s.memInst.memException with
  | true => rw [valuesBeforeEX, simWB_faulted _ fault]
  | false => simp [h.valuesBeforeEX_eq fault nonzero, silent]

theorem newMEM_writes (moving : s.dStallActive = false) (r : U64)
    : s.newMEM.writes r = s.exInst.writes r := by
  cases busy : s.exInst.isNop with
  | true => simp [h.newMEM_nop moving busy, Instruction.writes, busy, nop]
  | false => exact Instruction.writes_of_control (h.newMEM_control moving busy) r

theorem newWB_writes (moving : s.dStallActive = false) (sound : s.memInst.memException = false)
    (r : U64)
    : s.newWB.writes r = s.memInst.writes r :=
  Instruction.writes_of_control (h.newWB_eq moving sound).1 r

end LatchInv

-----------------------------------------------------------------------------------------
-- Forwarding into EX and into branch resolution
-----------------------------------------------------------------------------------------

/-- The operand EX receives for `r` when `v` was latched for it: from the nearest producer.
-/
def forwardedToEX (s : CycleState κ) (r v : U64) : U64 :=
  if s.exInst.writes r then s.exInst.arithResult
  else if s.memInst.writes r then s.memInst.result
  else if s.wbInst.writes r then s.wbInst.result
  else v

/-- The operand branch resolution receives for `r`: the nearest producer is in the new MEM.
-/
def forwardedToID (s : CycleState κ) (r v : U64) : U64 :=
  if s.newMEM.writes r then s.newMEM.result
  else if s.newWB.writes r then s.newWB.result
  else if s.wbInst.writes r then s.wbInst.result
  else v

/-- The three forwarding blocks with their shadowing guards. -/
def forwardThree (near middle far : Instruction) (a b c : U64) (inst : Instruction)
    : Instruction :=
  forwardFrom far c (!near.shadows far && !middle.shadows far)
    (forwardFrom middle b (!near.shadows middle) (forwardFrom near a true inst))

/-- The shadowing guards select the nearest producer. -/
theorem nearest_producer {near middle far : Instruction} {r : U64} (nearKind : near.HasKind)
    (middleKind : middle.HasKind) (a b c v : U64)
    : (if far.writes r && (!near.shadows far && !middle.shadows far) then c
        else if middle.writes r && !near.shadows middle then b
        else if near.writes r && true then a else v)
      = if near.writes r then a
        else if middle.writes r then b else if far.writes r then c else v := by
  have overMiddle (target : middle.writes r = true) := nearKind.shadows_eq target
  have overFar (target : far.writes r = true) := nearKind.shadows_eq target
  have middleOverFar (target : far.writes r = true) := middleKind.shadows_eq target
  cases middleWrites : middle.writes r <;> cases farWrites : far.writes r <;>
    cases nearWrites : near.writes r <;>
    simp_all

theorem forwardThree_op1Val {near middle far inst : Instruction} (nearKind : near.HasKind)
    (middleKind : middle.HasKind) (a b c : U64) (reads : inst.readsRs1 = true)
    (nonzero : inst.rs1 ≠ 0)
    : (forwardThree near middle far a b c inst).op1Val
      = if near.writes inst.rs1 then a
        else if middle.writes inst.rs1 then b
        else if far.writes inst.rs1 then c else inst.op1Val := by
  have first := Instruction.sameControl (control_forwardFrom near a true inst)
  have second := (Instruction.sameControl (control_forwardFrom middle b
    (!near.shadows middle) (forwardFrom near a true inst)))
  rw [forwardThree,
    forwardFrom_op1Val _ _ _ (by rw [second.readsRs1, first.readsRs1, reads])
      (by rwa [second.rs1, first.rs1]),
    forwardFrom_op1Val _ _ _ (by rw [first.readsRs1, reads]) (by rwa [first.rs1]),
    forwardFrom_op1Val _ _ _ reads nonzero, second.rs1, first.rs1]
  exact nearest_producer nearKind middleKind a b c _

theorem forwardThree_op2Val {near middle far inst : Instruction} (nearKind : near.HasKind)
    (middleKind : middle.HasKind) (a b c : U64) (reads : inst.readsRs2 = true)
    (nonzero : inst.rs2 ≠ 0)
    : (forwardThree near middle far a b c inst).op2Val
      = if near.writes inst.rs2 then a
        else if middle.writes inst.rs2 then b
        else if far.writes inst.rs2 then c else inst.op2Val := by
  have first := Instruction.sameControl (control_forwardFrom near a true inst)
  have second := (Instruction.sameControl (control_forwardFrom middle b
    (!near.shadows middle) (forwardFrom near a true inst)))
  rw [forwardThree,
    forwardFrom_op2Val _ _ _ (by rw [second.readsRs2, first.readsRs2, reads])
      (by rwa [second.rs2, first.rs2]),
    forwardFrom_op2Val _ _ _ (by rw [first.readsRs2, reads]) (by rwa [first.rs2]),
    forwardFrom_op2Val _ _ _ reads nonzero, second.rs2, first.rs2]
  exact nearest_producer nearKind middleKind a b c _

theorem idEval_eq (moving : s.dStallActive = false) (busy : s.idInst.isNop = false)
    : s.idEval = forwardThree s.newMEM s.newWB s.wbInst s.newMEM.result s.newWB.result
        s.wbInst.result s.idInst := by
  simp only [idEval, moving, busy, Bool.not_false, Bool.and_self, if_true]
  rfl

namespace LatchInv

variable (h : s.LatchInv)
include h

theorem exInput_op1Val (reads : s.idInst.readsRs1 = true) (nonzero : s.idInst.rs1 ≠ 0)
    : s.exInput.op1Val = s.forwardedToEX s.idInst.rs1 s.idInst.op1Val :=
  forwardThree_op1Val h.inEX.kind h.inMEM.kind _ _ _ reads nonzero

theorem exInput_op2Val (reads : s.idInst.readsRs2 = true) (nonzero : s.idInst.rs2 ≠ 0)
    : s.exInput.op2Val = s.forwardedToEX s.idInst.rs2 s.idInst.op2Val :=
  forwardThree_op2Val h.inEX.kind h.inMEM.kind _ _ _ reads nonzero

theorem idEval_op1Val (moving : s.dStallActive = false) (reads : s.idInst.readsRs1 = true)
    (nonzero : s.idInst.rs1 ≠ 0)
    : s.idEval.op1Val = s.forwardedToID s.idInst.rs1 s.idInst.op1Val := by
  rw [idEval_eq moving (h.inID.kind.reader (.inl reads)).2.2]
  exact forwardThree_op1Val h.inMEM_newMEM.kind h.inWB_newWB.kind _ _ _ reads nonzero

theorem idEval_op2Val (moving : s.dStallActive = false) (reads : s.idInst.readsRs2 = true)
    (nonzero : s.idInst.rs2 ≠ 0)
    : s.idEval.op2Val = s.forwardedToID s.idInst.rs2 s.idInst.op2Val := by
  rw [idEval_eq moving (h.inID.kind.reader (.inr reads)).2.2]
  exact forwardThree_op2Val h.inMEM_newMEM.kind h.inWB_newWB.kind _ _ _ reads nonzero

end LatchInv

/-- The data a store in EX writes: WB-to-MEM forwarding replaces what it took along. -/
def storedData (s : CycleState κ) : U64 :=
  if s.wbInst.writes s.exInst.rs2 = true ∧ s.exInst.rs2 ≠ 0 then s.wbInst.result
  else s.exInst.op2Val

theorem memInput_op1Val (s : CycleState κ) : s.memInput.op1Val = s.exInst.op1Val := by
  have generated (inst : Instruction) : (simAddrGen inst).op1Val = inst.op1Val := by
    unfold simAddrGen
    split_ifs <;> rfl
  simp only [memInput, apply_ite Instruction.op1Val, generated, ite_self]

theorem memInput_op2Val (store : s.exInst.writesMem = true)
    : s.memInput.op2Val = s.storedData := by
  have generated (inst : Instruction) : (simAddrGen inst).op2Val = inst.op2Val := by
    unfold simAddrGen
    split_ifs <;> rfl
  simp only [memInput, apply_ite Instruction.op2Val, generated, ite_self, storedData]
  by_cases target : s.wbInst.rd = s.exInst.rs2
  · simp [Instruction.writes, store, target, and_assoc]
  · simp [Instruction.writes, target]

theorem simWB_memory (sim : Simulator) (inst : Instruction)
    : (sim.simWB inst).2.memory = sim.memory := by
  simp only [Simulator.simWB]
  split_ifs <;> rfl

theorem simAfterWB_memory (s : CycleState κ) : s.simAfterWB.memory = s.simulator.memory := by
  simp only [simAfterWB]
  split
  · rfl
  · exact simWB_memory _ _

theorem simID_memory (sim : Simulator) (inst : Instruction)
    : (sim.simID inst).2.memory = sim.memory := by
  simp only [Simulator.simID]
  split_ifs <;> rfl

theorem next_memory [CacheUnit κ] (s : CycleState κ)
    : s.next.simulator.memory = s.simAfterMEM.memory := by
  simp only [next, simAfterID, decoded]
  split
  · exact simID_memory _ _
  · rfl

namespace LatchInv

variable (h : s.LatchInv)
include h

/-- The load in EX reads memory as it is, and faults if it cannot. -/
theorem memAfterAccess_load (reads : s.exInst.readsMem = true)
    : s.memAfterAccess.2 = s.simAfterWB
      ∧ (s.memAfterAccess.1.memException = false
        ↔ (s.simulator.memory.getMemValue (simAddrGen s.exInst).memAddress
            (accessSize s.exInst)).1 = 0) := by
  have fields := Instruction.sameControl s.control_memInput
  have address := memAddress_congr s.control_memInput (memInput_op1Val s) (.inl reads)
  have size : accessSize s.memInput = accessSize s.exInst := by
    simp only [accessSize, fields.funct3]
  rw [← address, ← size, ← simAfterWB_memory]
  exact simMEM_load s.simAfterWB (fields.isLegal.trans h.inEX.legal)
    ((memInput_memException s).trans h.inEX.fault) (fields.readsMem.trans reads)

/-- The store in EX writes its data to memory, and faults if it cannot. -/
theorem memAfterAccess_store (writes : s.exInst.writesMem = true)
    : s.memAfterAccess.2.memory
        = (s.simulator.memory.setMemValue (simAddrGen s.exInst).memAddress s.storedData
            (accessSize s.exInst)).2
      ∧ (s.memAfterAccess.1.memException = false
        ↔ (s.simulator.memory.setMemValue (simAddrGen s.exInst).memAddress s.storedData
            (accessSize s.exInst)).1 = 0) := by
  have fields := Instruction.sameControl s.control_memInput
  have noLoad := (h.inEX.kind.store writes).readsMem
  have address := memAddress_congr s.control_memInput (memInput_op1Val s) (.inr writes)
  have size : accessSize s.memInput = accessSize s.exInst := by
    simp only [accessSize, fields.funct3]
  obtain ⟨written, fault⟩ := simMEM_store s.simAfterWB (fields.isLegal.trans h.inEX.legal)
    ((memInput_memException s).trans h.inEX.fault) (fields.readsMem.trans noLoad)
    (fields.writesMem.trans writes)
  rw [address, size, memInput_op2Val writes, simAfterWB_memory] at written fault
  exact ⟨congrArg Simulator.memory written, fault⟩

theorem memAfterAccess_other (noLoad : s.exInst.readsMem = false)
    (noStore : s.exInst.writesMem = false)
    : s.memAfterAccess.2 = s.simAfterWB ∧ s.memAfterAccess.1.memException = false := by
  have fields := Instruction.sameControl s.control_memInput
  exact simMEM_other s.simAfterWB (fields.isLegal.trans h.inEX.legal)
    ((memInput_memException s).trans h.inEX.fault) (fields.readsMem.trans noLoad)
    (fields.writesMem.trans noStore)

/-- Only a store changes memory. -/
theorem memAfterAccess_kept (noStore : s.exInst.writesMem = false)
    : s.memAfterAccess.2 = s.simAfterWB := by
  cases reads : s.exInst.readsMem with
  | true => exact (h.memAfterAccess_load reads).1
  | false => exact (h.memAfterAccess_other reads noStore).1

/-- The D-cache is accessed exactly by the loads and stores that do not fault. -/
theorem accessesDCache_eq
    : s.accessesDCache
      = (!s.dStallActive && (s.exInst.readsMem || s.exInst.writesMem)
          && !s.memAfterAccess.1.memException) := by
  have fields := Instruction.sameControl s.control_memInput
  have after := Instruction.sameControl
    ((control_simMEM s.simAfterWB s.memInput).trans s.control_memInput)
  have legal : s.memAfterAccess.1.isLegal = true := after.isLegal.trans h.inEX.legal
  simp only [accessesDCache, h.memActive_eq, fields.readsMem, fields.writesMem, legal,
    Bool.and_true]
  cases nop : s.exInst.isNop with
  | false => simp
  | true =>
      have signals := h.inEX.kind.nop nop
      simp [signals.readsMem, signals.writesMem]

/-- Unless it stalls, it is left alone if and only if the access in EX fails. -/
theorem accessesDCache_iff (moving : s.dStallActive = false)
    : s.accessesDCache = false
      ↔ (s.exInst.readsMem = true
          → (s.simulator.memory.getMemValue (simAddrGen s.exInst).memAddress
              (accessSize s.exInst)).1 ≠ 0)
        ∧ (s.exInst.writesMem = true
          → (s.simulator.memory.setMemValue (simAddrGen s.exInst).memAddress s.storedData
              (accessSize s.exInst)).1 ≠ 0) := by
  rw [h.accessesDCache_eq, moving]
  cases reads : s.exInst.readsMem with
  | true =>
      have noStore := (h.inEX.kind.load reads).writesMem
      have fault := (h.memAfterAccess_load reads).2
      cases outcome : s.memAfterAccess.1.memException <;> simp_all
  | false =>
      cases writes : s.exInst.writesMem with
      | false => simp
      | true =>
          have fault := (h.memAfterAccess_store writes).2
          cases outcome : s.memAfterAccess.1.memException <;> simp_all

end LatchInv

/-- The instruction held in ID has latched `v` for `r`, the current value is in the register
file already, and the only latch that still shows the producer is WB, which moves on. The
instruction will leave ID with the outdated `v`.
-/
def losesOperand (s : CycleState κ) (r v : U64) : Bool :=
  r != 0 && s.wbInst.writes r && !s.exInst.writes r && !s.memInst.writes r
  && v != s.simulator.regData r

/-- One of the chosen source registers of the instruction in ID is lost in this cycle, which
holds the instruction and raises no exception that squashes it.
-/
def losesOperands (which : Sources) (s : CycleState κ) : Bool :=
  s.held && !s.wbMemException
  && ((which.rs1 s.idInst && s.idInst.readsRs1 && s.losesOperand s.idInst.rs1 s.idInst.op1Val)
    || (which.rs2 s.idInst && s.idInst.readsRs2
      && s.losesOperand s.idInst.rs2 s.idInst.op2Val))

/-- The value of `r` was latched as `v`, or a latch still has it. -/
def Findable (s : CycleState κ) (r v : U64) : Prop :=
  v = s.simulator.regData r ∨ s.exInst.writes r = true ∨ s.memInst.writes r = true
  ∨ s.wbInst.writes r = true

/-- The chosen operands can still be had: what WB shows is committed, what ID latched is
findable, and what EX stores is current, unless the load of it is right ahead in MEM.
-/
structure OperandInv (which : Sources) (s : CycleState κ) : Prop where
  committed
    : ∀ r, r ≠ 0 → s.wbInst.writes r = true → s.wbInst.result = s.simulator.regData r
  operands : s.idInst.Operands which s.Findable
  zero : s.idInst.ZeroOperands
  storeData
    : (∀ inst : Instruction, inst.writesMem = true → which.rs2 inst = true)
      → s.exInst.writesMem = true → s.exInst.rs2 ≠ 0
      → s.exInst.op2Val = s.valuesBeforeEX s.exInst.rs2
        ∨ (s.memInst.writes s.exInst.rs2 = true ∧ s.memInst.readsMem = true)

theorem valuesBeforeEX_congr {s t : CycleState κ} (latch : s.memInst = t.memInst)
    (registers : s.simulator.regData = t.simulator.regData)
    : s.valuesBeforeEX = t.valuesBeforeEX := by
  simp only [valuesBeforeEX, Simulator.simWB, latch, registers]
  split_ifs <;> first | exact registers | rfl

variable {which : Sources}

theorem operands_nop (status : StageStatus) (P : U64 → U64 → Prop)
    : (nop status).Operands which P :=
  ⟨fun _ reads => by simp [nop] at reads, fun _ reads => by simp [nop] at reads⟩

theorem zeroOperands_nop (status : StageStatus) : (nop status).ZeroOperands :=
  ⟨fun reads => by simp [nop] at reads, fun reads => by simp [nop] at reads⟩

theorem operandInv_initCycle (past : CycleState κ) (iCache dCache : κ) (mem : MemoryStore)
    : (initCycle past iCache dCache mem).OperandInv which where
  committed := fun r _ writes => by simp [initCycle] at writes
  operands := operands_nop _ _
  zero := zeroOperands_nop _
  storeData := fun _ store => by simp [initCycle, nop] at store

/-- Decoding latches the operands from the register file. -/
theorem simID_collected (sim : Simulator) {inst : Instruction} (fetched : inst.Fetched)
    : (sim.simID inst).1.Collected sim.regData := by
  have fields := Instruction.sameControl (simID_control sim inst)
  have kind := fetched.decoded.hasKind
  have legal (reads : (simDecode inst).readsRs1 = true ∨ (simDecode inst).readsRs2 = true)
      : (simDecode inst).isLegal = true := (kind.reader reads).1
  constructor
  · intro reads
    rw [fields.readsRs1] at reads
    rw [fields.rs1]
    simp only [Simulator.simID, simOperandCollection]
    split_ifs <;> simp_all
  · intro reads
    rw [fields.readsRs2] at reads
    rw [fields.rs2]
    simp only [Simulator.simID, simOperandCollection]
    split_ifs <;> simp_all

theorem simID_operands (sim : Simulator) {inst : Instruction} (fetched : inst.Fetched)
    : (sim.simID inst).1.Operands which fun r v => v = sim.regData r :=
  (simID_collected sim fetched).operands

theorem simID_zeroOperands (sim : Simulator) {inst : Instruction} (fetched : inst.Fetched)
    : (sim.simID inst).1.ZeroOperands :=
  (simID_collected sim fetched).zeroOperands

theorem zeroOperands_forwardThree (near middle far : Instruction) (a b c : U64)
    {inst : Instruction} (h : inst.ZeroOperands)
    : (forwardThree near middle far a b c inst).ZeroOperands :=
  zeroOperands_forwardFrom _ _ _ (zeroOperands_forwardFrom _ _ _
    (zeroOperands_forwardFrom _ _ _ h))

theorem OperandInv.zeroOperands_exInput (h : s.OperandInv which) : s.exInput.ZeroOperands :=
  zeroOperands_forwardThree _ _ _ _ _ _ h.zero

theorem OperandInv.zeroOperands_idEval (h : s.OperandInv which)
    (moving : s.dStallActive = false) (busy : s.idInst.isNop = false)
    : s.idEval.ZeroOperands :=
  idEval_eq moving busy ▸ zeroOperands_forwardThree _ _ _ _ _ _ h.zero

-----------------------------------------------------------------------------------------
-- The forwarded values are those of program order
-----------------------------------------------------------------------------------------

namespace OperandInv

variable (h : s.OperandInv which) (l : s.LatchInv)
include h l

/-- Without a load of `r` in EX, what EX receives for `r` is its program-order value. -/
theorem forwardedToEX_eq (sound : s.memInst.memException = false) {r v : U64}
    (nonzero : r ≠ 0) (noLoad : s.exInst.writes r = true → s.exInst.readsMem = false)
    (findable : s.Findable r v)
    : s.forwardedToEX r v = s.valuesBeforeID r := by
  rw [l.valuesBeforeID_eq sound nonzero noLoad, forwardedToEX]
  cases ex : s.exInst.writes r with
  | true => rfl
  | false =>
      cases mem : s.memInst.writes r with
      | true => rfl
      | false =>
          cases wb : s.wbInst.writes r with
          | true => simpa using h.committed r nonzero wb
          | false => simpa [Findable, ex, mem, wb] using findable

/-- With no producer of `r` in EX, branch resolution receives its program-order value. -/
theorem forwardedToID_eq (moving : s.dStallActive = false)
    (sound : s.memInst.memException = false) {r v : U64} (nonzero : r ≠ 0)
    (clear : s.exInst.writes r = false) (findable : s.Findable r v)
    : s.forwardedToID r v = s.valuesBeforeID r := by
  rw [l.valuesBeforeID_eq sound nonzero (by simp [clear]), forwardedToID,
    l.newMEM_writes moving, l.newWB_writes moving sound, (l.newWB_eq moving sound).2.2.2, clear]
  cases mem : s.memInst.writes r with
  | true => rfl
  | false =>
      cases wb : s.wbInst.writes r with
      | true => simpa using h.committed r nonzero wb
      | false => simpa [Findable, clear, mem, wb] using findable

end OperandInv

variable [CacheUnit κ]

omit [CacheUnit κ] in
theorem LatchInv.newMEM_result (l : s.LatchInv) (moving : s.dStallActive = false) {r : U64}
    (writes : s.exInst.writes r = true) (noLoad : s.exInst.readsMem = false)
    : s.newMEM.memException = false ∧ s.newMEM.result = s.exInst.arithResult := by
  simp only [Instruction.writes, Bool.and_eq_true, Bool.not_eq_true'] at writes
  have store := (l.inEX.kind.writer writes.1.2).2.2.2.1
  have input : s.memInput = s.exInst := by simp [memInput, noLoad, store]
  rw [l.newMEM_active moving writes.1.1, memAfterAccess, input]
  simp [Simulator.simMEM, l.inEX.legal, l.inEX.fault, noLoad, store, Instruction.result]

theorem LatchInv.committed_next (l : s.LatchInv) (r : U64) (nonzero : r ≠ 0)
    (writes : s.next.wbInst.writes r = true)
    : s.next.wbInst.result = s.next.simulator.regData r := by
  simp only [next] at writes
  cases frozen : s.dStallActive with
  | true => simp [newWB, frozen] at writes
  | false =>
      cases fault : s.memInst.memException with
      | true => simp [newWB, frozen, l.memFaulted_eq, fault] at writes
      | false =>
          rw [l.newWB_writes frozen fault] at writes
          rw [l.next_regData_eq frozen fault, l.valuesBeforeEX_eq fault nonzero, if_pos writes]
          exact (l.newWB_eq frozen fault).2.2.2

/-- An operand of a held instruction stays findable unless it is lost. -/
theorem findable_held (l : s.LatchInv) (trap : s.wbMemException = false) {r v : U64}
    (nonzero : r ≠ 0) (keeps : s.losesOperand r v = false)
    (findable : s.Findable r v)
    : s.next.Findable r v := by
  have current
      : v = s.simulator.regData r ∨ s.exInst.writes r = true ∨ s.memInst.writes r = true := by
    have wide : r ≠ 0#64 := nonzero
    rcases findable with latched | ex | mem | wb
    · exact .inl latched
    · exact .inr (.inl ex)
    · exact .inr (.inr mem)
    · by_contra other
      simp only [not_or, Bool.not_eq_true] at other
      simp [losesOperand, wide, wb, other] at keeps
  simp only [Findable, next_exInst trap, next_memInst trap]
  cases active : s.dStallActive with
  | true =>
      rw [next_regData, simAfterWB_frozen active]
      simp only [newEX, newMEM, active, if_true]
      tauto
  | false =>
      have sound := l.calm_iff.mp trap
      rw [l.next_regData_eq active sound, l.newMEM_writes active,
        l.valuesBeforeEX_eq sound nonzero]
      have newWB : s.next.wbInst.writes r = s.memInst.writes r := l.newWB_writes active sound r
      rw [newWB]
      cases mem : s.memInst.writes r with
      | true => simp
      | false =>
          simp only [mem, Bool.false_eq_true, or_false, if_false] at current ⊢
          tauto

theorem OperandInv.operands_next (l : s.LatchInv) (h : s.OperandInv which)
    (keeps : s.losesOperands which = false)
    : s.next.idInst.Operands which s.next.Findable := by
  cases trap : s.wbMemException with
  | true => simpa [next, trap] using operands_nop _ _
  | false =>
      rw [next_idInst trap]
      rcases s.newID_cases with ⟨frozen, same⟩ | ⟨_, _, status, _, same⟩ | ⟨_, decodes, same⟩
      · rw [same]
        simp only [losesOperands, frozen, trap, Bool.not_false, Bool.true_and,
          Bool.or_eq_false_iff] at keeps
        constructor
        · intro chosen reads nonzero
          exact findable_held l trap nonzero (by simpa [chosen, reads] using keeps.1)
            (h.operands.rs1 chosen reads nonzero)
        · intro chosen reads nonzero
          exact findable_held l trap nonzero (by simpa [chosen, reads] using keeps.2)
            (h.operands.rs2 chosen reads nonzero)
      · rw [same]
        exact operands_nop _ _
      · have busy : s.ifInst.isNop = false := by
          by_contra empty
          simp [CycleState.decodes, empty] at decodes
        have latched : s.decoded.1.Operands which fun r v => v = s.simAfterMEM.regData r :=
          simID_operands s.simAfterMEM (l.fetched busy)
        rw [same]
        rw [simAfterMEM_regData, ← next_regData] at latched
        exact ⟨fun chosen reads nonzero => .inl (latched.rs1 chosen reads nonzero),
          fun chosen reads nonzero => .inl (latched.rs2 chosen reads nonzero)⟩

theorem zeroOperands_newID (l : s.LatchInv) (zero : s.idInst.ZeroOperands)
    : s.next.idInst.ZeroOperands := by
  cases trap : s.wbMemException with
  | true => simpa [next, trap] using zeroOperands_nop _
  | false =>
      rw [next_idInst trap]
      rcases s.newID_cases with ⟨_, same⟩ | ⟨_, _, status, _, same⟩ | ⟨_, decodes, same⟩
      · rw [same]
        exact zero
      · rw [same]
        exact zeroOperands_nop _
      · rw [same]
        exact simID_zeroOperands s.simAfterMEM (l.fetched (decodes_clear decodes).2.2.2.2)

/-- The data a store takes along into EX is current, unless EX holds the load of it. -/
theorem OperandInv.storeData_issued (l : s.LatchInv) (h : s.OperandInv which)
    (moving : s.dStallActive = false) (sound : s.memInst.memException = false)
    (legal : s.idInst.isLegal = true) (free : s.hazardStall = false)
    (chosen : ∀ inst : Instruction, inst.writesMem = true → which.rs2 inst = true)
    (store : s.newEX.writesMem = true) (nonzero : s.newEX.rs2 ≠ 0)
    : s.newEX.op2Val = s.next.valuesBeforeEX s.newEX.rs2
      ∨ (s.newMEM.writes s.newEX.rs2 = true ∧ s.newMEM.readsMem = true) := by
  have fields := Instruction.sameControl
    (l.newEX_issued (held_free.mpr ⟨moving, free⟩) legal).1
  rw [fields.writesMem] at store
  rw [fields.rs2] at nonzero ⊢
  have signals := l.inID.kind.store store
  have reads := signals.readsRs2
  have data : s.newEX.op2Val = s.forwardedToEX s.idInst.rs2 s.idInst.op2Val := by
    have arith : s.exInput.doesArithLogic = false :=
      (Instruction.sameControl s.control_exInput).doesArithLogic.trans signals.doesArithLogic
    rw [← l.exInput_op2Val reads nonzero]
    simp only [newEX, moving, legal, free, Simulator.simEX, arith, Bool.not_true, Bool.and_false,
      Bool.false_eq_true, if_false]
    split_ifs <;> rfl
  have trap := l.calm_iff.mpr sound
  cases ex : s.exInst.writes s.idInst.rs2 with
  | false =>
      left
      have silent : s.next.memInst.writes s.idInst.rs2 = false := by
        rw [next_memInst trap, l.newMEM_writes moving, ex]
      rw [data, l.inv_next.valuesBeforeEX_silent nonzero silent, l.next_regData_eq moving sound,
        h.forwardedToEX_eq l sound nonzero (by simp [ex])
          (h.operands.rs2 (chosen _ store) reads nonzero),
        l.valuesBeforeID_eq sound nonzero (by simp [ex]), l.valuesBeforeEX_eq sound nonzero, ex]
      rfl
  | true =>
      cases load : s.exInst.readsMem with
      | false =>
          left
          obtain ⟨unfaulted, value⟩ := l.newMEM_result moving ex load
          have writes : s.next.memInst.writes s.idInst.rs2 = true := by
            rw [next_memInst trap, l.newMEM_writes moving, ex]
          rw [data, l.inv_next.valuesBeforeEX_eq (by rw [next_memInst trap, unfaulted]) nonzero,
            if_pos writes, next_memInst trap, value, forwardedToEX, if_pos ex]
      | true =>
          right
          have busy : s.exInst.isNop = false := by
            simp only [Instruction.writes, Bool.and_eq_true, Bool.not_eq_true'] at ex
            exact ex.1.1
          exact ⟨by rw [l.newMEM_writes moving, ex],
            by rw [(Instruction.sameControl (l.newMEM_control moving busy)).readsMem, load]⟩

theorem OperandInv.storeData_next (l : s.LatchInv) (h : s.OperandInv which)
    (chosen : ∀ inst : Instruction, inst.writesMem = true → which.rs2 inst = true)
    (store : s.next.exInst.writesMem = true) (nonzero : s.next.exInst.rs2 ≠ 0)
    : s.next.exInst.op2Val = s.next.valuesBeforeEX s.next.exInst.rs2
      ∨ (s.next.memInst.writes s.next.exInst.rs2 = true ∧ s.next.memInst.readsMem = true) := by
  cases trap : s.wbMemException with
  | true => simp [next, trap, nop] at store
  | false =>
      rw [next_exInst trap] at store nonzero ⊢
      rw [next_memInst trap]
      cases active : s.dStallActive with
      | true =>
          have same : s.next.valuesBeforeEX = s.valuesBeforeEX := by
            refine valuesBeforeEX_congr ?_ ?_
            · simp [next_memInst trap, newMEM, active]
            · rw [next_regData, simAfterWB_frozen active]
          simp only [newEX, newMEM, active, if_true] at store nonzero ⊢
          rw [same]
          exact h.storeData chosen store nonzero
      | false =>
          have legal : s.idInst.isLegal = true := by
            by_contra illegal
            simp [l.newEX_illegal active (by simpa using illegal), nop] at store
          have free : s.hazardStall = false := by
            by_contra hazard
            simp [l.newEX_hazard active (by simpa using hazard), nop] at store
          exact h.storeData_issued l active (l.calm_iff.mp trap) legal free chosen store nonzero

/-- One cycle that loses no operand keeps every operand findable. -/
theorem OperandInv.inv_next (l : s.LatchInv) (h : s.OperandInv which)
    (keeps : s.losesOperands which = false) : s.next.OperandInv which where
  committed := l.committed_next
  operands := h.operands_next l keeps
  zero := zeroOperands_newID l h.zero
  storeData := h.storeData_next l

/-- Both invariants hold as long as no cycle has lost an operand. -/
theorem operandInv_reachable {past : CycleState κ} {iCache dCache : κ} {mem : MemoryStore}
    (reach
      : Runs.ReachableUnder next (fun t => t.losesOperands which = false)
          (initCycle past iCache dCache mem) s)
    : s.LatchInv ∧ s.OperandInv which := by
  let both (t : CycleState κ) : Prop := t.LatchInv ∧ t.OperandInv which
  have start : both (initCycle past iCache dCache mem) :=
    ⟨latchInv_initCycle past iCache dCache mem, operandInv_initCycle past iCache dCache mem⟩
  exact reach.invariant start fun _ inv keeps =>
    ⟨inv.1.inv_next, inv.2.inv_next inv.1 keeps⟩

end CycleState
end RiscvSim
