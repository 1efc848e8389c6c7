import RiscvSim.Instructions.MemoryBytes
import RiscvSim.Pipeline.Operands

/-! What one cycle does to the registers, to memory and to the D-cache: what `simWB` commits for
the instruction that leaves MEM, and what the one that leaves EX accesses.
-/

namespace RiscvSim

/-- What `simWB` commits follows from the signals of an instruction, its fault and its result. -/
theorem simWB_commits (sim : Simulator) (inst : Instruction)
    : (sim.simWB inst).2.regData
      = if !(!inst.isLegal || inst.memException) && !(inst.isHalt || inst.isNop)
          && inst.writesRd && inst.rd != 0 then
          sim.regData.set inst.rd inst.result
        else sim.regData := by
  simp only [Simulator.simWB]
  split_ifs <;> simp_all [simCommit, Instruction.result]

/-- What an access leaves in memory follows from its signals, its address and its data. -/
theorem simMemAccess_memory (inst : Instruction) (mem : MemoryStore)
    : (simMemAccess inst mem).2
      = if inst.writesMem && !inst.readsMem then
          (mem.setMemValue inst.memAddress inst.op2Val (accessSize inst)).2
        else mem := by
  simp only [simMemAccess]
  cases inst.readsMem <;> cases inst.writesMem <;> simp <;> split_ifs <;> rfl

theorem simMemAccess_memAddress (inst : Instruction) (mem : MemoryStore)
    : (simMemAccess inst mem).1.memAddress = inst.memAddress := by
  simp only [simMemAccess]
  split_ifs <;> rfl

theorem simAddrGen_operands (inst : Instruction)
    : (simAddrGen inst).op1Val = inst.op1Val ∧ (simAddrGen inst).op2Val = inst.op2Val := by
  simp only [simAddrGen]
  split_ifs <;> exact ⟨rfl, rfl⟩

theorem simMEM_operands (sim : Simulator) (inst : Instruction)
    : (sim.simMEM inst).1.op1Val = inst.op1Val ∧ (sim.simMEM inst).1.op2Val = inst.op2Val := by
  have accessed (i : Instruction)
      : (simMemAccess i sim.memory).1.op1Val = i.op1Val
        ∧ (simMemAccess i sim.memory).1.op2Val = i.op2Val := by
    simp only [simMemAccess]
    split_ifs <;> exact ⟨rfl, rfl⟩
  simp only [Simulator.simMEM]
  split_ifs <;> simp [accessed, simAddrGen_operands]

/-- The access of MEM for `inst`: to memory and, unless it faults, to the D-cache. -/
def accessData {κ : Type} [CacheUnit κ] (data : MemoryStore × κ) (inst : Instruction)
    : MemoryStore × κ :=
  let (inst, memory) := simMemAccess (simAddrGen inst) data.1
  (memory,
    if inst.memException then data.2
    else
      (CacheUnit.access data.2 inst.memAddress (if inst.writesMem then .write else .read)).2)

namespace CycleState

variable {κ : Type} {s : CycleState κ}

-----------------------------------------------------------------------------------------
-- The registers
-----------------------------------------------------------------------------------------

/-- WB writes a register for the instruction in MEM: the guards of `simWB`. -/
def writesRegister (s : CycleState κ) : Bool :=
  !s.dStallActive && !s.memFaulted
  && !(!s.memInst.isLegal || s.memInst.memException)
  && !(s.memInst.isHalt || s.memInst.isNop)
  && s.memInst.writesRd && s.memInst.rd != 0

theorem simAfterWB_regData (s : CycleState κ)
    : s.simAfterWB.regData
      = if s.writesRegister then s.simulator.regData.set s.memInst.rd s.memInst.result
        else s.simulator.regData := by
  unfold simAfterWB writesRegister
  cases active : s.dStallActive with
  | true => rfl
  | false =>
      cases fault : s.memFaulted with
      | true => rfl
      | false => exact simWB_commits s.simulator s.memInst

variable [CacheUnit κ]

theorem registers_unwritten (silent : s.writesRegister = false)
    : s.next.simulator.regData = s.simulator.regData := by
  rw [next_regData, simAfterWB_regData, silent]
  rfl

theorem registers_written (writes : s.writesRegister = true)
    : s.next.simulator.regData = simCommit s.memInst s.simulator.regData := by
  rw [next_regData, simAfterWB_regData, if_pos writes]
  rfl

/-- The registers change by what WB commits for the instruction that enters it. -/
theorem LatchInv.registers_entersWB (h : s.LatchInv)
    : s.next.simulator.regData
      = s.entersWB.elim s.simulator.regData
          fun inst => (s.simulator.simWB inst).2.regData := by
  rw [next_regData, simAfterWB]
  cases active : s.dStallActive with
  | true => simp [entersWB, newWB, active, bubble_inFlight]
  | false =>
      rw [h.memFaulted_eq]
      cases fault : s.memInst.memException with
      | true => simp [entersWB, newWB, active, h.memFaulted_eq, fault, bubble_inFlight]
      | false =>
          obtain ⟨control, flight, sound, result⟩ := h.newWB_eq active fault
          have fields := Instruction.sameControl control
          have same : (s.simulator.simWB s.memInst).2.regData
              = (s.simulator.simWB s.newWB).2.regData := by
            simp only [simWB_commits, fields.isLegal, fields.isHalt, fields.isNop,
              fields.writesRd, fields.rd, fault, sound, result]
          rw [entersWB, flight]
          cases busy : s.memInst.inFlight with
          | true => simpa using same
          | false => simp [simWB_commits, h.inMEM.empty busy]

-----------------------------------------------------------------------------------------
-- Memory and the D-cache
-----------------------------------------------------------------------------------------

/-- MEM writes at least the first byte of a store in EX, or accesses the D-cache for it. -/
def touchesMemory (s : CycleState κ) : Bool :=
  (s.memActive && s.exInst.writesMem
    && (s.simulator.memory.at?
      ((simAddrGen s.exInst).memAddress - s.simulator.memory.startAddr)).isSome)
  || s.accessesDCache

omit [CacheUnit κ] in
/-- Memory is touched for a load or store that MEM runs for. -/
theorem touchesMemory_active (touches : s.touchesMemory = true)
    : s.memActive = true ∧ (s.exInst.readsMem = true ∨ s.exInst.writesMem = true) := by
  have fields := Instruction.sameControl s.control_memInput
  simp only [touchesMemory, accessesDCache, Bool.or_eq_true, Bool.and_eq_true, fields.readsMem,
    fields.writesMem] at touches
  rcases touches with store | access
  · exact ⟨store.1.1, .inr store.1.2⟩
  · exact ⟨access.1.1, access.1.2⟩

theorem memory_untouched (h : s.LatchInv) (silent : s.touchesMemory = false)
    : s.next.simulator.memory = s.simulator.memory ∧ s.next.dCache = s.dCache := by
  simp only [touchesMemory, Bool.or_eq_false_iff] at silent
  refine ⟨?_, by simp [next, dCacheNext, silent.2]⟩
  rw [next_memory, simAfterMEM]
  cases active : s.memActive with
  | false => exact simAfterWB_memory s
  | true =>
      simp only [if_true]
      cases writes : s.exInst.writesMem with
      | true =>
          have outside : s.simulator.memory.at?
              ((simAddrGen s.exInst).memAddress - s.simulator.memory.startAddr) = none := by
            simpa [active, writes] using silent.1
          rw [(h.memAfterAccess_store writes).1, MemoryStore.setMemValue_unwritten outside]
      | false => rw [h.memAfterAccess_kept writes, simAfterWB_memory]

omit [CacheUnit κ] in
/-- MEM receives the address already generated. -/
theorem memInput_memAddress (access : s.exInst.readsMem = true ∨ s.exInst.writesMem = true)
    : s.memInput.memAddress = (simAddrGen s.memInput).memAddress := by
  have generated (inst : Instruction) (again : inst.readsMem = true ∨ inst.writesMem = true)
      : (simAddrGen inst).memAddress = (simAddrGen (simAddrGen inst)).memAddress :=
    (memAddress_congr (control_simAddrGen inst) (simAddrGen_operands inst).1 again).symm
  simp only [memInput]
  split
  · split
    · exact generated _ access
    · rename_i _ none
      exact absurd (by simpa using access) none
  · split
    · exact generated _ access
    · rename_i _ none
      exact absurd (by simpa using access) none

omit [CacheUnit κ] in
/-- A load or store that MEM runs for is accessed through `simMemAccess`. -/
theorem LatchInv.memAfterAccess_access (h : s.LatchInv)
    (access : s.exInst.readsMem = true ∨ s.exInst.writesMem = true)
    : s.memAfterAccess.1.memException
          = (simMemAccess (simAddrGen s.memInput) s.simulator.memory).1.memException
      ∧ s.memAfterAccess.2.memory
          = (simMemAccess (simAddrGen s.memInput) s.simulator.memory).2 := by
  have fields := Instruction.sameControl s.control_memInput
  have accessed := simMEM_access s.simAfterWB (fields.isLegal.trans h.inEX.legal)
    ((memInput_memException s).trans h.inEX.fault)
    (by rwa [fields.readsMem, fields.writesMem])
  rw [simAfterWB_memory] at accessed
  rw [memAfterAccess, accessed]
  exact ⟨rfl, rfl⟩

/-- Memory and the D-cache change by the access of the instruction in EX. -/
theorem memory_touched (h : s.LatchInv) (touches : s.touchesMemory = true)
    : (s.next.simulator.memory, s.next.dCache)
      = accessData (s.simulator.memory, s.dCache) s.memInput := by
  have fields := Instruction.sameControl s.control_memInput
  obtain ⟨active, access⟩ := touchesMemory_active touches
  have legal : s.memAfterAccess.1.isLegal = true :=
    (Instruction.sameControl ((control_simMEM s.simAfterWB s.memInput).trans
      s.control_memInput)).isLegal.trans h.inEX.legal
  have after := Instruction.sameControl ((control_simMemAccess (simAddrGen s.memInput)
    s.simulator.memory).trans (control_simAddrGen s.memInput))
  obtain ⟨fault, memory⟩ := h.memAfterAccess_access access
  have guard : (s.memInput.readsMem || s.memInput.writesMem) = true := by
    simpa [fields.readsMem, fields.writesMem] using access
  rw [Prod.ext_iff]
  refine ⟨?_, ?_⟩
  · show s.next.simulator.memory = (simMemAccess (simAddrGen s.memInput) _).2
    rw [next_memory, simAfterMEM, if_pos active, memory]
  · show s.dCacheNext = _
    simp only [dCacheNext, accessesDCache, active, guard, legal, fault, accessData,
      simMemAccess_memAddress, ← memInput_memAddress access, after.writesMem]
    cases (simMemAccess (simAddrGen s.memInput) s.simulator.memory).1.memException <;> rfl

/-- Memory changes by the access of the instruction that enters MEM. -/
theorem LatchInv.memory_entersMEM (h : s.LatchInv) (calm : s.wbMemException = false)
    : s.next.simulator.memory
      = s.entersMEM.elim s.simulator.memory
          fun inst => (simMemAccess (simAddrGen inst) s.simulator.memory).2 := by
  rw [next_memory, simAfterMEM, h.memActive_eq]
  cases active : s.dStallActive with
  | true => simp [entersMEM, active, simAfterWB_memory]
  | false =>
      cases nop : s.exInst.isNop with
      | true =>
          have passed := h.newMEM_nop active nop
          simp only [entersMEM, active, calm, passed]
          cases (RiscvSim.nop s.exInst.status).inFlight
            <;> simp [simAfterWB_memory, simMemAccess_memory, simAddrGen, RiscvSim.nop]
      | false =>
          have passed := h.newMEM_active active nop
          have flight : s.newMEM.inFlight = true :=
            (h.newMEM_inFlight active).trans (h.ex_inFlight nop)
          have same := h.newMEM_control active nop
          have fields := Instruction.sameControl
            ((control_simAddrGen s.newMEM).trans same)
          have enters : s.entersMEM = some s.newMEM := by simp [entersMEM, active, calm, flight]
          rw [enters, Option.elim_some, simMemAccess_memory, fields.readsMem, fields.writesMem]
          cases writes : s.exInst.writesMem with
          | false =>
              rw [h.memAfterAccess_kept writes]
              simp [simAfterWB_memory]
          | true =>
              have operands := simMEM_operands s.simAfterWB s.memInput
              have base : s.newMEM.op1Val = s.exInst.op1Val := by
                rw [passed, ← memInput_op1Val]
                exact operands.1
              have data : (simAddrGen s.newMEM).op2Val = s.storedData := by
                rw [(simAddrGen_operands _).2, passed, ← memInput_op2Val writes]
                exact operands.2
              have size : accessSize (simAddrGen s.newMEM) = accessSize s.exInst := by
                simp only [accessSize, fields.funct3]
              rw [memAddress_congr same base (.inr writes), data, size,
                (h.inEX.kind.store writes).readsMem]
              exact (h.memAfterAccess_store writes).1

end CycleState
end RiscvSim
