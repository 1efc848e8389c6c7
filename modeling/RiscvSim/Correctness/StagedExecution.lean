import RiscvSim.Instructions.Encoding
import RiscvSim.Instructions.Sequential
import RiscvSim.Pipeline.Operands

/-! The stage helpers run one after the other on a single instruction, compared with
`simInstruction`.
-/

namespace RiscvSim

namespace Simulator

/-- The instruction at `pc`, decoded. -/
def decodedAt (sim : Simulator) (pc : U64) : Instruction := simDecode (simFetch pc sim.memory)

/-- `simIF`, `simID`, `simEX`, `simMEM` and `simWB` in sequence. -/
def staged (sim : Simulator) (pc : U64) : Simulator :=
  let decoded := sim.simID (sim.simIF pc)
  let accessed := decoded.2.simMEM (simEX decoded.1)
  (accessed.2.simWB accessed.1).2

/-- The address of a load: its base register, with register 0 as 0, plus its offset. -/
def loadAddress (sim : Simulator) (inst : Instruction) : U64 :=
  sim.regData.set 0 0 inst.rs1 + sext64 (extractBits inst.instruction 31 20) 11

/-- The instruction is a load whose access is out of range. -/
def LoadFaults (sim : Simulator) (inst : Instruction) : Prop :=
  inst.readsMem = true
  ∧ (sim.memory.getMemValue (sim.loadAddress inst) (accessSize inst)).1 ≠ 0

instance (sim : Simulator) (inst : Instruction) : Decidable (sim.LoadFaults inst) := by
  unfold LoadFaults
  infer_instance

/-- What ID hands to EX. -/
def latched (sim : Simulator) (pc : U64) : Instruction := (sim.simID (sim.simIF pc)).1

/-- What EX hands to MEM. -/
def computed (sim : Simulator) (pc : U64) : Instruction := simEX (sim.latched pc)

/-- The simulator once the instruction has been counted in ID. -/
def counted (sim : Simulator) (pc : U64) : Simulator := (sim.simID (sim.simIF pc)).2

variable {sim : Simulator} {pc : U64}

theorem decodedAt_decoded : (sim.decodedAt pc).Decoded := (fetched_simFetch pc sim.memory).decoded

theorem control_latched : (sim.latched pc).control = (sim.decodedAt pc).control := by
  have staged := (fetched_simIF sim pc).decoded
  have direct := (fetched_simFetch pc sim.memory).decoded
  rw [Instruction.Decoded, simDecode_pc, simDecode_instruction] at staged direct
  rw [latched, simID_control, staged, decodedAt, direct]
  rfl

theorem latched_sound (legal : (sim.decodedAt pc).isLegal = true)
    : (sim.latched pc).memException = false := by
  have fault := (fetched_simFetch pc sim.memory).legal_fetched legal
  rw [latched, simID_memException]
  exact fault

theorem latched_arithResult : (sim.latched pc).arithResult = 0 := by
  rw [latched, simID_arithResult]
  exact (fetched_simFetch pc sim.memory).result

theorem latched_collected : (sim.latched pc).Collected sim.regData :=
  CycleState.simID_collected sim (fetched_simIF sim pc)

theorem computed_control : (sim.computed pc).control = (sim.decodedAt pc).control :=
  (control_simEX _).trans control_latched

theorem computed_fields : (sim.computed pc).SameControl (sim.decodedAt pc) :=
  Instruction.sameControl computed_control

/-- The address a load generates, whichever way its record was collected. -/
theorem memAddress_load {inst : Instruction} (same : inst.control = (sim.decodedAt pc).control)
    (operands : inst.Collected sim.regData) (load : (sim.decodedAt pc).readsMem = true)
    : (simAddrGen inst).memAddress = sim.loadAddress (sim.decodedAt pc) := by
  have fields := Instruction.sameControl same
  have reads := (decodedAt_decoded.hasKind.load load).readsRs1
  have base := operands.rs1 (fields.readsRs1.trans reads)
  simp only [simAddrGen, fields.readsMem, load, if_true, loadAddress, base, fields.rs1,
    fields.instruction]

/-- The stages end with WB of what MEM makes of the computed instruction. -/
theorem staged_eq
    : sim.staged pc
      = (((sim.counted pc).simMEM (sim.computed pc)).2.simWB
        ((sim.counted pc).simMEM (sim.computed pc)).1).2 :=
  rfl

section Legal

variable (legal : (sim.decodedAt pc).isLegal = true)
include legal

theorem computed_sound : (sim.computed pc).memException = false :=
  (simEX_memException _).trans (latched_sound legal)

/-- A load or store passes EX as it is. -/
theorem computed_access
    (access : (sim.decodedAt pc).readsMem = true ∨ (sim.decodedAt pc).writesMem = true)
    : sim.computed pc = { sim.latched pc with status := .normal } := by
  have fields : (sim.latched pc).SameControl (sim.decodedAt pc) :=
    Instruction.sameControl control_latched
  have idle := (decodedAt_decoded.hasKind.access access).2.2.1
  simp only [computed, simEX, fields.isLegal, legal, latched_sound legal, fields.doesArithLogic,
    idle, Bool.not_true, Bool.or_self, Bool.false_eq_true, if_false]

theorem computed_collected
    (access : (sim.decodedAt pc).readsMem = true ∨ (sim.decodedAt pc).writesMem = true)
    : (sim.computed pc).Collected sim.regData := by
  rw [computed_access legal access]
  exact ⟨latched_collected.rs1, latched_collected.rs2⟩

theorem computed_arithResult (arith : (sim.decodedAt pc).doesArithLogic = true)
    : (sim.computed pc).arithResult = (simArithLogic (sim.latched pc)).arithResult := by
  have fields : (sim.latched pc).SameControl (sim.decodedAt pc) :=
    Instruction.sameControl control_latched
  simp only [computed, simEX, fields.isLegal, legal, latched_sound legal, fields.doesArithLogic,
    arith, Bool.not_true, Bool.or_self, Bool.false_eq_true, if_false, if_true]

/-- The stages do to memory what `simInstruction` does. -/
theorem staged_memory : (sim.staged pc).memory = (sim.simInstruction pc).2.memory := by
  have fields : (sim.computed pc).SameControl (sim.decodedAt pc) := computed_fields
  have kept : (sim.counted pc).memory = sim.memory :=
    CycleState.simID_memory sim (sim.simIF pc)
  rw [staged_eq, CycleState.simWB_memory]
  by_cases access : (sim.decodedAt pc).readsMem = true ∨ (sim.decodedAt pc).writesMem = true
  · obtain ⟨memory, -⟩ := FunctState.stepFrom_access (a := ⟨sim, pc⟩)
      computed_control (computed_collected legal access) legal access (computed_sound legal)
    rw [simMEM_access _ (fields.isLegal.trans legal) (computed_sound legal)
      (by rwa [fields.readsMem, fields.writesMem]), kept]
    exact memory.symm
  · obtain ⟨noLoad, noStore⟩ := not_or.mp access
    rw [Bool.not_eq_true] at noLoad noStore
    obtain ⟨unchanged, -⟩ := simMEM_other (sim.counted pc) (fields.isLegal.trans legal)
      (computed_sound legal) (fields.readsMem.trans noLoad) (fields.writesMem.trans noStore)
    rw [unchanged, kept]
    exact (FunctState.stepFrom_memory (a := ⟨sim, pc⟩) noLoad noStore).symm

/-- MEM raises an exception for a load that faults, and leaves other instructions that have
a destination register alone.
-/
theorem accessed_fault (writes : (sim.decodedAt pc).writesRd = true)
    : ((sim.counted pc).simMEM (sim.computed pc)).1.memException = true
      ↔ sim.LoadFaults (sim.decodedAt pc) := by
  have fields : (sim.computed pc).SameControl (sim.decodedAt pc) := computed_fields
  have kept : (sim.counted pc).memory = sim.memory :=
    CycleState.simID_memory sim (sim.simIF pc)
  have noStore := (decodedAt_decoded.hasKind.writer writes).2.2.2.1
  rw [LoadFaults, ← Bool.not_eq_false]
  cases load : (sim.decodedAt pc).readsMem with
  | true =>
      obtain ⟨-, fault⟩ := simMEM_load (sim.counted pc) (fields.isLegal.trans legal)
        (computed_sound legal) (fields.readsMem.trans load)
      have size : accessSize (sim.computed pc) = accessSize (sim.decodedAt pc) := by
        simp only [accessSize, fields.funct3]
      rw [fault, kept, memAddress_load computed_control (computed_collected legal (.inl load)) load,
        size]
      simp
  | false =>
      obtain ⟨-, fault⟩ := simMEM_other (sim.counted pc) (fields.isLegal.trans legal)
        (computed_sound legal) (fields.readsMem.trans load) (fields.writesMem.trans noStore)
      simp [fault]

/-- What WB commits is what `simInstruction` commits, unless a load faults. -/
theorem accessed_result (running : (sim.decodedAt pc).isHalt = false)
    (writes : (sim.decodedAt pc).writesRd = true) (sound : ¬ sim.LoadFaults (sim.decodedAt pc))
    : ((sim.counted pc).simMEM (sim.computed pc)).1.result
      = (sim.simInstruction pc).1.result := by
  have fields : (sim.computed pc).SameControl (sim.decodedAt pc) := computed_fields
  have accessed
      : ((sim.counted pc).simMEM (sim.computed pc)).1.SameControl (sim.decodedAt pc) :=
    Instruction.sameControl ((control_simMEM _ _).trans computed_control)
  have executed : (sim.simInstruction pc).1.SameControl (sim.decodedAt pc) :=
    Instruction.sameControl (FunctState.control_executedFrom (a := ⟨sim, pc⟩))
  have kept : (sim.counted pc).memory = sim.memory :=
    CycleState.simID_memory sim (sim.simIF pc)
  obtain ⟨-, -, -, noStore, arith⟩ := decodedAt_decoded.hasKind.writer writes
  rw [Instruction.result, Instruction.result, accessed.readsMem, executed.readsMem]
  cases load : (sim.decodedAt pc).readsMem with
  | true =>
      obtain ⟨-, loaded⟩ := FunctState.stepFrom_access (a := ⟨sim, pc⟩) computed_control
        (computed_collected legal (.inl load)) legal (.inl load) (computed_sound legal)
      have access := simMEM_access (sim.counted pc) (fields.isLegal.trans legal)
        (computed_sound legal) (.inl (fields.readsMem.trans load))
      have unfaulted := (accessed_fault legal writes).not.mpr sound
      rw [access, kept, Bool.not_eq_true] at unfaulted
      rw [access, kept, if_pos rfl, if_pos rfl]
      exact (loaded load unfaulted).symm
  | false =>
      have passed : (sim.counted pc).simMEM (sim.computed pc)
          = ({ sim.computed pc with status := .normal }, sim.counted pc) := by
        simp only [simMEM, fields.isLegal, legal, computed_sound legal, fields.readsMem, load,
          fields.writesMem, noStore, Bool.not_true, Bool.or_self, Bool.false_eq_true, if_false]
      rw [load] at arith
      have same := FunctState.executedFrom_arithResult (a := ⟨sim, pc⟩) control_latched
        latched_collected legal running arith latched_arithResult
      rw [passed, if_neg (by decide), if_neg (by decide)]
      exact (computed_arithResult legal arith).trans same.symm

/-- The stages write the destination register except for a load whose access fails. -/
theorem staged_regData (running : (sim.decodedAt pc).isHalt = false) {r : U64} (nonzero : r ≠ 0)
    : (sim.staged pc).regData r
      = if (sim.decodedAt pc).writes r = true ∧ ¬ sim.LoadFaults (sim.decodedAt pc) then
          (sim.simInstruction pc).1.result
        else sim.regData r := by
  have accessed : ((sim.counted pc).simMEM (sim.computed pc)).1.control
      = (sim.decodedAt pc).control :=
    (control_simMEM _ _).trans computed_control
  have fields := Instruction.sameControl accessed
  have kept : ((sim.counted pc).simMEM (sim.computed pc)).2.regData = sim.regData :=
    (simMEM_regData _ _).trans (simID_regData sim (sim.simIF pc))
  have writer (writes : (sim.decodedAt pc).writes r = true)
      : (sim.decodedAt pc).writesRd = true :=
    Instruction.writesRd_of_writes writes
  rw [staged_eq]
  by_cases fault : ((sim.counted pc).simMEM (sim.computed pc)).1.memException = true
  · rw [simWB_faulted _ fault, kept, if_neg]
    rintro ⟨writes, sound⟩
    exact sound ((accessed_fault legal (writer writes)).mp fault)
  · rw [simWB_regData _ (decodedAt_decoded.hasKind.of_control accessed)
      (fields.isLegal.trans legal) (by simpa using fault) nonzero, kept,
      Instruction.writes_of_control accessed]
    by_cases writes : (sim.decodedAt pc).writes r = true
    · have sound := (accessed_fault legal (writer writes)).not.mp fault
      rw [if_pos writes, if_pos ⟨writes, sound⟩,
        accessed_result legal running (writer writes) sound]
    · rw [if_neg writes, if_neg (fun both => writes both.1)]

end Legal

-----------------------------------------------------------------------------------------
-- Loads that fault
-----------------------------------------------------------------------------------------

/-- `simInstruction` writes the destination register. -/
theorem simInstruction_regData (r : U64)
    : (sim.simInstruction pc).2.regData r
      = if (sim.decodedAt pc).writes r then (sim.simInstruction pc).1.result
        else sim.regData r :=
  FunctState.stepFrom_regData (a := ⟨sim, pc⟩) r

theorem simMemAccess_faulted {inst : Instruction} {mem : MemoryStore}
    (load : inst.readsMem = true)
    (outside : (mem.getMemValue inst.memAddress (accessSize inst)).1 ≠ 0)
    : (simMemAccess inst mem).1.memResult = inst.memResult := by
  simp only [simMemAccess, load, if_true, if_pos outside]

/-- Until an access succeeds, `memResult` is the initial one. -/
theorem memResult_decodedAt : (sim.decodedAt pc).memResult = 0 := by
  simp only [decodedAt, simDecode, decodeSignals, apply_ite Instruction.memResult, ite_self]
  simp only [decodeFields, simFetch]
  split <;> rfl

theorem memResult_prepared
    : (FunctState.prepared sim.memory ⟨sim, pc⟩).memResult = 0 := by
  have resolved (inst : Instruction) : (simNextPCResolution inst).memResult = inst.memResult := by
    simp only [simNextPCResolution]
    split_ifs <;> rfl
  rw [FunctState.prepared, resolved]
  exact memResult_decodedAt

/-- A load that faults writes 0. -/
theorem simInstruction_faulted (faults : sim.LoadFaults (sim.decodedAt pc))
    : (sim.simInstruction pc).1.result = 0 := by
  obtain ⟨load, outside⟩ := faults
  have signals := decodedAt_decoded.hasKind.load load
  have executed : (sim.simInstruction pc).1.SameControl (sim.decodedAt pc) :=
    Instruction.sameControl (FunctState.control_executedFrom (a := ⟨sim, pc⟩))
  have prepared : (FunctState.prepared sim.memory ⟨sim, pc⟩).control
      = (sim.decodedAt pc).control :=
    FunctState.control_prepared
  have fields := Instruction.sameControl prepared
  have idle
      : FunctState.computed sim.memory ⟨sim, pc⟩ = FunctState.prepared sim.memory ⟨sim, pc⟩ := by
    rw [FunctState.computed, fields.doesArithLogic, signals.doesArithLogic]
    rfl
  have generated := Instruction.sameControl
    (control_simAddrGen (FunctState.prepared sim.memory ⟨sim, pc⟩))
  have reads := fields.readsMem.trans load
  have initial : (simAddrGen (FunctState.prepared sim.memory ⟨sim, pc⟩)).memResult = 0 := by
    simp only [simAddrGen, reads, if_true]
    exact memResult_prepared
  have size : accessSize (simAddrGen (FunctState.prepared sim.memory ⟨sim, pc⟩))
      = accessSize (sim.decodedAt pc) := by
    simp only [accessSize, generated.funct3, fields.funct3]
  have faulted := simMemAccess_faulted (generated.readsMem.trans reads)
    (by rwa [memAddress_load prepared FunctState.collected_prepared load, size])
  have accessed : (sim.simInstruction pc).1
      = (simMemAccess (simAddrGen (FunctState.computed sim.memory ⟨sim, pc⟩)) sim.memory).1 := by
    have steps := (FunctState.execute_eq (a := ⟨sim, pc⟩) signals.isLegal signals.isHalt).1
    have access : ((sim.decodedAt pc).readsMem || (sim.decodedAt pc).writesMem) = true := by
      simp [load]
    exact steps.trans (if_pos access)
  rw [Instruction.result, if_pos (executed.readsMem.trans load), accessed, idle, faulted, initial]

/-- A register number is a field of five bits. -/
theorem decodedAt_rd_le : (sim.decodedAt pc).rd.toNat ≤ 31 := by
  obtain ⟨-, -, -, rd⟩ := decodeSignals_fields (decodeFields (simFetch pc sim.memory))
  rw [decodedAt, simDecode, rd]
  simp only [decodeFields, extractBits, BitVec.toNat_and]
  exact Nat.and_le_right

-----------------------------------------------------------------------------------------
-- The two executions
-----------------------------------------------------------------------------------------

/-- The two executions end with the same registers 1 to 31 and the same memory. -/
def StagesAgree (sim : Simulator) (pc : U64) : Prop :=
  (∀ r : U64, 1 ≤ r.toNat → r.toNat ≤ 31
    → (sim.staged pc).regData r = (sim.simInstruction pc).2.regData r)
  ∧ (sim.staged pc).memory = (sim.simInstruction pc).2.memory

/-- The two executions agree unless a load faults whose destination register holds something
other than 0, which `simInstruction` overwrites. Witness: both commit the same result, and only
WB tests for a memory exception first.
-/
theorem stagesAgree_iff (sim : Simulator) (pc : U64)
    (legal : (sim.decodedAt pc).isLegal = true) (running : (sim.decodedAt pc).isHalt = false)
    : sim.StagesAgree pc
      ↔ ¬ (sim.LoadFaults (sim.decodedAt pc) ∧ (sim.decodedAt pc).rd ≠ 0
          ∧ sim.regData (sim.decodedAt pc).rd ≠ 0) := by
  constructor
  · rintro ⟨registers, -⟩ ⟨faults, nonzero, held⟩
    have signals := decodedAt_decoded.hasKind.load faults.1
    have target : (sim.decodedAt pc).writes (sim.decodedAt pc).rd = true := by
      simp [Instruction.writes, signals.isNop, signals.writesRd]
    have positive : 1 ≤ (sim.decodedAt pc).rd.toNat := by
      by_contra zero
      exact nonzero (BitVec.eq_of_toNat_eq (by simpa using zero))
    have same := registers (sim.decodedAt pc).rd positive decodedAt_rd_le
    rw [staged_regData legal running nonzero, if_neg (fun both => both.2 faults),
      simInstruction_regData, if_pos target, simInstruction_faulted faults] at same
    exact held same
  · intro spared
    refine ⟨?_, staged_memory legal⟩
    intro r positive _
    have nonzero : r ≠ 0 := by
      rintro rfl
      exact absurd positive (by decide)
    rw [staged_regData legal running nonzero, simInstruction_regData]
    by_cases faults : sim.LoadFaults (sim.decodedAt pc)
    · rw [if_neg (fun both => both.2 faults), simInstruction_faulted faults]
      split_ifs with writes
      · have target : (sim.decodedAt pc).rd = r := by
          simp only [Instruction.writes, Bool.and_eq_true, beq_iff_eq] at writes
          exact writes.2
        subst target
        by_contra held
        exact spared ⟨faults, nonzero, held⟩
      · rfl
    · simp [faults]

/-- `lw x1, 0(x0)` reads its own word, and both executions load it. -/
theorem stagesAgree_load
    : (Simulator.mk (fun _ => 5) (.load [0x00002083]) 0 true).StagesAgree 0 := by
  apply (stagesAgree_iff _ 0 (by decide) (by decide)).mpr
  rintro ⟨⟨_, unreadable⟩, _⟩
  exact unreadable (by decide)

/-- `lw x1, -4(x0)` faults: the stages keep `x1`, `simInstruction` clears it. -/
theorem faultingLoad_disagrees
    : ¬ ∀ (sim : Simulator) (pc : U64),
          (sim.decodedAt pc).isLegal = true → (sim.decodedAt pc).isHalt = false
          → sim.StagesAgree pc := by
  intro agree
  obtain ⟨registers, -⟩ := agree (Simulator.mk (fun _ => 5) (.load [0xFFC02083]) 0 true) 0
    (by decide) (by decide)
  have same := registers 1 (by decide) (by decide)
  exact absurd same (by decide)

end Simulator
end RiscvSim
