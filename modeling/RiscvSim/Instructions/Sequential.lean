import RiscvSim.Instructions.Execution
import RiscvSim.Source.Funct

/-! Sequential execution with a fixed program: one instruction after the other, each decoded
from the same image. This is the functional simulator as long as no store changes the words
it fetches.
-/

namespace RiscvSim

/-- What `simInstruction` does with the instruction it has decoded. -/
def Simulator.execute (sim : Simulator) (inst : Instruction) : Instruction × Simulator :=
  let inst := { inst with instructionID := sim.din }
  let sim := { sim with din := sim.din + 1 }
  if !inst.isLegal || inst.isHalt then (inst, sim)
  else
    let inst := simNextPCResolution (simOperandCollection inst sim.regData)
    let inst := if inst.doesArithLogic then simArithLogic inst else inst
    let (inst, memory) :=
      if inst.readsMem || inst.writesMem then simMemAccess (simAddrGen inst) sim.memory
      else (inst, sim.memory)
    let sim := { sim with memory := memory }
    let sim :=
      if inst.writesRd then { sim with regData := simCommit inst sim.regData } else sim
    (inst, sim)

theorem Simulator.simInstruction_eq (sim : Simulator) (pc : U64)
    : sim.simInstruction pc = sim.execute (simDecode (simFetch pc sim.memory)) := rfl

namespace FunctState

/-- The instruction at PC, decoded from the image. -/
def decodedFrom (image : MemoryStore) (a : FunctState) : Instruction :=
  simDecode (simFetch a.pc image)

/-- The record of that instruction once it is executed. -/
def executedFrom (image : MemoryStore) (a : FunctState) : Instruction :=
  (a.simulator.execute (a.decodedFrom image)).1

/-- One instruction of the image's program. -/
def stepFrom (image : MemoryStore) (a : FunctState) : FunctState where
  simulator := (a.simulator.execute (a.decodedFrom image)).2
  pc := (a.executedFrom image).nextPC

/-- The state before instruction `k` of the image's program. -/
def path (image : MemoryStore) (k : ℕ) : FunctState := (stepFrom image)^[k] (init image)

theorem path_succ (image : MemoryStore) (k : ℕ)
    : path image (k + 1) = (path image k).stepFrom image :=
  Function.iterate_succ_apply' ..

/-- While memory is the image, the functional simulator executes the image's program. -/
theorem step_eq_stepFrom {image : MemoryStore} {a : FunctState}
    (unchanged : a.simulator.memory = image)
    : a.step = a.stepFrom image ∧ a.inst = a.executedFrom image := by
  subst unchanged
  have same := a.simulator.simInstruction_eq a.pc
  have inst : a.inst = a.executedFrom a.simulator.memory := by rw [FunctState.inst, same]; rfl
  refine ⟨?_, inst⟩
  rw [step, stepFrom, inst, same]
  rfl

/-- The record that `execute` takes through its steps, with the operands collected. -/
def collected (image : MemoryStore) (a : FunctState) : Instruction :=
  simOperandCollection { a.decodedFrom image with instructionID := a.simulator.din }
    a.simulator.regData

/-- `collected` with the next PC. -/
def prepared (image : MemoryStore) (a : FunctState) : Instruction :=
  simNextPCResolution (a.collected image)

/-- `prepared` after the ALU, as it is handed to MEM. -/
def computed (image : MemoryStore) (a : FunctState) : Instruction :=
  if (a.prepared image).doesArithLogic then simArithLogic (a.prepared image)
  else a.prepared image

variable {image : MemoryStore} {a : FunctState}

theorem decodedFrom_decoded : (a.decodedFrom image).Decoded :=
  (fetched_simFetch a.pc image).decoded

theorem control_collected : (a.collected image).control = (a.decodedFrom image).control := by
  rw [collected, control_simOperandCollection, control_withID]

theorem control_prepared : (a.prepared image).control = (a.decodedFrom image).control := by
  rw [prepared, control_simNextPCResolution, control_collected]

theorem collected_collected : (a.collected image).Collected a.simulator.regData :=
  collected_simOperandCollection _ _

theorem collected_prepared : (a.prepared image).Collected a.simulator.regData :=
  collected_collected.simNextPCResolution

theorem prepared_blank
    : (a.prepared image).arithResult = 0
      ∧ ((a.decodedFrom image).isLegal = true → (a.prepared image).memException = false) := by
  have fetched := fetched_simFetch a.pc image
  rw [prepared, simNextPCResolution_arithResult, simNextPCResolution_memException]
  simp only [collected, simOperandCollection, decodedFrom, simDecode_arithResult,
    simDecode_memException]
  exact ⟨fetched.result, fetched.legal_fetched⟩

theorem control_computed : (a.computed image).control = (a.decodedFrom image).control := by
  unfold computed
  split
  · rw [control_simArithLogic, control_prepared]
  · exact control_prepared

/-- `execute` on a legal instruction other than HALT, stage by stage. -/
theorem execute_eq (legal : (a.decodedFrom image).isLegal = true)
    (running : (a.decodedFrom image).isHalt = false)
    : a.executedFrom image
        = (if (a.decodedFrom image).readsMem || (a.decodedFrom image).writesMem then
            (simMemAccess (simAddrGen (a.computed image)) a.simulator.memory).1
          else a.computed image)
      ∧ (a.stepFrom image).simulator.memory
        = (if (a.decodedFrom image).readsMem || (a.decodedFrom image).writesMem then
            (simMemAccess (simAddrGen (a.computed image)) a.simulator.memory).2
          else a.simulator.memory)
      ∧ (a.stepFrom image).simulator.regData
        = (if (a.decodedFrom image).writesRd then
            simCommit (a.executedFrom image) a.simulator.regData
          else a.simulator.regData) := by
  have computed : (a.computed image).SameControl (a.decodedFrom image) :=
    Instruction.sameControl control_computed
  have guard : (!(a.decodedFrom image).isLegal || (a.decodedFrom image).isHalt) = false := by
    simp [legal, running]
  have accessed := Instruction.sameControl
    (((control_simMemAccess (simAddrGen (a.computed image)) a.simulator.memory).trans
      (control_simAddrGen _)).trans control_computed)
  have unfolded : a.simulator.execute (a.decodedFrom image)
      = (let (inst, memory) :=
          if (a.computed image).readsMem || (a.computed image).writesMem then
            simMemAccess (simAddrGen (a.computed image)) a.simulator.memory
          else (a.computed image, a.simulator.memory)
        let sim : Simulator :=
          { a.simulator with din := a.simulator.din + 1, memory := memory }
        let sim :=
          if inst.writesRd then { sim with regData := simCommit inst sim.regData } else sim
        (inst, sim)) := by
    simp only [Simulator.execute]
    rw [if_neg (by simp [guard])]
    rfl
  rw [executedFrom, stepFrom, unfolded, computed.readsMem, computed.writesMem]
  cases access : (a.decodedFrom image).readsMem || (a.decodedFrom image).writesMem with
  | true =>
      simp only [if_true, accessed.writesRd]
      refine ⟨trivial, ?_, ?_⟩ <;> split <;> rfl
  | false =>
      simp only [Bool.false_eq_true, if_false, computed.writesRd]
      refine ⟨trivial, ?_, ?_⟩ <;> split <;> rfl

theorem control_executedFrom
    : (a.executedFrom image).control = (a.decodedFrom image).control := by
  cases stops : !(a.decodedFrom image).isLegal || (a.decodedFrom image).isHalt with
  | true =>
      simp only [executedFrom, Simulator.execute]
      rw [if_pos (by simp [stops]), control_withID]
  | false =>
      simp only [Bool.or_eq_false_iff, Bool.not_eq_false'] at stops
      rw [(execute_eq stops.1 stops.2).1]
      split
      · rw [control_simMemAccess, control_simAddrGen, control_computed]
      · exact control_computed

/-- An instruction writes its destination register and no other. -/
theorem stepFrom_regData (r : U64)
    : (a.stepFrom image).simulator.regData r
      = if (a.decodedFrom image).writes r then (a.executedFrom image).result
        else a.simulator.regData r := by
  have kind : (a.decodedFrom image).HasKind := decodedFrom_decoded.hasKind
  cases writes : (a.decodedFrom image).writesRd with
  | false =>
      have kept : (a.stepFrom image).simulator.regData = a.simulator.regData := by
        cases stops : !(a.decodedFrom image).isLegal || (a.decodedFrom image).isHalt with
        | true => simp [stepFrom, Simulator.execute, stops]
        | false =>
            simp only [Bool.or_eq_false_iff, Bool.not_eq_false'] at stops
            simp [(execute_eq stops.1 stops.2).2.2, writes]
      simp [kept, Instruction.writes, writes]
  | true =>
      obtain ⟨legal, running, busy, _⟩ := kind.writer writes
      have fields : (a.executedFrom image).SameControl (a.decodedFrom image) :=
        Instruction.sameControl control_executedFrom
      rw [(execute_eq legal running).2.2]
      simp only [if_true, simCommit, Registers.set, Instruction.writes, busy, writes, fields.rd,
        Instruction.result, Bool.not_false, Bool.true_and, beq_iff_eq]
      simp only [eq_comm]

section Operands

variable {inst : Instruction} (same : inst.control = (a.decodedFrom image).control)
  (operands : inst.Collected a.simulator.regData)
include same operands

/-- The next PC of sequential execution is what the instruction's operands resolve to. -/
theorem stepFrom_pc (legal : (a.decodedFrom image).isLegal = true)
    (running : (a.decodedFrom image).isHalt = false)
    : (a.stepFrom image).pc = (simNextPCResolution inst).nextPC := by
  have access (i : Instruction) (mem : MemoryStore)
      : (simMemAccess (simAddrGen i) mem).1.nextPC = i.nextPC := by
    simp only [simMemAccess, simAddrGen]
    split_ifs <;> rfl
  have alu : (a.computed image).nextPC = (a.prepared image).nextPC := by
    unfold computed
    split
    · exact simArithLogic_nextPC _
    · rfl
  rw [stepFrom, (execute_eq legal running).1, apply_ite Instruction.nextPC, access, ite_self, alu]
  exact (nextPC_of_collected (same.trans control_collected.symm) operands collected_collected
    (decodedFrom_decoded.hasKind.of_control control_collected)).symm

/-- The result of the ALU is what the instruction's operands compute to. -/
theorem executedFrom_arithResult (legal : (a.decodedFrom image).isLegal = true)
    (running : (a.decodedFrom image).isHalt = false)
    (arith : (a.decodedFrom image).doesArithLogic = true) (initial : inst.arithResult = 0)
    : (a.executedFrom image).arithResult = (simArithLogic inst).arithResult := by
  have access (i : Instruction) (mem : MemoryStore)
      : (simMemAccess (simAddrGen i) mem).1.arithResult = i.arithResult := by
    simp only [simMemAccess, simAddrGen]
    split_ifs <;> rfl
  have fields : (a.prepared image).SameControl (a.decodedFrom image) :=
    Instruction.sameControl control_prepared
  have prepared := same.trans control_prepared.symm
  rw [(execute_eq legal running).1, apply_ite Instruction.arithResult, access, ite_self, computed,
    if_pos (fields.doesArithLogic.trans arith)]
  exact (arithResult_of_collected prepared operands collected_prepared
    (decodedFrom_decoded.hasKind.of_control control_prepared)
    (fields.doesArithLogic.trans arith) (initial.trans prepared_blank.1.symm)).symm

/-- A load or store does to memory what it does with the instruction's operands. -/
theorem stepFrom_access (legal : (a.decodedFrom image).isLegal = true)
    (access
      : (a.decodedFrom image).readsMem = true ∨ (a.decodedFrom image).writesMem = true)
    (sound : inst.memException = false)
    : (a.stepFrom image).simulator.memory
        = (simMemAccess (simAddrGen inst) a.simulator.memory).2
      ∧ ((a.decodedFrom image).readsMem = true
        → (simMemAccess (simAddrGen inst) a.simulator.memory).1.memException = false
        → (a.executedFrom image).memResult
          = (simMemAccess (simAddrGen inst) a.simulator.memory).1.memResult) := by
  have kind : (a.decodedFrom image).HasKind := decodedFrom_decoded.hasKind
  obtain ⟨running, _, arith, _⟩ := kind.access access
  have idle : (a.computed image) = a.prepared image := by
    have fields : (a.prepared image).SameControl (a.decodedFrom image) :=
      Instruction.sameControl control_prepared
    have silent := fields.doesArithLogic.trans arith
    rw [computed, silent]
    rfl
  have guard : ((a.decodedFrom image).readsMem || (a.decodedFrom image).writesMem) = true := by
    simpa using access
  have prepared := same.trans control_prepared.symm
  obtain ⟨memory, fault, loaded⟩ := simMemAccess_of_collected prepared operands
    collected_prepared (kind.of_control control_prepared) a.simulator.memory
    (sound.trans (prepared_blank.2 legal).symm)
  have fields : (a.prepared image).SameControl (a.decodedFrom image) :=
    Instruction.sameControl control_prepared
  rw [(execute_eq legal running).2.1, (execute_eq legal running).1, guard, idle]
  refine ⟨memory.symm, fun reads unfaulted => (loaded (fields.readsMem.trans reads) ?_).symm⟩
  rw [← fault, unfaulted]

end Operands

/-- Any other instruction leaves memory alone. -/
theorem stepFrom_memory (noLoad : (a.decodedFrom image).readsMem = false)
    (noStore : (a.decodedFrom image).writesMem = false)
    : (a.stepFrom image).simulator.memory = a.simulator.memory := by
  cases stops : !(a.decodedFrom image).isLegal || (a.decodedFrom image).isHalt with
  | true => simp [stepFrom, Simulator.execute, stops]
  | false =>
      simp only [Bool.or_eq_false_iff, Bool.not_eq_false'] at stops
      simp [(execute_eq stops.1 stops.2).2.1, noLoad, noStore]

-----------------------------------------------------------------------------------------
-- The functional simulator on programs without loads and stores
-----------------------------------------------------------------------------------------

/-- The functional simulator executes HALT after `n` other instructions, all of them legal. -/
structure HaltsAt (start : FunctState) (n : ℕ) : Prop where
  reached : (step^[n] start).inst.isHalt = true
  first
    : ∀ k < n,
        (step^[k] start).inst.isHalt = false ∧ (step^[k] start).inst.isLegal = true

theorem haltsAt_zero_iff {start : FunctState} : HaltsAt start 0 ↔ start.inst.isHalt = true :=
  ⟨fun h => h.reached, fun halts => ⟨halts, fun k earlier => absurd earlier (Nat.not_lt_zero k)⟩⟩

theorem haltsAt_succ_iff {start : FunctState} {n : ℕ}
    : HaltsAt start (n + 1)
      ↔ (start.inst.isHalt = false ∧ start.inst.isLegal = true) ∧ HaltsAt start.step n := by
  constructor
  · intro h
    obtain ⟨now, later⟩ := Nat.forall_lt_succ_left.mp h.first
    exact ⟨now, h.reached, later⟩
  · rintro ⟨now, later⟩
    exact ⟨later.reached, Nat.forall_lt_succ_left.mpr ⟨now, later.first⟩⟩

/-- `runInstructions` reports HALT if and only if the limit allows for the HALT. -/
theorem runInstructions_halt_iff (limit : ℕ) (start final : FunctState)
    : runInstructions limit start = (final, .halt)
      ↔ ∃ n < limit, HaltsAt start n ∧ final = step^[n + 1] start := by
  induction limit generalizing start with
  | zero => simp [runInstructions]
  | succ limit ih =>
      rw [runInstructions, Nat.exists_lt_succ_left]
      simp only [haltsAt_zero_iff, haltsAt_succ_iff]
      cases now : start.inst.isHalt with
      | true =>
          simp only [if_true, Prod.mk.injEq, and_true, true_and, Bool.true_eq_false, false_and,
            and_false, exists_false, or_false, zero_add, Function.iterate_one]
          exact eq_comm
      | false =>
          cases legal : start.inst.isLegal with
          | false => simp
          | true => simp [ih]

/-- None of the `n` instructions is a load or a store. -/
def MemoryFree (start : FunctState) (n : ℕ) : Prop :=
  ∀ k < n, (step^[k] start).inst.readsMem = false ∧ (step^[k] start).inst.writesMem = false

/-- Sequential execution of the image executes legal instructions other than loads and stores
up to its HALT.
-/
structure Plain (image : MemoryStore) (n : ℕ) : Prop where
  halt : ((path image n).decodedFrom image).isHalt = true
  running : ∀ k < n, ((path image k).decodedFrom image).isHalt = false
  legal : ∀ k ≤ n, ((path image k).decodedFrom image).isLegal = true
  noLoad : ∀ k ≤ n, ((path image k).decodedFrom image).readsMem = false
  noStore : ∀ k ≤ n, ((path image k).decodedFrom image).writesMem = false

/-- Without stores the functional simulator executes its image. -/
theorem path_eq {n : ℕ} (free : MemoryFree (init image) n) {k : ℕ} (bound : k ≤ n)
    : path image k = step^[k] (init image) ∧ (path image k).simulator.memory = image := by
  induction k with
  | zero => exact ⟨rfl, rfl⟩
  | succ k ih =>
      obtain ⟨same, unchanged⟩ := ih (by omega)
      obtain ⟨step, executed⟩ := step_eq_stepFrom unchanged
      have fields : ((path image k).executedFrom image).SameControl
          ((path image k).decodedFrom image) :=
        Instruction.sameControl control_executedFrom
      obtain ⟨noLoad, noStore⟩ := free k (by omega)
      rw [← same, executed, fields.readsMem] at noLoad
      rw [← same, executed, fields.writesMem] at noStore
      rw [path_succ, Function.iterate_succ_apply', ← same, ← step, step]
      exact ⟨rfl, (stepFrom_memory noLoad noStore).trans unchanged⟩

theorem plain_of_haltsAt {n : ℕ} (halts : HaltsAt (init image) n)
    (free : MemoryFree (init image) n) : Plain image n := by
  have inst {k : ℕ} (bound : k ≤ n)
      : (step^[k] (init image)).inst.SameControl ((path image k).decodedFrom image) := by
    obtain ⟨same, unchanged⟩ := path_eq free bound
    rw [← same, (step_eq_stepFrom unchanged).2]
    exact Instruction.sameControl control_executedFrom
  have halt := (inst le_rfl).isHalt.symm.trans halts.reached
  have signals := decodedFrom_decoded.hasKind.halt halt
  have cases_le {P : ℕ → Prop} (last : P n) (before : ∀ k < n, P k) (k : ℕ) (bound : k ≤ n)
      : P k := by
    rcases Nat.lt_or_eq_of_le bound with earlier | rfl
    · exact before k earlier
    · exact last
  exact {
    halt := halt
    running := fun k earlier =>
      (inst earlier.le).isHalt.symm.trans (halts.first k earlier).1
    legal := cases_le signals.isLegal fun k earlier =>
      (inst earlier.le).isLegal.symm.trans (halts.first k earlier).2
    noLoad := cases_le signals.readsMem fun k earlier =>
      (inst earlier.le).readsMem.symm.trans (free k earlier).1
    noStore := cases_le signals.writesMem fun k earlier =>
      (inst earlier.le).writesMem.symm.trans (free k earlier).2 }

end FunctState
end RiscvSim
