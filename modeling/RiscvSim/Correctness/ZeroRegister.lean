import RiscvSim.Pipeline.Operands
import RiscvSim.Instructions.Sequential

/-! Register 0 reads as zero in every stage of the pipeline and in the functional simulator. -/

namespace RiscvSim

-----------------------------------------------------------------------------------------
-- Steps on one instruction
-----------------------------------------------------------------------------------------

/-- Steps that keep the fields of an instruction and leave its operands alone, or at most
mask the second one.
-/
theorem Instruction.ZeroOperands.congr {left right : Instruction} (h : right.ZeroOperands)
    (same : left.control = right.control) (op1Val : left.op1Val = right.op1Val)
    (op2Val : left.op2Val = right.op2Val ∨ ∃ mask, left.op2Val = right.op2Val &&& mask)
    : left.ZeroOperands := by
  have fields := Instruction.sameControl same
  constructor
  · intro reads zero
    rw [op1Val]
    exact h.rs1 (fields.readsRs1 ▸ reads) (fields.rs1 ▸ zero)
  · intro reads zero
    have value := h.rs2 (fields.readsRs2 ▸ reads) (fields.rs2 ▸ zero)
    rcases op2Val with kept | ⟨mask, masked⟩
    · rw [kept, value]
    · rw [masked, value]
      exact BitVec.zero_and

theorem zeroOperands_simOperandCollection (inst : Instruction) (registers : Registers)
    : (simOperandCollection inst registers).ZeroOperands :=
  (collected_simOperandCollection inst registers).zeroOperands

theorem Instruction.ZeroOperands.simNextPCResolution {inst : Instruction}
    (h : inst.ZeroOperands) : (simNextPCResolution inst).ZeroOperands :=
  h.congr (control_simNextPCResolution inst) (simNextPCResolution_op1Val inst)
    (.inl (simNextPCResolution_op2Val inst))

/-- The ALU masks the amount of a shift. -/
theorem Instruction.ZeroOperands.simArithLogic {inst : Instruction} (h : inst.ZeroOperands)
    : (simArithLogic inst).ZeroOperands := by
  refine h.congr (control_simArithLogic inst) inst.maskShift_op1Val ?_
  have masked := inst.maskShift_op2Val
  split_ifs at masked
  · exact .inr ⟨_, masked⟩
  · exact .inr ⟨_, masked⟩
  · exact .inl masked

theorem Instruction.ZeroOperands.simAddrGen {inst : Instruction} (h : inst.ZeroOperands)
    : (simAddrGen inst).ZeroOperands := by
  refine h.congr (control_simAddrGen inst) ?_ (.inl ?_)
  · unfold RiscvSim.simAddrGen
    split_ifs <;> rfl
  · unfold RiscvSim.simAddrGen
    split_ifs <;> rfl

theorem Instruction.ZeroOperands.simMemAccess {inst : Instruction} (h : inst.ZeroOperands)
    (mem : MemoryStore) : (simMemAccess inst mem).1.ZeroOperands := by
  refine h.congr (control_simMemAccess inst mem) ?_ (.inl ?_)
  · simp only [RiscvSim.simMemAccess]
    split_ifs <;> rfl
  · simp only [RiscvSim.simMemAccess]
    split_ifs <;> rfl

/-- WB never writes register 0. -/
theorem simWB_zero (sim : Simulator) (inst : Instruction)
    : (sim.simWB inst).2.regData 0 = sim.regData 0 := by
  simp only [Simulator.simWB]
  split_ifs with _ _ writes
  · rfl
  · rfl
  · have nonzero : inst.rd ≠ 0 := by
      simp only [Bool.and_eq_true, bne_iff_ne] at writes
      exact writes.2
    exact if_neg nonzero.symm
  · rfl

namespace CycleState

variable {κ : Type} {s : CycleState κ}

-----------------------------------------------------------------------------------------
-- The pipeline
-----------------------------------------------------------------------------------------

/-- Register 0 is 0 in the register file, and an operand that is register 0 is 0 where EX
executes on it, where ID resolves a branch or JALR with it, and where MEM computes an address
from it or stores it.
-/
structure ZeroRegister (s : CycleState κ) : Prop where
  register : s.simulator.regData 0 = 0
  executed : s.exInput.ZeroOperands
  resolved : s.idEval.ZeroOperands
  accessed : s.memInput.ZeroOperands

/-- What the latches keep for that. -/
structure ZeroLatches (s : CycleState κ) : Prop where
  register : s.simulator.regData 0 = 0
  decoded : s.idInst.ZeroOperands
  issued : s.exInst.ZeroOperands

/-- The data forwarded to a store is that of a register other than 0. -/
theorem zeroOperands_memInput (h : s.exInst.ZeroOperands) : s.memInput.ZeroOperands := by
  cases store : s.exInst.writesMem with
  | false =>
      have unforwarded : s.memInput
          = if s.exInst.readsMem then simAddrGen s.exInst else s.exInst := by
        simp [memInput, store]
      rw [unforwarded]
      split
      · exact h.simAddrGen
      · exact h
  | true =>
      have fields := Instruction.sameControl s.control_memInput
      constructor
      · intro reads zero
        rw [memInput_op1Val]
        exact h.rs1 (fields.readsRs1 ▸ reads) (fields.rs1 ▸ zero)
      · intro reads zero
        rw [fields.rs2] at zero
        rw [memInput_op2Val store, storedData, if_neg fun guard => guard.2 zero]
        exact h.rs2 (fields.readsRs2 ▸ reads) zero

theorem ZeroLatches.zeroRegister (h : s.ZeroLatches) : s.ZeroRegister where
  register := h.register
  executed := zeroOperands_forwardThree _ _ _ _ _ _ h.decoded
  resolved := by
    unfold idEval
    split
    · exact zeroOperands_forwardThree _ _ _ _ _ _ h.decoded
    · exact h.decoded
  accessed := zeroOperands_memInput h.issued

theorem ZeroLatches.newEX (h : s.ZeroLatches) : s.newEX.ZeroOperands := by
  have executed : (Simulator.simEX s.exInput).ZeroOperands := by
    have input := h.zeroRegister.executed
    unfold Simulator.simEX
    split_ifs
    · exact ⟨input.rs1, input.rs2⟩
    · exact ⟨input.simArithLogic.rs1, input.simArithLogic.rs2⟩
    · exact ⟨input.rs1, input.rs2⟩
  simp only [CycleState.newEX]
  split_ifs
  · exact h.issued
  · exact zeroOperands_nop _
  · exact zeroOperands_nop _
  · exact ⟨executed.rs1, executed.rs2⟩
  · exact executed

variable [CacheUnit κ]

theorem ZeroLatches.next (h : s.ZeroLatches) (l : s.LatchInv) : s.next.ZeroLatches where
  register := by
    rw [next_regData, simAfterWB]
    split
    · exact h.register
    · exact (simWB_zero _ _).trans h.register
  decoded := zeroOperands_newID l h.decoded
  issued := by
    cases trap : s.wbMemException with
    | true => simpa [CycleState.next, trap] using zeroOperands_nop _
    | false => exact next_exInst trap ▸ h.newEX

theorem zeroLatches_reachable (past : CycleState κ) (iCache dCache : κ) (mem : MemoryStore)
    (n : ℕ) : (CycleState.next^[n] (initCycle past iCache dCache mem)).ZeroLatches := by
  induction n with
  | zero => exact ⟨rfl, zeroOperands_nop _, zeroOperands_nop _⟩
  | succ n ih =>
      rw [Function.iterate_succ_apply']
      exact ih.next ((latchInv_initCycle past iCache dCache mem).iterate n)

end CycleState

-----------------------------------------------------------------------------------------
-- The functional simulator
-----------------------------------------------------------------------------------------

namespace FunctState

variable {image : MemoryStore} (a : FunctState)

/-- The operands that `simOperandCollection` collects. -/
theorem zeroOperands_collected : (a.collected image).ZeroOperands :=
  zeroOperands_simOperandCollection _ _

theorem zeroOperands_computed : (a.computed image).ZeroOperands := by
  have collected : (a.collected image).ZeroOperands := a.zeroOperands_collected
  unfold computed
  split
  · exact collected.simNextPCResolution.simArithLogic
  · exact collected.simNextPCResolution

/-- An instruction that stops the simulator reads no register. -/
theorem zeroOperands_stopping
    (stops : (a.decodedFrom image).isLegal = false ∨ (a.decodedFrom image).isHalt = true)
    : (a.executedFrom image).ZeroOperands := by
  have kind : (a.decodedFrom image).HasKind := decodedFrom_decoded.hasKind
  have silent
      : (a.decodedFrom image).readsRs1 = false ∧ (a.decodedFrom image).readsRs2 = false := by
    rcases stops with illegal | halt
    · exact ⟨(kind.illegal illegal).readsRs1, (kind.illegal illegal).readsRs2⟩
    · exact ⟨(kind.halt halt).readsRs1, (kind.halt halt).readsRs2⟩
  have fields := Instruction.sameControl (@control_executedFrom image a)
  constructor
  · intro reads
    rw [fields.readsRs1, silent.1] at reads
    cases reads
  · intro reads
    rw [fields.readsRs2, silent.2] at reads
    cases reads

/-- The instruction that is executed, with the operands collected for it. -/
theorem zeroOperands_inst : a.inst.ZeroOperands := by
  rw [(step_eq_stepFrom rfl).2]
  cases legal : (a.decodedFrom a.simulator.memory).isLegal with
  | false => exact a.zeroOperands_stopping (.inl legal)
  | true =>
      cases halt : (a.decodedFrom a.simulator.memory).isHalt with
      | true => exact a.zeroOperands_stopping (.inr halt)
      | false =>
          rw [(execute_eq legal halt).1]
          split
          · exact a.zeroOperands_computed.simAddrGen.simMemAccess _
          · exact a.zeroOperands_computed

end FunctState

/-- Register 0 reads as zero everywhere: in every state of the pipeline, and where the functional
simulator collects the operands of an instruction and executes it. Witness: the latches keep the
operands of register 0 at zero, each forwarding block tests its producer's `rd`, and so does WB.
-/
theorem registerZero_reads_zero (past : CycleState Cache) (functPast : FunctState)
    (iCacheConfig dCacheConfig : CacheConfig) (mem : MemoryStore) (n : ℕ)
    : (CycleState.next^[n] (initSimulator past iCacheConfig dCacheConfig mem)).ZeroRegister
      ∧ ((FunctState.step^[n] (.initSimulator functPast mem)).collected
          (FunctState.step^[n] (.initSimulator functPast mem)).simulator.memory).ZeroOperands
      ∧ (FunctState.step^[n] (.initSimulator functPast mem)).inst.ZeroOperands :=
  ⟨(CycleState.zeroLatches_reachable past _ _ mem n).zeroRegister,
    FunctState.zeroOperands_collected _, FunctState.zeroOperands_inst _⟩

end RiscvSim
