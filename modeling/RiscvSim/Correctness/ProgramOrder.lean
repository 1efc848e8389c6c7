import RiscvSim.Instructions.Execution
import RiscvSim.Pipeline.Operands

/-! Operands and store data against program order: they are right in every run in which no
held instruction loses an operand and no store is forwarded the wrong producer.
-/

namespace RiscvSim

/-- The source registers `simEX` computes with. -/
def Sources.execute : Sources where
  rs1 inst := inst.opcode != opBranch && inst.opcode != opJalr
  rs2 inst := inst.opcode != opBranch && inst.opcode != opJalr && !inst.writesMem

/-- The source registers of branches and JALR. -/
def Sources.branch : Sources where
  rs1 inst := inst.opcode == opBranch || inst.opcode == opJalr
  rs2 inst := inst.opcode == opBranch || inst.opcode == opJalr

/-- The source register a store takes its data from. -/
def Sources.storeData : Sources where
  rs1 _ := false
  rs2 inst := inst.writesMem

namespace CycleState

variable {κ : Type} {s : CycleState κ}

/-- The instruction in ID moves to EX through `simEX` in this cycle, and no older instruction
raises an exception.
-/
def issues (s : CycleState κ) : Bool :=
  !s.held && !s.wbMemException && !(!s.idInst.isNop && !s.idInst.isLegal)

/-- If ID issues an instruction that is no branch or JALR, `simEX` gets the program-order
value of each source register other than 0, except for the data of a store.
-/
def EXOperandsInOrder (s : CycleState κ) : Prop :=
  s.issues = true → s.idInst.opcode ≠ opBranch → s.idInst.opcode ≠ opJalr
    → (s.idInst.readsRs1 = true → s.idInst.rs1 ≠ 0
        → s.exInput.op1Val = s.valuesBeforeID s.idInst.rs1)
      ∧ (s.idInst.readsRs2 = true → s.idInst.writesMem = false → s.idInst.rs2 ≠ 0
        → s.exInput.op2Val = s.valuesBeforeID s.idInst.rs2)

/-- Where ID is not held for a load, none of its source registers is loaded in EX. -/
theorem LatchInv.no_load_ahead (l : s.LatchInv) (moving : s.held = false)
    (ordinary : s.idIsBranchLike = false) {r : U64} (nonzero : r ≠ 0)
    (reads
      : (s.idInst.readsRs1 = true ∧ s.idInst.rs1 = r)
        ∨ (s.idInst.readsRs2 = true ∧ s.idInst.rs2 = r ∧ s.idInst.writesMem = false))
    (writes : s.exInst.writes r = true)
    : s.exInst.readsMem = false := by
  by_contra load
  simp only [Bool.not_eq_false] at load
  have busy : s.idInst.isNop = false := by
    rcases reads with rs1 | rs2
    · exact (l.inID.kind.reader (.inl rs1.1)).2.2
    · exact (l.inID.kind.reader (.inr rs2.1)).2.2
  simp only [Instruction.writes, Bool.and_eq_true, Bool.not_eq_true', beq_iff_eq] at writes
  have store := (l.inEX.kind.writer writes.1.2).2.2.2.1
  simp only [held, hazardStall, Bool.or_eq_false_iff] at moving
  have target : (s.exInst.rd != 0) = true := by
    rw [writes.2]
    exact bne_iff_ne.mpr nonzero
  have stalls : s.loadUseStall = true := by
    simp only [loadUseStall, moving.1, writes.1.1, load, store, target, busy, ordinary]
    rcases reads with rs1 | rs2
    · simp [rs1, writes.2]
    · simp [rs2, writes.2]
  simp [moving.2.1] at stalls

/-- Where ID is not held, a branch in it does not wait for the instruction in EX. -/
theorem no_producer_ahead (moving : s.held = false)
    (transfers : s.idIsBranchLike = true) {r : U64} (nonzero : r ≠ 0)
    (reads
      : (s.idInst.readsRs1 = true ∧ s.idInst.rs1 = r)
        ∨ (s.idInst.readsRs2 = true ∧ s.idInst.rs2 = r))
    : s.exInst.writes r = false := by
  by_contra writes
  simp only [Bool.not_eq_false, Instruction.writes, Bool.and_eq_true, Bool.not_eq_true',
    beq_iff_eq] at writes
  simp only [held, hazardStall, branchDataStall, Bool.or_eq_false_iff] at moving
  have target : (s.exInst.rd != 0) = true := by
    rw [writes.2]
    exact bne_iff_ne.mpr nonzero
  have stalls : s.branchExStall = true := by
    simp only [branchExStall, moving.1, transfers, writes.1.1, writes.1.2, target]
    rcases reads with rs1 | rs2
    · simp [rs1, writes.2]
    · simp [rs2, writes.2]
  simp [moving.2.2.1] at stalls

/-- Where ID is not held, no load is ahead of an operand that EX or ID takes. -/
theorem LatchInv.no_load_read (l : s.LatchInv) (moving : s.held = false) {r : U64}
    (nonzero : r ≠ 0)
    (reads
      : (s.idInst.readsRs1 = true ∧ s.idInst.rs1 = r)
        ∨ (s.idInst.readsRs2 = true ∧ s.idInst.rs2 = r ∧ s.idInst.writesMem = false))
    (writes : s.exInst.writes r = true)
    : s.exInst.readsMem = false := by
  cases transfers : s.idIsBranchLike with
  | false => exact l.no_load_ahead moving transfers nonzero reads writes
  | true =>
      have clear := no_producer_ahead moving transfers nonzero
        (reads.imp_right fun rs2 => ⟨rs2.1, rs2.2.1⟩)
      simp [clear] at writes

section Issue

variable {which : Sources} (h : s.OperandInv which) (l : s.LatchInv) (moving : s.held = false)
  (sound : s.memInst.memException = false)
include h l moving sound

/-- The first operand that leaves ID is that of program order. -/
theorem OperandInv.exInput_op1Val_eq (chosen : which.rs1 s.idInst = true)
    (reads : s.idInst.readsRs1 = true) (nonzero : s.idInst.rs1 ≠ 0)
    : s.exInput.op1Val = s.valuesBeforeID s.idInst.rs1 := by
  rw [l.exInput_op1Val reads nonzero]
  exact h.forwardedToEX_eq l sound nonzero
    (l.no_load_read moving nonzero (.inl ⟨reads, rfl⟩)) (h.operands.rs1 chosen reads nonzero)

/-- So is the second one, unless it is the data of a store. -/
theorem OperandInv.exInput_op2Val_eq (chosen : which.rs2 s.idInst = true)
    (reads : s.idInst.readsRs2 = true) (noStore : s.idInst.writesMem = false)
    (nonzero : s.idInst.rs2 ≠ 0)
    : s.exInput.op2Val = s.valuesBeforeID s.idInst.rs2 := by
  rw [l.exInput_op2Val reads nonzero]
  exact h.forwardedToEX_eq l sound nonzero
    (l.no_load_read moving nonzero (.inr ⟨reads, rfl, noStore⟩))
    (h.operands.rs2 chosen reads nonzero)

end Issue

theorem OperandInv.exOperandsInOrder (h : s.OperandInv .execute) (l : s.LatchInv)
    : s.EXOperandsInOrder := by
  intro issues branch jalr
  simp only [CycleState.issues, Bool.and_eq_true, Bool.not_eq_true'] at issues
  have sound := l.calm_iff.mp issues.1.2
  constructor
  · intro reads nonzero
    exact h.exInput_op1Val_eq l issues.1.1 sound (by simp [Sources.execute, branch, jalr])
      reads nonzero
  · intro reads noStore nonzero
    exact h.exInput_op2Val_eq l issues.1.1 sound
      (by simp [Sources.execute, branch, jalr, noStore]) reads noStore nonzero

/-- In a run that loses no operand of EX, every such operand has its program-order value.
Witness: the operands stay findable, and forwarding finds them.
-/
theorem ex_operands_in_order (past : CycleState Cache) (iCacheConfig dCacheConfig : CacheConfig)
    (image : MemoryStore) (s : CycleState Cache)
    (reach
      : Runs.ReachableUnder next (fun t => t.losesOperands .execute = false)
          (initSimulator past iCacheConfig dCacheConfig image) s)
    : s.EXOperandsInOrder :=
  have inv := operandInv_reachable reach
  inv.2.exOperandsInOrder inv.1

/-- `addi x1, x0, 5; lw x2, 256(x0); add x3, x1, x2`: the D-cache miss holds `add` in ID while
`addi` leaves WB, so `add` computes with the old value of x1.
-/
theorem ex_operands_lost
    : ¬ ∀ (past : CycleState Cache) (iCacheConfig dCacheConfig : CacheConfig)
        (image : MemoryStore) (s : CycleState Cache),
        Runs.Reachable next (initSimulator past iCacheConfig dCacheConfig image) s
          → s.EXOperandsInOrder := by
  intro claim
  have inOrder := claim _ testICache testDCache
    (.load [0x00500093, 0x10002103, 0x002081b3, 0xfeedfeed]) _
    (Runs.reachable_iterate (initSimulator
      (.fresh (Cache.new testICache) (Cache.new testDCache)) _ _ _) 18)
  have operand := (inOrder (by decide +kernel) (by decide +kernel) (by decide +kernel)).1
    (by decide +kernel) (by decide +kernel)
  revert operand
  decide +kernel

/-- The same program with three NOPs after `addi` loses nothing. -/
theorem ex_operands_in_order_apart
    : (next^[26] (boot testICache testDCache
        [0x00500093, 0x13, 0x13, 0x13, 0x10002103, 0x002081b3, 0xfeedfeed])).EXOperandsInOrder :=
  ex_operands_in_order _ _ _ _ _ (Runs.reachableUnder_iterate (by decide +kernel))

-----------------------------------------------------------------------------------------
-- Operands of branches
-----------------------------------------------------------------------------------------

/-- If ID resolves a branch or JALR, `simNextPCResolution` gets the program-order value of
each source register other than 0, and so computes the next PC of sequential execution.
-/
def BranchOperandsInOrder (s : CycleState κ) : Prop :=
  s.resolvesInID = true → s.idInst.opcode = opBranch ∨ s.idInst.opcode = opJalr
    → (s.idInst.readsRs1 = true → s.idInst.rs1 ≠ 0
        → s.idEval.op1Val = s.valuesBeforeID s.idInst.rs1)
      ∧ (s.idInst.readsRs2 = true → s.idInst.rs2 ≠ 0
        → s.idEval.op2Val = s.valuesBeforeID s.idInst.rs2)
      ∧ s.resolved.nextPC
        = (simNextPCResolution (simOperandCollection s.idInst s.valuesBeforeID)).nextPC

/-- Operands that are in order are those `simOperandCollection` would read. -/
theorem collected_of_inOrder {inst : Instruction} {registers : Registers}
    (zero : inst.ZeroOperands)
    (rs1 : inst.readsRs1 = true → inst.rs1 ≠ 0 → inst.op1Val = registers inst.rs1)
    (rs2 : inst.readsRs2 = true → inst.rs2 ≠ 0 → inst.op2Val = registers inst.rs2)
    : inst.Collected registers := by
  constructor
  · intro reads
    by_cases register : inst.rs1 = 0
    · simp only [Registers.set, if_pos register]
      exact zero.rs1 reads register
    · simp only [Registers.set, if_neg register]
      exact rs1 reads register
  · intro reads
    by_cases register : inst.rs2 = 0
    · simp only [Registers.set, if_pos register]
      exact zero.rs2 reads register
    · simp only [Registers.set, if_neg register]
      exact rs2 reads register

theorem OperandInv.branchOperandsInOrder (h : s.OperandInv .branch) (l : s.LatchInv)
    : s.BranchOperandsInOrder := by
  intro resolves transfers
  have chosen : (s.idInst.opcode == opBranch || s.idInst.opcode == opJalr) = true := by
    simpa using transfers
  simp only [resolvesInID, idWillAdvance, Bool.and_eq_true, Bool.not_eq_true'] at resolves
  obtain ⟨⟨⟨⟨⟨free, active⟩, _⟩, calm⟩, busy⟩, _⟩ := resolves
  have moving := held_free.mpr ⟨active, free⟩
  have sound := l.calm_iff.mp calm
  have branchLike : s.idIsBranchLike = true := by simp [idIsBranchLike, busy, chosen]
  have rs1 (reads : s.idInst.readsRs1 = true) (nonzero : s.idInst.rs1 ≠ 0)
      : s.idEval.op1Val = s.valuesBeforeID s.idInst.rs1 := by
    rw [l.idEval_op1Val active reads nonzero]
    exact h.forwardedToID_eq l active sound nonzero
      (no_producer_ahead moving branchLike nonzero (.inl ⟨reads, rfl⟩))
      (h.operands.rs1 chosen reads nonzero)
  have rs2 (reads : s.idInst.readsRs2 = true) (nonzero : s.idInst.rs2 ≠ 0)
      : s.idEval.op2Val = s.valuesBeforeID s.idInst.rs2 := by
    rw [l.idEval_op2Val active reads nonzero]
    exact h.forwardedToID_eq l active sound nonzero
      (no_producer_ahead moving branchLike nonzero (.inr ⟨reads, rfl⟩))
      (h.operands.rs2 chosen reads nonzero)
  refine ⟨rs1, rs2, ?_⟩
  have fields := Instruction.sameControl s.control_idEval
  have collected : s.idEval.Collected s.valuesBeforeID := by
    refine collected_of_inOrder (h.zeroOperands_idEval active busy) ?_ ?_
    · rw [fields.readsRs1, fields.rs1]
      exact rs1
    · rw [fields.readsRs2, fields.rs2]
      exact rs2
  exact nextPC_of_collected s.control_idEval collected
    (collected_simOperandCollection s.idInst s.valuesBeforeID)
    (l.inID.kind.of_control (control_simOperandCollection s.idInst s.valuesBeforeID))

/-- In a run that loses no operand of a branch, branches and JALR are resolved on values of
program order.
-/
theorem branch_operands_in_order (past : CycleState Cache)
    (iCacheConfig dCacheConfig : CacheConfig) (image : MemoryStore) (s : CycleState Cache)
    (reach
      : Runs.ReachableUnder next (fun t => t.losesOperands .branch = false)
          (initSimulator past iCacheConfig dCacheConfig image) s)
    : s.BranchOperandsInOrder :=
  have inv := operandInv_reachable reach
  inv.2.branchOperandsInOrder inv.1

/-- `addi x1, x0, 5; lw x2, 256(x0); beq x1, x2, 8`: as above, with a branch that waits for
the load.
-/
theorem branch_operands_lost
    : ¬ ∀ (past : CycleState Cache) (iCacheConfig dCacheConfig : CacheConfig)
        (image : MemoryStore) (s : CycleState Cache),
        Runs.Reachable next (initSimulator past iCacheConfig dCacheConfig image) s
          → s.BranchOperandsInOrder := by
  intro claim
  have inOrder := claim _ testICache testDCache
    (.load [0x00500093, 0x10002103, 0x00208463, 0xfeedfeed]) _
    (Runs.reachable_iterate (initSimulator
      (.fresh (Cache.new testICache) (Cache.new testDCache)) _ _ _) 19)
  have operand := (inOrder (by decide +kernel) (by decide +kernel)).1
    (by decide +kernel) (by decide +kernel)
  revert operand
  decide +kernel

/-- The same program with three NOPs after `addi` loses nothing. -/
theorem branch_operands_in_order_apart
    : (next^[27] (boot testICache testDCache
          [0x00500093, 0x13, 0x13, 0x13, 0x10002103, 0x00208463,
            0xfeedfeed])).BranchOperandsInOrder :=
  branch_operands_in_order _ _ _ _ _ (Runs.reachableUnder_iterate (by decide +kernel))

-----------------------------------------------------------------------------------------
-- Store data
-----------------------------------------------------------------------------------------

/-- If the store in EX accesses memory in this cycle and no older instruction raises an
exception, what it writes of `op2Val` is the program-order value of its data register.
-/
def StoreDataInOrder (s : CycleState κ) : Prop :=
  s.memActive = true → s.wbMemException = false
    → s.exInst.writesMem = true → s.exInst.rs2 ≠ 0
    → s.memInput.op2Val.setWidth (8 * (accessSize s.exInst).bytes)
      = (s.valuesBeforeEX s.exInst.rs2).setWidth (8 * (accessSize s.exInst).bytes)

/-- The store in EX accesses memory with its data, of a register other than 0, produced right
ahead in MEM, where WB-to-MEM forwarding does not look: by a load, or while an older producer
in WB is forwarded instead.
-/
def misforwardsStore (s : CycleState κ) : Bool :=
  s.memActive && s.exInst.writesMem && s.exInst.rs2 != 0 && s.memInst.writes s.exInst.rs2
  && (s.memInst.readsMem || s.wbInst.writes s.exInst.rs2)

/-- A store that is forwarded the right producer writes the program-order value. -/
theorem OperandInv.storedData_eq (h : s.OperandInv .storeData) (l : s.LatchInv)
    (forwards : s.misforwardsStore = false) (active : s.memActive = true)
    (store : s.exInst.writesMem = true) (nonzero : s.exInst.rs2 ≠ 0)
    : s.storedData = s.valuesBeforeEX s.exInst.rs2 := by
  simp only [misforwardsStore, active, store, bne_iff_ne.mpr nonzero, Bool.true_and] at forwards
  rw [storedData]
  cases wb : s.wbInst.writes s.exInst.rs2 with
  | true =>
      have silent : s.memInst.writes s.exInst.rs2 = false := by
        simpa [wb] using forwards
      rw [if_pos ⟨rfl, nonzero⟩, l.valuesBeforeEX_silent nonzero silent]
      exact h.committed _ nonzero wb
  | false =>
      rw [if_neg (by simp)]
      rcases h.storeData (fun inst writes => writes) store nonzero with current | ⟨mem, load⟩
      · exact current
      · simp [mem, load] at forwards

theorem OperandInv.storeDataInOrder (h : s.OperandInv .storeData) (l : s.LatchInv)
    (forwards : s.misforwardsStore = false)
    : s.StoreDataInOrder := by
  intro active _ store nonzero
  rw [memInput_op2Val store, h.storedData_eq l forwards active store nonzero]

/-- In a run that loses no store data, a store that is not forwarded the wrong producer writes
the program-order value.
-/
theorem store_data_in_order (past : CycleState Cache) (iCacheConfig dCacheConfig : CacheConfig)
    (image : MemoryStore) (s : CycleState Cache)
    (reach
      : Runs.ReachableUnder next (fun t => t.losesOperands .storeData = false)
          (initSimulator past iCacheConfig dCacheConfig image) s)
    (forwards : s.misforwardsStore = false)
    : s.StoreDataInOrder :=
  have inv := operandInv_reachable reach
  inv.2.storeDataInOrder inv.1 forwards

/-- `lw x1, 0(x0); sw x1, 256(x0)`: the load has reached MEM, not WB, when the store writes. -/
theorem store_data_misforwarded
    : ¬ ∀ (past : CycleState Cache) (iCacheConfig dCacheConfig : CacheConfig)
        (image : MemoryStore) (s : CycleState Cache),
        Runs.Reachable next (initSimulator past iCacheConfig dCacheConfig image) s
          → s.StoreDataInOrder := by
  intro claim
  have inOrder := claim _ testICache testDCache
    (.load [0x00002083, 0x10102023, 0xfeedfeed]) _
    (Runs.reachable_iterate (initSimulator
      (.fresh (Cache.new testICache) (Cache.new testDCache)) _ _ _) 17)
  have data := inOrder (by decide +kernel) (by decide +kernel) (by decide +kernel)
    (by decide +kernel)
  revert data
  decide +kernel

/-- With a NOP between them the store is forwarded the loaded word from WB. -/
theorem store_data_in_order_apart
    : (next^[18] (boot testICache testDCache
        [0x00002083, 0x13, 0x10102023, 0xfeedfeed])).StoreDataInOrder :=
  store_data_in_order _ _ _ _ _ (Runs.reachableUnder_iterate (by decide +kernel))
    (by decide +kernel)

end CycleState
end RiscvSim
