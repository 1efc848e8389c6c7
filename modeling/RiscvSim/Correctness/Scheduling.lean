import RiscvSim.Correctness.Rv64iExecution
import RiscvSim.Correctness.ScheduledPrograms

/-! The pipeline under any caches runs a scheduled program as the functional simulator does: no
cycle loses an operand or misforwards store data, every stall ends, and HALT is reached.
-/

namespace RiscvSim

open Rv64i (Instr Hart Reg)

/-- Facts about the sources of an instruction, from facts about the registers it reads. -/
theorem Instruction.Operands.imp {which : Sources} {inst : Instruction} {P Q : U64 → U64 → Prop}
    (h : inst.Operands which P)
    (imp : ∀ r v, r ≠ 0 → inst.reads r = true → P r v → Q r v)
    : inst.Operands which Q where
  rs1 := fun chosen reads nonzero =>
    imp _ _ nonzero (by simp [Instruction.reads, reads]) (h.rs1 chosen reads nonzero)
  rs2 := fun chosen reads nonzero =>
    imp _ _ nonzero (by simp [Instruction.reads, reads]) (h.rs2 chosen reads nonzero)

/-- An instruction that reads a register is no NOP. -/
theorem Instruction.HasKind.reader_busy {inst : Instruction} (kind : inst.HasKind) {r : U64}
    (reads : inst.reads r = true)
    : inst.isNop = false := by
  simp only [Instruction.reads, Bool.or_eq_true, Bool.and_eq_true] at reads
  exact (kind.reader (reads.imp And.left And.left)).2.2

theorem Instruction.busy_of_writes {inst : Instruction} {r : U64} (writes : inst.writes r = true)
    : inst.isNop = false := by
  simp only [Instruction.writes, Bool.and_eq_true, Bool.not_eq_true'] at writes
  exact writes.1.1

/-- The addresses of the instructions up to number `N`. -/
def FunctState.Visits (image : MemoryStore) (N : ℕ) (pc : U64) : Prop :=
  ∃ k ≤ N, (FunctState.path image k).pc = pc

namespace CycleState

variable {κ : Type} {s : CycleState κ} {image : MemoryStore} {N c : ℕ}

/-- The operands in ID are those of the register file, or EX is empty and what leaves WB is
either not needed or written again by MEM.
-/
def Waits (s : CycleState κ) : Prop :=
  (s.idInst.Operands .all fun r v => v = s.simulator.regData r)
  ∨ (s.exInst.isNop = true
    ∧ (s.held = false
      ∨ s.idInst.Operands .all fun r v =>
          s.wbInst.writes r = true
            → s.memInst.writes r = true ∨ v = s.simulator.regData r))

/-- On the way to the HALT that follows `N` other instructions of a scheduled program: the
pipeline follows sequential execution, MEM and WB hold its last instructions, nothing faults,
and ID waits for nothing that it loses.
-/
structure OnTrack (image : MemoryStore) (N : ℕ) (s : CycleState κ) (c : ℕ) : Prop where
  follows : s.Follows image (FunctState.Visits image N) c
  bound : c ≤ N
  mem
    : s.memInst.isNop = false
      → s.memInst.control = ((FunctState.path image c).decodedFrom image).control
  wb
    : ∀ r, s.wbInst.writes r = true
        → ∃ k, c = k + 1 ∧ ((FunctState.path image k).decodedFrom image).writes r = true
  sound : s.memInst.memException = false
  waits : s.haltAhead = false → s.Waits

theorem onTrack_initCycle (past : CycleState κ) (iCache dCache : κ)
    : (initCycle past iCache dCache image).OnTrack image N 0 where
  follows := follows_initCycle past iCache dCache
  bound := Nat.zero_le N
  mem := fun busy => by simp [initCycle, nop] at busy
  wb := fun r writes => by simp [initCycle] at writes
  sound := rfl
  waits := fun _ => .inl (operands_nop _ _)

theorem losesOperands_of_operands
    (h : s.held = true → s.idInst.Operands .all fun r v => s.losesOperand r v = false)
    : s.losesOperands .all = false := by
  cases held : s.held with
  | false => simp [losesOperands, held]
  | true =>
      have zero (v : U64) : s.losesOperand 0 v = false := by simp [losesOperand]
      have operand {reads : Bool} {r v : U64}
          (kept : reads = true → r ≠ 0 → s.losesOperand r v = false)
          : (reads && s.losesOperand r v) = false := by
        cases read : reads with
        | false => rfl
        | true =>
            by_cases register : r = 0
            · rw [register, zero]
              rfl
            · rw [kept read register]
              rfl
      have kept := Bool.or_eq_false_iff.mpr
        ⟨operand ((h held).rs1 rfl), operand ((h held).rs2 rfl)⟩
      simp only [losesOperands, Sources.all, Bool.true_and, kept, Bool.and_false]

/-- An instruction that waits in this way loses no operand. -/
theorem Waits.keeps (w : s.Waits) : s.losesOperands .all = false := by
  refine losesOperands_of_operands fun held => ?_
  rcases w with fresh | ⟨_, free | guarded⟩
  · refine fresh.imp fun r v _ _ current => ?_
    simp [losesOperand, current]
  · simp [held] at free
  · refine guarded.imp fun r v _ _ guard => ?_
    by_contra loses
    simp only [losesOperand, Bool.not_eq_false, Bool.and_eq_true, bne_iff_ne,
      Bool.not_eq_true'] at loses
    obtain ⟨⟨⟨⟨_, wb⟩, _⟩, mem⟩, other⟩ := loses
    rcases guard wb with again | current
    · simp [mem] at again
    · exact other current

-----------------------------------------------------------------------------------------
-- What holds ID
-----------------------------------------------------------------------------------------

theorem dStallLeft_idle (moving : s.dStallActive = false) : s.dStallLeft = 0 := by
  simp only [dStallActive, decide_eq_false_iff_not, BitVec.not_lt] at moving
  exact BitVec.le_zero_iff.mp moving

/-- Without a load or store in EX the D-cache does not stall next. -/
theorem LatchInv.dStall_quiet [CacheUnit κ] (l : s.LatchInv) (moving : s.dStallActive = false)
    (noLoad : s.exInst.readsMem = false) (noStore : s.exInst.writesMem = false)
    : s.next.dStallLeft = 0 := by
  have quiet : s.accessesDCache = false := by
    rw [l.accessesDCache_eq, noLoad, noStore]
    simp
  simp only [next, dStallLeftNext, quiet, Bool.false_and, Bool.false_eq_true, if_false]
  exact dStallTick_inactive moving

/-- With EX empty, ID is only held for the D-cache, or as a branch for the load in MEM. -/
theorem held_of_nop (empty : s.exInst.isNop = true)
    : s.held = (s.dStallActive || s.branchMemStall) := by
  have clear : s.branchExStall = false := by simp [branchExStall, empty]
  simp [held, hazardStall, loadUseStall, branchDataStall, clear, empty]

/-- With a load or store in EX, a hazard keeps ID for that load or for the one in MEM. -/
theorem LatchInv.hazard_cases (l : s.LatchInv) (hazard : s.hazardStall = true)
    (access : s.exInst.readsMem = true ∨ s.exInst.writesMem = true)
    : (s.exInst.readsMem = true ∧ s.idInst.dependsOn s.exInst = true)
      ∨ (s.branchMemStall = true) := by
  simp only [hazardStall, branchDataStall, Bool.or_eq_true] at hazard
  rcases hazard with loadUse | branch | branch
  · left
    simp only [loadUseStall, Bool.and_eq_true, Bool.or_eq_true, Bool.not_eq_true',
      bne_iff_ne, beq_iff_eq] at loadUse
    obtain ⟨⟨_, ⟨⟨⟨⟨⟨busy, load⟩, _⟩, target⟩, _⟩, _⟩⟩, sources⟩ := loadUse
    have writes := (l.inEX.kind.load load).writesRd
    refine ⟨load, Instruction.dependsOn_iff.mpr ⟨s.exInst.rd, target, ?_, ?_⟩⟩
    · simp [Instruction.writes, busy, writes]
    · simp only [Instruction.reads, Bool.or_eq_true, Bool.and_eq_true, beq_iff_eq]
      exact sources.imp id And.left
  · left
    simp only [branchExStall, Bool.and_eq_true, Bool.or_eq_true, Bool.not_eq_true',
      bne_iff_ne, beq_iff_eq] at branch
    obtain ⟨⟨_, ⟨⟨busy, target⟩, writes⟩⟩, sources⟩ := branch
    have load : s.exInst.readsMem = true := by
      refine access.resolve_right fun store => ?_
      simp [(l.inEX.kind.store store).writesRd] at writes
    refine ⟨load, Instruction.dependsOn_iff.mpr ⟨s.exInst.rd, target, ?_, ?_⟩⟩
    · simp [Instruction.writes, busy, writes]
    · simpa only [Instruction.reads, Bool.or_eq_true, Bool.and_eq_true, beq_iff_eq] using sources
  · exact .inr branch

/-- A branch held for the load in MEM depends on it. -/
theorem branchMemStall_depends (stall : s.branchMemStall = true)
    : (s.idInst.opcode = opBranch ∨ s.idInst.opcode = opJalr) ∧ s.memInst.readsMem = true
      ∧ s.idInst.dependsOn s.memInst = true := by
  simp only [branchMemStall, idIsBranchLike, Bool.and_eq_true, Bool.or_eq_true,
    Bool.not_eq_true', bne_iff_ne, beq_iff_eq] at stall
  obtain ⟨⟨⟨⟨_, like⟩, _⟩, ⟨⟨⟨⟨busy, target⟩, writes⟩, load⟩, _⟩⟩, sources⟩ := stall
  refine ⟨like.2, load, Instruction.dependsOn_iff.mpr ⟨s.memInst.rd, target, ?_, ?_⟩⟩
  · simp [Instruction.writes, busy, writes]
  · simpa only [Instruction.reads, Bool.or_eq_true, Bool.and_eq_true, beq_iff_eq] using sources

/-- Held for a hazard, ID stays held only if a load or store moves to MEM. -/
theorem LatchInv.held_next [CacheUnit κ] (l : s.LatchInv) (calm : s.wbMemException = false)
    (moving : s.dStallActive = false) (hazard : s.hazardStall = true)
    (held : s.next.held = true)
    : s.exInst.readsMem = true ∨ s.exInst.writesMem = true := by
  by_contra none
  simp only [not_or, Bool.not_eq_true] at none
  have empty : s.next.exInst.isNop = true := by
    rw [next_exInst calm, l.newEX_hazard moving hazard]
    rfl
  have noLoad : s.next.memInst.readsMem = false := by
    rw [next_memInst calm]
    cases busy : s.exInst.isNop with
    | true =>
        rw [l.newMEM_nop moving busy]
        rfl
    | false =>
        rw [(Instruction.sameControl (l.newMEM_control moving busy)).readsMem, none.1]
  have quiet : s.next.dStallActive = false := by
    simp [dStallActive, l.dStall_quiet moving none.1 none.2]
  simp [held_of_nop empty, quiet, branchMemStall, noLoad] at held

-----------------------------------------------------------------------------------------
-- One cycle
-----------------------------------------------------------------------------------------

/-- What ID decodes has its operands from the register file. -/
theorem LatchInv.fresh_next [CacheUnit κ] (l : s.LatchInv) (calm : s.wbMemException = false)
    (moving : s.held = false)
    : s.next.idInst.Operands .all fun r v => v = s.next.simulator.regData r := by
  rw [next_idInst calm]
  rcases s.newID_cases with ⟨frozen, _⟩ | ⟨_, _, status, _, same⟩ | ⟨_, decodes, same⟩
  · simp [moving] at frozen
  · rw [same]
    exact operands_nop _ _
  · have latched : s.decoded.1.Operands .all fun r v => v = s.simAfterMEM.regData r :=
      simID_operands s.simAfterMEM (l.fetched (decodes_clear decodes).2.2.2.2)
    rw [same, next_regData, ← simAfterMEM_regData]
    exact latched

/-- A D-cache stall shows nothing in WB and changes no register. -/
theorem Waits.next_frozen [CacheUnit κ] (w : s.Waits) (calm : s.wbMemException = false)
    (frozen : s.dStallActive = true)
    : s.next.Waits := by
  have held : s.held = true := by simp [held, frozen]
  have id : s.next.idInst = s.idInst := by rw [next_idInst calm, newID_held held]
  have ex : s.next.exInst = s.exInst := by simp [next_exInst calm, newEX, frozen]
  have registers : s.next.simulator.regData = s.simulator.regData := by
    rw [next_regData, simAfterWB_frozen frozen]
  have silent (r : U64) : s.next.wbInst.writes r = false := by
    simp [next, newWB, frozen, nop, Instruction.writes]
  rcases w with fresh | ⟨empty, _⟩
  · left
    rw [id, registers]
    exact fresh
  · right
    refine ⟨ex ▸ empty, .inr ⟨fun _ _ _ wb => ?_, fun _ _ _ wb => ?_⟩⟩ <;>
      simp [silent] at wb

namespace OnTrack

variable (h : s.OnTrack image N c)
include h

theorem calm : s.wbMemException = false := h.follows.latches.calm_iff.mpr h.sound

variable (scheduled : FunctState.ScheduledPath image N)

theorem exIndex_mem (busy : s.memInst.isNop = false) : s.exIndex c = c + 1 := by
  simp [exIndex, slot_length, h.follows.latches.mem_inFlight busy]

theorem ex_control (running : s.memInst.isHalt = false) (busy : s.exInst.isNop = false)
    : s.exInst.control = ((FunctState.path image (s.exIndex c)).decodedFrom image).control :=
  (h.follows.retired.executes running (h.follows.latches.ex_inFlight busy)).control

theorem id_control (ahead : s.haltAhead = false) (busy : s.idInst.isNop = false)
    : s.idInst.control = ((FunctState.path image (s.idIndex c)).decodedFrom image).control :=
  (h.follows.fetches ahead).decoded (h.follows.latches.id_inFlight busy)

include scheduled

/-- The instructions in MEM, EX and ID are three in a row. -/
theorem spaced (ahead : s.haltAhead = false) (mem : s.memInst.isNop = false)
    (ex : s.exInst.isNop = false) (id : s.idInst.isNop = false)
    : s.memInst.Spaced s.exInst s.idInst := by
  have running : s.memInst.isHalt = false := by
    simp only [haltAhead, Bool.or_eq_false_iff] at ahead
    exact ahead.2
  have bound := h.follows.retired.idIndex_le h.bound scheduled.halt ahead
  have place : s.idIndex c = c + 2 := by
    simp [idIndex, slot_length, h.follows.latches.ex_inFlight ex, h.exIndex_mem mem]
  have second := h.ex_control running ex
  have third := h.id_control ahead id
  rw [h.exIndex_mem mem] at second
  rw [place] at third bound
  exact (scheduled.spaced c bound).of_control second third (h.mem mem)

/-- No store in EX takes its data from the wrong instruction ahead of it. -/
theorem forwards (ahead : s.haltAhead = false) : s.misforwardsStore = false := by
  have running : s.memInst.isHalt = false := by
    simp only [haltAhead, Bool.or_eq_false_iff] at ahead
    exact ahead.2
  by_contra wrong
  simp only [misforwardsStore, Bool.not_eq_false, Bool.and_eq_true, Bool.or_eq_true] at wrong
  obtain ⟨⟨⟨⟨_, store⟩, _⟩, written⟩, source⟩ := wrong
  have mem := Instruction.busy_of_writes written
  have ex := (h.follows.latches.inEX.kind.store store).isNop
  have bound := h.follows.retired.exIndex_le h.bound scheduled.halt running
  have second := h.ex_control running ex
  rw [h.exIndex_mem mem] at second bound
  rcases source with load | older
  · have apart := (scheduled.stores c bound).of_control (h.mem mem) second
    simp [apart store written] at load
  · obtain ⟨k, rfl, wrote⟩ := h.wb _ older
    have fields := Instruction.sameControl second
    have clear := (scheduled.spaced k bound).store (fields.writesMem.symm.trans store)
      (by rw [← Instruction.writes_of_control (h.mem mem), ← fields.rs2, written])
    rw [← fields.rs2, wrote] at clear
    cases clear

/-- Held with a load or store in EX, the instruction in ID needs no result of MEM that EX does
not write again.
-/
theorem rewritten (ahead : s.haltAhead = false) (hazard : s.hazardStall = true)
    (access : s.exInst.readsMem = true ∨ s.exInst.writesMem = true) {r : U64} (nonzero : r ≠ 0)
    (reads : s.idInst.reads r = true) (writes : s.memInst.writes r = true)
    : s.exInst.writes r = true := by
  have l := h.follows.latches
  have window := h.spaced scheduled ahead (Instruction.busy_of_writes writes)
    (l.inEX.kind.access access).2.1 (l.inID.kind.reader_busy reads)
  have first : s.idInst.dependsOn s.memInst = true :=
    Instruction.dependsOn_iff.mpr ⟨r, nonzero, writes, reads⟩
  have target : s.memInst.rd = r := by
    simp only [Instruction.writes, Bool.and_eq_true, beq_iff_eq] at writes
    exact writes.2
  rcases l.hazard_cases hazard access with ⟨load, second⟩ | stall
  · obtain ⟨other, _, wrote, _⟩ := Instruction.dependsOn_iff.mp second
    have same := window.loadUse load second first
    have here : s.exInst.rd = other := by
      simp only [Instruction.writes, Bool.and_eq_true, beq_iff_eq] at wrote
      exact wrote.2
    rwa [← target, same, here]
  · obtain ⟨like, load, _⟩ := branchMemStall_depends stall
    exact target ▸ window.branch like load first access

variable [CacheUnit κ]

/-- A hazard lets one instruction leave WB, whose result ID then has no need of. -/
theorem waits_next (ahead : s.haltAhead = false) : s.next.Waits := by
  have l := h.follows.latches
  have calm := h.calm
  cases frozen : s.dStallActive with
  | true => exact (h.waits ahead).next_frozen calm frozen
  | false =>
      cases hazard : s.hazardStall with
      | false => exact .inl (l.fresh_next calm (held_free.mpr ⟨frozen, hazard⟩))
      | true =>
          have empty : s.next.exInst.isNop = true := by
            rw [next_exInst calm, l.newEX_hazard frozen hazard]
            rfl
          refine .inr ⟨empty, ?_⟩
          cases held : s.next.held with
          | false => exact .inl rfl
          | true =>
              have access := l.held_next calm frozen hazard held
              have fresh := (h.waits ahead).resolve_right fun waits => by
                simp [(l.inEX.kind.access access).2.1] at waits
              have same : s.next.idInst = s.idInst := by
                rw [next_idInst calm, newID_held (by simp [CycleState.held, hazard])]
              rw [same]
              refine .inr (fresh.imp fun r v nonzero reads _ wb => .inl ?_)
              rw [next_memInst calm, l.newMEM_writes frozen]
              exact h.rewritten scheduled ahead hazard access nonzero reads
                ((l.newWB_writes frozen h.sound r).symm.trans wb)

omit [CacheUnit κ] in
/-- The access of MEM faults no more than that of sequential execution. -/
theorem newMEM_sound (running : s.halts = false) : s.newMEM.memException = false := by
  have l := h.follows.latches
  cases frozen : s.dStallActive with
  | true => simpa [newMEM, frozen] using h.sound
  | false =>
      have passed : s.memInst.isHalt = false := by simpa [l.halts_eq, frozen] using running
      cases busy : s.exInst.isNop with
      | true =>
          rw [l.newMEM_nop frozen busy]
          rfl
      | false =>
          rw [l.newMEM_active frozen busy]
          by_cases access : s.exInst.readsMem = true ∨ s.exInst.writesMem = true
          · have executes := h.follows.retired.executes passed (l.ex_inFlight busy)
            have fields := Instruction.sameControl executes.control
            have input := Instruction.sameControl s.control_memInput
            have unfaulted := (LatchInv.memInput_memException s).trans l.inEX.fault
            have ahead : s.haltAhead = false := by
              simp [haltAhead, (l.inEX.kind.access access).1, passed]
            have collected := memInput_collected l executes (fun store nonzero =>
              (((h.follows.fetches ahead).operands.of_all .storeData).storedData_eq l
                (h.forwards scheduled ahead) (by simp [l.memActive_eq, frozen, busy]) store
                nonzero).trans (h.follows.retired.values _ nonzero)) access
            have same := (FunctState.executedFrom_access
              (s.control_memInput.trans executes.control) collected
              (fields.isLegal.symm.trans l.inEX.legal)
              (by rwa [← fields.readsMem, ← fields.writesMem]) unfaulted).2
            rw [memAfterAccess, simMEM_access s.simAfterWB (input.isLegal.trans l.inEX.legal)
              unfaulted (by rwa [input.readsMem, input.writesMem]), simAfterWB_memory,
              h.follows.retired.memory]
            exact same.symm.trans (scheduled.sound _
              (h.follows.retired.exIndex_le h.bound scheduled.halt passed))
          · simp only [not_or, Bool.not_eq_true] at access
            exact (l.memAfterAccess_other access.1 access.2).2

omit [CacheUnit κ] in
theorem bound_next (running : s.halts = false) : c + s.entersWB.toList.length ≤ N := by
  have l := h.follows.latches
  cases frozen : s.dStallActive with
  | true => simpa [entersWB_frozen frozen] using h.bound
  | false =>
      have passed : s.memInst.isHalt = false := by simpa [l.halts_eq, frozen] using running
      rw [retires_length l frozen h.sound, ← exIndex]
      exact h.follows.retired.exIndex_le h.bound scheduled.halt passed

omit scheduled in
theorem mem_next (running : s.halts = false) (busy : s.next.memInst.isNop = false)
    : s.next.memInst.control
      = ((FunctState.path image (c + s.entersWB.toList.length)).decodedFrom image).control := by
  have l := h.follows.latches
  rw [next_memInst h.calm] at busy ⊢
  cases frozen : s.dStallActive with
  | true =>
      simp only [newMEM, frozen, if_true] at busy ⊢
      rw [entersWB_frozen frozen]
      exact h.mem busy
  | false =>
      have passed : s.memInst.isHalt = false := by simpa [l.halts_eq, frozen] using running
      have occupied : s.exInst.isNop = false := by
        by_contra empty
        rw [l.newMEM_nop frozen (by simpa using empty)] at busy
        simp [nop] at busy
      rw [l.newMEM_control frozen occupied, retires_length l frozen h.sound, ← exIndex]
      exact h.ex_control passed occupied

omit scheduled in
theorem wb_next (r : U64) (writes : s.next.wbInst.writes r = true)
    : ∃ k, c + s.entersWB.toList.length = k + 1
        ∧ ((FunctState.path image k).decodedFrom image).writes r = true := by
  have l := h.follows.latches
  cases frozen : s.dStallActive with
  | true => simp [next, newWB, frozen, nop, Instruction.writes] at writes
  | false =>
      have wrote : s.memInst.writes r = true :=
        (l.newWB_writes frozen h.sound r).symm.trans writes
      have busy := Instruction.busy_of_writes wrote
      refine ⟨c, ?_, ?_⟩
      · rw [retires_length l frozen h.sound, ← exIndex, h.exIndex_mem busy]
      · rwa [← Instruction.writes_of_control (h.mem busy)]

theorem inv_next (running : s.halts = false)
    : s.next.OnTrack image N (c + s.entersWB.toList.length) := by
  have l := h.follows.latches
  have calm := h.calm
  have sound : s.next.memInst.memException = false := by
    rw [next_memInst calm]
    exact h.newMEM_sound scheduled running
  have bound := h.bound_next scheduled running
  have retired := h.follows.retired_step running calm sound (h.forwards scheduled)
  have memory (pc : U64) (visited : FunctState.Visits image N pc)
      : s.next.simulator.memory.word pc = image.word pc := by
    obtain ⟨j, inRun, rfl⟩ := visited
    have last : s.next.exIndex (c + s.entersWB.toList.length) ≤ N + 1 := by
      rw [exIndex, slot_length]
      split <;> omega
    rw [retired.memory]
    exact scheduled.words _ last j inRun
  refine ⟨⟨l.inv_next, retired, h.follows.holds_next memory, fun ahead => ?_⟩, bound,
    h.mem_next running, h.wb_next, sound, fun ahead => ?_⟩
  · have gate := h.follows.ahead calm running ahead
    have place := retired.idIndex_le bound scheduled.halt ahead
    have known (decodes : s.decodes = true) : FunctState.Visits image N s.ifInst.pc := by
      have here := h.follows.pending_next calm gate ahead s.newID.pc
        (by simp [entersID, decodes, calm])
      rw [newID_pc decodes] at here
      exact ⟨_, place, here.symm⟩
    have legal : s.next.idInst.isLegal = true := by
      cases flight : s.next.idInst.inFlight with
      | false => exact (l.inv_next.inID.kind.nop (l.inv_next.inID.empty flight)).isLegal
      | true =>
          have control := h.follows.decoded_next calm gate ahead known flight
          exact (Instruction.sameControl control).isLegal.trans (scheduled.legal _ place)
    exact h.follows.fetches_step running calm ahead legal (h.waits gate).keeps known
  · exact h.waits_next scheduled (h.follows.ahead calm running ahead)

end OnTrack

-----------------------------------------------------------------------------------------
-- Progress
-----------------------------------------------------------------------------------------

/-- A bound on the stages to pass until HALT is in MEM. -/
def stagesLeft (N : ℕ) (s : CycleState κ) (c : ℕ) : ℕ :=
  if s.memInst.isHalt then 0 else if s.exInst.isHalt then 1 else 4 * N + 4 - s.stagesPassed c

/-- What has to come down before HALT reaches WB: the stages to pass; while none is passed, the
cycles of the D-cache stall; and without a stall, those until IF holds an instruction.
-/
def remaining (N : ℕ) (p : CycleState Cache × ℕ) : ℕ × ℕ × ℕ :=
  (p.1.stagesLeft N p.2, p.1.dStallLeft.toNat, p.1.fetchDelay)

theorem stagesLeft_frozen [CacheUnit κ] (calm : s.wbMemException = false)
    (frozen : s.dStallActive = true)
    : s.next.stagesLeft N (c + s.entersWB.toList.length) = s.stagesLeft N c := by
  have held : s.held = true := by simp [held, frozen]
  have mem : s.next.memInst = s.memInst := by simp [next_memInst calm, newMEM, frozen]
  have ex : s.next.exInst = s.exInst := by simp [next_exInst calm, newEX, frozen]
  have id : s.next.idInst = s.idInst := by rw [next_idInst calm, newID_held held]
  simp only [stagesLeft, stagesPassed, idIndex, exIndex, mem, ex, id, entersWB_frozen frozen,
    Option.toList_none, List.length_nil, Nat.add_zero]

/-- A D-cache stall runs down. -/
theorem LatchInv.dStallLeft_next [CacheUnit κ] (l : s.LatchInv) (frozen : s.dStallActive = true)
    : s.next.dStallLeft.toNat < s.dStallLeft.toNat := by
  have quiet : s.accessesDCache = false := by simp [l.accessesDCache_eq, frozen]
  have active : (0 : U64) < s.dStallLeft := by simpa [dStallActive] using frozen
  simp only [next, dStallLeftNext, quiet, Bool.false_and, Bool.false_eq_true, if_false,
    dStallTick, if_pos active]
  bv_omega

theorem OnTrack.advances (h : s.OnTrack image N c) (ahead : s.haltAhead = false)
    (moving : s.dStallActive = false)
    : s.Advances where
  latches := h.follows.latches
  front := (h.follows.fetches ahead).front
  legal := (h.follows.fetches ahead).legal
  calm := h.calm
  moving := moving

/-- Every cycle before HALT reaches WB brings it closer. Witness: by the stall, by where HALT
is, and by whether some instruction passes a stage.
-/
theorem OnTrack.remaining_next {s : CycleState Cache} (h : s.OnTrack image N c)
    (scheduled : FunctState.ScheduledPath image N) (wellFormed : s.iCache.WellFormed)
    (running : s.halts = false)
    : Prod.Lex (· < ·) (Prod.Lex (· < ·) (· < ·))
        (remaining N (s.next, c + s.entersWB.toList.length)) (remaining N (s, c)) := by
  have l := h.follows.latches
  have calm := h.calm
  simp only [remaining]
  cases frozen : s.dStallActive with
  | true =>
      rw [stagesLeft_frozen calm frozen]
      exact .right _ (.left _ _ (l.dStallLeft_next frozen))
  | false =>
      have mem : s.memInst.isHalt = false := by simpa [l.halts_eq, frozen] using running
      cases halt : s.exInst.isHalt with
      | true =>
          have passed : s.next.memInst.isHalt = true := by
            rw [next_memInst calm, l.newMEM_isHalt frozen, halt]
          refine .left _ _ ?_
          simp [stagesLeft, mem, halt, passed]
      | false =>
          have ahead : s.haltAhead = false := by simp [haltAhead, mem, halt]
          have advances := h.advances ahead frozen
          have bound := h.follows.retired.stagesPassed_le h.bound scheduled.halt ahead
          have now : s.stagesLeft N c = 4 * N + 4 - s.stagesPassed c := by
            simp [stagesLeft, mem, halt]
          rcases advances.starved_or_passes c with ⟨starved, same⟩ | passes
          · have empty : s.exInst.inFlight = false := by
              simp only [CycleState.starved, Bool.and_eq_true, Bool.not_eq_true'] at starved
              exact starved.1.1.2
            have signals := l.inEX.kind.nop (l.inEX.empty empty)
            have stalls : s.next.dStallLeft = s.dStallLeft := by
              rw [l.dStall_quiet frozen signals.readsMem signals.writesMem,
                dStallLeft_idle frozen]
            have le : s.next.stagesLeft N (c + s.entersWB.toList.length) ≤ s.stagesLeft N c := by
              rw [now, stagesLeft, same]
              split_ifs <;> omega
            rcases Nat.lt_or_eq_of_le le with fewer | equal
            · exact .left _ _ fewer
            · rw [equal, stalls]
              exact .right _ (.right _ (advances.fetchDelay_next wellFormed starved))
          · refine .left _ _ ?_
            rw [now, stagesLeft]
            split_ifs <;> omega

-----------------------------------------------------------------------------------------
-- Whole programs
-----------------------------------------------------------------------------------------

theorem onTrack_iterate [CacheUnit κ] {start : CycleState κ} (base : start.OnTrack image N 0)
    (scheduled : FunctState.ScheduledPath image N) {n : ℕ}
    (running : ∀ m < n, (next^[m] start).halts = false)
    : (next^[n] start).OnTrack image N (retiredCount start n) := by
  induction n with
  | zero => exact base
  | succ n ih =>
      have before := ih fun m earlier => running m (by omega)
      rw [Function.iterate_succ_apply', retiredCount_succ]
      exact before.inv_next scheduled (running n (by omega))

/-- The run halts. -/
theorem OnTrack.exists_haltsAt {start : CycleState Cache} (base : start.OnTrack image N 0)
    (scheduled : FunctState.ScheduledPath image N) (wellFormed : start.iCache.WellFormed)
    : ∃ n, HaltsAt start n := by
  let step : CycleState Cache × ℕ → CycleState Cache × ℕ :=
    Runs.observed next fun t m => m + t.entersWB.toList.length
  let inv (p : CycleState Cache × ℕ) : Prop :=
    p.1.OnTrack image N p.2 ∧ p.1.iCache.WellFormed
  let goal (p : CycleState Cache × ℕ) : Prop := p.1.halts = true
  have preserved (p : CycleState Cache × ℕ) (holds : inv p) (waiting : ¬ goal p)
      : inv (step p) :=
    ⟨holds.1.inv_next scheduled (by simpa [goal] using waiting), wellFormed_next holds.2⟩
  have falls (p : CycleState Cache × ℕ) (holds : inv p) (waiting : ¬ goal p)
      : Prod.Lex (· < ·) (Prod.Lex (· < ·) (· < ·)) (remaining N (step p)) (remaining N p) :=
    holds.1.remaining_next scheduled holds.2 (by simpa [goal] using waiting)
  have found : ∃ n, goal (step^[n] (start, 0)) ∧ inv (step^[n] (start, 0))
      ∧ ∀ m < n, ¬ goal (step^[m] (start, 0)) :=
    Runs.exists_first_of_measure
      (WellFounded.prod_lex Nat.lt_wfRel.wf
        (WellFounded.prod_lex Nat.lt_wfRel.wf Nat.lt_wfRel.wf))
      (remaining N) preserved falls (start, 0) ⟨base, wellFormed⟩
  obtain ⟨n, reached, _, before⟩ := found
  simp only [goal, step, Runs.observed_count] at reached before
  exact ⟨n, reached, fun m earlier => by simpa using before m earlier⟩

/-- The cycle that halts retires the HALT that follows `N` others, on its memory. -/
theorem OnTrack.last [CacheUnit κ] (h : s.OnTrack image N c)
    (scheduled : FunctState.ScheduledPath image N) (halts : s.halts = true)
    : c = N ∧ s.entersWB.toList.length = 1
      ∧ (∀ r, r ≠ 0 →
          s.next.simulator.regData r
            = (FunctState.path image (N + 1)).simulator.regData r)
      ∧ s.simulator.memory = (FunctState.path image (N + 1)).simulator.memory := by
  obtain ⟨_, _, flight, _⟩ := h.follows.latches.halts_mem halts
  obtain ⟨here, retires, registers⟩ := h.follows.halts_eq halts
  have place : s.exIndex c = c + 1 := by simp [exIndex, slot_length, flight]
  have last : c = N := by
    by_contra other
    have earlier : c < N := by
      have bound := h.bound
      omega
    simp [scheduled.running _ earlier] at here
  exact ⟨last, retires, last ▸ registers, last ▸ place ▸ h.follows.retired.memory⟩

/-- The cycle that halts keeps the memory if no store is right behind HALT. -/
theorem OnTrack.memory_kept [CacheUnit κ] (h : s.OnTrack image N c) (halts : s.halts = true)
    (noStore : s.exInst.writesMem = false) : s.next.simulator.memory = s.simulator.memory := by
  have l := h.follows.latches
  have moving := (l.halts_mem halts).1
  rw [next_memory, simAfterMEM, l.memAfterAccess_kept noStore, ite_self, simAfterWB_memory]

/-- At most one instruction retires in a cycle. -/
theorem retiredCount_step [CacheUnit κ] (start : CycleState κ) (n : ℕ)
    : retiredCount start n ≤ retiredCount start (n + 1)
      ∧ retiredCount start (n + 1) ≤ retiredCount start n + 1 := by
  have single : (next^[n] start).entersWB.toList.length ≤ 1 := by
    cases (next^[n] start).entersWB <;> simp
  rw [retiredCount_succ]
  omega

/-- With an I-cache of power-of-two sizes, and whatever the D-cache and the latencies, the
pipeline runs a scheduled program as the functional simulator does: it halts, after each cycle
its registers are those of the functional simulator after the instructions that have retired,
and HALT finds the same memory. The last cycle of the pipeline keeps that memory if no store is
right behind HALT.
Witness: `OnTrack` holds in every cycle, and `remaining` falls in each.
-/
theorem scheduled_ends_as_functional (past : CycleState Cache)
    (iCacheConfig dCacheConfig : CacheConfig) (image : MemoryStore) (N : ℕ)
    (geometry : iCacheConfig.PowerOfTwo)
    (scheduled : FunctState.Scheduled (FunctState.init image) N)
    : ∃ n,
        Simulates (initSimulator past iCacheConfig dCacheConfig image)
          (FunctState.init image) (N + 1) n
          (retiredCount (initSimulator past iCacheConfig dCacheConfig image))
        ∧ (next^[n] (initSimulator past iCacheConfig dCacheConfig image)).simulator.memory
          = (FunctState.step^[N + 1] (FunctState.init image)).simulator.memory
        ∧ ((next^[n] (initSimulator past iCacheConfig dCacheConfig
              image)).exInst.writesMem = false
          → (next^[n + 1] (initSimulator past iCacheConfig dCacheConfig
              image)).simulator.memory
            = (FunctState.step^[N + 1] (FunctState.init image)).simulator.memory) := by
  have base : (initSimulator past iCacheConfig dCacheConfig image).OnTrack image N 0 :=
    onTrack_initCycle past _ _
  obtain ⟨n, ends⟩ :=
    base.exists_haltsAt scheduled.path (Cache.wellFormed_new geometry.indexable.numSets_pos)
  generalize initSimulator past iCacheConfig dCacheConfig image = start at base ends
  have track {m : ℕ} (bound : m ≤ n) : (next^[m] start).OnTrack image N (retiredCount start m) :=
    onTrack_iterate base scheduled.path fun k earlier => ends.first k (by omega)
  obtain ⟨last, retires, registers, memory⟩ := (track le_rfl).last scheduled.path ends.reached
  have total : retiredCount start (n + 1) = N + 1 := by
    rw [retiredCount_succ, last, retires]
  have final := (scheduled.path_eq (k := N + 1) le_rfl).1
  rw [final] at registers memory
  refine ⟨n, ⟨ends, fun limit later => ?_, rfl, fun m _ => retiredCount_step start m,
    fun m bound => ?_, fun m bound r nonzero => ?_, total⟩, memory, fun noStore => ?_⟩
  · exact (runCycles_halt_iff limit start _).mpr ⟨n, later, ends, rfl⟩
  · rcases Nat.le_succ_iff.mp bound with before | rfl
    · exact (track before).bound.trans (by omega)
    · exact total.le
  · rcases Nat.le_succ_iff.mp bound with before | rfl
    · have behind := (track before).bound
      rw [(track before).follows.retired.registers r nonzero,
        (scheduled.path_eq (by omega)).1]
    · rw [Function.iterate_succ_apply', total]
      exact registers r nonzero
  · rw [Function.iterate_succ_apply', ← memory]
    exact (track le_rfl).memory_kept ends.reached noStore

/-- `addi x1, x0, 2`, a NOP, and a loop of `addi x1, x1, -1; sw x1, 256(x0); lw x2, 256(x0);
bne x1, x0, -12`.
-/
theorem scheduled_ends_as_functional_loop
    : ∃ n,
        Simulates
          (boot testICache testDCache
            [0x00200093, 0x13, 0xfff08093, 0x10102023, 0x10002103, 0xfe009ae3, 0xfeedfeed])
          (FunctState.init
            (.load [0x00200093, 0x13, 0xfff08093, 0x10102023, 0x10002103, 0xfe009ae3,
              0xfeedfeed]))
          11 n
          (retiredCount (boot testICache testDCache
            [0x00200093, 0x13, 0xfff08093, 0x10102023, 0x10002103, 0xfe009ae3, 0xfeedfeed])) :=
  (scheduled_ends_as_functional _ testICache testDCache _ 10 ⟨6, 4, 1, by decide⟩
    ⟨⟨by decide +kernel, by decide +kernel⟩, by decide +kernel, by decide +kernel,
      by decide +kernel, by decide +kernel⟩).imp fun _ simulates => simulates.1

/-- With an I-cache of power-of-two sizes, and whatever the D-cache and the latencies, the
pipeline implements RV64I on scheduled programs: if the program runs on a hart up to the word of
HALT, then the pipeline halts after as many instructions with the hart's registers, and HALT
finds the hart's memory.
Witness: the functional simulator is between them, and has one first HALT.
-/
theorem scheduled_ends_as_rv64i (past : CycleState Cache)
    (iCacheConfig dCacheConfig : CacheConfig) (image : MemoryStore) (N : ℕ) (final : Hart)
    (geometry : iCacheConfig.PowerOfTwo) (placed : image.Placed)
    (run : Hart.Run N (.boot image.bytes) final) (halt : final.Fetches 0xfeedfeed)
    (scheduled : FunctState.Scheduled (FunctState.init image) N)
    : ∃ n,
        HaltsAt (initSimulator past iCacheConfig dCacheConfig image) n
        ∧ retiredCount (initSimulator past iCacheConfig dCacheConfig image) (n + 1) = N + 1
        ∧ (∀ r : Reg, r ≠ 0 →
            (next^[n + 1] (initSimulator past iCacheConfig dCacheConfig
              image)).simulator.regData (r.setWidth 64)
              = final.regs.read r)
        ∧ (next^[n] (initSimulator past iCacheConfig dCacheConfig
            image)).simulator.memory.bytes
          = final.mem := by
  obtain ⟨n, simulates, memory, _⟩ :=
    scheduled_ends_as_functional past iCacheConfig dCacheConfig image N geometry scheduled
  obtain ⟨_, registers, bytes⟩ := scheduled.halts.ends_as_rv64i placed run halt
  refine ⟨n, simulates.halts, simulates.ends, fun r nonzero => ?_, ?_⟩
  · have apart : (r.setWidth 64 : U64) ≠ 0 := by
      intro zero
      rw [Words.setWidth_eq_iff (by decide) (by decide)] at zero
      exact nonzero zero
    rw [simulates.registers (n + 1) le_rfl _ apart, simulates.ends]
    exact registers r nonzero
  · exact (congrArg MemoryStore.bytes memory).trans bytes

/-- `addi x1, x0, -1; sb x1, 255(x0)`. -/
theorem scheduled_ends_as_rv64i_store
    : ∃ n,
        HaltsAt (boot testICache testDCache [0xfff00093, 0x0e100fa3, 0xfeedfeed]) n
        ∧ (next^[n] (boot testICache testDCache
            [0xfff00093, 0x0e100fa3, 0xfeedfeed])).simulator.memory.bytes 255
          = some 0xFF := by
  obtain ⟨n, halts, _, _, memory⟩ := scheduled_ends_as_rv64i
    (.fresh (Cache.new testICache) (Cache.new testDCache)) testICache testDCache
    (.load [0xfff00093, 0x0e100fa3, 0xfeedfeed]) 2 _ ⟨6, 4, 1, by decide⟩ ⟨by decide, by decide⟩
    (.step (@Hart.Step.intro _ (.regImm .addi 1 0 (-1)) _ ⟨by decide, by decide⟩ trivial
        (.value rfl))
      (.step (@Hart.Step.intro _ (.store .sb 0 1 255) _ ⟨by decide, by decide⟩ trivial
        (.store (by unfold ByteMap.Maps; decide))) .none))
    ⟨by decide, by decide⟩
    ⟨⟨by decide +kernel, by decide +kernel⟩, by decide +kernel, by decide +kernel,
      by decide +kernel, by decide +kernel⟩
  exact ⟨n, halts, (congrFun memory 255).trans (by decide)⟩

end CycleState
end RiscvSim
