import RiscvSim.Correctness.CacheReplacement
import RiscvSim.Correctness.SequentialExecution
import RiscvSim.Pipeline.Lookups
import RiscvSim.Source.Trace

/-! What a run inherits from the earlier activity of the process through `initSimulator`. -/

namespace RiscvSim

/-- No line of a new cache is valid. -/
theorem Cache.tagAt_new (config : CacheConfig) (set : U64) (way : ℕ)
    : (Cache.new config).tagAt set way = none := by
  have invalid : ∀ lines ∈ (Cache.new config).sets, ∀ line ∈ lines, line.valid = false := by
    intro lines inSets line inLines
    rw [List.eq_of_mem_replicate inSets] at inLines
    rw [List.eq_of_mem_replicate inLines]
  unfold tagAt
  cases found : ((Cache.new config).sets.getD set.toNat [])[way]? with
  | none => rfl
  | some line =>
      have inSet := List.mem_of_getElem? found
      rw [List.getD_eq_getElem?_getD] at inSet
      cases lines : (Cache.new config).sets[set.toNat]? with
      | none => simp [lines] at inSet
      | some held =>
          rw [lines] at inSet
          simp [invalid held (List.mem_of_getElem? lines) line inSet]

/-- The first access to a cache misses. -/
theorem Cache.access_new (config : CacheConfig) (address : U64) (operation : CacheOperation)
    : ((Cache.new config).access address operation).1 = false
      ∧ ((Cache.new config).access address operation).2.misses = 1 := by
  have misses : ((Cache.new config).access address operation).1 = false := by
    by_contra hit
    obtain ⟨way, holds⟩ := (access_hit_iff address operation).mp (by simpa using hit)
    rw [tagAt_new] at holds
    cases holds
  refine ⟨misses, ?_⟩
  rw [(access_counts (Cache.new config) address operation).2, misses]
  rfl

namespace CycleState

/-- What can be seen of a state: the pipeline registers, the dumped line, registers, memory and
statistics.
-/
structure SameOutcome (s t : CycleState Cache) : Prop where
  latches : s.toPipelineInfo = t.toPipelineInfo
  pipeState : s.pipeState = t.pipeState
  registers : s.simulator.regData = t.simulator.regData
  memory : s.simulator.memory = t.simulator.memory
  statistics : s.simulationStats = t.simulationStats

/-- The first cycle fetches the word at 0, past the I-cache if the flag says that a stall has
just ended.
-/
theorem accessed_initSimulator (past : CycleState Cache) (iCache dCache : CacheConfig)
    (mem : MemoryStore)
    : (initSimulator past iCache dCache mem).accessed
      = if past.justFinishedIStall then none else some 0 := by
  have leaves : (initSimulator past iCache dCache mem).leavesAccess = false := rfl
  rw [accessed, leaves]
  exact fetchTarget_initCycle past _ _ mem

/-- So the first cycle counts a miss, or none. -/
theorem misses_initSimulator (past : CycleState Cache) (iCache dCache : CacheConfig)
    (mem : MemoryStore)
    : (initSimulator past iCache dCache mem).next.simulationStats.icMisses
      = if past.justFinishedIStall then 0 else 1 := by
  show (initSimulator past iCache dCache mem).fetch.iCache.misses = _
  rw [fetch_accessed, accessed_initSimulator]
  cases past.justFinishedIStall with
  | true => rfl
  | false => exact (Cache.access_new iCache 0 .read).2

/-- The flag is set by a cycle in which IF only waits for the I-cache: no exception, no taken
branch and no other stall.
-/
theorem next_justFinishedIStall {κ : Type} [CacheUnit κ] (s : CycleState κ)
    : s.next.justFinishedIStall
      = (!s.wbMemException && !s.idIllegalException && !s.branchTaken && !s.held
        && s.iStallActive) := by
  show s.fetch.justFinishedIStall = _
  have through (target iStallLeft : U64) (onMiss onHit : StageStatus)
      : (s.fetchThrough target iStallLeft onMiss onHit).justFinishedIStall = false := by
    unfold fetchThrough
    split
    split <;> rfl
  unfold fetch held
  cases trap : s.wbMemException with
  | true => simp [through]
  | false =>
  cases illegal : s.idIllegalException with
  | true => simp
  | false =>
  cases taken : s.branchTaken with
  | true => simp [through]
  | false =>
  cases frozen : s.dStallActive with
  | true =>
      simp only [Bool.false_eq_true, if_false, if_true]
      split_ifs <;> simp [fetchHold, fetchDirect]
  | false =>
  cases hazard : s.hazardStall with
  | true =>
      simp only [Bool.false_eq_true, if_false, if_true]
      split_ifs <;> simp [fetchHold]
  | false =>
  cases active : s.iStallActive with
  | true => simp [fetchHold]
  | false =>
      simp only [Bool.false_eq_true, if_false]
      split <;> simp [through, fetchDirect]

end CycleState

namespace FunctState

/-- What can be seen of a state of the functional simulator: the instruction it executes next,
registers, memory and the count of executed instructions.
-/
structure SameOutcome (s t : FunctState) : Prop where
  executes : s.inst = t.inst
  registers : s.simulator.regData = t.simulator.regData
  memory : s.simulator.memory = t.simulator.memory
  statistics : s.simulator.din = t.simulator.din

theorem inst_pc (s : FunctState) : s.inst.pc = s.pc := by
  rw [(step_eq_stepFrom rfl).2, (Instruction.sameControl control_executedFrom).pc, decodedFrom,
    simDecode_pc, simFetch_pc]

/-- HALT and an illegal instruction leave the next PC of their record, and so `PC`, at 0. -/
theorem step_pc_of_stop {s : FunctState} (stops : s.inst.isHalt = true ∨ s.inst.isLegal = false)
    : s.step.pc = 0 := by
  have same := (step_eq_stepFrom (a := s) rfl).2
  have control := Instruction.sameControl (@control_executedFrom s.simulator.memory s)
  rw [same, control.isHalt, control.isLegal] at stops
  have early : (!(s.decodedFrom s.simulator.memory).isLegal
      || (s.decodedFrom s.simulator.memory).isHalt) = true := by
    rcases stops with halt | illegal
    · simp [halt]
    · simp [illegal]
  rw [(step_eq_stepFrom rfl).1, stepFrom, executedFrom, Simulator.execute, if_pos early]
  show (simDecode (simFetch s.pc s.simulator.memory)).nextPC = 0
  have fetched : (simFetch s.pc s.simulator.memory).nextPC = 0 := by
    simp only [simFetch]
    split <;> rfl
  simp only [simDecode, decodeSignals, apply_ite Instruction.nextPC, ite_self]
  exact fetched

end FunctState

/-- After `initSimulator` every run of the cycle simulator is that of a fresh process exactly
if `justFinishedIStall` is clear when it is called, and every run of the functional simulator
exactly if its `PC` is 0. Witness: the states then agree from the start; otherwise the first
cycle misses the first lookup, or the first instruction is another.
-/
theorem init_forgets_iff (past : CycleState Cache) (functPast : FunctState)
    (iCache dCache : CacheConfig) (mem : MemoryStore)
    : ((∀ n,
          CycleState.SameOutcome (CycleState.next^[n] (initSimulator past iCache dCache mem))
            (CycleState.next^[n] (initSimulator
              (.fresh (Cache.new iCache) (Cache.new dCache)) iCache dCache mem)))
        ↔ past.justFinishedIStall = false)
      ∧ ((∀ n,
          FunctState.SameOutcome (FunctState.step^[n] (.initSimulator functPast mem))
            (FunctState.step^[n] (.init mem)))
        ↔ functPast.pc = 0) := by
  refine ⟨⟨fun same => ?_, fun clear n => ?_⟩, ⟨fun same => ?_, fun zero n => ?_⟩⟩
  · have misses := congrArg SimulationStats.icMisses (same 1).statistics
    rw [Function.iterate_one, CycleState.misses_initSimulator, CycleState.misses_initSimulator]
      at misses
    by_contra set
    rw [if_pos (by simpa using set)] at misses
    exact absurd (show (0 : U64) = 1 from misses) (by decide)
  · have start : initSimulator past iCache dCache mem
        = initSimulator (.fresh (Cache.new iCache) (Cache.new dCache)) iCache dCache mem := by
      simp only [initSimulator, initCycle, CycleState.fresh, clear]
    rw [start]
    exact ⟨rfl, rfl, rfl, rfl, rfl⟩
  · have first := congrArg Instruction.pc (same 0).executes
    rw [FunctState.inst_pc, FunctState.inst_pc] at first
    exact first
  · have start : FunctState.initSimulator functPast mem = .init mem := by
      simp only [FunctState.initSimulator, FunctState.init, zero]
    rw [start]
    exact ⟨rfl, rfl, rfl, rfl⟩

/-- A run stopped in the second cycle of a miss, or after one instruction, is not forgotten. -/
theorem init_remembers
    : (¬ ∀ (iCache dCache : CacheConfig) (words : List Nat) (cycles n : ℕ),
          iCache.PowerOfTwo → dCache.PowerOfTwo
          → CycleState.SameOutcome
            (CycleState.next^[n]
              (initSimulator (CycleState.next^[cycles] (boot iCache dCache words)) iCache dCache
                (.load words [])))
            (CycleState.next^[n] (boot iCache dCache words)))
      ∧ ¬ ∀ (words : List Nat) (instructions n : ℕ),
          FunctState.SameOutcome
            (FunctState.step^[n] (.initSimulator
              (FunctState.step^[instructions] (.init (.load words []))) (.load words [])))
            (FunctState.step^[n] (.init (.load words []))) := by
  constructor
  · intro forgets
    have geometry : CacheConfig.PowerOfTwo ⟨16, 8, 1, 2⟩ := ⟨1, 3, 0, by decide⟩
    have misses := congrArg SimulationStats.icMisses
      (forgets ⟨16, 8, 1, 2⟩ ⟨16, 8, 1, 2⟩ [0x13] 2 1 geometry geometry).statistics
    exact absurd misses (by decide)
  · intro forgets
    have first := congrArg Instruction.pc (forgets [0x13] 1 0).executes
    exact absurd first (by decide)

end RiscvSim
