import RiscvSim.Correctness.CacheReplacement
import RiscvSim.Correctness.ProgramResult
import RiscvSim.Source.Trace

/-! The D-cache sees the loads and stores of the functional simulator, in its order: its hits
and misses are those of a simulation driven by the address trace of the program alone.
-/

namespace RiscvSim

/-- A sequence of accesses in two parts. -/
theorem Cache.accesses_append (cache : Cache) (first rest : List (U64 × CacheOperation))
    : cache.accesses (first ++ rest)
      = ((cache.accesses first).1 ++ ((cache.accesses first).2.accesses rest).1,
        ((cache.accesses first).2.accesses rest).2) := by
  induction first generalizing cache with
  | nil => rfl
  | cons access first ih =>
      simp only [List.cons_append, Cache.accesses, ih]

/-- The results do not depend on the latency. -/
theorem Cache.accesses_latency (config : CacheConfig) (missLatency : U64)
    (history : List (U64 × CacheOperation))
    : ((Cache.new { config with missLatency := missLatency }).accesses history).1
      = ((Cache.new config).accesses history).1 := by
  have step (cache : Cache) (other : CacheConfig) (address : U64) (operation : CacheOperation)
      : { cache with config := other }.access address operation
        = ((cache.access address operation).1,
          { (cache.access address operation).2 with config := other }) := by
    simp only [access, curSet, index, tag]
    split <;> rfl
  have run (cache : Cache) (other : CacheConfig)
      : ({ cache with config := other }.accesses history).1 = (cache.accesses history).1 := by
    induction history generalizing cache with
    | nil => rfl
    | cons first rest ih =>
        rw [accesses, accesses, step]
        exact congrArg (_ :: ·) (ih (cache.access first.1 first.2).2)
  exact run (Cache.new config) { config with missLatency := missLatency }

-----------------------------------------------------------------------------------------
-- The data accesses of the functional simulator
-----------------------------------------------------------------------------------------

namespace FunctState

variable {image : MemoryStore} {a : FunctState}

/-- The address and the direction of the next instruction's access, unless it faults. -/
def dataAccess (a : FunctState) : Option (U64 × CacheOperation) :=
  if (a.inst.readsMem || a.inst.writesMem) && !a.inst.memException then
    some (a.inst.memAddress, if a.inst.writesMem then .write else .read)
  else none

/-- The data accesses of `k` instructions. -/
def addressTrace (start : FunctState) (k : ℕ) : List (U64 × CacheOperation) :=
  Runs.events step dataAccess start k

/-- The address of a load or store, and whether it faults, follow from its operands. -/
theorem executedFrom_access {inst : Instruction}
    (same : inst.control = (a.decodedFrom image).control)
    (operands : inst.Collected a.simulator.regData)
    (legal : (a.decodedFrom image).isLegal = true)
    (access
      : (a.decodedFrom image).readsMem = true ∨ (a.decodedFrom image).writesMem = true)
    (sound : inst.memException = false)
    : (a.executedFrom image).memAddress = (simAddrGen inst).memAddress
      ∧ (a.executedFrom image).memException
        = (simMemAccess (simAddrGen inst) a.simulator.memory).1.memException := by
  have kind : (a.decodedFrom image).HasKind := decodedFrom_decoded.hasKind
  obtain ⟨running, _, arith, _⟩ := kind.access access
  have fields : (a.prepared image).SameControl (a.decodedFrom image) :=
    Instruction.sameControl control_prepared
  have idle : a.computed image = a.prepared image := by
    rw [computed, fields.doesArithLogic.trans arith]
    rfl
  have guard : ((a.decodedFrom image).readsMem || (a.decodedFrom image).writesMem) = true := by
    simpa using access
  have prepared := same.trans control_prepared.symm
  have prepKind := kind.of_control control_prepared
  obtain ⟨_, fault, _⟩ := simMemAccess_of_collected prepared operands collected_prepared prepKind
    a.simulator.memory (sound.trans (prepared_blank.2 legal).symm)
  obtain ⟨address, _⟩ := simAddrGen_of_collected prepared operands collected_prepared prepKind
    (by rwa [fields.readsMem, fields.writesMem])
  rw [(execute_eq legal running).1, guard, idle, if_pos rfl, simMemAccess_memAddress]
  exact ⟨address.symm, fault.symm⟩

end FunctState

namespace CycleState

variable {κ : Type} [CacheUnit κ] {s : CycleState κ} {image : MemoryStore} {code : U64 → Prop}
  {c : ℕ}

-----------------------------------------------------------------------------------------
-- The data accesses of the pipeline
-----------------------------------------------------------------------------------------

/-- The access that MEM makes to the D-cache in this cycle. -/
def dataAccess (s : CycleState κ) : Option (U64 × CacheOperation) :=
  if s.accessesDCache then
    some (s.memInput.memAddress, if s.memInput.writesMem then .write else .read)
  else none

/-- The D-cache is only changed by these accesses. -/
theorem dCache_iterate (start : CycleState Cache) (n : ℕ)
    : (next^[n] start).dCache
      = (start.dCache.accesses (Runs.events next dataAccess start n)).2 := by
  induction n with
  | zero => rfl
  | succ n ih =>
      rw [Function.iterate_succ_apply', Runs.events_succ, Cache.accesses_append, ← ih]
      cases access : (next^[n] start).accessesDCache with
      | false => simp [next, dCacheNext, dataAccess, access, Cache.accesses]
      | true =>
          simp only [next, dCacheNext, dataAccess, access, if_true, Option.toList_some,
            Cache.accesses]
          rfl

omit [CacheUnit κ] in
/-- MEM accesses the D-cache for the instruction of sequential execution in EX. -/
theorem Executed.dataAccess_eq (h : s.Executed image code c) (moving : s.dStallActive = false)
    (data
      : s.exInst.writesMem = true → s.exInst.rs2 ≠ 0
        → s.storedData = s.valuesBeforeEX s.exInst.rs2)
    (running : s.memInst.isHalt = false) (flight : s.exInst.inFlight = true)
    : s.dataAccess
      = (FunctState.step^[s.exIndex c] (FunctState.init image)).dataAccess := by
  have l := h.follows.latches
  have executes := h.follows.retired.executes running flight
  have fields := Instruction.sameControl executes.control
  have input := Instruction.sameControl s.control_memInput
  obtain ⟨_, inst⟩ := h.inst_eq running flight
  have executed
      : ((FunctState.path image (s.exIndex c)).executedFrom image).SameControl
          ((FunctState.path image (s.exIndex c)).decodedFrom image) :=
    Instruction.sameControl FunctState.control_executedFrom
  rw [dataAccess, l.accessesDCache_eq, moving, FunctState.dataAccess, inst, executed.readsMem,
    executed.writesMem, ← fields.readsMem, ← fields.writesMem]
  by_cases access : s.exInst.readsMem = true ∨ s.exInst.writesMem = true
  · have collected := memInput_collected l executes
      (fun store nonzero => (data store nonzero).trans (h.follows.retired.values _ nonzero)) access
    have unfaulted := (LatchInv.memInput_memException s).trans l.inEX.fault
    obtain ⟨address, fault⟩ := FunctState.executedFrom_access
      (s.control_memInput.trans executes.control) collected
      (fields.isLegal.symm.trans l.inEX.legal)
      (by rwa [← fields.readsMem, ← fields.writesMem]) unfaulted
    have accessed := simMEM_access s.simAfterWB (input.isLegal.trans l.inEX.legal) unfaulted
      (by rwa [input.readsMem, input.writesMem])
    rw [simAfterWB_memory, h.follows.retired.memory] at accessed
    rw [memInput_memAddress access, address, fault, input.writesMem, memAfterAccess, accessed]
    rfl
  · simp only [not_or, Bool.not_eq_true] at access
    simp [access]

/-- One cycle accesses the D-cache as the instruction does that leaves EX in it. -/
theorem Executed.trace_next (h : s.Executed image code c) (proceeds : s.Proceeds image code)
    : (FunctState.init image).addressTrace (s.exIndex c) ++ s.dataAccess.toList
      = (FunctState.init image).addressTrace (s.next.exIndex (c + s.entersWB.toList.length)) := by
  have l := h.follows.latches
  have calm := proceeds.calm
  cases moving : s.dStallActive with
  | true =>
      have mem : s.next.memInst = s.memInst := by simp [next_memInst calm, newMEM, moving]
      have idle : s.dataAccess = none := by simp [dataAccess, l.accessesDCache_eq, moving]
      simp only [entersWB_frozen moving, exIndex, mem, idle]
      exact List.append_nil _
  | false =>
      have running : s.memInst.isHalt = false := by
        simpa [l.halts_eq, moving] using proceeds.running
      rw [retires_length l moving (l.calm_iff.mp calm), ← exIndex, exIndex_moving l moving calm,
        idIndex, slot_length]
      cases flight : s.exInst.inFlight with
      | false =>
          have signals := l.inEX.kind.nop (l.inEX.empty flight)
          have idle : s.dataAccess = none := by
            simp [dataAccess, l.accessesDCache_eq, signals.readsMem, signals.writesMem]
          rw [idle]
          exact List.append_nil _
      | true =>
          have data (store : s.exInst.writesMem = true) (nonzero : s.exInst.rs2 ≠ 0)
              : s.storedData = s.valuesBeforeEX s.exInst.rs2 := by
            have signals := l.inEX.kind.store store
            have gate : s.haltAhead = false := by simp [haltAhead, signals.isHalt, running]
            exact ((h.follows.fetches gate).operands.of_all .storeData).storedData_eq l
              (proceeds.forwards gate) (by simp [l.memActive_eq, moving, signals.isNop]) store
              nonzero
          rw [h.dataAccess_eq moving data running flight, if_pos rfl, FunctState.addressTrace,
            FunctState.addressTrace, Runs.events_succ]

/-- Up to HALT the D-cache accesses of the pipeline are those of the functional simulator. -/
theorem HaltsCleanly.trace {past : CycleState κ} {iCache dCache : κ} {n : ℕ}
    (clean : HaltsCleanly (initCycle past iCache dCache image) n)
    (forwards : Forwards (initCycle past iCache dCache image) n) {m : ℕ} (bound : m ≤ n)
    : Runs.events next dataAccess (initCycle past iCache dCache image) m
      = (FunctState.init image).addressTrace
          ((next^[m] (initCycle past iCache dCache image)).exIndex
            (retiredCount (initCycle past iCache dCache image) m)) := by
  induction m with
  | zero => rfl
  | succ m ih =>
      have executed := clean.executed forwards (show m ≤ n by omega)
      rw [Runs.events_succ, ih (by omega), Function.iterate_succ_apply', retiredCount_succ]
      exact executed.trace_next (clean.proceeds forwards m (by omega))

-----------------------------------------------------------------------------------------
-- Hits and misses
-----------------------------------------------------------------------------------------

/-- At HALT the D-cache has seen the address trace of the functional simulator. -/
theorem HaltsCleanly.trace_halts {past : CycleState κ} {iCache dCache : κ} {n : ℕ}
    (clean : HaltsCleanly (initCycle past iCache dCache image) n)
    (forwards : Forwards (initCycle past iCache dCache image) n)
    : ∃ N,
        FunctState.HaltsAt (FunctState.init image) N
        ∧ Runs.events next dataAccess (initCycle past iCache dCache image) n
          = (FunctState.init image).addressTrace (N + 1) := by
  have executed := clean.executed forwards le_rfl
  have running := retired_running (executed_initCycle past _ _).follows (clean.proceeds forwards)
  obtain ⟨halts, _, _⟩ := executed.halts clean.halts.reached running
  obtain ⟨_, _, flight, _⟩ := executed.follows.latches.halts_mem clean.halts.reached
  have trace := clean.trace forwards le_rfl
  rw [exIndex, slot_length, flight, if_pos rfl] at trace
  exact ⟨_, halts, trace⟩

/-- The accesses and the statistics of the whole run, if nothing right behind HALT accesses
memory.
-/
theorem HaltsCleanly.dStats {past : CycleState Cache} {iCacheConfig dCacheConfig : CacheConfig}
    {n : ℕ} (clean : HaltsCleanly (initSimulator past iCacheConfig dCacheConfig image) n)
    (forwards : Forwards (initSimulator past iCacheConfig dCacheConfig image) n)
    (inert : (next^[n] (initSimulator past iCacheConfig dCacheConfig image)).InertBehind)
    : ∃ N,
        FunctState.HaltsAt (FunctState.init image) N
        ∧ Runs.events next dataAccess (initSimulator past iCacheConfig dCacheConfig image) (n + 1)
          = (FunctState.init image).addressTrace (N + 1)
        ∧ let results :=
            ((Cache.new dCacheConfig).accesses ((FunctState.init image).addressTrace (N + 1))).1
          let stats :=
            (next^[n + 1] (initSimulator past iCacheConfig dCacheConfig image)).simulationStats
          stats.dcHits = BitVec.ofNat 64 (results.count true)
          ∧ stats.dcMisses = BitVec.ofNat 64 (results.count false) := by
  obtain ⟨N, halts, before⟩ := clean.trace_halts forwards
  have latches
      : (next^[n] (initSimulator past iCacheConfig dCacheConfig image)).LatchInv :=
    (latchInv_initCycle past _ _ image).iterate n
  have moving := (latches.halts_mem clean.halts.reached).1
  have silent := (latches.touchesMemory_iff moving).mpr inert
  have trace
      : Runs.events next dataAccess (initSimulator past iCacheConfig dCacheConfig image) (n + 1)
        = (FunctState.init image).addressTrace (N + 1) := by
    rw [touchesMemory, Bool.or_eq_false_iff] at silent
    rw [Runs.events_succ, dataAccess, silent.2]
    exact (List.append_nil _).trans before
  have table := dCache_iterate (initSimulator past iCacheConfig dCacheConfig image) (n + 1)
  rw [trace] at table
  obtain ⟨hits, misses⟩ := Cache.accesses_counts (Cache.new dCacheConfig)
    ((FunctState.init image).addressTrace (N + 1))
  refine ⟨N, halts, trace, ?_⟩
  simp only [simulationStats, table]
  exact ⟨hits.trans (BitVec.zero_add _), misses.trans (BitVec.zero_add _)⟩

/-- In a run with nothing right behind HALT that accesses memory, the D-cache sees the address
trace of the functional simulator, from its first instruction to its HALT, each access once and
in that order; so its hits and misses are those of a cache driven by the trace alone. Witness:
the pipeline accesses the D-cache once for each load or store that does not fault, in program
order, with the address of sequential execution.
-/
theorem dCache_trace_driven (past : CycleState Cache) (iCacheConfig dCacheConfig : CacheConfig)
    (image : MemoryStore) (n : ℕ)
    (clean : HaltsCleanly (initSimulator past iCacheConfig dCacheConfig image) n)
    (forwards : Forwards (initSimulator past iCacheConfig dCacheConfig image) n)
    (inert : (next^[n] (initSimulator past iCacheConfig dCacheConfig image)).InertBehind)
    : ∃ N final,
        FunctState.HaltsAt (FunctState.init image) N
        ∧ FunctState.runInstructions (N + 1) (FunctState.init image) = (final, .halt)
        ∧ Runs.events next dataAccess (initSimulator past iCacheConfig dCacheConfig image) (n + 1)
          = (FunctState.init image).addressTrace (N + 1)
        ∧ let results :=
            ((Cache.new dCacheConfig).accesses ((FunctState.init image).addressTrace (N + 1))).1
          let stats :=
            (next^[n + 1] (initSimulator past iCacheConfig dCacheConfig image)).simulationStats
          stats.dcHits = BitVec.ofNat 64 (results.count true)
          ∧ stats.dcMisses = BitVec.ofNat 64 (results.count false) := by
  obtain ⟨N, halts, trace, results⟩ := clean.dStats forwards inert
  exact ⟨N, _, halts, (FunctState.runInstructions_halt_iff _ _ _).mpr
    ⟨N, Nat.lt_succ_self N, halts, rfl⟩, trace, results⟩

/-- A word stored and loaded again: one miss, one hit. -/
theorem dCache_trace_driven_store
    : ∃ N final,
        FunctState.HaltsAt (FunctState.init
          (.load [0x00500093, 0x13, 0x13, 0x13, 0x10102023, 0x10002103, 0xfeedfeed])) N
        ∧ FunctState.runInstructions (N + 1) (FunctState.init
          (.load [0x00500093, 0x13, 0x13, 0x13, 0x10102023, 0x10002103, 0xfeedfeed]))
          = (final, .halt)
        ∧ (next^[28 + 1] (boot testICache testDCache
            [0x00500093, 0x13, 0x13, 0x13, 0x10102023, 0x10002103,
              0xfeedfeed])).simulationStats.dcHits
          = BitVec.ofNat 64 (((Cache.new testDCache).accesses
              ((FunctState.init (.load [0x00500093, 0x13, 0x13, 0x13, 0x10102023, 0x10002103,
                0xfeedfeed])).addressTrace (N + 1))).1.count true) := by
  obtain ⟨N, final, halts, runs, _, hits, _⟩ := dCache_trace_driven
    (.fresh (Cache.new testICache) (Cache.new testDCache)) testICache testDCache
    (.load [0x00500093, 0x13, 0x13, 0x13, 0x10102023, 0x10002103, 0xfeedfeed]) 28
    (.of_limit 0x80 ⟨by decide +kernel, by decide +kernel⟩ (by decide +kernel)
      (by decide +kernel) (by decide +kernel) (by decide +kernel))
    (by unfold Forwards; decide +kernel)
    ⟨fun reads => absurd reads (by decide +kernel),
      fun writes => absurd writes (by decide +kernel)⟩
  exact ⟨N, final, halts, runs, hits⟩

/-- The hits and misses of the D-cache depend neither on the I-cache nor on any latency. Witness:
both runs have the address trace of the functional simulator, and a cache answers it without
looking at its latency.
-/
theorem dCache_stats_agree (past₁ past₂ : CycleState Cache)
    (iCacheConfig₁ iCacheConfig₂ dCacheConfig : CacheConfig) (missLatency : U64)
    (image : MemoryStore) (n₁ n₂ : ℕ)
    (clean₁ : HaltsCleanly (initSimulator past₁ iCacheConfig₁ dCacheConfig image) n₁)
    (clean₂
      : HaltsCleanly (initSimulator past₂ iCacheConfig₂
          { dCacheConfig with missLatency := missLatency } image) n₂)
    (forwards₁ : Forwards (initSimulator past₁ iCacheConfig₁ dCacheConfig image) n₁)
    (forwards₂
      : Forwards (initSimulator past₂ iCacheConfig₂
          { dCacheConfig with missLatency := missLatency } image) n₂)
    (inert₁ : (next^[n₁] (initSimulator past₁ iCacheConfig₁ dCacheConfig image)).InertBehind)
    (inert₂
      : (next^[n₂] (initSimulator past₂ iCacheConfig₂
          { dCacheConfig with missLatency := missLatency } image)).InertBehind)
    : let stats₁ :=
        (next^[n₁ + 1] (initSimulator past₁ iCacheConfig₁ dCacheConfig image)).simulationStats
      let stats₂ :=
        (next^[n₂ + 1] (initSimulator past₂ iCacheConfig₂
          { dCacheConfig with missLatency := missLatency } image)).simulationStats
      stats₁.dcHits = stats₂.dcHits ∧ stats₁.dcMisses = stats₂.dcMisses := by
  obtain ⟨N₁, halts₁, _, hits₁, misses₁⟩ := clean₁.dStats forwards₁ inert₁
  obtain ⟨N₂, halts₂, _, hits₂, misses₂⟩ := clean₂.dStats forwards₂ inert₂
  have same := halts₁.unique halts₂
  subst same
  rw [Cache.accesses_latency] at hits₂ misses₂
  exact ⟨hits₁.trans hits₂.symm, misses₁.trans misses₂.symm⟩

/-- The same program with a latency of 8 and of 0. -/
theorem dCache_stats_agree_store
    : (next^[28 + 1] (boot testICache testDCache
        [0x00500093, 0x13, 0x13, 0x13, 0x10102023, 0x10002103,
          0xfeedfeed])).simulationStats.dcMisses
      = (next^[20 + 1] (initSimulator (.fresh (Cache.new testICache) (Cache.new testDCache))
          testICache { testDCache with missLatency := 0 }
          (.load [0x00500093, 0x13, 0x13, 0x13, 0x10102023, 0x10002103,
            0xfeedfeed]))).simulationStats.dcMisses := by
  refine (dCache_stats_agree _ _ testICache testICache testDCache 0 _ 28 20 ?_ ?_ ?_ ?_ ?_ ?_).2
  · exact .of_limit 0x80 ⟨by decide +kernel, by decide +kernel⟩ (by decide +kernel)
      (by decide +kernel) (by decide +kernel) (by decide +kernel)
  · exact .of_limit 0x80 ⟨by decide +kernel, by decide +kernel⟩ (by decide +kernel)
      (by decide +kernel) (by decide +kernel) (by decide +kernel)
  · unfold Forwards
    decide +kernel
  · unfold Forwards
    decide +kernel
  · exact ⟨fun reads => absurd reads (by decide +kernel),
      fun writes => absurd writes (by decide +kernel)⟩
  · exact ⟨fun reads => absurd reads (by decide +kernel),
      fun writes => absurd writes (by decide +kernel)⟩

end CycleState
end RiscvSim
