import RiscvSim.Pipeline.Lookups
import RiscvSim.Pipeline.Streams

/-! A load or store that misses in the D-cache freezes the back end until the miss is served,
whatever the front end does meanwhile.
-/

namespace RiscvSim.CycleState

variable {κ : Type} [CacheUnit κ]

/-- The load or store in its MEM stage misses in the D-cache in this cycle. -/
def missesDCache (s : CycleState κ) : Bool := s.accessesDCache && !s.dCacheAccess.1

/-- What a D-cache stall keeps from one state to another. -/
structure SameBackEnd (s t : CycleState κ) : Prop where
  idInst : t.idInst = s.idInst
  exInst : t.exInst = s.exInst
  memInst : t.memInst = s.memInst
  registers : t.simulator.regData = s.simulator.regData
  memory : t.simulator.memory = s.simulator.memory
  dCache : t.dCache = s.dCache
  dynRetired : t.dynRetired = s.dynRetired
  loadUseStallCount : t.loadUseStallCount = s.loadUseStallCount

variable {s t u : CycleState κ}

omit [CacheUnit κ] in
theorem SameBackEnd.refl (s : CycleState κ) : SameBackEnd s s :=
  ⟨rfl, rfl, rfl, rfl, rfl, rfl, rfl, rfl⟩

omit [CacheUnit κ] in
theorem SameBackEnd.trans (before : SameBackEnd s t) (after : SameBackEnd t u)
    : SameBackEnd s u where
  idInst := after.idInst.trans before.idInst
  exInst := after.exInst.trans before.exInst
  memInst := after.memInst.trans before.memInst
  registers := after.registers.trans before.registers
  memory := after.memory.trans before.memory
  dCache := after.dCache.trans before.dCache
  dynRetired := after.dynRetired.trans before.dynRetired
  loadUseStallCount := after.loadUseStallCount.trans before.loadUseStallCount

-----------------------------------------------------------------------------------------
-- One stall cycle
-----------------------------------------------------------------------------------------

omit [CacheUnit κ] in
theorem wbMemException_frozen (frozen : s.dStallActive = true) : s.wbMemException = false := by
  simp [wbMemException, frozen]

omit [CacheUnit κ] in
theorem newWB_frozen (frozen : s.dStallActive = true) : s.newWB = nop .bubble := by
  simp [newWB, frozen]

omit [CacheUnit κ] in
/-- Neither WB nor MEM nor ID touches the simulator during a stall. -/
theorem simAfterID_frozen (frozen : s.dStallActive = true) : s.simAfterID = s.simulator := by
  have undecoded : s.decodes = false := (held_idle (by simp [held, frozen])).2
  simp [simAfterID, undecoded, simAfterMEM, memActive, simAfterWB, frozen]

omit [CacheUnit κ] in
/-- No hazard is looked for during a stall, so none is counted. -/
theorem loadUseEvent_frozen (frozen : s.dStallActive = true) : s.loadUseEvent = false := by
  simp [loadUseEvent, loadUseStall, branchExStall, branchMemStall, frozen]

/-- A cycle of a D-cache stall keeps the back end and leaves a bubble in WB, by cases on no
more than the stall: what ID and IF hold does not enter.
-/
theorem next_frozen (frozen : s.dStallActive = true)
    : SameBackEnd s s.next ∧ s.next.wbInst = nop .bubble := by
  have trap := wbMemException_frozen frozen
  refine ⟨?_, newWB_frozen frozen⟩
  exact {
    idInst := by rw [next_idInst trap]; simp [newID, frozen]
    exInst := by rw [next_exInst trap]; simp [newEX, frozen]
    memInst := by rw [next_memInst trap]; simp [newMEM, frozen]
    registers := by
      show s.simAfterID.regData = _
      rw [simAfterID_frozen frozen]
    memory := by
      show s.simAfterID.memory = _
      rw [simAfterID_frozen frozen]
    dCache := by simp [next, dCacheNext, accessesDCache, memActive, frozen]
    dynRetired := by simp [next, dynRetiredNext, frozen]
    loadUseStallCount := by simp [next, loadUseEvent_frozen frozen] }

theorem next_dStallLeft_frozen (frozen : s.dStallActive = true)
    : s.next.dStallLeft.toNat = s.dStallLeft.toNat - 1 := by
  show s.dStallLeftNext.toNat = _
  rw [FrontInv.dStallLeftNext_frozen frozen, dStallTick]
  split <;> bv_omega

omit [CacheUnit κ] in
theorem dStallActive_iff : s.dStallActive = true ↔ 0 < s.dStallLeft.toNat := by
  simp [dStallActive, BitVec.lt_def]

/-- The stall lasts as many cycles as its counter says. Witness: induction on the cycle, the
counter being what is left of it.
-/
theorem iterate_frozen {j : ℕ} (left : j ≤ s.dStallLeft.toNat)
    : SameBackEnd s (next^[j] s)
      ∧ (next^[j] s).dStallLeft.toNat = s.dStallLeft.toNat - j
      ∧ (1 ≤ j → (next^[j] s).wbInst = nop .bubble) := by
  induction j with
  | zero => exact ⟨.refl s, rfl, fun some => absurd some (by omega)⟩
  | succ j ih =>
      obtain ⟨same, counter, _⟩ := ih (by omega)
      rw [Function.iterate_succ_apply']
      have frozen : (next^[j] s).dStallActive = true := dStallActive_iff.mpr (by omega)
      obtain ⟨step, bubble⟩ := next_frozen frozen
      refine ⟨same.trans step, ?_, fun _ => bubble⟩
      rw [next_dStallLeft_frozen frozen]
      omega

-----------------------------------------------------------------------------------------
-- The miss
-----------------------------------------------------------------------------------------

/-- The cycle of the miss moves the instruction to MEM and starts the stall. -/
theorem LatchInv.next_missed (h : s.LatchInv) (misses : s.missesDCache = true)
    (sound : s.wbMemException = false)
    : s.next.memInst = s.memAfterAccess.1
      ∧ s.next.memInst.control = s.exInst.control
      ∧ s.next.memInst.memException = false
      ∧ s.next.memInst.isNop = false
      ∧ s.next.dStallLeft = CacheUnit.missLatency s.dCacheAccess.2 := by
  simp only [missesDCache, Bool.and_eq_true, Bool.not_eq_true'] at misses
  obtain ⟨accesses, misses⟩ := misses
  have access := accesses
  simp only [accessesDCache, h.memActive_eq, Bool.and_eq_true, Bool.not_eq_true'] at access
  obtain ⟨⟨⟨moving, busy⟩, _⟩, unfaulted, _⟩ := access
  have control := h.newMEM_control moving busy
  have same := h.newMEM_active moving busy
  rw [next_memInst sound]
  refine ⟨same, control, ?_, ?_, ?_⟩
  · rw [same, unfaulted]
  · exact (Instruction.sameControl control).isNop.trans busy
  · simp [next, dStallLeftNext, accesses, misses]

omit [CacheUnit κ] in
/-- Once nothing stalls it, an instruction without an exception goes on from MEM to WB. -/
theorem LatchInv.newWB_moving (h : s.LatchInv) (moving : s.dStallActive = false)
    (busy : s.memInst.isNop = false) (sound : s.memInst.memException = false)
    : s.newWB = (s.simulator.simWB s.memInst).1 := by
  have fields := Instruction.sameControl (control_simWB s.simulator s.memInst)
  simp [newWB, moving, h.memFaulted_eq, sound, fields.isNop, busy]

/-- What a stage hands to WB depends on the record, not on the simulator. -/
theorem simWB_fst (sim other : Simulator) (inst : Instruction)
    : (sim.simWB inst).1 = (other.simWB inst).1 := by
  simp only [Simulator.simWB]
  split_ifs <;> rfl

/-- The D-cache keeps its miss latency. -/
theorem dCache_missLatency {past : CycleState Cache} {iCache dCache : CacheConfig}
    {mem : MemoryStore} {s : CycleState Cache}
    (reach : Runs.Reachable next (initSimulator past iCache dCache mem) s)
    : s.dCache.config.missLatency = dCache.missLatency := by
  induction reach with
  | start => rfl
  | @next s _ _ ih =>
      show CacheUnit.missLatency s.dCacheNext = _
      unfold dCacheNext
      split
      · exact (access_missLatency ..).trans ih
      · exact ih

/-- A load or store that misses in the D-cache, in a cycle in which no memory exception is
taken, freezes the back end for exactly the miss latency: the latches ID, EX and MEM, the
registers, the memory, the D-cache and the two counters keep what that cycle left, WB holds
bubbles, and in the cycle after that WB holds the instruction. Witness: the stall counter
starts at the latency and falls by one in each frozen cycle.
-/
theorem miss_freezes {past : CycleState Cache} {iCache dCache : CacheConfig} {mem : MemoryStore}
    {s : CycleState Cache}
    (reach : Runs.Reachable next (initSimulator past iCache dCache mem) s)
    (misses : s.missesDCache = true) (sound : s.wbMemException = false)
    : (∀ j ≤ dCache.missLatency.toNat,
        SameBackEnd s.next (next^[j] s.next)
        ∧ (1 ≤ j → (next^[j] s.next).wbInst = nop .bubble))
      ∧ s.next.memInst.control = s.exInst.control
      ∧ (next^[dCache.missLatency.toNat + 1] s.next).wbInst
        = (s.next.simulator.simWB s.next.memInst).1 := by
  have latches : s.LatchInv := latchInv_reachable reach
  obtain ⟨_, control, unfaulted, busy, counter⟩ := latches.next_missed misses sound
  have latency : s.next.dStallLeft = dCache.missLatency := by
    rw [counter, ← dCache_missLatency reach]
    exact access_missLatency ..
  refine ⟨fun j left => ?_, control, ?_⟩
  · obtain ⟨same, _, bubble⟩ := iterate_frozen (s := s.next) (latency ▸ left)
    exact ⟨same, bubble⟩
  · obtain ⟨same, left, _⟩ := iterate_frozen (s := s.next) (j := dCache.missLatency.toNat)
      (latency ▸ le_rfl)
    have moving : (next^[dCache.missLatency.toNat] s.next).dStallActive = false := by
      by_contra frozen
      have positive := dStallActive_iff.mp (by simpa using frozen)
      rw [left, latency] at positive
      omega
    rw [Function.iterate_succ_apply']
    show (next^[dCache.missLatency.toNat] s.next).newWB = _
    rw [(latches.inv_next.iterate _).newWB_moving moving (same.memInst ▸ busy)
      (same.memInst ▸ unfaulted), same.memInst]
    exact simWB_fst ..

/-- A load that misses for two cycles while the word behind it waits for the I-cache. -/
theorem miss_freezes_load
    : (next^[5] (boot ⟨16, 8, 1, 2⟩ ⟨16, 8, 1, 2⟩ [0x3083, 0x13, 0x13])).missesDCache = true
      ∧ (next^[3] (next^[5] (boot ⟨16, 8, 1, 2⟩ ⟨16, 8, 1, 2⟩ [0x3083, 0x13, 0x13])).next).wbInst
        = ((next^[5] (boot ⟨16, 8, 1, 2⟩ ⟨16, 8, 1, 2⟩
            [0x3083, 0x13, 0x13])).next.simulator.simWB
          (next^[5] (boot ⟨16, 8, 1, 2⟩ ⟨16, 8, 1, 2⟩ [0x3083, 0x13, 0x13])).next.memInst).1 :=
  ⟨by decide, (@miss_freezes _ ⟨16, 8, 1, 2⟩ ⟨16, 8, 1, 2⟩ _ _
    (Runs.reachable_iterate (boot ⟨16, 8, 1, 2⟩ ⟨16, 8, 1, 2⟩ [0x3083, 0x13, 0x13]) 5)
    (by decide) (by decide)).2.2⟩

end RiscvSim.CycleState
