import RiscvSim.Correctness.SequentialExecution
import RiscvSim.Pipeline.Lookups

/-! The pipeline simulates the functional simulator on programs without loads and stores. No
D-cache stall and no load hold an instruction in ID, so none loses an operand, and every
stall ends.
-/

namespace RiscvSim.CycleState

variable {κ : Type} {s : CycleState κ} {image : MemoryStore} {N c : ℕ}

section Bounds

variable (h : s.Retired image c) (bound : c ≤ N)
  (halt : ((FunctState.path image N).decodedFrom image).isHalt = true)
include h bound halt

/-- If the HALT that follows `N` others has not retired, then the instructions up to EX are no
later than it.
-/
theorem Retired.exIndex_le (running : s.memInst.isHalt = false) : s.exIndex c ≤ N := by
  rw [exIndex, slot_length]
  cases flight : s.memInst.inFlight with
  | false => simpa using bound
  | true =>
      have other : c ≠ N := by
        rintro rfl
        have same := h.halt flight
        simp [halt, running] at same
      simp only [if_true]
      omega

/-- So are those up to ID while it is not past ID. -/
theorem Retired.idIndex_le (ahead : s.haltAhead = false) : s.idIndex c ≤ N := by
  simp only [haltAhead, Bool.or_eq_false_iff] at ahead
  have bound := h.exIndex_le bound halt ahead.2
  rw [idIndex, slot_length]
  cases flight : s.exInst.inFlight with
  | false => simpa using bound
  | true =>
      have fields := Instruction.sameControl (h.executes ahead.2 flight).control
      have other : s.exIndex c ≠ N := by
        intro last
        have same := fields.isHalt
        rw [ahead.1, last, halt] at same
        exact Bool.noConfusion same
      simp only [if_true]
      omega

end Bounds

/-- On the way to the HALT that follows `N` other instructions: the pipeline follows
sequential execution, no load or store is in MEM, the D-cache does not stall, and where EX
holds an instruction, ID has been decoded in the last cycle.
-/
structure Steady (image : MemoryStore) (N : ℕ) (s : CycleState κ) (c : ℕ) : Prop where
  follows : s.Follows image (fun _ => True) c
  bound : c ≤ N
  unstalled : s.dStallLeft = 0
  noLoad : s.memInst.readsMem = false
  noStore : s.memInst.writesMem = false
  fresh
    : s.exInst.isNop = true
      ∨ s.idInst.Operands .all fun r v => v = s.simulator.regData r

theorem steady_initCycle (past : CycleState κ) (iCache dCache : κ)
    : (initCycle past iCache dCache image).Steady image N 0 where
  follows := follows_initCycle past iCache dCache
  bound := Nat.zero_le N
  unstalled := rfl
  noLoad := rfl
  noStore := rfl
  fresh := .inl rfl

namespace Steady

variable (h : s.Steady image N c)
include h

theorem dStallActive : s.dStallActive = false := by
  simp [CycleState.dStallActive, h.unstalled]

theorem sound : s.memInst.memException = false := by
  by_contra fault
  have access := h.follows.latches.inMEM.fault (by simpa using fault)
  simp [h.noLoad, h.noStore] at access

theorem calm : s.wbMemException = false := h.follows.latches.calm_iff.mpr h.sound

variable (plain : FunctState.Plain image N)
include plain

/-- The instructions in flight up to ID are no later than HALT. -/
theorem exIndex_le (running : s.memInst.isHalt = false) : s.exIndex c ≤ N :=
  h.follows.retired.exIndex_le h.bound plain.halt running

/-- EX holds no load or store unless it is behind HALT. -/
theorem ex_plain (running : s.memInst.isHalt = false)
    : s.exInst.readsMem = false ∧ s.exInst.writesMem = false := by
  have l := h.follows.latches
  cases flight : s.exInst.inFlight with
  | false =>
      have signals := l.inEX.kind.nop (l.inEX.empty flight)
      exact ⟨signals.readsMem, signals.writesMem⟩
  | true =>
      have fields := Instruction.sameControl
        (h.follows.retired.executes running flight).control
      have bound := h.exIndex_le plain running
      exact ⟨fields.readsMem.trans (plain.noLoad _ bound),
        fields.writesMem.trans (plain.noStore _ bound)⟩

theorem idIndex_le (ahead : s.haltAhead = false) : s.idIndex c ≤ N :=
  h.follows.retired.idIndex_le h.bound plain.halt ahead

omit plain in
/-- Only an instruction in EX holds ID, and it leaves a bubble there. -/
theorem ex_busy (held : s.held = true) : s.exInst.isNop = false := by
  by_contra nop
  simp only [Bool.not_eq_false] at nop
  simp [CycleState.held, h.dStallActive, hazardStall, loadUseStall, branchDataStall,
    branchExStall, branchMemStall, nop, h.noLoad] at held

omit plain in
theorem keeps_operands : s.losesOperands .all = false := by
  by_contra loses
  simp only [losesOperands, Bool.not_eq_false, Bool.and_eq_true] at loses
  have fresh := h.fresh.resolve_left (by simp [h.ex_busy loses.1.1])
  rcases Bool.or_eq_true_iff.mp loses.2 with rs1 | rs2
  · simp only [losesOperand, Bool.and_eq_true, bne_iff_ne] at rs1
    exact rs1.2.2 (fresh.rs1 rfl rs1.1.2 rs1.2.1.1.1.1)
  · simp only [losesOperand, Bool.and_eq_true, bne_iff_ne] at rs2
    exact rs2.2.2 (fresh.rs2 rfl rs2.1.2 rs2.2.1.1.1.1)

variable [CacheUnit κ] (running : s.halts = false)
include running

omit plain [CacheUnit κ] in
theorem mem_running : s.memInst.isHalt = false := by
  simpa [h.follows.latches.halts_eq, h.dStallActive] using running

theorem memory_next : s.next.simulator.memory = s.simulator.memory := by
  have l := h.follows.latches
  have ex := h.ex_plain plain (h.mem_running running)
  rw [next_memory, simAfterMEM, (l.memAfterAccess_other ex.1 ex.2).1, ite_self, simAfterWB_memory]

omit [CacheUnit κ] in
theorem newMEM_plain
    : s.newMEM.readsMem = false ∧ s.newMEM.writesMem = false
      ∧ s.newMEM.memException = false := by
  have l := h.follows.latches
  have ex := h.ex_plain plain (h.mem_running running)
  cases busy : s.exInst.isNop with
  | true =>
      rw [l.newMEM_nop h.dStallActive busy]
      exact ⟨rfl, rfl, rfl⟩
  | false =>
      have fields := Instruction.sameControl (l.newMEM_control h.dStallActive busy)
      refine ⟨fields.readsMem.trans ex.1, fields.writesMem.trans ex.2, ?_⟩
      rw [l.newMEM_active h.dStallActive busy]
      exact (l.memAfterAccess_other ex.1 ex.2).2

/-- Up to HALT every instruction that ID takes is legal. -/
theorem legal_next (ahead : s.next.haltAhead = false) : s.next.idInst.isLegal = true := by
  have l := h.follows.latches
  have gate := h.follows.ahead h.calm running ahead
  cases flight : s.next.idInst.inFlight with
  | false => exact (l.inv_next.inID.kind.nop (l.inv_next.inID.empty flight)).isLegal
  | true =>
      have f := h.follows.fetches gate
      have fields := Instruction.sameControl
        (h.follows.decoded_next h.calm gate ahead (fun _ => trivial) flight)
      refine fields.isLegal.trans (plain.legal _ ?_)
      have bound := h.idIndex_le plain gate
      rw [idIndex_next l h.calm f.legal]
      cases leaves : s.leavesID with
      | none => simpa using bound
      | some inst =>
          simp only [leavesID, Option.ite_none_right_eq_some, Bool.and_eq_true,
            Bool.not_eq_true'] at leaves
          obtain ⟨⟨⟨moving, _⟩, occupied⟩, _⟩ := leaves
          have other : s.idIndex c ≠ N := by
            intro last
            have same := (Instruction.sameControl (f.decoded occupied)).isHalt
            rw [last, plain.halt, l.id_running moving h.calm f.legal ahead] at same
            exact Bool.noConfusion same
          simp only [Option.toList_some, List.length_singleton]
          omega

theorem proceeds : s.Proceeds image fun _ => True where
  running := running
  calm := h.calm
  sound := by rw [next_memInst h.calm, (h.newMEM_plain plain running).2.2]
  legal := h.legal_next plain running
  keeps := fun _ => h.keeps_operands
  forwards := fun _ => by
    simp [misforwardsStore, (h.ex_plain plain (h.mem_running running)).2]
  decoded := fun _ => trivial
  memory := fun pc _ => by
    rw [h.memory_next plain running, h.follows.holds.memory pc trivial]

omit plain running in
theorem fresh_next
    : s.next.exInst.isNop = true
      ∨ s.next.idInst.Operands .all fun r v => v = s.next.simulator.regData r := by
  have l := h.follows.latches
  rw [next_idInst h.calm]
  rcases s.newID_cases with ⟨frozen, _⟩ | ⟨_, _, status, _, same⟩ | ⟨_, decodes, same⟩
  · left
    have hazard : s.hazardStall = true := by simpa [held, h.dStallActive] using frozen
    rw [next_exInst h.calm, l.newEX_hazard h.dStallActive hazard]
    rfl
  · right
    rw [same]
    exact operands_nop _ _
  · right
    have latched : s.decoded.1.Operands .all fun r v => v = s.simAfterMEM.regData r :=
      simID_operands s.simAfterMEM (l.fetched (decodes_clear decodes).2.2.2.2)
    rw [same, next_regData, ← simAfterMEM_regData]
    exact latched

/-- Every cycle before HALT reaches WB keeps the invariant. -/
theorem inv_next : s.next.Steady image N (c + s.entersWB.toList.length) where
  follows := h.follows.inv_next (h.proceeds plain running)
  bound := by
    have bound := h.exIndex_le plain (h.mem_running running)
    rwa [retires_length h.follows.latches h.dStallActive h.sound, ← exIndex]
  unstalled := by
    have l := h.follows.latches
    have ex := h.ex_plain plain (h.mem_running running)
    have quiet : s.accessesDCache = false := by
      rw [l.accessesDCache_eq, ex.1, ex.2]
      simp
    simp only [next, dStallLeftNext, quiet, Bool.false_and, Bool.false_eq_true, if_false]
    exact dStallTick_inactive h.dStallActive
  noLoad := by rw [next_memInst h.calm, (h.newMEM_plain plain running).1]
  noStore := by rw [next_memInst h.calm, (h.newMEM_plain plain running).2.1]
  fresh := h.fresh_next

end Steady

-----------------------------------------------------------------------------------------
-- Progress
-----------------------------------------------------------------------------------------

/-- The stages passed by the instructions of the program, all together. -/
def stagesPassed (s : CycleState κ) (c : ℕ) : ℕ :=
  c + s.exIndex c + s.idIndex c + (s.idIndex c + s.idInst.slot.length)

/-- The pipeline behind IF is empty, and stays so in this cycle. -/
def starved (s : CycleState κ) : Bool :=
  !s.memInst.inFlight && !s.exInst.inFlight && !s.idInst.inFlight && !s.decodes

/-- No stage waits for the D-cache, ID holds no illegal instruction, and nothing faults. -/
structure Advances (s : CycleState κ) : Prop where
  latches : s.LatchInv
  front : s.FrontInv
  legal : s.idInst.isLegal = true
  calm : s.wbMemException = false
  moving : s.dStallActive = false

/-- The stages of the instructions up to the HALT that follows `N` others. -/
theorem Retired.stagesPassed_le (h : s.Retired image c) (bound : c ≤ N)
    (halt : ((FunctState.path image N).decodedFrom image).isHalt = true)
    (ahead : s.haltAhead = false)
    : s.stagesPassed c ≤ 4 * N + 1 := by
  have running : s.memInst.isHalt = false := by
    simp only [haltAhead, Bool.or_eq_false_iff] at ahead
    exact ahead.2
  have ex := h.exIndex_le bound halt running
  have id := h.idIndex_le bound halt ahead
  have slot : s.idInst.slot.length ≤ 1 := by
    rw [slot_length]
    split <;> omega
  simp only [stagesPassed]
  omega

/-- Only an instruction in EX or MEM holds ID. -/
theorem LatchInv.ahead_busy (l : s.LatchInv) (moving : s.dStallActive = false)
    (held : s.held = true)
    : s.exInst.inFlight = true ∨ s.memInst.inFlight = true := by
  by_contra empty
  simp only [not_or, Bool.not_eq_true] at empty
  have ex := l.inEX.empty empty.1
  have mem := l.inMEM.empty empty.2
  simp [CycleState.held, moving, hazardStall, loadUseStall, branchDataStall, branchExStall,
    branchMemStall, ex, mem] at held

namespace Advances

variable (u : s.Advances)
include u

/-- Unless the pipeline is starved, some instruction passes a stage. -/
theorem stagesPassed_next [CacheUnit κ] (c : ℕ)
    : s.next.stagesPassed (c + s.entersWB.toList.length)
      = s.stagesPassed c + s.memInst.slot.length + s.exInst.slot.length
        + s.leavesID.toList.length + s.entersID.toList.length := by
  have l := u.latches
  have retired := retires_length l u.moving (l.calm_iff.mp u.calm)
  have ex : s.next.exIndex (c + s.entersWB.toList.length) = s.idIndex c := by
    rw [retired, ← exIndex, exIndex_moving l u.moving u.calm]
  have issued : s.next.idIndex (c + s.entersWB.toList.length)
      = s.idIndex c + s.leavesID.toList.length := idIndex_next l u.calm u.legal
  have slots := congrArg List.length (slotID_moves u.calm)
  simp only [List.length_append] at slots
  unfold stagesPassed
  rw [ex, issued, retired]
  simp only [idIndex, exIndex]
  omega

/-- A starved pipeline waits; any other makes progress. -/
theorem starved_or_passes [CacheUnit κ] (c : ℕ)
    : (s.starved = true
        ∧ s.next.stagesPassed (c + s.entersWB.toList.length) = s.stagesPassed c)
      ∨ s.stagesPassed c < s.next.stagesPassed (c + s.entersWB.toList.length) := by
  rw [u.stagesPassed_next, slot_length, slot_length]
  cases mem : s.memInst.inFlight with
  | true => simp only [if_true]; omega
  | false =>
      cases ex : s.exInst.inFlight with
      | true => simp only [if_true]; omega
      | false =>
          cases id : s.idInst.inFlight with
          | true =>
              have moving : s.held = false := by
                by_contra held
                have busy := u.latches.ahead_busy u.moving (by simpa using held)
                simp [ex, mem] at busy
              right
              simp only [leavesID, moving, u.calm, id, Bool.not_false, Bool.and_self, if_true,
                Option.toList_some, List.length_singleton]
              omega
          | false =>
              cases decodes : s.decodes with
              | true =>
                  right
                  simp only [entersID, decodes, u.calm, Bool.not_false, Bool.and_self, if_true,
                    Option.toList_some, List.length_singleton]
                  omega
              | false =>
                  left
                  simp [starved, leavesID, entersID, mem, ex, id, decodes]

end Advances

theorem Steady.advances (h : s.Steady image N c) (ahead : s.haltAhead = false)
    : s.Advances where
  latches := h.follows.latches
  front := (h.follows.fetches ahead).front
  legal := (h.follows.fetches ahead).legal
  calm := h.calm
  moving := h.dStallActive

/-- A bound on the cycles until IF holds an instruction, while nothing else moves: a miss waits
for its latency, and after a latency that causes no stall the second access hits.
-/
def fetchDelay (s : CycleState Cache) : ℕ :=
  if !s.ifInst.isNop then 0
  else if s.iStallActive || s.justFinishedIStall || (s.iCache.access s.pc .read).1 then
    s.iStallLeft.toNat + 1
  else s.iCache.config.missLatency.toNat + 2

/-- A starved pipeline has nothing in IF either, and fetches from PC. -/
theorem Advances.starved_fetch [CacheUnit κ] (u : s.Advances) (starved : s.starved = true)
    : s.ifInst.isNop = true
      ∧ s.iStallAfterID = s.iStallTick
      ∧ s.fetch
        = (if s.iStallActive then s.fetchHold (fetchSlot s.pc .normal) true
          else if s.justFinishedIStall then s.fetchDirect
          else s.fetchThrough s.pc s.iStallAfterID .normal
            (if s.newIdHasBranch then .speculative else .normal)) := by
  have l := u.latches
  simp only [CycleState.starved, Bool.and_eq_true, Bool.not_eq_true'] at starved
  have empty := l.inID.empty starved.1.2
  have undecoded := starved.2
  have untaken : s.branchTaken = false := branchTaken_nop empty
  have free : s.hazardStall = false := l.hazardStall_nop empty
  have noStall := u.moving
  have unsquashed : s.applyDeferredSquash = false := by
    by_contra squash
    have illegal := u.front.squash (by simpa [applyDeferredSquash] using squash)
    simp [u.legal] at illegal
  have vacant : s.ifInst.isNop = true := by
    by_contra busy
    simp only [Bool.not_eq_true] at busy
    have inactive := u.front.full_idle busy
    rw [applyDeferredSquash] at unsquashed
    simp [decodes_eq, held, noStall, free, unsquashed, untaken, inactive, busy] at undecoded
  have quiet : s.idIllegalException = false := by
    simp [idIllegalException, illegalInID, illegalDecoded, undecoded, empty]
  refine ⟨vacant, by simp [iStallAfterID, untaken], ?_⟩
  simp only [fetch, u.calm, quiet, untaken, noStall, free, Bool.false_eq_true, if_false]

/-- While nothing else moves, IF comes closer to an instruction. -/
theorem Advances.fetchDelay_next {s : CycleState Cache} (u : s.Advances)
    (wellFormed : s.iCache.WellFormed) (starved : s.starved = true)
    : s.next.fetchDelay < s.fetchDelay := by
  obtain ⟨vacant, tick, result⟩ := u.starved_fetch starved
  have fetched (busy : s.fetch.newIF.isNop = false) : s.next.fetchDelay < s.fetchDelay := by
    have idle : s.next.fetchDelay = 0 := by simp [fetchDelay, next, busy]
    rw [idle, fetchDelay, vacant]
    simp only [Bool.not_true, Bool.false_eq_true, if_false]
    split <;> omega
  cases active : s.iStallActive with
  | true =>
      rw [if_pos active] at result
      have waits : s.iStallLeft ≠ 0 := iStallLeft_active active
      have before : s.fetchDelay = s.iStallLeft.toNat + 1 := by simp [fetchDelay, vacant, active]
      have after : s.next.fetchDelay = s.iStallTick.toNat + 1 := by
        simp [fetchDelay, next, result, fetchHold, fetchSlot, nop, tick]
      have falls : s.iStallTick.toNat < s.iStallLeft.toNat := by
        have wide : s.iStallLeft ≠ 0#64 := waits
        unfold iStallTick
        split <;> bv_omega
      omega
  | false =>
      rw [if_neg (by simp [active])] at result
      cases finished : s.justFinishedIStall with
      | true =>
          rw [if_pos finished] at result
          exact fetched (by rw [result]; exact simIF_isNop _ _)
      | false =>
          rw [if_neg (by simp [finished])] at result
          cases hit : (s.iCache.access s.pc .read).1 with
          | true =>
              refine fetched ?_
              have hits : (CacheUnit.access s.iCache s.pc .read).1 = true := hit
              simp only [result, fetchThrough, hits, if_true]
              exact simIF_isNop _ _
          | false =>
              have misses : (CacheUnit.access s.iCache s.pc .read).1 = false := hit
              have before : s.fetchDelay = s.iCache.config.missLatency.toNat + 2 := by
                simp [fetchDelay, vacant, active, finished, hit]
              have again : ((s.iCache.access s.pc .read).2.access s.pc .read).1 = true :=
                wellFormed.access_again s.pc .read .read
              have after : s.next.fetchDelay = s.iCache.config.missLatency.toNat + 1 := by
                have latency : CacheUnit.missLatency (CacheUnit.access s.iCache s.pc .read).2
                    = s.iCache.config.missLatency :=
                  congrArg CacheConfig.missLatency (Cache.access_config s.pc .read)
                have vacated : s.next.ifInst.isNop = true := by
                  simp only [next, result, fetchThrough, misses]
                  rfl
                have here : s.next.pc = s.pc ∧ s.next.iStallLeft = s.iCache.config.missLatency
                    ∧ s.next.iCache = (s.iCache.access s.pc .read).2 := by
                  simp only [next, result, fetchThrough, misses, Bool.false_eq_true, if_false]
                  exact ⟨trivial, latency, rfl⟩
                simp only [fetchDelay, vacated, here, again, Bool.or_true, Bool.not_true,
                  Bool.false_eq_true, if_false, if_true]
              omega

theorem LatchInv.running_of_ahead (l : s.LatchInv) (ahead : s.haltAhead = false)
    : s.halts = false := by
  simp only [haltAhead, Bool.or_eq_false_iff] at ahead
  simp [l.halts_eq, ahead.2]

theorem steady_iterate [CacheUnit κ] {start : CycleState κ} (base : start.Steady image N 0)
    (plain : FunctState.Plain image N) {n : ℕ}
    (running : ∀ m < n, (next^[m] start).halts = false)
    : (next^[n] start).Steady image N (retiredCount start n) := by
  induction n with
  | zero => exact base
  | succ n ih =>
      have before := ih fun m earlier => running m (by omega)
      rw [Function.iterate_succ_apply', retiredCount, Runs.events_succ, List.length_append]
      exact before.inv_next plain (running n (by omega))

/-- Where the run halts, the HALT that follows `N` others retires. -/
theorem Steady.last [CacheUnit κ] (h : s.Steady image N c) (plain : FunctState.Plain image N)
    (halts : s.halts = true)
    : c = N ∧ s.entersWB.toList.length = 1 := by
  obtain ⟨here, retires, _⟩ := h.follows.halts_eq halts
  refine ⟨?_, retires⟩
  by_contra other
  have earlier : c < N := by
    have bound := h.bound
    omega
  simp [plain.running _ earlier] at here

/-- HALT leaves ID. Witness: some instruction passes a stage, or IF comes closer to one. -/
theorem exists_haltAhead {start : CycleState Cache} (base : start.Steady image N 0)
    (plain : FunctState.Plain image N) (wellFormed : start.iCache.WellFormed)
    : ∃ n, (next^[n] start).haltAhead = true
        ∧ ∀ m < n, (next^[m] start).haltAhead = false := by
  let step : CycleState Cache × ℕ → CycleState Cache × ℕ :=
    Runs.observed next fun t m => m + t.entersWB.toList.length
  let inv (p : CycleState Cache × ℕ) : Prop :=
    p.1.Steady image N p.2 ∧ p.1.iCache.WellFormed
  let goal (p : CycleState Cache × ℕ) : Prop := p.1.haltAhead = true
  let remaining (p : CycleState Cache × ℕ) : ℕ × ℕ :=
    (4 * N + 2 - p.1.stagesPassed p.2, p.1.fetchDelay)
  have preserved (p : CycleState Cache × ℕ) (holds : inv p) (waiting : ¬ goal p)
      : inv (step p) := by
    have running := holds.1.follows.latches.running_of_ahead (by simpa [goal] using waiting)
    exact ⟨holds.1.inv_next plain running, wellFormed_next holds.2⟩
  have falls (p : CycleState Cache × ℕ) (holds : inv p) (waiting : ¬ goal p)
      : Prod.Lex (· < ·) (· < ·) (remaining (step p)) (remaining p) := by
    have ahead : p.1.haltAhead = false := by simpa [goal] using waiting
    have bound := holds.1.follows.retired.stagesPassed_le holds.1.bound plain.halt ahead
    have advances := holds.1.advances ahead
    rcases advances.starved_or_passes p.2 with ⟨starved, same⟩ | passes
    · have closer := advances.fetchDelay_next holds.2 starved
      simp only [remaining, step, Runs.observed, same]
      exact Prod.Lex.right _ closer
    · refine Prod.Lex.left _ _ ?_
      simp only [step, Runs.observed]
      omega
  have found : ∃ n, goal (step^[n] (start, 0)) ∧ inv (step^[n] (start, 0))
      ∧ ∀ m < n, ¬ goal (step^[m] (start, 0)) :=
    Runs.exists_first_of_measure (WellFounded.prod_lex Nat.lt_wfRel.wf Nat.lt_wfRel.wf)
      remaining preserved falls (start, 0) ⟨base, wellFormed⟩
  obtain ⟨n, reached, _, before⟩ := found
  simp only [goal, step, Runs.observed_count] at reached before
  exact ⟨n, reached, fun m earlier => by simpa using before m earlier⟩

/-- The run halts, and keeps the invariant until then. -/
theorem exists_haltsAt {start : CycleState Cache} (base : start.Steady image N 0)
    (plain : FunctState.Plain image N) (wellFormed : start.iCache.WellFormed)
    : ∃ n, HaltsAt start n
        ∧ ∀ m ≤ n, (next^[m] start).Steady image N (retiredCount start m) := by
  obtain ⟨n, ahead, waiting⟩ := exists_haltAhead base plain wellFormed
  have latches : start.LatchInv := base.follows.latches
  have running (m : ℕ) (earlier : m < n) : (next^[m] start).halts = false :=
    (latches.iterate m).running_of_ahead (waiting m earlier)
  have now := steady_iterate base plain running
  have steady {bound : ℕ} (running : ∀ m < bound, (next^[m] start).halts = false) (m : ℕ)
      (le : m ≤ bound) : (next^[m] start).Steady image N (retiredCount start m) :=
    steady_iterate base plain fun k earlier => running k (by omega)
  cases mem : (next^[n] start).memInst.isHalt with
  | true =>
      exact ⟨n, ⟨by simp [now.follows.latches.halts_eq, now.dStallActive, mem], running⟩,
        steady running⟩
  | false =>
      have halt : (next^[n] start).exInst.isHalt = true := by simpa [haltAhead, mem] using ahead
      have here : (next^[n] start).halts = false := by
        simp [now.follows.latches.halts_eq, mem]
      have further (m : ℕ) (earlier : m < n + 1) : (next^[m] start).halts = false := by
        rcases Nat.lt_succ_iff_lt_or_eq.mp earlier with before | rfl
        · exact running m before
        · exact here
      have after := steady_iterate base plain further
      have busy := (now.follows.latches.inEX.kind.halt halt).isNop
      have passed : (next^[n + 1] start).memInst.isHalt = true := by
        rw [Function.iterate_succ_apply', next_memInst now.calm,
          (Instruction.sameControl
            (now.follows.latches.newMEM_control now.dStallActive busy)).isHalt, halt]
      have halts : (next^[n + 1] start).halts = true := by
        rw [after.follows.latches.halts_eq, after.dStallActive, passed]
        rfl
      exact ⟨n + 1, ⟨halts, further⟩, steady further⟩

/-- The run from `start` halts in cycle `n`, and after each of its cycles the registers other
than 0 are those of the functional simulator after `k` steps, where `k` grows with the cycles
by at most one and ends with the `N` steps the functional simulator takes.
-/
structure Simulates (start : CycleState Cache) (funct : FunctState) (N n : ℕ) (k : ℕ → ℕ)
    : Prop where
  halts : HaltsAt start n
  runs : ∀ limit, n < limit → runCycles limit start = (next^[n + 1] start, .halt)
  begins : k 0 = 0
  advances : ∀ m ≤ n, k m ≤ k (m + 1) ∧ k (m + 1) ≤ k m + 1
  bounded : ∀ m ≤ n + 1, k m ≤ N
  registers
    : ∀ m ≤ n + 1, ∀ r, r ≠ 0 →
        (next^[m] start).simulator.regData r
          = (FunctState.step^[k m] funct).simulator.regData r
  ends : k (n + 1) = N

/-- If the functional simulator reaches HALT in its step `N + 1`, after legal instructions that
are no loads or stores, the pipeline simulates it up to its own HALT. Witness: `k` counts the
instructions that have retired.
-/
theorem simulates_functional (past : CycleState Cache) (iCacheConfig dCacheConfig : CacheConfig)
    (image : MemoryStore) (N : ℕ) (geometry : iCacheConfig.PowerOfTwo)
    (halts : FunctState.HaltsAt (FunctState.init image) N)
    (free : FunctState.MemoryFree (FunctState.init image) N)
    : ∃ n k, Simulates (initSimulator past iCacheConfig dCacheConfig image)
        (FunctState.init image) (N + 1) n k := by
  have plain := FunctState.plain_of_haltsAt halts free
  have base : (initSimulator past iCacheConfig dCacheConfig image).Steady image N 0 :=
    steady_initCycle past _ _
  have formed := Cache.wellFormed_new geometry.indexable.numSets_pos
  obtain ⟨n, ends, steady⟩ := exists_haltsAt base plain formed
  generalize initSimulator past iCacheConfig dCacheConfig image = start at ends steady
  obtain ⟨_, _, final⟩ := (steady n le_rfl).follows.halts_eq ends.reached
  obtain ⟨last, retires⟩ := (steady n le_rfl).last plain ends.reached
  have count (m : ℕ) : retiredCount start (m + 1)
      = retiredCount start m + (next^[m] start).entersWB.toList.length := by
    rw [retiredCount, Runs.events_succ, List.length_append]
    rfl
  have total : retiredCount start (n + 1) = N + 1 := by rw [count, last, retires]
  refine ⟨n, retiredCount start, ends, fun limit later => ?_, rfl, fun m _ => ?_,
    fun m bound => ?_, fun m bound r nonzero => ?_, total⟩
  · exact (runCycles_halt_iff limit start _).mpr ⟨n, later, ends, rfl⟩
  · rw [count]
    have single : (next^[m] start).entersWB.toList.length ≤ 1 := by
      cases (next^[m] start).entersWB <;> simp
    omega
  · rcases Nat.le_succ_iff.mp bound with before | rfl
    · exact (steady m before).bound.trans (by omega)
    · exact total.le
  · rcases Nat.le_succ_iff.mp bound with before | rfl
    · rw [(steady m before).follows.retired.registers r nonzero,
        (FunctState.path_eq free (steady m before).bound).1]
    · obtain ⟨same, unchanged⟩ := FunctState.path_eq free le_rfl
      rw [Function.iterate_succ_apply', final r nonzero, last, total, FunctState.path_succ,
        ← (FunctState.step_eq_stepFrom unchanged).1, same, Function.iterate_succ_apply']

/-- A loop that counts x1 down from 3: `addi x1, x0, 3; addi x1, x1, -1; bne x1, x0, -4`. -/
theorem simulates_functional_loop
    : ∃ n k, Simulates (boot testICache testDCache
        [0x00300093, 0xfff08093, 0xfe009ee3, 0xfeedfeed])
        (FunctState.init (.load [0x00300093, 0xfff08093, 0xfe009ee3, 0xfeedfeed])) 8 n k :=
  simulates_functional _ testICache testDCache _ 7 ⟨6, 4, 1, by decide⟩
    ⟨by decide +kernel, by decide +kernel⟩
    (by unfold FunctState.MemoryFree; decide +kernel)

end RiscvSim.CycleState
