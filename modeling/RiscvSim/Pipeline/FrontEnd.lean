import RiscvSim.Pipeline.Latches

/-! The front end: PC, the IF latch and the stall counters always agree on the one address
that is fetched next in program order.
-/

namespace RiscvSim.CycleState

variable {κ : Type}

/-- The address of the next instruction to be decoded on the path that is being fetched: the
one waiting in IF, or else PC.
-/
def fetchPC (s : CycleState κ) : U64 := if s.ifInst.isNop then s.pc else s.ifInst.pc

/-- The PC that follows the instruction in ID: the handler for an illegal one, the resolved
target for a branch, JAL or JALR, and otherwise PC + 4.
-/
def followPC (s : CycleState κ) : U64 :=
  if !s.idInst.isLegal then exceptionHandler
  else if s.resolvesInID then s.resolved.nextPC
  else s.idInst.pc + 4

/-- How PC, IF and the counters fit together. While an illegal instruction waits in ID, the
address 0x8000 is pending; its pending squash alternates with the cycles of a D-cache stall,
so it is set exactly when an even number of stall cycles is left.
-/
structure FrontInv (s : CycleState κ) : Prop where
  sequential : s.ifInst.isNop = false → s.pc = s.ifInst.pc + 4
  waiting : s.iStallLeft ≠ 0 → s.ifInst.isNop = true
  following
    : s.idInst.inFlight = true → s.idInst.isLegal = true → s.fetchPC = s.idInst.pc + 4
  squash : s.squashNextIF = true → s.idInst.isLegal = false
  trap
    : s.idInst.isLegal = false
      → s.fetchPC = exceptionHandler
        ∧ s.iStallLeft = 0
        ∧ s.ifInst.isNop = s.squashNextIF
        ∧ (s.squashNextIF = true ↔ Even s.dStallLeft.toNat)

theorem frontInv_initCycle (past : CycleState κ) (iCache dCache : κ) (mem : MemoryStore)
    : (initCycle past iCache dCache mem).FrontInv where
  sequential := fun busy => by simp [initCycle, nop] at busy
  waiting := fun _ => rfl
  following := fun flight => by simp [initCycle, nop, Instruction.inFlight] at flight
  squash := fun squash => by simp [initCycle] at squash
  trap := fun illegal => by simp [initCycle, nop] at illegal

variable {s : CycleState κ}

/-- The handler's first word is fetched again, behind an illegal instruction in ID. -/
theorem frontInv_refetching (illegal : s.idInst.isLegal = false)
    (refetch
      : s.fetchPC = exceptionHandler ∧ s.iStallLeft = 0 ∧ s.ifInst.isNop = true
        ∧ s.squashNextIF = true)
    (even : Even s.dStallLeft.toNat)
    : s.FrontInv := by
  obtain ⟨handler, iStallLeft, empty, squash⟩ := refetch
  exact {
    sequential := fun busy => by simp [empty] at busy
    waiting := fun _ => empty
    following := fun _ legal => by simp [illegal] at legal
    squash := fun _ => illegal
    trap := fun _ => ⟨handler, iStallLeft, by rw [empty, squash], fun _ => even,
      fun _ => squash⟩ }

/-- No I-cache stall is active once its counter has ticked to 0. -/
theorem iStallTick_inactive (idle : s.iStallActive = false) : s.iStallTick = 0 := by
  simp only [iStallActive, decide_eq_false_iff_not, BitVec.not_lt] at idle
  exact BitVec.le_zero_iff.mp idle

/-- Nor is a D-cache stall while its counter is 0. -/
theorem dStallTick_inactive (idle : s.dStallActive = false) : s.dStallTick = 0 := by
  simp only [dStallActive, decide_eq_false_iff_not, BitVec.not_lt] at idle
  have zero : s.dStallLeft = 0 := BitVec.le_zero_iff.mp idle
  simp [dStallTick, zero]

theorem iStallLeft_active (active : s.iStallActive = true) : s.iStallLeft ≠ 0 := by
  intro zero
  simp [iStallActive, iStallTick, zero] at active

theorem iStallActive_idle (idle : s.iStallLeft = 0) : s.iStallActive = false := by
  simp [iStallActive, iStallTick, idle]

theorem iStallAfterID_zero (idle : s.iStallActive = false) : s.iStallAfterID = 0 := by
  unfold iStallAfterID
  split
  · rfl
  · exact iStallTick_inactive idle

/-- A branch is only taken in a cycle without an exception in ID or WB. -/
theorem branchTaken_clear (taken : s.branchTaken = true)
    : s.held = false ∧ s.illegalInID = false ∧ s.wbMemException = false
      ∧ s.idInst.isNop = false := by
  simp only [branchTaken, resolvesInID, idWillAdvance, Bool.and_eq_true, Bool.not_eq_true']
    at taken
  rw [held_free]
  exact ⟨⟨taken.1.1.1.1.1.2, taken.1.1.1.1.1.1⟩, taken.1.1.1.1.2, taken.1.1.1.2, taken.1.1.2⟩

theorem branchTaken_guarded (s : CycleState κ)
    : (s.branchTaken && !s.illegalInID && !s.wbMemException) = s.branchTaken := by
  cases taken : s.branchTaken with
  | false => rfl
  | true =>
      obtain ⟨_, illegal, trap, _⟩ := branchTaken_clear taken
      simp [illegal, trap]

theorem decodes_eq (s : CycleState κ)
    : s.decodes = (!s.held && !s.squashNextIF && !s.branchTaken && !s.iStallActive
        && !s.ifInst.isNop) := by
  simp only [decodes, branchTaken_guarded, held, applyDeferredSquash]

/-- When IF is decoded, ID advances and nothing squashes or stalls the word in IF. -/
theorem decodes_clear (decodes : s.decodes = true)
    : s.held = false ∧ s.squashNextIF = false ∧ s.branchTaken = false
      ∧ s.iStallActive = false ∧ s.ifInst.isNop = false := by
  simpa [decodes_eq, and_assoc] using decodes

/-- While ID is held no branch is taken and nothing is decoded. -/
theorem held_idle (frozen : s.held = true) : s.branchTaken = false ∧ s.decodes = false := by
  refine ⟨?_, by simp [decodes_eq, frozen]⟩
  by_contra taken
  have moving := (branchTaken_clear (by simpa using taken)).1
  simp [frozen] at moving

theorem newID_decoded (decodes : s.decodes = true) : s.newID = s.decoded.1 := by
  have moving := (decodes_clear decodes).1
  rcases s.newID_cases with ⟨held, _⟩ | ⟨_, idle, _⟩ | ⟨_, _, same⟩
  · simp [moving] at held
  · simp [decodes] at idle
  · exact same

theorem newID_inFlight (moving : s.held = false) : s.newID.inFlight = s.decodes := by
  rcases s.newID_cases with ⟨held, _⟩ | ⟨_, idle, status, bubble, same⟩ | ⟨_, decodes, same⟩
  · simp [moving] at held
  · rw [same, idle]
    simpa [Instruction.inFlight, nop] using bubble
  · rw [same, decodes]
    simp [Instruction.inFlight, decoded]

theorem newID_pc (decodes : s.decodes = true) : s.newID.pc = s.ifInst.pc := by
  rw [newID_decoded decodes]
  exact ((Instruction.sameControl (simID_control s.simAfterMEM s.ifInst)).pc).trans
    (simDecode_pc s.ifInst)

/-- The test for an all-zero word adds nothing: word 0 is illegal. -/
theorem LatchInv.illegalDecoded_eq (h : s.LatchInv)
    : s.illegalDecoded = (s.decodes && !s.newID.isLegal) := by
  unfold illegalDecoded
  cases decodes : s.decodes with
  | false => rfl
  | true =>
      cases legal : s.newID.isLegal with
      | false => rfl
      | true =>
          have nonzero : s.newID.instruction ≠ 0 := by
            intro zero
            have flight : s.newID.inFlight = true := by
              rw [newID_inFlight (decodes_clear decodes).1, decodes]
            have same := (Instruction.sameControl (h.inID_newID.decoded flight)).isLegal
            rw [zero, simDecode_zero, legal] at same
            exact Bool.noConfusion same
          simp only [beq_eq_false_iff_ne.mpr nonzero, Bool.false_and, Bool.not_true,
            Bool.or_false, Bool.and_false]

/-- An illegal instruction in ID resolves no branch that is taken. -/
theorem LatchInv.branchTaken_illegal (h : s.LatchInv) (illegal : s.idInst.isLegal = false)
    : s.branchTaken = false := by
  have same := Instruction.sameControl s.control_idEval
  have falls := (h.inID.kind.of_control s.control_idEval).illegal_fallthrough
    (same.isLegal.trans illegal)
  simp [branchTaken, resolved, falls]

/-- A bubble or NOP in ID resolves no branch. -/
theorem branchTaken_nop (nop : s.idInst.isNop = true)
    : s.branchTaken = false := by
  by_contra taken
  have busy := (branchTaken_clear (by simpa using taken)).2.2.2
  simp [nop] at busy

/-- Where a branch is taken, the next PC is the one that follows the branch. -/
theorem LatchInv.nextPC_taken (h : s.LatchInv) (taken : s.branchTaken = true)
    : s.nextPC = s.followPC := by
  have resolves : s.resolvesInID = true := by
    simp only [branchTaken, Bool.and_eq_true] at taken
    exact taken.1
  have undecoded : s.decodes = false := by
    by_contra decodes
    have untaken := (decodes_clear (by simpa using decodes)).2.2.1
    simp [taken] at untaken
  have legal : s.idInst.isLegal = true := by
    by_contra illegal
    simp [h.branchTaken_illegal (by simpa using illegal)] at taken
  simp [nextPC, h.illegalDecoded_eq, undecoded, resolves, followPC, legal]

/-- Without a taken branch the instruction leaving ID is followed by PC + 4. -/
theorem followPC_untaken (untaken : s.branchTaken = false)
    (legal : s.idInst.isLegal = true)
    : s.followPC = s.idInst.pc + 4 := by
  have same := (Instruction.sameControl s.control_idEval).pc
  cases resolves : s.resolvesInID with
  | false => simp [followPC, legal, resolves]
  | true =>
      simp only [branchTaken, resolves, Bool.true_and, bne_eq_false_iff_eq, same] at untaken
      simp [followPC, legal, resolves, untaken]

-----------------------------------------------------------------------------------------
-- What the IF stage delivers
-----------------------------------------------------------------------------------------

/-- A result of the IF stage after which `target` is the address to be decoded next. -/
structure FetchResult.Delivers (result : FetchResult κ) (target : U64) : Prop where
  address : (if result.newIF.isNop then result.pc else result.newIF.pc) = target
  sequential : result.newIF.isNop = false → result.pc = result.newIF.pc + 4
  waiting : result.iStallLeft ≠ 0 → result.newIF.isNop = true
  unsquashed : result.squashNextIF = false

theorem simIF_pc (sim : Simulator) (pc : U64) : (sim.simIF pc).pc = pc := by
  simp only [Simulator.simIF, simFetch]
  split <;> rfl

theorem simIF_isNop (sim : Simulator) (pc : U64) : (sim.simIF pc).isNop = false := by
  simp only [Simulator.simIF, simFetch]
  split <;> rfl

theorem delivers_direct (idle : s.iStallActive = false) : s.fetchDirect.Delivers s.pc where
  address := by simp [fetchDirect, simIF_isNop, simIF_pc]
  sequential := fun _ => by simp [fetchDirect, simIF_pc]
  waiting := fun stalled => absurd (iStallAfterID_zero idle) stalled
  unsquashed := rfl

theorem delivers_slot (s : CycleState κ) (status : StageStatus) (finished : Bool)
    : (s.fetchHold (fetchSlot s.pc status) finished).Delivers s.pc where
  address := rfl
  sequential := fun busy => by simp [fetchHold, fetchSlot, nop] at busy
  waiting := fun _ => rfl
  unsquashed := rfl

/-- A D-cache miss with an odd number of stall cycles starts in the cycle in which an illegal
instruction is decoded, and no memory exception squashes it.
-/
def trapsOddly [CacheUnit κ] (s : CycleState κ) : Bool :=
  s.illegalDecoded && !s.wbMemException && s.accessesDCache && !s.dCacheAccess.1
  && (CacheUnit.missLatency s.dCacheAccess.2).toNat % 2 == 1

theorem even_of_not_trapsOddly [CacheUnit κ] (evenly : s.trapsOddly = false)
    (trap : s.wbMemException = false) (illegal : s.illegalDecoded = true)
    : Even s.dStallLeftNext.toNat := by
  have idle : s.dStallActive = false := by
    simp only [illegalDecoded, Bool.and_eq_true] at illegal
    exact (held_free.mp (decodes_clear illegal.1).1).1
  cases miss : s.accessesDCache && !s.dCacheAccess.1 with
  | false => simp [dStallLeftNext, miss, dStallTick_inactive idle]
  | true =>
      rw [Nat.even_iff, dStallLeftNext, if_pos miss]
      simp only [Bool.and_eq_true, Bool.not_eq_true'] at miss
      have parity := Nat.mod_two_eq_zero_or_one
        (CacheUnit.missLatency s.dCacheAccess.2).toNat
      simp only [trapsOddly, illegal, trap, miss, Bool.not_false, Bool.and_self, Bool.true_and,
        beq_eq_false_iff_ne] at evenly
      omega

namespace FrontInv

variable (h : s.FrontInv)
include h

theorem delivers_hold (status : StageStatus) (finished : Bool) (idle : s.iStallActive = false)
    : (s.fetchHold { s.ifInst with status := status } finished).Delivers s.fetchPC where
  address := rfl
  sequential := h.sequential
  waiting := fun stalled => absurd (iStallAfterID_zero idle) stalled
  unsquashed := rfl

/-- A full IF latch waits for no I-cache. -/
theorem full_idle (full : s.ifInst.isNop = false) : s.iStallActive = false := by
  by_contra active
  have empty := h.waiting (iStallLeft_active (by simpa using active))
  simp [full] at empty

theorem fetchPC_waiting (active : s.iStallActive = true) : s.fetchPC = s.pc := by
  simp [fetchPC, h.waiting (iStallLeft_active active)]

/-- A taken branch clears the stall of the I-cache. -/
theorem iStallAfterID_taken (l : s.LatchInv) (taken : s.branchTaken = true)
    : s.iStallAfterID = 0 := by
  obtain ⟨moving, noIllegal, trap, _⟩ := branchTaken_clear taken
  have unsquashed : s.squashNextIF = false := by
    by_contra squash
    have untaken := l.branchTaken_illegal (h.squash (by simpa using squash))
    simp [taken] at untaken
  simp only [held] at moving
  simp [iStallAfterID, moving, applyDeferredSquash, unsquashed, taken, noIllegal, trap]

/-- When ID advances and no branch is taken, the word in IF is decoded, if there is one, and
PC is what follows.
-/
theorem fetchPC_moving (moving : s.held = false) (untaken : s.branchTaken = false)
    : (if s.decodes then s.pc else s.fetchPC) = s.pc := by
  by_cases empty : s.ifInst.isNop = true
  · simp [fetchPC, empty]
  simp only [Bool.not_eq_true] at empty
  have unsquashed : s.squashNextIF = false := by
    by_contra squash
    simp only [Bool.not_eq_false] at squash
    have occupied := (h.trap (h.squash squash)).2.2.1
    simp [squash, empty] at occupied
  have idle := h.full_idle empty
  have decodes : s.decodes = true := by
    simp [decodes_eq, moving, unsquashed, untaken, idle, empty]
  rw [if_pos decodes]

variable [CacheUnit κ]

omit h in
theorem delivers_through (s : CycleState κ) (target : U64) (onMiss onHit : StageStatus)
    : (s.fetchThrough target 0 onMiss onHit).Delivers target := by
  unfold fetchThrough
  dsimp only
  split
  · exact ⟨by simp [simIF_isNop, simIF_pc], fun _ => by simp [simIF_pc],
      fun stalled => absurd rfl stalled, rfl⟩
  · exact ⟨rfl, fun busy => by simp [fetchSlot, nop] at busy, fun _ => rfl, rfl⟩

/-- Without an exception the IF stage delivers the target of a taken branch, the word after
a decoded one, or the address that was pending.
-/
theorem delivers (l : s.LatchInv) (trap : s.wbMemException = false)
    (illegal : s.idIllegalException = false)
    : s.fetch.Delivers
        (if s.branchTaken then s.followPC else if s.decodes then s.pc else s.fetchPC) := by
  have quiet : ¬ s.idIllegalException = true := by simp [illegal]
  unfold fetch
  rw [if_neg (by simp [trap] : ¬ s.wbMemException = true), if_neg quiet]
  by_cases taken : s.branchTaken = true
  · rw [if_pos taken, if_pos taken, h.iStallAfterID_taken l taken, l.nextPC_taken taken]
    exact delivers_through s _ _ _
  rw [if_neg taken, if_neg taken]
  by_cases frozen : s.dStallActive = true
  · have undecoded : ¬ s.decodes = true := by simp [decodes_eq, held, frozen]
    rw [if_pos frozen, if_neg undecoded]
    by_cases active : s.iStallActive = true
    · rw [if_pos active, h.fetchPC_waiting active]
      exact delivers_slot s _ _
    rw [if_neg active]
    by_cases empty : s.ifInst.isNop = true
    · rw [if_pos empty, fetchPC, if_pos empty]
      exact delivers_direct (by simpa using active)
    · rw [if_neg empty]
      exact h.delivers_hold s.ifInst.status false (by simpa using active)
  rw [if_neg frozen]
  by_cases hazard : s.hazardStall = true
  · have undecoded : ¬ s.decodes = true := by simp [decodes_eq, held, hazard]
    rw [if_pos hazard, if_neg undecoded]
    by_cases active : s.iStallActive = true
    · rw [if_pos active, h.fetchPC_waiting active]
      exact delivers_slot s _ _
    rw [if_neg active]
    split
    · exact h.delivers_hold .speculative false (by simpa using active)
    · exact h.delivers_hold s.ifInst.status false (by simpa using active)
  have moving : s.held = false := held_free.mpr (by simp [frozen, hazard])
  rw [if_neg hazard, h.fetchPC_moving moving (by simpa using taken)]
  by_cases active : s.iStallActive = true
  · rw [if_pos active]
    exact delivers_slot s _ _
  rw [if_neg active]
  split
  · exact delivers_direct (by simpa using active)
  · rw [iStallAfterID_zero (by simpa using active)]
    exact delivers_through s _ _ _

omit h in
/-- A memory exception empties ID and sends IF to the handler. -/
theorem frontInv_faulted (trap : s.wbMemException = true) : s.next.FrontInv := by
  have result : s.fetch = s.fetchThrough s.nextPC 0 .normal .normal := by simp [fetch, trap]
  have delivers := delivers_through s s.nextPC .normal .normal
  rw [← result] at delivers
  have squashed : s.next.idInst = nop .squashed := by simp [next, trap]
  exact {
    sequential := delivers.sequential
    waiting := delivers.waiting
    following := fun flight => by simp [squashed, nop, Instruction.inFlight] at flight
    squash := fun squash => absurd squash (by simp [next, delivers.unsquashed])
    trap := fun illegal => by simp [squashed, nop] at illegal }

/-- The IF stage of a cycle in which ID holds or decodes an illegal instruction. -/
theorem fetch_illegal (l : s.LatchInv) (trap : s.wbMemException = false)
    (illegal : s.idIllegalException = true)
    : s.next.fetchPC = exceptionHandler ∧ s.next.iStallLeft = 0
      ∧ s.next.ifInst.isNop = true ∧ s.next.squashNextIF = true := by
  have result : s.fetch.newIF = fetchSlot s.pc .normal ∧ s.fetch.pc = s.nextPC
      ∧ s.fetch.iStallLeft = s.iStallAfterID ∧ s.fetch.squashNextIF = true := by
    simp [fetch, trap, illegal]
  obtain ⟨newIF, pc, iStallLeft, squash⟩ := result
  have handler : s.nextPC = exceptionHandler := by
    unfold nextPC
    split
    case isTrue decoded =>
      refine l.inID_newID.trap ?_
      rw [l.illegalDecoded_eq] at decoded
      simp only [Bool.and_eq_true, Bool.not_eq_true'] at decoded
      exact decoded.2
    case isFalse undecoded =>
      have inID : s.illegalInID = true := by
        simpa [idIllegalException, undecoded] using illegal
      rw [if_neg (by simp [resolvesInID, inID]), if_pos inID]
      simp only [illegalInID, Bool.and_eq_true, Bool.not_eq_true'] at inID
      exact l.inID.trap inID.2
  have inactive : s.iStallActive = false := by
    by_contra active
    simp only [Bool.not_eq_false] at active
    have waits := iStallLeft_active active
    simp only [idIllegalException, Bool.or_eq_true] at illegal
    rcases illegal with inID | decoded
    · simp only [illegalInID, Bool.and_eq_true, Bool.not_eq_true'] at inID
      exact waits (h.trap inID.2).2.1
    · simp [illegalDecoded, decodes_eq, active] at decoded
  refine ⟨?_, ?_, ?_, ?_⟩
  · simp [next, fetchPC, newIF, pc, handler, fetchSlot, nop]
  · simp [next, iStallLeft, iStallAfterID_zero inactive]
  · simp [next, newIF, fetchSlot, nop]
  · simp [next, squash]

omit h [CacheUnit κ] in
/-- The parity of a positive stall counter changes when it ticks. -/
theorem even_dStallTick (active : s.dStallActive = true)
    : Even s.dStallTick.toNat ↔ ¬ Even s.dStallLeft.toNat := by
  simp only [dStallActive, decide_eq_true_eq] at active
  have positive : 0 < s.dStallLeft.toNat := by simpa [BitVec.lt_def] using active
  have bound := s.dStallLeft.isLt
  have tick : s.dStallTick.toNat + 1 = s.dStallLeft.toNat := by
    have one : (1 : U64).toNat = 1 := rfl
    simp only [dStallTick, active, if_true, BitVec.toNat_sub, one]
    omega
  rw [← tick, Nat.even_add_one, not_not]

omit h in
theorem dStallLeftNext_frozen (active : s.dStallActive = true)
    : s.dStallLeftNext = s.dStallTick := by
  simp [dStallLeftNext, accessesDCache, memActive, active]

omit [CacheUnit κ] in
/-- An illegal instruction that waits in ID is held there by a D-cache stall. -/
theorem illegal_waits (illegal : s.illegalInID = true)
    : s.dStallActive = true ∧ ¬ Even s.dStallLeft.toNat := by
  simp only [illegalInID, applyDeferredSquash, Bool.and_eq_true, Bool.not_eq_true'] at illegal
  have odd := (h.trap illegal.2).2.2.2
  simp only [illegal.1.1, Bool.false_eq_true, false_iff] at odd
  refine ⟨?_, odd⟩
  by_contra inactive
  simp only [dStallActive, decide_eq_true_eq, BitVec.not_lt] at inactive
  rw [BitVec.le_zero_iff.mp inactive] at odd
  simp at odd

theorem next_illegalInID (l : s.LatchInv) (trap : s.wbMemException = false)
    (illegal : s.illegalInID = true)
    : s.next.FrontInv := by
  obtain ⟨active, odd⟩ := h.illegal_waits illegal
  have pending : s.idIllegalException = true := by simp [idIllegalException, illegal]
  have same : s.next.idInst = s.idInst := by simp [next, trap, newID, active]
  have parity : Even s.next.dStallLeft.toNat := by
    simpa only [next, dStallLeftNext_frozen active, even_dStallTick active] using odd
  simp only [illegalInID, Bool.and_eq_true, Bool.not_eq_true'] at illegal
  exact frontInv_refetching (same ▸ illegal.2) (h.fetch_illegal l trap pending) parity

theorem next_illegalDecoded (l : s.LatchInv) (trap : s.wbMemException = false)
    (illegal : s.illegalDecoded = true) (even : Even s.dStallLeftNext.toNat)
    : s.next.FrontInv := by
  have pending : s.idIllegalException = true := by simp [idIllegalException, illegal]
  have same : s.next.idInst = s.newID := by simp [next, trap]
  rw [l.illegalDecoded_eq, Bool.and_eq_true, Bool.not_eq_true'] at illegal
  exact frontInv_refetching (same ▸ illegal.2) (h.fetch_illegal l trap pending) even

/-- The refetch of the handler's first word during a D-cache stall. -/
theorem fetch_squash (l : s.LatchInv) (trap : s.wbMemException = false)
    (squash : s.squashNextIF = true) (active : s.dStallActive = true)
    : s.fetch = s.fetchDirect ∧ s.fetchDirect.iStallLeft = 0
      ∧ s.fetchDirect.newIF.isNop = false := by
  have illegal := h.squash squash
  obtain ⟨_, noStall, occupied, _⟩ := h.trap illegal
  have inactive := iStallActive_idle noStall
  have quiet : s.idIllegalException = false := by
    simp [idIllegalException, illegalInID, applyDeferredSquash, squash, illegalDecoded, decodes]
  refine ⟨?_, iStallAfterID_zero inactive, simIF_isNop _ _⟩
  simp [fetch, trap, quiet, l.branchTaken_illegal illegal, active, inactive, occupied, squash]

theorem next_quiet (l : s.LatchInv) (trap : s.wbMemException = false)
    (quiet : s.idIllegalException = false)
    : s.next.FrontInv := by
  have delivers := h.delivers l trap quiet
  have newID : s.next.idInst = s.newID := by simp [next, trap]
  rcases s.newID_cases with ⟨frozen, same⟩ | ⟨_, _, status, bubble, same⟩ | ⟨_, decodes, same⟩
  · obtain ⟨untaken, undecoded⟩ := held_idle frozen
    rw [if_neg (by simp [untaken]), if_neg (by simp [undecoded])] at delivers
    exact {
      sequential := delivers.sequential
      waiting := delivers.waiting
      following := fun flight legal => by
        rw [newID, same] at flight legal ⊢
        exact delivers.address.trans (h.following flight legal)
      squash := fun squash => absurd squash (by simp [next, delivers.unsquashed])
      trap := fun illegal => by
        rw [newID, same] at illegal
        have active : s.dStallActive = true := by
          simpa [held, l.hazardStall_illegal illegal] using frozen
        have squash : s.squashNextIF = true := by
          by_contra unset
          have inID : s.illegalInID = true := by
            have busy := (l.inID.kind.illegal illegal).isNop
            simpa [illegalInID, applyDeferredSquash, illegal, busy] using unset
          simp [idIllegalException, inID] at quiet
        obtain ⟨result, iStallLeft, fetched⟩ := h.fetch_squash l trap squash active
        obtain ⟨handler, _, _, parity⟩ := h.trap illegal
        refine ⟨delivers.address.trans handler, by rw [← iStallLeft, ← result]; rfl, ?_, ?_⟩
        · simp only [next, result, fetched]
          rfl
        · simp only [squash, true_iff] at parity
          simp [next, delivers.unsquashed, dStallLeftNext_frozen active,
            even_dStallTick active, parity] }
  · exact {
      sequential := delivers.sequential
      waiting := delivers.waiting
      following := fun flight => by
        rw [newID, same] at flight
        exact absurd (by simpa [Instruction.inFlight, nop] using flight) bubble
      squash := fun squash => absurd squash (by simp [next, delivers.unsquashed])
      trap := fun illegal => by simp [newID, same, nop] at illegal }
  · have untaken := (decodes_clear decodes).2.2.1
    have busy := (decodes_clear decodes).2.2.2.2
    rw [if_neg (by simp [untaken]), if_pos decodes] at delivers
    exact {
      sequential := delivers.sequential
      waiting := delivers.waiting
      following := fun _ _ => by
        rw [newID, newID_pc decodes, ← h.sequential busy]
        exact delivers.address
      squash := fun squash => absurd squash (by simp [next, delivers.unsquashed])
      trap := fun illegal => by
        rw [newID] at illegal
        simp [idIllegalException, l.illegalDecoded_eq, decodes, illegal] at quiet }

/-- One cycle keeps the front end consistent, unless a D-cache miss with an odd number of
stall cycles starts in the very cycle that decodes an illegal instruction.
-/
theorem inv_next (l : s.LatchInv)
    (evenly : s.trapsOddly = false)
    : s.next.FrontInv := by
  cases trap : s.wbMemException with
  | true => exact frontInv_faulted trap
  | false =>
      cases decoded : s.illegalDecoded with
      | true =>
          exact h.next_illegalDecoded l trap decoded
            (even_of_not_trapsOddly evenly trap decoded)
      | false =>
          cases inID : s.illegalInID with
          | true => exact h.next_illegalInID l trap inID
          | false => exact h.next_quiet l trap (by simp [idIllegalException, decoded, inID])

omit [CacheUnit κ] in
/-- The instruction in ID and the address being fetched agree, unless ID redirects. -/
theorem followPC_eq (flight : s.idInst.inFlight = true)
    (untaken : s.branchTaken = false)
    : s.followPC = s.fetchPC := by
  cases legal : s.idInst.isLegal with
  | true => rw [followPC_untaken untaken legal, h.following flight legal]
  | false => simp [followPC, legal, (h.trap legal).1]

/-- The address fetched next, after a cycle that traps nothing. -/
theorem fetchPC_next (l : s.LatchInv) (trap : s.wbMemException = false)
    (decoded : s.illegalDecoded = false)
    : s.next.fetchPC
      = if s.branchTaken then s.followPC else if s.decodes then s.pc else s.fetchPC := by
  cases inID : s.illegalInID with
  | false => exact (h.delivers l trap (by simp [idIllegalException, decoded, inID])).address
  | true =>
      have frozen := (h.illegal_waits inID).1
      have handler := (h.fetch_illegal l trap (by simp [idIllegalException, inID])).1
      simp only [illegalInID, Bool.and_eq_true, Bool.not_eq_true'] at inID
      rw [l.branchTaken_illegal inID.2, handler, ← (h.trap inID.2).1]
      simp [decodes_eq, held, frozen]

/-- The front end stays consistent over a run whose steps all meet the condition. -/
theorem iterate (l : s.LatchInv) {n : ℕ}
    (evenly : ∀ m < n, (next^[m] s).trapsOddly = false)
    : (next^[n] s).FrontInv := by
  induction n with
  | zero => exact h
  | succ n ih =>
      rw [Function.iterate_succ_apply']
      exact (ih fun m earlier => evenly m (by omega)).inv_next (l.iterate n)
        (evenly n (by omega))

end FrontInv

/-- The front end stays consistent as long as no trap meets such a miss. -/
theorem frontInv_reachable [CacheUnit κ] {past : CycleState κ} {iCache dCache : κ}
    {mem : MemoryStore}
    (reach
      : Runs.ReachableUnder next (fun t => t.trapsOddly = false)
          (initCycle past iCache dCache mem) s)
    : s.LatchInv ∧ s.FrontInv := by
  let both (t : CycleState κ) : Prop := t.LatchInv ∧ t.FrontInv
  have start : both (initCycle past iCache dCache mem) :=
    ⟨latchInv_initCycle past iCache dCache mem, frontInv_initCycle past iCache dCache mem⟩
  exact reach.invariant start fun _ inv evenly =>
    ⟨inv.1.inv_next, inv.2.inv_next inv.1 evenly⟩

end RiscvSim.CycleState
