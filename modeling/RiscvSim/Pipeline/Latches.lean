import RiscvSim.Instructions.Execution
import RiscvSim.Library.Runs

/-! What the latches between the stages hold: bubbles, or program instructions whose signals
are those of their word. The invariant needs no assumption on the run.
-/

namespace RiscvSim

-----------------------------------------------------------------------------------------
-- The machine that is switched on
-----------------------------------------------------------------------------------------

/-- The I-cache of `test/cache_config.txt`. -/
def testICache : CacheConfig := { cacheSize := 2048, blockSize := 16, ways := 2, missLatency := 5 }

/-- The D-cache of `test/cache_config.txt`. -/
def testDCache : CacheConfig := { cacheSize := 4096, blockSize := 16, ways := 4, missLatency := 8 }

/-- A new process that loads the program `words` and the trap handler `handler`. -/
def boot (iCacheConfig dCacheConfig : CacheConfig) (words : List Nat)
    (handler : List Nat := []) : CycleState Cache :=
  initSimulator (.fresh (Cache.new iCacheConfig) (Cache.new dCacheConfig))
    iCacheConfig dCacheConfig (.load words handler)

-----------------------------------------------------------------------------------------
-- What the latches hold
-----------------------------------------------------------------------------------------

/-- Past IF a program instruction carries the status NORMAL and a bubble any other. This is
what tells a NOP of the program from the bubbles, which share its word and its `isNop`.
-/
def Instruction.inFlight (inst : Instruction) : Bool := inst.status == .normal

/-- The ID latch: a bubble, or a decoded instruction, legal or not. -/
structure Instruction.InID (inst : Instruction) : Prop where
  kind : inst.HasKind
  empty : inst.inFlight = false → inst.isNop = true
  decoded : inst.inFlight = true → inst.Decoded
  result : inst.arithResult = 0
  fault : inst.isLegal = true → inst.memException = false
  trap : inst.isLegal = false → inst.nextPC = exceptionHandler

/-- The EX latch: a bubble, or a legal decoded instruction. -/
structure Instruction.InEX (inst : Instruction) : Prop where
  kind : inst.HasKind
  empty : inst.inFlight = false → inst.isNop = true
  decoded : inst.inFlight = true → inst.Decoded
  legal : inst.isLegal = true
  fault : inst.memException = false

/-- The MEM latch: as EX, but a NOP has been replaced by a fresh one, and loads and stores
may have faulted.
-/
structure Instruction.InMEM (inst : Instruction) : Prop where
  kind : inst.HasKind
  empty : inst.inFlight = false → inst.isNop = true
  decoded : inst.isNop = false → inst.Decoded
  legal : inst.isLegal = true
  fault : inst.memException = true → inst.readsMem = true ∨ inst.writesMem = true

/-- The WB latch: what retired last, or a bubble. -/
structure Instruction.InWB (inst : Instruction) : Prop where
  kind : inst.HasKind
  legal : inst.isLegal = true
  fault : inst.memException = false

theorem Instruction.InMEM.unfaulted {inst : Instruction} (h : inst.InMEM)
    (nop : inst.isNop = true) : inst.memException = false := by
  by_contra faulted
  have busy := (h.kind.access (h.fault (by simpa using faulted))).2.1
  simp [nop] at busy

theorem inID_nop {status : StageStatus} (bubble : status ≠ .normal) : (nop status).InID where
  kind := hasKind_nop status
  empty := fun _ => rfl
  decoded := fun flight => absurd (by simpa [Instruction.inFlight, nop] using flight) bubble
  result := rfl
  fault := fun _ => rfl
  trap := fun illegal => by simp [nop] at illegal

theorem inEX_nop {status : StageStatus} (bubble : status ≠ .normal) : (nop status).InEX where
  kind := hasKind_nop status
  empty := fun _ => rfl
  decoded := fun flight => absurd (by simpa [Instruction.inFlight, nop] using flight) bubble
  legal := rfl
  fault := rfl

theorem inMEM_nop (status : StageStatus) : (nop status).InMEM where
  kind := hasKind_nop status
  empty := fun _ => rfl
  decoded := fun busy => by simp [nop] at busy
  legal := rfl
  fault := fun faulted => by simp [nop] at faulted

theorem inWB_nop (status : StageStatus) : (nop status).InWB where
  kind := hasKind_nop status
  legal := rfl
  fault := rfl

@[simp]
theorem simID_control (sim : Simulator) (inst : Instruction)
    : (sim.simID inst).1.control = (simDecode inst).control := by
  simp only [Simulator.simID]
  split_ifs <;> first | rfl | exact control_simNextPCResolution _

@[simp]
theorem simID_status (sim : Simulator) (inst : Instruction)
    : (sim.simID inst).1.status = .normal := by
  simp only [Simulator.simID]
  split_ifs <;> rfl

theorem simID_memException (sim : Simulator) (inst : Instruction)
    : (sim.simID inst).1.memException = inst.memException := by
  simp only [Simulator.simID]
  split_ifs <;> simp only [simNextPCResolution_memException, simOperandCollection,
    simDecode_memException]

theorem simID_arithResult (sim : Simulator) (inst : Instruction)
    : (sim.simID inst).1.arithResult = inst.arithResult := by
  simp only [Simulator.simID]
  split_ifs <;> simp only [simNextPCResolution_arithResult, simOperandCollection,
    simDecode_arithResult]

theorem simID_trap (sim : Simulator) (inst : Instruction)
    (illegal : (sim.simID inst).1.isLegal = false)
    : (sim.simID inst).1.nextPC = exceptionHandler := by
  have word : (simDecode inst).isLegal = false := by
    rw [← illegal]
    exact (Instruction.sameControl (simID_control sim inst)).isLegal.symm
  simp only [Simulator.simID]
  split_ifs <;> simp_all

/-- Decoding a fetched instruction fills the ID latch. -/
theorem Instruction.Fetched.inID {inst : Instruction} (h : inst.Fetched) (sim : Simulator)
    : (sim.simID inst).1.InID where
  kind := h.decoded.hasKind.of_control (simID_control sim inst)
  empty := fun idle => by simp [Instruction.inFlight] at idle
  decoded := fun _ => h.decoded.of_control (simID_control sim inst)
  result := (simID_arithResult sim inst).trans h.result
  fault := fun legal => by
    rw [simID_memException]
    apply h.legal_fetched
    rw [← (Instruction.sameControl (simID_control sim inst)).isLegal]
    exact legal
  trap := simID_trap sim inst

theorem Instruction.Fetched.withStatus {inst : Instruction} (h : inst.Fetched)
    (status : StageStatus) : Instruction.Fetched { inst with status := status } :=
  ⟨h.blank, h.result, h.faulted⟩

theorem fetched_simIF (sim : Simulator) (pc : U64) : (sim.simIF pc).Fetched :=
  have fetched := fetched_simFetch pc sim.memory
  ⟨fetched.blank, fetched.result, fetched.faulted⟩

@[simp]
theorem forwardFrom_memException (src : Instruction) (fwd : U64) (unshadowed : Bool)
    (inst : Instruction)
    : (forwardFrom src fwd unshadowed inst).memException = inst.memException := by
  unfold forwardFrom
  split <;> rfl

@[simp]
theorem simArithLogic_memException (inst : Instruction)
    : (simArithLogic inst).memException = inst.memException := by
  simp only [simArithLogic]
  split_ifs <;> rfl

@[simp]
theorem simEX_memException (inst : Instruction)
    : (Simulator.simEX inst).memException = inst.memException := by
  simp only [Simulator.simEX]
  split_ifs <;> simp

@[simp]
theorem simEX_status (inst : Instruction) : (Simulator.simEX inst).status = .normal := by
  simp only [Simulator.simEX]
  split_ifs <;> rfl

@[simp]
theorem simMEM_status (sim : Simulator) (inst : Instruction)
    : (sim.simMEM inst).1.status = .normal := by
  simp only [Simulator.simMEM]
  split_ifs <;> rfl

@[simp]
theorem simWB_memException (sim : Simulator) (inst : Instruction)
    : (sim.simWB inst).1.memException = inst.memException := by
  simp only [Simulator.simWB]
  split_ifs <;> rfl

/-- Only loads and stores can come out of MEM with an exception. -/
theorem simMEM_fault {sim : Simulator} {inst : Instruction} (sound : inst.memException = false)
    (faulted : (sim.simMEM inst).1.memException = true)
    : inst.readsMem = true ∨ inst.writesMem = true := by
  by_contra other
  simp only [not_or, Bool.not_eq_true] at other
  simp [Simulator.simMEM, other, sound] at faulted

namespace CycleState

variable {κ : Type}

/-- Every latch holds what its stage may hold, and no instruction in MEM waits for the
D-cache with an exception.
-/
structure LatchInv (s : CycleState κ) : Prop where
  fetched : s.ifInst.isNop = false → s.ifInst.Fetched
  inID : s.idInst.InID
  inEX : s.exInst.InEX
  inMEM : s.memInst.InMEM
  inWB : s.wbInst.InWB
  stalled : s.dStallActive = true → s.memInst.memException = false

theorem latchInv_initCycle (past : CycleState κ) (iCache dCache : κ) (mem : MemoryStore)
    : (initCycle past iCache dCache mem).LatchInv where
  fetched := fun busy => by simp [initCycle, nop] at busy
  inID := inID_nop (by decide)
  inEX := inEX_nop (by decide)
  inMEM := inMEM_nop _
  inWB := inWB_nop _
  stalled := fun active => by simp [initCycle, dStallActive] at active

variable {s : CycleState κ}

/-- ID and EX keep their content in this cycle. -/
def held (s : CycleState κ) : Bool := s.dStallActive || s.hazardStall

theorem held_free : s.held = false ↔ s.dStallActive = false ∧ s.hazardStall = false := by
  simp [held]

/-- No hazard is seen under a D-cache stall. -/
theorem hazardStall_frozen (frozen : s.dStallActive = true) : s.hazardStall = false := by
  simp [hazardStall, loadUseStall, branchDataStall, branchExStall, branchMemStall, frozen]

@[simp]
theorem control_exInput : s.exInput.control = s.idInst.control := by
  simp [exInput]

@[simp]
theorem control_idEval : s.idEval.control = s.idInst.control := by
  unfold idEval
  split <;> simp

@[simp]
theorem control_memInput : s.memInput.control = s.exInst.control := by
  simp only [memInput]
  split_ifs <;> first | rfl | exact control_simAddrGen _

/-- What the ID latch holds next: its old content, a bubble, or the decoded word of IF. -/
theorem newID_cases (s : CycleState κ)
    : (s.held = true ∧ s.newID = s.idInst)
      ∨ (s.held = false ∧ s.decodes = false
        ∧ ∃ status, status ≠ .normal ∧ s.newID = nop status)
      ∨ (s.held = false ∧ s.decodes = true ∧ s.newID = s.decoded.1) := by
  unfold newID decodes held
  split
  case isTrue frozen => exact .inl ⟨frozen, rfl⟩
  case isFalse moving =>
    simp only [Bool.not_eq_true] at moving
    simp only [moving, Bool.not_false, Bool.true_and, Bool.false_eq_true, false_and, true_and,
      false_or]
    split
    case isTrue squash => simp only [squash]; exact .inl ⟨rfl, _, by decide, rfl⟩
    split
    case isTrue taken => simp only [taken]; exact .inl ⟨by simp, _, by decide, rfl⟩
    split
    case isTrue stall => simp only [stall]; exact .inl ⟨by simp, _, by decide, rfl⟩
    split
    case isTrue empty =>
      refine .inl ⟨by simp [empty], _, ?_, rfl⟩
      split <;> decide
    case isFalse squash taken stall busy =>
      simp only [Bool.not_eq_true] at squash taken stall busy
      exact .inr ⟨by simp only [squash, taken, stall, busy]; rfl, rfl⟩

theorem newID_held (frozen : s.held = true) : s.newID = s.idInst := by
  rcases s.newID_cases with ⟨_, same⟩ | ⟨moving, _⟩ | ⟨moving, _⟩
  · exact same
  · simp [frozen] at moving
  · simp [frozen] at moving

/-- What the IF stage does: a fetch through the I-cache, a fetch past it, a wait for the
I-cache, a hold for the stages ahead, or the access that an illegal instruction leaves behind.
-/
theorem fetch_cases [CacheUnit κ] (s : CycleState κ)
    : (∃ target iStallLeft onMiss onHit,
        s.fetch = s.fetchThrough target iStallLeft onMiss onHit)
      ∨ s.fetch = s.fetchDirect
      ∨ (∃ finished, s.fetch = s.fetchHold (fetchSlot s.pc .normal) finished)
      ∨ (∃ status, s.fetch = s.fetchHold { s.ifInst with status := status } false)
      ∨ (s.fetch.newIF = fetchSlot s.pc .normal
        ∧ s.fetch.iCache = (CacheUnit.access s.iCache s.pc .read).2) := by
  unfold fetch
  by_cases trap : s.wbMemException = true
  · rw [if_pos trap]
    exact .inl ⟨_, _, _, _, rfl⟩
  rw [if_neg trap]
  by_cases illegal : s.idIllegalException = true
  · rw [if_pos illegal]
    exact .inr (.inr (.inr (.inr ⟨rfl, rfl⟩)))
  rw [if_neg illegal]
  by_cases taken : s.branchTaken = true
  · rw [if_pos taken]
    exact .inl ⟨_, _, _, _, rfl⟩
  rw [if_neg taken]
  by_cases frozen : s.dStallActive = true
  · rw [if_pos frozen]
    split
    · exact .inr (.inr (.inl ⟨_, rfl⟩))
    split
    · exact .inr (.inl rfl)
    · exact .inr (.inr (.inr (.inl ⟨s.ifInst.status, rfl⟩)))
  rw [if_neg frozen]
  by_cases hazard : s.hazardStall = true
  · rw [if_pos hazard]
    split
    · exact .inr (.inr (.inl ⟨_, rfl⟩))
    split
    · exact .inr (.inr (.inr (.inl ⟨.speculative, rfl⟩)))
    · exact .inr (.inr (.inr (.inl ⟨s.ifInst.status, rfl⟩)))
  rw [if_neg hazard]
  split
  · exact .inr (.inr (.inl ⟨_, rfl⟩))
  split
  · exact .inr (.inl rfl)
  · exact .inl ⟨_, _, _, _, rfl⟩

/-- What the IF latch holds next: an empty slot, a fetched word, or its old content. -/
theorem newIF_cases [CacheUnit κ] (s : CycleState κ)
    : (∃ pc status, s.fetch.newIF = fetchSlot pc status)
      ∨ (∃ pc status, s.fetch.newIF = { s.simAfterID.simIF pc with status := status })
      ∨ ∃ status, s.fetch.newIF = { s.ifInst with status := status } := by
  rcases s.fetch_cases with ⟨target, _, onMiss, onHit, same⟩ | same | ⟨_, same⟩
    | ⟨status, same⟩ | ⟨same, _⟩
  · rw [same, fetchThrough]
    split
    split
    · exact .inr (.inl ⟨target, onHit, rfl⟩)
    · exact .inl ⟨target, onMiss, rfl⟩
  · exact .inr (.inl ⟨s.pc, .normal, by rw [same]; rfl⟩)
  · exact .inl ⟨s.pc, .normal, by rw [same]; rfl⟩
  · exact .inr (.inr ⟨status, by rw [same]; rfl⟩)
  · exact .inl ⟨s.pc, .normal, same⟩

namespace LatchInv

/-- An occupied slot past IF that is no NOP holds a program instruction. -/
theorem id_inFlight (h : s.LatchInv) (busy : s.idInst.isNop = false)
    : s.idInst.inFlight = true := by
  by_contra idle
  simp [h.inID.empty (by simpa using idle)] at busy

theorem ex_inFlight (h : s.LatchInv) (busy : s.exInst.isNop = false)
    : s.exInst.inFlight = true := by
  by_contra idle
  simp [h.inEX.empty (by simpa using idle)] at busy

theorem mem_inFlight (h : s.LatchInv) (busy : s.memInst.isNop = false)
    : s.memInst.inFlight = true := by
  by_contra idle
  simp [h.inMEM.empty (by simpa using idle)] at busy

/-- In reachable states the stage MEM runs for every instruction in EX that is no NOP. -/
theorem memActive_eq (h : s.LatchInv)
    : s.memActive = (!s.dStallActive && !s.exInst.isNop) := by
  cases nop : s.exInst.isNop with
  | true => simp [memActive, nop]
  | false =>
      have status := h.ex_inFlight nop
      simp only [Instruction.inFlight, beq_iff_eq] at status
      simp [memActive, nop, status]

theorem memFaulted_eq (h : s.LatchInv) : s.memFaulted = s.memInst.memException := by
  cases nop : s.memInst.isNop with
  | true => simp [memFaulted, nop, h.inMEM.unfaulted nop]
  | false => simp [memFaulted, nop]

/-- The second way into the exception, through an illegal instruction in WB, is dead. -/
theorem wbMemException_eq (h : s.LatchInv)
    : s.wbMemException = (!s.dStallActive && s.memInst.memException) := by
  unfold wbMemException
  cases active : s.dStallActive with
  | true => rfl
  | false =>
      cases fault : s.memInst.memException with
      | true => simp [h.memFaulted_eq, fault]
      | false =>
          have fields := Instruction.sameControl (control_simWB s.simulator s.memInst)
          simp only [newWB, active, h.memFaulted_eq, fault, Bool.false_eq_true, if_false]
          split_ifs <;> simp [fields.isLegal, h.inMEM.legal, fault]

/-- Since a faulted instruction never waits for the D-cache, WB raises its exception at once. -/
theorem calm_iff (h : s.LatchInv)
    : s.wbMemException = false ↔ s.memInst.memException = false := by
  rw [h.wbMemException_eq]
  cases moving : s.dStallActive with
  | true => simp [h.stalled moving]
  | false => simp

theorem wbMemException_unstalled (h : s.LatchInv) (trap : s.wbMemException = true)
    : s.dStallActive = false ∧ s.memInst.memException = true := by
  simpa [h.wbMemException_eq] using trap

-----------------------------------------------------------------------------------------
-- What each stage passes on
-----------------------------------------------------------------------------------------

/-- WB passes on what MEM held, unless MEM is frozen or has faulted. -/
theorem newWB_eq (h : s.LatchInv) (moving : s.dStallActive = false)
    (sound : s.memInst.memException = false)
    : s.newWB.control = s.memInst.control
      ∧ s.newWB.inFlight = s.memInst.inFlight
      ∧ s.newWB.memException = false
      ∧ s.newWB.result = s.memInst.result := by
  have fields := Instruction.sameControl (control_simWB s.simulator s.memInst)
  have status : (s.simulator.simWB s.memInst).1.status = .normal := by
    simp only [Simulator.simWB]
    split_ifs <;> rfl
  have values : (s.simulator.simWB s.memInst).1.result = s.memInst.result := by
    simp only [Simulator.simWB]
    split_ifs <;> rfl
  simp only [newWB, moving, h.memFaulted_eq, sound, Bool.false_eq_true, if_false]
  split
  case isTrue nop => exact ⟨control_simWB _ _, rfl, by simp [sound], values⟩
  case isFalse busy =>
    rw [fields.isNop] at busy
    have flight := h.mem_inFlight (by simpa using busy)
    refine ⟨control_simWB _ _, ?_, by simp [sound], values⟩
    rw [flight]
    simp [Instruction.inFlight, status]

theorem inWB_newWB (h : s.LatchInv) : s.newWB.InWB := by
  cases moving : s.dStallActive with
  | true => simpa [newWB, moving] using inWB_nop _
  | false =>
      cases fault : s.memInst.memException with
      | true => simpa [newWB, moving, h.memFaulted_eq, fault] using inWB_nop _
      | false =>
          obtain ⟨same, _, sound, _⟩ := h.newWB_eq moving fault
          exact ⟨h.inMEM.kind.of_control same,
            (Instruction.sameControl same).isLegal.trans h.inMEM.legal, sound⟩

/-- MEM runs for what EX held if that is no NOP; a NOP becomes a fresh one. -/
theorem newMEM_active (h : s.LatchInv) (moving : s.dStallActive = false)
    (busy : s.exInst.isNop = false)
    : s.newMEM = s.memAfterAccess.1 := by
  have active : s.memActive = true := by simp [h.memActive_eq, moving, busy]
  have fields := Instruction.sameControl
    ((control_simMEM s.simAfterWB s.memInput).trans s.control_memInput)
  simp [newMEM, moving, active, memAfterAccess, fields.isNop, busy]

theorem newMEM_nop (h : s.LatchInv) (moving : s.dStallActive = false)
    (nop : s.exInst.isNop = true)
    : s.newMEM = RiscvSim.nop s.exInst.status := by
  simp [newMEM, moving, h.memActive_eq, nop]

theorem newMEM_inFlight (h : s.LatchInv) (moving : s.dStallActive = false)
    : s.newMEM.inFlight = s.exInst.inFlight := by
  cases busy : s.exInst.isNop with
  | true => rw [h.newMEM_nop moving busy]; rfl
  | false =>
      rw [h.newMEM_active moving busy, h.ex_inFlight busy]
      simp [Instruction.inFlight, memAfterAccess]

/-- The signals of EX are those of the new MEM; the word and PC too unless it is a NOP. -/
theorem newMEM_control (h : s.LatchInv) (moving : s.dStallActive = false)
    (busy : s.exInst.isNop = false)
    : s.newMEM.control = s.exInst.control := by
  rw [h.newMEM_active moving busy]
  exact (control_simMEM s.simAfterWB s.memInput).trans s.control_memInput

/-- HALT leaves EX as HALT. -/
theorem newMEM_isHalt (h : s.LatchInv) (moving : s.dStallActive = false)
    : s.newMEM.isHalt = s.exInst.isHalt := by
  cases busy : s.exInst.isNop with
  | true => rw [h.newMEM_nop moving busy, (h.inEX.kind.nop busy).isHalt]; rfl
  | false => exact (Instruction.sameControl (h.newMEM_control moving busy)).isHalt

theorem memInput_memException (s : CycleState κ)
    : s.memInput.memException = s.exInst.memException := by
  simp only [memInput]
  split_ifs <;> simp

theorem inMEM_newMEM (h : s.LatchInv) : s.newMEM.InMEM := by
  cases moving : s.dStallActive with
  | true => simpa [newMEM, moving] using h.inMEM
  | false =>
      cases busy : s.exInst.isNop with
      | true => simpa [h.newMEM_nop moving busy] using inMEM_nop _
      | false =>
          have same := h.newMEM_control moving busy
          have fields := Instruction.sameControl same
          exact {
            kind := h.inEX.kind.of_control same
            empty := fun idle => by
              rw [h.newMEM_inFlight moving, h.ex_inFlight busy] at idle
              simp at idle
            decoded := fun _ => (h.inEX.decoded (h.ex_inFlight busy)).of_control same
            legal := fields.isLegal.trans h.inEX.legal
            fault := fun faulted => by
              rw [h.newMEM_active moving busy] at faulted
              have access := simMEM_fault
                ((memInput_memException s).trans h.inEX.fault) faulted
              have input := Instruction.sameControl s.control_memInput
              simpa [fields.readsMem, fields.writesMem, input.readsMem, input.writesMem]
                using access }

/-- EX passes on what ID held, unless ID is frozen or squashed. -/
theorem newEX_issued (h : s.LatchInv) (moving : s.held = false)
    (legal : s.idInst.isLegal = true)
    : s.newEX.control = s.idInst.control
      ∧ s.newEX.inFlight = s.idInst.inFlight
      ∧ s.newEX.memException = false := by
  have same : (Simulator.simEX s.exInput).control = s.idInst.control := by simp
  have fields := Instruction.sameControl same
  have input : s.exInput.memException = false := by
    simp [exInput, h.inID.fault legal]
  rw [held_free] at moving
  simp only [newEX, moving.1, moving.2, legal, Bool.not_true, Bool.and_false,
    Bool.false_eq_true, if_false]
  split
  case isTrue nop => exact ⟨same, rfl, by simpa using input⟩
  case isFalse busy =>
    rw [fields.isNop] at busy
    refine ⟨same, ?_, by simpa using input⟩
    rw [h.id_inFlight (by simpa using busy)]
    simp [Instruction.inFlight]

theorem newEX_illegal (h : s.LatchInv) (moving : s.dStallActive = false)
    (illegal : s.idInst.isLegal = false)
    : s.newEX = nop .squashed := by
  have busy := (h.inID.kind.illegal illegal).isNop
  simp [newEX, moving, illegal, busy]

/-- An illegal instruction reads no register and is never held by a hazard. -/
theorem hazardStall_illegal (h : s.LatchInv) (illegal : s.idInst.isLegal = false)
    : s.hazardStall = false := by
  have signals := h.inID.kind.illegal illegal
  simp [hazardStall, loadUseStall, branchDataStall, branchExStall, branchMemStall,
    signals.readsRs1, signals.readsRs2]

/-- Nor is a NOP or a bubble. -/
theorem hazardStall_nop (h : s.LatchInv) (nop : s.idInst.isNop = true)
    : s.hazardStall = false := by
  have signals := h.inID.kind.nop nop
  simp [hazardStall, loadUseStall, branchDataStall, branchExStall, branchMemStall,
    signals.readsRs1, signals.readsRs2]

theorem newEX_hazard (h : s.LatchInv) (moving : s.dStallActive = false)
    (hazard : s.hazardStall = true)
    : s.newEX = nop .bubble := by
  have legal : s.idInst.isLegal = true := by
    by_contra illegal
    simp [h.hazardStall_illegal (by simpa using illegal)] at hazard
  simp [newEX, moving, legal, hazard]

theorem inEX_newEX (h : s.LatchInv) : s.newEX.InEX := by
  cases moving : s.dStallActive with
  | true => simpa [newEX, moving] using h.inEX
  | false =>
      cases legal : s.idInst.isLegal with
      | false => simpa [h.newEX_illegal moving legal] using inEX_nop (by decide)
      | true =>
          cases hazard : s.hazardStall with
          | true => simpa [h.newEX_hazard moving hazard] using inEX_nop (by decide)
          | false =>
              obtain ⟨same, flight, sound⟩ :=
                h.newEX_issued (held_free.mpr ⟨moving, hazard⟩) legal
              exact {
                kind := h.inID.kind.of_control same
                empty := fun idle => by
                  rw [(Instruction.sameControl same).isNop]
                  exact h.inID.empty (flight ▸ idle)
                decoded := fun busy => (h.inID.decoded (flight ▸ busy)).of_control same
                legal := (Instruction.sameControl same).isLegal.trans legal
                fault := sound }

theorem inID_newID (h : s.LatchInv) : s.newID.InID := by
  rcases s.newID_cases with ⟨_, same⟩ | ⟨_, _, status, bubble, same⟩ | ⟨_, decodes, same⟩
  · exact same ▸ h.inID
  · exact same ▸ inID_nop bubble
  · have busy : s.ifInst.isNop = false := by
      by_contra empty
      simp [CycleState.decodes, empty] at decodes
    rw [same]
    exact (h.fetched busy).inID s.simAfterMEM

variable [CacheUnit κ]

theorem inv_next (h : s.LatchInv) : s.next.LatchInv where
  fetched := fun busy => by
    rcases s.newIF_cases with ⟨pc, status, same⟩ | ⟨pc, status, same⟩ | ⟨status, same⟩
    · simp [next, same, fetchSlot, nop] at busy
    · simpa [next, same] using (fetched_simIF _ _).withStatus status
    · simp only [next, same] at busy ⊢
      exact (h.fetched busy).withStatus status
  inID := by
    simp only [next]
    split
    · exact inID_nop (by decide)
    · exact h.inID_newID
  inEX := by
    simp only [next]
    split
    · exact inEX_nop (by decide)
    · exact h.inEX_newEX
  inMEM := by
    simp only [next]
    split
    · exact inMEM_nop _
    · exact h.inMEM_newMEM
  inWB := h.inWB_newWB
  stalled := fun active => by
    simp only [next]
    split
    · rfl
    have miss : s.accessesDCache = true ∨ s.dStallActive = true := by
      by_contra idle
      simp only [not_or, Bool.not_eq_true] at idle
      have zero : s.dStallLeft = 0 := by
        have := idle.2
        simp only [dStallActive, decide_eq_false_iff_not, BitVec.not_lt] at this
        exact BitVec.le_zero_iff.mp this
      simp [next, dStallActive, dStallLeftNext, idle.1, dStallTick, zero] at active
    cases frozen : s.dStallActive with
    | true => simpa [newMEM, frozen] using h.stalled frozen
    | false =>
        have access := miss.resolve_right (by simp [frozen])
        simp only [accessesDCache, Bool.and_eq_true, h.memActive_eq, Bool.not_eq_true'] at access
        rw [h.newMEM_active frozen access.1.1.2]
        exact access.2.1

end LatchInv

theorem LatchInv.iterate [CacheUnit κ] (h : s.LatchInv) (n : ℕ) : (next^[n] s).LatchInv :=
  (Runs.reachable_iterate s n).invariant h fun _ inv _ => inv.inv_next

/-- The latch invariant holds in every state the loop reaches. -/
theorem latchInv_reachable [CacheUnit κ] {past : CycleState κ} {iCache dCache : κ}
    {mem : MemoryStore} {s : CycleState κ}
    (reach : Runs.Reachable next (initCycle past iCache dCache mem) s)
    : s.LatchInv :=
  reach.invariant (latchInv_initCycle past iCache dCache mem) fun _ h _ => h.inv_next

end CycleState
end RiscvSim
