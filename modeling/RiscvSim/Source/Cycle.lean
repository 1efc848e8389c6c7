import RiscvSim.Source.Simulator
import RiscvSim.Source.Cache

/-! The five-stage pipeline of `runCycles`. The signals of one cycle are functions of the
state before it, named after the locals of the loop body and listed in its order:
WB, hazard detection, MEM, EX, ID, IF, commit.
-/

namespace RiscvSim

/-- A micro-architectural no-operation with the given marking. -/
def nop (status : StageStatus) : Instruction where
  instruction := nopWord
  isLegal := true
  isNop := true
  status := status

/-- The pipeline registers. -/
structure PipelineInfo where
  ifInst : Instruction := nop .idle
  idInst : Instruction := nop .idle
  exInst : Instruction := nop .idle
  memInst : Instruction := nop .idle
  wbInst : Instruction := nop .idle

/-- The statics of the cycle simulator that its loop reads. `wasIStalled` and
`stalledForHazard` are never read and left out, like the output name.
-/
structure CycleState (κ : Type) extends PipelineInfo where
  simulator : Simulator
  iCache : κ
  dCache : κ
  cycleCount : U64
  dynRetired : U64
  pc : U64
  loadUseStallCount : U64
  squashNextIF : Bool
  iStallLeft : U64
  dStallLeft : U64
  justFinishedIStall : Bool

/-- The statics before the first `initSimulator` of a process. The simulator and cache
pointers are null there; the values standing for them are never used.
-/
def CycleState.fresh {κ : Type} (iCache dCache : κ) : CycleState κ where
  simulator := Simulator.new { startAddr := 0, numEntries := 0, memArr := fun _ => 0 }
  iCache := iCache
  dCache := dCache
  cycleCount := 0
  dynRetired := 0
  pc := 0
  loadUseStallCount := 0
  squashNextIF := false
  iStallLeft := 0
  dStallLeft := 0
  justFinishedIStall := false

/-- `initSimulator` after the caches are constructed. Every static is set here except
`justFinishedIStall`, which keeps its value from `past`.
-/
def initCycle {κ : Type} (past : CycleState κ) (iCache dCache : κ) (mem : MemoryStore)
    : CycleState κ :=
  { past with
    toPipelineInfo := {}
    simulator := Simulator.new mem
    iCache := iCache
    dCache := dCache
    cycleCount := 0
    dynRetired := 0
    pc := 0
    loadUseStallCount := 0
    squashNextIF := false
    iStallLeft := 0
    dStallLeft := 0 }

/-- `initSimulator`, called when the statics hold `past`. -/
def initSimulator (past : CycleState Cache) (iCacheConfig dCacheConfig : CacheConfig)
    (mem : MemoryStore) : CycleState Cache :=
  initCycle past (Cache.new iCacheConfig) (Cache.new dCacheConfig) mem

/-- The value an instruction past MEM forwards: the loaded word or the ALU result. -/
def Instruction.result (inst : Instruction) : U64 :=
  if inst.readsMem then inst.memResult else inst.arithResult

/-- One forwarding block: the operands of `inst` that `src` produces are replaced by `fwd`.
`unshadowed` is the block's test that no nearer producer writes the same register.
-/
def forwardFrom (src : Instruction) (fwd : U64) (unshadowed : Bool) (inst : Instruction)
    : Instruction :=
  if !src.isNop && src.writesRd && src.rd != 0 then
    { inst with
      op1Val :=
        if inst.readsRs1 && inst.rs1 == src.rd && unshadowed then fwd else inst.op1Val
      op2Val :=
        if inst.readsRs2 && inst.rs2 == src.rd && unshadowed then fwd else inst.op2Val }
  else inst

/-- Whether `producer` has `consumer`'s target as its own: the guards of the forwarding
blocks, which do not test `isNop`.
-/
def Instruction.shadows (producer consumer : Instruction) : Bool :=
  producer.writesRd && producer.rd == consumer.rd

namespace CycleState

section Signals

variable {κ : Type} [CacheUnit κ] (s : CycleState κ)

-----------------------------------------------------------------------------------------
-- Stall counters
-----------------------------------------------------------------------------------------

def dStallActive : Bool := 0 < s.dStallLeft

def iStallTick : U64 := if 0 < s.iStallLeft then s.iStallLeft - 1 else s.iStallLeft

def dStallTick : U64 := if 0 < s.dStallLeft then s.dStallLeft - 1 else s.dStallLeft

/-- Unlike the D-cache stall this is checked after the counter has ticked. -/
def iStallActive : Bool := 0 < s.iStallTick

-----------------------------------------------------------------------------------------
-- WB stage
-----------------------------------------------------------------------------------------

/-- The instruction in MEM carries a memory exception. -/
def memFaulted : Bool := !s.memInst.isNop && s.memInst.memException

def newWB : Instruction :=
  if s.dStallActive then nop .bubble
  else if s.memFaulted then nop .squashed
  else
    let newWB := (s.simulator.simWB s.memInst).1
    if newWB.isNop then { newWB with status := s.memInst.status } else newWB

def simAfterWB : Simulator :=
  if s.dStallActive || s.memFaulted then s.simulator else (s.simulator.simWB s.memInst).2

def wbMemException : Bool :=
  if s.dStallActive then false
  else if s.memFaulted then true
  else !s.newWB.isLegal || s.newWB.memException

def dynRetiredNext : U64 :=
  if !s.dStallActive && !s.memFaulted
      && !s.newWB.isNop && s.newWB.isLegal && !s.newWB.memException then s.dynRetired + 1
  else s.dynRetired

/-- `nextPC` once the WB stage has run. -/
def nextPCAfterWB : U64 :=
  if s.dStallActive then s.pc + 4
  else if s.memFaulted then exceptionHandler
  else if !s.newWB.isLegal || s.newWB.memException then s.newWB.nextPC
  else s.pc + 4

-----------------------------------------------------------------------------------------
-- Hazard detection
-----------------------------------------------------------------------------------------

def idIsBranchLike : Bool :=
  !s.idInst.isNop && (s.idInst.opcode == opBranch || s.idInst.opcode == opJalr)

def loadUseStall : Bool :=
  !s.dStallActive
  && (!s.exInst.isNop && s.exInst.readsMem && !s.exInst.writesMem && s.exInst.rd != 0
    && !s.idInst.isNop && !s.idIsBranchLike)
  && ((s.idInst.readsRs1 && s.idInst.rs1 == s.exInst.rd)
    || (s.idInst.readsRs2 && s.idInst.rs2 == s.exInst.rd && !s.idInst.writesMem))

/-- The branch in ID needs the result of the instruction in EX. -/
def branchExStall : Bool :=
  !s.dStallActive && s.idIsBranchLike
  && (!s.exInst.isNop && s.exInst.rd != 0 && s.exInst.writesRd)
  && ((s.idInst.readsRs1 && s.idInst.rs1 == s.exInst.rd)
    || (s.idInst.readsRs2 && s.idInst.rs2 == s.exInst.rd))

/-- The branch in ID needs the result of the load in MEM. -/
def branchMemStall : Bool :=
  !s.dStallActive && s.idIsBranchLike && !s.branchExStall
  && (!s.memInst.isNop && s.memInst.rd != 0
    && s.memInst.writesRd && s.memInst.readsMem && !s.memInst.writesMem)
  && ((s.idInst.readsRs1 && s.idInst.rs1 == s.memInst.rd)
    || (s.idInst.readsRs2 && s.idInst.rs2 == s.memInst.rd))

def branchDataStall : Bool := s.branchExStall || s.branchMemStall

def exBubbleFromBranchStall : Bool := s.exInst.isNop && s.exInst.status == .bubble

def loadUseEvent : Bool :=
  s.loadUseStall
  || (s.branchExStall && s.exInst.readsMem && !s.exInst.writesMem)
  || (s.branchMemStall && !s.exBubbleFromBranchStall)

def hazardStall : Bool := s.loadUseStall || s.branchDataStall

-----------------------------------------------------------------------------------------
-- MEM stage
-----------------------------------------------------------------------------------------

/-- The instruction in EX performs its MEM stage in this cycle. -/
def memActive : Bool :=
  !s.dStallActive && !s.exInst.isNop && s.exInst.status != .squashed

/-- The instruction leaving EX, with the WB-to-MEM store data and its address. -/
def memInput : Instruction :=
  let memInput := s.exInst
  let memInput :=
    if memInput.writesMem && !s.wbInst.isNop && s.wbInst.writesRd
        && s.wbInst.rd == memInput.rs2 && s.wbInst.rd != 0 then
      { memInput with op2Val := s.wbInst.result }
    else memInput
  if memInput.readsMem || memInput.writesMem then simAddrGen memInput else memInput

def memAfterAccess : Instruction × Simulator := s.simAfterWB.simMEM s.memInput

def newMEM : Instruction :=
  if s.dStallActive then s.memInst
  else if s.memActive then
    let newMEM := s.memAfterAccess.1
    if newMEM.isNop then { newMEM with status := s.exInst.status } else newMEM
  else nop s.exInst.status

def simAfterMEM : Simulator := if s.memActive then s.memAfterAccess.2 else s.simAfterWB

/-- The D-cache is accessed: functional access first, and only if it did not fault. -/
def accessesDCache : Bool :=
  s.memActive && (s.memInput.readsMem || s.memInput.writesMem)
  && (!s.memAfterAccess.1.memException && s.memAfterAccess.1.isLegal)

def dCacheAccess : Bool × κ :=
  CacheUnit.access s.dCache s.memInput.memAddress (if s.memInput.writesMem then .write else .read)

def dCacheNext : κ := if s.accessesDCache then s.dCacheAccess.2 else s.dCache

def dStallLeftNext : U64 :=
  if s.accessesDCache && !s.dCacheAccess.1 then CacheUnit.missLatency s.dCacheAccess.2
  else s.dStallTick

-----------------------------------------------------------------------------------------
-- EX stage
-----------------------------------------------------------------------------------------

/-- The operands handed to `simEX`, patched from the three older latches. -/
def exInput : Instruction :=
  let exInput := forwardFrom s.exInst s.exInst.arithResult true s.idInst
  let exInput := forwardFrom s.memInst s.memInst.result (!s.exInst.shadows s.memInst) exInput
  forwardFrom s.wbInst s.wbInst.result
    (!s.exInst.shadows s.wbInst && !s.memInst.shadows s.wbInst) exInput

def newEX : Instruction :=
  if s.dStallActive then s.exInst
  else if !s.idInst.isNop && !s.idInst.isLegal then nop .squashed
  else if s.hazardStall then nop .bubble
  else
    let newEX := Simulator.simEX s.exInput
    if newEX.isNop then { newEX with status := s.idInst.status } else newEX

-----------------------------------------------------------------------------------------
-- ID stage
-----------------------------------------------------------------------------------------

/-- The instruction in ID with its operands forwarded for branch resolution. -/
def idEval : Instruction :=
  if !s.dStallActive && !s.idInst.isNop then
    let idEval := forwardFrom s.newMEM s.newMEM.result true s.idInst
    let idEval := forwardFrom s.newWB s.newWB.result (!s.newMEM.shadows s.newWB) idEval
    forwardFrom s.wbInst s.wbInst.result
      (!s.newMEM.shadows s.wbInst && !s.newWB.shadows s.wbInst) idEval
  else s.idInst

def applyDeferredSquash : Bool := s.squashNextIF

/-- The illegal instruction still in ID raises its exception again. -/
def illegalInID : Bool := !s.applyDeferredSquash && !s.idInst.isNop && !s.idInst.isLegal

def idWillAdvance : Bool := !s.hazardStall && !s.dStallActive

/-- The instruction in ID is a branch, JAL or JALR and is resolved in this cycle. -/
def resolvesInID : Bool :=
  (s.idWillAdvance && !s.illegalInID && !s.wbMemException && !s.idInst.isNop)
  && (s.idEval.opcode == opBranch || s.idEval.opcode == opJalr || s.idEval.opcode == opJal)

def resolved : Instruction := simNextPCResolution s.idEval

def branchTaken : Bool := s.resolvesInID && s.resolved.nextPC != s.idEval.pc + 4

/-- The last arm of the ID stage: the instruction in IF is decoded. -/
def decodes : Bool :=
  !(s.dStallActive || s.hazardStall) && !s.applyDeferredSquash
  && !(s.branchTaken && !s.illegalInID && !s.wbMemException)
  && !s.iStallActive && !s.ifInst.isNop

def decoded : Instruction × Simulator := s.simAfterMEM.simID s.ifInst

/-- What moves into ID, before the squash of a memory exception. -/
def newID : Instruction :=
  if s.dStallActive || s.hazardStall then s.idInst
  else if s.applyDeferredSquash then nop .squashed
  else if s.branchTaken && !s.illegalInID && !s.wbMemException then nop .squashed
  else if s.iStallActive then nop .bubble
  else if s.ifInst.isNop then
    nop (if s.ifInst.status = .idle then .idle else .bubble)
  else s.decoded.1

def simAfterID : Simulator := if s.decodes then s.decoded.2 else s.simAfterMEM

def illegalDecoded : Bool :=
  s.decodes
  && (!s.newID.isLegal || (s.newID.instruction == 0 && !s.newID.isNop && !s.newID.isHalt))

def idIllegalException : Bool := s.illegalInID || s.illegalDecoded

/-- `nextPC` once the ID stage has run. -/
def nextPC : U64 :=
  if s.illegalDecoded then s.newID.nextPC
  else if s.resolvesInID then s.resolved.nextPC
  else if s.illegalInID then s.idInst.nextPC
  else s.nextPCAfterWB

/-- `iStallLeft` once the ID stage has run: the arm of a taken branch clears it. -/
def iStallAfterID : U64 :=
  if !(s.dStallActive || s.hazardStall) && !s.applyDeferredSquash
      && (s.branchTaken && !s.illegalInID && !s.wbMemException) then 0
  else s.iStallTick

-----------------------------------------------------------------------------------------
-- IF stage
-----------------------------------------------------------------------------------------

/-- What the IF stage writes. -/
structure FetchResult (κ : Type) where
  newIF : Instruction
  iCache : κ
  iStallLeft : U64
  pc : U64
  squashNextIF : Bool
  justFinishedIStall : Bool

/-- The slot IF shows while it has no instruction. -/
def fetchSlot (pc : U64) (status : StageStatus) : Instruction :=
  { nop .idle with pc := pc, status := status }

/-- A fetch through the I-cache: on a miss the slot is empty and PC stays at the target. -/
def fetchThrough (target : U64) (iStallLeft : U64) (onMiss onHit : StageStatus)
    : FetchResult κ :=
  let (iHit, iCache) := CacheUnit.access s.iCache target .read
  if iHit then
    { newIF := { s.simAfterID.simIF target with status := onHit }
      iCache := iCache
      iStallLeft := iStallLeft
      pc := target + 4
      squashNextIF := false
      justFinishedIStall := false }
  else
    { newIF := fetchSlot target onMiss
      iCache := iCache
      iStallLeft := CacheUnit.missLatency iCache
      pc := target
      squashNextIF := false
      justFinishedIStall := false }

/-- A fetch that does not access the I-cache. -/
def fetchDirect : FetchResult κ where
  newIF := s.simAfterID.simIF s.pc
  iCache := s.iCache
  iStallLeft := s.iStallAfterID
  pc := s.pc + 4
  squashNextIF := false
  justFinishedIStall := false

/-- IF keeps PC and shows `newIF`. -/
def fetchHold (newIF : Instruction) (justFinishedIStall : Bool) : FetchResult κ where
  newIF := newIF
  iCache := s.iCache
  iStallLeft := s.iStallAfterID
  pc := s.pc
  squashNextIF := false
  justFinishedIStall := justFinishedIStall

def newIdHasBranch : Bool :=
  !s.newID.isNop
  && (s.newID.opcode == opBranch || s.newID.opcode == opJal || s.newID.opcode == opJalr)

/-- The IF stage. The source tests `idIllegalException` once more inside the last arm,
where the second arm has already excluded it.
-/
def fetch : FetchResult κ :=
  if s.wbMemException then
    s.fetchThrough s.nextPC 0 .normal .normal
  else if s.idIllegalException then
    { newIF := fetchSlot s.pc .normal
      iCache := (CacheUnit.access s.iCache s.pc .read).2
      iStallLeft := s.iStallAfterID
      pc := s.nextPC
      squashNextIF := true
      justFinishedIStall := false }
  else if s.branchTaken then
    s.fetchThrough s.nextPC s.iStallAfterID .idle .normal
  else if s.dStallActive then
    if s.iStallActive then s.fetchHold (fetchSlot s.pc .normal) false
    else if s.ifInst.isNop then s.fetchDirect
    else s.fetchHold s.ifInst false
  else if s.hazardStall then
    if s.iStallActive then s.fetchHold (fetchSlot s.pc .normal) false
    else if s.branchDataStall then
      s.fetchHold { s.ifInst with status := .speculative } false
    else s.fetchHold s.ifInst false
  else if s.iStallActive then
    s.fetchHold (fetchSlot s.pc .normal) true
  else if s.justFinishedIStall then
    s.fetchDirect
  else
    s.fetchThrough s.pc s.iStallAfterID .normal
      (if s.newIdHasBranch then .speculative else .normal)

-----------------------------------------------------------------------------------------
-- One cycle and the loop
-----------------------------------------------------------------------------------------

/-- The state after one iteration of the loop. -/
def next : CycleState κ where
  ifInst := s.fetch.newIF
  idInst := if s.wbMemException then nop .squashed else s.newID
  exInst := if s.wbMemException then nop .squashed else s.newEX
  memInst := if s.wbMemException then nop .squashed else s.newMEM
  wbInst := s.newWB
  simulator := s.simAfterID
  iCache := s.fetch.iCache
  dCache := s.dCacheNext
  cycleCount := s.cycleCount + 1
  dynRetired := s.dynRetiredNext
  pc := s.fetch.pc
  loadUseStallCount :=
    if s.loadUseEvent then s.loadUseStallCount + 1 else s.loadUseStallCount
  squashNextIF := s.fetch.squashNextIF
  iStallLeft := s.fetch.iStallLeft
  dStallLeft := s.dStallLeftNext
  justFinishedIStall := s.fetch.justFinishedIStall

/-- The iteration reaches HALT: `newWB.isHalt`. -/
def halts : Bool := s.newWB.isHalt

/-- `runCycles` with a positive limit. With limit 0 the source loops until HALT: it reaches
HALT exactly when some positive limit does.
-/
def runCycles : Nat → CycleState κ → CycleState κ × Status
  | 0, s => (s, .success)
  | cycles + 1, s => if s.halts then (s.next, .halt) else runCycles cycles s.next

end Signals
end CycleState
end RiscvSim
