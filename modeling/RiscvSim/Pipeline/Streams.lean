import RiscvSim.Pipeline.FrontEnd

/-! The instructions that pass from stage to stage. Every latch is a one-place buffer between
the stream that enters it and the stream that leaves it.
-/

namespace RiscvSim

/-- What identifies an instruction on its way to WB. MEM replaces a NOP by a fresh one, so a
NOP keeps its place in the stream but not its PC.
-/
def Instruction.token (inst : Instruction) : Option (U64 × U64) :=
  if inst.isNop then none else some (inst.pc, inst.instruction)

/-- A latch as a buffer: the program instruction it holds, if it holds one. -/
def Instruction.slot (inst : Instruction) : List Instruction :=
  if inst.inFlight then [inst] else []

theorem Instruction.token_of_control {left right : Instruction}
    (same : left.control = right.control) : left.token = right.token := by
  have fields := Instruction.sameControl same
  simp [Instruction.token, fields.isNop, fields.pc, fields.instruction]

theorem slot_nop {status : StageStatus} (bubble : status ≠ .normal)
    : (nop status).slot = [] := by
  simpa [Instruction.slot, Instruction.inFlight, nop] using bubble

namespace CycleState

variable {κ : Type}

/-- The instruction that enters ID in this cycle, as the latch holds it afterwards. -/
def entersID (s : CycleState κ) : Option Instruction :=
  if s.decodes && !s.wbMemException then some s.newID else none

/-- The instruction that leaves ID in this cycle, to EX or, if it is illegal, to nowhere. -/
def leavesID (s : CycleState κ) : Option Instruction :=
  if !s.held && !s.wbMemException && s.idInst.inFlight then some s.idInst else none

def entersEX (s : CycleState κ) : Option Instruction :=
  if !s.dStallActive && !s.wbMemException && s.newEX.inFlight then some s.newEX else none

def entersMEM (s : CycleState κ) : Option Instruction :=
  if !s.dStallActive && !s.wbMemException && s.newMEM.inFlight then some s.newMEM else none

def entersWB (s : CycleState κ) : Option Instruction :=
  if s.newWB.inFlight then some s.newWB else none

/-- The next PC the pipeline resolves for the instruction in ID: the target computed for a
branch, JAL or JALR and PC + 4 otherwise; the handler for an illegal instruction.
-/
def resolvedPC (s : CycleState κ) : U64 :=
  if !s.idInst.isLegal then exceptionHandler
  else if s.idInst.opcode = opBranch ∨ s.idInst.opcode = opJalr ∨ s.idInst.opcode = opJal then
    s.resolved.nextPC
  else s.idInst.pc + 4

/-- The instruction that leaves ID in this cycle, with the next PC resolved for it. -/
def leavesResolved (s : CycleState κ) : Option (Instruction × U64) :=
  s.leavesID.map fun inst => (inst, s.resolvedPC)

variable {s : CycleState κ}

variable [CacheUnit κ]

theorem next_idInst (trap : s.wbMemException = false) : s.next.idInst = s.newID := by
  simp [next, trap]

theorem next_exInst (trap : s.wbMemException = false) : s.next.exInst = s.newEX := by
  simp [next, trap]

theorem next_memInst (trap : s.wbMemException = false) : s.next.memInst = s.newMEM := by
  simp [next, trap]

/-- ID takes an instruction exactly as another leaves or the latch is empty. -/
theorem slotID_moves (trap : s.wbMemException = false)
    : s.idInst.slot ++ s.entersID.toList = s.leavesID.toList ++ s.next.idInst.slot := by
  rw [next_idInst trap]
  rcases s.newID_cases with ⟨frozen, same⟩ | ⟨moving, idle, status, bubble, same⟩
    | ⟨moving, decodes, same⟩
  · simp [entersID, leavesID, decodes_eq, frozen, same]
  · simp only [entersID, leavesID, idle, moving, trap, same, slot_nop bubble]
    cases flight : s.idInst.inFlight <;> simp [Instruction.slot, flight]
  · have flight := newID_inFlight moving
    simp only [entersID, leavesID, decodes, moving, trap, Instruction.slot, flight]
    cases flight : s.idInst.inFlight <;> simp

theorem bubble_inFlight {status : StageStatus} (bubble : status ≠ .normal)
    : (nop status).inFlight = false := by
  simpa [Instruction.inFlight, nop] using bubble

/-- Where the program instruction in ID comes from. -/
theorem next_id_inFlight (flight : s.next.idInst.inFlight = true)
    : s.wbMemException = false
      ∧ ((s.held = true ∧ s.idInst.inFlight = true) ∨ (s.held = false ∧ s.decodes = true)) := by
  cases trap : s.wbMemException with
  | true => simp [next, trap, bubble_inFlight] at flight
  | false =>
      rw [next_idInst trap] at flight
      cases frozen : s.held with
      | false => exact ⟨rfl, .inr ⟨rfl, newID_inFlight frozen ▸ flight⟩⟩
      | true => exact ⟨rfl, .inl ⟨rfl, newID_held frozen ▸ flight⟩⟩

namespace LatchInv

variable (h : s.LatchInv)
include h

/-- Where the program instruction in EX comes from. -/
theorem next_ex_inFlight (flight : s.next.exInst.inFlight = true)
    : s.wbMemException = false
      ∧ ((s.dStallActive = true ∧ s.exInst.inFlight = true)
        ∨ (s.held = false ∧ s.idInst.inFlight = true ∧ s.idInst.isLegal = true)) := by
  cases trap : s.wbMemException with
  | true => simp [next, trap, bubble_inFlight] at flight
  | false =>
      rw [next_exInst trap] at flight
      refine ⟨rfl, ?_⟩
      cases active : s.dStallActive with
      | true => exact .inl ⟨rfl, by simpa [newEX, active] using flight⟩
      | false =>
          right
          have legal : s.idInst.isLegal = true := by
            by_contra illegal
            simp [h.newEX_illegal active (by simpa using illegal), bubble_inFlight] at flight
          have free : s.hazardStall = false := by
            by_contra hazard
            simp [h.newEX_hazard active (by simpa using hazard), bubble_inFlight] at flight
          have moving := held_free.mpr ⟨active, free⟩
          exact ⟨moving, (h.newEX_issued moving legal).2.1 ▸ flight, legal⟩

/-- Where the program instruction in MEM comes from. -/
theorem next_mem_inFlight (flight : s.next.memInst.inFlight = true)
    : s.wbMemException = false
      ∧ ((s.dStallActive = true ∧ s.memInst.inFlight = true)
        ∨ (s.dStallActive = false ∧ s.exInst.inFlight = true)) := by
  cases trap : s.wbMemException with
  | true => simp [next, trap, bubble_inFlight] at flight
  | false =>
      rw [next_memInst trap] at flight
      refine ⟨rfl, ?_⟩
      cases active : s.dStallActive with
      | true => exact .inl ⟨rfl, by simpa [newMEM, active] using flight⟩
      | false => exact .inr ⟨rfl, h.newMEM_inFlight active ▸ flight⟩

omit [CacheUnit κ] in
/-- EX receives the legal instructions that leave ID. -/
theorem entersEX_eq (trap : s.wbMemException = false)
    : s.entersEX.map Instruction.token
      = (s.leavesID.filter Instruction.isLegal).map Instruction.token := by
  cases active : s.dStallActive with
  | true => simp [entersEX, leavesID, held, active]
  | false =>
      cases legal : s.idInst.isLegal with
      | false =>
          have squashed := h.newEX_illegal active legal
          have idle : s.newEX.inFlight = false := by simp [squashed, nop, Instruction.inFlight]
          simp only [entersEX, leavesID, idle]
          cases s.idInst.inFlight <;> cases s.held <;> simp [Option.filter, legal, trap]
      | true =>
          cases hazard : s.hazardStall with
          | true =>
              have idle : s.newEX.inFlight = false := by
                simp [h.newEX_hazard active hazard, nop, Instruction.inFlight]
              simp [entersEX, leavesID, held, active, hazard, idle]
          | false =>
              have moving := held_free.mpr ⟨active, hazard⟩
              obtain ⟨same, flight, _⟩ := h.newEX_issued moving legal
              have token := Instruction.token_of_control same
              simp only [entersEX, leavesID, active, moving, trap, flight]
              cases s.idInst.inFlight <;> simp [Option.filter, legal, token]

/-- The legal content of ID and EX's stream. -/
theorem slotEX_enters (trap : s.wbMemException = false)
    : (s.idInst.slot.filter Instruction.isLegal).map Instruction.token
        ++ ((s.entersID.filter Instruction.isLegal).map Instruction.token).toList
      = (s.entersEX.map Instruction.token).toList
        ++ (s.next.idInst.slot.filter Instruction.isLegal).map Instruction.token := by
  rw [h.entersEX_eq trap]
  have moves := congrArg (fun list => (list.filter Instruction.isLegal).map Instruction.token)
    (slotID_moves trap)
  simp only [List.filter_append, List.map_append] at moves
  have filtered (event : Option Instruction)
      : (event.toList.filter Instruction.isLegal).map Instruction.token
        = ((event.filter Instruction.isLegal).map Instruction.token).toList := by
    cases event with
    | none => rfl
    | some inst => cases legal : inst.isLegal <;> simp [Option.filter, legal]
  rwa [filtered, filtered] at moves

omit [CacheUnit κ] in
theorem newMEM_token (moving : s.dStallActive = false) : s.newMEM.token = s.exInst.token := by
  cases busy : s.exInst.isNop with
  | true => simp [h.newMEM_nop moving busy, Instruction.token, busy, nop]
  | false => exact Instruction.token_of_control (h.newMEM_control moving busy)

theorem slotMEM_enters (trap : s.wbMemException = false)
    : s.exInst.slot.map Instruction.token ++ (s.entersEX.map Instruction.token).toList
      = (s.entersMEM.map Instruction.token).toList
        ++ s.next.exInst.slot.map Instruction.token := by
  rw [next_exInst trap]
  cases active : s.dStallActive with
  | true => simp [entersEX, entersMEM, active, newEX]
  | false =>
      have flight := h.newMEM_inFlight active
      have token := h.newMEM_token active
      simp only [entersEX, entersMEM, active, trap, flight, Instruction.slot]
      cases s.exInst.inFlight <;> cases s.newEX.inFlight <;> simp [token]

theorem slotWB_enters (trap : s.wbMemException = false)
    : s.memInst.slot.map Instruction.token ++ (s.entersMEM.map Instruction.token).toList
      = (s.entersWB.map Instruction.token).toList
        ++ s.next.memInst.slot.map Instruction.token := by
  rw [next_memInst trap]
  cases active : s.dStallActive with
  | true => simp [entersMEM, entersWB, active, newMEM, newWB, nop, Instruction.inFlight]
  | false =>
      obtain ⟨same, flight, _⟩ := h.newWB_eq active (h.calm_iff.mp trap)
      have token := Instruction.token_of_control same
      simp only [entersMEM, entersWB, active, trap, flight, Instruction.slot]
      cases s.memInst.inFlight <;> cases s.newMEM.inFlight <;> simp [token]

end LatchInv

-----------------------------------------------------------------------------------------
-- The chain of addresses
-----------------------------------------------------------------------------------------

omit [CacheUnit κ] in
/-- A legal branch, JAL or JALR is resolved in the cycle in which it leaves ID. -/
theorem LatchInv.resolvesInID_eq (h : s.LatchInv) (trap : s.wbMemException = false)
    (moving : s.held = false) (legal : s.idInst.isLegal = true)
    (transfers
      : s.idInst.opcode = opBranch ∨ s.idInst.opcode = opJalr ∨ s.idInst.opcode = opJal)
    : s.resolvesInID = true := by
  have opcode := (Instruction.sameControl s.control_idEval).opcode
  have quiet : s.illegalInID = false := by simp [illegalInID, legal]
  have busy : s.idInst.isNop = false := by
    by_contra nop
    have apart := h.inID.kind.untransferred (.inr (by simpa using nop))
    rcases transfers with branch | jalr | jal
    · exact apart.1 branch
    · exact apart.2.1 jalr
    · exact apart.2.2 jal
  rw [held_free] at moving
  simpa [resolvesInID, idWillAdvance, moving, quiet, trap, busy, opcode, or_assoc]
    using transfers

omit [CacheUnit κ] in
/-- The two notions of the next PC agree when the instruction leaves ID. -/
theorem LatchInv.followPC_eq_resolvedPC (h : s.LatchInv) (trap : s.wbMemException = false)
    (moving : s.held = false)
    : s.followPC = s.resolvedPC := by
  cases legal : s.idInst.isLegal with
  | false => simp [followPC, resolvedPC, legal]
  | true =>
      by_cases transfers
        : s.idInst.opcode = opBranch ∨ s.idInst.opcode = opJalr ∨ s.idInst.opcode = opJal
      · have resolves := h.resolvesInID_eq trap moving legal transfers
        simp [followPC, resolvedPC, legal, resolves, transfers]
      · have opcode := (Instruction.sameControl s.control_idEval).opcode
        have waits : s.resolvesInID = false := by
          simp only [not_or] at transfers
          simp [resolvesInID, opcode, transfers]
        simp [followPC, resolvedPC, legal, waits, transfers]

/-- The address still to be decoded, if the instruction before it has left ID. -/
def pendingPC (s : CycleState κ) : List U64 := if s.idInst.inFlight then [] else [s.fetchPC]

/-- ID receives the instruction at the address that the one before it resolved. -/
theorem FrontInv.pendingPC_moves (h : s.FrontInv) (l : s.LatchInv)
    (trap : s.wbMemException = false)
    : s.pendingPC ++ (s.leavesResolved.map Prod.snd).toList
      = (s.entersID.map Instruction.pc).toList ++ s.next.pendingPC := by
  have target (undecoded : s.decodes = false) :=
    h.fetchPC_next l trap (by simp [illegalDecoded, undecoded])
  simp only [pendingPC, next_idInst trap]
  rcases s.newID_cases with ⟨frozen, same⟩ | ⟨moving, idle, status, bubble, same⟩
    | ⟨moving, decodes, same⟩
  · obtain ⟨untaken, undecoded⟩ := held_idle frozen
    rw [same, target undecoded, untaken, undecoded]
    simp [leavesResolved, leavesID, entersID, frozen, undecoded]
  · have empty : s.newID.inFlight = false := by rw [newID_inFlight moving, idle]
    simp only [leavesResolved, leavesID, entersID, moving, trap, idle, empty, target idle]
    cases taken : s.branchTaken with
    | true =>
        have flight := l.id_inFlight (branchTaken_clear taken).2.2.2
        simp [flight, l.followPC_eq_resolvedPC trap moving]
    | false =>
        cases flight : s.idInst.inFlight with
        | true =>
            simp [← l.followPC_eq_resolvedPC trap moving, h.followPC_eq flight taken]
        | false => simp
  · have untaken := (decodes_clear decodes).2.2.1
    have busy := (decodes_clear decodes).2.2.2.2
    have full : s.newID.inFlight = true := by rw [newID_inFlight moving, decodes]
    have here : s.newID.pc = s.fetchPC := by simp [newID_pc decodes, fetchPC, busy]
    simp only [leavesResolved, leavesID, entersID, moving, trap, decodes, full]
    cases flight : s.idInst.inFlight with
    | true =>
        simp [← l.followPC_eq_resolvedPC trap moving, h.followPC_eq flight untaken, here]
    | false => simp [here]

section Runs

variable {n : ℕ} (calm : ∀ m < n, (next^[m] s).wbMemException = false)
include calm

/-- What has entered ID has left it in the same order, up to the one instruction in it. -/
theorem stream_id
    : s.idInst.slot ++ Runs.events next entersID s n
      = Runs.events next leavesID s n ++ (next^[n] s).idInst.slot :=
  Runs.buffer_law (fun t => t.idInst.slot) entersID leavesID s n fun m earlier => by
    rw [Function.iterate_succ_apply']
    exact slotID_moves (calm m earlier)

/-- The legal instructions that entered ID have entered EX in the same order. -/
theorem stream_ex (h : s.LatchInv)
    : (s.idInst.slot.filter Instruction.isLegal).map Instruction.token
        ++ ((Runs.events next entersID s n).filter Instruction.isLegal).map Instruction.token
      = (Runs.events next entersEX s n).map Instruction.token
        ++ ((next^[n] s).idInst.slot.filter Instruction.isLegal).map Instruction.token := by
  rw [Runs.filter_events, Runs.map_events, Runs.map_events]
  refine Runs.buffer_law
    (fun t => (t.idInst.slot.filter Instruction.isLegal).map Instruction.token) _ _ s n
    fun m earlier => ?_
  rw [Function.iterate_succ_apply']
  exact (h.iterate m).slotEX_enters (calm m earlier)

/-- What has entered EX has entered MEM in the same order. -/
theorem stream_mem (h : s.LatchInv)
    : s.exInst.slot.map Instruction.token
        ++ (Runs.events next entersEX s n).map Instruction.token
      = (Runs.events next entersMEM s n).map Instruction.token
        ++ (next^[n] s).exInst.slot.map Instruction.token := by
  rw [Runs.map_events, Runs.map_events]
  refine Runs.buffer_law (fun t => t.exInst.slot.map Instruction.token) _ _ s n
    fun m earlier => ?_
  rw [Function.iterate_succ_apply']
  exact (h.iterate m).slotMEM_enters (calm m earlier)

/-- What has entered MEM has entered WB in the same order. -/
theorem stream_wb (h : s.LatchInv)
    : s.memInst.slot.map Instruction.token
        ++ (Runs.events next entersMEM s n).map Instruction.token
      = (Runs.events next entersWB s n).map Instruction.token
        ++ (next^[n] s).memInst.slot.map Instruction.token := by
  rw [Runs.map_events, Runs.map_events]
  refine Runs.buffer_law (fun t => t.memInst.slot.map Instruction.token) _ _ s n
    fun m earlier => ?_
  rw [Function.iterate_succ_apply']
  exact (h.iterate m).slotWB_enters (calm m earlier)

/-- The addresses that enter ID are those resolved by the instructions that left it, as long
as the front end is consistent.
-/
theorem stream_pc (h : s.LatchInv) (front : ∀ m < n, (next^[m] s).FrontInv)
    : s.pendingPC ++ (Runs.events next leavesResolved s n).map Prod.snd
      = (Runs.events next entersID s n).map Instruction.pc ++ (next^[n] s).pendingPC := by
  rw [Runs.map_events, Runs.map_events]
  exact Runs.buffer_law pendingPC _ _ s n fun m earlier => by
    rw [Function.iterate_succ_apply']
    exact (front m earlier).pendingPC_moves (h.iterate m) (calm m earlier)

end Runs

end CycleState
end RiscvSim
