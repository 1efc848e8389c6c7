import RiscvSim.Source.Cycle

/-! The control signals of a decoded word: which combinations `simDecode` produces, and
that no later stage changes them.
-/

namespace RiscvSim

/-- The classes of words the decoder distinguishes by its signals. -/
inductive SignalKind
  | halt
  | nop
  | register
  | immediate
  | load
  | store
  | branch
  | jalr
  | upper
  | illegal

/-- The signals `isHalt`, `isLegal`, `isNop`, `readsMem`, `writesMem`, `doesArithLogic`,
`writesRd`, `readsRs1` and `readsRs2`, in this order.
-/
abbrev Signals := Bool × Bool × Bool × Bool × Bool × Bool × Bool × Bool × Bool

def Instruction.signals (inst : Instruction) : Signals :=
  (inst.isHalt, inst.isLegal, inst.isNop, inst.readsMem, inst.writesMem,
    inst.doesArithLogic, inst.writesRd, inst.readsRs1, inst.readsRs2)

/-- The signals the decoder sets for each class. -/
def SignalKind.signals : SignalKind → Signals
  | .halt => (true, true, false, false, false, false, false, false, false)
  | .nop => (false, true, true, false, false, false, false, false, false)
  | .register => (false, true, false, false, false, true, true, true, true)
  | .immediate => (false, true, false, false, false, true, true, true, false)
  | .load => (false, true, false, true, false, false, true, true, false)
  | .store => (false, true, false, false, true, false, false, true, true)
  | .branch => (false, true, false, false, false, false, false, true, true)
  | .jalr => (false, true, false, false, false, true, true, true, false)
  | .upper => (false, true, false, false, false, true, true, false, false)
  | .illegal => (false, false, false, false, false, false, false, false, false)

/-- `funct3` names one of the six branch conditions. -/
def isBranchCode (funct3 : U64) : Prop :=
  funct3 = funct3Beq ∨ funct3 = funct3Bne ∨ funct3 = funct3Blt
  ∨ funct3 = funct3Bge ∨ funct3 = funct3Bltu ∨ funct3 = funct3Bgeu

/-- The opcodes of each class. HALT and NOP are single words, no jumps; an illegal word has
the opcode of a branch only with an unlisted condition.
-/
def SignalKind.Opcodes (kind : SignalKind) (inst : Instruction) : Prop :=
  match kind with
  | .halt | .nop => inst.opcode ≠ opBranch ∧ inst.opcode ≠ opJalr ∧ inst.opcode ≠ opJal
  | .register => inst.opcode = opInt ∨ inst.opcode = opIntW
  | .immediate => inst.opcode = opIntImm ∨ inst.opcode = opIntImmW
  | .load => inst.opcode = opLoad
  | .store => inst.opcode = opStore
  | .branch => inst.opcode = opBranch
  | .jalr => inst.opcode = opJalr
  | .upper => inst.opcode = opAuipc ∨ inst.opcode = opLui ∨ inst.opcode = opJal
  | .illegal =>
      inst.opcode ≠ opJalr ∧ inst.opcode ≠ opJal
      ∧ (inst.opcode = opBranch → ¬ isBranchCode inst.funct3)

/-- The signals of `inst` are those of one of the decoder's classes. Bubbles have the
signals of a NOP.
-/
def Instruction.HasKind (inst : Instruction) : Prop :=
  ∃ kind : SignalKind, inst.signals = kind.signals ∧ kind.Opcodes inst

/-- The arms of the decoder's switch, one case each. The words for HALT and NOP are
matched before the switch, so what their opcodes are is a premise.
-/
theorem hasKind_decodeSignals {inst : Instruction}
    (assumed : inst.signals = (false, true, false, false, false, false, false, false, false))
    (special
      : inst.instruction = haltWord ∨ inst.instruction = nopWord
        → inst.opcode ≠ opBranch ∧ inst.opcode ≠ opJalr ∧ inst.opcode ≠ opJal)
    : (decodeSignals inst).HasKind := by
  simp only [Instruction.signals, Prod.mk.injEq] at assumed
  have illegal (apart : inst.opcode ≠ opJalr ∧ inst.opcode ≠ opJal
        ∧ (inst.opcode = opBranch → ¬ isBranchCode inst.funct3))
      : Instruction.HasKind { inst with isLegal := false } :=
    ⟨.illegal, by simp [Instruction.signals, SignalKind.signals, assumed], apart⟩
  -- most arms also check `funct3` or `funct7`
  have checked {code : U64} (here : inst.opcode = code)
      (apart : code ≠ opBranch ∧ code ≠ opJalr ∧ code ≠ opJal) (listed : Prop)
      [Decidable listed] {decoded : Instruction} (kind : decoded.HasKind)
      : Instruction.HasKind (if listed then decoded else { inst with isLegal := false }) := by
    subst here
    split
    · exact kind
    · exact illegal ⟨apart.2.1, apart.2.2, fun branch => absurd branch apart.1⟩
  unfold decodeSignals
  by_cases halt : inst.instruction = haltWord
  · rw [if_pos halt]
    exact ⟨.halt, by simp [Instruction.signals, SignalKind.signals, assumed],
      special (.inl halt)⟩
  rw [if_neg halt]
  by_cases nop : inst.instruction = nopWord
  · rw [if_pos nop]
    exact ⟨.nop, by simp [Instruction.signals, SignalKind.signals, assumed],
      special (.inr nop)⟩
  rw [if_neg nop]
  by_cases int : inst.opcode = opInt
  · rw [if_pos int]
    exact checked int (by decide) _
      ⟨.register, by simp [Instruction.signals, SignalKind.signals, assumed], .inl int⟩
  rw [if_neg int]
  by_cases intW : inst.opcode = opIntW
  · rw [if_pos intW]
    exact checked intW (by decide) _
      ⟨.register, by simp [Instruction.signals, SignalKind.signals, assumed], .inr intW⟩
  rw [if_neg intW]
  by_cases load : inst.opcode = opLoad
  · rw [if_pos load]
    exact checked load (by decide) _
      ⟨.load, by simp [Instruction.signals, SignalKind.signals, assumed], load⟩
  rw [if_neg load]
  by_cases intImm : inst.opcode = opIntImm
  · rw [if_pos intImm]
    exact checked intImm (by decide) _
      ⟨.immediate, by simp [Instruction.signals, SignalKind.signals, assumed], .inl intImm⟩
  rw [if_neg intImm]
  by_cases intImmW : inst.opcode = opIntImmW
  · rw [if_pos intImmW]
    exact checked intImmW (by decide) _
      ⟨.immediate, by simp [Instruction.signals, SignalKind.signals, assumed], .inr intImmW⟩
  rw [if_neg intImmW]
  by_cases jalr : inst.opcode = opJalr
  · rw [if_pos jalr]
    exact ⟨.jalr, by simp [Instruction.signals, SignalKind.signals, assumed], jalr⟩
  rw [if_neg jalr]
  by_cases store : inst.opcode = opStore
  · rw [if_pos store]
    exact checked store (by decide) _
      ⟨.store, by simp [Instruction.signals, SignalKind.signals, assumed], store⟩
  rw [if_neg store]
  by_cases branch : inst.opcode = opBranch
  · rw [if_pos branch]
    split
    case isTrue _ =>
      exact ⟨.branch, by simp [Instruction.signals, SignalKind.signals, assumed], branch⟩
    case isFalse unlisted =>
      exact illegal ⟨jalr, by rw [branch]; decide, fun _ => unlisted⟩
  rw [if_neg branch]
  split
  case isTrue upper =>
    exact ⟨.upper, by simp [Instruction.signals, SignalKind.signals, assumed], upper⟩
  case isFalse other =>
    simp only [not_or] at other
    exact illegal ⟨jalr, other.2.2, fun same => absurd same branch⟩

/-- Every word decodes to exactly one class of signals. -/
theorem hasKind_simDecode (pc word : U64)
    : (simDecode { pc := pc, instruction := word }).HasKind := by
  refine hasKind_decodeSignals rfl ?_
  rintro (halt | nop)
  · have same : word = haltWord := halt
    subst same
    simp only [decodeFields]
    decide
  · have same : word = nopWord := nop
    subst same
    simp only [decodeFields]
    decide

/-- The signals of `inst`, each under its name. -/
structure Instruction.HasSignals (inst : Instruction)
    (isHalt isLegal isNop readsMem writesMem doesArithLogic writesRd readsRs1 readsRs2 : Bool)
    : Prop where
  isHalt : inst.isHalt = isHalt
  isLegal : inst.isLegal = isLegal
  isNop : inst.isNop = isNop
  readsMem : inst.readsMem = readsMem
  writesMem : inst.writesMem = writesMem
  doesArithLogic : inst.doesArithLogic = doesArithLogic
  writesRd : inst.writesRd = writesRd
  readsRs1 : inst.readsRs1 = readsRs1
  readsRs2 : inst.readsRs2 = readsRs2

namespace Instruction.HasKind

variable {inst : Instruction}

theorem nop (h : inst.HasKind) (nop : inst.isNop = true)
    : inst.HasSignals false true true false false false false false false := by
  obtain ⟨kind, signals, _⟩ := h
  cases kind <;> constructor <;> simp_all [Instruction.signals, SignalKind.signals]

theorem halt (h : inst.HasKind) (halt : inst.isHalt = true)
    : inst.HasSignals true true false false false false false false false := by
  obtain ⟨kind, signals, _⟩ := h
  cases kind <;> constructor <;> simp_all [Instruction.signals, SignalKind.signals]

theorem illegal (h : inst.HasKind) (illegal : inst.isLegal = false)
    : inst.HasSignals false false false false false false false false false := by
  obtain ⟨kind, signals, _⟩ := h
  cases kind <;> constructor <;> simp_all [Instruction.signals, SignalKind.signals]

theorem load (h : inst.HasKind) (reads : inst.readsMem = true)
    : inst.HasSignals false true false true false false true true false := by
  obtain ⟨kind, signals, _⟩ := h
  cases kind <;> constructor <;> simp_all [Instruction.signals, SignalKind.signals]

theorem store (h : inst.HasKind) (writes : inst.writesMem = true)
    : inst.HasSignals false true false false true false false true true := by
  obtain ⟨kind, signals, _⟩ := h
  cases kind <;> constructor <;> simp_all [Instruction.signals, SignalKind.signals]

/-- Loads and stores are neither HALT nor NOP, and use `rs1` but not the ALU. -/
theorem access (h : inst.HasKind) (access : inst.readsMem = true ∨ inst.writesMem = true)
    : inst.isHalt = false ∧ inst.isNop = false ∧ inst.doesArithLogic = false
      ∧ inst.readsRs1 = true := by
  rcases access with reads | writes
  · have signals := h.load reads
    exact ⟨signals.isHalt, signals.isNop, signals.doesArithLogic, signals.readsRs1⟩
  · have signals := h.store writes
    exact ⟨signals.isHalt, signals.isNop, signals.doesArithLogic, signals.readsRs1⟩

/-- Only ALU instructions, jumps and loads have a destination register. -/
theorem writer (h : inst.HasKind) (writes : inst.writesRd = true)
    : inst.isLegal = true ∧ inst.isHalt = false ∧ inst.isNop = false
      ∧ inst.writesMem = false ∧ inst.doesArithLogic = !inst.readsMem := by
  obtain ⟨kind, signals, _⟩ := h
  cases kind <;> simp_all [Instruction.signals, SignalKind.signals]

/-- An instruction that reads a register is legal and neither HALT nor NOP. -/
theorem reader (h : inst.HasKind) (reads : inst.readsRs1 = true ∨ inst.readsRs2 = true)
    : inst.isLegal = true ∧ inst.isHalt = false ∧ inst.isNop = false := by
  obtain ⟨kind, signals, _⟩ := h
  cases kind <;> simp_all [Instruction.signals, SignalKind.signals]

/-- HALT and NOP never redirect fetching. -/
theorem untransferred (h : inst.HasKind) (special : inst.isHalt = true ∨ inst.isNop = true)
    : inst.opcode ≠ opBranch ∧ inst.opcode ≠ opJalr ∧ inst.opcode ≠ opJal := by
  obtain ⟨kind, signals, opcodes⟩ := h
  cases kind <;> simp_all [Instruction.signals, SignalKind.signals, SignalKind.Opcodes]

/-- An illegal word redirects nothing: its opcode is no jump, and as a branch it has a
condition code that never holds.
-/
theorem illegal_fallthrough (h : inst.HasKind) (illegal : inst.isLegal = false)
    : (simNextPCResolution inst).nextPC = inst.pc + 4 := by
  obtain ⟨kind, signals, opcodes⟩ := h
  cases kind <;>
    simp only [Instruction.signals, SignalKind.signals, illegal, Prod.mk.injEq, Bool.false_eq_true,
      false_and, and_false] at signals
  obtain ⟨notJalr, notJal, unlisted⟩ := opcodes
  by_cases branch : inst.opcode = opBranch
  · have fails : branchCondition inst = false := by
      have := unlisted branch
      simp only [isBranchCode, not_or] at this
      simp [branchCondition, this]
    have apart : opBranch ≠ opJalr := by decide
    simp [simNextPCResolution, branch, fails, apart]
  · simp [simNextPCResolution, notJalr, notJal, branch]

end Instruction.HasKind

theorem hasKind_nop (status : StageStatus) : (nop status).HasKind :=
  ⟨.nop, rfl, by simp only [SignalKind.Opcodes, nop]; decide⟩

-----------------------------------------------------------------------------------------
-- The part of the record that decoding fixes
-----------------------------------------------------------------------------------------

/-- The fields of an instruction that no stage after decoding changes; the others are
erased.
-/
def Instruction.control (inst : Instruction) : Instruction :=
  { inst with
    nextPC := 0, op1Val := 0, op2Val := 0, arithResult := 0, memAddress := 0
    memException := false, memResult := 0, instructionID := 0, dinCounted := false
    status := .normal }

/-- The control part is what the decoder makes of the instruction's own word. -/
def Instruction.Decoded (inst : Instruction) : Prop :=
  inst.control = (simDecode { pc := inst.pc, instruction := inst.instruction }).control

/-- What the fetch of a word leaves behind: no signals, no result, and word 0 after a fault.
-/
structure Instruction.Fetched (inst : Instruction) : Prop where
  blank : inst.control = { pc := inst.pc, instruction := inst.instruction }
  result : inst.arithResult = 0
  faulted : inst.memException = true → inst.instruction = 0

/-- Two instructions with the same control part agree on every field it keeps. -/
structure Instruction.SameControl (left right : Instruction) : Prop where
  pc : left.pc = right.pc
  instruction : left.instruction = right.instruction
  isHalt : left.isHalt = right.isHalt
  isLegal : left.isLegal = right.isLegal
  isNop : left.isNop = right.isNop
  readsMem : left.readsMem = right.readsMem
  writesMem : left.writesMem = right.writesMem
  doesArithLogic : left.doesArithLogic = right.doesArithLogic
  writesRd : left.writesRd = right.writesRd
  readsRs1 : left.readsRs1 = right.readsRs1
  readsRs2 : left.readsRs2 = right.readsRs2
  opcode : left.opcode = right.opcode
  funct3 : left.funct3 = right.funct3
  funct7 : left.funct7 = right.funct7
  rd : left.rd = right.rd
  rs1 : left.rs1 = right.rs1
  rs2 : left.rs2 = right.rs2

theorem Instruction.sameControl {left right : Instruction} (same : left.control = right.control)
    : left.SameControl right := by
  simp only [Instruction.control, Instruction.mk.injEq] at same
  constructor <;> simp [same]

theorem Instruction.HasKind.of_control {left right : Instruction}
    (h : right.HasKind) (same : left.control = right.control) : left.HasKind := by
  obtain ⟨kind, signals, opcodes⟩ := h
  have fields := Instruction.sameControl same
  refine ⟨kind, ?_, ?_⟩
  · rw [← signals]
    simp only [Instruction.signals, fields.isHalt, fields.isLegal, fields.isNop, fields.readsMem,
      fields.writesMem, fields.doesArithLogic, fields.writesRd, fields.readsRs1, fields.readsRs2]
  · cases kind <;> simpa only [SignalKind.Opcodes, fields.opcode, fields.funct3] using opcodes

theorem Instruction.Decoded.of_control {left right : Instruction}
    (h : right.Decoded) (same : left.control = right.control) : left.Decoded := by
  have fields := Instruction.sameControl same
  rw [Instruction.Decoded, fields.pc, fields.instruction, same]
  exact h

theorem Instruction.Decoded.hasKind {inst : Instruction} (h : inst.Decoded) : inst.HasKind :=
  (hasKind_simDecode inst.pc inst.instruction).of_control h

@[simp]
theorem control_withStatus (inst : Instruction) (status : StageStatus)
    : Instruction.control { inst with status := status } = inst.control := rfl

@[simp]
theorem control_withID (inst : Instruction) (id : U64)
    : Instruction.control { inst with instructionID := id } = inst.control := rfl

@[simp]
theorem control_simOperandCollection (inst : Instruction) (regData : Registers)
    : (simOperandCollection inst regData).control = inst.control := rfl

@[simp]
theorem control_simNextPCResolution (inst : Instruction)
    : (simNextPCResolution inst).control = inst.control := by
  simp only [simNextPCResolution]
  split
  · rfl
  split
  · rfl
  split <;> rfl

@[simp]
theorem control_simArithLogic (inst : Instruction)
    : (simArithLogic inst).control = inst.control := by
  simp only [simArithLogic, Instruction.control]
  split
  · rfl
  split <;> rfl

@[simp]
theorem control_simAddrGen (inst : Instruction)
    : (simAddrGen inst).control = inst.control := by
  simp only [simAddrGen]
  split
  · rfl
  split <;> rfl

@[simp]
theorem control_simMemAccess (inst : Instruction) (myMem : MemoryStore)
    : (simMemAccess inst myMem).1.control = inst.control := by
  simp only [simMemAccess]
  split
  · split
    · rfl
    split <;> rfl
  split
  · split <;> rfl
  · rfl

@[simp]
theorem control_forwardFrom (src : Instruction) (fwd : U64) (unshadowed : Bool)
    (inst : Instruction)
    : (forwardFrom src fwd unshadowed inst).control = inst.control := by
  unfold forwardFrom
  split <;> rfl

@[simp]
theorem control_simEX (inst : Instruction) : (Simulator.simEX inst).control = inst.control := by
  unfold Simulator.simEX
  split
  · rfl
  · dsimp only
    split
    · exact control_simArithLogic inst
    · rfl

@[simp]
theorem control_simMEM (sim : Simulator) (inst : Instruction)
    : (sim.simMEM inst).1.control = inst.control := by
  unfold Simulator.simMEM
  split
  · rfl
  split
  · exact (control_simMemAccess _ _).trans (control_simAddrGen inst)
  · rfl

@[simp]
theorem control_simWB (sim : Simulator) (inst : Instruction)
    : (sim.simWB inst).1.control = inst.control := by
  unfold Simulator.simWB
  split
  · rfl
  split
  · rfl
  split <;> rfl

@[simp]
theorem simAddrGen_memException (inst : Instruction)
    : (simAddrGen inst).memException = inst.memException := by
  unfold simAddrGen
  split_ifs <;> rfl

/-- Decoding neither reads nor writes the erased fields. -/
theorem control_simDecode (inst : Instruction)
    : (simDecode inst).control = simDecode inst.control := by
  simp only [simDecode, decodeSignals, apply_ite Instruction.control]
  rfl

@[simp]
theorem simDecode_pc (inst : Instruction) : (simDecode inst).pc = inst.pc := by
  simp only [simDecode, decodeSignals, apply_ite Instruction.pc, ite_self]
  rfl

@[simp]
theorem simDecode_instruction (inst : Instruction)
    : (simDecode inst).instruction = inst.instruction := by
  simp only [simDecode, decodeSignals, apply_ite Instruction.instruction, ite_self]
  rfl

@[simp]
theorem simDecode_arithResult (inst : Instruction)
    : (simDecode inst).arithResult = inst.arithResult := by
  simp only [simDecode, decodeSignals, apply_ite Instruction.arithResult, ite_self]
  rfl

@[simp]
theorem simDecode_memException (inst : Instruction)
    : (simDecode inst).memException = inst.memException := by
  simp only [simDecode, decodeSignals, apply_ite Instruction.memException, ite_self]
  rfl

/-- The word a faulted fetch leaves is illegal. -/
theorem simDecode_zero (pc : U64)
    : (simDecode { pc := pc, instruction := 0 }).isLegal = false := by
  simp only [simDecode, decodeSignals, apply_ite Instruction.isLegal]
  simp +decide [decodeFields]

namespace Instruction.Fetched

variable {inst : Instruction}

/-- A fetched instruction has no signals yet, so decoding it depends on its word only. -/
theorem control_simDecode_eq (h : inst.Fetched)
    : (simDecode inst).control = simDecode { pc := inst.pc, instruction := inst.instruction } := by
  rw [control_simDecode, h.blank]

theorem decoded (h : inst.Fetched) : (simDecode inst).Decoded := by
  rw [Instruction.Decoded, simDecode_pc, simDecode_instruction, h.control_simDecode_eq,
    control_simDecode]
  rfl

/-- A fetch that faulted leaves word 0, which is illegal. -/
theorem legal_fetched (h : inst.Fetched) (legal : (simDecode inst).isLegal = true)
    : inst.memException = false := by
  by_contra faulted
  have zero := h.faulted (by simpa using faulted)
  have same := (Instruction.sameControl (h.decoded)).isLegal
  simp only [simDecode_pc, simDecode_instruction, zero] at same
  rw [legal, simDecode_zero] at same
  exact Bool.noConfusion same

end Instruction.Fetched

theorem fetched_simFetch (pc : U64) (mem : MemoryStore) : (simFetch pc mem).Fetched := by
  unfold simFetch
  dsimp only
  split
  · exact ⟨rfl, rfl, fun _ => rfl⟩
  · exact ⟨rfl, rfl, fun faulted => by simp at faulted⟩

end RiscvSim
