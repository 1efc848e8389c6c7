import RiscvSim.Correctness.Arithmetic
import RiscvSim.Correctness.ControlFlow
import RiscvSim.Correctness.DynRetired
import RiscvSim.Correctness.LoadStore
import RiscvSim.Correctness.ProgramResult
import RiscvSim.Library.Rv64iHart

/-! The functional simulator implements RV64I: it makes every step of a hart that models it. -/

namespace RiscvSim

open Rv64i (Instr Hart Reg)

-----------------------------------------------------------------------------------------
-- What the decoder makes of an encoded instruction
-----------------------------------------------------------------------------------------

/-- Only the word of HALT is decoded as HALT. -/
theorem Instruction.Fetched.isHalt_iff {x : Instruction} (h : x.Fetched)
    : (simDecode x).isHalt = true ↔ x.instruction = haltWord := by
  have unmarked : (decodeFields x).isHalt = false := congrArg Instruction.isHalt h.blank
  by_cases halt : (decodeFields x).instruction = haltWord
  · rw [simDecode, decodeSignals, if_pos halt]
    exact iff_of_true rfl halt
  · rw [simDecode, decodeSignals, if_neg halt]
    simp only [apply_ite Instruction.isHalt, unmarked, ite_self]
    exact iff_of_false Bool.false_ne_true halt

/-- The class to which the decoder assigns an instruction. -/
def kindOf : Instr → SignalKind
  | .reg .. | .regW .. => .register
  | .regImm .. | .shiftImm .. | .addiw .. | .shiftImmW .. => .immediate
  | .load .. => .load
  | .store .. => .store
  | .branch .. => .branch
  | .jalr .. => .jalr
  | .jal .. | .lui .. | .auipc .. => .upper

/-- HALT is no instruction of RV64I. -/
theorem encode_ne_halt (instr : Instr) : instr.encode ≠ 0xfeedfeed := by
  intro same
  have opcode := Rv64i.opcode_encode instr
  rw [same] at opcode
  cases instr <;>
    simp only [Instr.opcode] at opcode <;>
    exact absurd opcode (by decide)

/-- The class of an opcode, among those of legal words. -/
theorem kind_of_opcode {x : Instruction} {instr : Instr} {kind : SignalKind}
    (opcode : x.opcode = instr.opcode.setWidth 64) (opcodes : kind.Opcodes x)
    (running : x.isHalt = false) (busy : x.isNop = false) (legal : x.isLegal = true)
    (signals : x.signals = kind.signals)
    : kind = kindOf instr := by
  cases kind with
  | halt => simp [Instruction.signals, SignalKind.signals, running] at signals
  | nop => simp [Instruction.signals, SignalKind.signals, busy] at signals
  | illegal => simp [Instruction.signals, SignalKind.signals, legal] at signals
  | _ =>
      simp only [SignalKind.Opcodes, opcode] at opcodes
      cases instr <;> simp only [Instr.opcode] at opcodes <;>
        first | rfl | exact absurd opcodes (by decide)

variable {x : Instruction} {instr : Instr}

/-- An encoded instruction is legal and not HALT. -/
theorem legal_encode (fetched : x.Fetched) (carries : x.instruction = instr.encode.setWidth 64)
    : (simDecode x).isLegal = true ∧ (simDecode x).isHalt = false := by
  have accepted : Accepted (Rv64i.opcode instr.encode) (Rv64i.funct3 instr.encode)
      (Rv64i.funct7 instr.encode) :=
    (accepted_iff _ _ _).mpr (.inl (Rv64i.listed_encode instr))
  refine ⟨(isLegal_simDecode carries).mpr (.inr accepted), Bool.eq_false_iff.mpr ?_⟩
  rw [Ne, fetched.isHalt_iff, carries, haltWord,
    Words.setWidth_eq_iff (by decide) (by decide)]
  exact encode_ne_halt instr

/-- The signals of an encoded instruction are those of its class. The NOP has its own. -/
theorem signals_encode (fetched : x.Fetched) (carries : x.instruction = instr.encode.setWidth 64)
    (busy : (simDecode x).isNop = false)
    : (simDecode x).HasSignals false true false instr.isLoad instr.isStore instr.computes
        instr.hasRd instr.hasRs1 instr.hasRs2 := by
  obtain ⟨legal, running⟩ := legal_encode fetched carries
  obtain ⟨kind, signals, opcodes⟩ := fetched.decoded.hasKind
  rw [kind_of_opcode (simDecode_shows carries).opcode_encode opcodes running busy legal signals]
    at signals
  cases instr <;>
    simp only [Instruction.signals, kindOf, SignalKind.signals, Prod.mk.injEq] at signals <;>
    constructor <;>
    simp only [signals, Instr.isLoad, Instr.isStore, Instr.computes, Instr.hasRd, Instr.hasRs1,
      Instr.hasRs2]

/-- The word of the NOP names register 0 only. -/
theorem registers_nop (same : instr.encode = 0x13)
    : instr.computes = true ∧ instr.rd = 0 ∧ instr.rs1 = 0 ∧ instr.rs2 = 0 := by
  have opcode := Rv64i.opcode_encode instr
  rw [same] at opcode
  have computes : instr.computes = true := by
    cases instr <;> first | rfl | exact absurd opcode (by simp only [Instr.opcode]; decide)
  refine ⟨computes, ?_, ?_, ?_⟩
  · rw [Instr.rd_encode, same]
    split <;> rfl
  · rw [Instr.rs1_encode, same]
    split <;> rfl
  · rw [Instr.rs2_encode, same]
    split <;> rfl

/-- Next-PC resolution takes an encoded instruction to its target. -/
theorem nextPC_encode (shows : x.Shows instr.encode) (even : instr.EvenOffset)
    : (simNextPCResolution x).nextPC = instr.target x.pc x.op1Val x.op2Val := by
  have opcode := shows.opcode_encode
  cases instr with
  | branch op rs1 rs2 offset => exact nextPC_branch even shows
  | jal rd offset => exact nextPC_jal even shows
  | jalr rd rs1 imm => exact nextPC_jalr shows
  | _ =>
      simp only [Instr.opcode] at opcode
      simp +decide only [simNextPCResolution, opcode, if_false, Instr.target]

/-- The source registers of a decoded word, and the operands it starts with. -/
theorem sources_simDecode {word : BitVec 32} (carries : x.instruction = word.setWidth 64)
    : (simDecode x).rs1 = (word.extractLsb' 15 5).setWidth 64
      ∧ (simDecode x).rs2 = (word.extractLsb' 20 5).setWidth 64
      ∧ (simDecode x).op1Val = x.op1Val ∧ (simDecode x).op2Val = x.op2Val := by
  unfold simDecode decodeSignals
  simp only [apply_ite Instruction.rs1, apply_ite Instruction.rs2, apply_ite Instruction.op1Val,
    apply_ite Instruction.op2Val, ite_self]
  refine ⟨?_, ?_, rfl, rfl⟩
  · rw [decodeFields, carries]
    exact extractBits_word word 15 5 (by omega) (by omega)
  · rw [decodeFields, carries]
    exact extractBits_word word 20 5 (by omega) (by omega)

/-- The registers that a decoded instruction uses; register 0 stands for one that it does not. -/
theorem registers_encode (fetched : x.Fetched)
    (carries : x.instruction = instr.encode.setWidth 64)
    : (simDecode x).readsRs1 = (instr.hasRs1 && !(simDecode x).isNop)
      ∧ (simDecode x).readsRs2 = (instr.hasRs2 && !(simDecode x).isNop)
      ∧ (simDecode x).writesRd = (instr.hasRd && !(simDecode x).isNop)
      ∧ ((simDecode x).isNop = true → instr.encode = 0x13) := by
  cases busy : (simDecode x).isNop with
  | false =>
      have signals := signals_encode fetched carries busy
      simp [signals.readsRs1, signals.readsRs2, signals.writesRd]
  | true =>
      have signals := fetched.decoded.hasKind.nop busy
      have word := fetched.decoded.isNop_iff.mp busy
      rw [simDecode_instruction, carries, nopWord,
        Words.setWidth_eq_iff (by decide) (by decide)] at word
      simp [signals.readsRs1, signals.readsRs2, signals.writesRd, word]

-----------------------------------------------------------------------------------------
-- One instruction of the functional simulator
-----------------------------------------------------------------------------------------

/-- A placed memory is read where its byte map holds a value. -/
theorem MemoryStore.Placed.getMemValue_of_holds {w : ℕ} {mem : MemoryStore} {address : U64}
    {size : MemEntrySize} {value : BitVec w} (placed : mem.Placed)
    (holds : mem.bytes.Holds address.toNat size.bytes value)
    : mem.getMemValue address size = (0, value.setWidth 64) := by
  have maps : mem.bytes.Maps address.toNat size.bytes := fun i inside => by
    rw [holds.bytes i inside]
    exact Option.some_ne_none _
  have wide := MemoryStore.MemEntrySize.bytes_le size
  have ok := getMemValue_ok.mpr ((placed.inRange_iff wide).mpr maps)
  have same := (placed.holds_getMemValue ok).toNat_eq holds
  refine Prod.ext ok (BitVec.eq_of_toNat_eq ?_)
  rw [same, BitVec.toNat_setWidth, ← same, Nat.mod_eq_of_lt (BitVec.isLt _)]

/-- A write moves no bounds. -/
theorem MemoryStore.Placed.setMemValue {mem : MemoryStore} {address value : U64}
    {size : MemEntrySize} (placed : mem.Placed)
    : (mem.setMemValue address value size).2.Placed := by
  obtain ⟨start, entries⟩ := @setMemValue_bounds mem value address size
  constructor
  · rw [start, entries]
    exact placed.fits
  · rw [entries]
    exact placed.entries

/-- A store whose bytes are written raises no exception. -/
theorem simMemAccess_unfaulted {mem : MemoryStore} (noLoad : x.readsMem = false)
    (writes : x.writesMem = true)
    (ok : (mem.setMemValue x.memAddress x.op2Val (accessSize x)).1 = 0)
    : (simMemAccess x mem).1.memException = x.memException := by
  simp [simMemAccess, noLoad, writes, ok]

namespace FunctState

/-- The simulator is where the hart is. Its slot of register 0 may hold anything. -/
structure Models (a : FunctState) (hart : Hart) : Prop where
  pc : a.pc = hart.pc
  regs : ∀ r : Reg, r ≠ 0 → a.simulator.regData (r.setWidth 64) = hart.regs.read r
  placed : a.simulator.memory.Placed
  mem : a.simulator.memory.bytes = hart.mem

theorem models_boot {image : MemoryStore} (placed : image.Placed)
    : (init image).Models (.boot image.bytes) where
  pc := rfl
  regs := fun _ _ => rfl
  placed := placed
  mem := rfl

variable {a : FunctState} {hart : Hart}

/-- An operand is read from the copy of the registers whose slot 0 is cleared. -/
theorem Models.operand (m : a.Models hart) (r : Reg)
    : a.simulator.regData.set 0 0 (r.setWidth 64) = hart.regs.read r := by
  by_cases zero : r = 0
  · subst zero
    exact hart.regs.read_zero.symm
  · have apart : r.setWidth 64 ≠ (0 : U64) := by
      intro same
      rw [Words.setWidth_eq_iff (by decide) (by decide)] at same
      exact zero same
    rw [Registers.set, if_neg apart, m.regs r zero]

/-- The word that the hart fetches. -/
theorem Models.fetched {word : BitVec 32} (m : a.Models hart) (fetched : hart.Fetches word)
    : simFetch a.pc a.simulator.memory = { pc := a.pc, instruction := word.setWidth 64 } := by
  rw [Hart.Fetches, ← m.mem, ← m.pc] at fetched
  have read
      : a.simulator.memory.getMemValue a.pc .wordSize = (0, word.setWidth 64) :=
    m.placed.getMemValue_of_holds fetched
  simp [simFetch, read]

/-- The record of an instruction with the operands that a hart has for it. -/
structure Issues (a : FunctState) (hart : Hart) (instr : Instr) (x : Instruction) : Prop where
  shows : x.Shows instr.encode
  control : x.control = (a.decodedFrom a.simulator.memory).control
  collected : x.Collected a.simulator.regData
  pc : x.pc = hart.pc
  op1Val : x.op1Val = hart.regs.read instr.rs1
  op2Val : x.op2Val = hart.regs.read instr.rs2

/-- A NOP reads no register, and the field of one that it names is 0. -/
theorem read_unless_nop (regs : Rv64i.Registers) {has nop : Bool} {field : Reg}
    (zero : nop = true → field = 0)
    : (if has && !nop then regs.read field else 0) = regs.read (if has then field else 0) := by
  cases has with
  | false => simpa using regs.read_zero.symm
  | true =>
      cases nop with
      | false => rfl
      | true => simpa [zero rfl] using regs.read_zero.symm

/-- The simulator collects the operands that the hart has. -/
theorem Models.issues (m : a.Models hart) (fetched : hart.Fetches instr.encode)
    : a.Issues hart instr (a.collected a.simulator.memory) := by
  have fetches := m.fetched fetched
  have blank := fetched_simFetch a.pc a.simulator.memory
  have carries : (simFetch a.pc a.simulator.memory).instruction = instr.encode.setWidth 64 := by
    rw [fetches]
  obtain ⟨rs1, rs2, op1, op2⟩ := sources_simDecode carries
  obtain ⟨reads1, reads2, _, nop⟩ := registers_encode blank carries
  have zero : (simFetch a.pc a.simulator.memory).op1Val = 0
      ∧ (simFetch a.pc a.simulator.memory).op2Val = 0 := by
    rw [fetches]
    exact ⟨rfl, rfl⟩
  have shows := simDecode_shows carries
  refine ⟨⟨shows.instruction, shows.opcode, shows.funct3, shows.funct7, shows.rd⟩,
    control_collected, collected_collected, ?_, ?_, ?_⟩
  · rw [← m.pc]
    exact (simDecode_pc _).trans (simFetch_pc _ _)
  · change (if (simDecode (simFetch a.pc a.simulator.memory)).readsRs1 then
        a.simulator.regData.set 0 0 (simDecode (simFetch a.pc a.simulator.memory)).rs1
      else (simDecode (simFetch a.pc a.simulator.memory)).op1Val) = _
    rw [reads1, rs1, m.operand, op1, zero.1, Instr.rs1_encode]
    exact read_unless_nop hart.regs fun busy => by rw [nop busy]; rfl
  · change (if (simDecode (simFetch a.pc a.simulator.memory)).readsRs2 then
        a.simulator.regData.set 0 0 (simDecode (simFetch a.pc a.simulator.memory)).rs2
      else (simDecode (simFetch a.pc a.simulator.memory)).op2Val) = _
    rw [reads2, rs2, m.operand, op2, zero.2, Instr.rs2_encode]
    exact read_unless_nop hart.regs fun busy => by rw [nop busy]; rfl

variable {next : Hart} (m : a.Models hart) (fetched : hart.Fetches instr.encode)
include m fetched

/-- The instruction that the simulator has decoded. -/
theorem Models.decoded
    : (simFetch a.pc a.simulator.memory).instruction = instr.encode.setWidth 64
      ∧ (a.decodedFrom a.simulator.memory).isLegal = true
      ∧ (a.decodedFrom a.simulator.memory).isHalt = false := by
  have carries : (simFetch a.pc a.simulator.memory).instruction = instr.encode.setWidth 64 := by
    rw [m.fetched fetched]
  exact ⟨carries, legal_encode (fetched_simFetch a.pc a.simulator.memory) carries⟩

theorem Models.pc_step (even : instr.EvenOffset) : a.step.pc = hart.target instr := by
  obtain ⟨_, legal, running⟩ := m.decoded fetched
  have issues := m.issues fetched
  rw [(step_eq_stepFrom rfl).1, stepFrom_pc issues.control issues.collected legal running,
    nextPC_encode issues.shows even, issues.pc, issues.op1Val, issues.op2Val, Hart.target]

/-- The registers after the instruction, if it writes `value`. -/
theorem Models.regs_step {value : U64}
    (result : (a.decodedFrom a.simulator.memory).writesRd = true → a.inst.result = value) (r : Reg)
    (nonzero : r ≠ 0)
    : a.step.simulator.regData (r.setWidth 64) = (hart.regs.write instr.rd value).read r := by
  obtain ⟨carries, _, _⟩ := m.decoded fetched
  obtain ⟨_, _, writes, nop⟩ :=
    registers_encode (fetched_simFetch a.pc a.simulator.memory) carries
  have rd := (simDecode_shows carries).rd
  rw [← decodedFrom] at writes nop rd
  obtain ⟨step, inst⟩ := step_eq_stepFrom (a := a) rfl
  rw [step, stepFrom_regData, Rv64i.Registers.read_write, m.regs r nonzero, ← inst]
  cases busy : (a.decodedFrom a.simulator.memory).isNop with
  | true =>
      have zero := (registers_nop (nop busy)).2.1
      simp [Instruction.writes, busy, zero]
  | false =>
      rw [busy, Bool.not_false, Bool.and_true] at writes
      rw [Instruction.writes, busy, writes, rd, Instr.rd_encode]
      cases has : instr.hasRd with
      | false => simp
      | true =>
          have same (field : Reg) : (field.setWidth 64 == (r.setWidth 64 : U64)) = true
              ↔ r = field ∧ field ≠ 0 := by
            rw [beq_iff_eq, Words.setWidth_eq_iff (by decide) (by simp; omega)]
            simp
            grind
          simp only [Bool.not_false, Bool.true_and, if_true, same]
          split
          · exact result (writes.trans has)
          · rfl

/-- The simulator models the hart once it does so in registers and memory. -/
theorem Models.of_step {value : U64} (even : instr.EvenOffset) (after : next.pc = hart.target instr)
    (regs : next.regs = hart.regs.write instr.rd value)
    (result : (a.decodedFrom a.simulator.memory).writesRd = true → a.inst.result = value)
    (placed : a.step.simulator.memory.Placed) (mem : a.step.simulator.memory.bytes = next.mem)
    : a.step.Models next where
  pc := (m.pc_step fetched even).trans after.symm
  regs := fun r nonzero => by rw [regs, m.regs_step fetched result r nonzero]
  placed := placed
  mem := mem

/-- Any other instruction than loads and stores leaves memory alone. -/
theorem Models.memory_step (noLoad : instr.isLoad = false) (noStore : instr.isStore = false)
    : a.step.simulator.memory = a.simulator.memory := by
  obtain ⟨carries, _, _⟩ := m.decoded fetched
  have blank := fetched_simFetch a.pc a.simulator.memory
  have signals : (a.decodedFrom a.simulator.memory).readsMem = false
      ∧ (a.decodedFrom a.simulator.memory).writesMem = false := by
    cases busy : (a.decodedFrom a.simulator.memory).isNop with
    | true =>
        have signals := decodedFrom_decoded.hasKind.nop busy
        exact ⟨signals.readsMem, signals.writesMem⟩
    | false =>
        have signals := signals_encode blank carries busy
        exact ⟨signals.readsMem.trans noLoad, signals.writesMem.trans noStore⟩
  rw [(step_eq_stepFrom rfl).1]
  exact stepFrom_memory signals.1 signals.2

theorem Models.value_step {value : U64} (even : instr.EvenOffset)
    (defined
      : instr.value hart.pc (hart.regs.read instr.rs1) (hart.regs.read instr.rs2) = some value)
    : a.step.Models
        { hart with regs := hart.regs.write instr.rd value, pc := hart.target instr } := by
  obtain ⟨carries, legal, running⟩ := m.decoded fetched
  have issues := m.issues fetched
  have computes : instr.computes = true := by
    rw [← instr.isSome_value, defined]
    rfl
  have plain : instr.isLoad = false ∧ instr.isStore = false := by
    cases instr <;> first | exact ⟨rfl, rfl⟩ | cases computes
  have kept := m.memory_step fetched plain.1 plain.2
  refine m.of_step fetched even rfl rfl (fun writes => ?_) (kept ▸ m.placed) (kept ▸ m.mem)
  have busy := (decodedFrom_decoded.hasKind.writer writes).2.2.1
  have signals := signals_encode (fetched_simFetch a.pc a.simulator.memory) carries busy
  have arith := signals.doesArithLogic.trans computes
  have blank : (a.collected a.simulator.memory).arithResult = 0 := by
    have blank : (a.prepared a.simulator.memory).arithResult = 0 := prepared_blank.1
    simpa [prepared] using blank
  have fields : (a.executedFrom a.simulator.memory).SameControl
      (a.decodedFrom a.simulator.memory) :=
    Instruction.sameControl control_executedFrom
  have alu : a.inst.result = (a.executedFrom a.simulator.memory).arithResult := by
    rw [(step_eq_stepFrom rfl).2, Instruction.result, fields.readsMem]
    exact if_neg (by simp [decodedFrom, signals.readsMem, plain.1])
  rw [alu, executedFrom_arithResult issues.control issues.collected legal running arith blank]
  apply arithResult_encode issues.shows
  rwa [issues.pc, issues.op1Val, issues.op2Val]

/-- An instruction without a destination writes no register. -/
theorem Models.silent (noRd : instr.hasRd = false)
    : (∀ value, hart.regs = hart.regs.write instr.rd value)
      ∧ ((a.decodedFrom a.simulator.memory).writesRd = true → a.inst.result = 0) := by
  obtain ⟨carries, _, _⟩ := m.decoded fetched
  obtain ⟨_, _, writes, _⟩ :=
    registers_encode (fetched_simFetch a.pc a.simulator.memory) carries
  have zero : instr.rd = 0 := by
    rw [Instr.rd_encode, noRd]
    rfl
  refine ⟨fun value => by rw [zero, Rv64i.Registers.write_zero], fun wrong => ?_⟩
  rw [decodedFrom, writes, noRd] at wrong
  cases wrong

/-- A branch writes no register. -/
theorem Models.branch_step (even : instr.EvenOffset) (noRd : instr.hasRd = false)
    (noStore : instr.isStore = false)
    : a.step.Models { hart with pc := hart.target instr } := by
  have noLoad : instr.isLoad = false := by
    cases instr <;> first | rfl | cases noRd
  have kept := m.memory_step fetched noLoad noStore
  obtain ⟨regs, silent⟩ := m.silent fetched noRd
  exact m.of_step fetched even rfl (regs 0) silent (kept ▸ m.placed) (kept ▸ m.mem)

/-- A load or store as the decoder marks it, with its operands. -/
theorem Models.access (access : instr.computes = false)
    : (a.decodedFrom a.simulator.memory).HasSignals false true false instr.isLoad instr.isStore
        false instr.hasRd instr.hasRs1 instr.hasRs2
      ∧ (a.collected a.simulator.memory).readsMem = instr.isLoad
      ∧ (a.collected a.simulator.memory).writesMem = instr.isStore
      ∧ (a.collected a.simulator.memory).memException = false := by
  obtain ⟨carries, legal, _⟩ := m.decoded fetched
  have fetches := fetched_simFetch a.pc a.simulator.memory
  have busy : (a.decodedFrom a.simulator.memory).isNop = false := by
    obtain ⟨_, _, _, word⟩ := registers_encode fetches carries
    rw [← decodedFrom] at word
    by_contra nop
    have computes := (registers_nop (word (by simpa using nop))).1
    simp [access] at computes
  have signals := access ▸ signals_encode fetches carries busy
  have fields := Instruction.sameControl (m.issues fetched).control
  refine ⟨signals, fields.readsMem.trans signals.readsMem,
    fields.writesMem.trans signals.writesMem, ?_⟩
  have sound : (a.prepared a.simulator.memory).memException = false := prepared_blank.2 legal
  simpa [prepared] using sound

omit fetched in
theorem Models.load_step {op : Rv64i.LoadOp} {rd rs1 : Reg} {imm : BitVec 12} {value : U64}
    (fetched : hart.Fetches (Instr.load op rd rs1 imm).encode)
    (holds : hart.mem.Holds (hart.address rs1 imm).toNat op.bytes value)
    : a.step.Models
        { hart with regs := hart.regs.write rd (op.value value), pc := hart.pc + 4 } := by
  obtain ⟨carries, legal, running⟩ := m.decoded fetched
  obtain ⟨signals, reads, _, sound⟩ := m.access fetched rfl
  have issues := m.issues fetched
  have read (size : MemEntrySize) (bytes : size.bytes = op.bytes)
      : a.simulator.memory.getMemValue
          ((a.collected a.simulator.memory).op1Val + imm.signExtend 64) size
        = (0, (value.setWidth (8 * size.bytes)).setWidth 64) := by
    have narrow := holds.bounded
    rw [← bytes, ← m.mem, Hart.address] at holds
    rw [issues.op1Val]
    refine (m.placed.getMemValue_of_holds holds).trans (Prod.ext rfl ?_)
    apply BitVec.eq_of_toNat_eq
    rw [BitVec.toNat_setWidth, BitVec.toNat_setWidth, BitVec.toNat_setWidth, bytes,
      Nat.mod_eq_of_lt narrow]
  obtain ⟨clear, result, kept⟩ := simMemAccess_load issues.shows reads read
  obtain ⟨memory, loaded⟩ := stepFrom_access issues.control issues.collected legal
    (.inl signals.readsMem) sound
  have unchanged : a.step.simulator.memory = a.simulator.memory := by
    rw [(step_eq_stepFrom rfl).1, memory, kept]
  refine m.of_step fetched trivial rfl rfl (fun _ => ?_) (unchanged ▸ m.placed)
    (unchanged ▸ m.mem)
  have fields : (a.executedFrom a.simulator.memory).SameControl
      (a.decodedFrom a.simulator.memory) :=
    Instruction.sameControl control_executedFrom
  rw [(step_eq_stepFrom rfl).2, Instruction.result, fields.readsMem, signals.readsMem,
    Instr.isLoad, if_pos rfl, loaded signals.readsMem (clear.trans sound), result]

omit fetched in
theorem Models.store_step {op : Rv64i.StoreOp} {rs1 rs2 : Reg} {imm : BitVec 12}
    (fetched : hart.Fetches (Instr.store op rs1 rs2 imm).encode)
    (maps : hart.mem.Maps (hart.address rs1 imm).toNat op.bytes)
    : a.step.Models
        { hart with
          mem := hart.mem.write (hart.address rs1 imm).toNat op.bytes (hart.regs.read rs2)
          pc := hart.pc + 4 } := by
  obtain ⟨carries, legal, running⟩ := m.decoded fetched
  obtain ⟨signals, noLoad, writes, sound⟩ := m.access fetched rfl
  have issues := m.issues fetched
  obtain ⟨memory, _⟩ := stepFrom_access issues.control issues.collected legal
    (.inr signals.writesMem) sound
  have ok (size : MemEntrySize) (bytes : size.bytes = op.bytes)
      : (a.simulator.memory.setMemValue
          ((a.collected a.simulator.memory).op1Val + imm.signExtend 64)
          (a.collected a.simulator.memory).op2Val size).1 = 0 := by
    rw [MemoryStore.setMemValue_ok, m.placed.inRange_iff (MemoryStore.MemEntrySize.bytes_le size),
      m.mem, issues.op1Val, bytes]
    exact maps
  have clear : (simMemAccess (simAddrGen (a.collected a.simulator.memory))
      a.simulator.memory).1.memException = false := by
    have funct3 : (a.collected a.simulator.memory).funct3 = op.funct3.setWidth 64 := by
      rw [issues.shows.funct3, Instr.encode, Rv64i.funct3_sType]
    rw [memAddress_store issues.shows noLoad writes]
    refine (simMemAccess_unfaulted ?_ ?_ (ok _ (accessSize_store ?_))).trans sound
    · exact noLoad
    · exact writes
    · exact funct3
  obtain ⟨size, bytes, stored, written⟩ := simMemAccess_store issues.shows noLoad writes clear
  have after : a.step.simulator.memory = _ :=
    ((congrArg (fun s => s.simulator.memory) (step_eq_stepFrom rfl).1).trans memory).trans written
  obtain ⟨regs, silent⟩ := m.silent fetched rfl
  refine m.of_step fetched trivial rfl (regs 0) silent ?_ ?_
  · rw [after]
    exact m.placed.setMemValue
  · rw [after, m.placed.bytes_setMemValue stored, m.mem, issues.op1Val, issues.op2Val, bytes]
    rfl

omit fetched in
/-- The simulator makes every step of the hart. Witness: by the kind of the instruction, whose
operands the simulator has collected.
-/
theorem Models.simulates (step : hart.Step next)
    : a.inst.isHalt = false ∧ a.inst.isLegal = true ∧ a.step.Models next := by
  obtain ⟨fetched, even, executes⟩ := step
  obtain ⟨_, legal, running⟩ := m.decoded fetched
  have fields : (a.executedFrom a.simulator.memory).SameControl
      (a.decodedFrom a.simulator.memory) :=
    Instruction.sameControl control_executedFrom
  rw [(step_eq_stepFrom rfl).2]
  refine ⟨fields.isHalt.trans running, fields.isLegal.trans legal, ?_⟩
  cases executes with
  | value defined => exact m.value_step fetched even defined
  | branch => exact m.branch_step fetched even rfl rfl
  | load holds => exact m.load_step fetched holds
  | store maps => exact m.store_step fetched maps

omit fetched in
/-- At the word of HALT the simulator stops, with the registers and the memory of the hart. -/
theorem Models.halt (fetched : hart.Fetches 0xfeedfeed)
    : a.inst.isHalt = true
      ∧ (∀ r : Reg, r ≠ 0 → a.step.simulator.regData (r.setWidth 64) = hart.regs.read r)
      ∧ a.step.simulator.memory.bytes = hart.mem := by
  have blank := fetched_simFetch a.pc a.simulator.memory
  have halt : (a.decodedFrom a.simulator.memory).isHalt = true := by
    rw [decodedFrom, blank.isHalt_iff, m.fetched fetched]
    rfl
  have fields : (a.executedFrom a.simulator.memory).SameControl
      (a.decodedFrom a.simulator.memory) :=
    Instruction.sameControl control_executedFrom
  have signals := decodedFrom_decoded.hasKind.halt halt
  obtain ⟨step, inst⟩ := step_eq_stepFrom (a := a) rfl
  rw [inst, step, stepFrom_memory signals.readsMem signals.writesMem]
  refine ⟨fields.isHalt.trans halt, fun r nonzero => ?_, m.mem⟩
  rw [stepFrom_regData, Instruction.writes, signals.writesRd, m.regs r nonzero]
  simp

end FunctState

-----------------------------------------------------------------------------------------
-- Whole programs
-----------------------------------------------------------------------------------------

namespace FunctState

variable {a : FunctState} {hart final : Hart} {n : ℕ}

/-- A run of the hart is a run of the simulator, by induction on its length. -/
theorem Models.run (m : a.Models hart) (run : Hart.Run n hart final)
    : (step^[n] a).Models final
      ∧ ∀ k < n,
          (step^[k] a).inst.isHalt = false ∧ (step^[k] a).inst.isLegal = true := by
  induction run generalizing a with
  | none => exact ⟨m, fun k earlier => absurd earlier (Nat.not_lt_zero k)⟩
  | step first _ ih =>
      obtain ⟨running, legal, next⟩ := m.simulates first
      obtain ⟨models, before⟩ := ih next
      exact ⟨models, Nat.forall_lt_succ_left.mpr ⟨⟨running, legal⟩, before⟩⟩

/-- A run of the hart that arrives at the word of HALT halts the simulator. -/
theorem Models.haltsAt (m : a.Models hart) (run : Hart.Run n hart final)
    (halt : final.Fetches 0xfeedfeed) : HaltsAt a n :=
  ⟨((m.run run).1.halt halt).1, (m.run run).2⟩

/-- Before HALT and illegal words the limit is reached. -/
theorem runInstructions_success
    (running : ∀ k < n, (step^[k] a).inst.isHalt = false ∧ (step^[k] a).inst.isLegal = true)
    : runInstructions n a = (step^[n] a, .success) := by
  induction n generalizing a with
  | zero => rfl
  | succ n ih =>
      obtain ⟨now, later⟩ := Nat.forall_lt_succ_left.mp running
      have first : a.inst.isHalt = false ∧ a.inst.isLegal = true := now
      rw [runInstructions, first.1, first.2]
      exact ih later

/-- The functional simulator implements RV64I. From related states it makes every run of a hart
in as many instructions, and ends in a related state; where the hart then finds the word of HALT,
the simulator stops with the hart's registers and memory. Witness: a step lemma for each kind of
instruction, and induction on the run.
-/
theorem runs_rv64i (a : FunctState) (hart final : Hart) (n : ℕ) (m : a.Models hart)
    (run : Hart.Run n hart final)
    : (runInstructions n a).2 = .success ∧ (runInstructions n a).1.Models final
      ∧ (final.Fetches 0xfeedfeed
        → ∃ stopped,
            runInstructions (n + 1) a = (stopped, .halt)
            ∧ (∀ r : Reg, r ≠ 0 →
                stopped.simulator.regData (r.setWidth 64) = final.regs.read r)
            ∧ stopped.simulator.memory.bytes = final.mem) := by
  obtain ⟨models, running⟩ := m.run run
  rw [runInstructions_success running]
  refine ⟨rfl, models, fun halt => ⟨step^[n + 1] a, ?_, ?_⟩⟩
  · exact (runInstructions_halt_iff _ _ _).mpr ⟨n, Nat.lt_succ_self n, m.haltsAt run halt, rfl⟩
  · rw [Function.iterate_succ_apply']
    exact (models.halt halt).2

/-- `addi x1, x0, -1; sb x1, 255(x0)`, and the hart that has stored the byte. -/
theorem runs_rv64i_store
    : ∃ final : Hart,
        (runInstructions 2 (init (.load [0xfff00093, 0x0e100fa3, 0xfeedfeed]))).1.Models final
        ∧ final.mem 255 = some 0xFF :=
  ⟨_, (runs_rv64i (init (.load [0xfff00093, 0x0e100fa3, 0xfeedfeed])) _ _ 2
    (models_boot ⟨by decide, by decide⟩)
    (.step (@Hart.Step.intro _ (.regImm .addi 1 0 (-1)) _ ⟨by decide, by decide⟩ trivial
        (.value rfl))
      (.step (@Hart.Step.intro _ (.store .sb 0 1 255) _ ⟨by decide, by decide⟩ trivial
        (.store (by unfold ByteMap.Maps; decide))) .none))).2.1, by decide⟩

/-- The functional simulator halts where a run of the hart arrives at the word of HALT, with its
registers and its memory.
-/
theorem HaltsAt.ends_as_rv64i {image : MemoryStore} {N : ℕ} (halts : HaltsAt (init image) N)
    (placed : image.Placed) (run : Hart.Run n (.boot image.bytes) final)
    (halt : final.Fetches 0xfeedfeed)
    : N = n
      ∧ (∀ r : Reg, r ≠ 0 →
          (step^[N + 1] (init image)).simulator.regData (r.setWidth 64) = final.regs.read r)
      ∧ (step^[N + 1] (init image)).simulator.memory.bytes = final.mem := by
  have models := models_boot placed
  have same := halts.unique (models.haltsAt run halt)
  obtain ⟨_, registers, memory⟩ := (models.run run).1.halt halt
  rw [← Function.iterate_succ_apply' FunctState.step, ← same] at registers memory
  exact ⟨same, registers, memory⟩

end FunctState

end RiscvSim
