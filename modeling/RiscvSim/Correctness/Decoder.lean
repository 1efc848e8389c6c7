import RiscvSim.Instructions.Encoding
import RiscvSim.Pipeline.FrontEnd

/-! Which words the decoder accepts: the supported instructions, and those words in which it
leaves a fixed field unchecked.
-/

namespace RiscvSim

/-- The supported words: the instructions of RV64I and HALT. -/
def Supported (word : BitVec 32) : Prop :=
  word = 0xfeedfeed ∨ ∃ instr : Rv64i.Instr, instr.encode = word

/-- The cycle that decodes the instruction raises the illegal-instruction trap. -/
def Traps (inst : Instruction) : Prop :=
  ∀ s : CycleState Cache, s.ifInst = inst → s.decodes = true
    → s.illegalDecoded = true ∧ s.nextPC = exceptionHandler

/-- The decoder accepts the word if it is supported and traps on it if it is not. -/
def DecodesExactly (inst : Instruction) (word : BitVec 32) : Prop :=
  ((simDecode inst).isLegal = true ↔ Supported word) ∧ (¬ Supported word → Traps inst)

/-- The fixed fields that the decoder does not compare: `funct7` of the operations on two
registers other than `add`, `sub` and the right shifts (of the latter only bit 25), the
upper immediate bits of the left shifts and `funct3` of JALR. Each disjunct is a class of
words that are no instruction.
-/
def FieldOverlooked (op : BitVec 7) (f3 : BitVec 3) (f7 : BitVec 7) : Prop :=
  (op = 0b0110011 ∧ f3 ≠ 0b000 ∧ f3 ≠ 0b101 ∧ f7 ≠ 0b0000000)
  ∨ (op = 0b0110011 ∧ f3 = 0b101 ∧ (f7 = 0b0000001 ∨ f7 = 0b0100001))
  ∨ (op = 0b0111011 ∧ f3 = 0b001 ∧ f7 ≠ 0b0000000)
  ∨ (op = 0b0010011 ∧ f3 = 0b001 ∧ f7.extractLsb' 1 6 ≠ 0b000000)
  ∨ (op = 0b0011011 ∧ f3 = 0b001 ∧ f7 ≠ 0b0000000)
  ∨ (op = 0b1100111 ∧ f3 ≠ 0b000)

/-- The comparisons of the decoder's switch, in the widths of the fields. -/
def Accepted (op : BitVec 7) (f3 : BitVec 3) (f7 : BitVec 7) : Prop :=
  if op = 0b0110011 then
    (f3 = 0b000 ∧ (f7 = 0b0000000 ∨ f7 = 0b0100000)) ∨ f3 = 0b001 ∨ f3 = 0b010 ∨ f3 = 0b011
    ∨ f3 = 0b100
    ∨ (f3 = 0b101 ∧ (f7.extractLsb' 1 6 = 0b010000 ∨ f7.extractLsb' 1 6 = 0b000000))
    ∨ f3 = 0b110 ∨ f3 = 0b111
  else if op = 0b0111011 then
    (f3 = 0b000 ∧ (f7 = 0b0000000 ∨ f7 = 0b0100000)) ∨ f3 = 0b001
    ∨ (f3 = 0b101 ∧ (f7 = 0b0100000 ∨ f7 = 0b0000000))
  else if op = 0b0000011 then
    f3 = 0b000 ∨ f3 = 0b001 ∨ f3 = 0b010 ∨ f3 = 0b011 ∨ f3 = 0b100 ∨ f3 = 0b101 ∨ f3 = 0b110
  else if op = 0b0010011 then
    f3 = 0b000 ∨ f3 = 0b001 ∨ f3 = 0b010 ∨ f3 = 0b011 ∨ f3 = 0b100
    ∨ (f3 = 0b101 ∧ (f7.extractLsb' 1 6 = 0b010000 ∨ f7.extractLsb' 1 6 = 0b000000))
    ∨ f3 = 0b110 ∨ f3 = 0b111
  else if op = 0b0011011 then
    f3 = 0b000 ∨ f3 = 0b001 ∨ (f3 = 0b101 ∧ (f7 = 0b0100000 ∨ f7 = 0b0000000))
  else if op = 0b1100111 then True
  else if op = 0b0100011 then f3 = 0b000 ∨ f3 = 0b001 ∨ f3 = 0b010 ∨ f3 = 0b011
  else if op = 0b1100011 then
    f3 = 0b000 ∨ f3 = 0b001 ∨ f3 = 0b100 ∨ f3 = 0b101 ∨ f3 = 0b110 ∨ f3 = 0b111
  else op = 0b0010111 ∨ op = 0b0110111 ∨ op = 0b1101111

instance (op : BitVec 7) (f3 : BitVec 3) (f7 : BitVec 7)
    : Decidable (FieldOverlooked op f3 f7) := by
  unfold FieldOverlooked
  infer_instance

instance (op : BitVec 7) (f3 : BitVec 3) (f7 : BitVec 7) : Decidable (Accepted op f3 f7) := by
  unfold Accepted
  infer_instance

/-- The opcodes of the switch. -/
def opcodes : List (BitVec 7) :=
  [0b0110011, 0b0111011, 0b0000011, 0b0010011, 0b0011011, 0b1100111, 0b0100011, 0b1100011,
    0b0010111, 0b0110111, 0b1101111]

/-- What the switch accepts is listed or overlooked. Witness: by opcode, and within it by the
value of `funct3`.
-/
theorem accepted_iff (op : BitVec 7) (f3 : BitVec 3) (f7 : BitVec 7)
    : Accepted op f3 f7 ↔ Rv64i.Listed op f3 f7 ∨ FieldOverlooked op f3 f7 := by
  have codes : ∀ f3 : BitVec 3, f3 = 0b000 ∨ f3 = 0b001 ∨ f3 = 0b010 ∨ f3 = 0b011 ∨ f3 = 0b100
      ∨ f3 = 0b101 ∨ f3 = 0b110 ∨ f3 = 0b111 := by
    decide
  have logical : ∀ f7 : BitVec 7,
      f7.extractLsb' 1 6 = 0b000000 ↔ f7 = 0b0000000 ∨ f7 = 0b0000001 := by
    decide
  have arith : ∀ f7 : BitVec 7,
      f7.extractLsb' 1 6 = 0b010000 ↔ f7 = 0b0100000 ∨ f7 = 0b0100001 := by
    decide
  by_cases known : op ∈ opcodes
  · simp only [opcodes, List.mem_cons, List.not_mem_nil, or_false] at known
    rcases known with rfl | rfl | rfl | rfl | rfl | rfl | rfl | rfl | rfl | rfl | rfl
    all_goals simp [Accepted, Rv64i.Listed, FieldOverlooked]
    all_goals
      rcases codes f3 with rfl | rfl | rfl | rfl | rfl | rfl | rfl | rfl <;> simp
    all_goals grind
  · simp [opcodes] at known
    simp [Accepted, Rv64i.Listed, FieldOverlooked, known]

/-- The switch accepts exactly these fields. -/
theorem isLegal_decodeSignals {inst : Instruction} {word : BitVec 32} (shows : inst.Shows word)
    (assumed : inst.isLegal = true) (noHalt : inst.instruction ≠ haltWord)
    (noNop : inst.instruction ≠ nopWord)
    : (decodeSignals inst).isLegal = true
      ↔ Accepted (Rv64i.opcode word) (Rv64i.funct3 word) (Rv64i.funct7 word) := by
  simp only [decodeSignals, apply_ite Instruction.isLegal, if_neg noHalt, if_neg noNop, assumed,
    Bool.ite_eq_true_distrib, if_false_right, Bool.false_eq_true, and_true]
  simp (disch := decide) only [shows.opcode_eq_iff, shows.funct3_eq_iff, shows.funct7_eq_iff,
    shows.funct6_eq_iff]
  simp only [opInt, opIntW, opLoad, opIntImm, opIntImmW, opJalr, opStore, opBranch, opAuipc, opLui,
    opJal, funct3Add, funct3Sll, funct3Slt, funct3Sltu, funct3Xor, funct3Sr, funct3Or, funct3And,
    funct3B, funct3H, funct3W, funct3D, funct3Bu, funct3Hu, funct3Wu, funct3Beq, funct3Bne,
    funct3Blt, funct3Bge, funct3Bltu, funct3Bgeu, funct7Add, funct7Sub, funct7Arith, funct7Logical,
    upperImmArith, upperImmLogical, BitVec.reduceSetWidth]
  rw [Accepted, Rv64i.extract_funct7]
  rfl

theorem isLegal_simDecode {inst : Instruction} {word : BitVec 32}
    (carries : inst.instruction = word.setWidth 64)
    : (simDecode inst).isLegal = true
      ↔ word = 0xfeedfeed
        ∨ Accepted (Rv64i.opcode word) (Rv64i.funct3 word) (Rv64i.funct7 word) := by
  have shows := decodeFields_shows carries
  by_cases halt : word = 0xfeedfeed
  · have same : (decodeFields inst).instruction = haltWord := by
      rw [shows.instruction, halt]
      rfl
    rw [simDecode, decodeSignals, if_pos same]
    exact iff_of_true rfl (.inl halt)
  by_cases nop : word = 0x00000013
  · have same : (decodeFields inst).instruction = nopWord := by
      rw [shows.instruction, nop]
      rfl
    have other : (decodeFields inst).instruction ≠ haltWord := by
      rw [same]
      decide
    rw [simDecode, decodeSignals, if_neg other, if_pos same, nop]
    exact iff_of_true rfl (by decide)
  have widen {code : U64} (small : code.toNat < 2 ^ 32) (apart : word ≠ code.setWidth 32)
      : (decodeFields inst).instruction ≠ code := by
    rwa [shows.instruction, Ne, Words.setWidth_eq_iff (by omega) small]
  rw [simDecode, isLegal_decodeSignals shows rfl (widen (by decide) halt) (widen (by decide) nop)]
  exact (or_iff_right halt).symm

/-- A word with an overlooked field is no instruction. -/
theorem FieldOverlooked.not_listed {op : BitVec 7} {f3 : BitVec 3} {f7 : BitVec 7}
    (h : FieldOverlooked op f3 f7) : ¬ Rv64i.Listed op f3 f7 := by
  rcases h with ⟨rfl, h⟩ | ⟨rfl, rfl, rfl | rfl⟩ | ⟨rfl, rfl, h⟩ | ⟨rfl, rfl, h⟩ | ⟨rfl, rfl, h⟩
    | ⟨rfl, h⟩
  all_goals simp_all [Rv64i.Listed]

theorem supported_iff (word : BitVec 32)
    : Supported word
      ↔ word = 0xfeedfeed
        ∨ Rv64i.Listed (Rv64i.opcode word) (Rv64i.funct3 word) (Rv64i.funct7 word) :=
  or_congr_right Rv64i.exists_encode_iff

instance (word : BitVec 32) : Decidable (Supported word) :=
  decidable_of_iff' _ (supported_iff word)

theorem traps_of_illegal {inst : Instruction} (illegal : (simDecode inst).isLegal = false)
    : Traps inst := by
  rintro s rfl decodes
  have undecoded : s.newID.isLegal = false := by
    rw [CycleState.newID_decoded decodes, ← illegal]
    exact (Instruction.sameControl (simID_control s.simAfterMEM s.ifInst)).isLegal
  have raised : s.illegalDecoded = true := by
    simp [CycleState.illegalDecoded, decodes, undecoded]
  refine ⟨raised, ?_⟩
  rw [CycleState.nextPC, if_pos raised, CycleState.newID_decoded decodes]
  apply simID_trap
  rwa [← CycleState.decoded, ← CycleState.newID_decoded decodes]

/-- The decoder accepts exactly the supported words, apart from those with an overlooked
field.
-/
theorem decodesExactly_iff (inst : Instruction) (word : BitVec 32)
    (carries : inst.instruction = word.setWidth 64)
    : DecodesExactly inst word
      ↔ ¬ FieldOverlooked (Rv64i.opcode word) (Rv64i.funct3 word) (Rv64i.funct7 word) := by
  have legal := isLegal_simDecode carries
  rw [accepted_iff] at legal
  constructor
  · rintro ⟨same, _⟩ overlooked
    rcases (supported_iff _).mp (same.mp (legal.mpr (.inr (.inr overlooked)))) with rfl | listed
    · exact absurd overlooked (by decide)
    · exact overlooked.not_listed listed
  · intro checked
    have same : (simDecode inst).isLegal = true ↔ Supported word := by
      rw [legal, supported_iff, or_iff_left checked]
    exact ⟨same, fun other => traps_of_illegal (Bool.eq_false_iff.mpr (mt same.mp other))⟩

/-- An `add` is accepted, a multiplication in its place traps. -/
theorem decodesExactly_add
    : DecodesExactly { instruction := 0x002081b3 } 0x002081b3
      ∧ DecodesExactly { instruction := 0x022081b3 } 0x022081b3 :=
  ⟨(decodesExactly_iff _ _ rfl).mpr (by decide), (decodesExactly_iff _ _ rfl).mpr (by decide)⟩

/-- The multiplication `mulh x2, x1, x2` is accepted and executed as the shift `sll`. -/
theorem mulh_accepted
    : ¬ DecodesExactly { instruction := 0x02209133 } 0x02209133
      ∧ ¬ Supported 0x02209133
      ∧ (simDecode { instruction := 0x02209133 }).isLegal = true
      ∧ (simArithLogic
          { simDecode { instruction := 0x02209133 } with op1Val := 1, op2Val := 4 }).arithResult
        = 16 :=
  ⟨fun same => absurd (same.1.mp (by decide)) (by decide), by decide, by decide, by decide⟩

end RiscvSim
