import RiscvSim.Correctness.Arithmetic
import RiscvSim.Correctness.TraceLegality

/-! Where the pipe-state dump shows another immediate than the one that is executed. -/

namespace RiscvSim

-----------------------------------------------------------------------------------------
-- The immediate that is executed
-----------------------------------------------------------------------------------------

/-- The immediate or shift amount of the executor: the terms of `simArithLogic`, `simAddrGen`
and `simNextPCResolution` that come from the immediate fields.
-/
def executedImm (inst : Instruction) : Option ℤ :=
  let imm5 := inst.rd
  let imm7 := inst.funct7
  let imm12 := extractBits inst.instruction 31 20
  let imm20 := extractBits inst.instruction 31 12
  if inst.opcode = opIntImm then
    if inst.funct3 = funct3Sll ∨ inst.funct3 = funct3Sr then some (imm12 &&& 0x3F).toNat
    else some (sext64 imm12 11).toInt
  else if inst.opcode = opIntImmW then
    if inst.funct3 = funct3Sll ∨ inst.funct3 = funct3Sr then some (imm12 &&& 0x1F).toNat
    else some (sext32 (imm12.setWidth 32) 11).toInt
  else if inst.opcode = opJalr ∨ inst.opcode = opLoad then some (sext64 imm12 11).toInt
  else if inst.opcode = opStore then some (sext64 ((imm7 <<< 5) ||| imm5) 11).toInt
  else if inst.opcode = opBranch then
    some (sext64
      (extractBits imm7 6 6 <<< 12 ||| extractBits imm7 5 0 <<< 5
        ||| extractBits imm5 4 1 <<< 1 ||| extractBits imm5 0 0 <<< 11) 12).toInt
  else if inst.opcode = opJal then
    some (sext64
      (extractBits imm20 19 19 <<< 20 ||| extractBits imm20 18 9 <<< 1
        ||| extractBits imm20 8 8 <<< 11 ||| extractBits imm20 7 0 <<< 12) 20).toInt
  else if inst.opcode = opLui ∨ inst.opcode = opAuipc then some (sext64 (imm20 <<< 12) 31).toInt
  else none

/-- What an operation of `OP_INTIMM` computes from a register and the immediate. -/
def immResult (inst : Instruction) (imm : ℤ) : U64 :=
  let value : U64 := BitVec.ofInt 64 imm
  if inst.funct3 = funct3Add then inst.op1Val + value
  else if inst.funct3 = funct3Sll then inst.op1Val <<< imm.toNat
  else if inst.funct3 = funct3Slt then ofBool (inst.op1Val.slt value)
  else if inst.funct3 = funct3Sltu then ofBool (inst.op1Val.ult value)
  else if inst.funct3 = funct3Xor then inst.op1Val ^^^ value
  else if inst.funct3 = funct3Sr then
    if extractBits inst.instruction 31 26 = upperImmLogical then inst.op1Val >>> imm.toNat
    else if extractBits inst.instruction 31 26 = upperImmArith then
      inst.op1Val.sshiftRight imm.toNat
    else inst.arithResult
  else if inst.funct3 = funct3Or then inst.op1Val ||| value
  else if inst.funct3 = funct3And then inst.op1Val &&& value
  else inst.arithResult

/-- What an operation of `OP_INTIMMW` computes. -/
def immResultW (inst : Instruction) (imm : ℤ) : U64 :=
  let low : BitVec 32 := inst.op1Val.setWidth 32
  if inst.funct3 = funct3Add then sext64 ((low + BitVec.ofInt 32 imm).setWidth 64) 31
  else if inst.funct3 = funct3Sll then sext64 ((low <<< imm.toNat).setWidth 64) 31
  else if inst.funct3 = funct3Sr then
    if extractBits inst.instruction 31 26 = upperImmLogical then
      sext64 ((low >>> imm.toNat).setWidth 64) 31
    else if extractBits inst.instruction 31 26 = upperImmArith then
      sext64 ((low.sshiftRight imm.toNat).signExtend 64) 31
    else inst.arithResult
  else inst.arithResult

/-- The stage that uses the immediate of the instruction applies `imm`. -/
structure Applies (inst : Instruction) (imm : ℤ) : Prop where
  intImm : inst.opcode = opIntImm → (simArithLogic inst).arithResult = immResult inst imm
  intImmW : inst.opcode = opIntImmW → (simArithLogic inst).arithResult = immResultW inst imm
  lui : inst.opcode = opLui → (simArithLogic inst).arithResult = BitVec.ofInt 64 imm
  auipc : inst.opcode = opAuipc → (simArithLogic inst).arithResult = inst.pc + BitVec.ofInt 64 imm
  load
    : inst.opcode = opLoad → inst.readsMem = true
      → (simAddrGen inst).memAddress = inst.op1Val + BitVec.ofInt 64 imm
  store
    : inst.opcode = opStore → inst.readsMem = false → inst.writesMem = true
      → (simAddrGen inst).memAddress = inst.op1Val + BitVec.ofInt 64 imm
  branch
    : inst.opcode = opBranch → branchCondition inst = true
      → (simNextPCResolution inst).nextPC = inst.pc + BitVec.ofInt 64 imm
  jal : inst.opcode = opJal → (simNextPCResolution inst).nextPC = inst.pc + BitVec.ofInt 64 imm
  jalr
    : inst.opcode = opJalr
      → (simNextPCResolution inst).nextPC = (inst.op1Val + BitVec.ofInt 64 imm) &&& ~~~1#64

/-- Only operations on two registers have their second operand masked. -/
theorem simArithLogic_unmasked {inst : Instruction} (int : inst.opcode ≠ opInt)
    (intW : inst.opcode ≠ opIntW)
    : (simArithLogic inst).arithResult = aluResult inst := by
  rw [simArithLogic_arithResult, Instruction.maskShift]
  simp [int, intW]

section Applied

variable {inst : Instruction} {imm : ℤ}

/-- The codes of the right shifts come after these. -/
theorem funct3Sr_ne
    : funct3Sr ≠ funct3Add ∧ funct3Sr ≠ funct3Sll ∧ funct3Sr ≠ funct3Slt ∧ funct3Sr ≠ funct3Sltu
      ∧ funct3Sr ≠ funct3Xor := by
  decide

theorem intImm_applied (op : inst.opcode = opIntImm) (executed : executedImm inst = some imm)
    : (simArithLogic inst).arithResult = immResult inst imm := by
  have result : aluResult inst = arithIntImm inst := by
    rw [aluResult, op]
    rfl
  rw [simArithLogic_unmasked (op ▸ by decide) (op ▸ by decide), result, arithIntImm, immResult]
  simp only [executedImm, op, if_true] at executed
  by_cases shift : inst.funct3 = funct3Sll ∨ inst.funct3 = funct3Sr
  · rw [if_pos shift] at executed
    obtain rfl := Option.some.inj executed
    rcases shift with shift | shift
    · simp [shift, show funct3Sll ≠ funct3Add by decide]
    · simp [shift, funct3Sr_ne]
  · rw [if_neg shift] at executed
    obtain rfl := Option.some.inj executed
    simp only [not_or] at shift
    simp [shift]

theorem intImmW_applied (op : inst.opcode = opIntImmW) (executed : executedImm inst = some imm)
    : (simArithLogic inst).arithResult = immResultW inst imm := by
  have result : aluResult inst = arithIntImmW inst := by
    rw [aluResult, op]
    rfl
  rw [simArithLogic_unmasked (op ▸ by decide) (op ▸ by decide), result, arithIntImmW, immResultW]
  simp only [executedImm, op, show opIntImmW ≠ opIntImm by decide, if_true, if_false] at executed
  by_cases shift : inst.funct3 = funct3Sll ∨ inst.funct3 = funct3Sr
  · rw [if_pos shift] at executed
    obtain rfl := Option.some.inj executed
    have amount : ((extractBits inst.instruction 31 20 &&& 0x1F).setWidth 32 : BitVec 32).toNat
        = (extractBits inst.instruction 31 20 &&& 0x1F).toNat := by
      rw [toNat_lowW, BitVec.toNat_and]
      exact (Nat.and_two_pow_sub_one_eq_mod _ 5).symm
    simp only [BitVec.shiftLeft_eq', BitVec.ushiftRight_eq', amount, Int.toNat_natCast]
    rcases shift with shift | shift
    · simp [shift, show funct3Sll ≠ funct3Add by decide]
    · simp [shift, funct3Sr_ne]
  · rw [if_neg shift] at executed
    obtain rfl := Option.some.inj executed
    simp only [not_or] at shift
    simp [shift]

theorem upper_applied (op : inst.opcode = opLui ∨ inst.opcode = opAuipc)
    (executed : executedImm inst = some imm)
    : BitVec.ofInt 64 imm = sext64 (extractBits inst.instruction 31 12 <<< 12) 31 := by
  unfold executedImm at executed
  have others : inst.opcode ≠ opIntImm ∧ inst.opcode ≠ opIntImmW ∧ inst.opcode ≠ opJalr
      ∧ inst.opcode ≠ opLoad ∧ inst.opcode ≠ opStore ∧ inst.opcode ≠ opBranch
      ∧ inst.opcode ≠ opJal := by
    rcases op with op | op <;> rw [op] <;> decide
  simp only [others, op, if_false, if_true, or_self] at executed
  obtain rfl := Option.some.inj executed
  exact BitVec.ofInt_toInt ..

end Applied

/-- The immediate is what its stage applies, for every instruction that has one. -/
theorem applies_executedImm {inst : Instruction} {imm : ℤ} (executed : executedImm inst = some imm)
    : Applies inst imm := by
  have extended {value : U64} (same : executedImm inst = some value.toInt)
      : BitVec.ofInt 64 imm = value := by
    rw [executed] at same
    rw [Option.some.inj same, BitVec.ofInt_toInt]
  constructor
  · exact fun op => intImm_applied op executed
  · exact fun op => intImmW_applied op executed
  · intro op
    rw [simArithLogic_unmasked (op ▸ by decide) (op ▸ by decide), aluResult, op,
      upper_applied (.inl op) executed]
    rfl
  · intro op
    rw [simArithLogic_unmasked (op ▸ by decide) (op ▸ by decide), aluResult, op,
      upper_applied (.inr op) executed]
    rfl
  · intro op reads
    rw [extended (by rw [executedImm, op]; rfl)]
    simp [simAddrGen, reads]
  · intro op reads writes
    rw [extended (by rw [executedImm, op]; rfl)]
    simp [simAddrGen, reads, writes]
  · intro op taken
    rw [extended (by rw [executedImm, op]; rfl), simNextPCResolution, op, taken]
    rfl
  · intro op
    rw [extended (by rw [executedImm, op]; rfl), simNextPCResolution, op]
    rfl
  · intro op
    rw [extended (by rw [executedImm, op]; rfl), simNextPCResolution, op]
    rfl

-----------------------------------------------------------------------------------------
-- The immediate that is printed
-----------------------------------------------------------------------------------------

/-- The number in the line of the word: what its handler streams unless it writes ILLEGAL.
HALT, NOP and the operations on two registers have none.
-/
def printedImm (curInst : BitVec 32) : Option ℤ :=
  let word := curInst.setWidth 64
  let opcode := extractBits word 6 0
  let funct3 := extractBits word 14 12
  let funct7 := extractBits word 31 25
  if curInst = 0xfeedfeed ∨ curInst = 0x00000013 then none
  else if opcode = opIntImm ∨ opcode = opIntImmW ∨ opcode = opJalr then
    if getOpString opcode funct3 funct7 = "ILLEGAL" then none else some (iAndRImm word)
  else if opcode = opLoad ∨ opcode = opStore then
    if getOpString opcode funct3 0 = "ILLEGAL" then none else some (lAndSImm word)
  else if opcode = opBranch then
    if getOpString opcode funct3 0 = "ILLEGAL" then none else some (branchImm word)
  else if opcode = opJal ∨ opcode = opLui ∨ opcode = opAuipc then some (specialImm word)
  else none

/-- The text contains the number. -/
def ShowsNumber (text : String) (number : ℤ) : Prop :=
  ∃ before after, text = before ++ toString number ++ after

theorem ShowsNumber.append {text : String} {number : ℤ} (h : ShowsNumber text number)
    (more : String)
    : ShowsNumber (text ++ more) number := by
  obtain ⟨before, after, rfl⟩ := h
  exact ⟨before, after ++ more, String.append_assoc ..⟩

theorem showsNumber_last (before : String) (number : ℤ)
    : ShowsNumber (before ++ toString number) number :=
  ⟨before, "", (String.append_empty).symm⟩

theorem handleIAndR_shows {word : U64}
    (named
      : getOpString (extractBits word 6 0) (extractBits word 14 12) (extractBits word 31 25)
        ≠ "ILLEGAL")
    (immediate : ¬ (extractBits word 6 0 = opInt ∨ extractBits word 6 0 = opIntW))
    : ShowsNumber (handleIAndR word) (iAndRImm word) := by
  rw [handleIAndR, if_neg named, if_neg immediate]
  exact showsNumber_last _ _

theorem handleLAndS_shows {word : U64}
    (named : getOpString (extractBits word 6 0) (extractBits word 14 12) 0 ≠ "ILLEGAL")
    : ShowsNumber (handleLAndS word) (lAndSImm word) := by
  rw [handleLAndS, if_neg named]
  split
  · exact (((showsNumber_last _ _).append "(").append _).append ")"
  · exact (((showsNumber_last _ _).append "(").append _).append ")"

theorem handleBranch_shows {word : U64}
    (named : getOpString (extractBits word 6 0) (extractBits word 14 12) 0 ≠ "ILLEGAL")
    : ShowsNumber (handleBranch word) (branchImm word) := by
  rw [handleBranch, if_neg named]
  exact showsNumber_last _ _

theorem handleSpecial_shows {word : U64}
    (named : getOpString (extractBits word 6 0) 0 0 ≠ "ILLEGAL")
    : ShowsNumber (handleSpecial word) (specialImm word) := by
  rw [handleSpecial, if_neg named]
  exact showsNumber_last _ _

/-- The line of the word contains its number. -/
theorem printInstr_printedImm {word : BitVec 32} {shown : ℤ}
    (printed : printedImm word = some shown) (status : StageStatus)
    : ShowsNumber (printInstr word status) shown := by
  simp only [printedImm] at printed
  split at printed
  case isTrue => cases printed
  case isFalse other =>
  simp only [not_or] at other
  simp only [printInstr, if_neg other.1, if_neg other.2, setwLeft]
  generalize word.setWidth 64 = wide at printed ⊢
  refine ShowsNumber.append (ShowsNumber.append ?_ _) _
  split at printed
  case isTrue op =>
    split at printed
    case isTrue => cases printed
    case isFalse named =>
    obtain rfl := Option.some.inj printed
    rw [if_pos (by grind)]
    exact handleIAndR_shows named (by rcases op with op | op | op <;> rw [op] <;> decide)
  split at printed
  case isTrue op =>
    split at printed
    case isTrue => cases printed
    case isFalse named =>
    obtain rfl := Option.some.inj printed
    rw [if_neg (by rcases op with op | op <;> rw [op] <;> decide), if_pos op]
    exact handleLAndS_shows named
  split at printed
  case isTrue op =>
    split at printed
    case isTrue => cases printed
    case isFalse named =>
    obtain rfl := Option.some.inj printed
    rw [if_neg (by rw [op]; decide), if_neg (by rw [op]; decide), if_pos op]
    exact handleBranch_shows named
  split at printed
  case isTrue op =>
    obtain rfl := Option.some.inj printed
    rw [if_neg (by rcases op with op | op | op <;> rw [op] <;> decide),
      if_neg (by rcases op with op | op | op <;> rw [op] <;> decide),
      if_neg (by rcases op with op | op | op <;> rw [op] <;> decide), if_pos op]
    exact handleSpecial_shows (by rcases op with op | op | op <;> rw [op] <;> decide)
  case isFalse => cases printed

section Values

variable {inst : Instruction} {word : BitVec 32}

theorem simDecode_extracts (carries : inst.instruction = word.setWidth 64)
    : extractBits (word.setWidth 64) 6 0 = (simDecode inst).opcode
      ∧ extractBits (word.setWidth 64) 14 12 = (simDecode inst).funct3
      ∧ extractBits (word.setWidth 64) 31 25 = (simDecode inst).funct7
      ∧ extractBits (word.setWidth 64) 11 7 = (simDecode inst).rd := by
  obtain ⟨opcode, funct3, funct7, rd⟩ := decodeSignals_fields (decodeFields inst)
  simp only [simDecode, opcode, funct3, funct7, rd, ← carries]
  exact ⟨rfl, rfl, rfl, rfl⟩

/-- The signed immediate of the I format. -/
theorem toInt_imm12 (word : BitVec 32)
    : (sext64 (extractBits (word.setWidth 64) 31 20) 11).toInt
      = (word.extractLsb' 20 12).toInt := by
  rw [extractBits_word word 20 12 (by decide) (by decide),
    sext64_setWidth _ (by decide) (by decide), BitVec.toInt_signExtend_of_le (by decide)]

theorem toInt_imm12W (word : BitVec 32)
    : (sext32 ((extractBits (word.setWidth 64) 31 20).setWidth 32) 11).toInt
      = (word.extractLsb' 20 12).toInt := by
  rw [extractBits_word word 20 12 (by decide) (by decide),
    BitVec.setWidth_setWidth_of_le _ (by decide), sext32_setWidth _ (by decide) (by decide),
    BitVec.toInt_signExtend_of_le (by decide)]

/-- The shift amounts in the I format. -/
theorem toNat_shamt (word : BitVec 32)
    : (extractBits (word.setWidth 64) 31 20 &&& 0x3F).toNat = (word.extractLsb' 20 12).toNat % 64
      ∧ (extractBits (word.setWidth 64) 31 20 &&& 0x1F).toNat
        = (word.extractLsb' 20 12).toNat % 32 := by
  have imm : (extractBits (word.setWidth 64) 31 20).toNat = (word.extractLsb' 20 12).toNat := by
    rw [extractBits_word word 20 12 (by decide) (by decide), BitVec.toNat_setWidth]
    exact Nat.mod_eq_of_lt (by omega)
  rw [BitVec.toNat_and, BitVec.toNat_and, imm]
  exact ⟨Nat.and_two_pow_sub_one_eq_mod _ 6, Nat.and_two_pow_sub_one_eq_mod _ 5⟩

/-- Bit 25 of the word is bit 5 of the immediate. -/
theorem shamt_agrees_iff (word : BitVec 32)
    : (word.extractLsb' 20 12).toNat % 64 = (word.extractLsb' 20 12).toNat % 32
      ↔ word.getLsbD 25 = false := by
  have bit : word.getLsbD 25 = (word.extractLsb' 20 12).toNat.testBit 5 := by
    rw [BitVec.testBit_toNat]
    simp
  rw [bit, Nat.testBit_eq_decide_div_mod_eq]
  simp only [decide_eq_false_iff_not]
  omega

/-- A signed immediate is its own six low bits if it is below 64. -/
theorem low_agrees_iff (imm : BitVec 12)
    : ((imm.toNat % 64 : ℕ) : ℤ) = imm.toInt ↔ imm.toNat < 64 := by
  rw [BitVec.toInt_eq_toNat_cond]
  split <;> omega

/-- Sign extension from a bit copies it to all bits above. -/
theorem getLsbD_sext64 (imm : U64) {signBit : ℕ} (bound : signBit < 63) {i : ℕ} (inside : i < 64)
    : (sext64 imm signBit).getLsbD i
      = (imm.getLsbD i || (decide (signBit < i) && imm.getLsbD signBit)) := by
  have test : imm &&& (1#64 <<< signBit) ≠ 0 ↔ imm.getLsbD signBit = true :=
    Words.and_bit_ne_zero imm (by omega)
  unfold sext64
  cases bit : imm.getLsbD signBit with
  | true =>
      rw [if_pos (test.mpr bit)]
      simp only [BitVec.getLsbD_or, BitVec.getLsbD_shiftLeft, BitVec.getLsbD_allOnes, inside,
        show i - (signBit + 1) < 64 by omega, Nat.lt_succ_iff]
      by_cases above : signBit < i
      · simp [above, Nat.not_le.mpr above]
      · simp [above, Nat.not_lt.mp above]
  | false =>
      rw [if_neg (fun set => by simp [test.mp set] at bit)]
      simp

/-- The bits of the upper immediate in place. -/
theorem getLsbD_upperImm (word : BitVec 32) (i : ℕ)
    : (extractBits (word.setWidth 64) 31 12 <<< 12).getLsbD i
      = (decide (12 ≤ i) && word.getLsbD i) := by
  rw [BitVec.getLsbD_shiftLeft, getLsbD_extractBits _ (by decide), BitVec.getLsbD_setWidth]
  by_cases low : i < 12
  · simp [low, Nat.not_le.mpr low]
  · have place : 12 + (i - 12) = i := by omega
    rw [place]
    by_cases inside : i < 32
    · simp [low, Nat.not_lt.mp low, show i < 64 by omega, show i - 12 < 31 - 12 + 1 by omega]
    · simp [BitVec.getLsbD_of_ge word i (by omega)]

/-- The bits of a value extended from bit 19 and from bit 31. -/
theorem copies_agree_iff {bit : ℕ → Bool} (clear : ∀ i, 32 ≤ i → bit i = false)
    : (∀ i < 64,
        (decide (12 ≤ i) && bit i || decide (19 < i) && bit 19)
        = (decide (12 ≤ i) && bit i || decide (31 < i) && bit 31))
      ↔ ¬ (if bit 19 then ¬ ∀ j < 12, bit (20 + j) = true else bit 31 = true) := by
  constructor
  · intro agree
    cases sign : bit 19 with
    | true =>
        simp only [if_true, not_not]
        intro j below
        have here := agree (20 + j) (by omega)
        simpa [sign, show ¬ 31 < 20 + j by omega, show 12 ≤ 20 + j by omega,
          show 19 < 20 + j by omega] using here
    | false =>
        have top := agree 63 (by decide)
        simp only [sign, clear 63 (by decide)] at top
        simpa using top.symm
  · intro copies i inside
    cases sign : bit 19 with
    | true =>
        simp only [sign, if_true, not_not] at copies
        have top : bit 31 = true := copies 11 (by decide)
        by_cases above : 31 < i
        · simp [top, above, show 19 < i by omega]
        by_cases middle : 19 < i
        · have here := copies (i - 20) (by omega)
          rw [show 20 + (i - 20) = i by omega] at here
          simp [here, middle, show 12 ≤ i by omega]
        · simp [above, middle]
    | false =>
        have top : bit 31 = false := by simpa [sign] using copies
        simp [top]

/-- The twelve bits above bit 19 are set. -/
theorem extract_ones_iff (word : BitVec 32)
    : word.extractLsb' 20 12 = BitVec.allOnes 12 ↔ ∀ j < 12, word.getLsbD (20 + j) = true := by
  constructor
  · intro ones j below
    have bit := congrArg (fun value => value.getLsbD j) ones
    simp only [BitVec.getLsbD_extractLsb', BitVec.getLsbD_allOnes, below, decide_true,
      Bool.true_and] at bit
    exact bit
  · intro ones
    apply BitVec.eq_of_getLsbD_eq
    intro j below
    rw [BitVec.getLsbD_extractLsb', BitVec.getLsbD_allOnes, ones j below]
    simp

/-- The two extensions of the upper immediate agree if the bits above bit 19 are copies of it
when it is set, and bit 31 is clear when it is not.
-/
theorem upper_agrees_iff (word : BitVec 32)
    : (sext64 (extractBits (word.setWidth 64) 31 12 <<< 12) 19).toInt
        = (sext64 (extractBits (word.setWidth 64) 31 12 <<< 12) 31).toInt
      ↔ ¬ (if word.getLsbD 19 then word.extractLsb' 20 12 ≠ BitVec.allOnes 12
          else word.getLsbD 31 = true) := by
  have clear : ∀ i, 32 ≤ i → word.getLsbD i = false :=
    fun i above => BitVec.getLsbD_of_ge word i above
  rw [Ne, extract_ones_iff, ← copies_agree_iff clear, BitVec.toInt_inj]
  have narrow (i : ℕ) (inside : i < 64) := getLsbD_sext64
    (extractBits (word.setWidth 64) 31 12 <<< 12) (show 19 < 63 by decide) inside
  have wide (i : ℕ) (inside : i < 64) := getLsbD_sext64
    (extractBits (word.setWidth 64) 31 12 <<< 12) (show 31 < 63 by decide) inside
  simp only [getLsbD_upperImm, show 12 ≤ 19 by decide, show 12 ≤ 31 by decide, decide_true,
    Bool.true_and] at narrow wide
  constructor
  · intro same i inside
    rw [← narrow i inside, ← wide i inside, same]
  · intro agree
    apply BitVec.eq_of_getLsbD_eq
    intro i inside
    rw [narrow i inside, wide i inside, agree i inside]

end Values

-----------------------------------------------------------------------------------------
-- The dump against the executor
-----------------------------------------------------------------------------------------

/-- The number the dump shows, if any, is the immediate that is executed: it is in the text of
the word's line, and the stage that uses the immediate applies it, whatever the operands.
-/
def TracesImmediate (inst : Instruction) (word : BitVec 32) : Prop :=
  ∀ shown, printedImm word = some shown
    → executedImm (simDecode inst) = some shown
      ∧ (∀ status, ShowsNumber (printInstr word status) shown)
      ∧ ∀ executed : Instruction, executed.control = (simDecode inst).control
        → Applies executed shown

/-- The immediate is a matter of the fields, not of the operands. -/
theorem executedImm_congr {left right : Instruction} (same : left.control = right.control)
    : executedImm left = executedImm right := by
  have fields := Instruction.sameControl same
  simp only [executedImm, fields.rd, fields.funct7, fields.instruction, fields.opcode,
    fields.funct3]

/-- It is enough that the two numbers agree. -/
theorem tracesImmediate_of_executedImm {inst : Instruction} {word : BitVec 32}
    (agree : ∀ shown, printedImm word = some shown → executedImm (simDecode inst) = some shown)
    : TracesImmediate inst word := by
  intro shown printed
  refine ⟨agree shown printed, printInstr_printedImm printed, fun executed same => ?_⟩
  exact applies_executedImm ((executedImm_congr same).trans (agree shown printed))

/-- The immediates that the dump shows wrong: the shift amount of `slliw` with bit 5 of the
field set, the offset of a JALR whose `funct3` is that of a shift, and the upper immediates
that are no sign extensions from bit 19.
-/
def ImmMisprinted (word : BitVec 32) : Prop :=
  (Rv64i.opcode word = 0b0011011 ∧ Rv64i.funct3 word = 0b001 ∧ word.getLsbD 25 = true)
  ∨ (Rv64i.opcode word = 0b1100111 ∧ (Rv64i.funct3 word = 0b001 ∨ Rv64i.funct3 word = 0b101)
    ∧ 64 ≤ (word.extractLsb' 20 12).toNat)
  ∨ ((Rv64i.opcode word = 0b0110111 ∨ Rv64i.opcode word = 0b0010111)
    ∧ if word.getLsbD 19 then word.extractLsb' 20 12 ≠ BitVec.allOnes 12
      else word.getLsbD 31 = true)

instance (word : BitVec 32) : Decidable (ImmMisprinted word) := by
  unfold ImmMisprinted
  infer_instance

section Agreement

variable {inst : Instruction} {word : BitVec 32} {shown : ℤ}

/-- The operations on 64 bits, loads, stores, branches and JAL are shown as executed. -/
theorem executedImm_plain (carries : inst.instruction = word.setWidth 64)
    : ((simDecode inst).opcode = opIntImm
        → executedImm (simDecode inst) = some (iAndRImm (word.setWidth 64)))
      ∧ ((simDecode inst).opcode = opLoad ∨ (simDecode inst).opcode = opStore
        → executedImm (simDecode inst) = some (lAndSImm (word.setWidth 64)))
      ∧ ((simDecode inst).opcode = opBranch
        → executedImm (simDecode inst) = some (branchImm (word.setWidth 64)))
      ∧ ((simDecode inst).opcode = opJal
        → executedImm (simDecode inst) = some (specialImm (word.setWidth 64))) := by
  obtain ⟨opcode, funct3, funct7, rd⟩ := simDecode_extracts carries
  have instruction : (simDecode inst).instruction = word.setWidth 64 := by
    rw [simDecode_instruction, carries]
  simp only [executedImm, iAndRImm, lAndSImm, branchImm, specialImm, opcode, funct3, funct7, rd,
    instruction]
  refine ⟨fun op => ?_, fun op => ?_, fun op => ?_, fun op => ?_⟩
  · rw [if_pos op]
    split <;> rfl
  · rcases op with op | op
    · rw [op]
      rfl
    · rw [op]
      rfl
  · rw [op]
    rfl
  · rw [op]
    rfl

/-- The operations on 32 bits are shown as executed, but for a left shift with bit 25 set. -/
theorem executedImm_intImmW (carries : inst.instruction = word.setWidth 64)
    (op : (simDecode inst).opcode = opIntImmW)
    (named
      : getOpString (simDecode inst).opcode (simDecode inst).funct3 (simDecode inst).funct7
        ≠ "ILLEGAL")
    : executedImm (simDecode inst) = some (iAndRImm (word.setWidth 64))
      ↔ ¬ ((simDecode inst).funct3 = funct3Sll ∧ word.getLsbD 25 = true) := by
  have shows := simDecode_shows carries
  obtain ⟨_, funct3, _, _⟩ := simDecode_extracts carries
  have right : (simDecode inst).funct3 = funct3Sr → word.getLsbD 25 = false := by
    intro shift
    rw [op, Ne, getOpString_intImmW, not_not, intWBody_isSome, shift] at named
    have upper : Rv64i.funct7 word = 0b0100000 ∨ Rv64i.funct7 word = 0b0000000 := by
      have codes := (named.resolve_left fun add => funct3Sr_ne.1 add.1).resolve_left funct3Sr_ne.2.1
      rw [shows.funct7_eq_iff (by decide), shows.funct7_eq_iff (by decide)] at codes
      exact codes.2
    have low : word.getLsbD 25 = (Rv64i.funct7 word).getLsbD 0 := by
      rw [Rv64i.funct7, BitVec.getLsbD_extractLsb']
      rfl
    rw [low]
    rcases upper with upper | upper <;> rw [upper] <;> rfl
  have executed : executedImm (simDecode inst)
      = if (simDecode inst).funct3 = funct3Sll ∨ (simDecode inst).funct3 = funct3Sr then
          some (((word.extractLsb' 20 12).toNat % 32 : ℕ) : ℤ)
        else some (word.extractLsb' 20 12).toInt := by
    rw [← (toNat_shamt word).2, ← toInt_imm12W word, ← carries, executedImm, op,
      simDecode_instruction]
    rfl
  rw [executed, iAndRImm, funct3, (toNat_shamt word).1, toInt_imm12]
  by_cases shift : (simDecode inst).funct3 = funct3Sll ∨ (simDecode inst).funct3 = funct3Sr
  · rw [if_pos shift, if_pos shift, Option.some.injEq, Nat.cast_inj, eq_comm, shamt_agrees_iff]
    rcases shift with shift | shift
    · simp [shift]
    · exact iff_of_true (right shift) fun left => funct3Sr_ne.2.1 (shift.symm.trans left.1)
  · rw [if_neg shift, if_neg shift]
    simp only [not_or] at shift
    simp [shift.1]

/-- The offset of a JALR is shown as executed, unless it is shown as a shift amount. -/
theorem executedImm_jalr (carries : inst.instruction = word.setWidth 64)
    (op : (simDecode inst).opcode = opJalr)
    : executedImm (simDecode inst) = some (iAndRImm (word.setWidth 64))
      ↔ ¬ (((simDecode inst).funct3 = funct3Sll ∨ (simDecode inst).funct3 = funct3Sr)
        ∧ 64 ≤ (word.extractLsb' 20 12).toNat) := by
  obtain ⟨_, funct3, _, _⟩ := simDecode_extracts carries
  have executed
      : executedImm (simDecode inst) = some (word.extractLsb' 20 12).toInt := by
    rw [← toInt_imm12 word, ← carries, executedImm, op, simDecode_instruction]
    rfl
  rw [executed, iAndRImm, funct3, (toNat_shamt word).1, toInt_imm12]
  by_cases shift : (simDecode inst).funct3 = funct3Sll ∨ (simDecode inst).funct3 = funct3Sr
  · rw [if_pos shift, Option.some.injEq, eq_comm, low_agrees_iff, and_iff_right shift, not_le]
  · rw [if_neg shift]
    simp [shift]

/-- The upper immediate is shown as executed if it is a sign extension from bit 19. -/
theorem executedImm_upper (carries : inst.instruction = word.setWidth 64)
    (op : (simDecode inst).opcode = opLui ∨ (simDecode inst).opcode = opAuipc)
    : executedImm (simDecode inst) = some (specialImm (word.setWidth 64))
      ↔ ¬ (if word.getLsbD 19 then word.extractLsb' 20 12 ≠ BitVec.allOnes 12
          else word.getLsbD 31 = true) := by
  obtain ⟨opcode, _, _, _⟩ := simDecode_extracts carries
  have executed : executedImm (simDecode inst)
      = some (sext64 (extractBits (word.setWidth 64) 31 12 <<< 12) 31).toInt := by
    rw [← carries]
    rcases op with op | op
    · rw [executedImm, op, simDecode_instruction]
      rfl
    · rw [executedImm, op, simDecode_instruction]
      rfl
  have upper : (simDecode inst).opcode ≠ opJal := by
    rcases op with op | op <;> rw [op] <;> decide
  rw [executed, specialImm, opcode, if_neg upper, Option.some.injEq, eq_comm, upper_agrees_iff]

/-- HALT and NOP are no words of these opcodes. -/
theorem not_special (carries : inst.instruction = word.setWidth 64)
    (op
      : (simDecode inst).opcode = opIntImmW ∨ (simDecode inst).opcode = opJalr
        ∨ (simDecode inst).opcode = opLui ∨ (simDecode inst).opcode = opAuipc)
    : ¬ (word = 0xfeedfeed ∨ word = 0x00000013) := by
  obtain ⟨opcode, _, _, _⟩ := simDecode_extracts carries
  rw [← opcode] at op
  rintro (rfl | rfl)
  · revert op
    decide
  · revert op
    decide

/-- The dump shows the immediate that is executed, unless its class is misprinted. Witness: by
opcode; the wrong numbers are compared with the executed ones bit by bit.
-/
theorem tracesImmediate_iff (inst : Instruction) (word : BitVec 32)
    (carries : inst.instruction = word.setWidth 64)
    : TracesImmediate inst word ↔ ¬ ImmMisprinted word := by
  have shows := simDecode_shows carries
  obtain ⟨opcode, funct3, funct7, rd⟩ := simDecode_extracts carries
  obtain ⟨intImm, access, branch, jal⟩ := executedImm_plain carries
  have ops : ImmMisprinted word
      ↔ ((simDecode inst).opcode = opIntImmW
          ∧ (simDecode inst).funct3 = funct3Sll ∧ word.getLsbD 25 = true)
        ∨ ((simDecode inst).opcode = opJalr
          ∧ ((simDecode inst).funct3 = funct3Sll ∨ (simDecode inst).funct3 = funct3Sr)
          ∧ 64 ≤ (word.extractLsb' 20 12).toNat)
        ∨ (((simDecode inst).opcode = opLui ∨ (simDecode inst).opcode = opAuipc)
          ∧ if word.getLsbD 19 then word.extractLsb' 20 12 ≠ BitVec.allOnes 12
            else word.getLsbD 31 = true) := by
    simp (disch := decide) only [shows.opcode_eq_iff, shows.funct3_eq_iff]
    rfl
  rw [ops]
  constructor
  · intro traced misprinted
    rcases misprinted with ⟨op, left, bit⟩ | ⟨op, shift, large⟩ | ⟨op, wrong⟩
    · have named
          : getOpString (simDecode inst).opcode (simDecode inst).funct3 (simDecode inst).funct7
            ≠ "ILLEGAL" := by
        rw [op, left]
        exact show "slliw" ≠ "ILLEGAL" by decide
      have printed : printedImm word = some (iAndRImm (word.setWidth 64)) := by
        simp only [printedImm, if_neg (not_special carries (.inl op)), opcode, funct3, funct7]
        rw [if_pos (.inr (.inl op)), if_neg named]
      exact (executedImm_intImmW carries op named).mp (traced _ printed).1 ⟨left, bit⟩
    · have printed : printedImm word = some (iAndRImm (word.setWidth 64)) := by
        simp only [printedImm, if_neg (not_special carries (.inr (.inl op))), opcode, funct3,
          funct7]
        rw [if_pos (.inr (.inr op)), op]
        rfl
      exact (executedImm_jalr carries op).mp (traced _ printed).1 ⟨shift, large⟩
    · have printed : printedImm word = some (specialImm (word.setWidth 64)) := by
        simp only [printedImm, if_neg (not_special carries (.inr (.inr op))), opcode, funct3,
          funct7]
        rcases op with op | op
        · rw [op]
          rfl
        · rw [op]
          rfl
      exact (executedImm_upper carries op).mp (traced _ printed).1 wrong
  · intro right
    simp only [not_or] at right
    obtain ⟨intImmW, jalr, upper⟩ := right
    refine tracesImmediate_of_executedImm fun shown printed => ?_
    simp only [printedImm, opcode, funct3, funct7] at printed
    split at printed
    case isTrue => cases printed
    split at printed
    case isTrue op =>
      split at printed
      case isTrue => cases printed
      case isFalse named =>
      rw [← printed]
      rcases op with op | op | op
      · exact intImm op
      · exact (executedImm_intImmW carries op named).mpr fun wrong => intImmW ⟨op, wrong⟩
      · exact (executedImm_jalr carries op).mpr fun wrong => jalr ⟨op, wrong⟩
    split at printed
    case isTrue op =>
      split at printed
      case isTrue => cases printed
      case isFalse => exact (access op).trans printed
    split at printed
    case isTrue op =>
      split at printed
      case isTrue => cases printed
      case isFalse => exact (branch op).trans printed
    split at printed
    case isTrue op =>
      rw [← printed]
      rcases op with op | op
      · exact jal op
      · exact (executedImm_upper carries op).mpr fun wrong => upper ⟨op, wrong⟩
    case isFalse => cases printed

end Agreement

/-- `lw t1, -4(gp)` is shown with its offset. -/
theorem tracesImmediate_lw : TracesImmediate { instruction := 0xffc1a303 } 0xffc1a303 :=
  (tracesImmediate_iff _ _ rfl).mpr (by decide)

/-- `lui t0, 0x80` loads 524288 and is shown loading -524288. -/
theorem lui_misprinted
    : ¬ TracesImmediate { instruction := 0x000802b7 } 0x000802b7
      ∧ (simDecode { instruction := 0x000802b7 }).isLegal = true
      ∧ printInstr 0x000802b7 .normal = " lui t0, -524288         "
      ∧ (simArithLogic (simDecode { instruction := 0x000802b7 })).arithResult = 524288 := by
  refine ⟨fun traced => ?_, by decide, by decide +kernel, by decide⟩
  have same := (traced (-524288) (by decide)).1
  exact absurd same (by decide)

end RiscvSim
