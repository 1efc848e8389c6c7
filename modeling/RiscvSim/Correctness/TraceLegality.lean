import RiscvSim.Correctness.Decoder
import RiscvSim.Source.Trace

/-! Where the pipe-state dump and the decoder disagree on which words are instructions. -/

namespace RiscvSim

/-- The text says ILLEGAL. -/
def SaysIllegal (text : String) : Prop := "ILLEGAL".toList <:+: text.toList

-----------------------------------------------------------------------------------------
-- Texts without the letter I
-----------------------------------------------------------------------------------------

/-- Every part of a line but the word ILLEGAL is written without the capital letter I. -/
def Uncapped (text : String) : Prop := 'I' ∉ text.toList

instance (text : String) : Decidable (Uncapped text) := inferInstanceAs (Decidable (¬ _))

theorem Uncapped.append {left right : String} (hl : Uncapped left) (hr : Uncapped right)
    : Uncapped (left ++ right) := by
  simp only [Uncapped, String.toList_append, List.mem_append, not_or]
  exact ⟨hl, hr⟩

theorem Uncapped.not_saysIllegal {text : String} (h : Uncapped text) : ¬ SaysIllegal text :=
  fun written => h (written.subset (by decide))

theorem saysIllegal_append (text : String) : SaysIllegal (" ILLEGAL" ++ text) := by
  rw [SaysIllegal, String.toList_append]
  exact (List.infix_append [' '] _ []).trans (List.prefix_append _ _).isInfix

theorem uncapped_digits (n : ℕ) : Uncapped (toString n) := by
  intro member
  have digit := Nat.isDigit_of_mem_toDigits (by decide) (by decide)
    (show 'I' ∈ Nat.toDigits 10 n by simpa [toString, Nat.repr] using member)
  exact absurd digit (by decide)

theorem uncapped_int (z : ℤ) : Uncapped (toString z) := by
  cases z with
  | ofNat n => exact uncapped_digits n
  | negSucc n => exact (show Uncapped "-" by decide).append (uncapped_digits (n + 1))

theorem uncapped_regName (r : U64) : Uncapped (regName r) := by
  have names : ∀ name ∈ regNames, Uncapped name := by decide
  unfold regName
  rw [List.getD_eq_getElem?_getD]
  cases found : regNames[r.toNat]? with
  | none => decide
  | some name => exact names name (List.mem_of_getElem? found)

theorem uncapped_status (status : StageStatus) : Uncapped status.str := by
  cases status <;> decide

theorem uncapped_spaces (n : ℕ) : Uncapped (String.ofList (List.replicate n ' ')) := by
  simp [Uncapped]

theorem not_saysIllegal_setwLeft {text : String} (h : Uncapped text)
    : ¬ SaysIllegal (setwLeft 25 text) :=
  (h.append (uncapped_spaces _)).not_saysIllegal

theorem saysIllegal_setwLeft (text : String) : SaysIllegal (setwLeft 25 (" ILLEGAL" ++ text)) := by
  rw [setwLeft, String.append_assoc]
  exact saysIllegal_append _

-----------------------------------------------------------------------------------------
-- The names of the trace
-----------------------------------------------------------------------------------------

theorem intBody_mem {opcode funct3 funct7 : U64} {name : String}
    (named : intBody opcode funct3 funct7 = some name)
    : name ∈ ["add", "sub", "sll", "slt", "sltu", "xor", "srl", "sra", "or", "and"] := by
  unfold intBody at named
  split_ifs at named <;> cases named <;> decide

theorem intWBody_mem {funct3 funct7 : U64} {name : String}
    (named : intWBody funct3 funct7 = some name)
    : name ∈ ["add", "sub", "sll", "srl", "sra"] := by
  unfold intWBody at named
  split_ifs at named <;> cases named <;> decide

theorem loadBody_mem {funct3 : U64} {name : String} (named : loadBody funct3 = some name)
    : name ∈ ["b", "h", "w", "d", "bu", "hu", "wu"] := by
  unfold loadBody at named
  split_ifs at named <;> cases named <;> decide

theorem storeBody_mem {funct3 : U64} {name : String} (named : storeBody funct3 = some name)
    : name ∈ ["b", "h", "w", "d"] := by
  unfold storeBody at named
  split_ifs at named <;> cases named <;> decide

theorem branchBody_mem {funct3 : U64} {name : String} (named : branchBody funct3 = some name)
    : name ∈ ["eq", "ne", "lt", "ge", "ltu", "geu"] := by
  unfold branchBody at named
  split_ifs at named <;> cases named <;> decide

/-- A name is ILLEGAL or written in small letters. -/
def Named (text : String) : Prop := text = "ILLEGAL" ∨ Uncapped text

theorem Named.ite {c : Prop} [Decidable c] {left right : String} (hl : Named left)
    (hr : Named right)
    : Named (if c then left else right) := by
  split
  · exact hl
  · exact hr

theorem named_opName {front suffix : String} {body : Option String} {names : List String}
    (listed : ∀ name, body = some name → name ∈ names)
    (small : ∀ name ∈ names, Uncapped (front ++ name ++ suffix))
    : Named (opName front suffix body) := by
  cases body with
  | none => exact .inl rfl
  | some name => exact .inr (small name (listed name rfl))

theorem named_getOpString (opcode funct3 funct7 : U64)
    : Named (getOpString opcode funct3 funct7) := by
  unfold getOpString
  refine .ite ?_ (.ite ?_ (.ite ?_ (.ite ?_ (.ite ?_ (.ite ?_ (.ite ?_ (.ite ?_ (.ite ?_
    (.ite ?_ (.ite ?_ ?_))))))))))
  · exact named_opName (fun _ => intBody_mem) (by decide)
  · exact named_opName (fun _ => intBody_mem) (by decide)
  · exact named_opName (fun _ => intWBody_mem) (by decide)
  · exact named_opName (fun _ => intWBody_mem) (by decide)
  · exact named_opName (fun _ => loadBody_mem) (by decide)
  · exact named_opName (fun _ => storeBody_mem) (by decide)
  · exact named_opName (fun _ => branchBody_mem) (by decide)
  · exact .inr (by decide)
  · exact .inr (by decide)
  · exact .inr (by decide)
  · exact .inr (by decide)
  · exact .inl rfl

-----------------------------------------------------------------------------------------
-- The text of a word
-----------------------------------------------------------------------------------------

/-- A line shows ILLEGAL exactly in place of a name. -/
theorem saysIllegal_line {name rest : String} {status : StageStatus}
    (small : name ≠ "ILLEGAL" → Uncapped rest)
    : SaysIllegal (setwLeft 25 ((if name = "ILLEGAL" then " ILLEGAL" else rest) ++ status.str))
      ↔ name = "ILLEGAL" := by
  split
  · exact iff_of_true (saysIllegal_setwLeft _) ‹_›
  · rename_i named
    exact iff_of_false
      (not_saysIllegal_setwLeft ((small named).append (uncapped_status status))) named

/-- A name between blanks has capitals only if it is ILLEGAL. -/
theorem uncapped_start {opcode funct3 funct7 : U64}
    (named : getOpString opcode funct3 funct7 ≠ "ILLEGAL")
    : Uncapped (" " ++ getOpString opcode funct3 funct7 ++ " ") := by
  have blank : Uncapped " " := by decide
  exact (blank.append ((named_getOpString _ _ _).resolve_left named)).append blank

theorem saysIllegal_handleIAndR (word : U64) (status : StageStatus)
    : SaysIllegal (setwLeft 25 (handleIAndR word ++ status.str))
      ↔ getOpString (extractBits word 6 0) (extractBits word 14 12) (extractBits word 31 25)
        = "ILLEGAL" := by
  refine saysIllegal_line fun named => ?_
  have start := uncapped_start named
  have comma : Uncapped ", " := by decide
  split
  · exact ((((start.append (uncapped_regName _)).append comma).append
      (uncapped_regName _)).append comma).append (uncapped_regName _)
  · exact ((((start.append (uncapped_regName _)).append comma).append
      (uncapped_regName _)).append comma).append (uncapped_int _)

theorem saysIllegal_handleLAndS (word : U64) (status : StageStatus)
    : SaysIllegal (setwLeft 25 (handleLAndS word ++ status.str))
      ↔ getOpString (extractBits word 6 0) (extractBits word 14 12) 0 = "ILLEGAL" := by
  refine saysIllegal_line fun named => ?_
  have start := uncapped_start named
  have comma : Uncapped ", " := by decide
  split
  all_goals
    exact ((((((start.append (uncapped_regName _)).append comma).append
      (uncapped_int _)).append (show Uncapped "(" by decide)).append
      (uncapped_regName _)).append (show Uncapped ")" by decide))

theorem saysIllegal_handleBranch (word : U64) (status : StageStatus)
    : SaysIllegal (setwLeft 25 (handleBranch word ++ status.str))
      ↔ getOpString (extractBits word 6 0) (extractBits word 14 12) 0 = "ILLEGAL" := by
  refine saysIllegal_line fun named => ?_
  have start := uncapped_start named
  have comma : Uncapped ", " := by decide
  exact ((((start.append (uncapped_regName _)).append comma).append
    (uncapped_regName _)).append comma).append (uncapped_int _)

theorem saysIllegal_handleSpecial (word : U64) (status : StageStatus)
    : SaysIllegal (setwLeft 25 (handleSpecial word ++ status.str))
      ↔ getOpString (extractBits word 6 0) 0 0 = "ILLEGAL" := by
  refine saysIllegal_line fun named => ?_
  have start := uncapped_start named
  exact ((start.append (uncapped_regName _)).append (show Uncapped ", " by decide)).append
    (uncapped_int _)

/-- The line of a word other than HALT and NOP says ILLEGAL if its fields have no name. -/
theorem saysIllegal_printInstr {word : BitVec 32} (noHalt : word ≠ 0xfeedfeed)
    (noNop : word ≠ 0x00000013) (status : StageStatus)
    : SaysIllegal (printInstr word status)
      ↔ getOpString (extractBits (word.setWidth 64) 6 0) (extractBits (word.setWidth 64) 14 12)
          (extractBits (word.setWidth 64) 31 25)
        = "ILLEGAL" := by
  simp only [printInstr, if_neg noHalt, if_neg noNop]
  generalize word.setWidth 64 = wide
  split
  case isTrue => exact saysIllegal_handleIAndR wide status
  split
  case isTrue op =>
    rw [saysIllegal_handleLAndS]
    rcases op with op | op <;> rw [op] <;> rfl
  split
  case isTrue op =>
    rw [saysIllegal_handleBranch, op]
    rfl
  split
  case isTrue op =>
    rw [saysIllegal_handleSpecial]
    rcases op with op | op | op <;> rw [op] <;> rfl
  case isFalse alu access branch special =>
    simp only [not_or] at alu access special
    refine iff_of_true (saysIllegal_setwLeft _) ?_
    simp only [getOpString, alu, access, branch, special, if_false]

-----------------------------------------------------------------------------------------
-- The two switches
-----------------------------------------------------------------------------------------

/-- The codes of `funct3` are apart. -/
theorem funct3_codes
    : [funct3Add, funct3Sll, funct3Slt, funct3Sltu, funct3Xor, funct3Sr, funct3Or,
        funct3And].Nodup := by
  decide

/-- The names of the operations on 64 bits, with the comparisons of the decoder. -/
theorem intBody_isSome (opcode funct3 funct7 : U64)
    : (intBody opcode funct3 funct7).isSome = true
      ↔ (funct3 = funct3Add ∧ (opcode = opInt → funct7 = funct7Add ∨ funct7 = funct7Sub))
        ∨ funct3 = funct3Sll ∨ funct3 = funct3Slt ∨ funct3 = funct3Sltu ∨ funct3 = funct3Xor
        ∨ (funct3 = funct3Sr
          ∧ (funct7.ushiftRight 1 = upperImmArith ∨ funct7.ushiftRight 1 = upperImmLogical))
        ∨ funct3 = funct3Or ∨ funct3 = funct3And := by
  have apart := funct3_codes
  simp only [List.nodup_cons, List.mem_cons, not_or] at apart
  unfold intBody
  by_cases add : funct3 = funct3Add
  · subst add
    simp only [if_true]
    split_ifs <;> simp_all
  by_cases shift : funct3 = funct3Sr
  · subst shift
    simp only [add, if_true, if_false]
    split_ifs <;> simp_all
  · simp only [add, shift, if_false]
    split_ifs <;> simp_all

/-- The names of the operations on 32 bits. Unlike the decoder this compares `funct7` also
for `addiw`.
-/
theorem intWBody_isSome (funct3 funct7 : U64)
    : (intWBody funct3 funct7).isSome = true
      ↔ (funct3 = funct3Add ∧ (funct7 = funct7Add ∨ funct7 = funct7Sub))
        ∨ funct3 = funct3Sll
        ∨ (funct3 = funct3Sr ∧ (funct7 = funct7Arith ∨ funct7 = funct7Logical)) := by
  have apart := funct3_codes
  simp only [List.nodup_cons, List.mem_cons, not_or] at apart
  unfold intWBody
  by_cases add : funct3 = funct3Add
  · subst add
    simp only [if_true]
    split_ifs <;> simp_all
  by_cases shift : funct3 = funct3Sr
  · subst shift
    simp only [add, if_true, if_false]
    split_ifs <;> simp_all
  · simp only [add, shift, if_false]
    split_ifs <;> simp_all

theorem loadBody_isSome (funct3 : U64)
    : (loadBody funct3).isSome = true
      ↔ funct3 = funct3B ∨ funct3 = funct3H ∨ funct3 = funct3W ∨ funct3 = funct3D
        ∨ funct3 = funct3Bu ∨ funct3 = funct3Hu ∨ funct3 = funct3Wu := by
  unfold loadBody
  split_ifs <;> simp_all

theorem storeBody_isSome (funct3 : U64)
    : (storeBody funct3).isSome = true
      ↔ funct3 = funct3B ∨ funct3 = funct3H ∨ funct3 = funct3W ∨ funct3 = funct3D := by
  unfold storeBody
  split_ifs <;> simp_all

theorem branchBody_isSome (funct3 : U64)
    : (branchBody funct3).isSome = true
      ↔ funct3 = funct3Beq ∨ funct3 = funct3Bne ∨ funct3 = funct3Blt ∨ funct3 = funct3Bge
        ∨ funct3 = funct3Bltu ∨ funct3 = funct3Bgeu := by
  unfold branchBody
  split_ifs <;> simp_all

theorem opName_eq_illegal {front suffix : String} {body : Option String} {names : List String}
    (listed : ∀ name, body = some name → name ∈ names)
    (small : ∀ name ∈ names, Uncapped (front ++ name ++ suffix))
    : opName front suffix body = "ILLEGAL" ↔ ¬ body.isSome = true := by
  cases body with
  | none => exact iff_of_true rfl (by simp)
  | some name =>
      refine iff_of_false (fun same => ?_) (by simp)
      have lower := small name (listed name rfl)
      rw [show front ++ name ++ suffix = "ILLEGAL" from same] at lower
      exact absurd lower (by decide)

section Refused

variable (funct3 funct7 : U64)

/-- Each opcode takes its names from one table. -/
theorem getOpString_int
    : getOpString opInt funct3 funct7 = "ILLEGAL"
      ↔ ¬ (intBody opInt funct3 funct7).isSome = true :=
  opName_eq_illegal (fun _ => intBody_mem) (by decide)

theorem getOpString_intW
    : getOpString opIntW funct3 funct7 = "ILLEGAL"
      ↔ ¬ (intWBody funct3 funct7).isSome = true :=
  opName_eq_illegal (fun _ => intWBody_mem) (by decide)

theorem getOpString_load
    : getOpString opLoad funct3 funct7 = "ILLEGAL" ↔ ¬ (loadBody funct3).isSome = true :=
  opName_eq_illegal (fun _ => loadBody_mem) (by decide)

theorem getOpString_intImm
    : getOpString opIntImm funct3 funct7 = "ILLEGAL"
      ↔ ¬ (intBody opIntImm funct3 funct7).isSome = true :=
  opName_eq_illegal (fun _ => intBody_mem) (by decide)

theorem getOpString_intImmW
    : getOpString opIntImmW funct3 funct7 = "ILLEGAL"
      ↔ ¬ (intWBody funct3 funct7).isSome = true :=
  opName_eq_illegal (fun _ => intWBody_mem) (by decide)

theorem getOpString_store
    : getOpString opStore funct3 funct7 = "ILLEGAL" ↔ ¬ (storeBody funct3).isSome = true :=
  opName_eq_illegal (fun _ => storeBody_mem) (by decide)

theorem getOpString_branch
    : getOpString opBranch funct3 funct7 = "ILLEGAL" ↔ ¬ (branchBody funct3).isSome = true :=
  opName_eq_illegal (fun _ => branchBody_mem) (by decide)

end Refused

/-- Among the fields of a word, those the decoder accepts have a name, but for `addiw` with
an immediate whose upper bits are no `funct7` of an addition. Witness: by opcode, along the
decoder's switch.
-/
theorem getOpString_illegal_iff {inst : Instruction} (assumed : inst.isLegal = true)
    (noHalt : inst.instruction ≠ haltWord) (noNop : inst.instruction ≠ nopWord)
    : getOpString inst.opcode inst.funct3 inst.funct7 = "ILLEGAL"
      ↔ ¬ (decodeSignals inst).isLegal = true
        ∨ (inst.opcode = opIntImmW ∧ inst.funct3 = funct3Add
          ∧ inst.funct7 ≠ funct7Add ∧ inst.funct7 ≠ funct7Sub) := by
  simp only [decodeSignals, apply_ite Instruction.isLegal, if_neg noHalt, if_neg noNop, assumed,
    Bool.ite_eq_true_distrib, if_false_right, Bool.false_eq_true, and_true]
  generalize inst.opcode = opcode
  generalize inst.funct3 = funct3, inst.funct7 = funct7
  by_cases int : opcode = opInt
  · subst int
    rw [if_pos rfl, getOpString_int, intBody_isSome]
    simp [show opInt ≠ opIntImmW by decide]
  rw [if_neg int]
  by_cases intW : opcode = opIntW
  · subst intW
    rw [if_pos rfl, getOpString_intW, intWBody_isSome]
    simp [show opIntW ≠ opIntImmW by decide]
  rw [if_neg intW]
  by_cases load : opcode = opLoad
  · subst load
    rw [if_pos rfl, getOpString_load, loadBody_isSome]
    simp [show opLoad ≠ opIntImmW by decide]
  rw [if_neg load]
  by_cases intImm : opcode = opIntImm
  · subst intImm
    rw [if_pos rfl, getOpString_intImm, intBody_isSome]
    simp [show opIntImm ≠ opIntImmW by decide, show opIntImm ≠ opInt by decide]
  rw [if_neg intImm]
  by_cases intImmW : opcode = opIntImmW
  · subst intImmW
    rw [if_pos rfl, getOpString_intImmW, intWBody_isSome]
    by_cases add : funct3 = funct3Add
    · simp [add, show funct3Add ≠ funct3Sll by decide, show funct3Add ≠ funct3Sr by decide]
    · simp [add]
  rw [if_neg intImmW]
  simp only [intImmW, false_and, or_false]
  by_cases jalr : opcode = opJalr
  · subst jalr
    rw [if_pos rfl]
    exact iff_of_false (show ¬ "jalr" = "ILLEGAL" by decide) (by simp)
  rw [if_neg jalr]
  by_cases store : opcode = opStore
  · subst store
    rw [if_pos rfl, getOpString_store, storeBody_isSome]
  rw [if_neg store]
  by_cases branch : opcode = opBranch
  · subst branch
    rw [if_pos rfl, getOpString_branch, branchBody_isSome]
  rw [if_neg branch]
  by_cases upper : opcode = opAuipc ∨ opcode = opLui ∨ opcode = opJal
  · refine iff_of_false ?_ (by simp [upper])
    rcases upper with rfl | rfl | rfl
    · exact show ¬ "auipc" = "ILLEGAL" by decide
    · exact show ¬ "lui" = "ILLEGAL" by decide
    · exact show ¬ "jal" = "ILLEGAL" by decide
  · refine iff_of_true ?_ (by simp [upper])
    simp only [not_or] at upper
    simp only [getOpString, intImm, int, intImmW, intW, load, store, branch, jalr, upper, if_false]

-----------------------------------------------------------------------------------------
-- The dump against the decoder
-----------------------------------------------------------------------------------------

/-- The dump says ILLEGAL exactly for the words the decoder refuses. -/
def TracesLegality (inst : Instruction) (word : BitVec 32) : Prop :=
  ∀ status,
    SaysIllegal (printInstr word status) ↔ (simDecode inst).isLegal = false

/-- The dump compares bits 31 to 25 of `addiw` with the `funct7` of `addw` and `subw`, as if
they were no part of the immediate.
-/
def AddiwRefused (op : BitVec 7) (f3 : BitVec 3) (f7 : BitVec 7) : Prop :=
  op = 0b0011011 ∧ f3 = 0b000 ∧ f7 ≠ 0b0000000 ∧ f7 ≠ 0b0100000

instance (op : BitVec 7) (f3 : BitVec 3) (f7 : BitVec 7) : Decidable (AddiwRefused op f3 f7) := by
  unfold AddiwRefused
  infer_instance

/-- HALT and NOP have lines of their own. -/
theorem not_saysIllegal_special {word : BitVec 32} (special : word = 0xfeedfeed ∨ word = 0x00000013)
    (status : StageStatus) : ¬ SaysIllegal (printInstr word status) := by
  rcases special with rfl | rfl
  · have named : Uncapped " HALT" := by decide
    exact not_saysIllegal_setwLeft (named.append (uncapped_status status))
  · have named : Uncapped " NOP" := by decide
    exact not_saysIllegal_setwLeft (named.append (uncapped_status status))

/-- The dump and the decoder agree on which words are instructions, apart from `addiw` with
an immediate whose bits 11 to 5 are neither 0 nor 32.
-/
theorem tracesLegality_iff (inst : Instruction) (word : BitVec 32)
    (carries : inst.instruction = word.setWidth 64)
    : TracesLegality inst word
      ↔ ¬ AddiwRefused (Rv64i.opcode word) (Rv64i.funct3 word) (Rv64i.funct7 word) := by
  have shows := decodeFields_shows carries
  by_cases special : word = 0xfeedfeed ∨ word = 0x00000013
  · have legal : (simDecode inst).isLegal = true := by
      rw [isLegal_simDecode carries]
      rcases special with rfl | rfl
      · exact .inl rfl
      · exact .inr (by decide)
    refine iff_of_true (fun status => ?_) ?_
    · exact iff_of_false (not_saysIllegal_special special status) (by simp [legal])
    · rcases special with rfl | rfl <;> decide
  simp only [not_or] at special
  have widen {code : U64} (small : code.toNat < 2 ^ 32) (apart : word ≠ code.setWidth 32)
      : (decodeFields inst).instruction ≠ code := by
    rwa [shows.instruction, Ne, Words.setWidth_eq_iff (by omega) small]
  have illegal (status : StageStatus)
      : SaysIllegal (printInstr word status)
        ↔ ¬ (simDecode inst).isLegal = true
          ∨ AddiwRefused (Rv64i.opcode word) (Rv64i.funct3 word) (Rv64i.funct7 word) := by
    rw [saysIllegal_printInstr special.1 special.2, ← carries]
    refine (@getOpString_illegal_iff (decodeFields inst) rfl (widen (by decide) special.1)
      (widen (by decide) special.2)).trans (or_congr_right ?_)
    rw [shows.opcode_eq_iff (by decide), shows.funct3_eq_iff (by decide), Ne, Ne,
      shows.funct7_eq_iff (by decide), shows.funct7_eq_iff (by decide)]
    rfl
  constructor
  · intro agrees refused
    have accepted : (simDecode inst).isLegal = true := by
      rw [isLegal_simDecode carries]
      obtain ⟨op, f3, _⟩ := refused
      right
      rw [op, f3]
      exact .inl rfl
    have refuses := (agrees .normal).mp ((illegal .normal).mpr (.inr refused))
    simp [accepted] at refuses
  · intro named status
    rw [illegal, or_iff_left named, Bool.not_eq_true]

/-- `addiw x1, x1, 5` is named. -/
theorem tracesLegality_addiw : TracesLegality { instruction := 0x0050809b } 0x0050809b :=
  (tracesLegality_iff _ _ rfl).mpr (by decide)

/-- `addiw x1, x1, 64` is executed, and traced as ILLEGAL. -/
theorem addiw_traced_illegal
    : ¬ TracesLegality { instruction := 0x0400809b } 0x0400809b := by
  intro agrees
  have text : printInstr 0x0400809b .normal = setwLeft 25 (" ILLEGAL" ++ " ") := by decide +kernel
  have illegal := (agrees .normal).mp (text ▸ saysIllegal_setwLeft " ")
  exact absurd illegal (by decide)

end RiscvSim
