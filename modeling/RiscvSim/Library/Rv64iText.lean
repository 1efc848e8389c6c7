import RiscvSim.Library.Rv64iHart
import RiscvSim.Library.Texts

/-! How the instructions of RV64I are written: a mnemonic and its operands. What is written
determines the instruction. An upper immediate is written as the number that it stands for.
-/

namespace Rv64i

open Texts (Separates)

-----------------------------------------------------------------------------------------
-- Mnemonics
-----------------------------------------------------------------------------------------

/-- An instruction without its operands. -/
inductive Mnemonic
  | reg (op : RegOp)
  | regW (op : RegOpW)
  | regImm (op : ImmOp)
  | shiftImm (op : ShiftOp)
  | addiw
  | shiftImmW (op : ShiftOp)
  | load (op : LoadOp)
  | store (op : StoreOp)
  | branch (op : BranchOp)
  | jalr | jal | lui | auipc
  deriving DecidableEq, Repr

namespace Mnemonic

def name : Mnemonic → String
  | .reg .add => "add"
  | .reg .sub => "sub"
  | .reg .sll => "sll"
  | .reg .slt => "slt"
  | .reg .sltu => "sltu"
  | .reg .xor => "xor"
  | .reg .srl => "srl"
  | .reg .sra => "sra"
  | .reg .or => "or"
  | .reg .and => "and"
  | .regW .addw => "addw"
  | .regW .subw => "subw"
  | .regW .sllw => "sllw"
  | .regW .srlw => "srlw"
  | .regW .sraw => "sraw"
  | .regImm .addi => "addi"
  | .regImm .slti => "slti"
  | .regImm .sltiu => "sltiu"
  | .regImm .xori => "xori"
  | .regImm .ori => "ori"
  | .regImm .andi => "andi"
  | .shiftImm .sll => "slli"
  | .shiftImm .srl => "srli"
  | .shiftImm .sra => "srai"
  | .addiw => "addiw"
  | .shiftImmW .sll => "slliw"
  | .shiftImmW .srl => "srliw"
  | .shiftImmW .sra => "sraiw"
  | .load .lb => "lb"
  | .load .lh => "lh"
  | .load .lw => "lw"
  | .load .ld => "ld"
  | .load .lbu => "lbu"
  | .load .lhu => "lhu"
  | .load .lwu => "lwu"
  | .store .sb => "sb"
  | .store .sh => "sh"
  | .store .sw => "sw"
  | .store .sd => "sd"
  | .branch .beq => "beq"
  | .branch .bne => "bne"
  | .branch .blt => "blt"
  | .branch .bge => "bge"
  | .branch .bltu => "bltu"
  | .branch .bgeu => "bgeu"
  | .jalr => "jalr"
  | .jal => "jal"
  | .lui => "lui"
  | .auipc => "auipc"

def all : List Mnemonic :=
  [RegOp.add, .sub, .sll, .slt, .sltu, .xor, .srl, .sra, .or, .and].map .reg
  ++ [RegOpW.addw, .subw, .sllw, .srlw, .sraw].map .regW
  ++ [ImmOp.addi, .slti, .sltiu, .xori, .ori, .andi].map .regImm
  ++ [ShiftOp.sll, .srl, .sra].map .shiftImm
  ++ [ShiftOp.sll, .srl, .sra].map .shiftImmW
  ++ [LoadOp.lb, .lh, .lw, .ld, .lbu, .lhu, .lwu].map .load
  ++ [StoreOp.sb, .sh, .sw, .sd].map .store
  ++ [BranchOp.beq, .bne, .blt, .bge, .bltu, .bgeu].map .branch
  ++ [.addiw, .jalr, .jal, .lui, .auipc]

theorem mem_all (m : Mnemonic) : m ∈ all := by
  cases m with
  | reg op => cases op <;> decide
  | regW op => cases op <;> decide
  | regImm op => cases op <;> decide
  | shiftImm op => cases op <;> decide
  | shiftImmW op => cases op <;> decide
  | load op => cases op <;> decide
  | store op => cases op <;> decide
  | branch op => cases op <;> decide
  | _ => decide

/-- No two mnemonics have one name. -/
theorem name_inj {m n : Mnemonic} : m.name = n.name ↔ m = n := by
  have nodup : (all.map name).Nodup := by decide +kernel
  exact ⟨fun same => List.inj_on_of_nodup_map nodup (mem_all m) (mem_all n) same, congrArg name⟩

/-- Names are written in small letters. -/
theorem letters_name (m : Mnemonic) : ∀ c ∈ m.name.toList, c.isLower = true := by
  have names : (all.all fun m => m.name.toList.all Char.isLower) = true := by decide +kernel
  exact List.all_eq_true.mp (List.all_eq_true.mp names m (mem_all m))

end Mnemonic

-----------------------------------------------------------------------------------------
-- Operands
-----------------------------------------------------------------------------------------

/-- The names of the registers by their use. -/
def abiNames : List String :=
  ["zero", "ra", "sp", "gp", "tp", "t0", "t1", "t2", "s0", "s1", "a0", "a1", "a2", "a3", "a4",
    "a5", "a6", "a7", "s2", "s3", "s4", "s5", "s6", "s7", "s8", "s9", "s10", "s11", "t3", "t4",
    "t5", "t6"]

def abiName (r : Reg) : String := abiNames.getD r.toNat ""

inductive Operand
  | reg (r : Reg)
  | number (z : ℤ)
  | offset (z : ℤ) (base : Reg)
  deriving DecidableEq, Repr

namespace Operand

def text : Operand → String
  | .reg r => abiName r
  | .number z => toString z
  | .offset z base => toString z ++ "(" ++ abiName base ++ ")"

/-- Operands in a row. -/
def list : List Operand → String
  | [] => ""
  | [operand] => operand.text
  | operand :: next :: rest => operand.text ++ ", " ++ list (next :: rest)

end Operand

/-- A register name is no number, and has no comma, space or bracket. -/
theorem abiName_chars
    : ∀ r, ((abiName r).toList.any fun c => !(c.isDigit || c == '-')) = true
        ∧ ',' ∉ (abiName r).toList ∧ ' ' ∉ (abiName r).toList ∧ '(' ∉ (abiName r).toList := by
  decide +kernel

theorem abiName_inj : ∀ {r r'}, (abiName r).toList = (abiName r').toList ↔ r = r' := by
  decide +kernel

namespace Operand

theorem toList_text_offset (z : ℤ) (base : Reg)
    : (Operand.offset z base).text.toList
      = ((toString z).toList ++ ['(']) ++ ((abiName base).toList ++ [')']) := by
  simp [text]

/-- No operand is written with a comma or a space. -/
theorem chars_text (operand : Operand)
    : ∀ c ∈ operand.text.toList, (c != ',' && c != ' ') = true := by
  have name (r : Reg) : ∀ c ∈ (abiName r).toList, (c != ',' && c != ' ') = true := by
    intro c member
    obtain ⟨_, comma, space, _⟩ := abiName_chars r
    rw [Bool.and_eq_true, bne_iff_ne, bne_iff_ne]
    exact ⟨fun same => comma (same ▸ member), fun same => space (same ▸ member)⟩
  have number (z : ℤ) : ∀ c ∈ (toString z).toList, (c != ',' && c != ' ') = true := by
    intro c member
    have part := Texts.chars_int z c member
    rw [Bool.and_eq_true, bne_iff_ne, bne_iff_ne]
    constructor
    · rintro rfl
      cases part
    · rintro rfl
      cases part
  cases operand with
  | reg r => exact name r
  | number z => exact number z
  | offset z base =>
      intro c member
      rw [toList_text_offset] at member
      simp only [List.mem_append, List.mem_singleton] at member
      rcases member with (member | rfl) | (member | rfl)
      · exact number z c member
      · rfl
      · exact name base c member
      · rfl

/-- An operand is read back. Witness: by its kind, which its characters show. -/
theorem text_inj {a b : Operand} : a.text.toList = b.text.toList ↔ a = b := by
  have apart (r : Reg) (z : ℤ) : (abiName r).toList ≠ (toString z).toList := by
    intro same
    obtain ⟨c, member, letter⟩ := List.any_eq_true.mp (abiName_chars r).1
    rw [Texts.chars_int z c (same ▸ member)] at letter
    cases letter
  have bracket (z : ℤ) (base : Reg) : '(' ∈ (Operand.offset z base).text.toList := by
    rw [toList_text_offset]
    simp
  have noName (r : Reg) (z : ℤ) (base : Reg)
      : (Operand.offset z base).text.toList ≠ (abiName r).toList := fun same =>
    (abiName_chars r).2.2.2 (same ▸ bracket z base)
  have noNumber (y z : ℤ) (base : Reg)
      : (Operand.offset z base).text.toList ≠ (toString y).toList := fun same =>
    absurd (Texts.chars_int y '(' (same ▸ bracket z base)) (by decide)
  constructor
  · intro same
    cases a with
    | reg r =>
        cases b with
        | reg r' => exact congrArg Operand.reg (abiName_inj.mp same)
        | number z => exact absurd same (apart r z)
        | offset z base => exact absurd same.symm (noName r z base)
    | number z =>
        cases b with
        | reg r => exact absurd same.symm (apart r z)
        | number z' => exact congrArg Operand.number (Texts.toList_int_inj.mp same)
        | offset z' base => exact absurd same.symm (noNumber z z' base)
    | offset z base =>
        cases b with
        | reg r => exact absurd same (noName r z base)
        | number z' => exact absurd same (noNumber z' z base)
        | offset z' base' =>
            rw [toList_text_offset, toList_text_offset, Texts.separates_int (by decide),
              List.append_cancel_right_eq, abiName_inj] at same
            rw [same.1, same.2]
  · rintro rfl
    rfl

theorem separates_text {c : Char} (stop : (c != ',' && c != ' ') = false) (a b : Operand)
    : Separates (a.text.toList ++ [c]) (b.text.toList ++ [c]) (a = b) :=
  (Texts.separates_stop (chars_text a) (chars_text b) stop).congr text_inj

/-- Operands are read back from a row of them that a space ends. Witness: induction on the row. -/
theorem separates_list {xs ys : List Operand} (same : xs.length = ys.length)
    (nonempty : xs ≠ [])
    : Separates ((list xs).toList ++ [' ']) ((list ys).toList ++ [' ']) (xs = ys) := by
  induction xs generalizing ys with
  | nil => exact absurd rfl nonempty
  | cons a xs ih =>
      match xs, ys, same with
      | [], [b], _ => exact (separates_text rfl a b).congr (by simp)
      | x :: xs, b :: y :: ys, same =>
          have first : Separates (a.text.toList ++ [',']) (b.text.toList ++ [',']) (a = b) :=
            separates_text rfl a b
          have rest := ih (Nat.succ.inj same) (by simp)
          have row (operand next : Operand) (more : List Operand)
              : (list (operand :: next :: more)).toList ++ [' ']
                = (operand.text.toList ++ [','] ++ [' '])
                  ++ ((list (next :: more)).toList ++ [' ']) := by
            simp [list]
          rw [row, row]
          exact ((first.append (Texts.separates_refl _)).append rest).congr (by simp)

theorem text_ne (operand : Operand) : operand.text.toList ≠ [] := by
  have name (r : Reg) : (abiName r).toList ≠ [] := by
    obtain ⟨c, member, _⟩ := List.any_eq_true.mp (abiName_chars r).1
    exact List.ne_nil_of_mem member
  cases operand with
  | reg r => exact name r
  | number z => exact Texts.toList_int_ne z
  | offset z base =>
      rw [toList_text_offset]
      simp

/-- A row of operands does not end with a space. -/
theorem list_ends {row : List Operand} (nonempty : row ≠ [])
    : ∃ front c, (list row).toList = front ++ [c] ∧ c ≠ ' ' := by
  induction row with
  | nil => exact absurd rfl nonempty
  | cons operand rest ih =>
      cases rest with
      | nil =>
          have last := List.dropLast_append_getLast operand.text_ne
          have plain := operand.chars_text _ (List.getLast_mem operand.text_ne)
          rw [Bool.and_eq_true, bne_iff_ne, bne_iff_ne] at plain
          exact ⟨_, _, last.symm, plain.2⟩
      | cons next rest =>
          obtain ⟨front, c, row, plain⟩ := ih (by simp)
          exact ⟨operand.text.toList ++ ", ".toList ++ front, c, by simp [list, row], plain⟩

end Operand

-----------------------------------------------------------------------------------------
-- Instructions
-----------------------------------------------------------------------------------------

namespace Instr

def mnemonic : Instr → Mnemonic
  | .reg op .. => .reg op
  | .regW op .. => .regW op
  | .regImm op .. => .regImm op
  | .shiftImm op .. => .shiftImm op
  | .addiw .. => .addiw
  | .shiftImmW op .. => .shiftImmW op
  | .load op .. => .load op
  | .store op .. => .store op
  | .branch op .. => .branch op
  | .jalr .. => .jalr
  | .jal .. => .jal
  | .lui .. => .lui
  | .auipc .. => .auipc

def operands : Instr → List Operand
  | .reg _ rd rs1 rs2 | .regW _ rd rs1 rs2 => [.reg rd, .reg rs1, .reg rs2]
  | .regImm _ rd rs1 imm | .addiw rd rs1 imm | .jalr rd rs1 imm =>
      [.reg rd, .reg rs1, .number imm.toInt]
  | .shiftImm _ rd rs1 shamt => [.reg rd, .reg rs1, .number shamt.toNat]
  | .shiftImmW _ rd rs1 shamt => [.reg rd, .reg rs1, .number shamt.toNat]
  | .load _ rd rs1 imm => [.reg rd, .offset imm.toInt rs1]
  | .store _ rs1 rs2 imm => [.reg rs2, .offset imm.toInt rs1]
  | .branch _ rs1 rs2 offset => [.reg rs1, .reg rs2, .number offset.toInt]
  | .jal rd offset => [.reg rd, .number offset.toInt]
  | .lui rd imm | .auipc rd imm => [.reg rd, .number (imm ++ 0#12).toInt]

def text (instr : Instr) : String :=
  instr.mnemonic.name ++ " " ++ Operand.list instr.operands

/-- An upper immediate is what is left of its number above twelve zeros. -/
theorem upper_inj {imm imm' : BitVec 20} : imm ++ 0#12 = imm' ++ 0#12 ↔ imm = imm' := by
  constructor
  · intro same
    have upper (field : BitVec 20) : (field ++ 0#12).extractLsb' 12 20 = field :=
      BitVec.extractLsb'_append_eq_left
    rw [← upper imm, same, upper]
  · rintro rfl
    rfl

/-- An instruction is its mnemonic and its operands. -/
theorem eq_iff {i j : Instr} : i = j ↔ i.mnemonic = j.mnemonic ∧ i.operands = j.operands := by
  constructor
  · rintro rfl
    exact ⟨rfl, rfl⟩
  · rintro ⟨op, operands⟩
    cases i <;> cases j <;> cases op <;>
      simp_all [Instr.operands, BitVec.toInt_inj, BitVec.toNat_inj, upper_inj]

theorem operands_length {i j : Instr} (op : i.mnemonic = j.mnemonic)
    : i.operands.length = j.operands.length := by
  cases i <;> cases j <;> cases op <;> rfl

theorem operands_ne (i : Instr) : i.operands ≠ [] := by
  cases i <;> exact List.cons_ne_nil _ _

/-- The mnemonic and a space, and the operands and a space. -/
theorem toList_text (instr : Instr)
    : instr.text.toList ++ [' ']
      = (instr.mnemonic.name.toList ++ [' '])
        ++ ((Operand.list instr.operands).toList ++ [' ']) := by
  simp [text]

/-- An instruction is read back from its text, which a space ends. -/
theorem separates_text (i j : Instr)
    : Separates (i.text.toList ++ [' ']) (j.text.toList ++ [' ']) (i = j) := by
  have name
      : Separates (i.mnemonic.name.toList ++ [' ']) (j.mnemonic.name.toList ++ [' '])
          (i.mnemonic = j.mnemonic) :=
    (Texts.separates_stop i.mnemonic.letters_name j.mnemonic.letters_name rfl).congr
      (String.toList_inj.trans Mnemonic.name_inj)
  rw [toList_text, toList_text]
  exact (name.append_of fun op =>
    Operand.separates_list (operands_length op) i.operands_ne).congr eq_iff.symm

end Instr
end Rv64i
