import RiscvSim.Pipeline.Latches
import RiscvSim.Source.Drivers

/-! The output files show what they are made from: they are the same exactly if the registers, the
bytes of the printed range and the statistics are.
-/

namespace RiscvSim

open IfStream (isHexDigit hexDigit?)
open Texts (Separates)

/-- Base 16, as `operator>>` reads it. -/
def hexadecimal : Texts.Base where
  base := 16
  digit := isHexDigit
  value c := (hexDigit? c).getD 0
  one_lt := by decide
  digits := by decide
  reads := by decide

-----------------------------------------------------------------------------------------
-- Registers
-----------------------------------------------------------------------------------------

theorem separates_registerLine (regs regs' : Registers) (r : ℕ)
    : Separates (registerLine regs r).toList (registerLine regs' r).toList
        (regs (BitVec.ofNat 64 r) = regs' (BitVec.ofNat 64 r)) := by
  have number
      : Separates (Texts.padded 16 8 (regs (BitVec.ofNat 64 r)).toNat ++ ['\n'])
          (Texts.padded 16 8 (regs' (BitVec.ofNat 64 r)).toNat ++ ['\n']) _ :=
    hexadecimal.separates_numeral rfl 8 _ _
  have line (registers : Registers)
      : (registerLine registers r).toList
        = ("$" ++ regName (BitVec.ofNat 64 r) ++ " = 0x").toList
          ++ (Texts.padded 16 8 (registers (BitVec.ofNat 64 r)).toNat ++ ['\n'])
          ++ (if r ∈ [4, 7, 9, 17, 27] then "\n" else "").toList := by
    simp [registerLine, hexField]
  rw [line, line]
  exact (((Texts.separates_refl _).append number).append (Texts.separates_refl _)).congr
    (by simp [BitVec.toNat_inj])

/-- The register file shows all registers but `x0`. -/
theorem dumpRegisterState_eq_iff (regs regs' : Registers)
    : dumpRegisterState regs = dumpRegisterState regs'
      ↔ ∀ r, 1 ≤ r → r < 32 → regs (BitVec.ofNat 64 r) = regs' (BitVec.ofNat 64 r) := by
  have lines := Texts.separates_flatMap fun r (_ : r ∈ List.range' 1 31) =>
    separates_registerLine regs regs' r
  have file (registers : Registers)
      : (dumpRegisterState registers).toList
        = (rule ++ "Begin Register Values\n" ++ rule).toList
          ++ (List.range' 1 31).flatMap (fun r => (registerLine registers r).toList)
          ++ (rule ++ "End Register Values\n" ++ rule).toList := by
    simp [dumpRegisterState, String.toList_join, List.flatMap_map]
  rw [← String.toList_inj, file, file,
    (((Texts.separates_refl _).append lines).append (Texts.separates_refl _)).eq_iff]
  simp [List.mem_range'_1]

-----------------------------------------------------------------------------------------
-- Memory
-----------------------------------------------------------------------------------------

namespace MemoryStore

/-- Where the last entry of a range ends, with entries of `size` bytes. -/
def printEnd (size relEnd relStart : ℕ) : ℕ :=
  relStart + size * ((relEnd - relStart + (size - 1)) / size)

theorem printEnd_done {size relEnd relStart : ℕ} (positive : 0 < size) (done : relEnd ≤ relStart)
    : printEnd size relEnd relStart = relStart := by
  have none : relEnd - relStart = 0 := by omega
  rw [printEnd, none, Nat.zero_add, Nat.div_eq_of_lt (by omega), Nat.mul_zero, Nat.add_zero]

/-- An entry that starts in the range ends in it. -/
theorem printEnd_next {size relEnd relStart : ℕ} (positive : 0 < size)
    (inside : relStart < relEnd)
    : printEnd size relEnd (relStart + size) = printEnd size relEnd relStart := by
  by_cases last : relEnd ≤ relStart + size
  · have one : (relEnd - relStart + (size - 1)) / size = 1 := by
      rw [Nat.div_eq_iff positive]
      omega
    rw [printEnd_done positive last, printEnd, one, Nat.mul_one]
  · have split : relEnd - relStart + (size - 1)
        = relEnd - (relStart + size) + (size - 1) + size := by omega
    rw [printEnd, printEnd, split, Nat.add_div_right _ positive, Nat.mul_succ]
    omega

theorem bytes_pos (size : MemEntrySize) : 0 < size.bytes := by cases size <;> decide

variable {mem mem' : MemoryStore}

theorem printBytes_ok (mem : MemoryStore) (relAddr count : ℕ)
    : (mem.printBytes relAddr count).1 = decide (count = 0 ∨ relAddr + count ≤ mem.numEntries) := by
  induction count generalizing relAddr with
  | zero => simp [printBytes]
  | succ count ih =>
      rw [printBytes]
      split
      case isTrue inside =>
        rw [ih]
        simp only [decide_eq_decide]
        omega
      case isFalse outside =>
        rw [eq_comm, decide_eq_false_iff_not]
        omega

/-- The bytes of an entry, as far as memory goes. -/
theorem separates_printBytes (bound : mem.numEntries = mem'.numEntries) (relAddr count : ℕ)
    : Separates (mem.printBytes relAddr count).2.toList (mem'.printBytes relAddr count).2.toList
        (∀ k, relAddr ≤ k → k < relAddr + count → k < mem.numEntries
          → mem.memArr k = mem'.memArr k) := by
  induction count generalizing relAddr with
  | zero => exact (Texts.separates_refl _).congr (by simp; omega)
  | succ count ih =>
      rw [printBytes, printBytes, ← bound]
      split
      case isTrue inside =>
        have byte
            : Separates (hexField 2 (mem.memArr relAddr).toNat).toList
                (hexField 2 (mem'.memArr relAddr).toNat).toList
                ((mem.memArr relAddr).toNat = (mem'.memArr relAddr).toNat) := by
          rw [hexField, hexField, String.toList_ofList, String.toList_ofList]
          exact hexadecimal.separates_field (by decide) (mem.memArr relAddr).isLt
            (mem'.memArr relAddr).isLt
        rw [String.toList_append, String.toList_append]
        refine (byte.append (ih (relAddr + 1))).congr ?_
        rw [BitVec.toNat_inj]
        constructor
        · rintro ⟨here, rest⟩ k from' to' inside'
          rcases Nat.eq_or_lt_of_le from' with rfl | behind
          · exact here
          · exact rest k behind (by omega) inside'
        · exact fun all => ⟨all relAddr le_rfl (by omega) inside,
            fun k from' to' => all k (by omega) (by omega)⟩
      case isFalse outside =>
        exact (Texts.separates_refl _).congr
          ⟨fun _ k from' _ inside => absurd inside (by omega), fun _ => trivial⟩

theorem printBytes_flag (bound : mem.numEntries = mem'.numEntries) (relAddr count : ℕ)
    : (mem.printBytes relAddr count).1 = (mem'.printBytes relAddr count).1 := by
  rw [printBytes_ok, printBytes_ok, bound]

/-- A row ends for the same reason whatever the bytes are. -/
theorem printRow_flag (bound : mem.numEntries = mem'.numEntries) (size : MemEntrySize)
    (relEnd relStart left : ℕ)
    : (mem.printRow size relEnd relStart left).1 = (mem'.printRow size relEnd relStart left).1 := by
  induction left generalizing relStart with
  | zero => rfl
  | succ left ih =>
      simp only [printRow, printBytes_flag bound relStart]
      split_ifs <;> first | rfl | exact ih _

/-- What the reason is for. -/
theorem printRow_reason (mem : MemoryStore) (size : MemEntrySize) (relEnd relStart left : ℕ)
    : match (mem.printRow size relEnd relStart left).1 with
      | .outOfRange => mem.numEntries < relStart + size.bytes * left
      | .rangeEnd => printEnd size.bytes relEnd relStart ≤ relStart + size.bytes * left
      | .full =>
          printEnd size.bytes relEnd (relStart + size.bytes * left)
          = printEnd size.bytes relEnd relStart := by
  induction left generalizing relStart with
  | zero => simp [printRow]
  | succ left ih =>
      have positive := bytes_pos size
      rw [printRow, Nat.mul_succ]
      by_cases inside : relStart < relEnd
      · rw [if_pos inside]
        have rest := ih (relStart + size.bytes)
        rw [printEnd_next positive inside, Nat.add_right_comm] at rest
        cases read : (mem.printBytes relStart size.bytes).1 with
        | true =>
            simp only [read, if_true, ← Nat.add_assoc]
            exact rest
        | false =>
            have cut : mem.numEntries < relStart + size.bytes := by
              rw [printBytes_ok, decide_eq_false_iff_not] at read
              omega
            simp only [read]
            show mem.numEntries < relStart + (size.bytes * left + size.bytes)
            omega
      · rw [if_neg inside]
        simp only
        rw [printEnd_done positive (by omega)]
        omega

/-- The entries of a row, up to the end of the range and of the memory. -/
theorem separates_printRow (bound : mem.numEntries = mem'.numEntries) (size : MemEntrySize)
    (relEnd relStart left : ℕ)
    : Separates (mem.printRow size relEnd relStart left).2.toList
        (mem'.printRow size relEnd relStart left).2.toList
        (∀ k, relStart ≤ k → k < relStart + size.bytes * left
          → k < printEnd size.bytes relEnd relStart → k < mem.numEntries
          → mem.memArr k = mem'.memArr k) := by
  induction left generalizing relStart with
  | zero => exact (Texts.separates_refl _).congr (by simp; omega)
  | succ left ih =>
      have positive := bytes_pos size
      have bytes := separates_printBytes bound relStart size.bytes
      simp only [printRow, ← printBytes_flag bound]
      by_cases inside : relStart < relEnd
      · have rest := ih (relStart + size.bytes)
        have next := printEnd_next positive inside
        have first : relStart + size.bytes ≤ printEnd size.bytes relEnd relStart := by
          rw [← next]
          exact Nat.le_add_right _ _
        rw [next] at rest
        rw [if_pos inside, if_pos inside]
        cases read : (mem.printBytes relStart size.bytes).1 with
        | true =>
            simp only [if_true, String.toList_append]
            refine ((((Texts.separates_refl _).append bytes).append
              (Texts.separates_refl _)).append rest).congr ?_
            rw [Nat.mul_succ]
            constructor
            · rintro ⟨⟨⟨_, here⟩, _⟩, behind⟩ k from' to' within inside'
              by_cases early : k < relStart + size.bytes
              · exact here k from' early inside'
              · exact behind k (by omega) (by omega) within inside'
            · exact fun all =>
                ⟨⟨⟨trivial, fun k from' to' => all k from' (by omega) (by omega)⟩, trivial⟩,
                  fun k from' to' => all k (by omega) (by omega)⟩
        | false =>
            rw [printBytes_ok, decide_eq_false_iff_not] at read
            simp only [Bool.false_eq_true, if_false, String.toList_append]
            refine ((Texts.separates_refl _).append bytes).congr ?_
            rw [Nat.mul_succ]
            constructor
            · rintro ⟨_, here⟩ k from' to' within inside'
              exact here k from' (by omega) inside'
            · exact fun all => ⟨trivial, fun k from' to' => all k from' (by omega) (by omega)⟩
      · rw [if_neg inside, if_neg inside]
        refine (Texts.separates_refl _).congr ⟨fun _ k from' to' within => ?_, fun _ => trivial⟩
        rw [printEnd_done positive (by omega)] at within
        omega

/-- The rows of a range. Witness: induction on what is left of it, by why the first row ends. -/
theorem separates_printRows (bound : mem.numEntries = mem'.numEntries) (size : MemEntrySize)
    (entriesPerRow : ℕ) [NeZero entriesPerRow] (relEnd relStart : ℕ) (curAddr : U64)
    : Separates (mem.printRows size entriesPerRow relEnd relStart curAddr).2.toList
        (mem'.printRows size entriesPerRow relEnd relStart curAddr).2.toList
        (∀ k, relStart ≤ k → k < printEnd size.bytes relEnd relStart → k < mem.numEntries
          → mem.memArr k = mem'.memArr k) := by
  induction left : relEnd - relStart using Nat.strong_induction_on
    generalizing relStart curAddr with
  | _ n ih =>
      have positive := bytes_pos size
      have width := Nat.mul_pos positive (NeZero.pos entriesPerRow)
      have row := separates_printRow bound size relEnd relStart entriesPerRow
      have reason := mem.printRow_reason size relEnd relStart entriesPerRow
      rw [printRows.eq_1 mem, printRows.eq_1 mem']
      simp only [← printRow_flag bound]
      by_cases inside : relStart < relEnd
      · rw [if_pos inside, if_pos inside]
        cases ends : (mem.printRow size relEnd relStart entriesPerRow).1 with
        | outOfRange =>
            rw [ends] at reason
            simp only [String.toList_append]
            refine ((Texts.separates_refl _).append row).congr
              ⟨fun all k from' within inside' => ?_, fun all => ⟨trivial, fun k from' _ => ?_⟩⟩
            · exact all.2 k from' (by omega) within inside'
            · exact all k from'
        | rangeEnd =>
            rw [ends] at reason
            simp only [String.toList_append]
            refine (((Texts.separates_refl _).append row).append (Texts.separates_refl _)).congr
              ⟨fun all k from' within inside' => ?_, fun all => ⟨⟨trivial, fun k from' _ => ?_⟩,
                trivial⟩⟩
            · exact all.1.2 k from' (by omega) within inside'
            · exact all k from'
        | full =>
            rw [ends] at reason
            have rest := ih (relEnd - (relStart + size.bytes * entriesPerRow)) (by omega)
              (relStart + size.bytes * entriesPerRow)
              (curAddr + BitVec.ofNat 64 (size.bytes * entriesPerRow)) rfl
            rw [reason] at rest
            simp only [String.toList_append]
            refine ((((Texts.separates_refl _).append row).append
              (Texts.separates_refl _)).append rest).congr ?_
            constructor
            · rintro ⟨⟨⟨_, here⟩, _⟩, behind⟩ k from' within inside'
              by_cases early : k < relStart + size.bytes * entriesPerRow
              · exact here k from' early within inside'
              · exact behind k (by omega) within inside'
            · exact fun all =>
                ⟨⟨⟨trivial, fun k from' _ => all k from'⟩, trivial⟩,
                  fun k from' => all k (by omega)⟩
      · rw [if_neg inside, if_neg inside]
        refine (Texts.separates_refl _).congr ⟨fun _ k from' within => ?_, fun _ => trivial⟩
        rw [printEnd_done positive (by omega)] at within
        omega

/-- The bytes that `printMemArray` shows, from an index on: the entries that start in the range,
as far as they lie in memory.
-/
def Shown (mem : MemoryStore) (startAddr endAddr : U64) (entrySize k : ℕ) : Prop :=
  (startAddr - mem.startAddr).toNat ≤ k
  ∧ k < printEnd entrySize (endAddr - mem.startAddr).toNat (startAddr - mem.startAddr).toNat
  ∧ k < mem.numEntries

end MemoryStore

/-- The memory file shows the words of the printed range. -/
theorem dumpMemoryState_eq_iff {mem mem' : MemoryStore} (start : mem.startAddr = mem'.startAddr)
    (bound : mem.numEntries = mem'.numEntries) (printMemRange : Option (List Char))
    : dumpMemoryState mem printMemRange = dumpMemoryState mem' printMemRange
      ↔ ∀ k, mem.Shown (memRange printMemRange).1 (memRange printMemRange).2 4 k
          → mem.memArr k = mem'.memArr k := by
  have rows := MemoryStore.separates_printRows bound .wordSize 5
    ((memRange printMemRange).2 - mem.startAddr).toNat
    ((memRange printMemRange).1 - mem.startAddr).toNat (memRange printMemRange).1
  have file (memory : MemoryStore)
      : (dumpMemoryState memory printMemRange).toList
        = (rule ++ "Begin Memory State\n" ++ rule).toList
          ++ (memory.printRows .wordSize 5 ((memRange printMemRange).2 - memory.startAddr).toNat
              ((memRange printMemRange).1 - memory.startAddr).toNat
              (memRange printMemRange).1).2.toList
          ++ (rule ++ "End Memory State\n" ++ rule).toList := by
    simp [dumpMemoryState, MemoryStore.printMemArray, MemEntrySize.ofBytes?]
  rw [← String.toList_inj, file, file, ← start,
    (((Texts.separates_refl _).append rows).append (Texts.separates_refl _)).eq_iff]
  simp only [true_and, and_true, MemoryStore.Shown, and_imp]
  rfl

-----------------------------------------------------------------------------------------
-- Statistics
-----------------------------------------------------------------------------------------

theorem separates_statLine (label : String) (value value' : U64)
    : Separates (statLine label value).toList (statLine label value').toList (value = value') := by
  have number
      : Separates (Texts.padded 10 0 value.toNat ++ ['\n'])
          (Texts.padded 10 0 value'.toNat ++ ['\n']) _ :=
    Texts.decimal.separates_numeral rfl 0 _ _
  have line (value : U64)
      : (statLine label value).toList
        = (setwLeft 23 label).toList ++ (Texts.padded 10 0 value.toNat ++ ['\n']) := by
    simp [statLine, Texts.padded]
  rw [line, line]
  exact ((Texts.separates_refl _).append number).congr (by simp [BitVec.toNat_inj])

theorem dumpSimStats_eq_iff (stats stats' : SimulationStats)
    : dumpSimStats stats = dumpSimStats stats' ↔ stats = stats' := by
  have line (label : String) (field : SimulationStats → U64) :=
    separates_statLine label (field stats) (field stats')
  have lines := ((((((line "Dynamic instructions: " (·.dynamicInstructions)).append
    (line "Total cycles: " (·.totalCycles))).append
    (line "I-cache hits: " (·.icHits))).append
    (line "I-cache misses: " (·.icMisses))).append
    (line "D-cache hits: " (·.dcHits))).append
    (line "D-cache misses: " (·.dcMisses))).append
    (line "Load-use stalls: " (·.loadUseStalls))
  rw [← String.toList_inj]
  simp only [dumpSimStats, String.toList_append]
  rw [lines.eq_iff]
  cases stats
  cases stats'
  simp only [SimulationStats.mk.injEq, and_assoc]

/-- The files of a simulator show its registers but for `x0`, the bytes of the printed range, and
its statistics: two simulators write the same files exactly if they agree on these.
Witness: every number in the files either fills its field or ends its line.
-/
theorem CycleState.finalizeSimulator_eq_iff {s t : CycleState Cache} (files : InputFiles)
    (pipeState : String) (start : s.simulator.memory.startAddr = t.simulator.memory.startAddr)
    (bound : s.simulator.memory.numEntries = t.simulator.memory.numEntries)
    : s.finalizeSimulator files pipeState = t.finalizeSimulator files pipeState
      ↔ (∀ r, 1 ≤ r → r < 32
            → s.simulator.regData (BitVec.ofNat 64 r) = t.simulator.regData (BitVec.ofNat 64 r))
        ∧ (∀ k,
            s.simulator.memory.Shown (memRange (files.text "print_mem_range")).1
                (memRange (files.text "print_mem_range")).2 4 k
              → s.simulator.memory.memArr k = t.simulator.memory.memArr k)
        ∧ s.simulationStats = t.simulationStats := by
  simp only [finalizeSimulator, OutputFiles.mk.injEq, and_true]
  rw [dumpRegisterState_eq_iff, dumpMemoryState_eq_iff start bound, dumpSimStats_eq_iff]

/-- A program of one word, and an empty one. -/
theorem CycleState.finalizeSimulator_eq_iff_apart
    : (boot testICache testDCache [0xfeedfeed]).finalizeSimulator ⟨fun _ => none, fun _ => none⟩ ""
      ≠ (boot testICache testDCache []).finalizeSimulator ⟨fun _ => none, fun _ => none⟩ "" := by
  intro same
  have bytes := ((@finalizeSimulator_eq_iff (boot testICache testDCache [0xfeedfeed])
    (boot testICache testDCache []) ⟨fun _ => none, fun _ => none⟩ "" rfl rfl).mp same).2.1
  exact absurd (bytes 0 ⟨by decide, by decide, by decide⟩) (by decide)

end RiscvSim
