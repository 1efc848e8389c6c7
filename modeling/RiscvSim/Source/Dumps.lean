import RiscvSim.Library.Texts
import RiscvSim.Source.MemoryImage
import RiscvSim.Source.Trace

/-! The texts of the output files: registers, memory, statistics, and the lines of the pipe-state
file. A file that cannot be opened is not modelled.
-/

namespace RiscvSim

/-- `std::hex << std::setfill('0') << std::setw(width)` before a number. -/
def hexField (width n : ℕ) : String := String.ofList (Texts.padded 16 width n)

/-- `std::setw(width)` before a text. -/
def setwRight (width : ℕ) (text : String) : String :=
  String.ofList (List.replicate (width - text.length) ' ') ++ text

/-- The line that frames the dumps. -/
def rule : String := "---------------------\n"

-----------------------------------------------------------------------------------------
-- Registers
-----------------------------------------------------------------------------------------

/-- One register of `RegisterInfo`, with the empty line behind the last one of its group. The
record shares its memory with the array of registers.
-/
def registerLine (regData : Registers) (r : ℕ) : String :=
  "$" ++ regName (BitVec.ofNat 64 r) ++ " = 0x"
  ++ hexField 8 (regData (BitVec.ofNat 64 r)).toNat ++ "\n"
  ++ (if r ∈ [4, 7, 9, 17, 27] then "\n" else "")

/-- The file of `dumpRegisterState`. -/
def dumpRegisterState (regData : Registers) : String :=
  rule ++ "Begin Register Values\n" ++ rule
  ++ String.join ((List.range' 1 31).map (registerLine regData))
  ++ rule ++ "End Register Values\n" ++ rule

-----------------------------------------------------------------------------------------
-- Memory
-----------------------------------------------------------------------------------------

/-- The sizes that `printMemArray` accepts. -/
def MemEntrySize.ofBytes? (bytes : ℕ) : Option MemEntrySize :=
  if bytes = 1 then some .byteSize
  else if bytes = 2 then some .halfSize
  else if bytes = 4 then some .wordSize
  else if bytes = 8 then some .doubleSize
  else none

/-- Why a row ends. -/
inductive RowEnd
  | full
  | rangeEnd
  | outOfRange

namespace MemoryStore

/-- The bytes of an entry from `relAddr` on, with `count` left. The flag is false where `at` throws
`std::out_of_range`. Indices are numbers: an entry that would wrap throws at its first byte.
-/
def printBytes (mem : MemoryStore) (relAddr : ℕ) : ℕ → Bool × String
  | 0 => (true, "")
  | count + 1 =>
      if relAddr < mem.numEntries then
        let rest := printBytes mem (relAddr + 1) count
        (rest.1, hexField 2 (mem.memArr relAddr).toNat ++ rest.2)
      else (false, "")

/-- The entries of a row from `relStart` on, with `left` left. -/
def printRow (mem : MemoryStore) (entrySize : MemEntrySize) (relEnd relStart : ℕ)
    : ℕ → RowEnd × String
  | 0 => (.full, "")
  | left + 1 =>
      if relStart < relEnd then
        let bytes := mem.printBytes relStart entrySize.bytes
        if bytes.1 then
          let rest := printRow mem entrySize relEnd (relStart + entrySize.bytes) left
          (rest.1, "0x" ++ bytes.2 ++ " " ++ rest.2)
        else (.outOfRange, "0x" ++ bytes.2)
      else (.rangeEnd, "")

/-- The rows from `relStart` on. Without entries in a row the source would never end. -/
def printRows (mem : MemoryStore) (entrySize : MemEntrySize) (entriesPerRow : ℕ)
    [NeZero entriesPerRow] (relEnd relStart : ℕ) (curAddr : U64)
    : Int × String :=
  if relStart < relEnd then
    let head := "0x" ++ hexField 8 curAddr.toNat ++ ": "
    let row := mem.printRow entrySize relEnd relStart entriesPerRow
    match row.1 with
    | .outOfRange => (-einval, head ++ row.2)
    | .rangeEnd => (0, head ++ row.2 ++ "\n")
    | .full =>
        let rest := mem.printRows entrySize entriesPerRow relEnd
          (relStart + entrySize.bytes * entriesPerRow)
          (curAddr + BitVec.ofNat 64 (entrySize.bytes * entriesPerRow))
        (rest.1, head ++ row.2 ++ "\n" ++ rest.2)
  else (0, "")
termination_by relEnd - relStart
decreasing_by
  have size : 0 < entrySize.bytes := by cases entrySize <;> decide
  have step := Nat.mul_pos size (NeZero.pos entriesPerRow)
  omega

/-- `printMemArray`: its return code, and what it has written. -/
def printMemArray (mem : MemoryStore) (startAddr endAddr : U64) (entrySize entriesPerRow : ℕ)
    [NeZero entriesPerRow]
    : Int × String :=
  match MemEntrySize.ofBytes? entrySize with
  | none => (-einval, "")
  | some size =>
      mem.printRows size entriesPerRow (endAddr - mem.startAddr).toNat
        (startAddr - mem.startAddr).toNat startAddr

end MemoryStore

/-- The range that `dumpMemoryState` prints, with the text of the file `print_mem_range` where
there is one.
-/
def memRange (printMemRange : Option (List Char)) : U64 × U64 :=
  match printMemRange with
  | none => (0, 0x1f4)
  | some text =>
      let startAddr := (IfStream.opened (some text)).extractHex (0 : U64)
      let endAddr := startAddr.2.extractHex (0x1f4 : U64)
      (startAddr.1, endAddr.1)

/-- The file of `dumpMemoryState`. -/
def dumpMemoryState (mem : MemoryStore) (printMemRange : Option (List Char)) : String :=
  let (startAddr, endAddr) := memRange printMemRange
  rule ++ "Begin Memory State\n" ++ rule
  ++ (mem.printMemArray startAddr endAddr 4 5).2
  ++ rule ++ "End Memory State\n" ++ rule

-----------------------------------------------------------------------------------------
-- Statistics and the pipe state
-----------------------------------------------------------------------------------------

def statLine (label : String) (value : U64) : String :=
  setwLeft 23 label ++ toString value.toNat ++ "\n"

/-- The file of `dumpSimStats`. -/
def dumpSimStats (stats : SimulationStats) : String :=
  statLine "Dynamic instructions: " stats.dynamicInstructions
  ++ statLine "Total cycles: " stats.totalCycles
  ++ statLine "I-cache hits: " stats.icHits
  ++ statLine "I-cache misses: " stats.icMisses
  ++ statLine "D-cache hits: " stats.dcHits
  ++ statLine "D-cache misses: " stats.dcMisses
  ++ statLine "Load-use stalls: " stats.loadUseStalls

def printIFPC (pc : U64) (status : StageStatus) : String :=
  setwLeft 25 (" Inst at 0x" ++ hexField 0 pc.toNat ++ status.str)

/-- The line that `dumpPipeState` appends. -/
def dumpPipeState (state : PipeState) : String :=
  "Cycle: " ++ setwRight 8 (toString state.cycle.toNat) ++ "\t|" ++ "|"
  ++ printIFPC state.ifPC state.ifStatus ++ "|"
  ++ printInstr (state.idInstr.setWidth 32) state.idStatus ++ "|"
  ++ printInstr (state.exInstr.setWidth 32) state.exStatus ++ "|"
  ++ printInstr (state.memInstr.setWidth 32) state.memStatus ++ "|"
  ++ printInstr (state.wbInstr.setWidth 32) state.wbStatus ++ "|\n"

end RiscvSim
