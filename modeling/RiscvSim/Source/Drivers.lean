import RiscvSim.Source.CacheArgs
import RiscvSim.Source.Dumps
import RiscvSim.Source.Funct

/-! The two programs: `runTillHalt`, `finalizeSimulator` and `main` of the cycle simulator and of
the functional simulator.
-/

namespace RiscvSim

/-- The files that a program reads, by name: the binary that its command line names, the cache
configuration, and the two that it looks for by a fixed name.
-/
structure InputFiles where
  binary : String → Option (List (BitVec 8))
  text : String → Option (List Char)

/-- The contents of the files that a program writes. Their names differ between the programs. -/
structure OutputFiles where
  regState : String
  memState : String
  simStats : String
  pipeState : String

/-- `MEMORY_SIZE`. -/
def memorySize : ℕ := 0x10000

/-- `new MemoryStore(0, MEMORY_SIZE, inputFile)`. -/
def InputFiles.memory (files : InputFiles) (inputFile : String) : Option MemoryStore :=
  MemoryStore.ofFile 0 memorySize (files.text "init_mem_image") (files.binary inputFile)

namespace CycleState

/-- `runTillHalt`, with what it appends to the pipe-state file. It loops until HALT: `none` where
that takes more than `calls` calls.
-/
def runTillHalt : ℕ → CycleState Cache → Option (CycleState Cache × String)
  | 0, _ => none
  | calls + 1, s =>
      let (after, status) := runCycles 1 s
      let line := dumpPipeState after.pipeState
      if status = .halt then some (after, line)
      else (runTillHalt calls after).map fun rest => (rest.1, line ++ rest.2)

/-- `finalizeSimulator`. -/
def finalizeSimulator (s : CycleState Cache) (files : InputFiles) (pipeState : String)
    : OutputFiles where
  regState := dumpRegisterState s.simulator.regData
  memState := dumpMemoryState s.simulator.memory (files.text "print_mem_range")
  simStats := dumpSimStats s.simulationStats
  pipeState := pipeState

end CycleState

namespace FunctState

/-- `runTillHalt`, which also ends at an illegal instruction. -/
def runTillHalt : ℕ → FunctState → Option (FunctState × Status)
  | 0, _ => none
  | calls + 1, s =>
      let (after, status) := runInstructions 1 s
      if status = .halt ∨ status = .error then some (after, status)
      else runTillHalt calls after

/-- The statistics of the functional simulator: all but the first are 0. -/
def simulationStats (s : FunctState) : SimulationStats where
  dynamicInstructions := s.simulator.din
  totalCycles := 0
  icHits := 0
  icMisses := 0
  dcHits := 0
  dcMisses := 0
  loadUseStalls := 0

/-- `finalizeSimulator`, which writes no pipe-state file. -/
def finalizeSimulator (s : FunctState) (files : InputFiles) : OutputFiles where
  regState := dumpRegisterState s.simulator.regData
  memState := dumpMemoryState s.simulator.memory (files.text "print_mem_range")
  simStats := dumpSimStats s.simulationStats
  pipeState := ""

end FunctState

end RiscvSim
