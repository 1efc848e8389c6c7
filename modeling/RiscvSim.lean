import RiscvSim.Library.Runs
import RiscvSim.Source.Funct
import RiscvSim.Pipeline.FrontEnd
import RiscvSim.Pipeline.Streams
import RiscvSim.Correctness.StreamOrder
import RiscvSim.Correctness.ProgramOrder
import RiscvSim.Instructions.Execution
import RiscvSim.Correctness.MemoryExceptions
import RiscvSim.Correctness.HaltEffects
import RiscvSim.Correctness.IllegalTraps
import RiscvSim.Instructions.Sequential
import RiscvSim.Correctness.SequentialExecution
import RiscvSim.Correctness.CacheTiming
import RiscvSim.Correctness.FunctionalSimulation
import RiscvSim.Correctness.Scoreboard
import RiscvSim.Library.Rv64i
import RiscvSim.Instructions.Encoding
import RiscvSim.Source.Shifts
import RiscvSim.Correctness.Decoder
import RiscvSim.Correctness.Arithmetic
import RiscvSim.Correctness.ControlFlow
import RiscvSim.Instructions.MemoryBytes
import RiscvSim.Correctness.MemoryAccess
import RiscvSim.Correctness.StagedExecution
import RiscvSim.Library.Lru
import RiscvSim.Pipeline.LruSets
import RiscvSim.Correctness.CacheReplacement
import RiscvSim.Correctness.ZeroPenalty
import RiscvSim.Correctness.CancelledMisses
import RiscvSim.Correctness.FetchLookups
import RiscvSim.Correctness.MissFreeze
import RiscvSim.Source.Trace
import RiscvSim.Correctness.TraceLegality
import RiscvSim.Correctness.TraceImmediates
import RiscvSim.Correctness.Reinitialization
import RiscvSim.Correctness.CacheInclusion
import RiscvSim.Correctness.LoadStore
import RiscvSim.Source.MemoryImage
import RiscvSim.Correctness.InitialImage
import RiscvSim.Correctness.ZeroRegister
import RiscvSim.Correctness.DynRetired
import RiscvSim.Correctness.LoadUseCount
import RiscvSim.Correctness.CacheTable
import RiscvSim.Correctness.CacheSafety
import RiscvSim.Correctness.ProgramResult
import RiscvSim.Correctness.DataAccesses
import RiscvSim.Library.Rv64iHart
import RiscvSim.Correctness.Rv64iExecution
import RiscvSim.Correctness.ScheduledPrograms
import RiscvSim.Correctness.Scheduling
import RiscvSim.Correctness.CycleAccounting
import RiscvSim.Correctness.Progress
import RiscvSim.Library.Texts
import RiscvSim.Source.Dumps
import RiscvSim.Source.Drivers
import RiscvSim.Correctness.Dumps
import RiscvSim.Correctness.Loading
import RiscvSim.Correctness.BehindHalt
import RiscvSim.Correctness.Programs
import RiscvSim.Correctness.CacheGeometry
import RiscvSim.Library.Rv64iText
import RiscvSim.Correctness.Disassembly
import RiscvSim.Correctness.PipeTrace
