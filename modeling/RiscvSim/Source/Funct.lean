import RiscvSim.Source.Simulator

/-! The functional simulator: `simInstruction` iterated from PC 0. -/

namespace RiscvSim

/-- The static state of the functional simulator. -/
structure FunctState where
  simulator : Simulator
  pc : U64

namespace FunctState

/-- `initSimulator` of the functional simulator in a fresh process. The source leaves `PC`
at its static initial value.
-/
def init (mem : MemoryStore) : FunctState where
  simulator := Simulator.new mem
  pc := 0

/-- `initSimulator`, called when the statics hold `past`: it sets no `PC`. -/
def initSimulator (past : FunctState) (mem : MemoryStore) : FunctState :=
  { past with simulator := Simulator.new mem }

/-- The instruction record of the next iteration of the loop. -/
def inst (s : FunctState) : Instruction := (s.simulator.simInstruction s.pc).1

/-- The state after one iteration. -/
def step (s : FunctState) : FunctState where
  simulator := (s.simulator.simInstruction s.pc).2
  pc := s.inst.nextPC

/-- `runInstructions` with a positive limit: stops after `instructions` iterations, or at
the first HALT or illegal instruction.
-/
def runInstructions : Nat → FunctState → FunctState × Status
  | 0, s => (s, .success)
  | instructions + 1, s =>
      if s.inst.isHalt then (s.step, .halt)
      else if !s.inst.isLegal then (s.step, .error)
      else runInstructions instructions s.step

end FunctState
end RiscvSim
