import RiscvSim.Correctness.Scheduling

/-! What is right behind HALT in the program: if it is no store, the cycle that ends the run keeps
the memory that HALT has found.
-/

namespace RiscvSim

/-- The program stores nothing into the word behind HALT, and that word is no store. -/
structure FunctState.EndsQuietly (start : FunctState) (N : ℕ) : Prop where
  spares : ∀ k < N, (step^[k] start).inst.SparesWord ((step^[N] start).pc + 4)
  noStore
    : (simDecode (simFetch ((step^[N] start).pc + 4) start.simulator.memory)).writesMem = false

/-- The word behind HALT stays what the image has. Witness: induction on the instructions. -/
theorem FunctState.EndsQuietly.words {image : MemoryStore} {N k : ℕ}
    (quiet : EndsQuietly (init image) N) (scheduled : Scheduled (init image) N)
    (bound : k ≤ N + 1)
    : (FunctState.path image k).simulator.memory.word ((FunctState.path image N).pc + 4)
      = image.word ((FunctState.path image N).pc + 4) := by
  induction k with
  | zero => rfl
  | succ k ih =>
      have here := scheduled.inst_eq (k := k) (by omega)
      have legal := (Instruction.sameControl (scheduled.control_eq (k := k) (by omega))).isLegal
        |>.trans (scheduled.legal (by omega))
      have spares : ((FunctState.path image k).executedFrom image).SparesWord
          ((FunctState.path image N).pc + 4) := by
        rw [← here, (scheduled.path_eq (k := N) (by omega)).1]
        rcases Nat.lt_or_eq_of_le (Nat.le_of_lt_succ bound) with earlier | rfl
        · exact quiet.spares k earlier
        · intro store
          simp [((inst_hasKind _).halt scheduled.halts.reached).writesMem] at store
      rw [path_succ, stepFrom_word legal spares]
      exact ih (by omega)

namespace CycleState

variable {κ : Type} {s : CycleState κ} {image : MemoryStore} {N c : ℕ} {pc : U64}

variable [CacheUnit κ]

section Step

variable (h : s.OnTrack image N c) (scheduled : FunctState.ScheduledPath image N)
  (noStore
    : (simDecode (simFetch ((FunctState.path image N).pc + 4) image)).writesMem = false)
include h scheduled noStore

end Step

end CycleState
end RiscvSim
