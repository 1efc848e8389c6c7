import RiscvSim.Correctness.BehindHalt
import RiscvSim.Correctness.CacheSafety
import RiscvSim.Correctness.Dumps
import RiscvSim.Correctness.Loading
import RiscvSim.Correctness.Progress
import RiscvSim.Correctness.Scoreboard
import RiscvSim.Correctness.ZeroPenalty

/-! The two programs as wholes: from their arguments and input files to their output files. -/

namespace RiscvSim

-----------------------------------------------------------------------------------------
-- Running till HALT
-----------------------------------------------------------------------------------------

namespace CycleState

/-- The lines that the first `cycles` cycles from `start` append to the pipe-state file. -/
def pipeStateLines (start : CycleState Cache) (cycles : ℕ) : String :=
  String.join ((List.range cycles).map fun k => dumpPipeState (next^[k + 1] start).pipeState)

theorem pipeStateLines_succ (start : CycleState Cache) (cycles : ℕ)
    : pipeStateLines start (cycles + 1)
      = dumpPipeState start.next.pipeState ++ pipeStateLines start.next cycles := by
  rw [pipeStateLines, List.range_succ_eq_map, List.map_cons, String.join_cons, List.map_map]
  rfl

theorem runTillHalt_succ (calls : ℕ) (s : CycleState Cache)
    : runTillHalt (calls + 1) s
      = if s.halts = true then some (s.next, dumpPipeState s.next.pipeState)
        else (runTillHalt calls s.next).map fun rest =>
          (rest.1, dumpPipeState s.next.pipeState ++ rest.2) := by
  have called : runCycles 1 s = if s.halts = true then (s.next, .halt) else (s.next, .success) := by
    rw [runCycles, runCycles]
  rw [runTillHalt, called]
  by_cases now : s.halts = true
  · rw [if_pos now, if_pos now]
    exact if_pos rfl
  · rw [if_neg now, if_neg now]
    exact if_neg Status.noConfusion

/-- Witness: induction on the calls. -/
theorem runTillHalt_iff_haltsAt (calls : ℕ) (start final : CycleState Cache) (text : String)
    : runTillHalt calls start = some (final, text)
      ↔ ∃ n < calls,
          HaltsAt start n ∧ final = next^[n + 1] start ∧ text = pipeStateLines start (n + 1) := by
  induction calls generalizing start final text with
  | zero => simp [runTillHalt]
  | succ calls ih =>
      rw [Nat.exists_lt_succ_left, runTillHalt_succ]
      simp only [haltsAt_zero_iff, haltsAt_succ_iff]
      cases now : start.halts with
      | true =>
          have last : pipeStateLines start 1 = dumpPipeState start.next.pipeState := by
            rw [pipeStateLines_succ]
            exact String.append_empty
          simp [last, eq_comm]
      | false =>
          simp only [Bool.false_eq_true, if_false, Option.map_eq_some_iff, Prod.exists, ih,
            false_and, false_or, true_and, pipeStateLines_succ start]
          constructor
          · rintro ⟨_, _, ⟨n, earlier, halts, rfl, rfl⟩, same⟩
            obtain ⟨rfl, rfl⟩ := Prod.mk.inj same
            exact ⟨n, earlier, halts, rfl, rfl⟩
          · rintro ⟨n, earlier, halts, rfl, rfl⟩
            exact ⟨_, _, ⟨n, earlier, halts, rfl, rfl⟩, rfl⟩

variable {κ : Type} [CacheUnit κ] {start : CycleState κ} {n : ℕ}

/-- A call of `runCycles` that does not pass HALT. -/
theorem runCycles_quiet {limit : ℕ} (quiet : ∀ m < limit, (next^[m] start).halts = false)
    : runCycles limit start = (next^[limit] start, .success) := by
  induction limit generalizing start with
  | zero => rfl
  | succ limit ih =>
      obtain ⟨now, later⟩ := Nat.forall_lt_succ_left.mp quiet
      rw [runCycles, if_neg (by simpa using now)]
      exact ih later

/-- Where the limits tell HALT. -/
theorem haltsAt_of_runCycles {final : CycleState κ}
    (ends : runCycles (n + 1) start = (final, .halt)) (before : (runCycles n start).2 = .success)
    : HaltsAt start n ∧ final = next^[n + 1] start := by
  obtain ⟨m, bound, halts, same⟩ := (runCycles_halt_iff (n + 1) start final).mp ends
  obtain rfl : m = n := by
    by_contra other
    have passed := (runCycles_halt_iff n start _).mpr ⟨m, by omega, halts, rfl⟩
    simp [passed] at before
  exact ⟨halts, same⟩

/-- `runTillHalt` calls `runCycles` once for each cycle. It ends as one call does with any limit
beyond HALT, and the pipe-state file has a line for each cycle: line `k`, which carries that
number, is what a call limited to `k + 1` cycles dumps.
Witness: one call of `n` cycles is `n` calls of one.
-/
theorem runTillHalt_eq_some_iff (past : CycleState Cache) (iCacheConfig dCacheConfig : CacheConfig)
    (image : MemoryStore) (calls : ℕ) (final : CycleState Cache) (text : String)
    : runTillHalt calls (initSimulator past iCacheConfig dCacheConfig image) = some (final, text)
      ↔ ∃ n < calls,
          (∀ limit, n < limit
            → runCycles limit (initSimulator past iCacheConfig dCacheConfig image)
              = (final, .halt))
          ∧ (∀ limit ≤ n,
            (runCycles limit (initSimulator past iCacheConfig dCacheConfig image)).2 = .success)
          ∧ text
            = String.join ((List.range (n + 1)).map fun k =>
                dumpPipeState (runCycles (k + 1)
                  (initSimulator past iCacheConfig dCacheConfig image)).1.pipeState)
          ∧ ∀ k ≤ n, k + 1 < 2 ^ 64
            → (runCycles (k + 1)
                (initSimulator past iCacheConfig dCacheConfig image)).1.pipeState.cycle
              = BitVec.ofNat 64 k := by
  have zero : (initSimulator past iCacheConfig dCacheConfig image).cycleCount = 0 := rfl
  generalize initSimulator past iCacheConfig dCacheConfig image = start at zero
  rw [runTillHalt_iff_haltsAt]
  refine exists_congr fun n => and_congr_right fun _ => ?_
  constructor
  · rintro ⟨halts, rfl, rfl⟩
    have reached {k : ℕ} (bound : k ≤ n) : (runCycles (k + 1) start).1 = next^[k + 1] start :=
      runCycles_of_quiet fun m earlier => halts.first m (by omega)
    refine ⟨fun limit later => (runCycles_halt_iff limit start _).mpr ⟨n, later, halts, rfl⟩,
      fun limit bound => ?_, ?_, fun k bound fits => ?_⟩
    · rw [runCycles_quiet fun m earlier => halts.first m (by omega)]
    · refine congrArg String.join (List.map_congr_left fun k member => ?_)
      rw [reached (Nat.lt_succ_iff.mp (List.mem_range.mp member))]
    · have count := cycleCount_iterate start zero (k + 1)
      have positive : BitVec.ofNat 64 (k + 1) ≠ 0 := by
        intro same
        have number := congrArg BitVec.toNat same
        rw [BitVec.toNat_ofNat, Nat.mod_eq_of_lt fits] at number
        exact Nat.succ_ne_zero k number
      rw [reached bound, pipeState, count, if_neg positive, BitVec.ofNat_add]
      exact BitVec.add_sub_cancel _ _
  · rintro ⟨ends, before, rfl, _⟩
    obtain ⟨halts, rfl⟩ := haltsAt_of_runCycles (ends (n + 1) n.lt_succ_self) (before n le_rfl)
    refine ⟨halts, rfl, congrArg String.join (List.map_congr_left fun k member => ?_)⟩
    have bound := Nat.lt_succ_iff.mp (List.mem_range.mp member)
    rw [runCycles_of_quiet fun m earlier => halts.first m (by omega)]

end CycleState

namespace CycleState

end CycleState
end RiscvSim
