import RiscvSim.Pipeline.Streams

/-! The cycle in which HALT reaches WB, which ends the run. -/

namespace RiscvSim.CycleState

variable {κ : Type} [CacheUnit κ]

/-- The run from `start` ends with HALT in the cycle that begins after `n` others. -/
structure HaltsAt (start : CycleState κ) (n : ℕ) : Prop where
  reached : (next^[n] start).halts = true
  first : ∀ m < n, (next^[m] start).halts = false

theorem haltsAt_zero_iff {start : CycleState κ} : HaltsAt start 0 ↔ start.halts = true :=
  ⟨fun h => h.reached, fun halts => ⟨halts, fun m earlier => absurd earlier (Nat.not_lt_zero m)⟩⟩

theorem haltsAt_succ_iff {start : CycleState κ} {n : ℕ}
    : HaltsAt start (n + 1) ↔ start.halts = false ∧ HaltsAt start.next n := by
  constructor
  · intro h
    obtain ⟨now, later⟩ := Nat.forall_lt_succ_left.mp h.first
    exact ⟨now, h.reached, later⟩
  · rintro ⟨now, later⟩
    exact ⟨later.reached, Nat.forall_lt_succ_left.mpr ⟨now, later.first⟩⟩

/-- `runCycles` reports HALT if and only if the limit allows for the cycle that ends the run,
and then stops with the state after it.
-/
theorem runCycles_halt_iff (limit : ℕ) (start final : CycleState κ)
    : runCycles limit start = (final, .halt)
      ↔ ∃ n < limit, HaltsAt start n ∧ final = next^[n + 1] start := by
  induction limit generalizing start with
  | zero => simp [runCycles]
  | succ limit ih =>
      rw [runCycles, Nat.exists_lt_succ_left]
      simp only [haltsAt_zero_iff, haltsAt_succ_iff]
      cases now : start.halts with
      | true => simp [eq_comm]
      | false => simp [ih]

variable {s : CycleState κ}

omit [CacheUnit κ] in
/-- The cycle halts when MEM holds HALT and passes it on. -/
theorem LatchInv.halts_eq (h : s.LatchInv)
    : s.halts = (!s.dStallActive && s.memInst.isHalt) := by
  cases moving : s.dStallActive with
  | true => simp [halts, newWB, moving, nop]
  | false =>
      cases fault : s.memInst.memException with
      | false =>
          have same := (h.newWB_eq moving fault).1
          simp [halts, (Instruction.sameControl same).isHalt]
      | true =>
          have running := (h.inMEM.kind.access (h.inMEM.fault fault)).1
          simp [halts, newWB, moving, h.memFaulted_eq, fault, nop, running]

omit [CacheUnit κ] in
/-- MEM then holds HALT, without an exception, and passes it on. -/
theorem LatchInv.halts_mem (h : s.LatchInv) (halts : s.halts = true)
    : s.dStallActive = false ∧ s.memInst.isHalt = true ∧ s.memInst.inFlight = true
      ∧ s.memInst.memException = false := by
  rw [h.halts_eq, Bool.and_eq_true, Bool.not_eq_true'] at halts
  refine ⟨halts.1, halts.2, h.mem_inFlight (h.inMEM.kind.halt halts.2).isNop, ?_⟩
  by_contra fault
  have running := (h.inMEM.kind.access (h.inMEM.fault (by simpa using fault))).1
  simp [halts.2] at running

end RiscvSim.CycleState
