import RiscvSim.Pipeline.Effects

/-! Illegal instructions: the older ones retire, the illegal one and what was fetched behind it
vanish, and the handler's instructions follow from 0x8000 on.
-/

namespace RiscvSim.CycleState

variable {κ : Type} [CacheUnit κ] {s : CycleState κ}

/-- The run of `n` cycles that follows the cycle of `s`, in which ID decodes an illegal
instruction. The streams of the later stages hold nothing but the older instructions and
those of the handler.
-/
structure TrapsCleanly (s : CycleState κ) (n : ℕ) : Prop where
  /-- What enters ID after the illegal instruction are the instructions from 0x8000 on, each
  with the PC that was resolved for its predecessor.
  -/
  handler
    : (Runs.events next entersID s.next n).map Instruction.pc
      <+: exceptionHandler
        :: ((Runs.events next leavesResolved s.next n).drop 1).map Prod.snd
  /-- They leave ID in that order, behind the illegal instruction. -/
  order
    : s.newID :: Runs.events next entersID s.next n
      = (Runs.events next leavesResolved s.next n).map Prod.fst
        ++ (next^[n] s.next).idInst.slot
  /-- Those that are legal enter EX, each exactly once, and nothing else does. -/
  executes
    : ((Runs.events next entersID s.next n).filter Instruction.isLegal).map Instruction.token
      = (Runs.events next entersEX s.next n).map Instruction.token
        ++ ((next^[n] s.next).idInst.slot.filter Instruction.isLegal).map Instruction.token
  /-- The older instructions and then these enter MEM, each exactly once, and nothing else
  does; memory changes by the access of the instruction that enters MEM, and by nothing else.
  -/
  accesses
    : (s.exInst.slot ++ s.idInst.slot).map Instruction.token
        ++ (Runs.events next entersEX s.next n).map Instruction.token
      = (Runs.events next entersMEM s (n + 1)).map Instruction.token
        ++ (next^[n] s.next).exInst.slot.map Instruction.token
  memory
    : ∀ m < n + 1,
        (next^[m] s).next.simulator.memory
          = (next^[m] s).entersMEM.elim (next^[m] s).simulator.memory
              fun inst => (simMemAccess (simAddrGen inst) (next^[m] s).simulator.memory).2
  /-- The older instructions and then these retire, each exactly once, and nothing else does;
  the registers change by what WB commits for the one that retires, and by nothing else.
  -/
  retires
    : (s.memInst.slot ++ s.exInst.slot ++ s.idInst.slot).map Instruction.token
        ++ (Runs.events next entersEX s.next n).map Instruction.token
      = (Runs.events next entersWB s (n + 1)).map Instruction.token
        ++ ((next^[n] s.next).memInst.slot ++ (next^[n] s.next).exInst.slot).map
          Instruction.token
  registers
    : ∀ m < n + 1,
        (next^[m] s).next.simulator.regData
          = (next^[m] s).entersWB.elim (next^[m] s).simulator.regData
              fun inst => ((next^[m] s).simulator.simWB inst).2.regData

omit [CacheUnit κ] in
/-- The trap target of whatever illegal instruction leaves ID. -/
theorem leavesResolved_illegal {inst : Instruction} {pc : U64}
    (leaves : s.leavesResolved = some (inst, pc)) (illegal : inst.isLegal = false)
    : pc = exceptionHandler := by
  simp only [leavesResolved, leavesID] at leaves
  split at leaves
  · simp only [Option.map_some, Option.some.injEq, Prod.mk.injEq] at leaves
    rw [← leaves.2, resolvedPC, leaves.1, illegal]
    rfl
  · simp at leaves

omit [CacheUnit κ] in
/-- The instruction that an illegal one follows is legal, and moves to EX. -/
theorem FrontInv.legal_ahead (front : s.FrontInv) (l : s.LatchInv) (decodes : s.decodes = true)
    : s.idInst.isLegal = true := by
  by_contra illegal
  simp only [Bool.not_eq_true] at illegal
  obtain ⟨moving, unsquashed, _⟩ := decodes_clear decodes
  have busy := (l.inID.kind.illegal illegal).isNop
  have waits := front.illegal_waits
    (by simp [illegalInID, applyDeferredSquash, unsquashed, illegal, busy])
  simp [(held_free.mp moving).1] at waits

omit [CacheUnit κ] in
/-- The illegal instruction enters ID, which moves. -/
theorem LatchInv.illegalDecoded_clear (l : s.LatchInv) (decoded : s.illegalDecoded = true)
    : s.decodes = true ∧ s.held = false ∧ s.newID.isLegal = false := by
  simp only [l.illegalDecoded_eq, Bool.and_eq_true, Bool.not_eq_true'] at decoded
  exact ⟨decoded.1, (decodes_clear decoded.1).1, decoded.2⟩

omit [CacheUnit κ] in
/-- What ID held before moves to EX. -/
theorem FrontInv.entersEX_ahead (front : s.FrontInv) (l : s.LatchInv)
    (calm : s.wbMemException = false) (decodes : s.decodes = true)
    : s.entersEX.toList.map Instruction.token = s.idInst.slot.map Instruction.token := by
  rw [← Option.toList_map, l.entersEX_eq calm, leavesID, (decodes_clear decodes).1, calm,
    Instruction.slot]
  cases ahead : s.idInst.inFlight with
  | false => rfl
  | true => simp [Option.filter, front.legal_ahead l decodes]

/-- Where the illegal instruction is the first to leave ID, the handler's address follows. -/
theorem handler_first {n : ℕ} {illegal : Instruction} {after pending : List U64}
    {entered slot : List Instruction} (trap : illegal.isLegal = false)
    (order
      : illegal :: entered = (Runs.events next leavesResolved s n).map Prod.fst ++ slot)
    (chain : (Runs.events next leavesResolved s n).map Prod.snd = after ++ pending)
    : after
      <+: exceptionHandler :: ((Runs.events next leavesResolved s n).drop 1).map Prod.snd := by
  cases left : Runs.events next leavesResolved s n with
  | nil =>
      rw [left] at chain
      rw [(List.append_eq_nil_iff.mp chain.symm).1]
      exact List.nil_prefix
  | cons head rest =>
      rw [left] at chain order
      simp only [List.map_cons, List.cons_append, List.cons.injEq] at order
      have member : head ∈ Runs.events next leavesResolved s n := by simp [left]
      obtain ⟨m, _, leaves⟩ := Runs.mem_events.mp member
      have target : head.2 = exceptionHandler :=
        leavesResolved_illegal leaves (order.1 ▸ trap)
      rw [List.map_cons, target] at chain
      rw [List.drop_one, List.tail_cons, chain]
      exact List.prefix_append _ _

/-- The instructions ahead of the illegal one enter MEM, followed by those that enter EX. -/
theorem FrontInv.accesses_trap (front : s.FrontInv) (l : s.LatchInv) (decodes : s.decodes = true)
    {n : ℕ} (calm : ∀ m < n + 1, (next^[m] s).wbMemException = false)
    : (s.exInst.slot ++ s.idInst.slot).map Instruction.token
        ++ (Runs.events next entersEX s.next n).map Instruction.token
      = (Runs.events next entersMEM s (n + 1)).map Instruction.token
        ++ (next^[n] s.next).exInst.slot.map Instruction.token := by
  have stream := stream_mem calm l
  have issued := front.entersEX_ahead l (calm 0 (by omega)) decodes
  rw [Function.iterate_succ_apply, Nat.add_comm n 1, Runs.events_add _ _ _ n, Runs.events_one,
    List.map_append, Function.iterate_one, issued] at stream
  rw [Nat.add_comm n 1, ← stream, List.map_append, List.append_assoc]

theorem FrontInv.trapsCleanly (front : s.FrontInv) (l : s.LatchInv)
    (decoded : s.illegalDecoded = true) {n : ℕ}
    (even : ∀ m < n + 1, (next^[m] s).trapsOddly = false)
    (calm : ∀ m < n + 1, (next^[m] s).wbMemException = false)
    : s.TrapsCleanly n := by
  obtain ⟨decodes, moving, illegal⟩ := l.illegalDecoded_clear decoded
  have calmAfter : ∀ m < n, (next^[m] s.next).wbMemException = false :=
    fun m earlier => calm (m + 1) (by omega)
  have latch : s.next.idInst = s.newID := next_idInst (calm 0 (by omega))
  have flight : s.next.idInst.inFlight = true := by rw [latch, newID_inFlight moving, decodes]
  have slot : s.next.idInst.slot = [s.newID] := by rw [Instruction.slot, if_pos flight, latch]
  have inv := l.inv_next
  have frontNext := front.inv_next l (even 0 (by omega))
  have order
      : s.newID :: Runs.events next entersID s.next n
        = (Runs.events next leavesResolved s.next n).map Prod.fst
          ++ (next^[n] s.next).idInst.slot := by
    have first (t : CycleState κ) : t.leavesResolved.map Prod.fst = t.leavesID := by
      simp [leavesResolved, Option.map_map, Function.comp_def]
    simp only [Runs.map_events, first]
    rw [← stream_id calmAfter, slot]
    rfl
  have accesses := front.accesses_trap l decodes calm
  exact {
    handler := by
      have chain := stream_pc calmAfter inv fun m earlier =>
        frontNext.iterate inv fun j before => even (j + 1) (by omega)
      rw [pendingPC, if_pos flight, List.nil_append] at chain
      exact handler_first illegal order chain
    order := order
    executes := by
      have stream := stream_ex calmAfter inv
      rw [slot] at stream
      simpa [illegal] using stream
    accesses := accesses
    memory := fun m earlier => (l.iterate m).memory_entersMEM (calm m earlier)
    retires := by
      have stream := stream_wb calm l
      rw [Function.iterate_succ_apply] at stream
      calc (s.memInst.slot ++ s.exInst.slot ++ s.idInst.slot).map Instruction.token
            ++ (Runs.events next entersEX s.next n).map Instruction.token
          = s.memInst.slot.map Instruction.token
            ++ ((s.exInst.slot ++ s.idInst.slot).map Instruction.token
              ++ (Runs.events next entersEX s.next n).map Instruction.token) := by simp
        _ = s.memInst.slot.map Instruction.token
            ++ (Runs.events next entersMEM s (n + 1)).map Instruction.token
            ++ (next^[n] s.next).exInst.slot.map Instruction.token := by
              rw [accesses, List.append_assoc]
        _ = _ := by rw [stream, List.map_append, List.append_assoc]
    registers := fun m _ => (l.iterate m).registers_entersWB }

-----------------------------------------------------------------------------------------
-- The older instructions retire
-----------------------------------------------------------------------------------------

/-- A D-cache stall ends, and until then MEM and EX keep their content and nothing retires.
Witness: the counter falls in every cycle of the stall.
-/
theorem LatchInv.stall_passes (h : s.LatchInv)
    : ∃ k, (next^[k] s).dStallActive = false
        ∧ (next^[k] s).memInst = s.memInst ∧ (next^[k] s).exInst = s.exInst
        ∧ Runs.events next entersWB s k = [] := by
  induction left : s.dStallLeft.toNat using Nat.strong_induction_on generalizing s with
  | _ count ih =>
      cases active : s.dStallActive with
      | false => exact ⟨0, active, rfl, rfl, rfl⟩
      | true =>
          have calm : s.wbMemException = false := by simp [h.wbMemException_eq, active]
          have falls : s.next.dStallLeft.toNat < count := by
            have bound := s.dStallLeft.isLt
            have one : (1 : U64).toNat = 1 := rfl
            have zero : (0 : U64).toNat = 0 := rfl
            have ticks : s.next.dStallLeft = s.dStallLeft - 1 := by
              have positive := active
              simp only [dStallActive, decide_eq_true_eq] at positive
              simp only [next, FrontInv.dStallLeftNext_frozen active, dStallTick, positive, if_true]
            simp only [dStallActive, decide_eq_true_eq, BitVec.lt_def, zero] at active
            rw [ticks, BitVec.toNat_sub, one]
            omega
          obtain ⟨k, ends, mem, ex, silent⟩ := ih _ falls h.inv_next rfl
          refine ⟨k + 1, ends, mem.trans ?_, ex.trans ?_, ?_⟩
          · simp [next_memInst calm, newMEM, active]
          · simp [next_exInst calm, newEX, active]
          · have idle : s.entersWB = none := by
              simp [entersWB, newWB, active, bubble_inFlight]
            rw [Nat.add_comm, Runs.events_add, Runs.events_one, idle]
            exact silent

/-- In a cycle without a stall or an exception MEM retires and EX moves up. -/
theorem LatchInv.retires (h : s.LatchInv) (moving : s.dStallActive = false)
    (sound : s.memInst.memException = false)
    : s.entersWB.toList.map Instruction.token = s.memInst.slot.map Instruction.token
      ∧ s.next.memInst.slot.map Instruction.token
        = s.exInst.slot.map Instruction.token := by
  have calm := h.calm_iff.mpr sound
  obtain ⟨same, flight, _⟩ := h.newWB_eq moving sound
  have token := Instruction.token_of_control same
  constructor
  · rw [entersWB, flight, Instruction.slot]
    cases s.memInst.inFlight <;> simp [token]
  · have after := h.newMEM_token moving
    rw [next_memInst calm, Instruction.slot, Instruction.slot, h.newMEM_inFlight moving]
    cases s.exInst.inFlight <;> simp [after]

/-- The instructions ahead of the one that enters ID have retired after some cycles, in their
order and before any other. Witness: each of MEM and EX waits for at most one more stall.
-/
theorem FrontInv.older_retire (front : s.FrontInv) (l : s.LatchInv)
    (decoded : s.illegalDecoded = true)
    : ∃ bound, ∀ n ≥ bound,
        (∀ m < n + 1, (next^[m] s).memInst.memException = false)
          → (s.memInst.slot ++ s.exInst.slot ++ s.idInst.slot).map Instruction.token
            <+: (Runs.events next entersWB s (n + 1)).map Instruction.token := by
  obtain ⟨decodes, moving, _⟩ := l.illegalDecoded_clear decoded
  have active := (held_free.mp moving).1
  obtain ⟨k₁, ends₁, mem₁, ex₁, silent₁⟩ := l.inv_next.stall_passes
  obtain ⟨k₂, ends₂, mem₂, ex₂, silent₂⟩ :=
    ((l.inv_next.iterate k₁).inv_next).stall_passes
  refine ⟨k₁ + k₂ + 2, fun n late sound => ?_⟩
  have calm : s.wbMemException = false := l.calm_iff.mpr (sound 0 (by omega))
  have first := l.retires active (sound 0 (by omega))
  have second := (l.inv_next.iterate k₁).retires ends₁ (sound (k₁ + 1) (by omega))
  have third := ((l.inv_next.iterate k₁).inv_next.iterate k₂).retires ends₂ (by
    have at₂ := sound (k₂ + (1 + (k₁ + 1))) (by omega)
    rwa [Function.iterate_add_apply, Function.iterate_add_apply] at at₂)
  have issued : s.next.exInst.slot.map Instruction.token
      = s.idInst.slot.map Instruction.token := by
    obtain ⟨same, flight, _⟩ := l.newEX_issued moving (front.legal_ahead l decodes)
    rw [next_exInst calm, Instruction.slot, Instruction.slot, flight]
    cases s.idInst.inFlight <;> simp [Instruction.token_of_control same]
  have exactly : (Runs.events next entersWB s (1 + (k₁ + (1 + (k₂ + 1))))).map Instruction.token
      = (s.memInst.slot ++ s.exInst.slot ++ s.idInst.slot).map Instruction.token := by
    rw [Runs.events_add, Runs.events_one, Function.iterate_one, Runs.events_add, silent₁,
      Runs.events_add, Runs.events_one, Function.iterate_one, Runs.events_add, silent₂,
      Runs.events_one]
    simp only [List.map_append, List.nil_append]
    rw [first.1, second.1, third.1, mem₁, mem₂, second.2, first.2, ex₁, issued, List.append_assoc]
  rw [← exactly]
  exact (Runs.events_prefix entersWB s (by omega)).map Instruction.token

/-- In a run in which no trap meets a D-cache miss of odd length, an illegal instruction traps
cleanly as long as no load or store faults, and the older ones retire. Witness: the front end
stays consistent, so the streams of the stages join up.
-/
theorem illegal_traps_cleanly (past : CycleState Cache) (iCacheConfig dCacheConfig : CacheConfig)
    (image : MemoryStore) (s : CycleState Cache)
    (reach
      : Runs.ReachableUnder next (fun t => t.trapsOddly = false)
          (initSimulator past iCacheConfig dCacheConfig image) s)
    (decoded : s.illegalDecoded = true)
    : (∀ n,
        (∀ m < n + 1, (next^[m] s).trapsOddly = false)
          → (∀ m < n + 1, (next^[m] s).memInst.memException = false) → s.TrapsCleanly n)
      ∧ ∃ bound, ∀ n ≥ bound,
          (∀ m < n + 1, (next^[m] s).memInst.memException = false)
            → (s.memInst.slot ++ s.exInst.slot ++ s.idInst.slot).map Instruction.token
              <+: (Runs.events next entersWB s (n + 1)).map Instruction.token := by
  obtain ⟨l, front⟩ := frontInv_reachable reach
  refine ⟨fun n even sound => front.trapsCleanly l decoded even fun m earlier => ?_,
    front.older_retire l decoded⟩
  exact (l.iterate m).calm_iff.mpr (sound m earlier)

/-- `lw x1, 256(x0); addi x2, x0, 1`, an illegal word, and the handler `addi x3, x3, 1`. With 7
stall cycles for the load, the first instruction of the handler enters ID twice.
-/
theorem illegal_trap_repeats
    : ¬ ∀ (past : CycleState Cache) (iCacheConfig dCacheConfig : CacheConfig)
        (image : MemoryStore) (s : CycleState Cache),
        Runs.Reachable next (initSimulator past iCacheConfig dCacheConfig image) s
          → s.illegalDecoded = true
          → ∀ n, (∀ m < n + 1, (next^[m] s).memInst.memException = false)
            → s.TrapsCleanly n := by
  intro claim
  have clean := claim (.fresh (Cache.new testICache) (Cache.new testDCache)) testICache
    { testDCache with missLatency := 7 }
    (.load [0x10002083, 0x00100113, 0] [0x00118193, 0xfeedfeed]) _
    (Runs.reachable_iterate _ 8) (by decide +kernel) 10 (by decide +kernel)
  have handler := clean.handler
  revert handler
  decide +kernel

/-- With 8 stall cycles the same program traps cleanly. -/
theorem illegal_traps_cleanly_even
    : (next^[8] (boot testICache testDCache [0x10002083, 0x00100113, 0]
        [0x00118193, 0xfeedfeed])).TrapsCleanly 20 :=
  (illegal_traps_cleanly _ _ _ _ _ (Runs.reachableUnder_iterate (by decide +kernel))
    (by decide +kernel)).1 20 (by decide +kernel) (by decide +kernel)

end RiscvSim.CycleState
