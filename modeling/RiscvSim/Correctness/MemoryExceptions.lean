import RiscvSim.Pipeline.Operands

/-! Memory exceptions: what the cycle that takes one undoes of the younger instructions. The
squash empties every latch, but the load or store right behind has already accessed memory.
-/

namespace RiscvSim.CycleState

variable {κ : Type} {s : CycleState κ}

/-- An exception sends IF to the handler. -/
theorem LatchInv.nextPC_trap (h : s.LatchInv) (trap : s.wbMemException = true)
    : s.nextPC = exceptionHandler := by
  obtain ⟨active, fault⟩ := h.wbMemException_unstalled trap
  have unresolved : s.resolvesInID = false := by simp [resolvesInID, trap]
  unfold nextPC
  rw [unresolved]
  split
  case isTrue decoded =>
    refine h.inID_newID.trap ?_
    rw [h.illegalDecoded_eq] at decoded
    simp only [Bool.and_eq_true, Bool.not_eq_true'] at decoded
    exact decoded.2
  case isFalse =>
    rw [if_neg (by simp)]
    split
    case isTrue illegal =>
      simp only [illegalInID, Bool.and_eq_true, Bool.not_eq_true'] at illegal
      exact h.inID.trap illegal.2
    case isFalse => simp [nextPCAfterWB, active, h.memFaulted_eq, fault]

variable [CacheUnit κ]

theorem LatchInv.fetchPC_trap (h : s.LatchInv) (trap : s.wbMemException = true)
    : s.next.fetchPC = exceptionHandler := by
  have result : s.fetch = s.fetchThrough s.nextPC 0 .normal .normal := by simp [fetch, trap]
  have delivers := FrontInv.delivers_through s s.nextPC .normal .normal
  rw [← result, h.nextPC_trap trap] at delivers
  exact delivers.address

/-- The squashed latches of an exception. -/
theorem latches_trap (trap : s.wbMemException = true)
    : s.next.idInst = nop .squashed ∧ s.next.exInst = nop .squashed
      ∧ s.next.memInst = nop .squashed := by
  simp [next, trap]

-----------------------------------------------------------------------------------------
-- What it leaves of the access behind it
-----------------------------------------------------------------------------------------

/-- The cycle that takes a memory exception leaves no effect of a younger instruction. -/
structure TrapsPrecisely (s : CycleState Cache) : Prop where
  registers : s.next.simulator.regData = s.simulator.regData
  memory : s.next.simulator.memory = s.simulator.memory
  lines : s.next.dCache.sets = s.dCache.sets
  hits : s.next.dCache.hits = s.dCache.hits
  misses : s.next.dCache.misses = s.dCache.misses
  unstalled : s.next.dStallLeft = 0
  squashed
    : s.next.idInst = nop .squashed ∧ s.next.exInst = nop .squashed
      ∧ s.next.memInst = nop .squashed ∧ s.next.wbInst = nop .squashed
  redirected : s.next.fetchPC = exceptionHandler

/-- The instruction in EX is no load that can be read, and no store that changes a byte: a
store may fail, at its first byte or after bytes that hold its data already.
-/
def HarmlessBehind (s : CycleState κ) : Prop :=
  (s.exInst.readsMem = true
    → (s.simulator.memory.getMemValue (simAddrGen s.exInst).memAddress
        (accessSize s.exInst)).1 ≠ 0)
  ∧ (s.exInst.writesMem = true
    → (s.simulator.memory.setMemValue (simAddrGen s.exInst).memAddress s.storedData
        (accessSize s.exInst)).1 ≠ 0
      ∧ (s.simulator.memory.setMemValue (simAddrGen s.exInst).memAddress s.storedData
          (accessSize s.exInst)).2 = s.simulator.memory)

/-- Every access of a cache is counted. -/
theorem access_counts (cache : Cache) (address : U64) (operation : CacheOperation)
    : ¬ ((cache.access address operation).2.hits = cache.hits
        ∧ (cache.access address operation).2.misses = cache.misses) := by
  have grows (count : U64) : count + 1 ≠ count := by
    intro same
    simp at same
  rintro ⟨hits, misses⟩
  unfold Cache.access at hits misses
  dsimp only at hits misses
  split at hits
  · exact grows _ hits
  · rename_i missed
    simp only [missed] at misses
    exact grows _ misses

/-- A memory exception is taken precisely if and only if no access that takes effect is right
behind the faulting instruction. Witness: the squash undoes everything but that access.
-/
theorem traps_precisely_iff (past : CycleState Cache) (iCacheConfig dCacheConfig : CacheConfig)
    (image : MemoryStore) (s : CycleState Cache)
    (reach : Runs.Reachable next (initSimulator past iCacheConfig dCacheConfig image) s)
    (fault : s.memInst.memException = true) (moving : s.dStallActive = false)
    : s.TrapsPrecisely ↔ s.HarmlessBehind := by
  have h : s.LatchInv := latchInv_reachable reach
  have trap : s.wbMemException = true := by simp [h.wbMemException_eq, moving, fault]
  have accessed := h.accessesDCache_iff moving
  have registers : s.next.simulator.regData = s.simulator.regData := by
    rw [next_regData]
    simp [simAfterWB, h.memFaulted_eq, fault]
  have tick := dStallTick_inactive moving
  have memory (active : s.memActive = true)
      : s.next.simulator.memory = s.memAfterAccess.2.memory := by
    rw [next_memory]
    simp [simAfterMEM, active]
  constructor
  · intro precise
    have untouched : s.accessesDCache = false := by
      by_contra access
      simp only [Bool.not_eq_false] at access
      have accessed : s.next.dCache = (s.dCache.access s.memInput.memAddress
          (if s.memInput.writesMem then .write else .read)).2 := by
        simp only [next, dCacheNext, access, if_true]
        rfl
      exact access_counts s.dCache s.memInput.memAddress _
        ⟨accessed ▸ precise.hits, accessed ▸ precise.misses⟩
    refine ⟨(accessed.mp untouched).1, fun writes => ⟨(accessed.mp untouched).2 writes, ?_⟩⟩
    have busy := (h.inEX.kind.store writes).isNop
    rw [← (h.memAfterAccess_store writes).1, ← memory (by simp [h.memActive_eq, moving, busy])]
    exact precise.memory
  · intro harmless
    have untouched : s.accessesDCache = false :=
      accessed.mpr ⟨harmless.1, fun writes => (harmless.2 writes).1⟩
    obtain ⟨id, ex, mem⟩ := latches_trap trap
    exact {
      registers := registers
      memory := by
        cases active : s.memActive with
        | false =>
            rw [next_memory]
            simp [simAfterMEM, active, simAfterWB_memory]
        | true =>
            rw [memory active]
            cases writes : s.exInst.writesMem with
            | true =>
                rw [(h.memAfterAccess_store writes).1]
                exact (harmless.2 writes).2
            | false => rw [h.memAfterAccess_kept writes, simAfterWB_memory]
      lines := by simp [next, dCacheNext, untouched]
      hits := by simp [next, dCacheNext, untouched]
      misses := by simp [next, dCacheNext, untouched]
      unstalled := by simp [next, dStallLeftNext, untouched, tick]
      squashed := ⟨id, ex, mem, by simp [next, newWB, moving, h.memFaulted_eq, fault]⟩
      redirected := h.fetchPC_trap trap }

/-- `addi x2, x0, 5; lw x1, -4(x0); sw x2, 256(x0)`: the load faults, the store behind it has
written its word.
-/
theorem trap_leaves_store
    : ¬ ∀ (past : CycleState Cache) (iCacheConfig dCacheConfig : CacheConfig)
        (image : MemoryStore) (s : CycleState Cache),
        Runs.Reachable next (initSimulator past iCacheConfig dCacheConfig image) s
          → s.memInst.memException = true → s.dStallActive = false → s.TrapsPrecisely := by
  intro claim
  have precise := claim _ testICache testDCache
    (.load [0x00500113, 0xffc02083, 0x10202023, 0xfeedfeed]) _
    (Runs.reachable_iterate (initSimulator
      (.fresh (Cache.new testICache) (Cache.new testDCache)) _ _ _) 10)
    (by decide +kernel) (by decide +kernel)
  have byte := congrArg (fun memory => memory.memArr 256) precise.memory
  revert byte
  decide +kernel

/-- Behind a faulting load without a store, the exception is precise. -/
theorem traps_precisely_alone
    : (next^[10] (boot testICache testDCache
        [0x00500113, 0xffc02083, 0x00500113, 0xfeedfeed])).TrapsPrecisely :=
  (traps_precisely_iff _ _ _ _ _ (Runs.reachable_iterate _ 10) (by decide +kernel)
    (by decide +kernel)).mpr
    ⟨fun reads => absurd reads (by decide +kernel),
      fun writes => absurd writes (by decide +kernel)⟩

end RiscvSim.CycleState
