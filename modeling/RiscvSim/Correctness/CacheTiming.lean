import RiscvSim.Correctness.SequentialExecution
import RiscvSim.Instructions.MemoryBytes
import RiscvSim.Pipeline.CacheLines

/-! Caches affect timing only, as long as every operand is forwarded: two runs of one image
under different caches both follow its sequential execution and end with its registers.
-/

namespace RiscvSim

namespace MemoryStore

variable {mem : MemoryStore}

/-- The reading loop depends only on the bytes it goes over. -/
theorem getBytes_congr {other : MemoryStore} {relativeAddr : U64} (count i : ℕ) (value : U64)
    (same
      : ∀ j, i ≤ j → j < i + count
        → other.at? (relativeAddr + BitVec.ofNat 64 j)
          = mem.at? (relativeAddr + BitVec.ofNat 64 j))
    : other.getBytes relativeAddr value i count = mem.getBytes relativeAddr value i count := by
  induction count generalizing i value with
  | zero => rfl
  | succ count ih =>
      unfold getBytes
      rw [same i le_rfl (by omega)]
      split
      · rfl
      · exact ih (i + 1) _ fun j above below => same j (by omega) (by omega)

/-- A store that writes no byte of a word leaves the word as it is. -/
theorem setMemValue_word {address value pc : U64} {size : MemEntrySize}
    (apart
      : ∀ i < size.bytes, ∀ j < 4,
          address + BitVec.ofNat 64 i ≠ pc + BitVec.ofNat 64 j)
    : (mem.setMemValue address value size).2.word pc = mem.word pc := by
  have written (j : ℕ) (inWord : j < 4)
      : (mem.setMemValue address value size).2.at? (pc - mem.startAddr + BitVec.ofNat 64 j)
          = mem.at? (pc - mem.startAddr + BitVec.ofNat 64 j) :=
    setBytes_at? size.bytes 0 fun i _ below same => by
      refine apart i (by omega) j inWord ?_
      bv_omega
  have start : (mem.setMemValue address value size).2.startAddr = mem.startAddr :=
    (setBytes_bounds size.bytes 0).1
  have bytes
      : (mem.setMemValue address value size).2.getBytes (pc - mem.startAddr) 0 0 4
        = mem.getBytes (pc - mem.startAddr) 0 0 4 :=
    getBytes_congr 4 0 0 fun j _ below => written j (by omega)
  have read : (mem.setMemValue address value size).2.getMemValue pc .wordSize
      = mem.getMemValue pc .wordSize := by
    simp only [getMemValue, getOrSetValue, start, MemEntrySize.bytes, bytes, if_true]
    rfl
  simp only [word, simFetch, read]

end MemoryStore

namespace CycleState

section Runs

variable {κ : Type}

/-- MEM writes no byte of the word at `pc` in this cycle. -/
def sparesWord (s : CycleState κ) (pc : U64) : Prop :=
  s.memActive = true → s.exInst.writesMem = true
    → ∀ i < (accessSize s.exInst).bytes, ∀ j < 4,
        (simAddrGen s.exInst).memAddress + BitVec.ofNat 64 i ≠ pc + BitVec.ofNat 64 j

variable [CacheUnit κ]

/-- The run from `start` halts in cycle `n`. No instruction up to HALT is illegal or faults,
and no store writes into a word that is decoded.
-/
structure HaltsCleanly (start : CycleState κ) (n : ℕ) : Prop where
  halts : HaltsAt start n
  sound : ∀ m < n, (next^[m] start).wbMemException = false
  legal
    : ∀ m < n, (next^[m] start).haltAhead = false
        → (next^[m] start).idInst.isLegal = true
  apart
    : ∀ m < n, ∀ k < n, (next^[k] start).decodes = true
        → (next^[m] start).sparesWord (next^[k] start).ifInst.pc

/-- Without stores no word is written. -/
theorem HaltsCleanly.of_noStore {start : CycleState κ} {n : ℕ}
    (noStore : ∀ m < n, (next^[m] start).exInst.writesMem = false) (halts : HaltsAt start n)
    (sound : ∀ m < n, (next^[m] start).wbMemException = false)
    (legal
      : ∀ m < n, (next^[m] start).haltAhead = false → (next^[m] start).idInst.isLegal = true)
    : HaltsCleanly start n where
  halts := halts
  sound := sound
  legal := legal
  apart := fun m earlier _ _ _ _ store =>
    absurd store (Bool.eq_false_iff.mp (noStore m earlier))

/-- In each cycle of the run, if HALT is not past ID, the instruction in ID loses no operand
and the store in EX is forwarded the right producer.
-/
def Forwards (start : CycleState κ) (n : ℕ) : Prop :=
  ∀ m < n, (next^[m] start).haltAhead = false
    → (next^[m] start).losesOperands .all = false
      ∧ (next^[m] start).misforwardsStore = false

variable {s start : CycleState κ}

theorem LatchInv.word_spared (l : s.LatchInv) {pc : U64} (spares : s.sparesWord pc)
    : s.next.simulator.memory.word pc = s.simulator.memory.word pc := by
  rw [next_memory, simAfterMEM]
  cases active : s.memActive with
  | false => rw [if_neg (by simp), simAfterWB_memory]
  | true =>
      rw [if_pos rfl]
      cases writes : s.exInst.writesMem with
      | true =>
          rw [(l.memAfterAccess_store writes).1]
          exact MemoryStore.setMemValue_word (spares active writes)
      | false => rw [l.memAfterAccess_kept writes, simAfterWB_memory]

/-- No decoded word changes up to HALT. -/
theorem HaltsCleanly.word_kept (h : start.LatchInv) {n : ℕ} (clean : HaltsCleanly start n)
    {k m : ℕ} (before : k < n) (decodes : (next^[k] start).decodes = true) (bound : m ≤ n)
    : (next^[m] start).simulator.memory.word (next^[k] start).ifInst.pc
      = start.simulator.memory.word (next^[k] start).ifInst.pc := by
  induction m with
  | zero => rfl
  | succ m ih =>
      rw [Function.iterate_succ_apply', (h.iterate m).word_spared
        (clean.apart m (by omega) k before decodes), ih (by omega)]

/-- A clean run that forwards every operand follows sequential execution of the image. -/
theorem HaltsCleanly.proceeds {past : CycleState κ} {iCache dCache : κ} {image : MemoryStore}
    {n : ℕ} (clean : HaltsCleanly (initCycle past iCache dCache image) n)
    (forwards : Forwards (initCycle past iCache dCache image) n)
    : ∀ m < n, (next^[m] (initCycle past iCache dCache image)).Proceeds image fun pc =>
        ∃ k < n, (next^[k] (initCycle past iCache dCache image)).decodes = true
          ∧ (next^[k] (initCycle past iCache dCache image)).ifInst.pc = pc := by
  have latches := latchInv_initCycle past iCache dCache image
  intro m earlier
  have here : next (next^[m] (initCycle past iCache dCache image))
      = next^[m + 1] (initCycle past iCache dCache image) :=
    (Function.iterate_succ_apply' ..).symm
  have l := latches.iterate (m + 1)
  exact {
    running := clean.halts.first m earlier
    calm := clean.sound m earlier
    sound := by
      rw [here]
      rcases Nat.lt_or_ge (m + 1) n with before | last
      · exact l.calm_iff.mp (clean.sound _ before)
      · have final : m + 1 = n := by omega
        rw [final] at l ⊢
        exact (l.halts_mem clean.halts.reached).2.2.2
    legal := by
      rw [here]
      rcases Nat.lt_or_ge (m + 1) n with before | last
      · exact clean.legal _ before
      · have final : m + 1 = n := by omega
        rw [final] at l ⊢
        intro ahead
        simp [haltAhead, (l.halts_mem clean.halts.reached).2.1] at ahead
    keeps := fun ahead => (forwards m earlier ahead).1
    forwards := fun ahead => (forwards m earlier ahead).2
    decoded := fun decodes => ⟨m, earlier, decodes, rfl⟩
    memory := by
      rintro _ ⟨k, before, decodes, rfl⟩
      rw [here, clean.word_kept latches before decodes (by omega)]
      rfl }

/-- Such a run ends at the first HALT of sequential execution, with its registers. -/
theorem HaltsCleanly.final {past : CycleState κ} {iCache dCache : κ} {image : MemoryStore}
    {n : ℕ} (clean : HaltsCleanly (initCycle past iCache dCache image) n)
    (forwards : Forwards (initCycle past iCache dCache image) n)
    : ∃ N, ((FunctState.path image N).decodedFrom image).isHalt = true
        ∧ (∀ k < N, ((FunctState.path image k).decodedFrom image).isHalt = false)
        ∧ ∀ r, r ≠ 0 →
            (next^[n + 1] (initCycle past iCache dCache image)).simulator.regData r
            = (FunctState.path image N).simulator.regData r := by
  let code (pc : U64) : Prop :=
    ∃ k < n, (next^[k] (initCycle past iCache dCache image)).decodes = true
      ∧ (next^[k] (initCycle past iCache dCache image)).ifInst.pc = pc
  have base : (initCycle past iCache dCache image).Follows image code 0 :=
    follows_initCycle past iCache dCache
  have proceeds := clean.proceeds forwards
  obtain ⟨halt, registers⟩ := halted base proceeds clean.halts.reached
  exact ⟨_, halt, retired_running base proceeds, registers⟩

end Runs

-----------------------------------------------------------------------------------------
-- Two runs
-----------------------------------------------------------------------------------------

/-- Two clean runs of one image that forward every operand end with the same registers,
whatever their caches. Witness: both end at the first HALT of sequential execution.
-/
theorem caches_affect_timing_only (past₁ past₂ : CycleState Cache)
    (iCacheConfig₁ dCacheConfig₁ iCacheConfig₂ dCacheConfig₂ : CacheConfig)
    (image : MemoryStore) (n₁ n₂ : ℕ)
    (clean₁ : HaltsCleanly (initSimulator past₁ iCacheConfig₁ dCacheConfig₁ image) n₁)
    (clean₂ : HaltsCleanly (initSimulator past₂ iCacheConfig₂ dCacheConfig₂ image) n₂)
    (forwards₁ : Forwards (initSimulator past₁ iCacheConfig₁ dCacheConfig₁ image) n₁)
    (forwards₂ : Forwards (initSimulator past₂ iCacheConfig₂ dCacheConfig₂ image) n₂)
    : ∀ r, r ≠ 0 →
        (next^[n₁ + 1] (initSimulator past₁ iCacheConfig₁ dCacheConfig₁
          image)).simulator.regData r
        = (next^[n₂ + 1] (initSimulator past₂ iCacheConfig₂ dCacheConfig₂
          image)).simulator.regData r := by
  obtain ⟨N₁, halt₁, running₁, final₁⟩ := clean₁.final forwards₁
  obtain ⟨N₂, halt₂, running₂, final₂⟩ := clean₂.final forwards₂
  have same : N₁ = N₂ := by
    rcases Nat.lt_trichotomy N₁ N₂ with before | same | behind
    · simp [running₂ N₁ before] at halt₁
    · exact same
    · simp [running₁ N₂ behind] at halt₂
  intro r nonzero
  exact (final₁ r nonzero).trans (same ▸ (final₂ r nonzero).symm)

/-- `addi x1, x0, 5; lw x2, 256(x0); add x3, x1, x2`: a D-cache miss of eight cycles loses the
x1 of `add`, a miss that costs nothing does not.
-/
theorem caches_affect_registers
    : ¬ ∀ (past₁ past₂ : CycleState Cache)
        (iCacheConfig₁ dCacheConfig₁ iCacheConfig₂ dCacheConfig₂ : CacheConfig)
        (image : MemoryStore) (n₁ n₂ : ℕ),
        iCacheConfig₁.PowerOfTwo → dCacheConfig₁.PowerOfTwo
          → iCacheConfig₂.PowerOfTwo → dCacheConfig₂.PowerOfTwo
          → HaltsCleanly (initSimulator past₁ iCacheConfig₁ dCacheConfig₁ image) n₁
          → HaltsCleanly (initSimulator past₂ iCacheConfig₂ dCacheConfig₂ image) n₂
          → ∀ r, r ≠ 0 →
              (next^[n₁ + 1] (initSimulator past₁ iCacheConfig₁ dCacheConfig₁
                image)).simulator.regData r
              = (next^[n₂ + 1] (initSimulator past₂ iCacheConfig₂ dCacheConfig₂
                image)).simulator.regData r := by
  intro claim
  let fresh : CycleState Cache := .fresh (Cache.new testICache) (Cache.new testDCache)
  let image := MemoryStore.load [0x00500093, 0x10002103, 0x002081b3, 0xfeedfeed]
  let immediate : CacheConfig := { testDCache with missLatency := 0 }
  have noStore₁ : ∀ m < 21,
      (next^[m] (initSimulator fresh testICache testDCache image)).exInst.writesMem = false := by
    decide +kernel
  have noStore₂ : ∀ m < 13,
      (next^[m] (initSimulator fresh testICache immediate image)).exInst.writesMem = false := by
    decide +kernel
  have iGeometry : testICache.PowerOfTwo := ⟨6, 4, 1, by decide⟩
  have dGeometry : testDCache.PowerOfTwo := ⟨6, 4, 2, by decide⟩
  have same := claim fresh fresh testICache testDCache testICache immediate image 21 13
    iGeometry dGeometry iGeometry dGeometry
    { halts := ⟨by decide +kernel, by decide +kernel⟩
      sound := by decide +kernel
      legal := by decide +kernel
      apart := fun m earlier _ _ _ _ store => by simp [noStore₁ m earlier] at store }
    { halts := ⟨by decide +kernel, by decide +kernel⟩
      sound := by decide +kernel
      legal := by decide +kernel
      apart := fun m earlier _ _ _ _ store => by simp [noStore₂ m earlier] at store }
    3 (by decide)
  revert same
  decide +kernel

/-- With three NOPs behind `addi`, the two runs agree. -/
theorem caches_affect_timing_only_apart
    : (next^[29 + 1] (initSimulator (.fresh (Cache.new testICache) (Cache.new testDCache))
        testICache testDCache
        (.load [0x00500093, 0x13, 0x13, 0x13, 0x10002103, 0x002081b3,
          0xfeedfeed]))).simulator.regData 3
      = (next^[21 + 1] (initSimulator (.fresh (Cache.new testICache) (Cache.new testDCache))
          testICache { testDCache with missLatency := 0 }
          (.load [0x00500093, 0x13, 0x13, 0x13, 0x10002103, 0x002081b3,
            0xfeedfeed]))).simulator.regData 3 := by
  refine caches_affect_timing_only _ _ _ _ _ _ _ 29 21 ?_ ?_ ?_ ?_ 3 (by decide)
  · exact .of_noStore (by decide +kernel) ⟨by decide +kernel, by decide +kernel⟩
      (by decide +kernel) (by decide +kernel)
  · exact .of_noStore (by decide +kernel) ⟨by decide +kernel, by decide +kernel⟩
      (by decide +kernel) (by decide +kernel)
  · unfold Forwards
    decide +kernel
  · unfold Forwards
    decide +kernel

end CycleState
end RiscvSim
