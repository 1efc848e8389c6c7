import RiscvSim.Pipeline.Lookups
import RiscvSim.Pipeline.Halting

/-! Runs on caches whose misses take no extra cycles: what a miss still costs. -/

namespace RiscvSim.CycleState

-----------------------------------------------------------------------------------------
-- The same machine on other caches
-----------------------------------------------------------------------------------------

/-- The state with other caches. -/
def withCaches {κ : Type} (s : CycleState κ) (iCache dCache : κ) : CycleState κ :=
  { s with iCache := iCache, dCache := dCache }

section Lookup

variable {κ : Type} [CacheUnit κ] (s : CycleState κ)

/-- Other caches change what IF does only through a lookup. -/
theorem fetch_withCaches (iCache dCache : κ)
    : (s.fetchTarget = none
        ∧ ∃ used, (s.withCaches iCache dCache).fetch = { s.fetch with iCache := used })
      ∨ ∃ target iStallLeft onMiss onHit,
          s.fetchTarget = some target
          ∧ s.fetch = s.fetchThrough target iStallLeft onMiss onHit
          ∧ (s.withCaches iCache dCache).fetch
            = (s.withCaches iCache dCache).fetchThrough target iStallLeft onMiss onHit := by
  have trapSame : (s.withCaches iCache dCache).wbMemException = s.wbMemException := rfl
  have illegalSame : (s.withCaches iCache dCache).idIllegalException = s.idIllegalException := rfl
  have takenSame : (s.withCaches iCache dCache).branchTaken = s.branchTaken := rfl
  have frozenSame : (s.withCaches iCache dCache).dStallActive = s.dStallActive := rfl
  have hazardSame : (s.withCaches iCache dCache).hazardStall = s.hazardStall := rfl
  have dataSame : (s.withCaches iCache dCache).branchDataStall = s.branchDataStall := rfl
  have waitsSame : (s.withCaches iCache dCache).iStallActive = s.iStallActive := rfl
  have finishedSame : (s.withCaches iCache dCache).justFinishedIStall = s.justFinishedIStall := rfl
  have heldSame : (s.withCaches iCache dCache).ifInst = s.ifInst := rfl
  unfold fetch fetchTarget
  rw [trapSame, illegalSame, takenSame, frozenSame, hazardSame, dataSame, waitsSame, finishedSame,
    heldSame]
  cases trap : s.wbMemException with
  | true => exact .inr ⟨_, _, _, _, rfl, rfl, rfl⟩
  | false =>
  cases illegal : s.idIllegalException with
  | true => exact .inl ⟨rfl, _, rfl⟩
  | false =>
  cases taken : s.branchTaken with
  | true => exact .inr ⟨_, _, _, _, rfl, rfl, rfl⟩
  | false =>
  cases frozen : s.dStallActive with
  | true =>
      refine .inl ⟨rfl, iCache, ?_⟩
      simp only [if_true, if_false, Bool.false_eq_true]
      split_ifs <;> rfl
  | false =>
  cases hazard : s.hazardStall with
  | true =>
      refine .inl ⟨rfl, iCache, ?_⟩
      simp only [if_true, if_false, Bool.false_eq_true]
      split_ifs <;> rfl
  | false =>
  cases waits : s.iStallActive with
  | true => exact .inl ⟨rfl, iCache, rfl⟩
  | false =>
  cases finished : s.justFinishedIStall with
  | true => exact .inl ⟨rfl, iCache, rfl⟩
  | false => exact .inr ⟨_, _, _, _, rfl, rfl, rfl⟩

end Lookup

-----------------------------------------------------------------------------------------
-- States without penalties
-----------------------------------------------------------------------------------------

/-- No miss costs extra cycles, and no stall is pending. -/
structure Unpenalized (s : CycleState Cache) : Prop where
  iLatency : s.iCache.config.missLatency = 0
  dLatency : s.dCache.config.missLatency = 0
  iIdle : s.iStallLeft = 0
  dIdle : s.dStallLeft = 0

theorem unpenalized_init {iCache dCache : CacheConfig} (iLatency : iCache.missLatency = 0)
    (dLatency : dCache.missLatency = 0) (past : CycleState Cache) (mem : MemoryStore)
    : (initSimulator past iCache dCache mem).Unpenalized :=
  ⟨iLatency, dLatency, rfl, rfl⟩

namespace Unpenalized

variable {s : CycleState Cache}

/-- A D-cache miss starts no stall. -/
theorem dStallLeftNext (h : s.Unpenalized) : s.dStallLeftNext = 0 := by
  have tick : s.dStallTick = 0 := by simp [dStallTick, h.dIdle]
  rw [CycleState.dStallLeftNext, dCacheAccess, access_missLatency, h.dLatency, tick, ite_self]

/-- An I-cache miss starts no stall. -/
theorem fetch_iStallLeft (h : s.Unpenalized) : s.fetch.iStallLeft = 0 := by
  rcases next_iStallLeft s with fallen | ⟨_, missed⟩
  · rw [h.iIdle] at fallen
    exact BitVec.eq_of_toNat_eq (Nat.le_zero.mp fallen)
  · exact missed.trans h.iLatency

theorem next (h : s.Unpenalized) : s.next.Unpenalized where
  iLatency := by
    show s.fetch.iCache.config.missLatency = 0
    rw [fetch_iCache_config, h.iLatency]
  dLatency := by
    show CacheUnit.missLatency s.dCacheNext = 0
    unfold dCacheNext dCacheAccess
    split
    · exact (access_missLatency ..).trans h.dLatency
    · exact h.dLatency
  iIdle := h.fetch_iStallLeft
  dIdle := h.dStallLeftNext

end Unpenalized

-----------------------------------------------------------------------------------------
-- Two runs
-----------------------------------------------------------------------------------------

section Pairs

variable {s : CycleState Cache} {iCache dCache : Cache}

/-- If the lookups agree, IF does the same on other caches. -/
theorem fetch_same (h : s.Unpenalized) (other : (s.withCaches iCache dCache).Unpenalized)
    (agree : (s.withCaches iCache dCache).fetchHits = s.fetchHits)
    : ∃ used, (s.withCaches iCache dCache).fetch = { s.fetch with iCache := used } := by
  rcases s.fetch_withCaches iCache dCache with ⟨_, same⟩
    | ⟨target, iStallLeft, onMiss, onHit, lookup, left, right⟩
  · exact same
  · have lookupSame : (s.withCaches iCache dCache).fetchTarget = s.fetchTarget := rfl
    rw [fetchHits, fetchHits, lookupSame, lookup] at agree
    have hits : (CacheUnit.access iCache target .read).1
        = (CacheUnit.access s.iCache target .read).1 := Option.some.inj agree
    refine ⟨(CacheUnit.access iCache target .read).2, ?_⟩
    rw [left, right]
    cases hit : (CacheUnit.access s.iCache target .read).1 with
    | true =>
        rw [s.fetchThrough_hit _ _ _ hit,
          (s.withCaches iCache dCache).fetchThrough_hit _ _ _ (hits.trans hit)]
        rfl
    | false =>
        rw [s.fetchThrough_miss _ _ _ hit,
          (s.withCaches iCache dCache).fetchThrough_miss _ _ _ (hits.trans hit),
          access_missLatency, access_missLatency, h.iLatency, other.iLatency]
        rfl

/-- If the lookups differ, PC moves on in one of the two only. -/
theorem fetch_pc_ne (differ : (s.withCaches iCache dCache).fetchHits ≠ s.fetchHits)
    : (s.withCaches iCache dCache).fetch.pc ≠ s.fetch.pc := by
  have lookupSame : (s.withCaches iCache dCache).fetchTarget = s.fetchTarget := rfl
  rcases s.fetch_withCaches iCache dCache with ⟨none, _⟩
    | ⟨target, iStallLeft, onMiss, onHit, lookup, left, right⟩
  · rw [fetchHits, fetchHits, lookupSame, none] at differ
    exact absurd rfl differ
  · rw [fetchHits, fetchHits, lookupSame, lookup] at differ
    have hits : (CacheUnit.access iCache target .read).1
        ≠ (CacheUnit.access s.iCache target .read).1 := fun same => differ (congrArg some same)
    have moved : target + 4 ≠ target := by bv_omega
    rw [left, right]
    cases hit : (CacheUnit.access s.iCache target .read).1 with
    | true =>
        have miss : (CacheUnit.access iCache target .read).1 = false := by
          simpa [hit] using hits
        rw [s.fetchThrough_hit _ _ _ hit, (s.withCaches iCache dCache).fetchThrough_miss _ _ _ miss]
        exact moved.symm
    | false =>
        have other : (CacheUnit.access iCache target .read).1 = true := by
          simpa [hit] using hits
        rw [s.fetchThrough_miss _ _ _ hit,
          (s.withCaches iCache dCache).fetchThrough_hit _ _ _ other]
        exact moved

/-- If the lookups agree, the next states are the same but for their caches. -/
theorem next_withCaches (h : s.Unpenalized) (other : (s.withCaches iCache dCache).Unpenalized)
    (agree : (s.withCaches iCache dCache).fetchHits = s.fetchHits)
    : ∃ iNext dNext, (s.withCaches iCache dCache).next = s.next.withCaches iNext dNext := by
  obtain ⟨used, same⟩ := fetch_same h other agree
  refine ⟨used, (s.withCaches iCache dCache).dCacheNext, ?_⟩
  have stall : (s.withCaches iCache dCache).dStallLeftNext = s.dStallLeftNext :=
    other.dStallLeftNext.trans h.dStallLeftNext.symm
  unfold CycleState.next
  rw [same, stall]
  rfl

end Pairs

-----------------------------------------------------------------------------------------
-- Whole runs
-----------------------------------------------------------------------------------------

/-- What a call of `runCycles` shows: the pipeline registers, PC, the cycles counted so far
and whether HALT was reached.
-/
def visible (outcome : CycleState Cache × Status) : PipelineInfo × U64 × U64 × Status :=
  (outcome.1.toPipelineInfo, outcome.1.pc, outcome.1.cycleCount, outcome.2)

/-- The state after a call that does not pass a HALT. -/
theorem runCycles_of_quiet {n : ℕ} {s : CycleState Cache}
    (quiet : ∀ j < n, (next^[j] s).halts = false)
    : (runCycles (n + 1) s).1 = next^[n + 1] s := by
  induction n generalizing s with
  | zero =>
      rw [runCycles]
      split <;> rfl
  | succ n ih =>
      have running := quiet 0 (by omega)
      rw [runCycles, if_neg (by simpa using running)]
      exact ih fun j earlier => quiet (j + 1) (by omega)

/-- Two runs on the same machine, both without penalties. -/
structure Paired (s t : CycleState Cache) : Prop where
  first : s.Unpenalized
  second : t.Unpenalized
  same : t = s.withCaches t.iCache t.dCache

theorem Paired.halts {s t : CycleState Cache} (h : Paired s t) : t.halts = s.halts := by
  rw [h.same]
  rfl

/-- Lookups that agree keep the runs paired. -/
theorem Paired.next {s t : CycleState Cache} (h : Paired s t)
    (agree : s.fetchHits = t.fetchHits) : Paired s.next t.next := by
  obtain ⟨first, second, same⟩ := h
  generalize t.iCache = iCache at same
  generalize t.dCache = dCache at same
  subst same
  obtain ⟨iNext, dNext, step⟩ := next_withCaches first second agree.symm
  refine ⟨first.next, second.next, ?_⟩
  rw [step]
  rfl

/-- Lookups that differ show in PC. -/
theorem Paired.pc_ne {s t : CycleState Cache} (h : Paired s t)
    (differ : s.fetchHits ≠ t.fetchHits) : s.next.pc ≠ t.next.pc := by
  obtain ⟨_, _, same⟩ := h
  generalize t.iCache = iCache at same
  generalize t.dCache = dCache at same
  subst same
  exact (fetch_pc_ne differ.symm).symm

/-- Runs whose lookups agree show the same. -/
theorem Paired.visible_eq {s t : CycleState Cache} (h : Paired s t)
    (agree
      : ∀ k, (∀ j < k, (CycleState.next^[j] s).halts = false)
        → (CycleState.next^[k] s).fetchHits = (CycleState.next^[k] t).fetchHits)
    (cycles : ℕ) : visible (runCycles cycles s) = visible (runCycles cycles t) := by
  induction cycles generalizing s t with
  | zero =>
      rw [h.same]
      rfl
  | succ cycles ih =>
      have after := h.next (agree 0 (by simp))
      rw [runCycles, runCycles, h.halts]
      cases halts : s.halts with
      | true =>
          rw [if_pos rfl, if_pos rfl, after.same]
          rfl
      | false =>
          rw [if_neg (by decide), if_neg (by decide)]
          apply ih after
          intro k quiet
          apply agree (k + 1)
          intro j earlier
          cases j with
          | zero => exact halts
          | succ j => exact quiet j (by omega)

/-- Runs that show the same have lookups that agree, and stay paired. -/
theorem Paired.iterate {s t : CycleState Cache} (h : Paired s t)
    (same : ∀ cycles, visible (runCycles cycles s) = visible (runCycles cycles t)) (k : ℕ)
    (quiet : ∀ j < k, (CycleState.next^[j] s).halts = false)
    : Paired (CycleState.next^[k] s) (CycleState.next^[k] t)
      ∧ (CycleState.next^[k] s).fetchHits = (CycleState.next^[k] t).fetchHits := by
  induction k using Nat.strong_induction_on with
  | _ k ih =>
      have earlier (j : ℕ) (before : j < k)
          : Paired (CycleState.next^[j] s) (CycleState.next^[j] t)
            ∧ (CycleState.next^[j] s).fetchHits = (CycleState.next^[j] t).fetchHits :=
        ih j before fun i less => quiet i (by omega)
      have now : Paired (CycleState.next^[k] s) (CycleState.next^[k] t) := by
        cases k with
        | zero => exact h
        | succ m =>
            obtain ⟨paired, agree⟩ := earlier m (by omega)
            rw [Function.iterate_succ_apply', Function.iterate_succ_apply']
            exact paired.next agree
      refine ⟨now, ?_⟩
      by_contra differ
      have quiet' : ∀ j < k, (CycleState.next^[j] t).halts = false := by
        intro j before
        rw [(earlier j before).1.halts]
        exact quiet j before
      have pcs := congrArg (·.2.1) (same (k + 1))
      simp only [visible, runCycles_of_quiet quiet, runCycles_of_quiet quiet',
        Function.iterate_succ_apply'] at pcs
      exact now.pc_ne differ pcs

/-- Runs on caches without miss latencies show the same if and only if their fetches hit and
miss together. Witness: the runs differ in their caches only, until PC moves on in one of them.
-/
theorem zeroPenalty_iff {iCache dCache iCache' dCache' : CacheConfig} (past : CycleState Cache)
    (mem : MemoryStore) (iLatency : iCache.missLatency = 0) (dLatency : dCache.missLatency = 0)
    (iLatency' : iCache'.missLatency = 0) (dLatency' : dCache'.missLatency = 0)
    : (∀ cycles,
        visible (runCycles cycles (initSimulator past iCache dCache mem))
          = visible (runCycles cycles (initSimulator past iCache' dCache' mem)))
      ↔ ∀ k,
          (∀ j < k, (CycleState.next^[j] (initSimulator past iCache dCache mem)).halts = false)
          → (CycleState.next^[k] (initSimulator past iCache dCache mem)).fetchHits
            = (CycleState.next^[k] (initSimulator past iCache' dCache' mem)).fetchHits := by
  have paired : Paired (initSimulator past iCache dCache mem)
      (initSimulator past iCache' dCache' mem) :=
    ⟨unpenalized_init iLatency dLatency past mem, unpenalized_init iLatency' dLatency' past mem,
      rfl⟩
  constructor
  · intro same k quiet
    exact (paired.iterate same k quiet).2
  · intro agree
    exact paired.visible_eq agree

/-- A program of HALT alone misses once and hits then, in a set of one way as of two: the runs on
the two I-caches show the same in every cycle.
-/
theorem zeroPenalty_two_ways
    : (fun cycles =>
        visible (runCycles cycles (initSimulator
            (.fresh (.new ⟨64, 16, 1, 0⟩) (.new ⟨64, 16, 1, 0⟩)) ⟨64, 16, 1, 0⟩ ⟨64, 16, 1, 0⟩
            (.load [0xfeedfeed]))))
      = fun cycles =>
          visible (runCycles cycles (initSimulator
            (.fresh (.new ⟨64, 16, 1, 0⟩) (.new ⟨64, 16, 1, 0⟩)) ⟨64, 16, 2, 0⟩ ⟨64, 16, 1, 0⟩
            (.load [0xfeedfeed]))) := by
  refine funext ((zeroPenalty_iff (.fresh (.new ⟨64, 16, 1, 0⟩) (.new ⟨64, 16, 1, 0⟩))
    (.load [0xfeedfeed]) rfl rfl rfl rfl).mpr fun k quiet => ?_)
  have ends : (CycleState.next^[5] (initSimulator
      (.fresh (.new ⟨64, 16, 1, 0⟩) (.new ⟨64, 16, 1, 0⟩)) ⟨64, 16, 1, 0⟩ ⟨64, 16, 1, 0⟩
      (.load [0xfeedfeed]))).halts = true := by
    decide +kernel
  have short : k < 6 := by
    by_contra long
    exact Bool.false_ne_true ((quiet 5 (by omega)).symm.trans ends)
  have together : ∀ k < 6, (CycleState.next^[k] (initSimulator
        (.fresh (.new ⟨64, 16, 1, 0⟩) (.new ⟨64, 16, 1, 0⟩)) ⟨64, 16, 1, 0⟩ ⟨64, 16, 1, 0⟩
        (.load [0xfeedfeed]))).fetchHits
      = (CycleState.next^[k] (initSimulator
        (.fresh (.new ⟨64, 16, 1, 0⟩) (.new ⟨64, 16, 1, 0⟩)) ⟨64, 16, 2, 0⟩ ⟨64, 16, 1, 0⟩
        (.load [0xfeedfeed]))).fetchHits := by
    decide +kernel
  exact together k short

/-- Blocks of 4 and of 16 bytes: the second word of the program misses in one run only, and
after three cycles PC is 4 there and 8 in the other.
-/
theorem zeroPenalty_apart
    : ¬ ∀ (past : CycleState Cache) (mem : MemoryStore)
          (iCache dCache iCache' dCache' : CacheConfig),
          iCache.PowerOfTwo → dCache.PowerOfTwo → iCache'.PowerOfTwo → dCache'.PowerOfTwo
          → iCache.missLatency = 0 → dCache.missLatency = 0
          → iCache'.missLatency = 0 → dCache'.missLatency = 0
          → ∀ cycles,
              visible (runCycles cycles (initSimulator past iCache dCache mem))
              = visible (runCycles cycles (initSimulator past iCache' dCache' mem)) := by
  intro same
  have small : CacheConfig.PowerOfTwo ⟨64, 4, 1, 0⟩ :=
    ⟨4, 2, 0, by decide, by decide, by decide, by decide⟩
  have large : CacheConfig.PowerOfTwo ⟨64, 16, 1, 0⟩ :=
    ⟨2, 4, 0, by decide, by decide, by decide, by decide⟩
  have three := same (.fresh (.new ⟨64, 16, 1, 0⟩) (.new ⟨64, 16, 1, 0⟩))
    (.load [0x13, 0x13, 0xfeedfeed]) ⟨64, 4, 1, 0⟩ ⟨64, 16, 1, 0⟩ ⟨64, 16, 1, 0⟩ ⟨64, 16, 1, 0⟩
    small large large large rfl rfl rfl rfl 3
  have pcs := congrArg (·.2.1) three
  exact absurd pcs (by decide)

end RiscvSim.CycleState
