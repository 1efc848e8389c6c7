import RiscvSim.Correctness.CycleAccounting
import RiscvSim.Correctness.Scheduling

/-! The pipeline never hangs: whatever the program and the state it has reached, some instruction
leaves it within a number of cycles that only depends on the miss latencies.
-/

namespace RiscvSim.CycleState

section Signals

/-- An instruction leaves the pipeline: it enters WB, or it raises its memory exception there, or
it is illegal and does not get past ID.
-/
def departs {κ : Type} (s : CycleState κ) : Bool :=
  s.entersWB.isSome || s.wbMemException
  || (!s.held && s.idInst.inFlight && !s.idInst.isLegal)

variable (s : CycleState Cache)

def iLatency : ℕ := s.iCache.config.missLatency.toNat

def dLatency : ℕ := s.dCache.config.missLatency.toNat

/-- A bound on the cycles until IF holds a word that ID may take. A miss that has been waited out
in another stage's shadow is looked up again.
-/
def fillWait : ℕ :=
  if !s.iStallActive && !s.ifInst.isNop then 0
  else s.iStallLeft.toNat + if (s.iCache.access s.pc .read).1 then 1 else s.iLatency + 2

/-- A bound on the cycles until ID takes the next word: a pending squash costs one more lookup. -/
def decodeWait : ℕ := s.fillWait + if s.squashNextIF then s.iLatency + 2 else 0

/-- A bound on the cycles until an instruction leaves the pipeline. -/
def departureWait : ℕ :=
  s.dStallLeft.toNat
  + if s.memInst.inFlight then 0
    else if s.exInst.inFlight then s.dLatency + 1
    else if s.idInst.inFlight then s.dLatency + 2
    else s.dLatency + 3 + s.decodeWait

end Signals

-----------------------------------------------------------------------------------------
-- Waiting for IF
-----------------------------------------------------------------------------------------

variable {s : CycleState Cache}

theorem fillWait_empty (empty : s.ifInst.isNop = true)
    : s.fillWait
      = s.iStallLeft.toNat + if (s.iCache.access s.pc .read).1 then 1 else s.iLatency + 2 := by
  simp [fillWait, empty]

/-- IF has a word. -/
theorem next_fillWait_zero (full : s.fetch.newIF.isNop = false) (idle : s.fetch.iStallLeft = 0)
    : s.next.fillWait = 0 := by
  have inactive : s.next.iStallActive = false := iStallActive_idle idle
  have busy : s.next.ifInst.isNop = false := full
  simp [fillWait, inactive, busy]

theorem next_fillWait_direct (idle : s.iStallActive = false) (fetch : s.fetch = s.fetchDirect)
    : s.next.fillWait = 0 :=
  next_fillWait_zero (by rw [fetch]; exact simIF_isNop _ _)
    (by rw [fetch]; exact iStallAfterID_zero idle)

/-- A stall of the I-cache runs down. -/
theorem next_fillWait_stall (active : s.iStallActive = true) (untaken : s.branchTaken = false)
    {status : StageStatus} {finished : Bool}
    (fetch : s.fetch = s.fetchHold (fetchSlot s.pc status) finished)
    : s.next.fillWait < s.fillWait := by
  have after : s.iStallAfterID = s.iStallTick := by simp [iStallAfterID, untaken]
  have falls : s.iStallTick.toNat < s.iStallLeft.toNat := by
    have waits : s.iStallLeft ≠ 0#64 := iStallLeft_active active
    unfold iStallTick
    split <;> bv_omega
  have now : s.fillWait
      = s.iStallLeft.toNat + if (s.iCache.access s.pc .read).1 then 1 else s.iLatency + 2 := by
    simp [fillWait, active]
  have empty : s.next.ifInst.isNop = true := by
    show s.fetch.newIF.isNop = true
    rw [fetch]
    rfl
  rw [fillWait_empty empty, now]
  simp only [next, fetch, fetchHold, after, iLatency]
  omega

/-- After a lookup IF has the word, or a second lookup hits. -/
theorem next_fillWait_through (wellFormed : s.iCache.WellFormed) (idle : s.iStallActive = false)
    {onMiss onHit : StageStatus}
    (fetch : s.fetch = s.fetchThrough s.pc s.iStallAfterID onMiss onHit)
    : s.next.fillWait
      = if (s.iCache.access s.pc .read).1 then 0 else s.iLatency + 1 := by
  cases hit : (s.iCache.access s.pc .read).1 with
  | true =>
      have result := s.fetchThrough_hit s.iStallAfterID onMiss onHit hit
      rw [if_pos rfl]
      refine next_fillWait_zero ?_ ?_
      · rw [fetch, result]
        exact simIF_isNop _ _
      · rw [fetch, result]
        exact iStallAfterID_zero idle
  | false =>
      have result := s.fetchThrough_miss s.iStallAfterID onMiss onHit hit
      have again := wellFormed.access_again s.pc .read .read
      have empty : s.next.ifInst.isNop = true := by
        show s.fetch.newIF.isNop = true
        rw [fetch, result]
        rfl
      have latency : s.next.iStallLeft.toNat = s.iLatency := by
        show s.fetch.iStallLeft.toNat = _
        rw [fetch, result]
        exact congrArg BitVec.toNat (access_missLatency ..)
      have found : (s.next.iCache.access s.next.pc .read).1 = true := by
        show (s.fetch.iCache.access s.fetch.pc .read).1 = true
        rw [fetch, result]
        exact again
      rw [fillWait_empty empty, latency, found]
      rfl

-----------------------------------------------------------------------------------------
-- Waiting for ID
-----------------------------------------------------------------------------------------

/-- Only an illegal instruction leaves a squash pending. -/
theorem next_unsquashed (quiet : s.idIllegalException = false) : s.next.squashNextIF = false := by
  have through (target iStallLeft : U64) (onMiss onHit : StageStatus)
      : (s.fetchThrough target iStallLeft onMiss onHit).squashNextIF = false := by
    cases hit : (CacheUnit.access s.iCache target .read).1 with
    | true => rw [s.fetchThrough_hit _ _ _ hit]
    | false => rw [s.fetchThrough_miss _ _ _ hit]
  show s.fetch.squashNextIF = false
  simp only [fetch, quiet, Bool.false_eq_true, if_false]
  split_ifs <;> first | rfl | exact through _ _ _ _

section Vacant

variable (l : s.LatchInv) (empty : s.idInst.inFlight = false) (undecoded : s.decodes = false)
include l empty

/-- Without an instruction in ID nothing is redirected but by WB. -/
theorem LatchInv.vacant
    : s.branchTaken = false ∧ s.hazardStall = false ∧ s.illegalInID = false :=
  ⟨branchTaken_nop (l.inID.empty empty), l.hazardStall_nop (l.inID.empty empty),
    by simp [illegalInID, l.inID.empty empty]⟩

include undecoded

theorem LatchInv.vacant_quiet : s.idIllegalException = false := by
  obtain ⟨_, _, illegal⟩ := l.vacant empty
  simp [idIllegalException, illegal, illegalDecoded, undecoded]

/-- During a stall of the D-cache IF is filled, or waits for the I-cache. -/
theorem LatchInv.decodeWait_frozen (frozen : s.dStallActive = true)
    : s.next.decodeWait ≤ s.decodeWait := by
  obtain ⟨untaken, _, _⟩ := l.vacant empty
  have quiet := l.vacant_quiet empty undecoded
  have calm : s.wbMemException = false := by simp [wbMemException, frozen]
  have fetch : s.fetch
      = if s.iStallActive then s.fetchHold (fetchSlot s.pc .normal) false
        else if s.ifInst.isNop then s.fetchDirect
        else s.fetchHold s.ifInst false := by
    simp [CycleState.fetch, calm, quiet, untaken, frozen]
  have wait : s.next.fillWait ≤ s.fillWait := by
    split_ifs at fetch with active vacant
    · exact (next_fillWait_stall active untaken fetch).le
    · rw [next_fillWait_direct (by simpa using active) fetch]
      exact Nat.zero_le _
    · rw [next_fillWait_zero (by rw [fetch]; simpa [fetchHold] using vacant)
        (by rw [fetch]; exact iStallAfterID_zero (by simpa using active))]
      exact Nat.zero_le _
  rw [decodeWait, decodeWait, next_unsquashed quiet]
  simp only [Bool.false_eq_true, if_false, Nat.add_zero]
  omega

/-- Otherwise the word that ID takes next comes closer. -/
theorem LatchInv.decodeWait_next (wellFormed : s.iCache.WellFormed)
    (moving : s.dStallActive = false) (calm : s.wbMemException = false)
    : s.next.decodeWait < s.decodeWait := by
  obtain ⟨untaken, free, _⟩ := l.vacant empty
  have quiet := l.vacant_quiet empty undecoded
  have fetch : s.fetch
      = if s.iStallActive then s.fetchHold (fetchSlot s.pc .normal) true
        else if s.justFinishedIStall then s.fetchDirect
        else s.fetchThrough s.pc s.iStallAfterID .normal
          (if s.newIdHasBranch then .speculative else .normal) := by
    simp [CycleState.fetch, calm, quiet, untaken, moving, free]
  rw [decodeWait, decodeWait, next_unsquashed quiet]
  simp only [Bool.false_eq_true, if_false, Nat.add_zero]
  by_cases active : s.iStallActive = true
  · rw [if_pos active] at fetch
    have falls := next_fillWait_stall active untaken fetch
    omega
  rw [if_neg active] at fetch
  have before (unset : s.squashNextIF = false)
      : s.fillWait
        = s.iStallLeft.toNat
          + if (s.iCache.access s.pc .read).1 then 1 else s.iLatency + 2 := by
    refine fillWait_empty ?_
    by_contra full
    simp [decodes_eq, held, moving, free, untaken, unset, active, full] at undecoded
  have after : s.next.fillWait = 0
      ∨ s.next.fillWait
        = if (s.iCache.access s.pc .read).1 then 0 else s.iLatency + 1 := by
    by_cases finished : s.justFinishedIStall = true
    · rw [if_pos finished] at fetch
      exact .inl (next_fillWait_direct (by simpa using active) fetch)
    · rw [if_neg finished] at fetch
      exact .inr (next_fillWait_through wellFormed (by simpa using active) fetch)
  cases squash : s.squashNextIF with
  | true =>
      rw [if_pos rfl]
      split_ifs at after <;> omega
  | false =>
      rw [before squash]
      split_ifs at after ⊢ <;> omega

end Vacant

-----------------------------------------------------------------------------------------
-- Waiting for a departure
-----------------------------------------------------------------------------------------

theorem next_dLatency (s : CycleState Cache) : s.next.dLatency = s.dLatency := by
  show (CacheUnit.missLatency s.dCacheNext).toNat = _
  unfold dCacheNext
  split
  · exact congrArg BitVec.toNat (access_missLatency ..)
  · rfl

section Moving

variable (l : s.LatchInv) (calm : s.wbMemException = false) (moving : s.dStallActive = false)
include l calm moving

/-- What is in MEM leaves it. -/
theorem LatchInv.retires_mem (occupied : s.memInst.inFlight = true)
    : s.entersWB.isSome = true := by
  have leaves := retires_length l moving (l.calm_iff.mp calm)
  rw [slot_length, if_pos occupied] at leaves
  cases entered : s.entersWB with
  | none => simp [entered] at leaves
  | some _ => rfl

/-- Where each instruction behind an empty MEM goes. -/
theorem LatchInv.departureWait_moving (wellFormed : s.iCache.WellFormed)
    (vacant : s.memInst.inFlight = false)
    (passes : s.held = false → s.idInst.inFlight = true → s.idInst.isLegal = true)
    : s.next.departureWait < s.departureWait := by
  have idle : s.dStallLeft.toNat = 0 := by rw [dStallLeft_idle moving]; rfl
  have stall := dStallLeft_step s
  rw [moving, idle, Bool.toNat_false, Nat.zero_add, Nat.zero_add] at stall
  have mem : s.next.memInst.inFlight = s.exInst.inFlight := by
    rw [next_memInst calm, l.newMEM_inFlight moving]
  rw [departureWait, departureWait, next_dLatency, mem, vacant, idle]
  cases ex : s.exInst.inFlight with
  | true =>
      have missed := Bool.toNat_le s.missesDCache
      have bounded : s.next.dStallLeft.toNat ≤ s.dLatency := by
        rw [stall]
        exact (Nat.mul_le_mul_right _ missed).trans (Nat.one_mul _).le
      simp only [if_true, Bool.false_eq_true, if_false]
      omega
  | false =>
      have signals := l.inEX.kind.nop (l.inEX.empty ex)
      have quiet : s.next.dStallLeft.toNat = 0 := by
        rw [l.dStall_quiet moving signals.readsMem signals.writesMem]
        rfl
      have unheld : s.held = false := by
        by_contra held
        have busy := l.ahead_busy moving (by simpa using held)
        simp [ex, vacant] at busy
      simp only [quiet, Bool.false_eq_true, if_false]
      cases id : s.idInst.inFlight with
      | true =>
          have issued := (l.newEX_issued unheld (passes unheld id)).2.1
          rw [next_exInst calm, issued, id]
          simp only [if_true]
          omega
      | false =>
          have empty : s.next.exInst.inFlight = false := by
            by_contra flight
            have origin := (l.next_ex_inFlight (by simpa using flight)).2
            simp [moving, id] at origin
          have entered : s.next.idInst.inFlight = s.decodes := by
            rw [next_idInst calm, newID_inFlight unheld]
          rw [empty, entered]
          cases decodes : s.decodes with
          | true =>
              simp only [Bool.false_eq_true, if_false, if_true]
              omega
          | false =>
              have closer := l.decodeWait_next id decodes wellFormed moving calm
              simp only [Bool.false_eq_true, if_false]
              omega

end Moving

/-- Every cycle in which nothing leaves the pipeline brings the next departure closer. Witness: by
the stage of the oldest instruction.
-/
theorem LatchInv.departureWait_next (l : s.LatchInv) (wellFormed : s.iCache.WellFormed)
    (waits : s.departs = false)
    : s.next.departureWait < s.departureWait := by
  simp only [departs, Bool.or_eq_false_iff] at waits
  obtain ⟨⟨silent, calm⟩, passes⟩ := waits
  cases frozen : s.dStallActive with
  | true =>
      have same := (next_frozen frozen).1
      have falls := l.dStallLeft_next frozen
      have undecoded : s.decodes = false := (held_idle (by simp [held, frozen])).2
      rw [departureWait, departureWait, same.memInst, same.exInst, same.idInst, next_dLatency]
      cases id : s.idInst.inFlight with
      | true =>
          simp only [if_true]
          omega
      | false =>
          have wait := l.decodeWait_frozen id undecoded frozen
          simp only [Bool.false_eq_true, if_false]
          split_ifs <;> omega
  | false =>
      refine l.departureWait_moving calm frozen wellFormed ?_ fun unheld flight => ?_
      · by_contra occupied
        have retires := l.retires_mem calm frozen (by simpa using occupied)
        simp [silent] at retires
      · simpa [unheld, flight] using passes

-----------------------------------------------------------------------------------------
-- Whole runs
-----------------------------------------------------------------------------------------

section Runs

variable (past : CycleState Cache) (iCacheConfig dCacheConfig : CacheConfig)
  (image : MemoryStore)

/-- In how many cycles some instruction leaves the pipeline, with these caches. -/
def departureWidth (iCacheConfig dCacheConfig : CacheConfig) : ℕ :=
  3 * iCacheConfig.missLatency.toNat + 2 * dCacheConfig.missLatency.toNat + 8

theorem dStallLeft_le (n : ℕ)
    : (next^[n] (initSimulator past iCacheConfig dCacheConfig image)).dStallLeft.toNat
      ≤ dCacheConfig.missLatency.toNat := by
  induction n with
  | zero => exact Nat.zero_le _
  | succ n ih =>
      have step := dStallLeft_step
        (next^[n] (initSimulator past iCacheConfig dCacheConfig image))
      rw [dCache_missLatency (Runs.reachable_iterate _ n)] at step
      rw [Function.iterate_succ_apply']
      generalize next^[n] (initSimulator past iCacheConfig dCacheConfig image) = s at ih step ⊢
      cases missed : s.missesDCache with
      | false =>
          rw [missed, Bool.toNat_false, Nat.zero_mul] at step
          omega
      | true =>
          have idle : s.dStallLeft.toNat = 0 := by
            have moving : s.dStallActive = false := by
              by_contra frozen
              simp [missesDCache, accessesDCache, memActive, frozen] at missed
            rw [dStallLeft_idle moving]
            rfl
          rw [missed, Bool.toNat_true, Nat.one_mul] at step
          omega

theorem departureWait_lt (n : ℕ)
    : (next^[n] (initSimulator past iCacheConfig dCacheConfig image)).departureWait
      < departureWidth iCacheConfig dCacheConfig := by
  have dStall := dStallLeft_le past iCacheConfig dCacheConfig image n
  have iStall
      : (next^[n] (initSimulator past iCacheConfig dCacheConfig image)).iStallLeft.toNat
        ≤ iCacheConfig.missLatency.toNat :=
    iStallLeft_le rfl n
  have iConfig
      : (next^[n] (initSimulator past iCacheConfig dCacheConfig image)).iCache.config
        = iCacheConfig :=
    iCache_config _ n
  have dConfig
      : (next^[n] (initSimulator past iCacheConfig dCacheConfig
          image)).dCache.config.missLatency
        = dCacheConfig.missLatency :=
    dCache_missLatency (Runs.reachable_iterate _ n)
  simp only [departureWait, decodeWait, fillWait, iLatency, dLatency, iConfig, dConfig,
    departureWidth]
  split_ifs <;> omega

theorem departs_window (sets : 0 < iCacheConfig.numSets) (n : ℕ)
    : ∃ m, n ≤ m ∧ m < n + departureWidth iCacheConfig dCacheConfig
      ∧ (next^[m] (initSimulator past iCacheConfig dCacheConfig image)).departs = true := by
  let inv (s : CycleState Cache) : Prop := s.LatchInv ∧ s.iCache.WellFormed
  have preserved (s : CycleState Cache) (holds : inv s) : inv s.next :=
    ⟨holds.1.inv_next, wellFormed_next holds.2⟩
  have holds : inv (next^[n] (initSimulator past iCacheConfig dCacheConfig image)) :=
    (Runs.reachable_iterate _ n).invariant
      ⟨latchInv_initCycle _ _ _ _, Cache.wellFormed_new sets⟩ fun s holds _ => preserved s holds
  have early := departureWait_lt past iCacheConfig dCacheConfig image n
  obtain ⟨m, bound, leaves⟩ := Runs.exists_le_of_measure departureWait inv preserved
    (fun s holds waits => holds.1.departureWait_next holds.2 waits) _ holds
  rw [← Function.iterate_add_apply] at leaves
  exact ⟨m + n, by omega, by omega, leaves⟩

/-- The pipeline never hangs. In every state that a run reaches, whatever the program, at most
three times the latency of the I-cache, twice that of the D-cache and eight cycles pass until an
instruction leaves it, so that a run of `n` cycles has that share of departures. The sizes of the
I-cache have to give it a set.
Witness: the stage of the oldest instruction, with the stalls and lookups before it.
-/
theorem departs_within (sets : 0 < iCacheConfig.numSets) (n : ℕ)
    : (∃ m, n ≤ m ∧ m < n + departureWidth iCacheConfig dCacheConfig
        ∧ (next^[m] (initSimulator past iCacheConfig dCacheConfig image)).departs = true)
      ∧ n / departureWidth iCacheConfig dCacheConfig
        ≤ Runs.countSteps next departs
          (initSimulator past iCacheConfig dCacheConfig image) n :=
  ⟨departs_window past iCacheConfig dCacheConfig image sets n,
    Runs.div_le_countSteps (departs_window past iCacheConfig dCacheConfig image sets) n⟩

/-- Memory without a program: all of it is illegal, and the handler traps again and again. -/
theorem departs_within_illegal
    : ∃ m, 1000 ≤ m ∧ m < 1000 + 39
        ∧ (next^[m] (boot testICache testDCache [])).departs = true :=
  (departs_within _ testICache testDCache (.load []) (by decide) 1000).1

end Runs

-----------------------------------------------------------------------------------------
-- The length of a program
-----------------------------------------------------------------------------------------

variable {image : MemoryStore} {N c : ℕ}

/-- In a scheduled program all that leaves the pipeline before HALT retires. -/
theorem OnTrack.departs_eq (h : s.OnTrack image N c) (ahead : s.haltAhead = false)
    : s.departs = s.entersWB.isSome := by
  simp [departs, h.calm, (h.follows.fetches ahead).legal]

/-- Behind HALT one more word may leave, from ID. -/
theorem OnTrack.departures_next (h : s.OnTrack image N c) (running : s.halts = false)
    : s.departs.toNat + s.memInst.isHalt.toNat
      ≤ s.entersWB.toList.length + s.next.memInst.isHalt.toNat := by
  have l := h.follows.latches
  cases frozen : s.dStallActive with
  | true =>
      have still : s.departs = false := by
        simp [departs, entersWB_frozen frozen, h.calm, held, frozen]
      rw [still, (next_frozen frozen).1.memInst, Bool.toNat_false]
      omega
  | false =>
      have mem : s.memInst.isHalt = false := by simpa [l.halts_eq, frozen] using running
      rw [mem, next_memInst h.calm, l.newMEM_isHalt frozen]
      cases halt : s.exInst.isHalt with
      | true =>
          have single := Bool.toNat_le s.departs
          rw [Bool.toNat_true, Bool.toNat_false]
          omega
      | false =>
          rw [h.departs_eq (by simp [haltAhead, mem, halt])]
          cases s.entersWB <;> simp

/-- What leaves the pipeline before HALT bounds when HALT comes. -/
theorem haltsAt_lt {past : CycleState Cache} {iCacheConfig dCacheConfig : CacheConfig} {n : ℕ}
    (sets : 0 < iCacheConfig.numSets) (scheduled : FunctState.ScheduledPath image N)
    (ends : HaltsAt (initSimulator past iCacheConfig dCacheConfig image) n)
    : n < departureWidth iCacheConfig dCacheConfig * (N + 2) := by
  have base : (initSimulator past iCacheConfig dCacheConfig image).OnTrack image N 0 :=
    onTrack_initCycle past _ _
  have share :=
    Runs.div_le_countSteps (departs_window past iCacheConfig dCacheConfig image sets) n
  generalize initSimulator past iCacheConfig dCacheConfig image = start at base ends share
  have track {m : ℕ} (bound : m ≤ n) : (next^[m] start).OnTrack image N (retiredCount start m) :=
    onTrack_iterate base scheduled fun k earlier => ends.first k (by omega)
  have departures {m : ℕ} (bound : m ≤ n)
      : Runs.countSteps next departs start m
        ≤ retiredCount start m + (next^[m] start).memInst.isHalt.toNat := by
    induction m with
    | zero => exact Nat.zero_le _
    | succ m ih =>
        have before := ih (by omega)
        have step := (track (m := m) (by omega)).departures_next (ends.first m (by omega))
        rw [Runs.countSteps_succ, retiredCount_succ, Function.iterate_succ_apply']
        omega
  have total := departures le_rfl
  have single := Bool.toNat_le (next^[n] start).memInst.isHalt
  have retired := (track le_rfl).bound
  have wide : 0 < departureWidth iCacheConfig dCacheConfig := Nat.succ_pos _
  rw [Nat.mul_comm, ← Nat.div_lt_iff_lt_mul wide]
  omega

/-- With an I-cache of power-of-two sizes, a scheduled program with `N` instructions before HALT
halts within a time proportional to `N`, however its accesses hit or miss.
Witness: what leaves the pipeline retires, but for one word behind HALT.
-/
theorem scheduled_halts_within (past : CycleState Cache) (iCacheConfig dCacheConfig : CacheConfig)
    (image : MemoryStore) (N : ℕ) (geometry : iCacheConfig.PowerOfTwo)
    (scheduled : FunctState.Scheduled (FunctState.init image) N)
    : ∃ n,
        HaltsAt (initSimulator past iCacheConfig dCacheConfig image) n
        ∧ retiredCount (initSimulator past iCacheConfig dCacheConfig image) (n + 1) = N + 1
        ∧ n < departureWidth iCacheConfig dCacheConfig * (N + 2) := by
  have sets := geometry.indexable.numSets_pos
  have base : (initSimulator past iCacheConfig dCacheConfig image).OnTrack image N 0 :=
    onTrack_initCycle past _ _
  obtain ⟨n, ends⟩ := base.exists_haltsAt scheduled.path (Cache.wellFormed_new sets)
  have track := onTrack_iterate base scheduled.path ends.first
  obtain ⟨last, retires, _⟩ := track.last scheduled.path ends.reached
  exact ⟨n, ends, by rw [retiredCount_succ, last, retires], haltsAt_lt sets scheduled.path ends⟩

/-- The loop of `scheduled_ends_as_functional_loop`. -/
theorem scheduled_halts_within_loop
    : ∃ n,
        HaltsAt
          (boot testICache testDCache
            [0x00200093, 0x13, 0xfff08093, 0x10102023, 0x10002103, 0xfe009ae3, 0xfeedfeed]) n
        ∧ retiredCount
          (boot testICache testDCache
            [0x00200093, 0x13, 0xfff08093, 0x10102023, 0x10002103, 0xfe009ae3, 0xfeedfeed])
          (n + 1) = 10 + 1
        ∧ n < departureWidth testICache testDCache * (10 + 2) :=
  scheduled_halts_within _ testICache testDCache _ 10 ⟨6, 4, 1, by decide⟩
    ⟨⟨by decide +kernel, by decide +kernel⟩, by decide +kernel, by decide +kernel,
      by decide +kernel, by decide +kernel⟩

end RiscvSim.CycleState
