import RiscvSim.Correctness.CacheReplacement
import RiscvSim.Pipeline.Lookups

/-! An I-cache miss whose fetch is cancelled by a redirect, and the next access to its block. -/

namespace RiscvSim.CycleState

-----------------------------------------------------------------------------------------
-- The I-cache of a run
-----------------------------------------------------------------------------------------

/-- The block that the I-cache is accessed for in this cycle. -/
def accessedBlock (s : CycleState Cache) : Option (U64 × U64) := s.accessed.map s.iCache.block

/-- The access of this cycle misses, and its block takes the line of `set` in `way`. -/
def replaces (s : CycleState Cache) (set : U64) (way : ℕ) : Bool :=
  match s.accessed with
  | none => false
  | some address =>
      s.iCache.index address == set && !(s.iCache.access address .read).1
      && Cache.victimWay (s.iCache.curSet address) == way

theorem iCache_block (start : CycleState Cache) (n : ℕ) (address : U64)
    : (next^[n] start).iCache.block address = start.iCache.block address := by
  induction n with
  | zero => rfl
  | succ n ih =>
      rw [Function.iterate_succ_apply', ← ih]
      show (next^[n] start).fetch.iCache.block address = _
      rw [fetch_accessed]
      split
      · rfl
      · exact Cache.access_block _ _ _ _

theorem iCache_wellFormed {start : CycleState Cache} (h : start.iCache.WellFormed) (n : ℕ)
    : (next^[n] start).iCache.WellFormed := by
  induction n with
  | zero => exact h
  | succ n ih =>
      rw [Function.iterate_succ_apply']
      exact wellFormed_next ih

/-- A cycle that does not replace a line keeps its tag. -/
theorem tagAt_next {s : CycleState Cache} (h : s.iCache.WellFormed) {set : U64} {way : ℕ}
    (kept : s.replaces set way = false) : s.next.iCache.tagAt set way = s.iCache.tagAt set way := by
  show s.fetch.iCache.tagAt set way = _
  rw [fetch_accessed]
  cases access : s.accessed with
  | none => rfl
  | some address =>
      refine (h.tagAt_access address .read set way).trans (if_neg ?_)
      rintro ⟨rfl, miss, rfl⟩
      simp [replaces, access, miss] at kept

/-- A cycle that replaces a line gives it the tag of the block accessed. -/
theorem tagAt_replaced {s : CycleState Cache} (h : s.iCache.WellFormed) {set : U64} {way : ℕ}
    (replaced : s.replaces set way = true)
    : ∃ tag, s.accessedBlock = some (set, tag) ∧ s.next.iCache.tagAt set way = some tag := by
  unfold replaces at replaced
  split at replaced
  · cases replaced
  · rename_i address access
    simp only [Bool.and_eq_true, beq_iff_eq, Bool.not_eq_true'] at replaced
    obtain ⟨⟨rfl, miss⟩, rfl⟩ := replaced
    refine ⟨s.iCache.tag address, by rw [accessedBlock, access]; rfl, ?_⟩
    show s.fetch.iCache.tagAt _ _ = _
    rw [fetch_accessed, access]
    exact (h.tagAt_access address .read _ _).trans (if_pos ⟨rfl, miss, rfl⟩)

-----------------------------------------------------------------------------------------
-- Waiting out a miss
-----------------------------------------------------------------------------------------

/-- The stall counter never exceeds the miss latency. -/
theorem iStallLeft_le {start : CycleState Cache} (idle : start.iStallLeft = 0) (n : ℕ)
    : (next^[n] start).iStallLeft.toNat ≤ start.iCache.config.missLatency.toNat := by
  induction n with
  | zero =>
      rw [Function.iterate_zero, id, idle]
      exact Nat.zero_le _
  | succ n ih =>
      rw [Function.iterate_succ_apply']
      rcases next_iStallLeft (next^[n] start) with fallen | ⟨_, missed⟩
      · omega
      · rw [missed, iCache_config]

-----------------------------------------------------------------------------------------
-- Cancelled misses
-----------------------------------------------------------------------------------------

/-- A fetch of `address` misses in cycle `m`, and cycle `r` is the first one after it that
redirects fetching, before the miss has been waited out.
-/
structure CancelledMiss (start : CycleState Cache) (address : U64) (m r : ℕ) : Prop where
  target : (next^[m] start).fetchTarget = some address
  misses : (next^[m] start).fetchHits = some false
  later : m < r
  pending : r ≤ m + start.iCache.config.missLatency.toNat
  redirects : (next^[r] start).redirects = true
  first : ∀ j, m < j → j < r → (next^[j] start).redirects = false

/-- Cycle `n` is the first one from the redirect on that accesses the block of `address`. -/
structure NextAccess (start : CycleState Cache) (address : U64) (r n : ℕ) : Prop where
  onwards : r ≤ n
  accesses : (next^[n] start).accessedBlock = some (start.iCache.block address)
  first
    : ∀ j, r ≤ j → j < n
      → (next^[j] start).accessedBlock ≠ some (start.iCache.block address)

/-- The access of this cycle misses and pays the miss latency. -/
def MissesAgain (s : CycleState Cache) : Prop :=
  ∃ address,
    s.accessed = some address
    ∧ (s.iCache.access address .read).1 = false
    ∧ s.next.iStallLeft = s.iCache.config.missLatency

/-- The line that the miss of cycle `m` has filled is given to another block before cycle `n`.
-/
def Refilled (start : CycleState Cache) (address : U64) (m n : ℕ) : Prop :=
  ∃ j, m < j ∧ j < n
    ∧ (next^[j] start).replaces (start.iCache.index address)
        (Cache.victimWay ((next^[m] start).iCache.curSet address)) = true

/-- One more cycle refills the line if it replaces it. -/
theorem refilled_succ {start : CycleState Cache} {address : U64} {m n : ℕ} (later : m < n)
    : start.Refilled address m (n + 1)
      ↔ start.Refilled address m n
        ∨ (next^[n] start).replaces (start.iCache.index address)
            (Cache.victimWay ((next^[m] start).iCache.curSet address)) = true := by
  constructor
  · rintro ⟨j, after, before, replaced⟩
    rcases Nat.lt_succ_iff_lt_or_eq.mp before with earlier | rfl
    · exact .inl ⟨j, after, earlier, replaced⟩
    · exact .inr replaced
  · rintro (⟨j, after, before, replaced⟩ | replaced)
    · exact ⟨j, after, by omega, replaced⟩
    · exact ⟨n, later, by omega, replaced⟩

/-- After a miss the line that it has filled, and no other, holds the block. -/
theorem tagAt_missed {s : CycleState Cache} (h : s.iCache.WellFormed) {address : U64}
    (access : s.accessed = some address) (miss : (s.iCache.access address .read).1 = false)
    (way : ℕ)
    : s.next.iCache.tagAt (s.iCache.index address) way = some (s.iCache.tag address)
      ↔ way = Cache.victimWay (s.iCache.curSet address) := by
  have fills : s.replaces (s.iCache.index address) way
      = (Cache.victimWay (s.iCache.curSet address) == way) := by
    simp [replaces, access, miss]
  by_cases filled : way = Cache.victimWay (s.iCache.curSet address)
  · obtain ⟨tag, accesses, holds⟩ := tagAt_replaced h (fills.trans (by simp [filled]))
    rw [accessedBlock, access] at accesses
    obtain rfl : s.iCache.tag address = tag := (Prod.mk.inj (Option.some.inj accesses)).2
    exact iff_of_true holds filled
  · rw [tagAt_next h (by simpa [fills] using Ne.symm filled)]
    refine iff_of_false ?_ filled
    intro holds
    rw [← Bool.not_eq_true, Cache.access_hit_iff] at miss
    exact miss ⟨way, holds⟩

/-- The line that a miss has filled, and no other, holds the block until it is refilled, as long
as the block is not accessed.
-/
theorem tagAt_since {start : CycleState Cache} (h : start.iCache.WellFormed) {address : U64}
    {m n : ℕ} (access : (next^[m] start).accessed = some address)
    (miss : ((next^[m] start).iCache.access address .read).1 = false) (later : m < n)
    (since
      : ∀ j, m < j → j < n
        → (next^[j] start).accessedBlock ≠ some (start.iCache.block address))
    (way : ℕ)
    : (next^[n] start).iCache.tagAt (start.iCache.index address) way
        = some (start.iCache.tag address)
      ↔ way = Cache.victimWay ((next^[m] start).iCache.curSet address)
        ∧ ¬ start.Refilled address m n := by
  induction n, later using Nat.le_induction with
  | base =>
      obtain ⟨index, tag⟩ := Prod.mk.inj (iCache_block start m address)
      have filled := tagAt_missed (iCache_wellFormed h m) access miss way
      rw [index, tag] at filled
      rw [Function.iterate_succ_apply']
      refine filled.trans (iff_self_and.mpr ?_)
      rintro - ⟨j, after, before, -⟩
      omega
  | succ n later ih =>
      have before := ih fun j after earlier => since j after (by omega)
      have formed := iCache_wellFormed h n
      rw [Function.iterate_succ_apply', refilled_succ (by omega)]
      cases replaced : (next^[n] start).replaces (start.iCache.index address) way with
      | true =>
          obtain ⟨tag, accesses, holds⟩ := tagAt_replaced formed replaced
          refine iff_of_false ?_ ?_
          · rw [holds]
            intro same
            rw [Option.some.inj same] at accesses
            exact since n later (by omega) accesses
          · rintro ⟨rfl, kept⟩
            exact kept (.inr replaced)
      | false =>
          rw [tagAt_next formed replaced]
          refine before.trans ⟨?_, ?_⟩
          · rintro ⟨rfl, kept⟩
            refine ⟨rfl, ?_⟩
            rintro (earlier | now)
            · exact kept earlier
            · rw [replaced] at now
              cases now
          · rintro ⟨same, kept⟩
            exact ⟨same, fun earlier => kept (.inl earlier)⟩

section Cancelled

variable {start : CycleState Cache} {address : U64} {m r : ℕ}

/-- Until the redirect the stall counter counts down. -/
theorem CancelledMiss.countdown (h : CancelledMiss start address m r) {j : ℕ} (within : j < r - m)
    : (next^[m + 1 + j] start).iStallLeft.toNat = start.iCache.config.missLatency.toNat - j := by
  have pending := h.pending
  induction j with
  | zero =>
      rw [Nat.add_zero, Function.iterate_succ_apply', next_missed h.target h.misses,
        iCache_config, Nat.sub_zero]
  | succ j ih =>
      have now := ih (by omega)
      have quiet := h.first (m + 1 + j) (by omega) (by omega)
      have tick := (next^[m + 1 + j] start).toNat_iStallTick
      have active : (next^[m + 1 + j] start).iStallActive = true := by
        apply decide_eq_true
        rw [BitVec.lt_def, tick, now]
        change 0 < _
        omega
      rw [← Nat.add_assoc, Function.iterate_succ_apply', (waits quiet active).2, tick, now]
      omega

/-- Until the redirect the I-cache is not accessed. -/
theorem CancelledMiss.idle (h : CancelledMiss start address m r) {j : ℕ} (after : m < j)
    (before : j < r) : (next^[j] start).accessed = none := by
  obtain ⟨i, rfl⟩ : ∃ i, j = m + 1 + i := ⟨j - (m + 1), by omega⟩
  have pending := h.pending
  have left := h.countdown (j := i) (by omega)
  have active : (next^[m + 1 + i] start).iStallActive = true := by
    apply decide_eq_true
    rw [BitVec.lt_def, toNat_iStallTick, left]
    change 0 < _
    omega
  exact (waits (h.first _ after before) active).1

end Cancelled

/-- The access of a cycle that has missed pays the miss latency if and only if it fetches. -/
theorem pays_iff {s : CycleState Cache} {address : U64} (accessed : s.accessed = some address)
    (misses : (s.iCache.access address .read).1 = false)
    (left : s.iStallLeft.toNat ≤ s.iCache.config.missLatency.toNat)
    (latency : 1 ≤ s.iCache.config.missLatency.toNat)
    : s.next.iStallLeft = s.iCache.config.missLatency ↔ s.leavesAccess = false := by
  unfold CycleState.accessed at accessed
  cases leaves : s.leavesAccess with
  | true =>
      have kept : s.next.iStallLeft = s.iStallAfterID := by
        simp only [leavesAccess, Bool.and_eq_true, Bool.not_eq_true'] at leaves
        show s.fetch.iStallLeft = _
        rw [s.fetch_of_illegal leaves.1 leaves.2]
      have fallen := s.iStallAfterID_le
      have short : s.iStallAfterID ≠ s.iCache.config.missLatency := by
        intro same
        rw [same] at fallen
        omega
      rw [kept]
      simpa using short
  | false =>
      rw [leaves, if_neg Bool.false_ne_true] at accessed
      have missed : s.fetchHits = some false := by
        rw [fetchHits, accessed, Option.map_some]
        exact congrArg some misses
      simpa using next_missed accessed missed

section Next

variable {start : CycleState Cache} {address : U64} {m r n : ℕ}

/-- Since the miss, no cycle before the next access has accessed the block. -/
theorem NextAccess.since (access : NextAccess start address r n)
    (cancelled : CancelledMiss start address m r) {j : ℕ} (after : m < j) (before : j < n)
    : (next^[j] start).accessedBlock ≠ some (start.iCache.block address) := by
  rcases Nat.lt_or_ge j r with pending | redirected
  · rw [accessedBlock, cancelled.idle after pending]
    exact nofun
  · exact access.first j redirected before

/-- The next access misses if and only if the line has been refilled. -/
theorem NextAccess.misses_iff (access : NextAccess start address r n)
    (cancelled : CancelledMiss start address m r) (h : start.iCache.WellFormed) {current : U64}
    (accesses : (next^[n] start).accessed = some current)
    : ((next^[n] start).iCache.access current .read).1 = false
      ↔ start.Refilled address m n := by
  have missed : ((next^[m] start).iCache.access address .read).1 = false := by
    have misses := cancelled.misses
    rw [fetchHits, cancelled.target] at misses
    exact Option.some.inj misses
  have holds := tagAt_since h (accessed_of_target cancelled.target) missed
    (cancelled.later.trans_le access.onwards) fun j after before =>
      access.since cancelled after before
  have same : (next^[n] start).iCache.block current = start.iCache.block address := by
    have block := access.accesses
    rw [accessedBlock, accesses] at block
    exact Option.some.inj block
  obtain ⟨index, tag⟩ := Prod.mk.inj same
  rw [← Bool.not_eq_true, Cache.access_hit_iff, index, tag]
  constructor
  · intro absent
    by_contra kept
    exact absent ⟨_, (holds _).mpr ⟨rfl, kept⟩⟩
  · rintro refilled ⟨way, held⟩
    exact ((holds way).mp held).2 refilled

end Next

/-- The next access to the block of a cancelled miss misses again and pays the miss latency if
and only if it fetches, and the line that the miss has filled was given to another block since.
Witness: that line alone can hold the block.
-/
theorem cancelledMiss_misses_iff {iCache : CacheConfig} (dCache : CacheConfig)
    (sets : 0 < iCache.numSets) (latency : 1 ≤ iCache.missLatency.toNat)
    (past : CycleState Cache) (mem : MemoryStore) {address : U64} {m r n : ℕ}
    (cancelled : CancelledMiss (initSimulator past iCache dCache mem) address m r)
    (access : NextAccess (initSimulator past iCache dCache mem) address r n)
    : (next^[n] (initSimulator past iCache dCache mem)).MissesAgain
      ↔ (next^[n] (initSimulator past iCache dCache mem)).leavesAccess = false
        ∧ (initSimulator past iCache dCache mem).Refilled address m n := by
  generalize begins : initSimulator past iCache dCache mem = start at *
  have new : start.iCache = Cache.new iCache := by rw [← begins]; rfl
  have idle : start.iStallLeft = 0 := by rw [← begins]; rfl
  have formed : start.iCache.WellFormed := by
    rw [new]
    exact Cache.wellFormed_new sets
  have configured : (next^[n] start).iCache.config = start.iCache.config := iCache_config start n
  obtain ⟨current, accesses, _⟩ := Option.map_eq_some_iff.mp access.accesses
  have refilled := access.misses_iff cancelled formed accesses
  have pays (misses : ((next^[n] start).iCache.access current .read).1 = false) :=
    pays_iff accesses misses
      (by
        rw [configured]
        exact iStallLeft_le idle n)
      (by
        rw [configured, new]
        exact latency)
  constructor
  · rintro ⟨other, accessed, misses, paid⟩
    obtain rfl : current = other := Option.some.inj (accesses.symm.trans accessed)
    exact ⟨(pays misses).mp paid, refilled.mp misses⟩
  · rintro ⟨fetches, evicted⟩
    have misses := refilled.mpr evicted
    exact ⟨current, accesses, misses, (pays misses).mpr fetches⟩

/-- A jump to itself on a cache of one line: the target refills the line fetched behind it. -/
theorem cancelledMiss_misses_refilled
    : (next^[5] (initSimulator (.fresh (.new ⟨4, 4, 1, 1⟩) (.new ⟨4, 4, 1, 1⟩))
        ⟨4, 4, 1, 1⟩ ⟨4, 4, 1, 1⟩ (.load [0x6f]))).MissesAgain := by
  have cancelled : CancelledMiss (initSimulator (.fresh (.new ⟨4, 4, 1, 1⟩) (.new ⟨4, 4, 1, 1⟩))
      ⟨4, 4, 1, 1⟩ ⟨4, 4, 1, 1⟩ (.load [0x6f])) 4 2 3 :=
    ⟨by decide, by decide, by decide, by decide, by decide, fun j after before => by omega⟩
  have access : NextAccess (initSimulator (.fresh (.new ⟨4, 4, 1, 1⟩) (.new ⟨4, 4, 1, 1⟩))
      ⟨4, 4, 1, 1⟩ ⟨4, 4, 1, 1⟩ (.load [0x6f])) 4 3 5 := by
    refine ⟨by decide, by decide, fun j onwards before => ?_⟩
    obtain rfl | rfl : j = 3 ∨ j = 4 := by omega
    · decide
    · decide
  exact (cancelledMiss_misses_iff ⟨4, 4, 1, 1⟩ (by decide) (by decide) _ (.load [0x6f]) cancelled
    access).mpr ⟨by decide, 3, by decide, by decide, by decide⟩

/-- A jump into the block whose fetch it cancels: the redirected fetch hits, and costs nothing,
because the cancelled miss has filled the block.
-/
theorem cancelledMiss_hits
    : ¬ ∀ (past : CycleState Cache) (mem : MemoryStore) (iCache dCache : CacheConfig),
          iCache.PowerOfTwo → dCache.PowerOfTwo → 1 ≤ iCache.missLatency.toNat
          → ∀ (address : U64) (m r n : ℕ),
              CancelledMiss (initSimulator past iCache dCache mem) address m r
              → NextAccess (initSimulator past iCache dCache mem) address r n
              → (next^[n] (initSimulator past iCache dCache mem)).MissesAgain := by
  intro misses
  have geometry : CacheConfig.PowerOfTwo ⟨16, 8, 1, 1⟩ :=
    ⟨1, 3, 0, by decide, by decide, by decide, by decide⟩
  have cancelled : CancelledMiss
      (initSimulator (.fresh (.new ⟨16, 8, 1, 1⟩) (.new ⟨16, 8, 1, 1⟩))
        ⟨16, 8, 1, 1⟩ ⟨16, 8, 1, 1⟩ (.load [0x13, 0x80006f, 0x13, 0x13])) 8 3 4 :=
    ⟨by decide, by decide, by decide, by decide, by decide, fun j after before => by omega⟩
  have access : NextAccess
      (initSimulator (.fresh (.new ⟨16, 8, 1, 1⟩) (.new ⟨16, 8, 1, 1⟩))
        ⟨16, 8, 1, 1⟩ ⟨16, 8, 1, 1⟩ (.load [0x13, 0x80006f, 0x13, 0x13])) 8 4 4 :=
    ⟨le_rfl, by decide, fun j onwards before => by omega⟩
  obtain ⟨_, accessed, miss, -⟩ := misses _ _ _ _ geometry geometry (by decide) _ _ _ _ cancelled
    access
  obtain rfl := Option.some.inj accessed
  exact absurd miss (by decide)

-----------------------------------------------------------------------------------------
-- When LRU replacement refills a line
-----------------------------------------------------------------------------------------

/-- The number of the block that the I-cache is accessed for in this cycle. -/
def accessedNumber (config : CacheConfig) (s : CycleState Cache) : Option ℕ :=
  s.accessed.map config.block

/-- The accesses of a run leave the I-cache with their history. -/
theorem lruInv_run {config : CacheConfig} (geometry : config.Indexable)
    {start : CycleState Cache} (new : start.iCache = Cache.new config) {n : ℕ}
    (short : n < 2 ^ 64)
    : Cache.LruInv config (next^[n] start).iCache
        (Runs.events next (accessedNumber config) start n).reverse := by
  induction n with
  | zero =>
      rw [Runs.events_zero, Function.iterate_zero, id, new]
      exact Cache.lruInv_new geometry
  | succ n ih =>
      have before := ih (by omega)
      rw [Function.iterate_succ_apply', Runs.events_succ]
      show Cache.LruInv config (next^[n] start).fetch.iCache _
      rw [fetch_accessed, accessedNumber]
      cases access : (next^[n] start).accessed with
      | none => simpa using before
      | some address =>
          have length : (Runs.events next (accessedNumber config) start n).length ≤ n :=
            (List.length_filterMap_le _ _).trans List.length_range.le
          have fits : (Runs.events next (accessedNumber config) start n).reverse.length + 1
              < 2 ^ 64 := by
            rw [List.length_reverse]
            omega
          have after := (before.access geometry fits address .read).2
          simp only [Option.map_some, Option.toList_some, List.reverse_append, List.reverse_cons,
            List.reverse_nil, List.nil_append, List.singleton_append]
          exact after

/-- An access whose block was last accessed in cycle `m` hits if fewer than `ways` other
blocks of its set were accessed since.
-/
theorem hits_since {config : CacheConfig} (geometry : config.Indexable)
    {start : CycleState Cache} (new : start.iCache = Cache.new config) {m n : ℕ}
    (later : m < n) (short : n + 1 < 2 ^ 64) {address : U64}
    (last : accessedNumber config (next^[m] start) = some (config.block address))
    (since
      : ∀ j, m < j → j < n → accessedNumber config (next^[j] start) ≠ some (config.block address))
    (operation : CacheOperation)
    : (Cache.access (next^[n] start).iCache address operation).1 = true
      ↔ ((Runs.events next (accessedNumber config) (next^[m + 1] start) (n - (m + 1))).filter
            (config.setOf · == config.setOf (config.block address))).toFinset.card
          < config.ways.toNat := by
  have split : Runs.events next (accessedNumber config) start n
      = Runs.events next (accessedNumber config) start m ++ [config.block address]
        ++ Runs.events next (accessedNumber config) (next^[m + 1] start) (n - (m + 1)) := by
    have parts : n = (m + 1) + (n - (m + 1)) := by omega
    conv_lhs => rw [parts]
    rw [Runs.events_add, Runs.events_succ, last, Option.toList_some]
  have length : (Runs.events next (accessedNumber config) start n).length ≤ n :=
    (List.length_filterMap_le _ _).trans List.length_range.le
  have fits : (Runs.events next (accessedNumber config) start n).reverse.length + 1 < 2 ^ 64 := by
    rw [List.length_reverse]
    omega
  have apart : config.block address ∉ ((Runs.events next (accessedNumber config)
      (next^[m + 1] start) (n - (m + 1))).reverse.filter
        (config.setOf · == config.setOf (config.block address))) := by
    intro member
    obtain ⟨j, before, emitted⟩ :=
      Runs.mem_events.mp (List.mem_reverse.mp (List.mem_of_mem_filter member))
    rw [← Function.iterate_add_apply] at emitted
    exact since (j + (m + 1)) (by omega) (by omega) emitted
  rw [((lruInv_run geometry new (by omega)).access geometry fits address operation).1, split,
    List.reverse_append, List.reverse_append, List.filter_append, List.reverse_singleton,
    List.singleton_append, List.filter_cons_of_pos (by simp), Lru.recent_since apart,
    List.filter_reverse, List.toFinset_reverse]

/-- The other blocks of the set of `address` that were accessed between cycles `m` and `n`. -/
def othersBetween (config : CacheConfig) (start : CycleState Cache) (address : U64) (m n : ℕ)
    : Finset ℕ :=
  ((Runs.events next (accessedNumber config) (next^[m + 1] start) (n - (m + 1))).filter
    (config.setOf · == config.setOf (config.block address))).toFinset

/-- With powers of two the line of a cancelled miss has been refilled if and only if `ways` other
blocks of its set were accessed since, as long as the stamps have not wrapped around.
-/
theorem refilled_iff_others {iCache : CacheConfig} (dCache : CacheConfig)
    (geometry : iCache.Indexable) (past : CycleState Cache) (mem : MemoryStore) {address : U64}
    {m r n : ℕ} (short : n + 1 < 2 ^ 64)
    (cancelled : CancelledMiss (initSimulator past iCache dCache mem) address m r)
    (access : NextAccess (initSimulator past iCache dCache mem) address r n)
    : (initSimulator past iCache dCache mem).Refilled address m n
      ↔ iCache.ways.toNat
        ≤ (othersBetween iCache (initSimulator past iCache dCache mem) address m n).card := by
  generalize begins : initSimulator past iCache dCache mem = start at *
  have new : start.iCache = Cache.new iCache := by rw [← begins]; rfl
  have formed : start.iCache.WellFormed := by
    rw [new]
    exact Cache.wellFormed_new geometry.numSets_pos
  -- the numbers of the blocks tell them apart as the cache does
  have number (j : ℕ)
      : accessedNumber iCache (next^[j] start) = some (iCache.block address)
        ↔ (next^[j] start).accessedBlock = some (start.iCache.block address) := by
    unfold accessedNumber accessedBlock
    cases (next^[j] start).accessed with
    | none => simp
    | some other =>
        rw [Option.map_some, Option.map_some, Option.some.injEq, Option.some.injEq, iCache_block,
          new, Cache.block_new_iff geometry]
  have last : (next^[m] start).accessedBlock = some (start.iCache.block address) := by
    rw [accessedBlock, accessed_of_target cancelled.target, Option.map_some, iCache_block]
  obtain ⟨current, accesses, _⟩ := Option.map_eq_some_iff.mp access.accesses
  have sameNumber : iCache.block current = iCache.block address := by
    have now := (number n).mpr access.accesses
    rw [accessedNumber, accesses] at now
    exact Option.some.inj now
  have lastNumber : accessedNumber iCache (next^[m] start) = some (iCache.block current) := by
    rw [sameNumber]
    exact (number m).mpr last
  have since : ∀ j, m < j → j < n
      → accessedNumber iCache (next^[j] start) ≠ some (iCache.block current) := by
    intro j after before
    rw [sameNumber, Ne, number]
    exact access.since cancelled after before
  have hits := hits_since geometry new (cancelled.later.trans_le access.onwards) short lastNumber
    since .read
  rw [← access.misses_iff cancelled formed accesses, ← Bool.not_eq_true, hits, not_lt, sameNumber]
  rfl

end RiscvSim.CycleState
