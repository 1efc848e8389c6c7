import RiscvSim.Pipeline.CacheLines
import RiscvSim.Pipeline.FrontEnd

/-! Which address the IF stage looks up in the I-cache in a cycle, and what the lookup does to
the cache.
-/

namespace RiscvSim

theorem access_missLatency (cache : Cache) (address : U64) (operation : CacheOperation)
    : CacheUnit.missLatency (CacheUnit.access cache address operation).2
      = cache.config.missLatency :=
  congrArg CacheConfig.missLatency (Cache.access_config address operation)

namespace CycleState

section Lookups

variable {κ : Type} [CacheUnit κ] (s : CycleState κ)

/-- The address that IF looks up in the I-cache to fetch from it in this cycle. -/
def fetchTarget : Option U64 :=
  if s.wbMemException then some s.nextPC
  else if s.idIllegalException then none
  else if s.branchTaken then some s.nextPC
  else if s.dStallActive || s.hazardStall || s.iStallActive || s.justFinishedIStall then none
  else some s.pc

/-- Whether that lookup hits. -/
def fetchHits : Option Bool :=
  s.fetchTarget.map fun target => (CacheUnit.access s.iCache target .read).1

theorem fetchThrough_hit {target : U64} (iStallLeft : U64)
    (onMiss onHit : StageStatus)
    (hit : (CacheUnit.access s.iCache target .read).1 = true)
    : s.fetchThrough target iStallLeft onMiss onHit
      = { newIF := { s.simAfterID.simIF target with status := onHit }
          iCache := (CacheUnit.access s.iCache target .read).2
          iStallLeft := iStallLeft
          pc := target + 4
          squashNextIF := false
          justFinishedIStall := false } :=
  if_pos hit

theorem fetchThrough_miss {target : U64} (iStallLeft : U64)
    (onMiss onHit : StageStatus)
    (miss : (CacheUnit.access s.iCache target .read).1 = false)
    : s.fetchThrough target iStallLeft onMiss onHit
      = { newIF := fetchSlot target onMiss
          iCache := (CacheUnit.access s.iCache target .read).2
          iStallLeft := CacheUnit.missLatency (CacheUnit.access s.iCache target .read).2
          pc := target
          squashNextIF := false
          justFinishedIStall := false } :=
  if_neg (Bool.eq_false_iff.mp miss)

theorem fetchThrough_iCache (target iStallLeft : U64) (onMiss onHit : StageStatus)
    : (s.fetchThrough target iStallLeft onMiss onHit).iCache
      = (CacheUnit.access s.iCache target .read).2 := by
  cases hit : (CacheUnit.access s.iCache target .read).1 with
  | true => rw [s.fetchThrough_hit _ _ _ hit]
  | false => rw [s.fetchThrough_miss _ _ _ hit]

/-- An illegal instruction leaves an access of PC behind, which fetches nothing. -/
def leavesAccess : Bool := !s.wbMemException && s.idIllegalException

/-- The address with which `access` is called in this cycle. -/
def accessed : Option U64 := if s.leavesAccess then some s.pc else s.fetchTarget

/-- Fetching is redirected in this cycle. -/
def redirects : Bool := s.wbMemException || s.idIllegalException || s.branchTaken

/-- `simIF` is called without an access. -/
def fetchesDirectly (s : CycleState κ) : Bool :=
  !s.redirects && !s.iStallActive
  && (if s.dStallActive then s.ifInst.isNop else !s.hazardStall && s.justFinishedIStall)

/-- A lookup is a fetch through the I-cache. -/
theorem fetch_of_target {target : U64} (lookup : s.fetchTarget = some target)
    : ∃ iStallLeft onMiss onHit,
        (iStallLeft = 0 ∨ iStallLeft = s.iStallAfterID)
        ∧ s.fetch = s.fetchThrough target iStallLeft onMiss onHit := by
  unfold fetchTarget at lookup
  unfold fetch
  by_cases trap : s.wbMemException = true
  · rw [if_pos trap, Option.some.injEq] at lookup
    rw [if_pos trap, lookup]
    exact ⟨_, _, _, .inl rfl, rfl⟩
  rw [if_neg trap] at lookup ⊢
  by_cases illegal : s.idIllegalException = true
  · rw [if_pos illegal] at lookup
    cases lookup
  rw [if_neg illegal] at lookup ⊢
  by_cases taken : s.branchTaken = true
  · rw [if_pos taken, Option.some.injEq] at lookup
    rw [if_pos taken, lookup]
    exact ⟨_, _, _, .inr rfl, rfl⟩
  rw [if_neg taken] at lookup ⊢
  by_cases waits
    : (s.dStallActive || s.hazardStall || s.iStallActive || s.justFinishedIStall) = true
  · rw [if_pos waits] at lookup
    cases lookup
  rw [if_neg waits, Option.some.injEq] at lookup
  simp only [Bool.or_eq_true, not_or] at waits
  obtain ⟨⟨⟨frozen, hazard⟩, active⟩, finished⟩ := waits
  rw [if_neg frozen, if_neg hazard, if_neg active, if_neg finished, lookup]
  exact ⟨_, _, _, .inr rfl, rfl⟩

/-- An illegal instruction leaves an access behind, without a fetch. -/
theorem fetch_of_illegal (sound : s.wbMemException = false)
    (illegal : s.idIllegalException = true)
    : s.fetch
      = { newIF := fetchSlot s.pc .normal
          iCache := (CacheUnit.access s.iCache s.pc .read).2
          iStallLeft := s.iStallAfterID
          pc := s.nextPC
          squashNextIF := true
          justFinishedIStall := false } := by
  rw [fetch, if_neg (Bool.eq_false_iff.mp sound), if_pos illegal]

end Lookups

/-- The first cycle looks up the word at 0, unless the flag claims that a stall has just ended.
-/
theorem fetchTarget_initCycle {κ : Type} (past : CycleState κ) (iCache dCache : κ)
    (mem : MemoryStore)
    : (initCycle past iCache dCache mem).fetchTarget
      = if past.justFinishedIStall then none else some 0 := by
  have trap : (initCycle past iCache dCache mem).wbMemException = false := rfl
  have illegal : (initCycle past iCache dCache mem).idIllegalException = false := rfl
  have taken : (initCycle past iCache dCache mem).branchTaken = false := rfl
  have frozen : (initCycle past iCache dCache mem).dStallActive = false := rfl
  have hazard : (initCycle past iCache dCache mem).hazardStall = false := rfl
  have active : (initCycle past iCache dCache mem).iStallActive = false := rfl
  simp only [fetchTarget, trap, illegal, taken, frozen, hazard, active]
  rfl

-----------------------------------------------------------------------------------------
-- The IF stage without an access
-----------------------------------------------------------------------------------------

section Waiting

variable {κ : Type} {s : CycleState κ}

theorem redirects_false (quiet : s.redirects = false)
    : s.wbMemException = false ∧ s.idIllegalException = false ∧ s.branchTaken = false := by
  simpa [redirects, and_assoc] using quiet

/-- A cycle without an access redirects nothing. -/
theorem redirects_idle (idle : s.accessed = none) : s.redirects = false := by
  by_contra redirected
  simp only [redirects, Bool.not_eq_false] at redirected
  unfold accessed leavesAccess fetchTarget at idle
  cases trap : s.wbMemException with
  | true => simp [trap] at idle
  | false =>
      cases illegal : s.idIllegalException with
      | true => simp [trap, illegal] at idle
      | false => simp_all

/-- A lookup that no redirect asks for is one of PC, in a cycle in which nothing holds IF. -/
theorem fetchTarget_quiet {target : U64} (quiet : s.redirects = false)
    (lookup : s.fetchTarget = some target)
    : s.pc = target ∧ s.held = false ∧ s.iStallActive = false ∧ s.justFinishedIStall = false := by
  obtain ⟨trap, illegal, taken⟩ := redirects_false quiet
  simp only [fetchTarget, trap, illegal, taken, Bool.false_eq_true, if_false] at lookup
  split at lookup
  · cases lookup
  · rename_i waits
    simp only [Bool.or_eq_true, not_or, Bool.not_eq_true] at waits
    exact ⟨Option.some.inj lookup, held_free.mpr waits.1.1, waits.1.2, waits.2⟩

/-- A cycle with a lookup completes no fetch without one. -/
theorem fetchesDirectly_lookup {target : U64} (lookup : s.fetchTarget = some target)
    : s.fetchesDirectly = false := by
  cases quiet : s.redirects with
  | true => simp [fetchesDirectly, quiet]
  | false =>
      obtain ⟨_, moving, _, unfinished⟩ := fetchTarget_quiet quiet lookup
      simp [fetchesDirectly, (held_free.mp moving).1, unfinished]

variable [CacheUnit κ]

theorem fetch_directly (direct : s.fetchesDirectly = true) : s.fetch = s.fetchDirect := by
  simp only [fetchesDirectly, Bool.and_eq_true, Bool.not_eq_true'] at direct
  obtain ⟨⟨quiet, inactive⟩, completes⟩ := direct
  obtain ⟨trap, illegal, taken⟩ := redirects_false quiet
  cases frozen : s.dStallActive with
  | true =>
      rw [if_pos frozen] at completes
      simp [fetch, trap, illegal, taken, frozen, inactive, completes]
  | false =>
      rw [if_neg (by simp [frozen]), Bool.and_eq_true, Bool.not_eq_true'] at completes
      simp [fetch, trap, illegal, taken, frozen, inactive, completes]

/-- Without an access IF completes a fetch, shows the slot of a miss that is waited out, or
keeps what it holds.
-/
theorem fetch_idle (idle : s.accessed = none)
    : s.fetchesDirectly = true
      ∨ (s.fetchesDirectly = false ∧ s.iStallActive = true
        ∧ s.fetch = s.fetchHold (fetchSlot s.pc .normal) (!s.held))
      ∨ (s.fetchesDirectly = false ∧ s.held = true ∧ s.iStallActive = false
        ∧ ∃ status, s.fetch = s.fetchHold { s.ifInst with status := status } false) := by
  have quiet := redirects_idle idle
  obtain ⟨trap, illegal, taken⟩ := redirects_false quiet
  cases direct : s.fetchesDirectly with
  | true => exact .inl rfl
  | false =>
      right
      unfold fetch
      rw [if_neg (by simp [trap]), if_neg (by simp [illegal]), if_neg (by simp [taken])]
      cases active : s.iStallActive with
      | true =>
          left
          refine ⟨rfl, rfl, ?_⟩
          unfold held
          cases s.dStallActive <;> cases s.hazardStall <;> rfl
      | false =>
          right
          cases frozen : s.dStallActive with
          | true =>
              have full : s.ifInst.isNop = false := by
                simpa [fetchesDirectly, quiet, active, frozen] using direct
              refine ⟨rfl, by simp [held, frozen], rfl, s.ifInst.status, ?_⟩
              rw [if_pos rfl, if_neg Bool.false_ne_true, if_neg (by simp [full])]
          | false =>
              cases hazard : s.hazardStall with
              | true =>
                  refine ⟨rfl, by simp [held, hazard], rfl, ?_⟩
                  cases branch : s.branchDataStall with
                  | true => exact ⟨.speculative, rfl⟩
                  | false => exact ⟨s.ifInst.status, rfl⟩
              | false =>
                  have unfinished : s.justFinishedIStall = false := by
                    simpa [fetchesDirectly, quiet, active, frozen, hazard] using direct
                  simp [accessed, leavesAccess, fetchTarget, trap, illegal, taken, active,
                    frozen, hazard, unfinished] at idle

/-- Without an access the I-cache and its stall counter are left alone. -/
theorem fetch_of_none (idle : s.accessed = none)
    : s.fetch.iCache = s.iCache ∧ s.fetch.iStallLeft = s.iStallAfterID := by
  rcases fetch_idle idle with direct | ⟨_, _, same⟩ | ⟨_, _, _, _, same⟩
  · rw [fetch_directly direct]
    exact ⟨rfl, rfl⟩
  · rw [same]
    exact ⟨rfl, rfl⟩
  · rw [same]
    exact ⟨rfl, rfl⟩

end Waiting

/-- The I-cache is accessed at most once in a cycle. -/
theorem fetch_accessed {κ : Type} [CacheUnit κ] (s : CycleState κ)
    : s.fetch.iCache
      = match s.accessed with
        | none => s.iCache
        | some address => (CacheUnit.access s.iCache address .read).2 := by
  cases access : s.accessed with
  | none => exact (fetch_of_none access).1
  | some address =>
      unfold accessed at access
      split at access
      · rename_i left
        simp only [leavesAccess, Bool.and_eq_true, Bool.not_eq_true'] at left
        obtain rfl : s.pc = address := Option.some.inj access
        rw [s.fetch_of_illegal left.1 left.2]
      · obtain ⟨_, _, _, _, same⟩ := s.fetch_of_target access
        rw [same, fetchThrough_iCache]

/-- A fetch through the I-cache is the access of its cycle. -/
theorem accessed_of_target {κ : Type} [CacheUnit κ] {s : CycleState κ} {address : U64}
    (target : s.fetchTarget = some address) : s.accessed = some address := by
  have fetches : s.leavesAccess = false := by
    cases trap : s.wbMemException with
    | true => simp [leavesAccess, trap]
    | false =>
        cases illegal : s.idIllegalException with
        | true => simp [fetchTarget, trap, illegal] at target
        | false => simp [leavesAccess, illegal]
  rwa [accessed, fetches, if_neg Bool.false_ne_true]

theorem wellFormed_next {s : CycleState Cache} (h : s.iCache.WellFormed)
    : s.next.iCache.WellFormed := by
  show s.fetch.iCache.WellFormed
  rw [fetch_accessed]
  cases s.accessed with
  | none => exact h
  | some address => exact h.access address .read

/-- The I-cache keeps its configuration. -/
theorem fetch_iCache_config (s : CycleState Cache)
    : s.fetch.iCache.config = s.iCache.config := by
  rw [fetch_accessed]
  split
  · rfl
  · exact Cache.access_config _ _

theorem iCache_config (start : CycleState Cache) (n : ℕ)
    : (next^[n] start).iCache.config = start.iCache.config := by
  induction n with
  | zero => rfl
  | succ n ih =>
      rw [Function.iterate_succ_apply']
      exact (next^[n] start).fetch_iCache_config.trans ih

-----------------------------------------------------------------------------------------
-- The stall counter
-----------------------------------------------------------------------------------------

/-- While a miss is waited out and fetching is not redirected, the I-cache is not accessed. -/
theorem waits {κ : Type} [CacheUnit κ] {s : CycleState κ} (quiet : s.redirects = false)
    (active : s.iStallActive = true)
    : s.accessed = none ∧ s.next.iStallLeft = s.iStallTick := by
  simp only [redirects, Bool.or_eq_false_iff] at quiet
  obtain ⟨⟨trap, illegal⟩, taken⟩ := quiet
  have idle : s.accessed = none := by
    simp [accessed, leavesAccess, fetchTarget, trap, illegal, taken, active]
  refine ⟨idle, ?_⟩
  show s.fetch.iStallLeft = s.iStallTick
  rw [(fetch_of_none idle).2, iStallAfterID, taken]
  simp

theorem toNat_iStallTick {κ : Type} (s : CycleState κ)
    : s.iStallTick.toNat = s.iStallLeft.toNat - 1 := by
  unfold iStallTick
  split <;> bv_omega

/-- The stages before IF let the stall counter only fall. -/
theorem iStallAfterID_le {κ : Type} (s : CycleState κ)
    : s.iStallAfterID.toNat ≤ s.iStallLeft.toNat - 1 := by
  unfold iStallAfterID
  split
  · exact Nat.zero_le _
  · exact s.toNat_iStallTick.le

/-- A fetch that misses starts the stall. -/
theorem next_missed {s : CycleState Cache} {address : U64}
    (target : s.fetchTarget = some address) (misses : s.fetchHits = some false)
    : s.next.iStallLeft = s.iCache.config.missLatency := by
  obtain ⟨iStallLeft, onMiss, onHit, _, same⟩ := s.fetch_of_target target
  rw [fetchHits, target] at misses
  have miss : (CacheUnit.access s.iCache address .read).1 = false := Option.some.inj misses
  show s.fetch.iStallLeft = _
  rw [same, s.fetchThrough_miss _ _ _ miss]
  exact access_missLatency ..

/-- After a cycle the stall counter is the miss latency, if a fetch missed, or has fallen. -/
theorem next_iStallLeft (s : CycleState Cache)
    : s.next.iStallLeft.toNat ≤ s.iStallLeft.toNat - 1
      ∨ (s.fetchHits = some false ∧ s.next.iStallLeft = s.iCache.config.missLatency) := by
  have fallen := s.iStallAfterID_le
  cases access : s.accessed with
  | none =>
      left
      show s.fetch.iStallLeft.toNat ≤ _
      rwa [(fetch_of_none access).2]
  | some address =>
      unfold accessed at access
      split at access
      · rename_i leaves
        simp only [leavesAccess, Bool.and_eq_true, Bool.not_eq_true'] at leaves
        left
        show s.fetch.iStallLeft.toNat ≤ _
        rwa [s.fetch_of_illegal leaves.1 leaves.2]
      · obtain ⟨iStallLeft, onMiss, onHit, before, same⟩ := s.fetch_of_target access
        cases hit : (CacheUnit.access s.iCache address .read).1 with
        | true =>
            left
            show s.fetch.iStallLeft.toNat ≤ _
            rw [same, s.fetchThrough_hit _ _ _ hit]
            rcases before with rfl | rfl
            · exact Nat.zero_le _
            · exact fallen
        | false =>
            right
            have misses : s.fetchHits = some false := by
              rw [fetchHits, access, Option.map_some, hit]
            exact ⟨misses, next_missed access misses⟩

end CycleState
end RiscvSim
