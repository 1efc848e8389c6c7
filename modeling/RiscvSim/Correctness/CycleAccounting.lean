import RiscvSim.Correctness.CancelledMisses
import RiscvSim.Correctness.MissFreeze
import RiscvSim.Correctness.ProgramResult

/-! Every cycle of a run is accounted for: it passes an instruction on, or it is lost to a D-cache
miss, a hazard, a taken transfer or an empty IF, and IF is empty only behind I-cache misses.
-/

namespace RiscvSim.CycleState

section Signals

variable {κ : Type} (s : CycleState κ)

end Signals

variable {κ : Type} [CacheUnit κ] {s : CycleState κ} {c : ℕ}

-----------------------------------------------------------------------------------------
-- One cycle
-----------------------------------------------------------------------------------------

section Moving

variable (l : s.LatchInv) (calm : s.wbMemException = false) (moving : s.dStallActive = false)
  (running : s.memInst.isHalt = false)
include l calm moving running

variable (legal : s.idInst.isLegal = true) (ahead : s.exInst.isHalt = false)
include legal ahead

end Moving

/-- One cycle of the D-cache stall: it begins with a miss, or it runs down. -/
theorem dStallLeft_step (s : CycleState Cache)
    : s.dStallActive.toNat + s.next.dStallLeft.toNat
      = s.dStallLeft.toNat + s.missesDCache.toNat * s.dCache.config.missLatency.toNat := by
  cases frozen : s.dStallActive with
  | true =>
      have positive := dStallActive_iff.mp frozen
      have quiet : s.missesDCache = false := by
        simp [missesDCache, accessesDCache, memActive, frozen]
      rw [next_dStallLeft_frozen frozen, quiet, Bool.toNat_true, Bool.toNat_false]
      omega
  | false =>
      have idle : s.dStallLeft.toNat = 0 := by
        by_contra positive
        simp [dStallActive_iff.mpr (Nat.pos_of_ne_zero positive)] at frozen
      have counter : s.next.dStallLeft
          = if s.missesDCache then CacheUnit.missLatency s.dCacheAccess.2 else s.dStallTick := rfl
      rw [counter, idle, dStallTick_inactive frozen]
      cases s.missesDCache with
      | true => simp [dCacheAccess, access_missLatency]
      | false => simp

section Fetch

variable (f : s.FrontInv) (calm : s.wbMemException = false)
  (quiet : s.idIllegalException = false) (untaken : s.branchTaken = false)
include f calm quiet untaken

end Fetch

end RiscvSim.CycleState
