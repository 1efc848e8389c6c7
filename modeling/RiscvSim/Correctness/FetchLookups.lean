import RiscvSim.Correctness.CacheReplacement
import RiscvSim.Correctness.IllegalTraps
import RiscvSim.Pipeline.Lookups

/-! How often the instructions that enter ID were looked up in the I-cache: an observer assigns
every access of the I-cache to the fetch it was made for.
-/

namespace RiscvSim

/-- The accesses of the I-cache, each by its address, assigned to the fetches of a run. -/
structure Tally where
  /-- The lookups of the fetch in progress. -/
  pending : List U64 := []
  /-- The lookups of the fetch that delivered the instruction in IF. -/
  inIF : List U64 := []
  /-- The instructions that have entered ID, by PC, with the lookups of their fetches. -/
  entered : List (U64 × List U64) := []
  /-- The accesses for fetches that were redirected, or that an illegal instruction left. -/
  wasted : List U64 := []

/-- The lookups of fetches that have not reached ID, or never will. -/
def Tally.others (tally : Tally) : List U64 := tally.pending ++ tally.inIF ++ tally.wasted

/-- All accesses of a tally. -/
def Tally.size (tally : Tally) : ℕ :=
  (tally.entered.map fun fetched => fetched.2.length).sum + tally.others.length

namespace CycleState

variable {κ : Type}

/-- `simIF` is called, and delivers an instruction to IF. -/
def delivers [CacheUnit κ] (s : CycleState κ) : Bool :=
  s.fetchesDirectly || s.fetchHits == some true

/-- The lookups of the fetch in progress, with the one of this cycle. -/
def lookups (s : CycleState κ) (tally : Tally) : List U64 :=
  (if s.redirects then [] else tally.pending) ++ s.fetchTarget.toList

/-- The instruction in IF moves to ID or is dropped. -/
def leavesIF (s : CycleState κ) : Bool := s.redirects || s.decodes

/-- What the observer records in one cycle. -/
def account [CacheUnit κ] (s : CycleState κ) (tally : Tally) : Tally where
  pending := if s.delivers then [] else s.lookups tally
  inIF := if s.delivers then s.lookups tally else if s.leavesIF then [] else tally.inIF
  entered := tally.entered ++ (s.entersID.map fun inst => (inst.pc, tally.inIF)).toList
  wasted :=
    tally.wasted
    ++ (if s.redirects then tally.pending else [])
    ++ (if (s.delivers || s.leavesIF) && s.entersID.isNone then tally.inIF else [])
    ++ (if s.leavesAccess then [s.pc] else [])

/-- The accesses of the first `n` cycles of a run. -/
def tally [CacheUnit κ] (start : CycleState κ) (n : ℕ) : Tally :=
  ((Runs.observed next account)^[n] (start, {})).2

/-- PC is looked up while IF shows the empty slot of a miss: nothing redirects fetching or
holds IF and the stall is over, but `justFinishedIStall` is not set.
-/
def looksUpAgain (s : CycleState κ) : Bool :=
  !s.redirects && !s.held && !s.iStallActive && !s.justFinishedIStall
  && s.ifInst.isNop && !s.squashNextIF

/-- ID is held as the wait for the I-cache ends, and no D-cache stall follows: by a hazard or a
D-cache stall in its last cycle, or by a hazard in the cycle that would complete the fetch.
-/
def stallEndsHeld [CacheUnit κ] (s : CycleState κ) : Bool :=
  !s.redirects && s.dStallLeftNext == 0
  && ((s.iStallLeft == 2 && s.held) || (s.iStallLeft == 1 && s.hazardStall))

theorem tally_succ [CacheUnit κ] (start : CycleState κ) (n : ℕ)
    : start.tally (n + 1) = (next^[n] start).account (start.tally n) :=
  Runs.observed_iterate_snd_succ account start {} n

-----------------------------------------------------------------------------------------
-- One lookup for each fetch
-----------------------------------------------------------------------------------------

/-- The fetch in progress, or the one that delivered the instruction in IF, was looked up once.
An illegal instruction leaves no fetch behind it, and what is fetched while it waits in ID was
not looked up at all.
-/
structure TallyInv (s : CycleState κ) (tally : Tally) : Prop where
  full
    : s.ifInst.isNop = false
      → tally.pending = [] ∧ (s.idInst.isLegal = true → tally.inIF = [s.ifInst.pc])
  empty : s.ifInst.isNop = true → tally.inIF = []
  missed : s.ifInst.isNop = true → s.squashNextIF = false → tally.pending = [s.pc]
  squashed : s.squashNextIF = true → tally.pending = []
  finished : s.justFinishedIStall = true → s.ifInst.isNop = true ∧ s.squashNextIF = false
  once : ∀ fetched ∈ tally.entered, fetched.2 = [fetched.1]

section Step

variable [CacheUnit κ] {s : CycleState κ} {tally : Tally}

/-- The instruction that enters ID was looked up once. -/
theorem TallyInv.once_account (h : TallyInv s tally) (l : s.LatchInv) (front : s.FrontInv)
    : ∀ fetched ∈ (s.account tally).entered, fetched.2 = [fetched.1] := by
  intro fetched member
  rcases List.mem_append.mp member with before | now
  · exact h.once fetched before
  obtain ⟨inst, enters, rfl⟩ := Option.map_eq_some_iff.mp (Option.mem_toList.mp now)
  unfold entersID at enters
  split at enters
  case isFalse => cases enters
  case isTrue decodes =>
    rw [Bool.and_eq_true] at decodes
    obtain rfl := Option.some.inj enters
    show tally.inIF = [s.newID.pc]
    rw [newID_pc decodes.1]
    exact (h.full (decodes_clear decodes.1).2.2.2.2).2 (front.legal_ahead l decodes.1)

/-- A fetch of `target` is delivered to IF, after one lookup. -/
theorem TallyInv.of_delivered {target : U64} {status : StageStatus}
    (delivers : s.delivers = true)
    (latch : s.next.ifInst = { s.simAfterID.simIF target with status := status })
    (squash : s.next.squashNextIF = false) (finished : s.next.justFinishedIStall = false)
    (lookups : s.next.idInst.isLegal = true → s.lookups tally = [target])
    (once : ∀ fetched ∈ (s.account tally).entered, fetched.2 = [fetched.1])
    : TallyInv s.next (s.account tally) := by
  have full : s.next.ifInst.isNop = false := by
    rw [latch]
    exact simIF_isNop _ _
  have pc : s.next.ifInst.pc = target := by
    rw [latch]
    exact simIF_pc _ _
  exact {
    full := fun _ => by
      refine ⟨if_pos delivers, fun legal => ?_⟩
      rw [pc, ← lookups legal]
      exact if_pos delivers
    empty := fun slot => by simp [full] at slot
    missed := fun slot => by simp [full] at slot
    squashed := fun squashes => by simp [squash] at squashes
    finished := fun finishes => by simp [finished] at finishes
    once := once }

/-- IF shows the slot of a fetch of `target` that has missed. -/
theorem TallyInv.of_slot {target : U64} (withheld : s.delivers = false)
    (slot : s.next.ifInst.isNop = true) (pc : s.next.pc = target)
    (squash : s.next.squashNextIF = false) (lookups : s.lookups tally = [target])
    (emptied : s.leavesIF = false → tally.inIF = [])
    (once : ∀ fetched ∈ (s.account tally).entered, fetched.2 = [fetched.1])
    : TallyInv s.next (s.account tally) where
  full := fun full => by simp [slot] at full
  empty := fun _ => by
    show (if s.delivers then _ else if s.leavesIF then [] else tally.inIF) = []
    rw [if_neg (by simp [withheld])]
    cases leaves : s.leavesIF with
    | true => rfl
    | false => exact emptied leaves
  missed := fun _ _ => by
    rw [pc, ← lookups]
    exact if_neg (by simp [withheld])
  squashed := fun squashes => by simp [squash] at squashes
  finished := fun _ => ⟨slot, squash⟩
  once := once

/-- A fetch through the I-cache that is the first lookup of its address. -/
theorem TallyInv.of_lookup {target iStallLeft : U64} {onMiss onHit : StageStatus}
    (lookup : s.fetchTarget = some target)
    (through : s.fetch = s.fetchThrough target iStallLeft onMiss onHit)
    (first : s.lookups tally = [target])
    (emptied : s.leavesIF = false → tally.inIF = [])
    (once : ∀ fetched ∈ (s.account tally).entered, fetched.2 = [fetched.1])
    : TallyInv s.next (s.account tally) := by
  cases hit : (CacheUnit.access s.iCache target .read).1 with
  | true =>
      have delivers : s.delivers = true := by simp [delivers, fetchHits, lookup, hit]
      have result := through.trans (s.fetchThrough_hit _ _ _ hit)
      exact .of_delivered delivers (congrArg FetchResult.newIF result)
        (congrArg FetchResult.squashNextIF result)
        (congrArg FetchResult.justFinishedIStall result) (fun _ => first) once
  | false =>
      have withheld : s.delivers = false := by
        simp [delivers, fetchHits, lookup, hit, fetchesDirectly_lookup lookup]
      have result := through.trans (s.fetchThrough_miss _ _ _ hit)
      exact .of_slot withheld (congrArg (fun fetched => fetched.newIF.isNop) result)
        (congrArg FetchResult.pc result) (congrArg FetchResult.squashNextIF result) first
        emptied once

omit [CacheUnit κ] in
/-- The first lookup of a fetch is one of PC if nothing redirects, and then no other waits. -/
theorem TallyInv.first_lookup (h : TallyInv s tally) (fresh : s.looksUpAgain = false)
    {target : U64} (lookup : s.fetchTarget = some target) : s.lookups tally = [target] := by
  unfold lookups
  rw [lookup, Option.toList_some]
  cases quiet : s.redirects with
  | true => rfl
  | false =>
      have idle : tally.pending = [] := by
        cases slot : s.ifInst.isNop with
        | false => exact (h.full slot).1
        | true =>
            obtain ⟨_, moving, inactive, unfinished⟩ := fetchTarget_quiet quiet lookup
            apply h.squashed
            simpa [looksUpAgain, quiet, moving, inactive, unfinished, slot] using fresh
      rw [idle]
      rfl

omit [CacheUnit κ] in
/-- What a lookup finds in IF moves on. -/
theorem FrontInv.leavesIF_lookup (front : s.FrontInv) {target : U64}
    (lookup : s.fetchTarget = some target) (full : s.ifInst.isNop = false)
    : s.leavesIF = true := by
  unfold leavesIF
  cases quiet : s.redirects with
  | true => rfl
  | false =>
      obtain ⟨_, moving, inactive, _⟩ := fetchTarget_quiet quiet lookup
      have unsquashed : s.squashNextIF = false := by
        by_contra squash
        have empty := (front.trap (front.squash (by simpa using squash))).2.2.1
        rw [full] at empty
        exact squash empty.symm
      simp [decodes_eq, moving, unsquashed, (redirects_false quiet).2.2, inactive, full]

/-- An illegal instruction abandons the fetch in progress. -/
theorem TallyInv.of_illegal (leaves : s.leavesAccess = true)
    (once : ∀ fetched ∈ (s.account tally).entered, fetched.2 = [fetched.1])
    : TallyInv s.next (s.account tally) := by
  simp only [leavesAccess, Bool.and_eq_true, Bool.not_eq_true'] at leaves
  obtain ⟨sound, illegal⟩ := leaves
  have redirects : s.redirects = true := by simp [redirects, illegal]
  have idle : s.fetchTarget = none := by simp [fetchTarget, sound, illegal]
  have withheld : s.delivers = false := by
    simp [delivers, fetchesDirectly, redirects, fetchHits, idle]
  have result := s.fetch_of_illegal sound illegal
  have slot : s.next.ifInst.isNop = true :=
    congrArg (fun fetched => fetched.newIF.isNop) result
  have squash : s.next.squashNextIF = true := congrArg FetchResult.squashNextIF result
  have finished : s.next.justFinishedIStall = false :=
    congrArg FetchResult.justFinishedIStall result
  exact {
    full := fun full => by simp [slot] at full
    empty := fun _ => by simp [account, withheld, leavesIF, redirects]
    missed := fun _ squashes => by simp [squash] at squashes
    squashed := fun _ => by simp [account, withheld, lookups, redirects, idle]
    finished := fun finishes => by simp [finished] at finishes
    once := once }

/-- While ID is held it keeps its instruction. -/
theorem next_idInst_held (frozen : s.held = true) (trap : s.wbMemException = false)
    : s.next.idInst = s.idInst := by
  rw [next_idInst trap, newID_held frozen]

/-- A fetch is completed without a lookup: by the one that missed before, unless an illegal
instruction waits in ID.
-/
theorem TallyInv.of_direct (h : TallyInv s tally) (front : s.FrontInv)
    (direct : s.fetchesDirectly = true) (same : s.lookups tally = tally.pending)
    (once : ∀ fetched ∈ (s.account tally).entered, fetched.2 = [fetched.1])
    : TallyInv s.next (s.account tally) := by
  have delivers : s.delivers = true := by simp [delivers, direct]
  have result := fetch_directly direct
  have missed (legal : s.next.idInst.isLegal = true) : tally.pending = [s.pc] := by
    simp only [fetchesDirectly, Bool.and_eq_true, Bool.not_eq_true'] at direct
    obtain ⟨⟨quiet, _⟩, completes⟩ := direct
    cases frozen : s.dStallActive with
    | true =>
        rw [if_pos frozen] at completes
        apply h.missed completes
        by_contra squash
        have illegal := front.squash (by simpa using squash)
        rw [next_idInst_held (by simp [held, frozen]) (redirects_false quiet).1, illegal] at legal
        exact Bool.false_ne_true legal
    | false =>
        rw [if_neg (by simp [frozen]), Bool.and_eq_true] at completes
        exact h.missed (h.finished completes.2).1 (h.finished completes.2).2
  have latch
      : s.next.ifInst
        = { s.simAfterID.simIF s.pc with status := (s.simAfterID.simIF s.pc).status } :=
    congrArg FetchResult.newIF result
  exact .of_delivered delivers latch (congrArg FetchResult.squashNextIF result)
    (congrArg FetchResult.justFinishedIStall result) (fun legal => same.trans (missed legal)) once

/-- The slot of a miss waits for the I-cache. -/
theorem TallyInv.of_wait (h : TallyInv s tally) (front : s.FrontInv)
    (active : s.iStallActive = true) (withheld : s.delivers = false)
    (same : s.lookups tally = tally.pending) {finished : Bool}
    (result : s.fetch = s.fetchHold (fetchSlot s.pc .normal) finished)
    (once : ∀ fetched ∈ (s.account tally).entered, fetched.2 = [fetched.1])
    : TallyInv s.next (s.account tally) := by
  have empty : s.ifInst.isNop = true := front.waiting (iStallLeft_active active)
  have unsquashed : s.squashNextIF = false := by
    by_contra squash
    exact iStallLeft_active active (front.trap (front.squash (by simpa using squash))).2.1
  exact .of_slot withheld (congrArg (fun fetched => fetched.newIF.isNop) result)
    (congrArg FetchResult.pc result) (congrArg FetchResult.squashNextIF result)
    (same.trans (h.missed empty unsquashed)) (fun _ => h.empty empty) once

/-- IF keeps what it holds. -/
theorem TallyInv.of_hold (h : TallyInv s tally) (frozen : s.held = true)
    (trap : s.wbMemException = false) (withheld : s.delivers = false)
    (kept : s.leavesIF = false)
    (unsquashed : s.ifInst.isNop = true → s.squashNextIF = false)
    (same : s.lookups tally = tally.pending) {status : StageStatus}
    (result : s.fetch = s.fetchHold { s.ifInst with status := status } false)
    (once : ∀ fetched ∈ (s.account tally).entered, fetched.2 = [fetched.1])
    : TallyInv s.next (s.account tally) := by
  have latch : s.next.ifInst = { s.ifInst with status := status } :=
    congrArg FetchResult.newIF result
  have empty : s.next.ifInst.isNop = s.ifInst.isNop := by rw [latch]
  have held : s.next.idInst = s.idInst := next_idInst_held frozen trap
  have pc : s.next.pc = s.pc := congrArg FetchResult.pc result
  have squash : s.next.squashNextIF = false := congrArg FetchResult.squashNextIF result
  have finished : s.next.justFinishedIStall = false :=
    congrArg FetchResult.justFinishedIStall result
  have pending : (s.account tally).pending = tally.pending := by simp [account, withheld, same]
  have inIF : (s.account tally).inIF = tally.inIF := by simp [account, withheld, kept]
  exact {
    full := fun full => by
      rw [pending, inIF, held, latch]
      exact h.full (empty.symm.trans full)
    empty := fun slot => by
      rw [inIF]
      exact h.empty (empty.symm.trans slot)
    missed := fun slot _ => by
      rw [pending, pc]
      exact h.missed (empty.symm.trans slot) (unsquashed (empty.symm.trans slot))
    squashed := fun squashes => by simp [squash] at squashes
    finished := fun finishes => by simp [finished] at finishes
    once := once }

/-- A cycle without an access completes the fetch in progress, or leaves it as it is. -/
theorem TallyInv.of_idle (h : TallyInv s tally) (l : s.LatchInv) (front : s.FrontInv)
    (idle : s.accessed = none)
    (once : ∀ fetched ∈ (s.account tally).entered, fetched.2 = [fetched.1])
    : TallyInv s.next (s.account tally) := by
  have quiet := redirects_idle idle
  have unlooked : s.fetchTarget = none := by
    unfold accessed at idle
    split at idle
    · cases idle
    · exact idle
  have same : s.lookups tally = tally.pending := by simp [lookups, quiet, unlooked]
  have trap := (redirects_false quiet).1
  rcases fetch_idle idle with direct | ⟨indirect, active, result⟩
    | ⟨indirect, frozen, inactive, status, result⟩
  · exact h.of_direct front direct same once
  · have withheld : s.delivers = false := by simp [delivers, indirect, fetchHits, unlooked]
    exact h.of_wait front active withheld same result once
  · have withheld : s.delivers = false := by simp [delivers, indirect, fetchHits, unlooked]
    have kept : s.leavesIF = false := by simp [leavesIF, quiet, (held_idle frozen).2]
    have unsquashed (slot : s.ifInst.isNop = true) : s.squashNextIF = false := by
      by_contra squash
      have illegal := front.squash (by simpa using squash)
      have active : s.dStallActive = true := by
        simpa [held, l.hazardStall_illegal illegal] using frozen
      simp [fetchesDirectly, quiet, inactive, active, slot] at indirect
    exact h.of_hold frozen trap withheld kept unsquashed same result once

/-- A cycle that looks up no fetch again keeps every fetch at one lookup. -/
theorem TallyInv.next (h : TallyInv s tally) (l : s.LatchInv) (front : s.FrontInv)
    (fresh : s.looksUpAgain = false) : TallyInv s.next (s.account tally) := by
  have once := h.once_account l front
  cases access : s.accessed with
  | none => exact h.of_idle l front access once
  | some address =>
      cases leaves : s.leavesAccess with
      | true => exact .of_illegal leaves once
      | false =>
          rw [accessed, leaves, if_neg Bool.false_ne_true] at access
          obtain ⟨_, _, _, _, through⟩ := s.fetch_of_target access
          refine .of_lookup access through (h.first_lookup fresh access) ?_ once
          intro kept
          cases slot : s.ifInst.isNop with
          | true => exact h.empty slot
          | false => simp [front.leavesIF_lookup access slot] at kept

omit [CacheUnit κ] in
/-- A cycle that looks PC up again makes it two lookups. -/
theorem TallyInv.looked_up_twice (h : TallyInv s tally) (again : s.looksUpAgain = true)
    : s.lookups tally = [s.pc, s.pc] := by
  simp only [looksUpAgain, Bool.and_eq_true, Bool.not_eq_true'] at again
  obtain ⟨⟨⟨⟨⟨quiet, moving⟩, inactive⟩, unfinished⟩, slot⟩, unsquashed⟩ := again
  obtain ⟨trap, illegal, taken⟩ := redirects_false quiet
  obtain ⟨frozen, hazard⟩ := held_free.mp moving
  have lookup : s.fetchTarget = some s.pc := by
    simp [fetchTarget, trap, illegal, taken, frozen, hazard, inactive, unfinished]
  rw [lookups, quiet, if_neg Bool.false_ne_true, h.missed slot unsquashed, lookup]
  rfl

end Step

-----------------------------------------------------------------------------------------
-- The end of a wait
-----------------------------------------------------------------------------------------

/-- The empty slot of a miss is still waited out, or its fetch is about to be completed without
a lookup. The flag of a finished wait is set before the counter has reached 0.
-/
structure WaitInv (s : CycleState κ) : Prop where
  slot
    : s.ifInst.isNop = true → s.squashNextIF = false
      → s.iStallActive = true ∨ s.justFinishedIStall = true ∨ s.dStallActive = true
  finished : s.justFinishedIStall = true → s.iStallLeft ≠ 0

/-- No fetch is looked up again as long as the slots of misses are completed. -/
theorem WaitInv.fresh {s : CycleState κ} (h : WaitInv s) : s.looksUpAgain = false := by
  by_contra again
  simp only [looksUpAgain, Bool.not_eq_false, Bool.and_eq_true, Bool.not_eq_true'] at again
  obtain ⟨⟨⟨⟨⟨_, moving⟩, inactive⟩, unfinished⟩, slot⟩, unsquashed⟩ := again
  rcases h.slot slot unsquashed with active | finished | frozen
  · simp [inactive] at active
  · simp [unfinished] at finished
  · simp [held, frozen] at moving

theorem dStallActive_next [CacheUnit κ] {s : CycleState κ}
    : s.next.dStallActive = true ↔ s.dStallLeftNext ≠ 0 := by
  rw [dStallActive, decide_eq_true_eq]
  exact BitVec.pos_iff_ne_zero _

/-- The stall is over when its counter ticks from 1. -/
theorem iStallActive_iff {s : CycleState κ} : s.iStallActive = true ↔ 2 ≤ s.iStallLeft.toNat := by
  have tick := s.toNat_iStallTick
  have zero : (0 : U64).toNat = 0 := rfl
  rw [iStallActive, decide_eq_true_eq, BitVec.lt_def, tick, zero]
  omega

section Wait

variable {s : CycleState Cache}

/-- A fetch through the I-cache delivers an instruction or starts a wait. -/
theorem WaitInv.of_lookup {target : U64} (lookup : s.fetchTarget = some target)
    (slow : 2 ≤ s.iCache.config.missLatency.toNat)
    : WaitInv s.next := by
  obtain ⟨iStallLeft, onMiss, onHit, _, through⟩ := s.fetch_of_target lookup
  cases hit : (CacheUnit.access s.iCache target .read).1 with
  | true =>
      have result := through.trans (s.fetchThrough_hit _ _ _ hit)
      have full : s.next.ifInst.isNop = false :=
        (congrArg (fun fetched => fetched.newIF.isNop) result).trans (simIF_isNop _ _)
      have unfinished : s.next.justFinishedIStall = false :=
        congrArg FetchResult.justFinishedIStall result
      exact ⟨fun slot => by simp [full] at slot, fun finished => by simp [unfinished] at finished⟩
  | false =>
      have result := through.trans (s.fetchThrough_miss _ _ _ hit)
      have unfinished : s.next.justFinishedIStall = false :=
        congrArg FetchResult.justFinishedIStall result
      have starts : s.next.iStallLeft = s.iCache.config.missLatency :=
        (congrArg FetchResult.iStallLeft result).trans (access_missLatency ..)
      exact ⟨fun _ _ => .inl (iStallActive_iff.mpr (by rwa [starts])),
        fun finished => by simp [unfinished] at finished⟩

/-- The slot of a miss waits on: it stays active, or it ends with the flag set or under a
D-cache stall.
-/
theorem WaitInv.of_wait (active : s.iStallActive = true) (quiet : s.redirects = false)
    (result : s.fetch = s.fetchHold (fetchSlot s.pc .normal) (!s.held))
    (apart : s.stallEndsHeld = false)
    : WaitInv s.next := by
  have left := iStallActive_iff.mp active
  have ticked : s.next.iStallLeft.toNat = s.iStallLeft.toNat - 1 := by
    rw [(waits quiet active).2, toNat_iStallTick]
  have flag : s.next.justFinishedIStall = !s.held :=
    congrArg FetchResult.justFinishedIStall result
  refine ⟨fun _ _ => ?_, fun _ zero => ?_⟩
  · by_cases last : s.iStallLeft = 2
    · right
      cases frozen : s.held with
      | false => exact .inl (by simp [flag, frozen])
      | true =>
          right
          rw [dStallActive_next]
          simpa [stallEndsHeld, quiet, last, frozen] using apart
    · left
      rw [iStallActive_iff, ticked]
      have more : s.iStallLeft.toNat ≠ 2 := fun same => last (BitVec.eq_of_toNat_eq same)
      omega
  · have none : (0 : U64).toNat = 0 := rfl
    rw [zero, none] at ticked
    omega

/-- IF keeps what it holds: no slot, unless a D-cache stall follows. -/
theorem WaitInv.of_hold (h : WaitInv s) (l : s.LatchInv) (front : s.FrontInv)
    (frozen : s.held = true) (inactive : s.iStallActive = false) (quiet : s.redirects = false)
    (indirect : s.fetchesDirectly = false) {status : StageStatus}
    (result : s.fetch = s.fetchHold { s.ifInst with status := status } false)
    (apart : s.stallEndsHeld = false)
    : WaitInv s.next := by
  have unfinished : s.next.justFinishedIStall = false :=
    congrArg FetchResult.justFinishedIStall result
  refine ⟨fun slot _ => ?_, fun finished => by simp [unfinished] at finished⟩
  have empty : s.ifInst.isNop = true := by
    rw [← slot]
    exact (congrArg (fun fetched => fetched.newIF.isNop) result).symm
  -- under a D-cache stall the slot would have been completed
  have unstalled : s.dStallActive = false := by
    by_contra active
    simp [fetchesDirectly, quiet, inactive, empty, active] at indirect
  have hazard : s.hazardStall = true := by simpa [held, unstalled] using frozen
  have unsquashed : s.squashNextIF = false := by
    by_contra squash
    have illegal := front.squash (by simpa using squash)
    simp [l.hazardStall_illegal illegal] at hazard
  have flagged : s.justFinishedIStall = true := by
    simpa [inactive, unstalled] using h.slot empty unsquashed
  have last : s.iStallLeft = 1 := by
    have short : ¬ 2 ≤ s.iStallLeft.toNat := by simp [← iStallActive_iff, inactive]
    have positive : s.iStallLeft.toNat ≠ 0 :=
      fun zero => h.finished flagged (BitVec.eq_of_toNat_eq zero)
    apply BitVec.eq_of_toNat_eq
    show s.iStallLeft.toNat = 1
    omega
  right
  right
  rw [dStallActive_next]
  simpa [stallEndsHeld, quiet, last, hazard] using apart

/-- A cycle keeps the slots of misses completed, unless ID is held as a wait ends. -/
theorem WaitInv.next (h : WaitInv s) (l : s.LatchInv) (front : s.FrontInv)
    (slow : 2 ≤ s.iCache.config.missLatency.toNat) (apart : s.stallEndsHeld = false)
    : WaitInv s.next := by
  cases access : s.accessed with
  | none =>
      have quiet := redirects_idle access
      rcases fetch_idle access with direct | ⟨_, active, result⟩
        | ⟨indirect, frozen, inactive, status, result⟩
      · have result := fetch_directly direct
        have full : s.next.ifInst.isNop = false :=
          (congrArg (fun fetched => fetched.newIF.isNop) result).trans (simIF_isNop _ _)
        have unfinished : s.next.justFinishedIStall = false :=
          congrArg FetchResult.justFinishedIStall result
        exact ⟨fun slot => by simp [full] at slot,
          fun finished => by simp [unfinished] at finished⟩
      · exact .of_wait active quiet result apart
      · exact h.of_hold l front frozen inactive quiet indirect result apart
  | some address =>
      cases leaves : s.leavesAccess with
      | true =>
          simp only [leavesAccess, Bool.and_eq_true, Bool.not_eq_true'] at leaves
          have result := s.fetch_of_illegal leaves.1 leaves.2
          have squash : s.next.squashNextIF = true := congrArg FetchResult.squashNextIF result
          have unfinished : s.next.justFinishedIStall = false :=
            congrArg FetchResult.justFinishedIStall result
          exact ⟨fun _ unsquashed => by simp [squash] at unsquashed,
            fun finished => by simp [unfinished] at finished⟩
      | false =>
          rw [accessed, leaves, if_neg Bool.false_ne_true] at access
          exact .of_lookup access slow

/-- Where ID is held as a wait ends, the slot is left behind: PC is looked up again in the next
cycle, unless that redirects fetching or is held by a hazard too.
-/
theorem looksUpAgain_next (front : s.FrontInv) (ends : s.stallEndsHeld = true)
    : s.next.looksUpAgain = (!s.next.redirects && !s.next.hazardStall) := by
  simp only [stallEndsHeld, Bool.and_eq_true, Bool.or_eq_true, Bool.not_eq_true', beq_iff_eq]
    at ends
  obtain ⟨⟨quiet, calm⟩, ends⟩ := ends
  obtain ⟨trap, illegal, untaken⟩ := redirects_false quiet
  have frozen : s.held = true := by
    rcases ends with last | completes
    · exact last.2
    · simp [held, completes.2]
  have waiting : s.iStallLeft ≠ 0 ∧ s.iStallLeft.toNat ≤ 2 := by
    rcases ends with last | completes
    · simp [last.1]
    · simp [completes.1]
  have empty := front.waiting waiting.1
  have idle : s.accessed = none := by
    rw [held] at frozen
    simp [accessed, leavesAccess, fetchTarget, trap, illegal, untaken, frozen]
  have indirect : s.fetchesDirectly = false := by
    by_contra direct
    simp only [fetchesDirectly, Bool.not_eq_false, Bool.and_eq_true, Bool.not_eq_true'] at direct
    rcases ends with last | completes
    · have active : s.iStallActive = true := iStallActive_iff.mpr (by simp [last.1])
      simp [active] at direct
    · have unstalled : s.dStallActive = false := by
        by_contra stalled
        simp [hazardStall_frozen (by simpa using stalled)] at completes
      simp [unstalled, completes.2] at direct
  have kept : s.next.ifInst.isNop = true ∧ s.next.justFinishedIStall = false
      ∧ s.next.squashNextIF = false := by
    rcases fetch_idle idle with direct | ⟨_, _, same⟩ | ⟨_, _, _, status, same⟩
    · simp [indirect] at direct
    · simp [CycleState.next, same, fetchHold, fetchSlot, nop, frozen]
    · simp [CycleState.next, same, fetchHold, empty]
  have unstalled : s.next.dStallActive = false := by
    by_contra stalled
    exact dStallActive_next.mp (by simpa using stalled) calm
  have inactive : s.next.iStallActive = false := by
    by_contra active
    have left := iStallActive_iff.mp (by simpa using active)
    have ticks : s.next.iStallLeft.toNat ≤ s.iStallLeft.toNat - 1 :=
      (congrArg BitVec.toNat (fetch_of_none idle).2).trans_le s.iStallAfterID_le
    omega
  simp [looksUpAgain, held, unstalled, kept, inactive]

end Wait

-----------------------------------------------------------------------------------------
-- Runs
-----------------------------------------------------------------------------------------

/-- The first cycle looks up the first word of the program. -/
theorem tallyInv_one (past : CycleState Cache) (iCache dCache : CacheConfig) (mem : MemoryStore)
    (unset : past.justFinishedIStall = false)
    : TallyInv (next^[1] (initSimulator past iCache dCache mem))
        ((initSimulator past iCache dCache mem).tally 1) := by
  generalize begins : initSimulator past iCache dCache mem = start
  have target : start.fetchTarget = some 0 := by
    subst begins
    exact (fetchTarget_initCycle past _ _ mem).trans (by simp [unset])
  have undecoded : start.entersID = none := by
    subst begins
    rfl
  obtain ⟨_, _, _, _, through⟩ := start.fetch_of_target target
  show TallyInv start.next (start.account {})
  refine .of_lookup target through ?_ (fun _ => rfl) ?_
  · rw [lookups, target]
    simp
  · intro fetched member
    simp [account, undecoded] at member

/-- The observer records every access exactly once. -/
theorem size_account [CacheUnit κ] (s : CycleState κ) (tally : Tally)
    : (s.account tally).size = tally.size + s.accessed.toList.length := by
  have entering : s.entersID.isSome = true → s.leavesIF = true := by
    intro enters
    cases decodes : s.decodes with
    | true => simp [leavesIF, decodes]
    | false => simp [entersID, decodes] at enters
  have left : s.leavesAccess = true → s.fetchTarget = none := by
    intro leaves
    simp only [leavesAccess, Bool.and_eq_true, Bool.not_eq_true'] at leaves
    simp [fetchTarget, leaves]
  have looked
      : (s.lookups tally).length
        = (if s.redirects then 0 else tally.pending.length) + s.fetchTarget.toList.length := by
    unfold lookups
    split <;> simp
  have accesses
      : s.accessed.toList.length
        = s.fetchTarget.toList.length + if s.leavesAccess then 1 else 0 := by
    unfold accessed
    split
    · rename_i leaves
      simp [left leaves]
    · simp
  have entered
      : ((s.account tally).entered.map fun fetched => fetched.2.length).sum
        = (tally.entered.map fun fetched => fetched.2.length).sum
          + if s.entersID.isSome then tally.inIF.length else 0 := by
    cases enters : s.entersID <;> simp [account, enters]
  simp only [Tally.size, Tally.others, List.length_append, entered, accesses]
  simp only [account, List.length_append, apply_ite List.length, List.length_nil, looked,
    List.length_singleton]
  cases delivers : s.delivers <;> cases leaves : s.leavesIF <;> cases enters : s.entersID
    <;> cases redirected : s.redirects <;> simp_all <;> omega

/-- The counters of the I-cache count the accesses of the tally. -/
theorem accesses_tally (start : CycleState Cache) (n : ℕ)
    (zero : start.iCache.hits + start.iCache.misses = 0)
    : (next^[n] start).iCache.hits + (next^[n] start).iCache.misses
      = BitVec.ofNat 64 (start.tally n).size := by
  induction n with
  | zero => exact zero
  | succ n ih =>
      rw [tally_succ, size_account, Function.iterate_succ_apply']
      show (next^[n] start).fetch.iCache.hits + (next^[n] start).fetch.iCache.misses = _
      rw [fetch_accessed]
      cases access : (next^[n] start).accessed with
      | none => exact ih
      | some address =>
          obtain ⟨hits, misses⟩ := Cache.access_counts (next^[n] start).iCache address .read
          have one (hit : Bool)
              : (if hit then 1 else 0) + (if hit then 0 else 1) = (1 : U64) := by
            cases hit <;> rfl
          calc _ = (next^[n] start).iCache.hits + _ + ((next^[n] start).iCache.misses + _) :=
                congrArg₂ (· + ·) hits misses
            _ = (next^[n] start).iCache.hits + (next^[n] start).iCache.misses + 1 := by
                rw [add_add_add_comm, one]
            _ = _ := by
                rw [ih]
                exact (BitVec.ofNat_add _ _).symm

/-- If the I-cache takes at least 2 cycles for a miss, ID is never held as a wait for it ends,
and no illegal instruction is held in ID for an odd number of cycles, each instruction that
enters ID has been looked up exactly once, and hits plus misses count it once. Witness: from the
first cycle on every slot of a miss is completed, so the tally invariant is kept.
-/
theorem entered_looked_up_once (past : CycleState Cache) (iCache dCache : CacheConfig)
    (mem : MemoryStore) {n : ℕ} (unset : past.justFinishedIStall = false)
    (slow : 2 ≤ iCache.missLatency.toNat)
    (apart : ∀ j < n, (next^[j] (initSimulator past iCache dCache mem)).stallEndsHeld = false)
    (evenly : ∀ j < n, (next^[j] (initSimulator past iCache dCache mem)).trapsOddly = false)
    : (∀ fetched ∈ ((initSimulator past iCache dCache mem).tally n).entered,
        fetched.2 = [fetched.1])
      ∧ (next^[n] (initSimulator past iCache dCache mem)).iCache.hits
          + (next^[n] (initSimulator past iCache dCache mem)).iCache.misses
        = BitVec.ofNat 64
            (((initSimulator past iCache dCache mem).tally n).entered.length
              + ((initSimulator past iCache dCache mem).tally n).others.length) := by
  generalize begins : initSimulator past iCache dCache mem = start at *
  have latches : start.LatchInv := begins ▸ latchInv_initCycle past _ _ mem
  have front : start.FrontInv := begins ▸ frontInv_initCycle past _ _ mem
  have latency (m : ℕ) : 2 ≤ (next^[m] start).iCache.config.missLatency.toNat := by
    rw [iCache_config]
    subst begins
    exact slow
  have inv : ∀ m < n, TallyInv (next^[m + 1] start) (start.tally (m + 1))
      ∧ WaitInv (next^[m + 1] start) := by
    intro m before
    induction m with
    | zero =>
        have target : start.fetchTarget = some 0 := by
          subst begins
          exact (fetchTarget_initCycle past _ _ mem).trans (by simp [unset])
        subst begins
        exact ⟨tallyInv_one past iCache dCache mem unset, .of_lookup target (latency 0)⟩
    | succ m ih =>
        obtain ⟨once, waited⟩ := ih (by omega)
        have l := latches.iterate (m + 1)
        have f := front.iterate latches (n := m + 1) fun j earlier => evenly j (by omega)
        rw [tally_succ, Function.iterate_succ_apply' _ (m + 1)]
        exact ⟨once.next l f waited.fresh,
          waited.next l f (latency (m + 1)) (apart (m + 1) before)⟩
  have once : ∀ fetched ∈ (start.tally n).entered, fetched.2 = [fetched.1] := by
    cases n with
    | zero => exact fun _ member => absurd member List.not_mem_nil
    | succ n => exact (inv n (by omega)).1.once
  refine ⟨once, ?_⟩
  rw [accesses_tally start n (by rw [← begins]; rfl), Tally.size]
  have lengths : (start.tally n).entered.map (fun fetched => fetched.2.length)
      = (start.tally n).entered.map fun _ => 1 :=
    List.map_congr_left fun fetched member => by rw [once fetched member]; rfl
  rw [lengths]
  simp

/-- A miss waited out without another stall: the word at 8 has been looked up once. -/
theorem entered_looked_up_once_stall
    : (∀ fetched ∈ ((initSimulator (.fresh (.new ⟨16, 8, 1, 2⟩) (.new ⟨16, 8, 1, 0⟩))
          ⟨16, 8, 1, 2⟩ ⟨16, 8, 1, 0⟩ (.load [0x13, 0x13, 0x13])).tally 8).entered,
        fetched.2 = [fetched.1])
      ∧ (8, [8]) ∈ ((initSimulator (.fresh (.new ⟨16, 8, 1, 2⟩) (.new ⟨16, 8, 1, 0⟩))
          ⟨16, 8, 1, 2⟩ ⟨16, 8, 1, 0⟩ (.load [0x13, 0x13, 0x13])).tally 8).entered :=
  ⟨(entered_looked_up_once _ ⟨16, 8, 1, 2⟩ ⟨16, 8, 1, 0⟩ (.load [0x13, 0x13, 0x13]) rfl
    (by decide) (by decide) (by decide)).1, by decide⟩

/-- A load whose use stalls in the cycle before the stall of the word at 8 ends: the word is
looked up a second time.
-/
theorem entered_looked_up_twice
    : ¬ ∀ (past : CycleState Cache) (iCache dCache : CacheConfig) (mem : MemoryStore) (n : ℕ),
          iCache.Indexable → dCache.Indexable → past.justFinishedIStall = false
          → ∀ fetched ∈ ((initSimulator past iCache dCache mem).tally n).entered,
              fetched.2 = [fetched.1] := by
  intro once
  have slow : CacheConfig.Indexable ⟨16, 8, 1, 2⟩ := ⟨⟨3, by decide⟩, ⟨1, by decide⟩, by decide⟩
  have free : CacheConfig.Indexable ⟨16, 8, 1, 0⟩ := ⟨⟨3, by decide⟩, ⟨1, by decide⟩, by decide⟩
  have fetched : (8, [8, 8])
      ∈ ((initSimulator (.fresh (.new ⟨16, 8, 1, 2⟩) (.new ⟨16, 8, 1, 0⟩))
          ⟨16, 8, 1, 2⟩ ⟨16, 8, 1, 0⟩ (.load [0x2083, 0x8133, 0x13])).tally 8).entered := by
    decide
  exact absurd (once _ _ _ _ 8 slow free rfl _ fetched) (by decide)

end CycleState
end RiscvSim
