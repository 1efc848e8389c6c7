import RiscvSim.Correctness.SequentialExecution

/-! With caches that always hit, the cycle in which each instruction enters EX follows a
scoreboard: it is the first one allowed by the fetch and by the writers of the sources.
-/

namespace RiscvSim

/-- An instruction that has entered EX: the cycle of its entry and the next PC resolved for it.
-/
structure Issue where
  cycle : ℕ
  inst : Instruction
  nextPC : U64

namespace Issue

/-- Fetching goes on elsewhere than at PC + 4. -/
def redirects (issue : Issue) : Bool := issue.nextPC != issue.inst.pc + 4

/-- The instruction is a taken branch, a JAL or a JALR. -/
def transfers (issue : Issue) : Bool :=
  issue.inst.opcode == opJal || issue.inst.opcode == opJalr
  || (issue.inst.opcode == opBranch && issue.redirects)

end Issue

/-- A branch or JALR, which needs its operands in ID. -/
def Instruction.resolvesOperands (inst : Instruction) : Bool :=
  inst.opcode == opBranch || inst.opcode == opJalr

/-- The first cycle in which the instruction after `issues`, newest first, can enter EX once it
is fetched and decoded.
-/
def fetchReady (penalized : Issue → Bool) : List Issue → ℕ
  | [] => 2
  | last :: _ => last.cycle + if penalized last then 2 else 1

def latestWriter (issues : List Issue) (r : U64) : Option Issue :=
  issues.find? fun issue => issue.inst.writes r

/-- The first cycle in which `inst` can enter EX after the latest writer of its source `r`,
which it needs in EX or only in MEM.
-/
def sourceReady (issues : List Issue) (inst : Instruction) (r : U64) (inEX : Bool) : ℕ :=
  if r = 0 then 0
  else
    match latestWriter issues r with
    | none => 0
    | some writer =>
        if inst.resolvesOperands then writer.cycle + if writer.inst.readsMem then 3 else 2
        else if writer.inst.readsMem && inEX then writer.cycle + 2
        else 0

/-- The wait for both sources; a store needs `rs2` only in MEM. -/
def sourcesReady (issues : List Issue) (inst : Instruction) : ℕ :=
  max (if inst.readsRs1 then sourceReady issues inst inst.rs1 true else 0)
    (if inst.readsRs2 then sourceReady issues inst inst.rs2 (!inst.writesMem) else 0)

/-- The cycle in which the scoreboard lets `inst` enter EX. -/
def scoreboard (penalized : Issue → Bool) (issues : List Issue) (inst : Instruction) : ℕ :=
  max (fetchReady penalized issues) (sourcesReady issues inst)

/-- Every instruction, newest first, enters EX in the cycle of the scoreboard. -/
def OnSchedule (penalized : Issue → Bool) : List Issue → Prop
  | [] => True
  | last :: earlier =>
      last.cycle = scoreboard penalized earlier last.inst ∧ OnSchedule penalized earlier

instance OnSchedule.decidable (penalized : Issue → Bool)
    : ∀ issues, Decidable (OnSchedule penalized issues)
  | [] => inferInstanceAs (Decidable True)
  | last :: earlier =>
      have := OnSchedule.decidable penalized earlier
      inferInstanceAs (Decidable (last.cycle = scoreboard penalized earlier last.inst
        ∧ OnSchedule penalized earlier))

/-- The wait depends on the control part only. -/
theorem sourcesReady_congr {left right : Instruction} (same : left.control = right.control)
    (issues : List Issue)
    : sourcesReady issues left = sourcesReady issues right := by
  have fields := Instruction.sameControl same
  have source (r : U64) (inEX : Bool)
      : sourceReady issues left r inEX = sourceReady issues right r inEX := by
    unfold sourceReady Instruction.resolvesOperands
    rw [fields.opcode]
  simp only [sourcesReady, source, fields.readsRs1, fields.readsRs2, fields.rs1, fields.rs2,
    fields.writesMem]

namespace CycleState

variable {κ : Type} {s : CycleState κ} {m : ℕ} {older : List Issue}

/-- The instruction that enters EX in this cycle, which is number `m`. -/
def issued (s : CycleState κ) (m : ℕ) : Option Issue :=
  s.entersEX.map fun inst => { cycle := m, inst := inst, nextPC := s.resolvedPC }

/-- What has entered EX in `n` cycles, newest first, up to HALT. -/
def issueLog [CacheUnit κ] (start : CycleState κ) : ℕ → List Issue
  | 0 => []
  | n + 1 =>
      if (issueLog start n).any (·.inst.isHalt) then issueLog start n
      else ((next^[n] start).issued n).toList ++ issueLog start n

/-- The hazard tests on a source `r` of the instruction in ID, which see EX and MEM only. -/
def awaits (s : CycleState κ) (r : U64) (inEX : Bool) : Bool :=
  r != 0
  && if s.idInst.resolvesOperands then
      s.exInst.writes r || (s.memInst.writes r && s.memInst.readsMem)
    else s.exInst.writes r && s.exInst.readsMem && inEX

/-- ID is held exactly while one of its sources waits. -/
theorem LatchInv.hazardStall_eq (l : s.LatchInv) (moving : s.dStallActive = false)
    : s.hazardStall
      = ((s.idInst.readsRs1 && s.awaits s.idInst.rs1 true)
        || (s.idInst.readsRs2 && s.awaits s.idInst.rs2 (!s.idInst.writesMem))) := by
  cases empty : s.idInst.isNop with
  | true =>
      have signals := l.inID.kind.nop empty
      simp [l.hazardStall_nop empty, signals.readsRs1, signals.readsRs2]
  | false =>
      have loadEX (reads : s.exInst.readsMem = true)
          : s.exInst.writesRd = true ∧ s.exInst.writesMem = false :=
        ⟨(l.inEX.kind.load reads).writesRd, (l.inEX.kind.load reads).writesMem⟩
      have loadMEM (reads : s.memInst.readsMem = true)
          : s.memInst.writesRd = true ∧ s.memInst.writesMem = false :=
        ⟨(l.inMEM.kind.load reads).writesRd, (l.inMEM.kind.load reads).writesMem⟩
      rw [Bool.eq_iff_iff]
      cases branch : s.idInst.resolvesOperands with
      | false =>
          have calm : s.idIsBranchLike = false := by
            simpa [idIsBranchLike, empty, Instruction.resolvesOperands] using branch
          simp only [hazardStall, branchDataStall, branchExStall, branchMemStall, loadUseStall,
            calm, moving, empty, awaits, branch, Instruction.writes]
          grind
      | true =>
          have resolves : s.idIsBranchLike = true := by
            simpa [idIsBranchLike, empty, Instruction.resolvesOperands] using branch
          simp only [hazardStall, branchDataStall, branchExStall, branchMemStall, loadUseStall,
            resolves, moving, empty, awaits, branch, Instruction.writes]
          grind

/-- The latest writer of a register is in EX one cycle after its issue and in MEM after two.
-/
structure Writers (s : CycleState κ) (m : ℕ) (older : List Issue) : Prop where
  inEX
    : ∀ r, s.exInst.writes r = true →
        ∃ writer, latestWriter older r = some writer ∧ writer.cycle + 1 = m
          ∧ writer.inst.readsMem = s.exInst.readsMem
  inMEM
    : ∀ r, s.exInst.writes r = false → s.memInst.writes r = true →
        ∃ writer, latestWriter older r = some writer ∧ writer.cycle + 2 = m
          ∧ writer.inst.readsMem = s.memInst.readsMem
  retired
    : ∀ r, s.exInst.writes r = false → s.memInst.writes r = false →
        ∀ writer ∈ latestWriter older r, writer.cycle + 2 < m

/-- The hazard tests see as much as the scoreboard: an older writer is no reason to wait. -/
theorem Writers.awaits_iff (h : s.Writers m older) (r : U64) (inEX : Bool)
    : s.awaits r inEX = true ↔ m < sourceReady older s.idInst r inEX := by
  by_cases zero : r = 0
  · simp [awaits, sourceReady, zero]
  simp only [awaits, sourceReady, if_neg zero, bne_iff_ne.mpr zero, Bool.true_and]
  cases inFirst : s.exInst.writes r with
  | true =>
      obtain ⟨writer, latest, age, load⟩ := h.inEX r inFirst
      simp only [latest, ← load]
      cases s.idInst.resolvesOperands <;> cases writer.inst.readsMem <;> cases inEX <;>
        simp <;> omega
  | false =>
      cases inSecond : s.memInst.writes r with
      | true =>
          obtain ⟨writer, latest, age, load⟩ := h.inMEM r inFirst inSecond
          simp only [latest, ← load]
          cases s.idInst.resolvesOperands <;> cases writer.inst.readsMem <;> cases inEX <;>
            simp <;> omega
      | false =>
          have past := h.retired r inFirst inSecond
          cases latest : latestWriter older r with
          | none => simp
          | some writer =>
              have age := past writer latest
              dsimp only
              cases s.idInst.resolvesOperands <;> cases writer.inst.readsMem <;> cases inEX <;>
                simp <;> omega

/-- ID is held exactly as long as the sources are not ready. -/
theorem Writers.hazardStall_iff (h : s.Writers m older) (l : s.LatchInv)
    (moving : s.dStallActive = false)
    : s.hazardStall = true ↔ m < sourcesReady older s.idInst := by
  rw [l.hazardStall_eq moving, sourcesReady, Bool.or_eq_true, Bool.and_eq_true,
    Bool.and_eq_true, h.awaits_iff, h.awaits_iff, lt_max_iff]
  cases s.idInst.readsRs1 <;> cases s.idInst.readsRs2 <;> simp

/-- What enters EX becomes the latest writer of its destination. -/
theorem latestWriter_issued (l : s.LatchInv) (moving : s.dStallActive = false)
    (calm : s.wbMemException = false) (r : U64)
    : latestWriter ((s.issued m).toList ++ older) r
      = if s.newEX.writes r then some ⟨m, s.newEX, s.resolvedPC⟩
        else latestWriter older r := by
  cases flight : s.newEX.inFlight with
  | true =>
      simp only [issued, entersEX, moving, calm, flight, latestWriter]
      cases writes : s.newEX.writes r <;> simp [writes]
  | false =>
      have silent : s.newEX.writes r = false := by
        simp [Instruction.writes, l.inEX_newEX.empty flight]
      simp [issued, entersEX, flight, silent]

theorem Writers.inv_next [CacheUnit κ] (h : s.Writers m older) (l : s.LatchInv)
    (moving : s.dStallActive = false) (calm : s.wbMemException = false)
    : s.next.Writers (m + 1) ((s.issued m).toList ++ older) := by
  have passed := l.newMEM_writes moving
  have load (r : U64) (writes : s.exInst.writes r = true)
      : s.newMEM.readsMem = s.exInst.readsMem := by
    have busy : s.exInst.isNop = false := by
      simp only [Instruction.writes, Bool.and_eq_true, Bool.not_eq_true'] at writes
      exact writes.1.1
    exact (Instruction.sameControl (l.newMEM_control moving busy)).readsMem
  constructor
  · intro r writes
    rw [next_exInst calm] at writes ⊢
    rw [latestWriter_issued l moving calm, if_pos writes]
    exact ⟨_, rfl, rfl, rfl⟩
  · intro r silent writes
    rw [next_exInst calm] at silent
    rw [next_memInst calm] at writes ⊢
    rw [latestWriter_issued l moving calm, if_neg (by simp [silent])]
    rw [passed] at writes
    obtain ⟨writer, latest, age, same⟩ := h.inEX r writes
    exact ⟨writer, latest, by omega, same.trans (load r writes).symm⟩
  · intro r silent older writer latest
    rw [next_exInst calm] at silent
    rw [next_memInst calm, passed] at older
    rw [latestWriter_issued l moving calm, if_neg (by simp [silent])] at latest
    cases inSecond : s.memInst.writes r with
    | true =>
        obtain ⟨same, found, age, _⟩ := h.inMEM r older inSecond
        rw [found, Option.mem_some_iff] at latest
        subst latest
        omega
    | false =>
        have age := h.retired r older inSecond writer latest
        omega

-----------------------------------------------------------------------------------------
-- Fetching without misses
-----------------------------------------------------------------------------------------

/-- Every access hits. -/
def AlwaysHits (κ : Type) [CacheUnit κ] : Prop :=
  ∀ (cache : κ) (address : U64) (operation : CacheOperation),
    (CacheUnit.access cache address operation).1 = true

variable [CacheUnit κ]

theorem AlwaysHits.dStallLeft_next (hits : AlwaysHits κ) (unstalled : s.dStallLeft = 0)
    : s.next.dStallLeft = 0 := by
  have hit : s.dCacheAccess.1 = true := hits _ _ _
  simp [next, dStallLeftNext, hit, dStallTick, unstalled]

/-- Without a miss or an exception the IF latch is full after every cycle. -/
theorem AlwaysHits.fetch_full (hits : AlwaysHits κ) (calm : s.wbMemException = false)
    (moving : s.dStallActive = false) (fetching : s.iStallLeft = 0)
    (quiet : s.idIllegalException = false)
    (full : s.hazardStall = true → s.ifInst.isNop = false)
    : s.fetch.newIF.isNop = false ∧ s.fetch.iStallLeft = 0 ∧ s.fetch.squashNextIF = false := by
  have inactive := iStallActive_idle fetching
  have rest : s.iStallAfterID = 0 := iStallAfterID_zero inactive
  have through (target : U64) (onMiss onHit : StageStatus)
      : (s.fetchThrough target 0 onMiss onHit).newIF.isNop = false
        ∧ (s.fetchThrough target 0 onMiss onHit).iStallLeft = 0
        ∧ (s.fetchThrough target 0 onMiss onHit).squashNextIF = false := by
    simp [fetchThrough, hits s.iCache target .read, simIF_isNop]
  simp only [fetch, calm, quiet, moving, inactive, rest, Bool.false_eq_true, if_false]
  by_cases taken : s.branchTaken = true
  · rw [if_pos taken]
    exact through _ _ _
  rw [if_neg taken]
  by_cases hazard : s.hazardStall = true
  · have busy := full hazard
    rw [if_pos hazard]
    split <;> exact ⟨busy, rest, rfl⟩
  rw [if_neg hazard]
  split
  · exact ⟨simIF_isNop _ _, rest, rfl⟩
  · exact through _ _ _

/-- What the front end holds, and how soon its first instruction can enter EX. -/
inductive Front (s : CycleState κ) (m : ℕ) (older : List Issue) : Prop
  | inID (flight : s.idInst.inFlight = true) (full : s.ifInst.isNop = false)
      (ready : fetchReady Issue.redirects older ≤ m)
      (due : m ≤ scoreboard Issue.redirects older s.idInst)
  | inIF (empty : s.idInst.inFlight = false) (full : s.ifInst.isNop = false)
      (ready : fetchReady Issue.redirects older = m + 1)
  | unfetched (empty : s.idInst.inFlight = false) (idle : s.ifInst.isNop = true)
      (ready : fetchReady Issue.redirects older = m + 2)

/-- Cycle `m` begins on schedule, with HALT still to enter EX. -/
structure Timed (s : CycleState κ) (m : ℕ) (older : List Issue) : Prop where
  latches : s.LatchInv
  unstalled : s.dStallLeft = 0
  fetching : s.iStallLeft = 0
  unsquashed : s.squashNextIF = false
  running : s.haltAhead = false
  legal : s.idInst.isLegal = true
  onSchedule : OnSchedule Issue.redirects older
  noHalt : older.any (·.inst.isHalt) = false
  writers : s.Writers m older
  front : s.Front m older

omit [CacheUnit κ] in
theorem timed_initCycle (past : CycleState κ) (iCache dCache : κ) (image : MemoryStore)
    : (initCycle past iCache dCache image).Timed 0 [] where
  latches := latchInv_initCycle past iCache dCache image
  unstalled := rfl
  fetching := rfl
  unsquashed := rfl
  running := rfl
  legal := rfl
  onSchedule := trivial
  noHalt := rfl
  writers :=
    { inEX := fun r writes => by simp [initCycle] at writes
      inMEM := fun r _ writes => by simp [initCycle] at writes
      retired := fun r _ _ writer latest => by simp [latestWriter] at latest }
  front := .unfetched rfl rfl rfl

namespace Timed

variable (h : s.Timed m older) (calm : s.wbMemException = false)
include h

omit [CacheUnit κ] in
theorem moving : s.dStallActive = false := by
  simp [dStallActive, h.unstalled]

omit [CacheUnit κ] in
theorem held_eq : s.held = s.hazardStall := by
  simp [held, h.moving]

omit [CacheUnit κ] in
/-- While ID is held its instruction is not ready. -/
theorem hazardStall_iff : s.hazardStall = true ↔ m < sourcesReady older s.idInst :=
  h.writers.hazardStall_iff h.latches h.moving

omit [CacheUnit κ] in
/-- While ID is held both ID and IF are full. -/
theorem held_full (hazard : s.hazardStall = true)
    : s.idInst.inFlight = true ∧ s.ifInst.isNop = false := by
  have flight : s.idInst.inFlight = true := by
    refine h.latches.id_inFlight ?_
    by_contra nop
    simp [h.latches.hazardStall_nop (by simpa using nop)] at hazard
  rcases h.front with ⟨_, full, _, _⟩ | ⟨empty, _, _⟩ | ⟨empty, _, _⟩
  · exact ⟨flight, full⟩
  · simp [flight] at empty
  · simp [flight] at empty

include calm

omit [CacheUnit κ] in
theorem issued_free (free : s.hazardStall = false) (flight : s.idInst.inFlight = true)
    : s.issued m = some { cycle := m, inst := s.newEX, nextPC := s.resolvedPC } := by
  have issued := (h.latches.newEX_issued (h.held_eq.trans free) h.legal).2.1
  simp [issued, entersEX, h.moving, calm, flight, CycleState.issued]

omit [CacheUnit κ] calm in
theorem issued_none (idle : s.hazardStall = true ∨ s.idInst.inFlight = false)
    : s.issued m = none := by
  have empty : s.newEX.inFlight = false := by
    cases hazard : s.hazardStall with
    | true =>
        rw [h.latches.newEX_hazard h.moving hazard]
        exact bubble_inFlight (by decide)
    | false =>
        rw [(h.latches.newEX_issued (h.held_eq.trans hazard) h.legal).2.1]
        exact idle.resolve_left (by simp [hazard])
  simp [issued, entersEX, empty]

omit [CacheUnit κ] in
/-- A branch is taken if and only if the next PC resolved for it is not PC + 4. -/
theorem redirects_eq (free : s.hazardStall = false)
    : Issue.redirects { cycle := m, inst := s.newEX, nextPC := s.resolvedPC }
      = s.branchTaken := by
  have held := h.held_eq.trans free
  have here := (Instruction.sameControl (h.latches.newEX_issued held h.legal).1).pc
  have evaluated := (Instruction.sameControl s.control_idEval).pc
  rw [Issue.redirects, ← h.latches.followPC_eq_resolvedPC calm held, here]
  cases resolves : s.resolvesInID with
  | true => simp [followPC, branchTaken, h.legal, resolves, evaluated]
  | false => simp [followPC, branchTaken, h.legal, resolves]

omit [CacheUnit κ] calm in
/-- What leaves ID leaves it on schedule. -/
theorem due_eq (free : s.hazardStall = false) (flight : s.idInst.inFlight = true)
    : m = scoreboard Issue.redirects older s.idInst := by
  rcases h.front with ⟨_, _, ready, due⟩ | ⟨empty, _, _⟩ | ⟨empty, _, _⟩
  · have sources : ¬ m < sourcesReady older s.idInst := by
      rw [← h.hazardStall_iff, free]
      exact Bool.false_ne_true
    simp only [scoreboard] at due ⊢
    omega
  · simp [flight] at empty
  · simp [flight] at empty

omit [CacheUnit κ] in
theorem onSchedule_next : OnSchedule Issue.redirects ((s.issued m).toList ++ older) := by
  by_cases idle : s.hazardStall = true ∨ s.idInst.inFlight = false
  · rw [h.issued_none idle]
    exact h.onSchedule
  simp only [not_or, Bool.not_eq_true, Bool.not_eq_false] at idle
  have same := (h.latches.newEX_issued (h.held_eq.trans idle.1) h.legal).1
  rw [h.issued_free calm idle.1 idle.2]
  refine ⟨?_, h.onSchedule⟩
  rw [scoreboard, sourcesReady_congr same]
  exact h.due_eq idle.1 idle.2

omit [CacheUnit κ] calm in
/-- The instruction in IF is decoded as soon as ID is free and fetching goes on. -/
theorem decodes_eq (free : s.hazardStall = false)
    : s.decodes = (!s.branchTaken && !s.ifInst.isNop) := by
  simp [CycleState.decodes_eq, h.held_eq.trans free, h.unsquashed, iStallActive_idle h.fetching]

theorem front_next (full : s.next.ifInst.isNop = false)
    : s.next.Front (m + 1) ((s.issued m).toList ++ older) := by
  cases hazard : s.hazardStall with
  | true =>
      have same : s.next.idInst = s.idInst := by
        rw [next_idInst calm]
        simp [newID, hazard]
      have waits := h.hazardStall_iff.mp hazard
      rw [h.issued_none (.inl hazard)]
      rcases h.front with ⟨flight, _, ready, _⟩ | ⟨empty, _, _⟩ | ⟨empty, _, _⟩
      · refine .inID (same ▸ flight) full (by simpa using Nat.le_succ_of_le ready) ?_
        rw [same]
        exact (Nat.succ_le_of_lt waits).trans (le_max_right _ _)
      · simp [(h.held_full hazard).1] at empty
      · simp [(h.held_full hazard).1] at empty
  | false =>
      have entered : s.next.idInst.inFlight = (!s.branchTaken && !s.ifInst.isNop) := by
        rw [next_idInst calm, newID_inFlight (h.held_eq.trans hazard), h.decodes_eq hazard]
      have arrives (decoded : s.next.idInst.inFlight = true)
          (ready : fetchReady Issue.redirects ((s.issued m).toList ++ older) = m + 1)
          : s.next.Front (m + 1) ((s.issued m).toList ++ older) :=
        .inID decoded full (le_of_eq ready) (ready.symm.trans_le (le_max_left _ _))
      have untaken (empty : s.idInst.inFlight = false) : s.branchTaken = false :=
        branchTaken_nop (h.latches.inID.empty empty)
      rcases h.front with ⟨flight, busy, _, _⟩ | ⟨empty, busy, ready⟩ | ⟨empty, idle, ready⟩
      · have issued := h.issued_free calm hazard flight
        have redirects := h.redirects_eq calm hazard
        cases taken : s.branchTaken with
        | true =>
            refine .inIF (by simp [entered, taken]) full ?_
            rw [issued, Option.toList_some, List.singleton_append, fetchReady, redirects, taken]
            rfl
        | false =>
            refine arrives (by simp [entered, taken, busy]) ?_
            rw [issued, Option.toList_some, List.singleton_append, fetchReady, redirects, taken]
            rfl
      · rw [h.issued_none (.inr empty)] at arrives ⊢
        exact arrives (by simp [entered, untaken empty, busy]) ready
      · rw [h.issued_none (.inr empty)]
        exact .inIF (by simp [entered, idle]) full ready

omit [CacheUnit κ] calm in
/-- HALT has not entered EX, so it does not leave it. -/
theorem newMEM_running : s.newMEM.isHalt = false := by
  have running := h.running
  simp only [haltAhead, Bool.or_eq_false_iff] at running
  exact (h.latches.newMEM_isHalt h.moving).trans running.1

theorem haltAhead_next : s.next.haltAhead = s.newEX.isHalt := by
  simp [haltAhead, next_exInst calm, next_memInst calm, h.newMEM_running]

/-- Cycle `m + 1` begins on schedule too, unless HALT has just entered EX. -/
theorem inv_next (hits : AlwaysHits κ) (running : s.next.haltAhead = false)
    (legal : s.next.idInst.isLegal = true)
    : s.next.Timed (m + 1) ((s.issued m).toList ++ older) := by
  have quiet : s.idIllegalException = false := by
    rw [next_idInst calm] at legal
    simp [idIllegalException, illegalInID, h.legal, h.latches.illegalDecoded_eq, legal]
  obtain ⟨full, fetching, unsquashed⟩ := hits.fetch_full calm h.moving h.fetching quiet
    fun hazard => (h.held_full hazard).2
  exact {
    latches := h.latches.inv_next
    unstalled := hits.dStallLeft_next h.unstalled
    fetching := fetching
    unsquashed := unsquashed
    running := running
    legal := legal
    onSchedule := h.onSchedule_next calm
    noHalt := by
      rw [h.haltAhead_next calm] at running
      rw [List.any_append, h.noHalt, Bool.or_false]
      cases flight : s.newEX.inFlight <;> simp [issued, entersEX, h.moving, calm, flight, running]
    writers := h.writers.inv_next h.latches h.moving calm
    front := h.front_next calm full }

end Timed

/-- Cycle `m` begins with HALT, the newest issue, on its way from EX to MEM or on to WB. -/
structure Ending (s : CycleState κ) (m : ℕ) (log : List Issue) : Prop where
  latches : s.LatchInv
  unstalled : s.dStallLeft = 0
  onSchedule : OnSchedule Issue.redirects log
  passes
    : ∃ halt older, log = halt :: older ∧ halt.inst.isHalt = true
        ∧ ((s.exInst.isHalt = true ∧ s.memInst.isHalt = false ∧ m = halt.cycle + 1)
          ∨ (s.memInst.isHalt = true ∧ m = halt.cycle + 2))

theorem Timed.ending_next (h : s.Timed m older) (hits : AlwaysHits κ)
    (calm : s.wbMemException = false) (halt : s.next.haltAhead = true)
    : s.next.Ending (m + 1) ((s.issued m).toList ++ older) where
  latches := h.latches.inv_next
  unstalled := hits.dStallLeft_next h.unstalled
  onSchedule := h.onSchedule_next calm
  passes := by
    have ahead := h.haltAhead_next calm
    rw [halt] at ahead
    have signals := h.latches.inEX_newEX.kind.halt ahead.symm
    have flight : s.newEX.inFlight = true := by
      by_contra empty
      have busy := signals.isNop
      simp [h.latches.inEX_newEX.empty (by simpa using empty)] at busy
    refine ⟨{ cycle := m, inst := s.newEX, nextPC := s.resolvedPC }, older, ?_, signals.isHalt,
      .inl ⟨?_, ?_, rfl⟩⟩
    · simp [issued, entersEX, h.moving, calm, flight]
    · rw [next_exInst calm, signals.isHalt]
    · rw [next_memInst calm, h.newMEM_running]

theorem Ending.inv_next {log : List Issue} (h : s.Ending m log) (hits : AlwaysHits κ)
    (calm : s.wbMemException = false) (running : s.halts = false)
    : s.next.Ending (m + 1) log where
  latches := h.latches.inv_next
  unstalled := hits.dStallLeft_next h.unstalled
  onSchedule := h.onSchedule
  passes := by
    have moving : s.dStallActive = false := by simp [dStallActive, h.unstalled]
    rw [h.latches.halts_eq, moving, Bool.not_false, Bool.true_and] at running
    obtain ⟨halt, older, newest, isHalt, ⟨inEX, _, now⟩ | ⟨inMEM, _⟩⟩ := h.passes
    · refine ⟨halt, older, newest, isHalt, .inr ⟨?_, by omega⟩⟩
      rw [next_memInst calm, h.latches.newMEM_isHalt moving, inEX]
    · simp [running] at inMEM

section Run

variable {start : CycleState κ} {n : ℕ} (hits : AlwaysHits κ) (base : start.Timed 0 [])
  (running : ∀ m < n, (next^[m] start).halts = false)
  (calm : ∀ m < n, (next^[m] start).wbMemException = false)
  (legal
    : ∀ m ≤ n, (next^[m] start).haltAhead = false → (next^[m] start).idInst.isLegal = true)
include hits base running calm legal

/-- A run keeps to the schedule until HALT has passed. -/
theorem timed_iterate
    : (next^[n] start).Timed n (issueLog start n)
      ∨ (next^[n] start).Ending n (issueLog start n) := by
  induction n with
  | zero => exact .inl base
  | succ n ih =>
      have before := ih (fun m earlier => running m (by omega)) (fun m earlier => calm m (by omega))
        fun m earlier => legal m (by omega)
      have allowed := legal (n + 1) le_rfl
      rw [Function.iterate_succ_apply'] at allowed ⊢
      rcases before with timed | ending
      · simp only [issueLog, timed.noHalt, Bool.false_eq_true, if_false]
        cases ahead : (next^[n] start).next.haltAhead with
        | false => exact .inl (timed.inv_next (calm n (by omega)) hits ahead (allowed ahead))
        | true => exact .inr (timed.ending_next hits (calm n (by omega)) ahead)
      · have halted : (issueLog start n).any (·.inst.isHalt) = true := by
          obtain ⟨halt, older, newest, isHalt, _⟩ := ending.passes
          simp [newest, isHalt]
        simp only [issueLog, halted, if_true]
        exact .inr (ending.inv_next hits (calm n (by omega)) (running n (by omega)))

/-- What enters EX up to HALT is what has left ID. -/
theorem issueLog_in_order
    : (issueLog start n).reverse.map (·.inst.token)
        <+: (Runs.events next leavesID start n).map Instruction.token
      ∧ ((issueLog start n).any (·.inst.isHalt) = false
        → (issueLog start n).reverse.map (·.inst.token)
          = (Runs.events next leavesID start n).map Instruction.token) := by
  induction n with
  | zero => exact ⟨List.prefix_rfl, fun _ => rfl⟩
  | succ n ih =>
      have before := ih (fun m earlier => running m (by omega)) (fun m earlier => calm m (by omega))
        fun m earlier => legal m (by omega)
      have state := timed_iterate hits base (fun m (earlier : m < n) => running m (by omega))
        (fun m earlier => calm m (by omega)) fun m earlier => legal m (by omega)
      rw [Runs.events_succ, List.map_append]
      cases halted : (issueLog start n).any (·.inst.isHalt) with
      | true =>
          simp only [issueLog, halted, if_true]
          exact ⟨before.1.trans (List.prefix_append _ _), by simp⟩
      | false =>
          have timed : (next^[n] start).Timed n (issueLog start n) := by
            refine state.resolve_right fun ending => ?_
            obtain ⟨halt, older, newest, isHalt, _⟩ := ending.passes
            simp [newest, isHalt] at halted
          have kept : (next^[n] start).leavesID.filter Instruction.isLegal
              = (next^[n] start).leavesID := by
            unfold leavesID
            split
            · simp [Option.filter, timed.legal]
            · rfl
          have entered := timed.latches.entersEX_eq (calm n (by omega))
          rw [kept] at entered
          have same : (((next^[n] start).issued n).toList ++ issueLog start n).reverse.map
                (·.inst.token)
              = (Runs.events next leavesID start n).map Instruction.token
                ++ (next^[n] start).leavesID.toList.map Instruction.token := by
            rw [List.reverse_append, List.map_append, before.2 halted, ← Option.toList_map,
              ← entered]
            cases inst : (next^[n] start).entersEX <;> simp [issued, inst]
          simp only [issueLog, halted, Bool.false_eq_true, if_false]
          exact ⟨same ▸ List.prefix_rfl, fun _ => same⟩

end Run

/-- The source counts every cycle. -/
theorem cycleCount_iterate (start : CycleState κ) (zero : start.cycleCount = 0) (n : ℕ)
    : (next^[n] start).cycleCount = BitVec.ofNat 64 n := by
  induction n with
  | zero => exact zero
  | succ n ih =>
      rw [Function.iterate_succ_apply', BitVec.ofNat_add, ← ih]
      rfl

/-- The first `n` cycles from `start` keep to the scoreboard with `penalized` as the
instructions after which fetching takes one more cycle.
-/
structure Scheduled (penalized : Issue → Bool) (start : CycleState κ) (n : ℕ) : Prop where
  /-- What enters EX is what enters ID, in the same order. -/
  order
    : (issueLog start n).reverse.map (·.inst.token)
      <+: (Runs.events next entersID start n).map Instruction.token
  onTime : OnSchedule penalized (issueLog start n)
  /-- The run that halts has taken three more cycles than HALT to enter EX. -/
  cycles
    : (next^[n] start).halts = true
      → ∃ halt older, issueLog start n = halt :: older ∧ halt.inst.isHalt = true
        ∧ (next^[n + 1] start).cycleCount = BitVec.ofNat 64 (halt.cycle + 3)

/-- With caches that always hit, every instruction enters EX in the cycle of the scoreboard,
which charges a cycle for each redirection of fetching. Witness: the writers that EX and MEM
hold are the latest of the last two cycles, and older ones are no reason to wait.
-/
theorem scoreboard_timing (hits : AlwaysHits κ) (past : CycleState κ) (iCache dCache : κ)
    (image : MemoryStore) (n : ℕ)
    (running : ∀ m < n, (next^[m] (initCycle past iCache dCache image)).halts = false)
    (sound
      : ∀ m < n, (next^[m] (initCycle past iCache dCache image)).wbMemException = false)
    (legal
      : ∀ m ≤ n, (next^[m] (initCycle past iCache dCache image)).haltAhead = false
        → (next^[m] (initCycle past iCache dCache image)).idInst.isLegal = true)
    : Scheduled Issue.redirects (initCycle past iCache dCache image) n := by
  have base := timed_initCycle past iCache dCache image
  have state := timed_iterate hits base running sound legal
  constructor
  · have stream := stream_id sound
    rw [show (initCycle past iCache dCache image).idInst.slot = [] from rfl, List.nil_append]
      at stream
    have entered := (issueLog_in_order hits base running sound legal).1
    rw [stream, List.map_append]
    exact entered.trans (List.prefix_append _ _)
  · rcases state with timed | ending
    · exact timed.onSchedule
    · exact ending.onSchedule
  · intro halts
    rcases state with timed | ending
    · have ahead := (timed.latches.halts_mem halts).2.1
      have running := timed.running
      simp [haltAhead, ahead] at running
    · obtain ⟨halt, older, newest, isHalt, ⟨_, inMEM, _⟩ | ⟨_, now⟩⟩ := ending.passes
      · simp [(ending.latches.halts_mem halts).2.1] at inMEM
      · refine ⟨halt, older, newest, isHalt, ?_⟩
        rw [cycleCount_iterate _ rfl, now]

/-- `jal x0, 4; HALT`: the jump to PC + 4 costs no cycle. -/
theorem jump_unpenalized
    : ¬ ∀ (past : CycleState IdealCache) (image : MemoryStore) (n : ℕ),
        (∀ m < n, (next^[m] (initCycle past {} {} image)).halts = false)
        → (∀ m < n, (next^[m] (initCycle past {} {} image)).wbMemException = false)
        → (∀ m ≤ n, (next^[m] (initCycle past {} {} image)).haltAhead = false
          → (next^[m] (initCycle past {} {} image)).idInst.isLegal = true)
        → Scheduled Issue.transfers (initCycle past {} {} image) n := by
  have early : ¬ OnSchedule Issue.transfers
      (issueLog (initCycle (.fresh {} {}) ({} : IdealCache) {}
        (.load [0x0040006f, 0xfeedfeed])) 5) := by
    decide +kernel
  intro claim
  obtain ⟨_, onTime, _⟩ := claim (.fresh {} {}) (.load [0x0040006f, 0xfeedfeed]) 5
    (by decide +kernel) (by decide +kernel) (by decide +kernel)
  exact early onTime

/-- `lw x2, 0(x0); beq x2, x0, 8; jal x0, 8; addi x2, x0, 5; HALT`: two cycles of waiting for
the load and one of refetching.
-/
theorem scoreboard_timing_load
    : Scheduled Issue.redirects
        (initCycle (.fresh {} {}) ({} : IdealCache) {}
          (.load [0x00002103, 0x00010463, 0x0080006f, 0x00500113, 0xfeedfeed] [])) 10 :=
  scoreboard_timing (fun _ _ _ => rfl) _ _ _ _ 10 (by decide +kernel) (by decide +kernel)
    (by decide +kernel)

end CycleState
end RiscvSim
