import RiscvSim.Correctness.FunctionalSimulation

/-! The dynamic instruction count. An observer keeps a ledger of the instances that the decoder
puts into ID, and follows them to WB without looking at `isNop` or at a status.
-/

namespace RiscvSim

theorem decodeSignals_isNop {inst : Instruction} (unmarked : inst.isNop = false)
    : (decodeSignals inst).isNop = true ↔ inst.instruction = nopWord := by
  unfold decodeSignals
  by_cases halt : inst.instruction = haltWord
  · rw [if_pos halt, halt]
    simp only [unmarked]
    decide
  by_cases nop : inst.instruction = nopWord
  · rw [if_neg halt, if_pos nop]
    simp [nop]
  · rw [if_neg halt, if_neg nop]
    simp only [apply_ite Instruction.isNop, unmarked, ite_self, nop, Bool.false_eq_true]

/-- A decoded instruction is marked as a NOP if and only if its word is `addi x0, x0, 0`. -/
theorem Instruction.Decoded.isNop_iff {inst : Instruction} (h : inst.Decoded)
    : inst.isNop = true ↔ inst.instruction = nopWord := by
  rw [(Instruction.sameControl h).isNop]
  exact decodeSignals_isNop rfl

namespace CycleState

variable {κ : Type}

/-- The instances in ID, EX and MEM as they entered ID, and those that have passed WB. -/
structure Ledger where
  id : Option Instruction := none
  ex : Option Instruction := none
  mem : Option Instruction := none
  retired : List Instruction := []

/-- One cycle of the observer. A memory exception squashes what is behind MEM, and an illegal
instruction goes nowhere from ID.
-/
def record (s : CycleState κ) (ledger : Ledger) : Ledger where
  id :=
    if s.wbMemException then none
    else if s.held then ledger.id
    else if s.decodes then some s.newID
    else none
  ex :=
    if s.wbMemException then none
    else if s.dStallActive then ledger.ex
    else if s.hazardStall then none
    else ledger.id.filter Instruction.isLegal
  mem :=
    if s.wbMemException then none
    else if s.dStallActive then ledger.mem
    else ledger.ex
  retired :=
    ledger.retired ++ (if s.dStallActive || s.memFaulted then [] else ledger.mem.toList)

/-- The ledger and the latches agree, up to the place of a NOP in MEM, and the counter has the
completed instances that are no NOPs.
-/
structure Agrees (s : CycleState κ) (ledger : Ledger) : Prop where
  id : ledger.id.toList = s.idInst.slot
  ex : ledger.ex.toList.map Instruction.control = s.exInst.slot.map Instruction.control
  mem : ledger.mem.toList.map Instruction.token = s.memInst.slot.map Instruction.token
  decoded : ∀ inst ∈ ledger.retired ++ ledger.mem.toList, inst.Decoded
  count : s.dynRetired = BitVec.ofNat 64 (ledger.retired.countP fun inst => !inst.isNop)

theorem agrees_initCycle (past : CycleState κ) (iCache dCache : κ) (mem : MemoryStore)
    : (initCycle past iCache dCache mem).Agrees {} where
  id := rfl
  ex := rfl
  mem := rfl
  decoded := fun _ member => absurd member (List.not_mem_nil)
  count := rfl

/-- An entry of the ledger and the latch it stands for are both empty or both occupied. -/
theorem slot_cases {α : Type} {f : Instruction → α} {entry : Option Instruction}
    {inst : Instruction} (same : entry.toList.map f = inst.slot.map f)
    : (entry = none ∧ inst.inFlight = false)
      ∨ ∃ entered, entry = some entered ∧ inst.inFlight = true ∧ f entered = f inst := by
  cases flight : inst.inFlight with
  | false =>
      left
      cases entry with
      | none => exact ⟨rfl, rfl⟩
      | some entered => simp [Instruction.slot, flight] at same
  | true =>
      right
      cases entry with
      | none => simp [Instruction.slot, flight] at same
      | some entered => exact ⟨entered, rfl, rfl, by simpa [Instruction.slot, flight] using same⟩

namespace Agrees

variable {s : CycleState κ} {ledger : Ledger} (h : s.Agrees ledger)
include h

theorem id_cases
    : (ledger.id = none ∧ s.idInst.inFlight = false)
      ∨ (ledger.id = some s.idInst ∧ s.idInst.inFlight = true) := by
  have same : ledger.id.toList.map (fun inst => inst) = s.idInst.slot.map fun inst => inst := by
    rw [h.id]
  rcases slot_cases same with empty | ⟨entered, occupied, flight, rfl⟩
  · exact .inl empty
  · exact .inr ⟨occupied, flight⟩

variable (l : s.LatchInv)
include l

/-- The instance in EX is decoded, like the one it leaves EX as. -/
theorem decoded_ex : ∀ inst ∈ ledger.ex.toList, inst.Decoded := by
  intro inst member
  rcases slot_cases h.ex with ⟨empty, _⟩ | ⟨entered, occupied, flight, same⟩
  · simp [empty] at member
  · rw [occupied, Option.toList_some, List.mem_singleton] at member
    exact member ▸ (l.inEX.decoded flight).of_control same

/-- What completes WB in this cycle, and what it adds to the counter. -/
theorem dynRetiredNext_eq
    : s.dynRetiredNext
      = s.dynRetired + BitVec.ofNat 64 ((if s.dStallActive || s.memFaulted then []
          else ledger.mem.toList).countP fun inst => !inst.isNop) := by
  unfold dynRetiredNext
  cases moving : s.dStallActive with
  | true => simp
  | false =>
      cases fault : s.memInst.memException with
      | true => simp [l.memFaulted_eq, fault]
      | false =>
          obtain ⟨same, _, sound, _⟩ := l.newWB_eq moving fault
          have fields := Instruction.sameControl same
          rw [l.memFaulted_eq, fault, fields.isNop, fields.isLegal, l.inMEM.legal, sound]
          rcases slot_cases h.mem with ⟨empty, idle⟩ | ⟨entered, occupied, _, token⟩
          · simp [empty, l.inMEM.empty idle]
          · have marked : entered.isNop = s.memInst.isNop := by
              unfold Instruction.token at token
              cases left : entered.isNop <;> cases right : s.memInst.isNop <;>
                simp_all
            cases nop : s.memInst.isNop <;> simp [occupied, marked, nop]

variable [CacheUnit κ]

theorem next : s.next.Agrees (s.record ledger) where
  id := by
    cases trap : s.wbMemException with
    | true => simp [record, CycleState.next, trap, slot_nop]
    | false =>
        rw [next_idInst trap]
        rcases s.newID_cases with ⟨frozen, same⟩ | ⟨moving, idle, status, bubble, same⟩
          | ⟨moving, decodes, same⟩
        · simpa [record, trap, frozen, same] using h.id
        · simp [record, trap, moving, idle, same, slot_nop bubble]
        · have flight := newID_inFlight moving
          simp [record, trap, moving, decodes, Instruction.slot, flight]
  ex := by
    cases trap : s.wbMemException with
    | true => simp [record, CycleState.next, trap, slot_nop]
    | false =>
        rw [next_exInst trap]
        cases moving : s.dStallActive with
        | true => simpa [record, trap, moving, newEX] using h.ex
        | false =>
            cases hazard : s.hazardStall with
            | true =>
                simp [record, trap, moving, hazard, l.newEX_hazard moving hazard, slot_nop]
            | false =>
                simp only [record, trap, moving, hazard, Bool.false_eq_true, if_false]
                cases legal : s.idInst.isLegal with
                | false =>
                    rw [l.newEX_illegal moving legal]
                    rcases h.id_cases with ⟨empty, _⟩ | ⟨occupied, _⟩
                    · simp [empty, slot_nop]
                    · simp [occupied, Option.filter, legal, slot_nop]
                | true =>
                    obtain ⟨same, flight, _⟩ :=
                      l.newEX_issued (held_free.mpr ⟨moving, hazard⟩) legal
                    rcases h.id_cases with ⟨empty, idle⟩ | ⟨occupied, busy⟩
                    · simp [empty, Instruction.slot, flight, idle]
                    · simp [occupied, Option.filter, legal, Instruction.slot, flight, busy, same]
  mem := by
    cases trap : s.wbMemException with
    | true => simp [record, CycleState.next, trap, slot_nop]
    | false =>
        rw [next_memInst trap]
        cases moving : s.dStallActive with
        | true => simpa [record, trap, moving, newMEM] using h.mem
        | false =>
            simp only [record, trap, moving, Bool.false_eq_true, if_false, Instruction.slot,
              l.newMEM_inFlight moving]
            rcases slot_cases h.ex with ⟨empty, idle⟩ | ⟨entered, occupied, flight, same⟩
            · simp [empty, idle]
            · simp [occupied, flight, l.newMEM_token moving, Instruction.token_of_control same]
  decoded := by
    intro inst member
    simp only [record, List.mem_append] at member
    rcases member with (earlier | leaves) | now
    · exact h.decoded inst (List.mem_append_left _ earlier)
    · split at leaves
      · exact absurd leaves List.not_mem_nil
      · exact h.decoded inst (List.mem_append_right _ leaves)
    · split at now
      · exact absurd now List.not_mem_nil
      split at now
      · exact h.decoded inst (List.mem_append_right _ now)
      · exact h.decoded_ex l inst now
  count := by
    simp only [CycleState.next, record, List.countP_append, h.dynRetiredNext_eq l, h.count,
      BitVec.ofNat_add]

end Agrees

variable [CacheUnit κ]

/-- The ledger after `n` cycles. -/
def ledgerAt (start : CycleState κ) (n : ℕ) : Ledger :=
  ((Runs.observed next record)^[n] (start, {})).2

/-- The instances that have completed WB in the first `n` cycles, oldest first. -/
def completed (start : CycleState κ) (n : ℕ) : List Instruction := (ledgerAt start n).retired

theorem ledgerAt_succ (start : CycleState κ) (n : ℕ)
    : ledgerAt start (n + 1) = (next^[n] start).record (ledgerAt start n) :=
  Runs.observed_iterate_snd_succ record start {} n

theorem agrees_iterate {start : CycleState κ} (l : start.LatchInv) (base : start.Agrees {})
    (n : ℕ) : (next^[n] start).Agrees (ledgerAt start n) := by
  induction n with
  | zero => exact base
  | succ n ih =>
      rw [Function.iterate_succ_apply', ledgerAt_succ]
      exact ih.next (l.iterate n)

/-- The counter has the completed instances whose word is not `addi x0, x0, 0`. -/
theorem dynRetired_eq {start : CycleState κ} (l : start.LatchInv) (base : start.Agrees {})
    (n : ℕ)
    : (next^[n] start).dynRetired
      = BitVec.ofNat 64 ((completed start n).countP fun inst => inst.instruction ≠ nopWord) := by
  have agrees := agrees_iterate l base n
  rw [agrees.count, completed]
  refine congrArg (BitVec.ofNat 64) (List.countP_congr fun inst member => ?_)
  have marked := (agrees.decoded inst (List.mem_append_left _ member)).isNop_iff
  cases nop : inst.isNop <;> simp_all

/-- The counter has all completed instances if and only if it does not overflow and none of
them is a NOP of the program.
-/
theorem dynRetired_eq_length_iff {start : CycleState κ} (l : start.LatchInv)
    (base : start.Agrees {}) (n : ℕ)
    : (next^[n] start).dynRetired.toNat = (completed start n).length
      ↔ (completed start n).length < 2 ^ 64
        ∧ ∀ inst ∈ completed start n, inst.instruction ≠ nopWord := by
  rw [dynRetired_eq l base, BitVec.toNat_ofNat]
  have bound : (completed start n).countP (fun inst => inst.instruction ≠ nopWord)
      ≤ (completed start n).length := List.countP_le_length
  constructor
  · intro all
    have small := Nat.mod_lt
      ((completed start n).countP fun inst => inst.instruction ≠ nopWord) (Nat.two_pow_pos 64)
    have le := Nat.mod_le
      ((completed start n).countP fun inst => inst.instruction ≠ nopWord) (2 ^ 64)
    have full : (completed start n).countP (fun inst => inst.instruction ≠ nopWord)
        = (completed start n).length := by omega
    refine ⟨by omega, fun inst member => ?_⟩
    simpa using List.countP_eq_length.mp full inst member
  · rintro ⟨small, other⟩
    have full : (completed start n).countP (fun inst => inst.instruction ≠ nopWord)
        = (completed start n).length :=
      List.countP_eq_length.mpr fun inst member => by simpa using other inst member
    rw [full, Nat.mod_eq_of_lt small]

-----------------------------------------------------------------------------------------
-- The counter of the functional simulator
-----------------------------------------------------------------------------------------

/-- The completed instances are those of sequential execution, and so is the one in MEM. -/
structure Retraces (image : MemoryStore) (ledger : Ledger) (c : ℕ) : Prop where
  retired
    : ledger.retired.map Instruction.control
      = (List.range c).map fun k => ((FunctState.path image k).decodedFrom image).control
  mem : ∀ inst ∈ ledger.mem, inst.control = ((FunctState.path image c).decodedFrom image).control

section Retraces

variable {s : CycleState κ} {ledger : Ledger} {image : MemoryStore} {N c : ℕ}
  (h : s.Steady image N c) (agrees : s.Agrees ledger) (r : Retraces image ledger c)
include h agrees r

omit [CacheUnit κ] in
theorem Retraces.retired_next
    : (s.record ledger).retired.map Instruction.control
      = (List.range (c + s.entersWB.toList.length)).map fun k =>
          ((FunctState.path image k).decodedFrom image).control := by
  have l := h.follows.latches
  rw [retires_length l h.dStallActive h.sound, slot_length]
  simp only [record, h.dStallActive, l.memFaulted_eq, h.sound, Bool.or_self, Bool.false_eq_true,
    if_false, List.map_append, r.retired]
  rcases slot_cases agrees.mem with ⟨empty, idle⟩ | ⟨entered, occupied, flight, _⟩
  · simp [empty, idle]
  · have here := r.mem entered occupied
    simp [occupied, flight, here, List.range_succ]

omit [CacheUnit κ] in
theorem Retraces.next (running : s.memInst.isHalt = false)
    : Retraces image (s.record ledger) (c + s.entersWB.toList.length) where
  retired := r.retired_next h agrees
  mem := by
    intro inst member
    have l := h.follows.latches
    rw [retires_length l h.dStallActive h.sound, ← exIndex]
    simp only [record, h.calm, h.dStallActive, Bool.false_eq_true, if_false] at member
    rcases slot_cases agrees.ex with ⟨empty, _⟩ | ⟨entered, occupied, flight, same⟩
    · simp [empty] at member
    · rw [occupied, Option.mem_some] at member
      rw [← member, same]
      exact (h.follows.retired.executes running flight).control

end Retraces

theorem retraces_iterate {start : CycleState κ} {image : MemoryStore} {N n : ℕ}
    (base : start.Steady image N 0) (empty : start.Agrees {})
    (plain : FunctState.Plain image N) (running : ∀ m < n, (next^[m] start).halts = false)
    : Retraces image (ledgerAt start n) (retiredCount start n) := by
  induction n with
  | zero => exact ⟨rfl, fun inst member => by simp [ledgerAt] at member⟩
  | succ n ih =>
      have earlier (m : ℕ) (less : m < n) : (next^[m] start).halts = false :=
        running m (by omega)
      have steady := steady_iterate base plain earlier
      have agrees := agrees_iterate base.follows.latches empty n
      have before := ih earlier
      rw [ledgerAt_succ, retiredCount, Runs.events_succ, List.length_append]
      exact before.next steady agrees (steady.mem_running (running n (by omega)))

/-- In a run that halts, the instances that complete are those of sequential execution. -/
theorem completed_eq {start : CycleState κ} {image : MemoryStore} {N n : ℕ}
    (base : start.Steady image N 0) (empty : start.Agrees {})
    (plain : FunctState.Plain image N) (halts : HaltsAt start n)
    : (completed start (n + 1)).map Instruction.control
      = (List.range (N + 1)).map fun k =>
          ((FunctState.path image k).decodedFrom image).control := by
  have steady := steady_iterate base plain halts.first
  have agrees := agrees_iterate base.follows.latches empty n
  have before := retraces_iterate base empty plain halts.first
  obtain ⟨last, retires⟩ := steady.last plain halts.reached
  rw [completed, ledgerAt_succ, before.retired_next steady agrees, last, retires]

omit [CacheUnit κ] in
theorem simInstruction_din (sim : Simulator) (pc : U64)
    : (sim.simInstruction pc).2.din = sim.din + 1 := by
  simp only [Simulator.simInstruction]
  split_ifs <;> rfl

/-- The functional simulator counts every instruction it executes. -/
theorem step_din (image : MemoryStore) (k : ℕ)
    : (FunctState.step^[k] (FunctState.init image)).simulator.din = BitVec.ofNat 64 k := by
  induction k with
  | zero => rfl
  | succ k ih =>
      rw [Function.iterate_succ_apply', BitVec.ofNat_add, ← ih]
      exact simInstruction_din _ _

section Functional

variable {start : CycleState κ} {image : MemoryStore} {N n : ℕ}
  (base : start.Steady image N 0) (empty : start.Agrees {})
  (ends : FunctState.HaltsAt (FunctState.init image) N)
  (free : FunctState.MemoryFree (FunctState.init image) N) (halts : HaltsAt start n)
include base empty ends free halts

/-- The words of the completed instances are those the functional simulator executes. -/
theorem completed_words
    : (completed start (n + 1)).map Instruction.instruction
      = (List.range (N + 1)).map fun k =>
          (FunctState.step^[k] (FunctState.init image)).inst.instruction := by
  have mapped := congrArg (List.map Instruction.instruction)
    (completed_eq base empty (FunctState.plain_of_haltsAt ends free) halts)
  rw [List.map_map, List.map_map] at mapped
  refine mapped.trans (List.map_congr_left fun k member => ?_)
  have bound : k ≤ N := Nat.lt_succ_iff.mp (List.mem_range.mp member)
  obtain ⟨same, unchanged⟩ := FunctState.path_eq free bound
  rw [← same, (FunctState.step_eq_stepFrom unchanged).2]
  exact (Instruction.sameControl FunctState.control_executedFrom).instruction.symm

/-- The two counters differ by the NOPs of the program. -/
theorem dynRetired_eq_din_iff
    : (next^[n + 1] start).dynRetired
        = (FunctState.step^[N + 1] (FunctState.init image)).simulator.din
      ↔ 2 ^ 64 ∣ (List.range (N + 1)).countP fun k =>
          (FunctState.step^[k] (FunctState.init image)).inst.instruction = nopWord := by
  have words := completed_words base empty ends free halts
  have length := congrArg List.length words
  rw [List.length_map, List.length_map, List.length_range] at length
  have nops : (List.range (N + 1)).countP (fun k =>
        (FunctState.step^[k] (FunctState.init image)).inst.instruction = nopWord)
      = (completed start (n + 1)).countP fun inst => inst.instruction = nopWord := by
    have counted := congrArg (List.countP fun word => decide (word = nopWord)) words
    rw [List.countP_map, List.countP_map] at counted
    exact counted.symm
  have total : (completed start (n + 1)).countP (fun inst => inst.instruction ≠ nopWord)
        + (completed start (n + 1)).countP (fun inst => inst.instruction = nopWord)
      = N + 1 := by
    rw [← length, List.length_eq_countP_add_countP fun inst => inst.instruction ≠ nopWord]
    simp
  rw [nops, dynRetired_eq base.follows.latches empty, step_din, ← total]
  exact Words.ofNat_eq_ofNat_add _ _

end Functional

/-- The counter has every instance that completed WB by the cycle of HALT if and only if none of
them is `addi x0, x0, 0`, which shares `isNop` with the bubbles, and it does not overflow. The
functional simulator counts its NOPs: the two counters agree if and only if it executed a
multiple of `2 ^ 64` of them. Witness: the ledger agrees with the latches in every cycle.
-/
theorem dynRetired_counts_iff (past : CycleState Cache)
    (iCacheConfig dCacheConfig : CacheConfig) (image : MemoryStore) (n : ℕ)
    (halts : HaltsAt (initSimulator past iCacheConfig dCacheConfig image) n)
    : ((next^[n + 1] (initSimulator past iCacheConfig dCacheConfig image)).dynRetired.toNat
          = (completed (initSimulator past iCacheConfig dCacheConfig image) (n + 1)).length
        ↔ (completed (initSimulator past iCacheConfig dCacheConfig image) (n + 1)).length < 2 ^ 64
          ∧ ∀ inst ∈ completed (initSimulator past iCacheConfig dCacheConfig image) (n + 1),
              inst.instruction ≠ nopWord)
      ∧ ∀ N, FunctState.HaltsAt (FunctState.init image) N
          → FunctState.MemoryFree (FunctState.init image) N
          → ((next^[n + 1] (initSimulator past iCacheConfig dCacheConfig image)).dynRetired
                = (FunctState.step^[N + 1] (FunctState.init image)).simulator.din
              ↔ 2 ^ 64 ∣ (List.range (N + 1)).countP fun k =>
                  (FunctState.step^[k] (FunctState.init image)).inst.instruction = nopWord) := by
  have l : (initSimulator past iCacheConfig dCacheConfig image).LatchInv :=
    latchInv_initCycle past _ _ image
  have empty : (initSimulator past iCacheConfig dCacheConfig image).Agrees {} :=
    agrees_initCycle past _ _ image
  refine ⟨dynRetired_eq_length_iff l empty (n + 1), fun N ends free => ?_⟩
  exact dynRetired_eq_din_iff (steady_initCycle past _ _) empty ends free halts

/-- `addi x1, x0, 3; HALT`: both instructions are counted, in both simulators. -/
theorem dynRetired_counts_addi
    : (next^[11] (boot testICache testDCache [0x00300093, 0xfeedfeed])).dynRetired.toNat
        = (completed (boot testICache testDCache [0x00300093, 0xfeedfeed]) 11).length
      ∧ (next^[11] (boot testICache testDCache [0x00300093, 0xfeedfeed])).dynRetired
        = (FunctState.step^[2]
          (FunctState.init (.load [0x00300093, 0xfeedfeed]))).simulator.din := by
  obtain ⟨completes, functional⟩ := dynRetired_counts_iff
    (.fresh (Cache.new testICache) (Cache.new testDCache)) testICache testDCache
    (.load [0x00300093, 0xfeedfeed]) 10 ⟨by decide +kernel, by decide +kernel⟩
  exact ⟨completes.mpr ⟨by decide +kernel, by decide +kernel⟩,
    (functional 1 ⟨by decide +kernel, by decide +kernel⟩
      (by unfold FunctState.MemoryFree; decide +kernel)).mpr (by decide +kernel)⟩

/-- `addi x0, x0, 0; HALT`: two instances complete and the functional simulator counts two,
but the counter has one.
-/
theorem dynRetired_misses_nop
    : HaltsAt (boot testICache testDCache [0x00000013, 0xfeedfeed]) 10
      ∧ (completed (boot testICache testDCache [0x00000013, 0xfeedfeed]) 11).length = 2
      ∧ (next^[11] (boot testICache testDCache [0x00000013, 0xfeedfeed])).dynRetired = 1
      ∧ FunctState.HaltsAt (FunctState.init (.load [0x00000013, 0xfeedfeed])) 1
      ∧ FunctState.MemoryFree (FunctState.init (.load [0x00000013, 0xfeedfeed])) 1
      ∧ (FunctState.step^[2]
          (FunctState.init (.load [0x00000013, 0xfeedfeed]))).simulator.din = 2 := by
  refine ⟨⟨by decide +kernel, by decide +kernel⟩, by decide +kernel, by decide +kernel,
    ⟨by decide +kernel, by decide +kernel⟩, ?_, by decide +kernel⟩
  unfold FunctState.MemoryFree
  decide +kernel

end CycleState
end RiscvSim
