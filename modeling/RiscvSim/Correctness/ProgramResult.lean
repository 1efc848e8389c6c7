import RiscvSim.Correctness.CacheTiming
import RiscvSim.Correctness.HaltEffects

/-! A program whose operands are all forwarded ends in the pipeline as it does in the functional
simulator, loads and stores included: with the same registers and the same memory.
-/

namespace RiscvSim

/-- A fetch that does not fault returns the word and nothing else. -/
theorem simFetch_eq {pc : U64} {mem : MemoryStore} (sound : (simFetch pc mem).memException = false)
    : simFetch pc mem = { pc := pc, instruction := mem.word pc } := by
  have read : (mem.getMemValue pc .wordSize).1 = 0 := by
    by_contra fault
    simp [simFetch, fault] at sound
  simp [simFetch, MemoryStore.word, read]

namespace FunctState

variable {image : MemoryStore} {a : FunctState}

/-- The functional simulator executes the image's instruction where memory still has its word.
-/
theorem step_eq_of_word (word : a.simulator.memory.word a.pc = image.word a.pc)
    (legal : (a.decodedFrom image).isLegal = true)
    : a.step = a.stepFrom image ∧ a.inst = a.executedFrom image := by
  have fetched := fetched_simFetch a.pc a.simulator.memory
  have decoded : (simDecode (simFetch a.pc a.simulator.memory)).control
      = (a.decodedFrom image).control :=
    fetched.decodedFrom (simFetch_pc _ _) word
  have sound := fetched.legal_fetched ((Instruction.sameControl decoded).isLegal.trans legal)
  have same : simFetch a.pc a.simulator.memory = simFetch a.pc image := by
    rw [simFetch_eq sound, simFetch_eq ((fetched_simFetch a.pc image).legal_fetched legal), word]
  have executes := a.simulator.simInstruction_eq a.pc
  rw [same] at executes
  have inst : a.inst = a.executedFrom image := by rw [FunctState.inst, executes]; rfl
  refine ⟨?_, inst⟩
  rw [step, stepFrom, inst, executes]
  rfl

/-- As long as every instruction finds the image's word, sequential execution of the image is
the functional simulator.
-/
theorem path_eq_iterate {n : ℕ}
    (word
      : ∀ k < n,
          (path image k).simulator.memory.word (path image k).pc = image.word (path image k).pc)
    (legal : ∀ k < n, ((path image k).decodedFrom image).isLegal = true)
    : (∀ k ≤ n, path image k = step^[k] (init image))
      ∧ ∀ k < n, (step^[k] (init image)).inst = (path image k).executedFrom image := by
  have same (k : ℕ) (bound : k ≤ n) : path image k = step^[k] (init image) := by
    induction k with
    | zero => rfl
    | succ k ih =>
        rw [path_succ, Function.iterate_succ_apply', ← ih (by omega)]
        exact (step_eq_of_word (word k (by omega)) (legal k (by omega))).1.symm
  refine ⟨same, fun k bound => ?_⟩
  rw [← same k bound.le]
  exact (step_eq_of_word (word k bound) (legal k bound)).2

/-- There is one first HALT. -/
theorem HaltsAt.unique {start : FunctState} {m n : ℕ} (first : HaltsAt start m)
    (second : HaltsAt start n) : m = n := by
  rcases Nat.lt_trichotomy m n with before | same | behind
  · have running := (second.first m before).1
    simp [first.reached] at running
  · exact same
  · have running := (first.first n behind).1
    simp [second.reached] at running

end FunctState

namespace CycleState

variable {κ : Type} {s : CycleState κ} {image : MemoryStore} {code : U64 → Prop} {c : ℕ}

-----------------------------------------------------------------------------------------
-- Every instruction of sequential execution passes ID
-----------------------------------------------------------------------------------------

/-- `Q` holds of the numbers of the instructions that have retired, and of those in flight that
are not behind HALT.
-/
structure Numbered (Q : ℕ → Prop) (s : CycleState κ) (c : ℕ) : Prop where
  retired : ∀ k < c, Q k
  mem : s.memInst.inFlight = true → Q c
  ex : s.memInst.isHalt = false → s.exInst.inFlight = true → Q (s.exIndex c)
  id : s.haltAhead = false → s.idInst.inFlight = true → Q (s.idIndex c)

theorem numbered_initCycle (Q : ℕ → Prop) (past : CycleState κ) (iCache dCache : κ)
    : (initCycle past iCache dCache image).Numbered Q 0 where
  retired := fun k earlier => absurd earlier (Nat.not_lt_zero k)
  mem := fun flight => by simp [initCycle, nop, Instruction.inFlight] at flight
  ex := fun _ flight => by simp [initCycle, nop, Instruction.inFlight] at flight
  id := fun _ flight => by simp [initCycle, nop, Instruction.inFlight] at flight

variable {Q : ℕ → Prop}

/-- The instructions that have left EX. -/
theorem Numbered.left_ex (q : s.Numbered Q c) {k : ℕ} (bound : k < s.exIndex c) : Q k := by
  by_cases before : k < c
  · exact q.retired k before
  · rw [exIndex, slot_length] at bound
    split at bound
    · rename_i occupied
      have now : k = c := by omega
      exact now ▸ q.mem occupied
    · omega

variable [CacheUnit κ]

/-- What holds of the instruction that enters ID holds of all. -/
theorem Numbered.inv_next (q : s.Numbered Q c) (h : s.Follows image code c)
    (proceeds : s.Proceeds image code)
    (enters
      : s.decodes = true → s.next.haltAhead = false
        → Q (s.next.idIndex (c + s.entersWB.toList.length)))
    : s.next.Numbered Q (c + s.entersWB.toList.length) := by
  have l := h.latches
  have calm := proceeds.calm
  have id (ahead : s.next.haltAhead = false) (flight : s.next.idInst.inFlight = true)
      : Q (s.next.idIndex (c + s.entersWB.toList.length)) := by
    have gate := h.ahead calm proceeds.running ahead
    rcases (next_id_inFlight flight).2 with ⟨frozen, occupied⟩ | ⟨_, decodes⟩
    · rw [idIndex_next l calm (h.fetches gate).legal]
      simpa [leavesID, frozen] using q.id gate occupied
    · exact enters decodes ahead
  cases moving : s.dStallActive with
  | true =>
      have mem : s.next.memInst = s.memInst := by simp [next_memInst calm, newMEM, moving]
      have ex : s.next.exInst = s.exInst := by simp [next_exInst calm, newEX, moving]
      have here : s.entersWB.toList.length = 0 := by rw [entersWB_frozen moving]; rfl
      refine ⟨?_, ?_, ?_, id⟩
      · simpa only [here, Nat.add_zero] using q.retired
      · simpa only [here, mem, Nat.add_zero] using q.mem
      · simpa only [here, mem, ex, exIndex, Nat.add_zero] using q.ex
  | false =>
      have running : s.memInst.isHalt = false := by
        simpa [l.halts_eq, moving] using proceeds.running
      have retires := retires_length l moving (l.calm_iff.mp calm)
      rw [retires, ← exIndex] at id ⊢
      refine ⟨fun k => q.left_ex, fun flight => ?_, fun behind flight => ?_, id⟩
      · rw [next_memInst calm, l.newMEM_inFlight moving] at flight
        exact q.ex running flight
      · rw [exIndex_moving l moving calm]
        rw [next_memInst calm, l.newMEM_isHalt moving] at behind
        obtain ⟨_, occupied, _⟩ :=
          (l.next_ex_inFlight flight).2.resolve_left (by simp [moving])
        exact q.id (by simp [haltAhead, behind, running]) occupied

-----------------------------------------------------------------------------------------
-- The result of a run
-----------------------------------------------------------------------------------------

/-- What the functional simulator has to find of an instruction: it is legal, and its word is
among those that are not written.
-/
def Decoded (image : MemoryStore) (code : U64 → Prop) (k : ℕ) : Prop :=
  code (FunctState.path image k).pc
  ∧ ((FunctState.path image k).decodedFrom image).isLegal = true

/-- The refinement relation, together with what it implies for the instructions so far. -/
structure Executed (image : MemoryStore) (code : U64 → Prop) (s : CycleState κ) (c : ℕ)
    : Prop where
  follows : s.Follows image code c
  numbered : s.Numbered (Decoded image code) c
  memory
    : ∀ k ≤ s.exIndex c, ∀ pc, code pc →
        (FunctState.path image k).simulator.memory.word pc = image.word pc

omit [CacheUnit κ] in
theorem executed_initCycle (past : CycleState κ) (iCache dCache : κ)
    : (initCycle past iCache dCache image).Executed image code 0 where
  follows := follows_initCycle past iCache dCache
  numbered := numbered_initCycle _ past iCache dCache
  memory := fun k first pc _ => by
    have zero : k = 0 := Nat.le_zero.mp first
    rw [zero]
    rfl

/-- At most one instruction leaves EX in a cycle. -/
theorem exIndex_next_le (l : s.LatchInv) (calm : s.wbMemException = false)
    : s.next.exIndex (c + s.entersWB.toList.length) ≤ s.exIndex c + 1 := by
  cases moving : s.dStallActive with
  | true =>
      have mem : s.next.memInst = s.memInst := by simp [next_memInst calm, newMEM, moving]
      rw [entersWB_frozen moving, exIndex, mem, exIndex]
      exact Nat.le_succ _
  | false =>
      rw [retires_length l moving (l.calm_iff.mp calm), ← exIndex, exIndex_moving l moving calm,
        idIndex, slot_length]
      split <;> omega

theorem Executed.inv_next (h : s.Executed image code c) (proceeds : s.Proceeds image code)
    : s.next.Executed image code (c + s.entersWB.toList.length) := by
  have l := h.follows.latches
  have after := h.follows.inv_next proceeds
  refine ⟨after, h.numbered.inv_next h.follows proceeds fun decodes ahead => ?_, ?_⟩
  · have gate := h.follows.ahead proceeds.calm proceeds.running ahead
    have entered : s.next.idInst.inFlight = true := by
      rw [next_idInst proceeds.calm, newID_inFlight (decodes_clear decodes).1, decodes]
    have here := h.follows.pending_next proceeds.calm gate ahead s.newID.pc
      (by simp [entersID, decodes, proceeds.calm])
    have control := h.follows.decoded_next proceeds.calm gate ahead proceeds.decoded entered
    refine ⟨?_, (Instruction.sameControl control).isLegal.symm.trans (proceeds.legal ahead)⟩
    rw [← here, newID_pc decodes]
    exact proceeds.decoded decodes
  · intro k bound pc known
    by_cases before : k ≤ s.exIndex c
    · exact h.memory k before pc known
    · have bounded := exIndex_next_le (c := c) l proceeds.calm
      have last : k = s.next.exIndex (c + s.entersWB.toList.length) := by omega
      rw [last, ← after.retired.memory]
      exact after.holds.memory pc known

theorem retiredCount_succ (start : CycleState κ) (n : ℕ)
    : retiredCount start (n + 1)
      = retiredCount start n + (next^[n] start).entersWB.toList.length := by
  rw [retiredCount, Runs.events_succ, List.length_append]
  rfl

theorem executed_iterate {start : CycleState κ} (base : start.Executed image code 0) {n : ℕ}
    (proceeds : ∀ m < n, (next^[m] start).Proceeds image code)
    : (next^[n] start).Executed image code (retiredCount start n) := by
  induction n with
  | zero => exact base
  | succ n ih =>
      have before := ih fun m earlier => proceeds m (by omega)
      rw [Function.iterate_succ_apply', retiredCount_succ]
      exact before.inv_next (proceeds n (by omega))

omit [CacheUnit κ] in
/-- The instructions up to number `n` are executed by the functional simulator as by sequential
execution of the image.
-/
theorem Executed.path_eq (h : s.Executed image code c) {n : ℕ} (bound : n ≤ s.exIndex c + 1)
    (decoded : ∀ k < n, Decoded image code k)
    : (∀ k ≤ n, FunctState.path image k = FunctState.step^[k] (FunctState.init image))
      ∧ ∀ k < n,
          (FunctState.step^[k] (FunctState.init image)).inst
          = (FunctState.path image k).executedFrom image :=
  FunctState.path_eq_iterate
    (fun k below => h.memory k (by omega) _ (decoded k below).1)
    (fun k below => (decoded k below).2)

omit [CacheUnit κ] in
/-- The functional simulator executes the instruction in EX. -/
theorem Executed.inst_eq (h : s.Executed image code c) (running : s.memInst.isHalt = false)
    (flight : s.exInst.inFlight = true)
    : FunctState.path image (s.exIndex c)
        = FunctState.step^[s.exIndex c] (FunctState.init image)
      ∧ (FunctState.step^[s.exIndex c] (FunctState.init image)).inst
        = (FunctState.path image (s.exIndex c)).executedFrom image := by
  have decoded (k : ℕ) (bound : k < s.exIndex c + 1) : Decoded image code k := by
    rcases Nat.lt_succ_iff_lt_or_eq.mp bound with before | rfl
    · exact h.numbered.left_ex before
    · exact h.numbered.ex running flight
  obtain ⟨same, inst⟩ := h.path_eq le_rfl decoded
  exact ⟨same _ (Nat.le_succ _), inst _ (Nat.lt_succ_self _)⟩

/-- In the cycle that halts, the functional simulator is at its HALT. -/
theorem Executed.halts (h : s.Executed image code c) (halts : s.halts = true)
    (running : ∀ k < c, ((FunctState.path image k).decodedFrom image).isHalt = false)
    : FunctState.HaltsAt (FunctState.init image) c
      ∧ (∀ r, r ≠ 0 →
          s.next.simulator.regData r
            = (FunctState.step^[c + 1] (FunctState.init image)).simulator.regData r)
      ∧ s.simulator.memory
        = (FunctState.step^[c + 1] (FunctState.init image)).simulator.memory := by
  obtain ⟨_, _, flight, _⟩ := h.follows.latches.halts_mem halts
  have last : s.exIndex c = c + 1 := by simp [exIndex, slot_length, flight]
  have decoded (k : ℕ) (bound : k < c + 1) : Decoded image code k :=
    h.numbered.left_ex (by omega)
  obtain ⟨same, executed⟩ := h.path_eq (by omega) decoded
  have inst (k : ℕ) (bound : k < c + 1)
      : (FunctState.step^[k] (FunctState.init image)).inst.SameControl
          ((FunctState.path image k).decodedFrom image) := by
    rw [executed k bound]
    exact Instruction.sameControl FunctState.control_executedFrom
  obtain ⟨here, _, registers⟩ := h.follows.halts_eq halts
  refine ⟨⟨(inst c (by omega)).isHalt.trans here, fun k before => ⟨?_, ?_⟩⟩, ?_, ?_⟩
  · exact (inst k (by omega)).isHalt.trans (running k before)
  · exact (inst k (by omega)).isLegal.trans (decoded k (by omega)).2
  · rw [← same (c + 1) le_rfl]
    exact registers
  · rw [← same (c + 1) le_rfl, ← last]
    exact h.follows.retired.memory

/-- The code of a run: what its first `n` cycles decode. -/
def codeOf (start : CycleState κ) (n : ℕ) (pc : U64) : Prop :=
  ∃ m < n, (next^[m] start).decodes = true ∧ (next^[m] start).ifInst.pc = pc

/-- A clean run that forwards every operand executes the image up to its HALT. -/
theorem HaltsCleanly.executed {past : CycleState κ} {iCache dCache : κ} {n : ℕ}
    (clean : HaltsCleanly (initCycle past iCache dCache image) n)
    (forwards : Forwards (initCycle past iCache dCache image) n) {m : ℕ} (bound : m ≤ n)
    : (next^[m] (initCycle past iCache dCache image)).Executed image
        (codeOf (initCycle past iCache dCache image) n)
        (retiredCount (initCycle past iCache dCache image) m) := by
  exact executed_iterate (executed_initCycle past iCache dCache) fun k earlier =>
    clean.proceeds forwards k (by omega)

/-- A program whose code lies below `limit` and whose stores lie above writes no word that it
executes.
-/
theorem HaltsCleanly.of_limit {start : CycleState κ} {n : ℕ} (limit : ℕ)
    (halts : HaltsAt start n) (sound : ∀ m < n, (next^[m] start).wbMemException = false)
    (legal
      : ∀ m < n, (next^[m] start).haltAhead = false → (next^[m] start).idInst.isLegal = true)
    (stores
      : ∀ m < n, (next^[m] start).exInst.writesMem = true
        → limit ≤ (simAddrGen (next^[m] start).exInst).memAddress.toNat
          ∧ (simAddrGen (next^[m] start).exInst).memAddress.toNat
              + (accessSize (next^[m] start).exInst).bytes ≤ 2 ^ 64)
    (code
      : ∀ m < n, (next^[m] start).decodes = true
        → (next^[m] start).ifInst.pc.toNat + 4 ≤ limit)
    : HaltsCleanly start n where
  halts := halts
  sound := sound
  legal := legal
  apart := fun m earlier k before decodes _ writes i inside j inWord same => by
    obtain ⟨above, fits⟩ := stores m earlier writes
    have below := code k before decodes
    have address := congrArg BitVec.toNat same
    rw [BitVec.toNat_add, BitVec.toNat_add, BitVec.toNat_ofNat, BitVec.toNat_ofNat] at address
    omega

end CycleState
end RiscvSim
