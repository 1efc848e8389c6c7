import RiscvSim.Correctness.DataAccesses
import RiscvSim.Correctness.FunctionalSimulation

/-! Programs the pipeline executes correctly whatever its caches do: conditions on the run of
the functional simulator alone, each over at most three instructions in a row.
-/

namespace RiscvSim

namespace Instruction

/-- `inst` reads register `r`. -/
def reads (inst : Instruction) (r : U64) : Bool :=
  (inst.readsRs1 && inst.rs1 == r) || (inst.readsRs2 && inst.rs2 == r)

/-- `consumer` reads the register, other than 0, that `producer` writes. -/
def dependsOn (consumer producer : Instruction) : Bool :=
  producer.rd != 0 && producer.writes producer.rd && consumer.reads producer.rd

/-- A store does not take its data from a load right before it. -/
def StoreApart (load store : Instruction) : Prop :=
  store.writesMem = true → load.writes store.rs2 = true → load.readsMem = false

/-- Conditions on three instructions in a row: an instruction that waits for the load right
before it, or a branch that waits for the load before that one while a load or store is in
between, needs no other result that leaves the pipeline meanwhile; and the data of a store is
not written by both instructions before it.
-/
structure Spaced (first second third : Instruction) : Prop where
  loadUse
    : second.readsMem = true → third.dependsOn second = true → third.dependsOn first = true
      → first.rd = second.rd
  branch
    : third.opcode = opBranch ∨ third.opcode = opJalr
      → first.readsMem = true → third.dependsOn first = true
      → second.readsMem = true ∨ second.writesMem = true
      → second.writes first.rd = true
  store
    : third.writesMem = true → second.writes third.rs2 = true
      → first.writes third.rs2 = false

/-- The instruction stores no byte of the word at `pc`. -/
def SparesWord (inst : Instruction) (pc : U64) : Prop :=
  inst.writesMem = true
    → ∀ i < (accessSize inst).bytes, ∀ j < 4,
        inst.memAddress + BitVec.ofNat 64 i ≠ pc + BitVec.ofNat 64 j

instance (load store : Instruction) : Decidable (load.StoreApart store) :=
  inferInstanceAs (Decidable (_ → _))

instance (first second third : Instruction) : Decidable (first.Spaced second third) :=
  decidable_of_iff
    ((second.readsMem = true → third.dependsOn second = true → third.dependsOn first = true
        → first.rd = second.rd)
      ∧ (third.opcode = opBranch ∨ third.opcode = opJalr
        → first.readsMem = true → third.dependsOn first = true
        → second.readsMem = true ∨ second.writesMem = true
        → second.writes first.rd = true)
      ∧ (third.writesMem = true → second.writes third.rs2 = true
        → first.writes third.rs2 = false))
    ⟨fun h => ⟨h.1, h.2.1, h.2.2⟩, fun h => ⟨h.loadUse, h.branch, h.store⟩⟩

instance (inst : Instruction) (pc : U64) : Decidable (inst.SparesWord pc) :=
  inferInstanceAs (Decidable (_ → _))

theorem dependsOn_iff {consumer producer : Instruction}
    : consumer.dependsOn producer = true
      ↔ ∃ r, r ≠ 0 ∧ producer.writes r = true ∧ consumer.reads r = true := by
  constructor
  · intro depends
    simp only [dependsOn, Bool.and_eq_true, bne_iff_ne] at depends
    exact ⟨_, depends.1.1, depends.1.2, depends.2⟩
  · rintro ⟨r, nonzero, writes, reads⟩
    have target : producer.rd = r := by
      simp only [Instruction.writes, Bool.and_eq_true, beq_iff_eq] at writes
      exact writes.2
    simp only [dependsOn, Bool.and_eq_true, bne_iff_ne, target]
    exact ⟨⟨nonzero, writes⟩, reads⟩

section SameControl

variable {a b c a' b' c' : Instruction} (second : b.control = b'.control)
  (third : c.control = c'.control)
include second third

theorem dependsOn_of_control : c.dependsOn b = c'.dependsOn b' := by
  have producer := Instruction.sameControl second
  have consumer := Instruction.sameControl third
  simp only [dependsOn, reads, producer.rd, Instruction.writes_of_control second,
    consumer.readsRs1, consumer.readsRs2, consumer.rs1, consumer.rs2]

theorem StoreApart.of_control (h : b'.StoreApart c') : b.StoreApart c := by
  have producer := Instruction.sameControl second
  have consumer := Instruction.sameControl third
  simpa only [StoreApart, producer.readsMem, Instruction.writes_of_control second,
    consumer.writesMem, consumer.rs2] using h

theorem Spaced.of_control (first : a.control = a'.control) (h : a'.Spaced b' c')
    : a.Spaced b c := by
  have oldest := Instruction.sameControl first
  have middle := Instruction.sameControl second
  have youngest := Instruction.sameControl third
  constructor
  · simpa only [middle.readsMem, dependsOn_of_control second third,
      dependsOn_of_control first third, oldest.rd, middle.rd] using h.loadUse
  · simpa only [youngest.opcode, oldest.readsMem, dependsOn_of_control first third,
      middle.readsMem, middle.writesMem, Instruction.writes_of_control second, oldest.rd]
      using h.branch
  · simpa only [youngest.writesMem, youngest.rs2, Instruction.writes_of_control second,
      Instruction.writes_of_control first] using h.store

end SameControl

/-- An access that stores no byte of a word leaves the word as it is. -/
theorem SparesWord.word {inst : Instruction} {pc : U64} (spares : inst.SparesWord pc)
    (mem : MemoryStore)
    : (simMemAccess inst mem).2.word pc = mem.word pc := by
  unfold simMemAccess
  by_cases reads : inst.readsMem = true
  · simp only [reads, if_true]
    split_ifs <;> rfl
  · by_cases writes : inst.writesMem = true
    · simp only [reads, writes, Bool.false_eq_true, if_false, if_true]
      rw [apply_ite Prod.snd, ite_self]
      exact MemoryStore.setMemValue_word (spares writes)
    · simp only [reads, writes, Bool.false_eq_true, if_false]

end Instruction

namespace FunctState

variable {image : MemoryStore} {a : FunctState} {N k : ℕ}

/-- The functional simulator executes HALT after `N` other instructions that fault nowhere and
store into none of the words executed, and the instructions in a row are spaced.
-/
structure Scheduled (start : FunctState) (N : ℕ) : Prop where
  halts : HaltsAt start N
  sound : ∀ k < N, (step^[k] start).inst.memException = false
  apart : ∀ k < N, ∀ j ≤ N, (step^[k] start).inst.SparesWord (step^[j] start).pc
  stores : ∀ k < N, (step^[k] start).inst.StoreApart (step^[k + 1] start).inst
  spaced
    : ∀ k < N - 1,
        (step^[k] start).inst.Spaced (step^[k + 1] start).inst (step^[k + 2] start).inst

/-- The same conditions on sequential execution of the image. -/
structure ScheduledPath (image : MemoryStore) (N : ℕ) : Prop where
  halt : ((path image N).decodedFrom image).isHalt = true
  running : ∀ k < N, ((path image k).decodedFrom image).isHalt = false
  legal : ∀ k ≤ N, ((path image k).decodedFrom image).isLegal = true
  sound : ∀ k ≤ N, ((path image k).executedFrom image).memException = false
  words
    : ∀ k ≤ N + 1, ∀ j ≤ N,
        (path image k).simulator.memory.word (path image j).pc = image.word (path image j).pc
  stores
    : ∀ k < N,
        ((path image k).decodedFrom image).StoreApart ((path image (k + 1)).decodedFrom image)
  spaced
    : ∀ k, k + 2 ≤ N
        → ((path image k).decodedFrom image).Spaced ((path image (k + 1)).decodedFrom image)
            ((path image (k + 2)).decodedFrom image)

/-- The decoded part of the next instruction is the image's where its word is. -/
theorem inst_control_of_word
    (word : a.simulator.memory.word a.pc = image.word a.pc)
    : a.inst.control = (a.decodedFrom image).control := by
  have decoded : (a.decodedFrom a.simulator.memory).control = (a.decodedFrom image).control :=
    (fetched_simFetch a.pc a.simulator.memory).decodedFrom (simFetch_pc _ _) word
  rw [(step_eq_stepFrom rfl).2, control_executedFrom, decoded]

/-- An instruction that stores no byte of a word leaves the word as it is. -/
theorem stepFrom_word {pc : U64} (legal : (a.decodedFrom image).isLegal = true)
    (spares : (a.executedFrom image).SparesWord pc)
    : (a.stepFrom image).simulator.memory.word pc = a.simulator.memory.word pc := by
  by_cases access
      : (a.decodedFrom image).readsMem = true ∨ (a.decodedFrom image).writesMem = true
  · have executed : (a.executedFrom image).SameControl (a.decodedFrom image) :=
      Instruction.sameControl control_executedFrom
    have prepared : (simAddrGen (a.prepared image)).SameControl (a.decodedFrom image) :=
      Instruction.sameControl ((control_simAddrGen _).trans control_prepared)
    have sound := prepared_blank.2 legal
    obtain ⟨memory, _⟩ :=
      stepFrom_access control_prepared collected_prepared legal access sound
    obtain ⟨address, _⟩ :=
      executedFrom_access control_prepared collected_prepared legal access sound
    have size : accessSize (simAddrGen (a.prepared image))
        = accessSize (a.executedFrom image) := by
      simp only [accessSize, prepared.funct3, executed.funct3]
    rw [memory]
    refine Instruction.SparesWord.word (fun store => ?_) _
    rw [size, ← address]
    exact spares (executed.writesMem.trans (prepared.writesMem.symm.trans store))
  · simp only [not_or, Bool.not_eq_true] at access
    rw [stepFrom_memory access.1 access.2]

theorem inst_hasKind (a : FunctState) : a.inst.HasKind := by
  rw [(step_eq_stepFrom rfl).2]
  exact decodedFrom_decoded.hasKind.of_control control_executedFrom

namespace Scheduled

variable (h : Scheduled (init image) N)
include h

/-- Every instruction up to HALT is legal. -/
theorem legal (bound : k ≤ N) : (step^[k] (init image)).inst.isLegal = true := by
  rcases Nat.lt_or_eq_of_le bound with earlier | rfl
  · exact (h.halts.first k earlier).2
  · exact ((inst_hasKind _).halt h.halts.reached).isLegal

/-- None of them faults or stores into a word that is executed, HALT included. -/
theorem spares (bound : k ≤ N) {j : ℕ} (inRun : j ≤ N)
    : (step^[k] (init image)).inst.SparesWord (step^[j] (init image)).pc := by
  rcases Nat.lt_or_eq_of_le bound with earlier | rfl
  · exact h.apart k earlier j inRun
  · exact fun store => by simp [((inst_hasKind _).halt h.halts.reached).writesMem] at store

/-- Up to HALT and behind it, sequential execution of the image is the functional simulator, and
memory has the words of the program. Witness: induction on the instructions.
-/
theorem path_eq (bound : k ≤ N + 1)
    : FunctState.path image k = step^[k] (init image)
      ∧ ∀ j ≤ N,
          (step^[k] (init image)).simulator.memory.word (step^[j] (init image)).pc
          = image.word (step^[j] (init image)).pc := by
  induction k with
  | zero => exact ⟨rfl, fun j _ => rfl⟩
  | succ k ih =>
      obtain ⟨same, words⟩ := ih (by omega)
      have here := words k (by omega)
      have legal := (Instruction.sameControl (inst_control_of_word here)).isLegal.symm.trans
        (h.legal (by omega))
      obtain ⟨step, inst⟩ := step_eq_of_word here legal
      rw [Function.iterate_succ_apply', path_succ, same, step]
      refine ⟨rfl, fun j inRun => ?_⟩
      rw [stepFrom_word legal (inst ▸ h.spares (by omega) inRun)]
      exact words j inRun

/-- Each instruction is that of sequential execution. -/
theorem inst_eq (bound : k ≤ N)
    : (step^[k] (init image)).inst = (FunctState.path image k).executedFrom image := by
  obtain ⟨same, words⟩ := h.path_eq (k := k) (by omega)
  have here := words k bound
  have legal := (Instruction.sameControl (inst_control_of_word here)).isLegal.symm.trans
    (h.legal bound)
  rw [same]
  exact (step_eq_of_word here legal).2

theorem control_eq (bound : k ≤ N)
    : ((FunctState.path image k).decodedFrom image).control
      = (step^[k] (init image)).inst.control := by
  rw [h.inst_eq bound, control_executedFrom]

/-- HALT does not access memory. -/
theorem sound_le (bound : k ≤ N)
    : ((FunctState.path image k).executedFrom image).memException = false := by
  rcases Nat.lt_or_eq_of_le bound with earlier | rfl
  · rw [← h.inst_eq bound]
    exact h.sound k earlier
  · have halt := (Instruction.sameControl (h.control_eq le_rfl)).isHalt.trans h.halts.reached
    have legal := (decodedFrom_decoded.hasKind.halt halt).isLegal
    simp only [executedFrom, Simulator.execute, halt, Bool.or_true, if_true]
    rw [decodedFrom, simDecode_memException]
    exact (fetched_simFetch _ image).legal_fetched legal

theorem path : ScheduledPath image N where
  halt := (Instruction.sameControl (h.control_eq le_rfl)).isHalt.trans h.halts.reached
  running := fun k earlier =>
    (Instruction.sameControl (h.control_eq earlier.le)).isHalt.trans (h.halts.first k earlier).1
  legal := fun k bound =>
    (Instruction.sameControl (h.control_eq bound)).isLegal.trans (h.legal bound)
  sound := fun k bound => h.sound_le bound
  words := fun k bound j inRun => by
    rw [(h.path_eq bound).1, (h.path_eq (k := j) (by omega)).1]
    exact (h.path_eq bound).2 j inRun
  stores := fun k earlier =>
    (h.stores k earlier).of_control (h.control_eq earlier.le) (h.control_eq earlier)
  spaced := fun k bound =>
    (h.spaced k (by omega)).of_control (h.control_eq (by omega)) (h.control_eq bound)
      (h.control_eq (by omega))

end Scheduled
end FunctState
end RiscvSim
