import RiscvSim.Correctness.MissFreeze
import RiscvSim.Pipeline.Halting

/-! The load-use counter. For each instance that enters ID, the cycles it spends there are
listed, with those in which it waits for a load and those in which the counter grows.
-/

namespace RiscvSim

/-- A branch or JALR, which reads its operands in ID. -/
def Instruction.isBranchLike (inst : Instruction) : Bool :=
  !inst.isNop && (inst.opcode == opBranch || inst.opcode == opJalr)

/-- `producer` is a load whose result `inst` reads: the conditions of the MEM clause. -/
def Instruction.needsLoad (inst producer : Instruction) : Bool :=
  (!producer.isNop && producer.rd != 0
    && producer.writesRd && producer.readsMem && !producer.writesMem)
  && ((inst.readsRs1 && inst.rs1 == producer.rd) || (inst.readsRs2 && inst.rs2 == producer.rd))

theorem Instruction.isBranchLike_of_control {left right : Instruction}
    (same : left.control = right.control) : left.isBranchLike = right.isBranchLike := by
  have fields := Instruction.sameControl same
  simp only [Instruction.isBranchLike, fields.isNop, fields.opcode]

theorem Instruction.needsLoad_of_control {left right producer other : Instruction}
    (same : left.control = right.control) (sameLoad : producer.control = other.control)
    : left.needsLoad producer = right.needsLoad other := by
  have reader := Instruction.sameControl same
  have load := Instruction.sameControl sameLoad
  simp only [Instruction.needsLoad, reader.readsRs1, reader.readsRs2, reader.rs1, reader.rs2,
    load.isNop, load.rd, load.writesRd, load.readsMem, load.writesMem]

namespace CycleState

variable {κ : Type}

/-- The instruction in ID waits in this cycle because of a clause whose producer is a load. -/
def waitsForLoad (s : CycleState κ) : Bool :=
  s.loadUseStall
  || (s.branchExStall && s.exInst.readsMem && !s.exInst.writesMem)
  || s.branchMemStall

/-- The branch or JALR in ID needs the load in MEM, and EX holds a bubble: the counter takes
the load for one that it has counted when it was in EX.
-/
def takenForCounted (s : CycleState κ) : Bool :=
  s.exBubbleFromBranchStall && s.idInst.isBranchLike && s.idInst.needsLoad s.memInst

/-- A branch or JALR is in IF, the load it needs is in EX, and a bubble is between them. -/
def bubbleAfterLoad (s : CycleState κ) : Bool :=
  (s.idInst.isNop && s.idInst.status == .bubble)
  && (simDecode s.ifInst).isBranchLike && (simDecode s.ifInst).needsLoad s.exInst

/-- The instruction in ID is still there after this cycle. -/
def staysInID (s : CycleState κ) : Bool := s.held && !s.wbMemException

theorem branchMemStall_eq (s : CycleState κ)
    : s.branchMemStall
      = (!s.dStallActive && !s.branchExStall
        && s.idInst.isBranchLike && s.idInst.needsLoad s.memInst) := by
  simp only [branchMemStall, idIsBranchLike, Instruction.isBranchLike, Instruction.needsLoad]
  cases s.branchExStall <;> simp [Bool.and_assoc]

variable [CacheUnit κ]

/-- The counter grows in this cycle. -/
def countsLoadUse (s : CycleState κ) : Bool :=
  s.next.loadUseStallCount == s.loadUseStallCount + 1

theorem countsLoadUse_eq (s : CycleState κ) : s.countsLoadUse = s.loadUseEvent := by
  simp only [countsLoadUse, next]
  cases s.loadUseEvent <;> simp

/-- The cycles, out of the next `n`, that the instance in ID spends there. -/
def residence (s : CycleState κ) : ℕ → List (CycleState κ)
  | 0 => []
  | n + 1 => s :: (if s.staysInID then residence s.next n else [])

variable {s : CycleState κ}

omit [CacheUnit κ] in
theorem exBubble_silent (bubble : s.exBubbleFromBranchStall = true)
    : s.loadUseStall = false ∧ s.branchExStall = false := by
  simp only [exBubbleFromBranchStall, Bool.and_eq_true] at bubble
  simp [loadUseStall, branchExStall, bubble.1]

theorem takenForCounted_frozen (frozen : s.dStallActive = true)
    : s.next.takenForCounted = s.takenForCounted := by
  have same := (next_frozen frozen).1
  simp only [takenForCounted, exBubbleFromBranchStall, same.idInst, same.exInst, same.memInst]

omit [CacheUnit κ] in
/-- During a D-cache stall no clause is tested. -/
theorem waitsForLoad_frozen (frozen : s.dStallActive = true) : s.waitsForLoad = false := by
  simp [waitsForLoad, loadUseStall, branchExStall, branchMemStall, frozen]

omit [CacheUnit κ] in
/-- A wait for a load is counted unless it is taken for one that has been. -/
theorem loadUseEvent_eq (visible : s.takenForCounted = false)
    : s.loadUseEvent = s.waitsForLoad := by
  have counted : (s.branchMemStall && !s.exBubbleFromBranchStall) = s.branchMemStall := by
    cases mem : s.branchMemStall with
    | false => rfl
    | true =>
        simp only [branchMemStall_eq, Bool.and_eq_true] at mem
        simpa [takenForCounted, mem.1.2, mem.2] using visible
  simp only [loadUseEvent, waitsForLoad, counted]

section

variable (l : s.LatchInv)
include l

/-- The instruction that stays in ID leaves a bubble in EX, and takes it along. -/
theorem LatchInv.next_bubble (stays : s.staysInID = true)
    (bubble : s.dStallActive = true → s.exBubbleFromBranchStall = true)
    : s.next.exBubbleFromBranchStall = true := by
  cases frozen : s.dStallActive with
  | true =>
      rw [exBubbleFromBranchStall, (next_frozen frozen).1.exInst]
      exact bubble frozen
  | false =>
      simp only [staysInID, held, frozen, Bool.false_or, Bool.and_eq_true,
        Bool.not_eq_true'] at stays
      rw [exBubbleFromBranchStall, next_exInst stays.2, l.newEX_hazard frozen stays.1]
      rfl

/-- Behind a bubble in EX the counter does not grow. Witness: induction on the cycles. -/
theorem LatchInv.uncounted_behind_bubble (bubble : s.exBubbleFromBranchStall = true) (n : ℕ)
    : (s.residence n).countP countsLoadUse = 0 := by
  induction n generalizing s with
  | zero => rfl
  | succ n ih =>
      obtain ⟨noLoadUse, noBranchEx⟩ := exBubble_silent bubble
      have silent : s.countsLoadUse = false := by
        rw [countsLoadUse_eq]
        simp [loadUseEvent, noLoadUse, noBranchEx, bubble]
      rw [residence, List.countP_cons, silent]
      split
      case isTrue stays =>
        simpa using ih l.inv_next (l.next_bubble stays fun _ => bubble)
      case isFalse leaves => simp

/-- An ALU result that a branch waits for is no load when it reaches MEM. -/
theorem LatchInv.visible_next (moving : s.dStallActive = false) (stays : s.staysInID = true)
    (silent : s.waitsForLoad = false)
    : s.next.takenForCounted = false := by
  simp only [staysInID, held, moving, Bool.false_or, Bool.and_eq_true, Bool.not_eq_true'] at stays
  simp only [waitsForLoad, Bool.or_eq_false_iff] at silent
  have producer : s.branchExStall = true := by
    simpa [hazardStall, branchDataStall, silent] using stays.1
  have busy : s.exInst.isNop = false := by
    simp only [branchExStall, Bool.and_eq_true, Bool.not_eq_true'] at producer
    exact producer.1.2.1.1
  have fields := Instruction.sameControl (l.newMEM_control moving busy)
  have other : (s.exInst.readsMem && !s.exInst.writesMem) = false := by
    simpa [producer] using silent.1.2
  rw [takenForCounted, next_memInst stays.2]
  simp only [Instruction.needsLoad, fields.readsMem, fields.writesMem, Bool.and_assoc, other,
    Bool.and_false, Bool.false_and]

/-- Otherwise the counter grows once if the instruction waits for a load, and else never.
Witness: induction on the cycles; the first wait leaves a bubble in EX.
-/
theorem LatchInv.counted_once (visible : s.takenForCounted = false) (n : ℕ)
    : (s.residence n).countP countsLoadUse
      = if (s.residence n).any waitsForLoad then 1 else 0 := by
  induction n generalizing s with
  | zero => rfl
  | succ n ih =>
      rw [residence, List.countP_cons, List.any_cons, countsLoadUse_eq,
        loadUseEvent_eq visible]
      cases waits : s.waitsForLoad with
      | true =>
          have moving : s.dStallActive = false := by
            by_contra frozen
            simp [waitsForLoad_frozen (by simpa using frozen)] at waits
          split
          case isTrue stays =>
            have bubble := l.next_bubble stays fun frozen => by simp [moving] at frozen
            simp [l.inv_next.uncounted_behind_bubble bubble n]
          case isFalse leaves => simp
      | false =>
          simp only [Bool.false_or, Bool.false_eq_true, if_false, Nat.add_zero]
          split
          case isTrue stays =>
            refine ih l.inv_next ?_
            cases moving : s.dStallActive with
            | true => rw [takenForCounted_frozen moving, visible]
            | false => exact l.visible_next moving stays waits
          case isFalse leaves => rfl

end

/-- A wait taken for a counted one begins as soon as the D-cache stall is over. -/
theorem waits_iff_unfrozen (hidden : s.takenForCounted = true) (n : ℕ)
    : (s.residence n).any waitsForLoad = true ↔ s.dStallLeft.toNat < n := by
  induction n generalizing s with
  | zero => simp [residence]
  | succ n ih =>
      rw [residence, List.any_cons]
      cases frozen : s.dStallActive with
      | true =>
          have stays : s.staysInID = true := by
            simp [staysInID, held, frozen, wbMemException_frozen frozen]
          have left := dStallActive_iff.mp frozen
          rw [waitsForLoad_frozen frozen, stays, if_pos rfl, Bool.false_or,
            ih ((takenForCounted_frozen frozen).trans hidden), next_dStallLeft_frozen frozen]
          omega
      | false =>
          simp only [takenForCounted, Bool.and_eq_true] at hidden
          have waits : s.branchMemStall = true := by
            rw [branchMemStall_eq, frozen, (exBubble_silent hidden.1.1).2, hidden.1.2, hidden.2]
            rfl
          have left : ¬ 0 < s.dStallLeft.toNat := by
            rw [← dStallActive_iff, frozen]
            exact Bool.false_ne_true
          simp only [waitsForLoad, waits, Bool.or_true, Bool.true_or, true_iff]
          omega

/-- What the instruction meets when it has entered ID. -/
theorem LatchInv.takenForCounted_next (l : s.LatchInv) (decodes : s.decodes = true)
    (calm : s.wbMemException = false)
    : s.next.takenForCounted = s.bubbleAfterLoad := by
  have moving : s.held = false := (decodes_clear decodes).1
  obtain ⟨unstalled, free⟩ := held_free.mp moving
  have entered : s.newID.control = (simDecode s.ifInst).control := by
    rcases s.newID_cases with ⟨frozen, _⟩ | ⟨_, idle, _⟩ | ⟨_, _, same⟩
    · simp [moving] at frozen
    · simp [decodes] at idle
    · rw [same]
      exact simID_control _ _
  have bubble : (s.newEX.isNop && s.newEX.status == .bubble)
      = (s.idInst.isNop && s.idInst.status == .bubble) := by
    cases legal : s.idInst.isLegal with
    | false =>
        rw [l.newEX_illegal unstalled legal, (l.inID.kind.illegal legal).isNop]
        rfl
    | true =>
        have fields := Instruction.sameControl (l.newEX_issued moving legal).1
        cases empty : s.idInst.isNop with
        | false => simp [fields.isNop, empty]
        | true =>
            have nop : (Simulator.simEX s.exInput).isNop = true := by
              have same : (Simulator.simEX s.exInput).control = s.idInst.control := by simp
              exact (Instruction.sameControl same).isNop.trans empty
            simp [newEX, unstalled, free, legal, nop]
  rw [takenForCounted, exBubbleFromBranchStall, next_idInst calm, next_exInst calm,
    next_memInst calm, bubble, bubbleAfterLoad, Instruction.isBranchLike_of_control entered]
  cases empty : s.exInst.isNop with
  | true =>
      rw [l.newMEM_nop unstalled empty]
      simp [Instruction.needsLoad, nop, empty]
  | false => rw [Instruction.needsLoad_of_control entered (l.newMEM_control unstalled empty)]

/-- For an instance that enters ID in cycle `e`, the counter grows once if the instance waits
there for a load and never if it does not, if and only if it is no branch or JALR that enters
ID one bubble behind the load it needs, or the `n` cycles end with the D-cache stall of that
load. Witness: a bubble of a stall follows a counted wait, a bubble of the I-cache does not.
-/
theorem loadUse_counted_once_iff (past : CycleState Cache)
    (iCacheConfig dCacheConfig : CacheConfig) (image : MemoryStore) (e n : ℕ)
    (enters
      : (next^[e] (initSimulator past iCacheConfig dCacheConfig image)).entersID.isSome = true)
    : ((next^[e + 1] (initSimulator past iCacheConfig dCacheConfig image)).residence n).countP
          countsLoadUse
        = (if ((next^[e + 1]
              (initSimulator past iCacheConfig dCacheConfig image)).residence n).any waitsForLoad
            then 1 else 0)
      ↔ (next^[e] (initSimulator past iCacheConfig dCacheConfig image)).bubbleAfterLoad = false
        ∨ n ≤ (next^[e + 1]
            (initSimulator past iCacheConfig dCacheConfig image)).dStallLeft.toNat := by
  have l : (next^[e] (initSimulator past iCacheConfig dCacheConfig image)).LatchInv :=
    (latchInv_initCycle past _ _ image).iterate e
  rw [Function.iterate_succ_apply']
  generalize next^[e] (initSimulator past iCacheConfig dCacheConfig image) = s at l enters
  have clear : s.decodes = true ∧ s.wbMemException = false := by
    unfold entersID at enters
    split at enters
    case isTrue guard => simpa using guard
    case isFalse => simp at enters
  rw [← l.takenForCounted_next clear.1 clear.2]
  cases hidden : s.next.takenForCounted with
  | false => simp [l.inv_next.counted_once hidden n]
  | true =>
      have bubble : s.next.exBubbleFromBranchStall = true := by
        simp only [takenForCounted, Bool.and_eq_true] at hidden
        exact hidden.1.1
      have waits := waits_iff_unfrozen hidden n
      rw [l.inv_next.uncounted_behind_bubble bubble n]
      by_cases ended : s.next.dStallLeft.toNat < n
      · rw [if_pos (waits.mpr ended)]
        simp [ended]
      · rw [if_neg fun found => ended (waits.mp found)]
        simp [Nat.not_lt.mp ended]

/-- `lw x1, 256(x0); beq x1, x0, 8`: the branch waits for the load in EX and, after its miss, in
MEM, and the counter grows once.
-/
theorem loadUse_counted_behind_load
    : ((next^[8] (boot testICache testDCache [0x10002083, 0x00008463, 0xfeedfeed])).residence
          20).countP waitsForLoad = 2
      ∧ ((next^[8] (boot testICache testDCache [0x10002083, 0x00008463, 0xfeedfeed])).residence
          20).countP countsLoadUse = 1 := by
  refine ⟨by decide +kernel, ?_⟩
  exact ((loadUse_counted_once_iff (.fresh (Cache.new testICache) (Cache.new testDCache))
    testICache testDCache (.load [0x10002083, 0x00008463, 0xfeedfeed]) 7 20
    (by decide +kernel)).mpr (.inl (by decide +kernel))).trans (if_pos (by decide +kernel))

/-- In the words from 8 on, `lw x3, 256(x0); lw x1, 256(x0); beq x1, x5, 8`: the D-cache miss of
the first load outlasts the I-cache miss of the branch, which starts a block. The branch waits
for its load, and the counter does not grow in the whole run.
-/
theorem loadUse_uncounted_behind_bubble
    : let start := boot testICache testDCache
        [0x00100293, 0x00100313, 0x10002183, 0x10002083, 0x00508463, 0xfeedfeed, 0x00100293,
          0x00100293, 0x00100293, 0x00100293]
      HaltsAt start 24
      ∧ (∀ m < 25, (next^[m] start).idIllegalException = false
        ∧ (next^[m] start).wbMemException = false)
      ∧ (next^[19] start).entersID.map Instruction.instruction = some 0x00508463
      ∧ ((next^[20] start).residence 5).countP waitsForLoad = 1
      ∧ (next^[25] start).loadUseStallCount = 0 := by
  refine ⟨⟨?_, ?_⟩, ?_, ?_, ?_, ?_⟩ <;> decide +kernel

end CycleState
end RiscvSim
