import RiscvSim.Pipeline.Streams

/-! Stalls neither lose nor repeat nor reorder instructions: what enters ID is the path the
pipeline itself resolves, and passes the later stages in that order.
-/

namespace RiscvSim.CycleState

variable {κ : Type} [CacheUnit κ]

/-- In a run without memory faults the WB stage raises nothing. -/
theorem LatchInv.calm {s : CycleState κ} (h : s.LatchInv) {n : ℕ}
    (sound : ∀ m < n, (next^[m] s).memInst.memException = false)
    : ∀ m < n, (next^[m] s).wbMemException = false :=
  fun m earlier => (h.iterate m).calm_iff.mpr (sound m earlier)

/-- Up to the first illegal instruction, the addresses that enter ID form the resolved path.
-/
theorem onPath_prefix {s : CycleState κ} (l : s.LatchInv) (h : s.FrontInv) {n : ℕ}
    (calm : ∀ m < n, (next^[m] s).wbMemException = false)
    : ((Runs.events next entersID s n).takeWhile Instruction.isLegal).map Instruction.pc
      <+: s.pendingPC ++ (Runs.events next leavesResolved s n).map Prod.snd := by
  obtain ⟨m, bound, same, kept⟩ :=
    Runs.takeWhile_events Instruction.isLegal entersID s n
  have legal : ∀ j < m, (next^[j] s).illegalDecoded = false := by
    intro j earlier
    rw [(l.iterate j).illegalDecoded_eq]
    cases decodes : (next^[j] s).decodes with
    | false => rfl
    | true =>
        have entered : (next^[j] s).entersID = some (next^[j] s).newID := by
          simp [entersID, decodes, calm j (by omega)]
        simp [kept j earlier _ entered]
  have consistent : ∀ j < m, (next^[j] s).FrontInv := fun j earlier =>
    h.iterate l fun i less => by simp [trapsOddly, legal i (by omega)]
  have stream := stream_pc (fun j earlier => calm j (by omega)) l consistent
  have shorter
      : (Runs.events next leavesResolved s _).map Prod.snd
        <+: (Runs.events next leavesResolved s _).map Prod.snd :=
    (Runs.events_prefix leavesResolved s bound).map Prod.snd
  rw [same]
  refine (List.prefix_append _ (next^[m] s).pendingPC).trans ?_
  rw [← stream]
  exact (List.prefix_append_right_inj _).mpr shorter

/-- What the first `n` cycles from `start` do with the instruction stream. -/
structure InOrder (start : CycleState κ) (n : ℕ) : Prop where
  /-- The first instruction has PC 0, and up to the first illegal one each further
  instruction has the PC that was resolved for its predecessor.
  -/
  path
    : ((Runs.events next entersID start n).takeWhile Instruction.isLegal).map Instruction.pc
      <+: 0 :: (Runs.events next leavesResolved start n).map Prod.snd
  /-- What entered ID left it in that order, except for the instruction still there. -/
  throughID
    : Runs.events next entersID start n
      = (Runs.events next leavesResolved start n).map Prod.fst ++ (next^[n] start).idInst.slot
  /-- The legal ones entered EX in that order. -/
  throughEX
    : ((Runs.events next entersID start n).filter Instruction.isLegal).map Instruction.token
      = (Runs.events next entersEX start n).map Instruction.token
        ++ ((next^[n] start).idInst.slot.filter Instruction.isLegal).map Instruction.token
  /-- What entered EX entered MEM in that order. -/
  throughMEM
    : (Runs.events next entersEX start n).map Instruction.token
      = (Runs.events next entersMEM start n).map Instruction.token
        ++ (next^[n] start).exInst.slot.map Instruction.token
  /-- What entered MEM entered WB in that order. -/
  throughWB
    : (Runs.events next entersMEM start n).map Instruction.token
      = (Runs.events next entersWB start n).map Instruction.token
        ++ (next^[n] start).memInst.slot.map Instruction.token

/-- The instruction stream is neither lost, nor duplicated, nor reordered. Witness: each latch
is a one-place buffer, and the front end always fetches the resolved path.
-/
theorem stream_in_order (past : CycleState Cache) (iCacheConfig dCacheConfig : CacheConfig)
    (image : MemoryStore) (n : ℕ)
    (sound
      : ∀ m < n,
          (next^[m] (initSimulator past iCacheConfig dCacheConfig image)).memInst.memException
          = false)
    : InOrder (initSimulator past iCacheConfig dCacheConfig image) n := by
  have latches := latchInv_initCycle past (Cache.new iCacheConfig) (Cache.new dCacheConfig) image
  have front := frontInv_initCycle past (Cache.new iCacheConfig) (Cache.new dCacheConfig) image
  have calm := latches.calm sound
  exact {
    path := onPath_prefix latches front calm
    throughID := by
      have first (t : CycleState Cache) : t.leavesResolved.map Prod.fst = t.leavesID := by
        simp [leavesResolved, Option.map_map, Function.comp_def]
      simp only [Runs.map_events, first]
      exact stream_id calm
    throughEX := stream_ex calm latches
    throughMEM := stream_mem calm latches
    throughWB := stream_wb calm latches }

/-- A loop that stores to a missing block: I-cache, D-cache and branch stalls overlap. -/
theorem stream_in_order_loop
    : InOrder (boot testICache testDCache
        [0x00500093, 0xfff08093, 0x10102023, 0xfe009ce3, 0xfeedfeed]) 40 :=
  stream_in_order _ _ _ _ 40 (by decide +kernel)

end RiscvSim.CycleState
