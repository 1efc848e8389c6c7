import RiscvSim.Pipeline.Effects
import RiscvSim.Pipeline.Halting

/-! What takes effect before the run ends. An observer numbers the instructions in fetch order
and records those that write a register, write memory or access the D-cache; replaying its
record gives the registers, memory and the D-cache.
-/

namespace RiscvSim.CycleState

variable {κ : Type} [CacheUnit κ]

variable {s : CycleState κ}

/-- The observer's record: how many fetched instructions have entered ID, the numbers of those
in ID, EX and MEM, and the instructions that had an effect, each with its number.
-/
structure Order where
  fetched : ℕ := 0
  id : ℕ := 0
  ex : ℕ := 0
  mem : ℕ := 0
  /-- The instructions that have written a register. -/
  commits : List (ℕ × Instruction) := []
  /-- Those that have written memory or accessed the D-cache. -/
  accesses : List (ℕ × Instruction) := []

/-- The numbers of the instructions that had an effect. -/
def Order.effects (order : Order) : List ℕ :=
  order.commits.map Prod.fst ++ order.accesses.map Prod.fst

/-- The registers after all recorded writes. -/
def Order.registers (order : Order) (start : Registers) : Registers :=
  order.commits.foldl (fun regData entry => simCommit entry.2 regData) start

/-- Memory and the D-cache after all recorded accesses. -/
def Order.data (order : Order) (start : MemoryStore × κ) : MemoryStore × κ :=
  order.accesses.foldl (fun data entry => accessData data entry.2) start

/-- One cycle of the observer. Instructions enter ID in the order in which they were fetched.
-/
def observe (s : CycleState κ) (order : Order) : Order where
  fetched := if s.decodes then order.fetched + 1 else order.fetched
  id := if s.held then order.id else order.fetched
  ex := if s.dStallActive then order.ex else order.id
  mem := if s.dStallActive then order.mem else order.ex
  commits := order.commits ++ if s.writesRegister then [(order.mem, s.memInst)] else []
  accesses := order.accesses ++ if s.touchesMemory then [(order.ex, s.memInput)] else []

/-- Instructions further down the pipeline have smaller numbers, and effects so far smaller
ones still, up to the instruction in MEM itself unless that is HALT.
-/
structure OrderInv (s : CycleState κ) (order : Order) : Prop where
  id_fetched : s.idInst.inFlight = true → order.id < order.fetched
  ex_fetched : s.exInst.inFlight = true → order.ex < order.fetched
  ex_id : s.exInst.inFlight = true → s.idInst.inFlight = true → order.ex < order.id
  mem_fetched : s.memInst.inFlight = true → order.mem < order.fetched
  mem_id : s.memInst.inFlight = true → s.idInst.inFlight = true → order.mem < order.id
  mem_ex : s.memInst.inFlight = true → s.exInst.inFlight = true → order.mem < order.ex
  effects_fetched : ∀ number ∈ order.effects, number < order.fetched
  effects_id : s.idInst.inFlight = true → ∀ number ∈ order.effects, number < order.id
  effects_ex : s.exInst.inFlight = true → ∀ number ∈ order.effects, number < order.ex
  effects_mem : s.memInst.inFlight = true → ∀ number ∈ order.effects, number ≤ order.mem
  effects_halt : s.memInst.isHalt = true → ∀ number ∈ order.effects, number < order.mem

omit [CacheUnit κ] in
/-- A register is written for an instruction that leaves MEM. -/
theorem LatchInv.writesRegister_inFlight (h : s.LatchInv) (writes : s.writesRegister = true)
    : s.dStallActive = false ∧ s.memInst.inFlight = true ∧ s.memInst.isHalt = false := by
  simp only [writesRegister, Bool.and_eq_true, Bool.not_eq_true', Bool.or_eq_false_iff] at writes
  exact ⟨writes.1.1.1.1.1, h.mem_inFlight writes.1.1.2.2, writes.1.1.2.1⟩

omit [CacheUnit κ] in
/-- Memory is touched for an instruction that leaves EX. -/
theorem LatchInv.touchesMemory_inFlight (h : s.LatchInv) (touches : s.touchesMemory = true)
    : s.dStallActive = false ∧ s.exInst.inFlight = true := by
  obtain ⟨active, _⟩ := touchesMemory_active touches
  simp only [h.memActive_eq, Bool.and_eq_true, Bool.not_eq_true'] at active
  exact ⟨active.1, h.ex_inFlight active.2⟩

omit [CacheUnit κ] in
/-- What has taken effect after one more cycle. -/
theorem mem_observe_effects (h : s.LatchInv) {order : Order} {number : ℕ}
    (member : number ∈ (observe s order).effects)
    : number ∈ order.effects
      ∨ (s.dStallActive = false
        ∧ ((s.memInst.inFlight = true ∧ s.memInst.isHalt = false ∧ number = order.mem)
          ∨ (s.exInst.inFlight = true ∧ s.touchesMemory = true ∧ number = order.ex))) := by
  simp only [Order.effects, observe, List.map_append, List.mem_append] at member ⊢
  rcases member with (earlier | register) | (earlier | memory)
  · exact .inl (.inl earlier)
  · right
    cases writes : s.writesRegister with
    | false => simp [writes] at register
    | true =>
        obtain ⟨moving, flight, running⟩ := h.writesRegister_inFlight writes
        exact ⟨moving, .inl ⟨flight, running, by simpa [writes] using register⟩⟩
  · exact .inl (.inr earlier)
  · right
    cases touches : s.touchesMemory with
    | false => simp [touches] at memory
    | true =>
        obtain ⟨moving, flight⟩ := h.touchesMemory_inFlight touches
        exact ⟨moving, .inr ⟨flight, rfl, by simpa [touches] using memory⟩⟩

section Observe

variable (order : Order) (h : s.LatchInv)

/-- What is older than the instruction in ID, and than the next one to enter it, is older than
the one there after the cycle.
-/
theorem observe_id_lt {order : Order} {number : ℕ} (fetched : number < order.fetched)
    (older : s.idInst.inFlight = true → number < order.id)
    (flight : s.next.idInst.inFlight = true)
    : number < (observe s order).id := by
  obtain ⟨_, ⟨frozen, before⟩ | ⟨moving, _⟩⟩ := next_id_inFlight flight
  · simpa [observe, frozen] using older before
  · simpa [observe, moving] using fetched

include h

/-- EX keeps its number or takes that of ID. -/
theorem LatchInv.observe_ex (flight : s.next.exInst.inFlight = true)
    : (s.dStallActive = true ∧ s.exInst.inFlight = true ∧ (observe s order).ex = order.ex)
      ∨ (s.held = false ∧ s.dStallActive = false ∧ s.idInst.inFlight = true
        ∧ (observe s order).ex = order.id) := by
  obtain ⟨_, ⟨active, before⟩ | ⟨moving, before, _⟩⟩ := h.next_ex_inFlight flight
  · exact .inl ⟨active, before, by simp [observe, active]⟩
  · have active := (held_free.mp moving).1
    exact .inr ⟨moving, active, before, by simp [observe, active]⟩

/-- MEM keeps its number or takes that of EX. -/
theorem LatchInv.observe_mem (flight : s.next.memInst.inFlight = true)
    : (s.dStallActive = true ∧ s.memInst.inFlight = true ∧ (observe s order).mem = order.mem)
      ∨ (s.dStallActive = false ∧ s.exInst.inFlight = true
        ∧ (observe s order).mem = order.ex) := by
  obtain ⟨_, ⟨active, before⟩ | ⟨moving, before⟩⟩ := h.next_mem_inFlight flight
  · exact .inl ⟨active, before, by simp [observe, active]⟩
  · exact .inr ⟨moving, before, by simp [observe, moving]⟩

omit [CacheUnit κ] in
/-- What is below a bound stays below it if the instructions in MEM and EX are. -/
theorem LatchInv.observe_effects_lt {bound : ℕ}
    (earlier : ∀ number ∈ order.effects, number < bound)
    (mem : s.memInst.inFlight = true → order.mem < bound)
    (ex : s.exInst.inFlight = true → order.ex < bound)
    : ∀ number ∈ (observe s order).effects, number < bound := by
  intro number member
  rcases mem_observe_effects h member with before | ⟨_, ⟨flight, _, now⟩ | ⟨flight, _, now⟩⟩
  · exact earlier number before
  · exact now ▸ mem flight
  · exact now ▸ ex flight

omit [CacheUnit κ] in
/-- A D-cache stall holds all effects back. -/
theorem LatchInv.observe_effects_frozen (active : s.dStallActive = true) {number : ℕ}
    (member : number ∈ (observe s order).effects) : number ∈ order.effects := by
  rcases mem_observe_effects h member with before | ⟨moving, _⟩
  · exact before
  · simp [active] at moving

end Observe

omit [CacheUnit κ] in
/-- HALT has no effect in EX. -/
theorem LatchInv.untouched_halt (h : s.LatchInv) (halt : s.exInst.isHalt = true)
    : s.touchesMemory = false := by
  have signals := h.inEX.kind.halt halt
  have fields := Instruction.sameControl s.control_memInput
  simp [touchesMemory, accessesDCache, fields.readsMem, fields.writesMem, signals.readsMem,
    signals.writesMem]

/-- What has taken effect before HALT reaches MEM is older than HALT. -/
theorem OrderInv.effects_halt_next {order : Order} (inv : s.OrderInv order) (h : s.LatchInv)
    (halt : s.next.memInst.isHalt = true)
    : ∀ number ∈ (observe s order).effects, number < (observe s order).mem := by
  have flight : s.next.memInst.inFlight = true :=
    h.inv_next.mem_inFlight (h.inv_next.inMEM.kind.halt halt).isNop
  have calm := (h.next_mem_inFlight flight).1
  rw [next_memInst calm] at halt
  rcases h.observe_mem order flight with ⟨active, _, now⟩ | ⟨moving, before, now⟩
  · rw [now]
    intro number member
    have waiting : s.memInst.isHalt = true := by simpa [newMEM, active] using halt
    exact inv.effects_halt waiting number (h.observe_effects_frozen order active member)
  · rw [now]
    intro number member
    rw [h.newMEM_isHalt moving] at halt
    rcases mem_observe_effects h member with earlier | ⟨_, ⟨busy, _, same⟩ | ⟨_, touches, _⟩⟩
    · exact inv.effects_ex before number earlier
    · exact same ▸ inv.mem_ex busy before
    · simp [h.untouched_halt halt] at touches

/-- One cycle keeps the order, by cases on where each number comes from. -/
theorem OrderInv.inv_next {order : Order} (inv : s.OrderInv order) (h : s.LatchInv)
    : s.next.OrderInv (observe s order) := by
  have fetched : order.fetched ≤ (observe s order).fetched := by
    simp only [observe]
    split <;> omega
  constructor
  case id_fetched =>
    intro flight
    obtain ⟨_, ⟨frozen, before⟩ | ⟨moving, decodes⟩⟩ := next_id_inFlight flight
    · have bound := inv.id_fetched before
      simp only [observe, frozen, if_true]
      split <;> omega
    · simp [observe, moving, decodes]
  case ex_fetched =>
    intro flight
    rcases h.observe_ex order flight with ⟨_, before, now⟩ | ⟨_, _, before, now⟩
    · have bound := inv.ex_fetched before
      omega
    · have bound := inv.id_fetched before
      omega
  case ex_id =>
    intro flightEX flightID
    rcases h.observe_ex order flightEX with ⟨_, before, now⟩ | ⟨moving, _, before, now⟩
    · rw [now]
      exact observe_id_lt (inv.ex_fetched before) (inv.ex_id before) flightID
    · -- ID takes the next number, since EX has taken the one it held
      have taken : (observe s order).id = order.fetched := by simp [observe, moving]
      rw [now, taken]
      exact inv.id_fetched before
  case mem_fetched =>
    intro flight
    rcases h.observe_mem order flight with ⟨_, before, now⟩ | ⟨_, before, now⟩
    · have bound := inv.mem_fetched before
      omega
    · have bound := inv.ex_fetched before
      omega
  case mem_id =>
    intro flightMEM flightID
    rcases h.observe_mem order flightMEM with ⟨_, before, now⟩ | ⟨_, before, now⟩
    · rw [now]
      exact observe_id_lt (inv.mem_fetched before) (inv.mem_id before) flightID
    · rw [now]
      exact observe_id_lt (inv.ex_fetched before) (inv.ex_id before) flightID
  case mem_ex =>
    intro flightMEM flightEX
    rcases h.observe_mem order flightMEM with ⟨active, before, now⟩ | ⟨active, before, now⟩
    · rcases h.observe_ex order flightEX with ⟨_, behind, after⟩ | ⟨_, moving, _⟩
      · have bound := inv.mem_ex before behind
        omega
      · simp [active] at moving
    · rcases h.observe_ex order flightEX with ⟨frozen, _⟩ | ⟨_, _, behind, after⟩
      · simp [active] at frozen
      · have bound := inv.ex_id before behind
        omega
  case effects_fetched =>
    intro number member
    have below := h.observe_effects_lt order inv.effects_fetched inv.mem_fetched inv.ex_fetched
    exact (below number member).trans_le fetched
  case effects_id =>
    intro flight
    apply h.observe_effects_lt order
    · intro number earlier
      exact observe_id_lt (inv.effects_fetched number earlier)
        (fun behind => inv.effects_id behind number earlier) flight
    · exact fun busy => observe_id_lt (inv.mem_fetched busy) (inv.mem_id busy) flight
    · exact fun busy => observe_id_lt (inv.ex_fetched busy) (inv.ex_id busy) flight
  case effects_ex =>
    intro flight
    rcases h.observe_ex order flight with ⟨active, behind, after⟩ | ⟨_, _, behind, after⟩
    · rw [after]
      intro number member
      exact inv.effects_ex behind number (h.observe_effects_frozen order active member)
    · rw [after]
      exact h.observe_effects_lt order (inv.effects_id behind)
        (fun busy => inv.mem_id busy behind) (fun busy => inv.ex_id busy behind)
  case effects_mem =>
    intro flight number member
    rcases h.observe_mem order flight with ⟨active, behind, after⟩ | ⟨_, behind, after⟩
    · rw [after]
      exact inv.effects_mem behind number (h.observe_effects_frozen order active member)
    · -- EX has handed on its number, which its own effect has
      have below := h.observe_effects_lt order
        (fun earlier member => (inv.effects_ex behind earlier member).trans (Nat.lt_succ_self _))
        (fun busy => (inv.mem_ex busy behind).trans (Nat.lt_succ_self _))
        (fun _ => Nat.lt_succ_self order.ex)
      rw [after]
      exact Nat.le_of_lt_succ (below number member)
  case effects_halt => exact inv.effects_halt_next h

omit [CacheUnit κ] in
/-- The empty pipeline holds nothing in flight. -/
theorem orderInv_initCycle (past : CycleState κ) (iCache dCache : κ) (mem : MemoryStore)
    : (initCycle past iCache dCache mem).OrderInv {} where
  id_fetched := fun flight => Bool.noConfusion flight
  ex_fetched := fun flight => Bool.noConfusion flight
  ex_id := fun flight => Bool.noConfusion flight
  mem_fetched := fun flight => Bool.noConfusion flight
  mem_id := fun flight => Bool.noConfusion flight
  mem_ex := fun flight => Bool.noConfusion flight
  effects_fetched := fun _ member => absurd member List.not_mem_nil
  effects_id := fun flight => Bool.noConfusion flight
  effects_ex := fun flight => Bool.noConfusion flight
  effects_mem := fun flight => Bool.noConfusion flight
  effects_halt := fun halt => Bool.noConfusion halt

/-- The observer's record of the first `n` cycles. -/
def recorded (start : CycleState κ) (n : ℕ) : Order :=
  ((Runs.observed next observe)^[n] (start, {})).2

theorem recorded_succ (start : CycleState κ) (n : ℕ)
    : recorded start (n + 1) = observe (next^[n] start) (recorded start n) :=
  Runs.observed_iterate_snd_succ observe start {} n

theorem orderInv_recorded {start : CycleState κ} (inv : start.OrderInv {}) (h : start.LatchInv)
    (n : ℕ)
    : (next^[n] start).OrderInv (recorded start n) := by
  induction n with
  | zero => exact inv
  | succ n ih =>
      rw [Function.iterate_succ_apply', recorded_succ]
      exact ih.inv_next (h.iterate n)

-----------------------------------------------------------------------------------------
-- The record replayed
-----------------------------------------------------------------------------------------

/-- The registers are what the recorded instructions have written. -/
theorem registers_recorded (start : CycleState κ) (n : ℕ)
    : (next^[n] start).simulator.regData
      = (recorded start n).registers start.simulator.regData := by
  induction n with
  | zero => rfl
  | succ n ih =>
      rw [Function.iterate_succ_apply', recorded_succ]
      simp only [Order.registers, observe] at ih ⊢
      cases writes : (next^[n] start).writesRegister with
      | false =>
          rw [registers_unwritten writes, ih]
          simp
      | true =>
          rw [registers_written writes, ih]
          simp

/-- Memory and the D-cache are what the recorded accesses have left. -/
theorem data_recorded {start : CycleState κ} (h : start.LatchInv) (n : ℕ)
    : ((next^[n] start).simulator.memory, (next^[n] start).dCache)
      = (recorded start n).data (start.simulator.memory, start.dCache) := by
  induction n with
  | zero => rfl
  | succ n ih =>
      rw [Function.iterate_succ_apply', recorded_succ]
      simp only [Order.data, observe] at ih ⊢
      cases touches : (next^[n] start).touchesMemory with
      | false =>
          obtain ⟨memory, dCache⟩ := memory_untouched (h.iterate n) touches
          rw [memory, dCache, ih]
          simp
      | true =>
          rw [memory_touched (h.iterate n) touches, ih]
          simp

-----------------------------------------------------------------------------------------
-- The cycle that halts
-----------------------------------------------------------------------------------------

/-- The instruction in EX is no load that can be read, and no store of which a byte can be
written.
-/
def InertBehind (s : CycleState κ) : Prop :=
  (s.exInst.readsMem = true
    → (s.simulator.memory.getMemValue (simAddrGen s.exInst).memAddress
        (accessSize s.exInst)).1 ≠ 0)
  ∧ (s.exInst.writesMem = true
    → s.simulator.memory.at?
        ((simAddrGen s.exInst).memAddress - s.simulator.memory.startAddr) = none)

omit [CacheUnit κ] in
theorem LatchInv.touchesMemory_iff (h : s.LatchInv) (moving : s.dStallActive = false)
    : s.touchesMemory = false ↔ s.InertBehind := by
  have fails {address value : U64} {size : MemEntrySize}
      (outside : s.simulator.memory.at? (address - s.simulator.memory.startAddr) = none)
      : (s.simulator.memory.setMemValue address value size).1 ≠ 0 := by
    rw [MemoryStore.setMemValue_unwritten outside]
    simp [einval]
  rw [touchesMemory, InertBehind, Bool.or_eq_false_iff, h.accessesDCache_iff moving]
  constructor
  · rintro ⟨unwritten, unread, _⟩
    refine ⟨unread, fun writes => ?_⟩
    have busy := (h.inEX.kind.store writes).isNop
    simpa [h.memActive_eq, moving, busy, writes] using unwritten
  · rintro ⟨unread, outside⟩
    refine ⟨?_, unread, fun writes => fails (outside writes)⟩
    cases writes : s.exInst.writesMem with
    | false => simp
    | true => simp [outside writes]

omit [CacheUnit κ] in
/-- The order of effects up to the cycle that halts. -/
theorem halt_effects {order : Order} (inv : s.OrderInv order) (h : s.LatchInv)
    (halts : s.halts = true)
    : (∀ number ∈ (observe s order).effects, number < order.mem) ↔ s.touchesMemory = false := by
  rw [h.halts_eq, Bool.and_eq_true, Bool.not_eq_true'] at halts
  have busy := (h.inMEM.kind.halt halts.2).isNop
  have flight := h.mem_inFlight busy
  constructor
  · intro older
    by_contra touches
    simp only [Bool.not_eq_false] at touches
    have behind := inv.mem_ex flight (h.touchesMemory_inFlight touches).2
    have number := older order.ex (by simp [Order.effects, observe, touches])
    omega
  · intro silent number member
    rcases mem_observe_effects h member with earlier | ⟨_, ⟨_, running, _⟩ | ⟨_, touches, _⟩⟩
    · exact inv.effects_halt halts.2 number earlier
    · simp [halts.2] at running
    · simp [silent] at touches

/-- In a run that ends with HALT, the registers, memory and the D-cache are what the recorded
effects have made of them, and every effect is that of an instruction older than HALT if and
only if no access that takes effect is right behind HALT. Witness: instructions take effect in
fetch order, so at the end only the one in EX can be ahead of its turn.
-/
theorem nothing_after_halt_iff (past : CycleState Cache)
    (iCacheConfig dCacheConfig : CacheConfig) (image : MemoryStore) (n : ℕ)
    (halts : HaltsAt (initSimulator past iCacheConfig dCacheConfig image) n)
    : (next^[n + 1] (initSimulator past iCacheConfig dCacheConfig image)).simulator.regData
        = (recorded (initSimulator past iCacheConfig dCacheConfig image) (n + 1)).registers
            (Simulator.new image).regData
      ∧ ((next^[n + 1] (initSimulator past iCacheConfig dCacheConfig image)).simulator.memory,
          (next^[n + 1] (initSimulator past iCacheConfig dCacheConfig image)).dCache)
        = (recorded (initSimulator past iCacheConfig dCacheConfig image) (n + 1)).data
            (image, Cache.new dCacheConfig)
      ∧ ((∀ number ∈ (recorded (initSimulator past iCacheConfig dCacheConfig image)
              (n + 1)).effects,
            number < (recorded (initSimulator past iCacheConfig dCacheConfig image) n).mem)
          ↔ (next^[n] (initSimulator past iCacheConfig dCacheConfig image)).InertBehind) := by
  have start : (initSimulator past iCacheConfig dCacheConfig image).LatchInv :=
    latchInv_initCycle past _ _ image
  have h := start.iterate n
  have inv := orderInv_recorded (orderInv_initCycle past (Cache.new iCacheConfig)
    (Cache.new dCacheConfig) image) start n
  have moving := halts.reached
  rw [h.halts_eq, Bool.and_eq_true, Bool.not_eq_true'] at moving
  refine ⟨registers_recorded _ (n + 1), data_recorded start (n + 1), ?_⟩
  rw [recorded_succ, ← h.touchesMemory_iff moving.1]
  exact halt_effects inv h halts.reached

/-- `addi x2, x0, 5; HALT; sw x2, 256(x0)`: the store behind HALT writes in the last cycle. -/
theorem store_after_halt
    : ¬ ∀ (past : CycleState Cache) (iCacheConfig dCacheConfig : CacheConfig)
        (image : MemoryStore) (n : ℕ),
        HaltsAt (initSimulator past iCacheConfig dCacheConfig image) n
          → ∀ number ∈ (recorded (initSimulator past iCacheConfig dCacheConfig image)
              (n + 1)).effects,
            number < (recorded (initSimulator past iCacheConfig dCacheConfig image) n).mem := by
  intro claim
  have older := claim (.fresh (Cache.new testICache) (Cache.new testDCache)) testICache testDCache
    (.load [0x00500113, 0xfeedfeed, 0x10202023]) 10 ⟨by decide +kernel, by decide +kernel⟩
  revert older
  decide +kernel

/-- With no store behind HALT, nothing takes effect after it: the D-cache is never accessed. -/
theorem nothing_after_halt_alone
    : (∀ number ∈ (recorded (boot testICache testDCache [0x00500113, 0xfeedfeed]) (10 + 1)).effects,
        number < (recorded (boot testICache testDCache [0x00500113, 0xfeedfeed]) 10).mem)
      ∧ (next^[10 + 1] (boot testICache testDCache
          [0x00500113, 0xfeedfeed])).simulator.regData 2 = 5
      ∧ ((next^[10 + 1] (boot testICache testDCache [0x00500113, 0xfeedfeed])).simulator.memory,
          (next^[10 + 1] (boot testICache testDCache [0x00500113, 0xfeedfeed])).dCache)
        = (MemoryStore.load [0x00500113, 0xfeedfeed], Cache.new testDCache) := by
  obtain ⟨registers, data, older⟩ := nothing_after_halt_iff
    (.fresh (Cache.new testICache) (Cache.new testDCache)) testICache testDCache
    (.load [0x00500113, 0xfeedfeed]) 10 ⟨by decide +kernel, by decide +kernel⟩
  have accesses
      : (recorded (boot testICache testDCache [0x00500113, 0xfeedfeed]) (10 + 1)).accesses.length
        = 0 := by
    decide +kernel
  have commits
      : (recorded (boot testICache testDCache [0x00500113, 0xfeedfeed]) (10 + 1)).registers
          (Simulator.new (.load [0x00500113, 0xfeedfeed])).regData 2
        = 5 := by
    decide +kernel
  unfold boot at accesses commits ⊢
  rw [registers, data, Order.data, List.length_eq_zero_iff.mp accesses]
  exact ⟨older.mpr ⟨fun reads => absurd reads (by decide +kernel),
    fun writes => absurd writes (by decide +kernel)⟩, commits, rfl⟩

end RiscvSim.CycleState
