import RiscvSim.Instructions.MemoryBytes
import RiscvSim.Instructions.Execution

/-! `MemoryStore` as a little-endian byte map with exact bounds, and what a failing store
leaves behind.
-/

namespace RiscvSim

open ByteMap (byte)

namespace MemoryStore

variable {mem : MemoryStore}

-----------------------------------------------------------------------------------------
-- Bounds and bytes
-----------------------------------------------------------------------------------------

/-- All `size` bytes from `address` on lie in the memory. Nothing wraps around. -/
def Contains (mem : MemoryStore) (address : U64) (size : MemEntrySize) : Prop :=
  ∀ i < size.bytes,
    mem.startAddr.toNat ≤ address.toNat + i
    ∧ address.toNat + i < mem.startAddr.toNat + mem.numEntries

theorem Placed.inRange_iff_contains (placed : mem.Placed) {address : U64} {size : MemEntrySize}
    : mem.InRange (address - mem.startAddr) 0 size.bytes ↔ mem.Contains address size := by
  rw [placed.inRange_iff (MemEntrySize.bytes_le size)]
  constructor
  · intro maps i inside
    exact bytes_ne_none.mp (maps i inside)
  · intro contains i inside
    exact bytes_ne_none.mpr (contains i inside)

/-- Accesses succeed on exactly the ranges inside the memory, and a read after a write finds
the written bytes where the two ranges overlap and the old ones elsewhere. Witness: the memory
is a byte map, and a write overlays it.
-/
theorem accesses_of_placed (placed : mem.Placed)
    : (∀ (address : U64) (size : MemEntrySize),
        (mem.getMemValue address size).1 = 0 ↔ mem.Contains address size)
      ∧ (∀ (address value : U64) (size : MemEntrySize),
        (mem.setMemValue address value size).1 = 0 ↔ mem.Contains address size)
      ∧ (∀ (a v : U64) (s : MemEntrySize) (b : U64) (t : MemEntrySize),
        (mem.setMemValue a v s).1 = 0
        → ((mem.setMemValue a v s).2.getMemValue b t).1 = 0
        → ((mem.setMemValue a v s).2.getMemValue b t).2.toNat < 2 ^ (8 * t.bytes)
          ∧ ∀ i < t.bytes,
              byte ((mem.setMemValue a v s).2.getMemValue b t).2 i
              = if a.toNat ≤ b.toNat + i ∧ b.toNat + i < a.toNat + s.bytes then
                  byte v (b.toNat + i - a.toNat)
                else
                  mem.memArr (b.toNat + i - mem.startAddr.toNat)) := by
  refine ⟨?_, ?_, ?_⟩
  · intro address size
    rw [getMemValue_ok, placed.inRange_iff_contains]
  · intro address value size
    rw [setMemValue_ok, placed.inRange_iff_contains]
  · intro a v s b t wrote read
    obtain ⟨start, entries⟩ := @setMemValue_bounds mem v a s
    have stillPlaced : (mem.setMemValue a v s).2.Placed := by
      refine ⟨?_, ?_⟩
      · rw [start, entries]
        exact placed.fits
      · rw [entries]
        exact placed.entries
    have holds := stillPlaced.holds_getMemValue read
    refine ⟨holds.bounded, ?_⟩
    intro i inside
    rw [placed.bytes_setMemValue wrote] at holds
    have found := holds.byte_of_write inside
    split_ifs at found ⊢ with overlap
    · exact Option.some.inj found
    · rw [bytes] at found
      split_ifs at found with mapped
      exact Option.some.inj found

/-- Two overlapping stores that end below 2 ^ 16, the second read back together with bytes of
the first and of the memory before.
-/
theorem accesses_overlap
    : (((MemoryStore.load []).setMemValue 0xFFF8 0x1122334455667788 .doubleSize).1 = 0
        ↔ (MemoryStore.load []).Contains 0xFFF8 .doubleSize)
      ∧ byte (((MemoryStore.load []).setMemValue 0xFFFC 0xAABBCCDD .wordSize).2.getMemValue
          0xFFFA .wordSize).2 3
        = 0xCC := by
  have placed : (MemoryStore.load []).Placed := ⟨by decide, by decide⟩
  obtain ⟨-, writes, reads⟩ := accesses_of_placed placed
  refine ⟨writes 0xFFF8 0x1122334455667788 .doubleSize, ?_⟩
  exact (reads 0xFFFC 0xAABBCCDD .wordSize 0xFFFA .wordSize (by decide) (by decide)).2 3
    (by decide)

-----------------------------------------------------------------------------------------
-- Failing stores
-----------------------------------------------------------------------------------------

/-- The bytes that a store reaches before the first one outside the memory are there
already. Where the first byte is outside there are none.
-/
def LeadingBytesStored (mem : MemoryStore) (address value : U64) (size : MemEntrySize)
    : Prop :=
  ∀ i < size.bytes,
    mem.InRange (address - mem.startAddr) 0 (i + 1)
    → mem.memArr (index (address - mem.startAddr) i) = byte value i

/-- What a store leaves behind, whether or not it fails. -/
theorem setMemValue_unchanged_iff {address value : U64} {size : MemEntrySize}
    : (∀ k < mem.numEntries, (mem.setMemValue address value size).2.memArr k = mem.memArr k)
      ↔ mem.LeadingBytesStored address value size := by
  have wide := MemEntrySize.bytes_le size
  constructor
  · intro same i inside range
    have stored
        : (mem.setMemValue address value size).2.memArr (index (address - mem.startAddr) i)
          = byte value i :=
      setBytes_reached size.bytes 0 (by omega) (by omega) (by omega) range
    rw [← same _ (range i (by omega) (by omega)), stored]
  · intro leading k _
    by_cases reached
      : ∃ i < size.bytes,
          mem.InRange (address - mem.startAddr) 0 (i + 1)
          ∧ index (address - mem.startAddr) i = k
    · obtain ⟨i, inside, range, rfl⟩ := reached
      rw [leading i inside range]
      exact setBytes_reached size.bytes 0 (by omega) (by omega) (by omega) range
    · apply setBytes_elsewhere
      intro i _ inside range same
      exact reached ⟨i, by omega, range, same⟩

/-- A store instruction accesses memory with `setMemValue`. -/
theorem simMemAccess_store {inst : Instruction} (noLoad : inst.readsMem = false)
    (writes : inst.writesMem = true)
    : (simMemAccess inst mem).2
      = (mem.setMemValue inst.memAddress inst.op2Val (accessSize inst)).2 := by
  unfold simMemAccess
  simp only [noLoad, writes, Bool.false_eq_true, if_false, if_true]
  split <;> rfl

/-- A failing store leaves memory unchanged if the bytes it reaches are stored already. The
same holds of a store instruction that raises a memory exception. Witness: the loop has stored
exactly the bytes before the first one outside.
-/
theorem failedStore_unchanged_iff (mem : MemoryStore)
    : (∀ (address value : U64) (size : MemEntrySize),
        (mem.setMemValue address value size).1 ≠ 0
        → ((∀ k < mem.numEntries,
              (mem.setMemValue address value size).2.memArr k = mem.memArr k)
            ↔ mem.LeadingBytesStored address value size))
      ∧ (∀ inst : Instruction,
        inst.readsMem = false → inst.writesMem = true → inst.memException = false
        → (simMemAccess inst mem).1.memException = true
        → ((∀ k < mem.numEntries, (simMemAccess inst mem).2.memArr k = mem.memArr k)
            ↔ mem.LeadingBytesStored inst.memAddress inst.op2Val (accessSize inst))) := by
  refine ⟨?_, ?_⟩
  · intro address value size _
    exact setMemValue_unchanged_iff
  · intro inst noLoad writes _ _
    rw [simMemAccess_store noLoad writes]
    exact setMemValue_unchanged_iff

/-- A word stored below a memory that starts at 2 leaves it unchanged; a store instruction that
reaches over the upper end does not.
-/
theorem failedStore_below
    : (∀ k < 8, ((MemoryStore.mk 2 8 fun _ => 0).setMemValue 0 5 .wordSize).2.memArr k = 0)
      ∧ ¬ ∀ k < 8,
          (simMemAccess { writesMem := true, funct3 := funct3W, memAddress := 6, op2Val := 5 }
            (MemoryStore.mk 0 8 fun _ => 0)).2.memArr k = 0 := by
  constructor
  · apply ((failedStore_unchanged_iff (MemoryStore.mk 2 8 fun _ => 0)).1 0 5 .wordSize
      (by decide)).mpr
    intro i _ range
    exact absurd (range 0 (by omega) (by omega)) (by decide)
  · intro unchanged
    have stored := ((failedStore_unchanged_iff (MemoryStore.mk 0 8 fun _ => 0)).2
      { writesMem := true, funct3 := funct3W, memAddress := 6, op2Val := 5 } rfl rfl rfl
      (by decide)).mp unchanged
    exact absurd (stored 0 (by decide) fun i _ below => by
      obtain rfl : i = 0 := by omega
      decide) (by decide)

/-- A half word stored at the last byte of the memory changes that byte and fails. -/
theorem straddlingStore_writes
    : ¬ ∀ (mem : MemoryStore) (address value : U64) (size : MemEntrySize),
          (mem.setMemValue address value size).1 ≠ 0
          → ∀ k < mem.numEntries,
              (mem.setMemValue address value size).2.memArr k = mem.memArr k := by
  intro unchanged
  have kept := unchanged (MemoryStore.load []) 0xFFFF 1 .halfSize (by decide) 0xFFFF (by decide)
  exact absurd kept (by decide)

end MemoryStore
end RiscvSim
