import RiscvSim.Source.MemoryStore
import RiscvSim.Library.ByteMap
import RiscvSim.Library.Words

/-! The reading and writing loops of `MemoryStore`, byte by byte, and the byte map they
implement.
-/

namespace RiscvSim

open ByteMap (byte)

namespace MemoryStore

variable {mem : MemoryStore} {relativeAddr value : U64}

/-- Where the loops find byte `i`. -/
def index (relativeAddr : U64) (i : ℕ) : ℕ := (relativeAddr + BitVec.ofNat 64 i).toNat

/-- All bytes that the loops go over from byte `i` to before byte `stop` exist. -/
def InRange (mem : MemoryStore) (relativeAddr : U64) (i stop : ℕ) : Prop :=
  ∀ j, i ≤ j → j < stop → index relativeAddr j < mem.numEntries

theorem index_injective {i j : ℕ} (small : i < 2 ^ 64) (small' : j < 2 ^ 64)
    (same : index relativeAddr i = index relativeAddr j) : i = j := by
  have words : BitVec.ofNat 64 i = BitVec.ofNat 64 j := by
    have sums := BitVec.eq_of_toNat_eq same
    exact (BitVec.add_right_inj relativeAddr).mp sums
  have numbers := congrArg BitVec.toNat words
  rwa [BitVec.toNat_ofNat, BitVec.toNat_ofNat, Nat.mod_eq_of_lt small,
    Nat.mod_eq_of_lt small'] at numbers

theorem inRange_cons {i count : ℕ} (first : index relativeAddr i < mem.numEntries)
    : mem.InRange relativeAddr i (i + (count + 1))
      ↔ mem.InRange relativeAddr (i + 1) (i + 1 + count) := by
  constructor
  · intro range j above below
    exact range j (by omega) (by omega)
  · intro range j above below
    rcases Nat.eq_or_lt_of_le above with rfl | later
    · exact first
    · exact range j later (by omega)

-----------------------------------------------------------------------------------------
-- Writing
-----------------------------------------------------------------------------------------

/-- The byte the writing loop stores. -/
theorem storedByte (value : U64) (i : ℕ)
    : ((value >>> (i * 8)) &&& 0xFF).setWidth 8 = byte value i := by
  have mask : (0xFF : U64) = (1#64 <<< 8) - 1#64 := by decide
  apply BitVec.eq_of_getLsbD_eq
  intro j bound
  rw [ByteMap.getLsbD_byte, BitVec.getLsbD_setWidth, BitVec.getLsbD_and, mask,
    Words.getLsbD_mask (by decide), BitVec.getLsbD_ushiftRight]
  simp [bound, Nat.mul_comm]

theorem setAt?_some {address : U64} {b : BitVec 8} (inside : address.toNat < mem.numEntries)
    : mem.setAt? address b
      = some { mem with memArr := fun k => if k = address.toNat then b else mem.memArr k } :=
  if_pos inside

theorem setAt?_none {address : U64} {b : BitVec 8} (outside : ¬ address.toNat < mem.numEntries)
    : mem.setAt? address b = none :=
  if_neg outside

/-- Writing keeps the bounds of the memory. -/
theorem setBytes_bounds (count i : ℕ)
    : (mem.setBytes relativeAddr value i count).2.startAddr = mem.startAddr
      ∧ (mem.setBytes relativeAddr value i count).2.numEntries = mem.numEntries := by
  induction count generalizing mem i with
  | zero => exact ⟨rfl, rfl⟩
  | succ count ih =>
      unfold setBytes
      by_cases inside : (relativeAddr + BitVec.ofNat 64 i).toNat < mem.numEntries
      · rw [setAt?_some inside]
        exact ih (i + 1)
      · rw [setAt?_none inside]
        exact ⟨rfl, rfl⟩

/-- The writing loop succeeds if all its bytes exist. -/
theorem setBytes_ok (count i : ℕ)
    : (mem.setBytes relativeAddr value i count).1 = true
      ↔ mem.InRange relativeAddr i (i + count) := by
  induction count generalizing mem i with
  | zero =>
      refine ⟨?_, fun _ => rfl⟩
      intro _ j above below
      omega
  | succ count ih =>
      unfold setBytes
      by_cases inside : (relativeAddr + BitVec.ofNat 64 i).toNat < mem.numEntries
      · rw [setAt?_some inside, inRange_cons inside]
        exact ih (i + 1)
      · rw [setAt?_none inside]
        constructor
        · intro failed
          cases failed
        · intro range
          exact absurd (range i le_rfl (by omega)) inside

/-- Where the writing loop changes nothing. -/
theorem setBytes_elsewhere (count i : ℕ) {k : ℕ}
    (apart
      : ∀ j, i ≤ j → j < i + count → mem.InRange relativeAddr i (j + 1)
        → index relativeAddr j ≠ k)
    : (mem.setBytes relativeAddr value i count).2.memArr k = mem.memArr k := by
  induction count generalizing mem i with
  | zero => rfl
  | succ count ih =>
      unfold setBytes
      by_cases inside : (relativeAddr + BitVec.ofNat 64 i).toNat < mem.numEntries
      · rw [setAt?_some inside]
        have first : index relativeAddr i ≠ k := by
          apply apart i le_rfl (by omega)
          intro j above below
          obtain rfl : j = i := by omega
          exact inside
        refine (ih (i + 1) ?_).trans (if_neg first.symm)
        intro j above below range
        apply apart j (by omega) (by omega)
        obtain ⟨rest, rfl⟩ : ∃ rest, j = i + rest := ⟨j - i, by omega⟩
        refine (inRange_cons inside).mpr ?_
        intro l above' below'
        exact range l above' (by omega)
      · rw [setAt?_none inside]

/-- The bytes that the writing loop does not go over read the same. -/
theorem setBytes_at? {x : U64} (count i : ℕ)
    (apart : ∀ j, i ≤ j → j < i + count → relativeAddr + BitVec.ofNat 64 j ≠ x)
    : (mem.setBytes relativeAddr value i count).2.at? x = mem.at? x := by
  have kept : (mem.setBytes relativeAddr value i count).2.memArr x.toNat = mem.memArr x.toNat := by
    apply setBytes_elsewhere
    intro j above below _ same
    exact apart j above below (BitVec.eq_of_toNat_eq same)
  rw [at?, at?, kept, (setBytes_bounds count i).2]

/-- A byte that is reached is stored, whether or not the loop succeeds. -/
theorem setBytes_reached (count i : ℕ) {j : ℕ} (from' : i ≤ j) (below : j < i + count)
    (small : i + count ≤ 2 ^ 64) (range : mem.InRange relativeAddr i (j + 1))
    : (mem.setBytes relativeAddr value i count).2.memArr (index relativeAddr j)
      = byte value j := by
  induction count generalizing mem i with
  | zero => omega
  | succ count ih =>
      have inside : (relativeAddr + BitVec.ofNat 64 i).toNat < mem.numEntries :=
        range i le_rfl (by omega)
      unfold setBytes
      rw [setAt?_some inside]
      rcases Nat.eq_or_lt_of_le from' with rfl | later
      · refine (setBytes_elsewhere count (i + 1) ?_).trans ?_
        · intro l above below' _ same
          have := index_injective (by omega) (by omega) same
          omega
        · exact (if_pos rfl).trans (storedByte value i)
      · apply ih (i + 1) later (by omega) (by omega)
        intro l above below'
        exact range l (by omega) below'

-----------------------------------------------------------------------------------------
-- Reading
-----------------------------------------------------------------------------------------

theorem at?_some {address : U64} (inside : address.toNat < mem.numEntries)
    : mem.at? address = some (mem.memArr address.toNat) :=
  if_pos inside

theorem at?_none {address : U64} (outside : ¬ address.toNat < mem.numEntries)
    : mem.at? address = none :=
  if_neg outside

/-- The reading loop succeeds if all its bytes exist. -/
theorem getBytes_ok (count i : ℕ)
    : (mem.getBytes relativeAddr value i count).1 = true
      ↔ mem.InRange relativeAddr i (i + count) := by
  induction count generalizing i value with
  | zero =>
      refine ⟨?_, fun _ => rfl⟩
      intro _ j above below
      omega
  | succ count ih =>
      unfold getBytes
      by_cases inside : (relativeAddr + BitVec.ofNat 64 i).toNat < mem.numEntries
      · rw [at?_some inside, inRange_cons inside]
        exact ih (i + 1)
      · rw [at?_none inside]
        constructor
        · intro failed
          cases failed
        · intro range
          exact absurd (range i le_rfl (by omega)) inside

/-- One round of the reading loop adds one byte to the value. -/
theorem byte_or_shift (b : BitVec 8) {i : ℕ} (fits : i < 8) (k : ℕ)
    : byte (value ||| (b.setWidth 64 <<< (i * 8))) k
      = byte value k ||| (if k = i then b else 0) := by
  apply BitVec.eq_of_getLsbD_eq
  intro j bound
  rw [ByteMap.getLsbD_byte, BitVec.getLsbD_or, BitVec.getLsbD_or, ByteMap.getLsbD_byte,
    BitVec.getLsbD_shiftLeft, BitVec.getLsbD_setWidth]
  rcases Nat.lt_trichotomy k i with before | rfl | after
  · have low : 8 * k + j < i * 8 := by omega
    simp [low, before.ne]
  · have position : 8 * k + j - k * 8 = j := by omega
    have reached : ¬ 8 * k + j < k * 8 := by omega
    have inside : 8 * k + j < 64 := by omega
    simp [position, reached, inside, bound, show j < 64 by omega]
  · have high := BitVec.getLsbD_of_ge b (8 * k + j - i * 8) (by omega)
    simp [high, after.ne']

/-- What the reading loop adds to the value if it succeeds. -/
theorem byte_getBytes (count i : ℕ) (fits : i + count ≤ 8)
    (range : mem.InRange relativeAddr i (i + count)) (k : ℕ)
    : byte (mem.getBytes relativeAddr value i count).2 k
      = byte value k
        ||| (if i ≤ k ∧ k < i + count then mem.memArr (index relativeAddr k) else 0) := by
  induction count generalizing i value with
  | zero =>
      have empty : ¬ (i ≤ k ∧ k < i + 0) := by omega
      rw [if_neg empty, getBytes]
      simp
  | succ count ih =>
      have inside : (relativeAddr + BitVec.ofNat 64 i).toNat < mem.numEntries :=
        range i le_rfl (by omega)
      unfold getBytes
      rw [at?_some inside]
      refine (ih (i + 1) (by omega) ((inRange_cons inside).mp range)).trans ?_
      rw [byte_or_shift _ (by omega)]
      rcases Nat.lt_trichotomy k i with before | rfl | after
      · have early : ¬ i + 1 ≤ k := by omega
        simp [before.ne, early, Nat.not_le.mpr before]
      · have early : ¬ k + 1 ≤ k := by omega
        simp [early, index]
      · have reached : (i + 1 ≤ k ∧ k < i + 1 + count) ↔ (i ≤ k ∧ k < i + (count + 1)) := by
          omega
        have none : byte value k ||| 0 = byte value k := BitVec.or_zero
        rw [if_neg after.ne', none, if_congr reached rfl rfl]

-----------------------------------------------------------------------------------------
-- Whole accesses
-----------------------------------------------------------------------------------------

variable {address : U64} {size : MemEntrySize}

theorem MemEntrySize.bytes_le (size : MemEntrySize) : size.bytes ≤ 8 := by
  cases size <;> decide

theorem getMemValue_eq
    : mem.getMemValue address size
      = (if (mem.getBytes (address - mem.startAddr) 0 0 size.bytes).1 then 0 else -einval,
        (mem.getBytes (address - mem.startAddr) 0 0 size.bytes).2) :=
  rfl

theorem setMemValue_eq
    : mem.setMemValue address value size
      = (if (mem.setBytes (address - mem.startAddr) value 0 size.bytes).1 then 0 else -einval,
        (mem.setBytes (address - mem.startAddr) value 0 size.bytes).2) :=
  rfl

/-- The first byte decides whether a store writes anything. -/
theorem setMemValue_unwritten (outside : mem.at? (address - mem.startAddr) = none)
    : mem.setMemValue address value size = (-einval, mem) := by
  have first : ¬ (address - mem.startAddr + BitVec.ofNat 64 0).toNat < mem.numEntries := by
    rw [BitVec.add_zero]
    intro inside
    rw [at?_some inside] at outside
    cases outside
  obtain ⟨count, bytes⟩ : ∃ count, size.bytes = count + 1 := by
    cases size <;> exact ⟨_, rfl⟩
  rw [setMemValue_eq, bytes, setBytes, setAt?_none first]
  rfl

/-- The code returned is 0 if the loop succeeds. -/
theorem returnCode_eq_zero (ok : Bool) : (if ok then 0 else -einval : ℤ) = 0 ↔ ok = true := by
  cases ok <;> decide

theorem getMemValue_ok
    : (mem.getMemValue address size).1 = 0
      ↔ mem.InRange (address - mem.startAddr) 0 size.bytes := by
  rw [getMemValue_eq, returnCode_eq_zero, getBytes_ok, Nat.zero_add]

theorem setMemValue_ok
    : (mem.setMemValue address value size).1 = 0
      ↔ mem.InRange (address - mem.startAddr) 0 size.bytes := by
  rw [setMemValue_eq, returnCode_eq_zero, setBytes_ok, Nat.zero_add]

/-- The bytes of the value that a successful read returns. -/
theorem byte_getMemValue (ok : (mem.getMemValue address size).1 = 0) (k : ℕ)
    : byte (mem.getMemValue address size).2 k
      = if k < size.bytes then mem.memArr (index (address - mem.startAddr) k) else 0 := by
  have range := getMemValue_ok.mp ok
  have wide := MemEntrySize.bytes_le size
  have zero : byte (0 : U64) k = 0 := by simp [byte]
  rw [getMemValue_eq]
  refine (byte_getBytes size.bytes 0 (by omega) (by rwa [Nat.zero_add]) k).trans ?_
  rw [zero]
  simp

/-- A write keeps the bounds of the memory. -/
theorem setMemValue_bounds
    : (mem.setMemValue address value size).2.startAddr = mem.startAddr
      ∧ (mem.setMemValue address value size).2.numEntries = mem.numEntries :=
  setBytes_bounds size.bytes 0

/-- The bytes that a successful write leaves in its range. -/
theorem memArr_setMemValue (ok : (mem.setMemValue address value size).1 = 0) {i : ℕ}
    (inside : i < size.bytes)
    : (mem.setMemValue address value size).2.memArr (index (address - mem.startAddr) i)
      = byte value i := by
  have range := setMemValue_ok.mp ok
  have wide := MemEntrySize.bytes_le size
  apply setBytes_reached size.bytes 0 (by omega) (by omega) (by omega)
  intro j above below
  exact range j above (by omega)

/-- A write changes nothing outside its range. -/
theorem setMemValue_elsewhere {k : ℕ}
    (apart : ∀ i < size.bytes, index (address - mem.startAddr) i ≠ k)
    : (mem.setMemValue address value size).2.memArr k = mem.memArr k := by
  apply setBytes_elsewhere
  intro i _ inside _
  exact apart i (by omega)

/-- Reading back what a write has stored, or its lower bytes. No assumption on where the
memory lies: the two loops go over the same entries.
-/
theorem getMemValue_setMemValue {narrow : MemEntrySize}
    (ok : (mem.setMemValue address value size).1 = 0) (bound : narrow.bytes ≤ size.bytes)
    : (mem.setMemValue address value size).2.getMemValue address narrow
      = (0, (value.setWidth (8 * narrow.bytes)).setWidth 64) := by
  obtain ⟨start, entries⟩ := @setMemValue_bounds mem value address size
  have read : ((mem.setMemValue address value size).2.getMemValue address narrow).1 = 0 := by
    rw [getMemValue_ok, start]
    intro i above below
    rw [entries]
    exact setMemValue_ok.mp ok i above (by omega)
  apply Prod.ext read
  apply BitVec.eq_of_getLsbD_eq
  intro k inside
  rw [ByteMap.getLsbD_eq_byte, byte_getMemValue read, start, BitVec.getLsbD_setWidth,
    BitVec.getLsbD_setWidth]
  by_cases within : k / 8 < narrow.bytes
  · have low : k < 8 * narrow.bytes := by omega
    rw [if_pos within, memArr_setMemValue ok (by omega), ← ByteMap.getLsbD_eq_byte,
      decide_eq_true inside, decide_eq_true low, Bool.true_and, Bool.true_and]
  · have high : ¬ k < 8 * narrow.bytes := by omega
    rw [if_neg within, decide_eq_false high]
    simp

/-- The memory lies in the address space. The number of its bytes is a `uint64_t`. -/
structure Placed (mem : MemoryStore) : Prop where
  fits : mem.startAddr.toNat + mem.numEntries ≤ 2 ^ 64
  entries : mem.numEntries < 2 ^ 64

/-- The byte map that the memory implements. -/
def bytes (mem : MemoryStore) : ByteMap :=
  fun k =>
    if mem.startAddr.toNat ≤ k ∧ k < mem.startAddr.toNat + mem.numEntries then
      some (mem.memArr (k - mem.startAddr.toNat))
    else
      none

theorem bytes_ne_none {k : ℕ}
    : mem.bytes k ≠ none
      ↔ mem.startAddr.toNat ≤ k ∧ k < mem.startAddr.toNat + mem.numEntries := by
  unfold bytes
  split_ifs with mapped <;> simp [mapped]

/-- Where the loops find the byte of a mapped address. -/
theorem Placed.index_eq (placed : mem.Placed) {i : ℕ}
    (mapped : mem.bytes (address.toNat + i) ≠ none)
    : index (address - mem.startAddr) i = address.toNat + i - mem.startAddr.toNat := by
  obtain ⟨fits, entries⟩ := placed
  obtain ⟨low, high⟩ := bytes_ne_none.mp mapped
  have start := mem.startAddr.isLt
  have below := address.isLt
  rw [index, BitVec.toNat_add, BitVec.toNat_sub, BitVec.toNat_ofNat]
  omega

/-- The relative address wraps around below the memory, and its sum with `i` wraps around
near the end of the address space. Neither reaches an entry of a placed memory.
-/
theorem Placed.inRange_iff (placed : mem.Placed) {size : ℕ} (bound : size ≤ 8)
    : mem.InRange (address - mem.startAddr) 0 size ↔ mem.bytes.Maps address.toNat size := by
  constructor
  · intro range i inside
    obtain ⟨fits, entries⟩ := placed
    have start := mem.startAddr.isLt
    have below := address.isLt
    -- the index before the wrap would be the largest 64-bit number
    have unwrapped : (address - mem.startAddr).toNat + i < 2 ^ 64 := by
      by_contra wraps
      have last := range (2 ^ 64 - 1 - (address - mem.startAddr).toNat) (by omega) (by omega)
      rw [index, BitVec.toNat_add, BitVec.toNat_ofNat] at last
      omega
    have reached := range i (by omega) inside
    rw [index, BitVec.toNat_add, BitVec.toNat_ofNat] at reached
    rw [BitVec.toNat_sub] at reached unwrapped
    rw [bytes_ne_none]
    omega
  · intro maps i _ inside
    have mapped := maps i inside
    have bounds := bytes_ne_none.mp mapped
    rw [placed.index_eq mapped]
    omega

/-- A successful read finds the value that the byte map holds. -/
theorem Placed.holds_getMemValue (placed : mem.Placed)
    (ok : (mem.getMemValue address size).1 = 0)
    : mem.bytes.Holds address.toNat size.bytes (mem.getMemValue address size).2 := by
  have wide := MemEntrySize.bytes_le size
  have maps := (placed.inRange_iff wide).mp (getMemValue_ok.mp ok)
  constructor
  · apply ByteMap.toNat_lt_of_bytes
    intro k above
    rw [byte_getMemValue ok, if_neg (Nat.not_lt.mpr above)]
  · intro i inside
    rw [byte_getMemValue ok, if_pos inside, placed.index_eq (maps i inside)]
    exact if_pos (bytes_ne_none.mp (maps i inside))

/-- A successful write changes the byte map as specified. -/
theorem Placed.bytes_setMemValue (placed : mem.Placed)
    (ok : (mem.setMemValue address value size).1 = 0)
    : (mem.setMemValue address value size).2.bytes
      = mem.bytes.write address.toNat size.bytes value := by
  have range := setMemValue_ok.mp ok
  have wide := MemEntrySize.bytes_le size
  have maps := (placed.inRange_iff wide).mp range
  obtain ⟨start, entries⟩ := @setMemValue_bounds mem value address size
  funext k
  rw [bytes, start, entries, ByteMap.write]
  by_cases written : address.toNat ≤ k ∧ k < address.toNat + size.bytes
  · obtain ⟨i, rfl⟩ : ∃ i, k = address.toNat + i := ⟨k - address.toNat, by omega⟩
    have inside : i < size.bytes := by omega
    have mapped := maps i inside
    rw [if_pos written, if_pos (bytes_ne_none.mp mapped), ← placed.index_eq mapped,
      memArr_setMemValue ok inside, Nat.add_sub_cancel_left]
  · rw [if_neg written, bytes]
    by_cases mapped : mem.startAddr.toNat ≤ k ∧ k < mem.startAddr.toNat + mem.numEntries
    · have kept
          : (mem.setMemValue address value size).2.memArr (k - mem.startAddr.toNat)
            = mem.memArr (k - mem.startAddr.toNat) := by
        apply setMemValue_elsewhere
        intro i inside same
        have found := maps i inside
        have bounds := bytes_ne_none.mp found
        rw [placed.index_eq found] at same
        omega
      rw [if_pos mapped, if_pos mapped, kept]
    · rw [if_neg mapped, if_neg mapped]

end MemoryStore
end RiscvSim
