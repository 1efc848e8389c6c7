import RiscvSim.Source.Utilities

/-! The byte-addressed memory and its bounds-checked multi-byte accesses. -/

namespace RiscvSim

/-- The sizes at which memory is read and written. -/
inductive MemEntrySize
  | byteSize
  | halfSize
  | wordSize
  | doubleSize
  deriving DecidableEq, Repr

/-- The number of bytes behind a size tag. -/
def MemEntrySize.bytes : MemEntrySize → Nat
  | .byteSize => 1
  | .halfSize => 2
  | .wordSize => 4
  | .doubleSize => 8

/-- The error number the accessors return negated. -/
def einval : Int := 22

/-- A block of `numEntries` bytes that starts at `startAddr`. Only the entries below
`numEntries` are ever read or written.
-/
structure MemoryStore where
  startAddr : U64
  numEntries : Nat
  memArr : Nat → BitVec 8

namespace MemoryStore

/-- The `MEMORY_SIZE` bytes the drivers allocate, with a file loaded at address 0. The file is
given as its little-endian words, those from 0x8000 on as `handler`.
-/
def load (words : List Nat) (handler : List Nat := []) : MemoryStore where
  startAddr := 0
  numEntries := 0x10000
  memArr k :=
    let word :=
      if k < 0x8000 then words.getD (k / 4) 0 else handler.getD ((k - 0x8000) / 4) 0
    BitVec.ofNat 8 (word >>> (8 * (k % 4)))

/-- `memArr.at(index)` on the right of an assignment; `none` is `std::out_of_range`. -/
def at? (mem : MemoryStore) (index : U64) : Option (BitVec 8) :=
  if index.toNat < mem.numEntries then some (mem.memArr index.toNat) else none

/-- `memArr.at(index) = byte`; `none` is `std::out_of_range`. -/
def setAt? (mem : MemoryStore) (index : U64) (byte : BitVec 8) : Option MemoryStore :=
  if index.toNat < mem.numEntries then
    some { mem with memArr := fun k => if k = index.toNat then byte else mem.memArr k }
  else
    none

/-- The reading loop from byte `i` on, with `count` bytes left. The flag is false when an
index was out of range; `value` then holds the bytes read before.
-/
def getBytes (mem : MemoryStore) (relativeAddr : U64) (value : U64) (i : Nat)
    : Nat → Bool × U64
  | 0 => (true, value)
  | count + 1 =>
      match mem.at? (relativeAddr + BitVec.ofNat 64 i) with
      | none => (false, value)
      | some byte =>
          getBytes mem relativeAddr (value ||| (byte.setWidth 64 <<< (i * 8))) (i + 1) count

/-- The writing loop from byte `i` on, with `count` bytes left. The bytes written before an
out-of-range index stay written.
-/
def setBytes (mem : MemoryStore) (relativeAddr value : U64) (i : Nat)
    : Nat → Bool × MemoryStore
  | 0 => (true, mem)
  | count + 1 =>
      match mem.setAt? (relativeAddr + BitVec.ofNat 64 i)
          (((value >>> (i * 8)) &&& 0xFF).setWidth 8) with
      | none => (false, mem)
      | some written => setBytes written relativeAddr value (i + 1) count

/-- The shared accessor: return code, value read (or the value passed) and memory after. -/
def getOrSetValue (mem : MemoryStore) (get : Bool) (address value : U64)
    (size : MemEntrySize) : Int × U64 × MemoryStore :=
  let relativeAddr := address - mem.startAddr
  if get then
    let (ok, read) := mem.getBytes relativeAddr 0 0 size.bytes
    (if ok then 0 else -einval, read, mem)
  else
    let (ok, written) := mem.setBytes relativeAddr value 0 size.bytes
    (if ok then 0 else -einval, value, written)

def getMemValue (mem : MemoryStore) (address : U64) (size : MemEntrySize) : Int × U64 :=
  let (ret, value, _) := mem.getOrSetValue true address 0 size
  (ret, value)

def setMemValue (mem : MemoryStore) (address value : U64) (size : MemEntrySize)
    : Int × MemoryStore :=
  let (ret, _, written) := mem.getOrSetValue false address value size
  (ret, written)

end MemoryStore
end RiscvSim
