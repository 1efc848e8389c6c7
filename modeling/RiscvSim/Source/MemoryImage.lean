import RiscvSim.Library.IfStream
import RiscvSim.Source.MemoryStore

/-! How a memory is made: `prepareMemory`, which applies the pairs of the file `init_mem_image`
to a fresh memory, and `loadFromFile`.
-/

namespace RiscvSim

/-- The loop of `prepareMemory` on the non-null `mem`. -/
def prepareLoop (initMem : IfStream) (mem : MemoryStore) : Int × MemoryStore :=
  if initMem.failbit then (0, mem)
  else
    let addr := initMem.extractHex (0 : BitVec 32)
    let curVal := addr.2.extractHex (0 : BitVec 32)
    let ret := mem.setMemValue (addr.1.setWidth 64) (curVal.1.setWidth 64) .wordSize
    if ret.1 ≠ 0 then (-einval, ret.2) else prepareLoop curVal.2 ret.2
termination_by if initMem.failbit then 0 else initMem.unread.length + 1
decreasing_by
  rename_i reading _
  rw [if_neg reading]
  split
  · omega
  · rename_i read
    have both := IfStream.length_extractHex_lt (Bool.not_eq_true _ ▸ read)
    cases first : (initMem.extractHex (0 : BitVec 32)).2.failbit with
    | true =>
        rw [IfStream.extractHex_failed first] at read
        exact absurd rfl read
    | false =>
        have one := IfStream.length_extractHex_lt first
        omega

/-- `prepareMemory`, with the text of the file `init_mem_image` where there is one. -/
def prepareMemory (initMemImage : Option (List Char)) (mem : MemoryStore) : Int × MemoryStore :=
  prepareLoop (.opened initMemImage) mem

namespace MemoryStore

/-- The loop of `loadFromFile` from byte `i` of the file on. It ignores what `setMemValue`
returns, and a `char` is widened with its sign.
-/
def loadLoop (mem : MemoryStore) (i : ℕ) : List (BitVec 8) → MemoryStore
  | [] => mem
  | byte :: buf =>
      loadLoop (mem.setMemValue (BitVec.ofNat 64 i) (byte.signExtend 64) .byteSize).2 (i + 1) buf

/-- `loadFromFile`, with the bytes of the file where it can be opened. -/
def loadFromFile (mem : MemoryStore) (infile : Option (List (BitVec 8))) : Status × MemoryStore :=
  match infile with
  | some buf => (.success, mem.loadLoop 0 buf)
  | none => (.error, mem)

/-- The constructor that reads a file. Where its assertion fails the program aborts: `none`. -/
def ofFile (startAddr : U64) (numEntries : ℕ) (initMemImage : Option (List Char))
    (infile : Option (List (BitVec 8)))
    : Option MemoryStore :=
  let prepared :=
    prepareMemory initMemImage
      { startAddr := startAddr, numEntries := numEntries, memArr := fun _ => 0 }
  if prepared.1 = 0 then some (prepared.2.loadFromFile infile).2 else none

end MemoryStore
end RiscvSim
