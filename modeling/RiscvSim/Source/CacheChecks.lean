import RiscvSim.Source.Cache
import RiscvSim.Source.Shifts

/-! The constructor and `access` of the cache with their divisions, logarithms, shifts and
subscripts checked: where one of them is undefined in the source there is no value here.
-/

namespace RiscvSim

def divide? (a b : U64) : Option U64 := if b = 0 then none else some (a / b)

/-- `log2` of zero is minus infinity, which no integer holds. Of a 32-bit value it is the
floor.
-/
def log2? (n : U64) : Option U64 := if n = 0 then none else some (BitVec.ofNat 64 n.toNat.log2)

namespace Cache

def new? (config : CacheConfig) : Option Cache := do
  let blocks ← divide? config.cacheSize config.blockSize
  let numSets ← divide? blocks config.ways
  let indexBits ← log2? numSets
  let offsetBits ← log2? config.blockSize
  return {
    hits := 0
    misses := 0
    config := config
    numSets := numSets
    indexBits := indexBits
    offsetBits := offsetBits
    globalLRUCounter := 0
    sets :=
      List.replicate numSets.toNat
        (List.replicate config.ways.toNat { valid := false, tag := 0, lruStamp := 0 })
  }

/-- `&curSet[0]` needs a first way. -/
def victimWay? (curSet : List Line) : Option ℕ :=
  match curSet.findIdx? (fun line => !line.valid) with
  | some way => some way
  | none =>
      match curSet with
      | [] => none
      | first :: _ => some (lruScan 0 first.lruStamp 0 curSet)

def access? (cache : Cache) (address : U64) (_readWrite : CacheOperation)
    : Option (Bool × Cache) := do
  let bit ← shiftLeft? (1 : U64) cache.indexBits.toNat
  let indexMask := bit - 1
  let shifted ← shiftRight? address cache.offsetBits.toNat
  let index := (shifted &&& indexMask).toNat
  let tag ← shiftRight? address (cache.offsetBits + cache.indexBits).toNat
  let stamp := cache.globalLRUCounter + 1
  let curSet ← cache.sets[index]?
  match curSet.findIdx? (fun line => line.valid && line.tag == tag) with
  | some way =>
      return (true, { cache with
        globalLRUCounter := stamp
        hits := cache.hits + 1
        sets := cache.sets.set index
          (curSet.modify way fun line => { line with lruStamp := stamp }) })
  | none => do
      let way ← victimWay? curSet
      return (false, { cache with
        globalLRUCounter := stamp
        misses := cache.misses + 1
        sets := cache.sets.set index
          (curSet.set way { valid := true, tag := tag, lruStamp := stamp }) })

/-- One access after the other. -/
def accesses? (cache : Cache) : List (U64 × CacheOperation) → Option Cache
  | [] => some cache
  | (address, operation) :: rest => do
      let (_, cache) ← cache.access? address operation
      accesses? cache rest

end Cache
end RiscvSim
