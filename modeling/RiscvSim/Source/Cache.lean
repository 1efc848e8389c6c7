import RiscvSim.Source.Utilities

/-! The set-associative LRU cache, and the interface through which the cycle loop uses it. -/

namespace RiscvSim

inductive CacheOperation
  | read
  | write
  deriving DecidableEq, Repr

structure CacheConfig where
  cacheSize : U64
  blockSize : U64
  ways : U64
  missLatency : U64

/-- One way of a set. -/
structure Line where
  valid : Bool
  tag : U64
  lruStamp : U64
  deriving DecidableEq

structure Cache where
  hits : U64
  misses : U64
  config : CacheConfig
  numSets : U64
  indexBits : U64
  offsetBits : U64
  globalLRUCounter : U64
  sets : List (List Line)

namespace Cache

/-- The constructor. `log2` of the source is a `double` truncated to an integer; the sizes
are 32-bit values, for which that is the floor.
-/
def new (config : CacheConfig) : Cache where
  hits := 0
  misses := 0
  config := config
  numSets := config.cacheSize / config.blockSize / config.ways
  indexBits :=
    BitVec.ofNat 64 (Nat.log2 (config.cacheSize / config.blockSize / config.ways).toNat)
  offsetBits := BitVec.ofNat 64 (Nat.log2 config.blockSize.toNat)
  globalLRUCounter := 0
  sets :=
    List.replicate (config.cacheSize / config.blockSize / config.ways).toNat
      (List.replicate config.ways.toNat { valid := false, tag := 0, lruStamp := 0 })

/-- The scan for the least recently used way: `best` is the way `pointer` refers to and
`bestStamp` its stamp, `way` the position the scan has reached.
-/
def lruScan (best : Nat) (bestStamp : U64) (way : Nat) : List Line → Nat
  | [] => best
  | line :: rest =>
      if line.lruStamp < bestStamp then lruScan way line.lruStamp (way + 1) rest
      else lruScan best bestStamp (way + 1) rest

/-- The way a missing block replaces: the first invalid one, or else the oldest. -/
def victimWay (curSet : List Line) : Nat :=
  match curSet.findIdx? (fun line => !line.valid) with
  | some way => way
  | none =>
      match curSet with
      | [] => 0
      | first :: _ => lruScan 0 first.lruStamp 0 curSet

def index (cache : Cache) (address : U64) : U64 :=
  let indexMask := (1#64 <<< cache.indexBits) - 1
  (address >>> cache.offsetBits) &&& indexMask

def tag (cache : Cache) (address : U64) : U64 :=
  address >>> (cache.offsetBits + cache.indexBits)

/-- `sets[index]`; the empty list stands for an index out of range. -/
def curSet (cache : Cache) (address : U64) : List Line :=
  cache.sets.getD (cache.index address).toNat []

/-- One access: whether it hits, and the cache after it. -/
def access (cache : Cache) (address : U64) (_readWrite : CacheOperation) : Bool × Cache :=
  let index := (cache.index address).toNat
  let tag := cache.tag address
  let stamp := cache.globalLRUCounter + 1
  let curSet := cache.curSet address
  match curSet.findIdx? (fun line => line.valid && line.tag == tag) with
  | some way =>
      (true, { cache with
        globalLRUCounter := stamp
        hits := cache.hits + 1
        sets := cache.sets.set index
          (curSet.modify way fun line => { line with lruStamp := stamp }) })
  | none =>
      (false, { cache with
        globalLRUCounter := stamp
        misses := cache.misses + 1
        sets := cache.sets.set index
          (curSet.set (victimWay curSet) { valid := true, tag := tag, lruStamp := stamp }) })

end Cache

/-- What the cycle loop needs of a cache: `access` and `config.missLatency`. The loop is
stated for any such unit, so that it can be run against caches on which every access hits.
-/
class CacheUnit (κ : Type) where
  access : κ → U64 → CacheOperation → Bool × κ
  missLatency : κ → U64

instance : CacheUnit Cache where
  access := Cache.access
  missLatency cache := cache.config.missLatency

/-- A cache on which every access hits: it only counts. -/
structure IdealCache where
  hits : U64 := 0

instance : CacheUnit IdealCache where
  access cache _ _ := (true, { hits := cache.hits + 1 })
  missLatency _ := 0

end RiscvSim
