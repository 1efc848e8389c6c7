import RiscvSim.Correctness.CacheReplacement
import RiscvSim.Source.CacheArgs

/-! Caches of any sizes: they are caches of a power-of-two geometry, and lose the rest. -/

namespace RiscvSim

-----------------------------------------------------------------------------------------
-- The geometry in use
-----------------------------------------------------------------------------------------

namespace CacheConfig

variable {config : CacheConfig}

/-- The sizes that the constructor makes use of: the block size and the number of sets are rounded
down to powers of two.
-/
def rounded (config : CacheConfig) : CacheConfig where
  cacheSize :=
    BitVec.ofNat 64
      (2 ^ config.numSets.log2 * (2 ^ config.blockSize.toNat.log2 * config.ways.toNat))
  blockSize := BitVec.ofNat 64 (2 ^ config.blockSize.toNat.log2)
  ways := config.ways
  missLatency := config.missLatency

theorem rounded_blockSize (sets : 0 < config.numSets)
    : config.rounded.blockSize.toNat = 2 ^ config.blockSize.toNat.log2 := by
  have positive := (numSets_pos_iff.mp sets).1
  have below := Nat.log2_self_le (Nat.pos_iff_ne_zero.mp positive)
  rw [rounded, BitVec.toNat_ofNat]
  exact Nat.mod_eq_of_lt (below.trans_lt config.blockSize.isLt)

theorem rounded_cacheSize (sets : 0 < config.numSets)
    : config.rounded.cacheSize.toNat
      = 2 ^ config.numSets.log2 * (2 ^ config.blockSize.toNat.log2 * config.ways.toNat) := by
  have positive := (numSets_pos_iff.mp sets).1
  have blockSize := Nat.log2_self_le (Nat.pos_iff_ne_zero.mp positive)
  have numSets := Nat.log2_self_le (Nat.pos_iff_ne_zero.mp sets)
  have whole : config.numSets * (config.blockSize.toNat * config.ways.toNat)
      ≤ config.cacheSize.toNat := by
    rw [numSets_eq]
    exact Nat.div_mul_le_self _ _
  rw [rounded, BitVec.toNat_ofNat]
  apply Nat.mod_eq_of_lt
  refine lt_of_le_of_lt ?_ config.cacheSize.isLt
  exact (Nat.mul_le_mul numSets (Nat.mul_le_mul_right _ blockSize)).trans whole

theorem rounded_numSets (sets : 0 < config.numSets)
    : config.rounded.numSets = 2 ^ config.numSets.log2 := by
  have ways := (numSets_pos_iff.mp sets).2.1
  rw [numSets_eq, rounded_cacheSize sets, rounded_blockSize sets]
  exact Nat.mul_div_cancel _ (Nat.mul_pos (Nat.two_pow_pos _) ways)

theorem rounded_indexable (sets : 0 < config.numSets) : config.rounded.Indexable where
  blockSize := ⟨_, rounded_blockSize sets⟩
  numSets := ⟨_, rounded_numSets sets⟩
  ways := (numSets_pos_iff.mp sets).2.1

end CacheConfig

namespace Cache

variable {config : CacheConfig} {cache rounded : Cache}

-----------------------------------------------------------------------------------------
-- One access
-----------------------------------------------------------------------------------------

/-- The first sets of a cache are those of another one, which has a set for every address. -/
structure Extends (cache rounded : Cache) : Prop where
  offsetBits : cache.offsetBits = rounded.offsetBits
  indexBits : cache.indexBits = rounded.indexBits
  counter : cache.globalLRUCounter = rounded.globalLRUCounter
  sets : cache.sets.take rounded.sets.length = rounded.sets
  index_lt : ∀ address, (rounded.index address).toNat < rounded.sets.length

theorem extends_rounded (sets : 0 < config.numSets)
    : (Cache.new config).Extends (Cache.new config.rounded) where
  offsetBits := by
    apply BitVec.eq_of_toNat_eq
    rw [offsetBits_new, offsetBits_new, CacheConfig.rounded_blockSize sets, Nat.log2_two_pow]
  indexBits := by
    apply BitVec.eq_of_toNat_eq
    rw [indexBits_new, indexBits_new, CacheConfig.rounded_numSets sets, Nat.log2_two_pow]
  counter := rfl
  sets := by
    have fewer : config.rounded.numSets ≤ config.numSets := by
      rw [CacheConfig.rounded_numSets sets]
      exact Nat.log2_self_le (Nat.pos_iff_ne_zero.mp sets)
    have lengths (config : CacheConfig)
        : (Cache.new config).sets = List.replicate config.numSets
            (List.replicate config.ways.toNat { valid := false, tag := 0, lruStamp := 0 }) := rfl
    rw [lengths, lengths, List.length_replicate, List.take_replicate, Nat.min_eq_left fewer]
    rfl
  index_lt := (wellFormed_new (CacheConfig.rounded_indexable sets).numSets_pos).index_lt

theorem Extends.index (h : cache.Extends rounded) (address : U64)
    : cache.index address = rounded.index address := by
  rw [Cache.index, Cache.index, h.offsetBits, h.indexBits]

theorem Extends.tag (h : cache.Extends rounded) (address : U64)
    : cache.tag address = rounded.tag address := by
  rw [Cache.tag, Cache.tag, h.offsetBits, h.indexBits]

theorem Extends.curSet (h : cache.Extends rounded) (address : U64)
    : cache.curSet address = rounded.curSet address := by
  have bound := h.index_lt address
  rw [Cache.curSet, Cache.curSet, h.index, ← h.sets, List.getD_eq_getElem?_getD,
    List.getD_eq_getElem?_getD, List.getElem?_take_of_lt bound]

/-- Both caches replace the same set by the same lines. -/
theorem Extends.written (h : cache.Extends rounded) (address : U64) (lines : List Line)
    : (cache.sets.set (rounded.index address).toNat lines).take
          (rounded.sets.set (rounded.index address).toNat lines).length
        = rounded.sets.set (rounded.index address).toNat lines
      ∧ (cache.sets.set (rounded.index address).toNat lines).drop rounded.sets.length
        = cache.sets.drop rounded.sets.length := by
  have bound := h.index_lt address
  refine ⟨?_, ?_⟩
  · rw [List.length_set, List.take_set, h.sets]
  · rw [List.drop_set_of_lt bound]

/-- Both answer alike, and the sets that the other one lacks are left alone. -/
theorem Extends.access (h : cache.Extends rounded) (address : U64) (operation : CacheOperation)
    : (cache.access address operation).1 = (rounded.access address operation).1
      ∧ (cache.access address operation).2.Extends (rounded.access address operation).2
      ∧ (cache.access address operation).2.sets.drop rounded.sets.length
        = cache.sets.drop rounded.sets.length := by
  have bound (other : U64) (lines : List Line) : (rounded.index other).toNat
      < (rounded.sets.set (rounded.index address).toNat lines).length := by
    rw [List.length_set]
    exact h.index_lt other
  unfold Cache.access
  dsimp only
  rw [h.curSet, h.tag, h.index, h.counter]
  split
  case h_1 =>
    obtain ⟨first, rest⟩ := h.written address _
    exact ⟨rfl, ⟨h.offsetBits, h.indexBits, rfl, first, fun other => bound other _⟩, rest⟩
  case h_2 =>
    obtain ⟨first, rest⟩ := h.written address _
    exact ⟨rfl, ⟨h.offsetBits, h.indexBits, rfl, first, fun other => bound other _⟩, rest⟩

-----------------------------------------------------------------------------------------
-- Sequences of accesses
-----------------------------------------------------------------------------------------

theorem Extends.accesses (h : cache.Extends rounded) (rest : List (U64 × CacheOperation))
    : (cache.accesses rest).1 = (rounded.accesses rest).1
      ∧ (cache.accesses rest).2.sets.drop rounded.sets.length
        = cache.sets.drop rounded.sets.length := by
  induction rest generalizing cache rounded with
  | nil => exact ⟨rfl, rfl⟩
  | cons first rest ih =>
      obtain ⟨result, after, kept⟩ := h.access first.1 first.2
      obtain ⟨results, keeps⟩ := ih after
      obtain ⟨_, sets, _⟩ := access_sets rounded first.1 first.2
      rw [sets, List.length_set] at keeps
      exact ⟨congrArg₂ List.cons result results, keeps.trans kept⟩

/-- A cache of any sizes `parseArgs` can read that give it a set is exact least-recently-used
replacement on the geometry of the rounded sizes. It never uses the sets beyond that one.
Witness: the constructor rounds the logarithms down, so that two caches share the first sets.
-/
theorem accesses_lru_rounded (cacheSize blockSize ways missLatency : BitVec 32)
    (sets : 0 < (CacheConfig.ofWords cacheSize blockSize ways missLatency).numSets)
    (history : List (U64 × CacheOperation)) (short : history.length < 2 ^ 64)
    : let config := CacheConfig.ofWords cacheSize blockSize ways missLatency
      (∀ (k : ℕ) (bound : k < history.length),
        ((Cache.new config).accesses history).1[k]?
          = some (decide (config.rounded.LruHit ((history.take k).map Prod.fst) history[k].1)))
      ∧ ∀ set, 2 ^ config.numSets.log2 ≤ set
          → ((Cache.new config).accesses history).2.sets[set]?
            = (Cache.new config).sets[set]? := by
  intro config
  change 0 < config.numSets at sets
  have geometry := CacheConfig.rounded_indexable sets
  have extends' := extends_rounded sets
  obtain ⟨results, kept⟩ := extends'.accesses history
  have length : (Cache.new config.rounded).sets.length = 2 ^ config.numSets.log2 :=
    List.length_replicate.trans (CacheConfig.rounded_numSets sets)
  refine ⟨fun k bound => ?_, fun set beyond => ?_⟩
  · obtain ⟨hit, found, recent⟩ := (lruInv_new geometry).accesses geometry history
      (by simpa using short) k bound
    rw [List.append_nil] at recent
    rw [results, found, Option.some.injEq, Bool.eq_iff_iff, recent, decide_eq_true_iff,
      CacheConfig.LruHit, List.map_map]
    rfl
  · have place := congrArg (·[set - 2 ^ config.numSets.log2]?) kept
    simpa [length, Nat.add_sub_cancel' beyond] using place

/-- Three sets of 8 bytes: the third is never used, so that blocks 0 and 2 compete. -/
theorem accesses_lru_rounded_three
    : let history := [0, 16, 0].map fun address => ((address : U64), CacheOperation.read)
      ((Cache.new ⟨24, 8, 1, 5⟩).accesses history).1[2]? = some false := by
  obtain ⟨results, _⟩ := accesses_lru_rounded 24 8 1 5 (by decide)
    ([0, 16, 0].map fun address => ((address : U64), CacheOperation.read)) (by decide)
  exact (results 2 (by decide)).trans (by decide)

/-- The misses continue those of the history that the cache holds. -/
theorem LruInv.misses {past : List ℕ} (h : LruInv config cache past) (geometry : config.Indexable)
    (rest : List (U64 × CacheOperation)) (short : past.length + rest.length < 2 ^ 64)
    : (cache.accesses rest).1.count false + Lru.misses config.ways.toNat config.setOf past
      = Lru.misses config.ways.toNat config.setOf
          ((rest.map fun access => config.block access.1).reverse ++ past) := by
  induction rest generalizing cache past with
  | nil => simp [Cache.accesses]
  | cons first rest ih =>
      rw [List.length_cons] at short
      obtain ⟨result, after⟩ := h.access geometry (by omega) first.1 first.2
      have later := ih after (by rw [List.length_cons]; omega)
      rw [List.map_cons, List.reverse_cons, List.append_assoc, List.singleton_append, ← later,
        Lru.misses]
      simp only [Cache.accesses]
      cases hit : (cache.access first.1 first.2).1 with
      | true =>
          rw [if_pos (result.mp hit), List.count_cons_of_ne (by decide)]
          rfl
      | false =>
          rw [if_neg (mt result.mpr (by simp [hit])), List.count_cons_self]
          omega

/-- A cache of any sizes `parseArgs` can read that give it a set misses every block once at least,
and no more than once if each set has a way for each of its blocks.
Witness: a block is replaced only after as many others of its set as there are ways.
-/
theorem cold_misses (cacheSize blockSize ways missLatency : BitVec 32)
    (sets : 0 < (CacheConfig.ofWords cacheSize blockSize ways missLatency).numSets)
    (history : List (U64 × CacheOperation)) (short : history.length < 2 ^ 64)
    : let config := CacheConfig.ofWords cacheSize blockSize ways missLatency
      let blocks := history.map fun access => config.rounded.block access.1
      let misses := ((Cache.new config).accesses history).2.misses.toNat
      blocks.toFinset.card ≤ misses
      ∧ ((∀ block ∈ blocks,
            (blocks.filter (config.rounded.setOf · == config.rounded.setOf block)).toFinset.card
              ≤ config.ways.toNat)
          → misses = blocks.toFinset.card) := by
  intro config blocks misses
  change 0 < config.numSets at sets
  have geometry := CacheConfig.rounded_indexable sets
  have counted := (lruInv_new geometry).misses geometry history (by simpa using short)
  rw [List.append_nil] at counted
  have total : misses = Lru.misses config.ways.toNat config.rounded.setOf blocks.reverse := by
    rw [← (extends_rounded sets).accesses history |>.1] at counted
    exact (accesses_new_counts config short).2.trans counted
  rw [total, ← List.toFinset_reverse]
  refine ⟨Lru.card_le_misses _, fun fits => Lru.misses_of_fits _ fun block member => ?_⟩
  rw [List.filter_reverse, List.toFinset_reverse]
  exact fits block (List.mem_reverse.mp member)

/-- Blocks 0, 2 and 1 fit in two sets of two ways. -/
theorem cold_misses_three
    : let history := [0, 16, 8, 0, 16].map fun address => ((address : U64), CacheOperation.read)
      ((Cache.new ⟨32, 8, 2, 5⟩).accesses history).2.misses.toNat = 3 := by
  obtain ⟨_, exact'⟩ := cold_misses 32 8 2 5 (by decide)
    ([0, 16, 8, 0, 16].map fun address => ((address : U64), CacheOperation.read)) (by decide)
  exact (exact' (by decide)).trans (by decide)

end Cache
end RiscvSim
