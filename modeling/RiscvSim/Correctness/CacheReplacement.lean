import RiscvSim.Pipeline.LruSets

/-! The cache is exact least-recently-used replacement within each set. -/

namespace RiscvSim

namespace CacheConfig

/-- The access of `address` hits after accesses to `earlier`: its block was accessed before,
and fewer than `ways` other blocks of its set since the latest such access.
-/
def LruHit (config : CacheConfig) (earlier : List U64) (address : U64) : Prop :=
  Lru.Recent config.ways.toNat
    ((earlier.map config.block).reverse.filter
      (config.setOf · == config.setOf (config.block address)))
    (config.block address)

instance (config : CacheConfig) (earlier : List U64) (address : U64)
    : Decidable (config.LruHit earlier address) := by
  unfold LruHit
  infer_instance

end CacheConfig

namespace Cache

/-- One access after the other: the results, and the cache after them. -/
def accesses (cache : Cache) : List (U64 × CacheOperation) → List Bool × Cache
  | [] => ([], cache)
  | (address, operation) :: rest =>
      let (hit, cache) := cache.access address operation
      let (hits, cache) := accesses cache rest
      (hit :: hits, cache)

variable {config : CacheConfig} {cache : Cache}

-----------------------------------------------------------------------------------------
-- What the cache holds after a history of accesses
-----------------------------------------------------------------------------------------

/-- The cache after accesses to the blocks `past`, the latest of which comes first: the
counter has counted them, and every set holds the latest blocks that map to it.
-/
structure LruInv (config : CacheConfig) (cache : Cache) (past : List ℕ) : Prop where
  index : ∀ address, (cache.index address).toNat = config.setOf (config.block address)
  tag : ∀ address, (cache.tag address).toNat = config.block address / config.numSets
  counter : cache.globalLRUCounter.toNat = past.length
  numSets : cache.sets.length = config.numSets
  ways : ∀ set ∈ cache.sets, set.length = config.ways.toNat
  stamps
    : ∀ set ∈ cache.sets, ∀ line ∈ set, line.valid = true → line.lruStamp.toNat ≤ past.length
  holds
    : ∀ i (bound : i < cache.sets.length),
        Represents config.numSets i cache.sets[i]
          (Lru.contents config.ways.toNat (past.filter (config.setOf · == i)))

theorem lruInv_new (geometry : config.Indexable) : LruInv config (new config) [] where
  index := index_new geometry
  tag := tag_new geometry
  counter := rfl
  numSets := List.length_replicate
  ways := by
    intro set member
    rw [List.eq_of_mem_replicate member, List.length_replicate]
  stamps := by
    intro set member line inside valid
    rw [List.eq_of_mem_replicate member] at inside
    rw [List.eq_of_mem_replicate inside] at valid
    cases valid
  holds := by
    intro i bound
    have empty := List.eq_of_mem_replicate (List.getElem_mem bound)
    refine ⟨[], ?_, rfl, List.Pairwise.nil⟩
    rw [empty, List.filter_replicate_of_neg (by decide)]

/-- An access replaces the set of its block by one that holds the block in front. -/
theorem LruInv.replaced {past : List ℕ} (h : LruInv config cache past) {block : ℕ}
    {next : Cache} {set : List Line}
    (bits : ∀ address, next.index address = cache.index address
      ∧ next.tag address = cache.tag address)
    (counter : next.globalLRUCounter.toNat = past.length + 1)
    (sets : next.sets = cache.sets.set (config.setOf block) set)
    (ways : set.length = config.ways.toNat)
    (stamps : ∀ line ∈ set, line.valid = true → line.lruStamp.toNat ≤ past.length + 1)
    (holds
      : Represents config.numSets (config.setOf block) set
          (Lru.step config.ways.toNat
            (Lru.contents config.ways.toNat
              (past.filter (config.setOf · == config.setOf block)))
            block))
    : LruInv config next (block :: past) where
  index := by
    intro address
    rw [(bits address).1, h.index]
  tag := by
    intro address
    rw [(bits address).2, h.tag]
  counter := counter
  numSets := by rw [sets, List.length_set, h.numSets]
  ways := by
    intro other member
    rw [sets] at member
    rcases List.mem_or_eq_of_mem_set member with before | rfl
    · exact h.ways other before
    · exact ways
  stamps := by
    intro other member line inside valid
    rw [sets] at member
    rcases List.mem_or_eq_of_mem_set member with before | rfl
    · exact Nat.le_succ_of_le (h.stamps other before line inside valid)
    · exact stamps line inside valid
  holds := by
    intro i bound
    simp only [sets] at bound ⊢
    rw [List.length_set] at bound
    by_cases here : config.setOf block = i
    · subst here
      rw [List.getElem_set_self, List.filter_cons_of_pos (by simp)]
      exact holds
    · rw [List.getElem_set_ne here, List.filter_cons_of_neg (by simpa using here)]
      exact h.holds i bound

/-- An access hits if the stack distance of its block within its set is below the number of
ways, and leaves the cache of the longer history.
-/
theorem LruInv.access {past : List ℕ} (h : LruInv config cache past)
    (geometry : config.Indexable) (short : past.length + 1 < 2 ^ 64) (address : U64)
    (operation : CacheOperation)
    : ((cache.access address operation).1 = true
        ↔ Lru.Recent config.ways.toNat
            (past.filter (config.setOf · == config.setOf (config.block address)))
            (config.block address))
      ∧ LruInv config (cache.access address operation).2 (config.block address :: past) := by
  have positive := geometry.numSets_pos
  have bound : config.setOf (config.block address) < cache.sets.length := by
    rw [h.numSets]
    exact Nat.mod_lt _ positive
  have here : cache.curSet address = cache.sets[config.setOf (config.block address)] := by
    rw [curSet, h.index, List.getD_eq_getElem _ _ bound]
  have member := List.getElem_mem bound
  have ways := h.ways _ member
  have key : (cache.tag address).toNat * config.numSets + config.setOf (config.block address)
      = config.block address := by
    rw [h.tag, CacheConfig.setOf]
    exact Nat.div_add_mod' _ _
  have stamp : (cache.globalLRUCounter + 1).toNat = past.length + 1 := by
    rw [BitVec.toNat_add, h.counter]
    exact Nat.mod_eq_of_lt short
  have newest : ∀ line ∈ cache.sets[config.setOf (config.block address)],
      line.valid = true → line.lruStamp.toNat < (cache.globalLRUCounter + 1).toNat := by
    intro line inside valid
    have counted := h.stamps _ member line inside valid
    omega
  have held := h.holds _ bound
  rw [← Lru.mem_contents_iff]
  have bits (other : U64)
      : (cache.access address operation).2.index other = cache.index other
        ∧ (cache.access address operation).2.tag other = cache.tag other :=
    access_index address other operation
  unfold Cache.access at bits ⊢
  dsimp only at bits ⊢
  rw [here, h.index] at bits ⊢
  split at bits
  · rename_i way found
    obtain ⟨inside, after⟩ := held.hit (Lru.nodup_contents ..)
      (by rw [ways]; exact Lru.length_contents_le ..) newest found
    rw [key] at inside after
    rw [ways] at after
    refine ⟨iff_of_true rfl inside, ?_⟩
    refine h.replaced bits stamp rfl (by rw [List.length_modify, ways]) ?_ after
    intro line changed valid
    rw [List.modify_eq_set_get _ (List.findIdx?_eq_some_iff_getElem.mp found).1] at changed
    rcases List.mem_or_eq_of_mem_set changed with before | rfl
    · exact (newest line before valid).le.trans stamp.le
    · exact stamp.le
  · rename_i missing
    have absent := held.notMem positive missing
    have after := held.miss (by rw [ways]; exact geometry.ways) positive newest missing
    rw [key] at absent after
    rw [ways] at after
    refine ⟨iff_of_false Bool.false_ne_true absent, ?_⟩
    refine h.replaced bits stamp rfl (by rw [List.length_set, ways]) ?_ after
    intro line changed valid
    rcases List.mem_or_eq_of_mem_set changed with before | rfl
    · exact (newest line before valid).le.trans stamp.le
    · exact stamp.le

-----------------------------------------------------------------------------------------
-- Sequences of accesses
-----------------------------------------------------------------------------------------

/-- The counters record the result of an access. -/
theorem access_counts (cache : Cache) (address : U64) (operation : CacheOperation)
    : (cache.access address operation).2.hits
        = cache.hits + (if (cache.access address operation).1 then 1 else 0)
      ∧ (cache.access address operation).2.misses
        = cache.misses + (if (cache.access address operation).1 then 0 else 1) := by
  cases found
    : (cache.curSet address).findIdx? fun line => line.valid && line.tag == cache.tag address with
  | some way => simp [Cache.access, found]
  | none => simp [Cache.access, found]

/-- Every result of a sequence is that of the history up to it. -/
theorem LruInv.accesses {past : List ℕ} (h : LruInv config cache past)
    (geometry : config.Indexable) (rest : List (U64 × CacheOperation))
    (short : past.length + rest.length < 2 ^ 64) (k : ℕ) (bound : k < rest.length)
    : ∃ hit, (cache.accesses rest).1[k]? = some hit
        ∧ (hit = true
          ↔ Lru.Recent config.ways.toNat
              ((((rest.take k).map fun access => config.block access.1).reverse ++ past).filter
                (config.setOf · == config.setOf (config.block rest[k].1)))
              (config.block rest[k].1)) := by
  induction rest generalizing cache past k with
  | nil => cases bound
  | cons first rest ih =>
      rw [List.length_cons] at short
      obtain ⟨result, after⟩ := h.access geometry (by omega) first.1 first.2
      cases k with
      | zero => exact ⟨_, rfl, result⟩
      | succ k =>
          have later := ih after (by rw [List.length_cons]; omega) k (by simpa using bound)
          simpa [Cache.accesses] using later

/-- The counters grow by the numbers of hits and misses. -/
theorem accesses_counts (cache : Cache) (rest : List (U64 × CacheOperation))
    : (cache.accesses rest).2.hits
        = cache.hits + BitVec.ofNat 64 ((cache.accesses rest).1.count true)
      ∧ (cache.accesses rest).2.misses
        = cache.misses + BitVec.ofNat 64 ((cache.accesses rest).1.count false) := by
  induction rest generalizing cache with
  | nil => exact ⟨(BitVec.add_zero _).symm, (BitVec.add_zero _).symm⟩
  | cons first rest ih =>
      obtain ⟨hits, misses⟩ := access_counts cache first.1 first.2
      obtain ⟨laterHits, laterMisses⟩ := ih (cache.access first.1 first.2).2
      have results : cache.accesses (first :: rest)
          = ((cache.access first.1 first.2).1
              :: ((cache.access first.1 first.2).2.accesses rest).1,
            ((cache.access first.1 first.2).2.accesses rest).2) :=
        rfl
      have count (total : U64) (n : ℕ)
          : total + 1 + BitVec.ofNat 64 n = total + BitVec.ofNat 64 (n + 1) := by
        rw [BitVec.add_assoc, Nat.add_comm n 1, BitVec.ofNat_add]
        rfl
      rw [results, laterHits, laterMisses, hits, misses]
      cases (cache.access first.1 first.2).1 with
      | true =>
          refine ⟨?_, ?_⟩
          · rw [if_pos rfl, List.count_cons_self, count]
          · rw [if_pos rfl, List.count_cons_of_ne (by decide)]
            exact congrArg (· + _) (BitVec.add_zero _)
      | false =>
          refine ⟨?_, ?_⟩
          · rw [if_neg (by decide), List.count_cons_of_ne (by decide)]
            exact congrArg (· + _) (BitVec.add_zero _)
          · rw [if_neg (by decide), List.count_cons_self, count]

theorem length_accesses (cache : Cache) (rest : List (U64 × CacheOperation))
    : (cache.accesses rest).1.length = rest.length := by
  induction rest generalizing cache with
  | nil => rfl
  | cons first rest ih => exact congrArg (· + 1) (ih (cache.access first.1 first.2).2)

/-- From a new cache the counters are the numbers themselves, as long as these fit. -/
theorem accesses_new_counts (config : CacheConfig) {history : List (U64 × CacheOperation)}
    (short : history.length < 2 ^ 64)
    : ((Cache.new config).accesses history).2.hits.toNat
        = ((Cache.new config).accesses history).1.count true
      ∧ ((Cache.new config).accesses history).2.misses.toNat
        = ((Cache.new config).accesses history).1.count false := by
  obtain ⟨hits, misses⟩ := accesses_counts (Cache.new config) history
  have fits (result : Bool)
      : ((Cache.new config).accesses history).1.count result < 2 ^ 64 := by
    have length := length_accesses (Cache.new config) history
    exact Nat.lt_of_le_of_lt (List.count_le_length.trans length.le) short
  refine ⟨?_, ?_⟩
  · rw [hits, BitVec.toNat_add, BitVec.toNat_ofNat]
    exact (congrArg (· % 2 ^ 64) (Nat.zero_add _)).trans
      ((Nat.mod_mod _ _).trans (Nat.mod_eq_of_lt (fits true)))
  · rw [misses, BitVec.toNat_add, BitVec.toNat_ofNat]
    exact (congrArg (· % 2 ^ 64) (Nat.zero_add _)).trans
      ((Nat.mod_mod _ _).trans (Nat.mod_eq_of_lt (fits false)))

/-- The cache is exact: every access hits if and only if it is a hit of least-recently-used
replacement, and the counters count the two results. Witness: every set holds the latest blocks
of the history, newest stamp first.
-/
theorem accesses_lru {config : CacheConfig} (geometry : config.Indexable)
    (history : List (U64 × CacheOperation)) (short : history.length < 2 ^ 64)
    : (∀ (k : ℕ) (bound : k < history.length),
        ((Cache.new config).accesses history).1[k]?
          = some (decide
              (config.LruHit ((history.take k).map Prod.fst) history[k].1)))
      ∧ ((Cache.new config).accesses history).2.hits.toNat
        = ((Cache.new config).accesses history).1.count true
      ∧ ((Cache.new config).accesses history).2.misses.toNat
        = ((Cache.new config).accesses history).1.count false := by
  refine ⟨?_, accesses_new_counts config short⟩
  intro k bound
  have start : ([] : List ℕ).length + history.length < 2 ^ 64 := by simpa using short
  obtain ⟨hit, found, iff⟩ := (lruInv_new geometry).accesses geometry history start k bound
  have lru : hit = true ↔ config.LruHit ((history.take k).map Prod.fst) history[k].1 := by
    rw [iff, CacheConfig.LruHit, List.map_map, List.append_nil]
    rfl
  have same : hit = decide (config.LruHit ((history.take k).map Prod.fst) history[k].1) := by
    rw [Bool.eq_iff_iff, lru, decide_eq_true_iff]
  rw [found, same]

/-- Five reads of one set with two ways: the third hits, and the fourth replaces block 2. -/
theorem accesses_lru_two_ways
    : let history := [0, 16, 0, 32, 16].map fun address => ((address : U64), CacheOperation.read)
      ((Cache.new ⟨32, 8, 2, 5⟩).accesses history).1[2]? = some true
      ∧ ((Cache.new ⟨32, 8, 2, 5⟩).accesses history).2.hits.toNat
        = ((Cache.new ⟨32, 8, 2, 5⟩).accesses history).1.count true := by
  have geometry : CacheConfig.Indexable ⟨32, 8, 2, 5⟩ :=
    ⟨⟨3, by decide⟩, ⟨1, by decide⟩, by decide⟩
  obtain ⟨results, hits, -⟩ := accesses_lru geometry
    ([0, 16, 0, 32, 16].map fun address => ((address : U64), CacheOperation.read)) (by decide)
  exact ⟨(results 2 (by decide)).trans (by decide), hits⟩

end Cache
end RiscvSim
