import RiscvSim.Source.Cache
import RiscvSim.Library.Words
import Mathlib.Data.List.GetD
import Mathlib.Tactic.Basic

/-! Caches of power-of-two geometry: every address has a set, and what an access brings in is
there for the next one.
-/

namespace RiscvSim

-----------------------------------------------------------------------------------------
-- Blocks and sets
-----------------------------------------------------------------------------------------

namespace CacheConfig

/-- The number of sets the constructor computes. -/
def numSets (config : CacheConfig) : ℕ :=
  (config.cacheSize / config.blockSize / config.ways).toNat

/-- The block of an address. -/
def block (config : CacheConfig) (address : U64) : ℕ := address.toNat / config.blockSize.toNat

/-- The set that a block maps to. -/
def setOf (config : CacheConfig) (block : ℕ) : ℕ := block % config.numSets

/-- The block size and the number of sets are powers of two, and a set has at least one way.
-/
structure Indexable (config : CacheConfig) : Prop where
  blockSize : ∃ n, config.blockSize.toNat = 2 ^ n
  numSets : ∃ n, config.numSets = 2 ^ n
  ways : 0 < config.ways.toNat

/-- The sizes are powers of two, and there is at least one set. -/
def PowerOfTwo (config : CacheConfig) : Prop :=
  ∃ sets block ways : ℕ,
    sets + block + ways < 64
    ∧ config.blockSize.toNat = 2 ^ block
    ∧ config.ways.toNat = 2 ^ ways
    ∧ config.cacheSize.toNat = 2 ^ (sets + block + ways)

variable {config : CacheConfig}

theorem numSets_eq (config : CacheConfig)
    : config.numSets
      = config.cacheSize.toNat / (config.blockSize.toNat * config.ways.toNat) := by
  rw [numSets, BitVec.toNat_udiv, BitVec.toNat_udiv, Nat.div_div_eq_div_mul]

/-- Where there is a set, blocks and sets have a size, and a set fits into the cache. -/
theorem numSets_pos_iff
    : 0 < config.numSets
      ↔ 0 < config.blockSize.toNat ∧ 0 < config.ways.toNat
        ∧ config.blockSize.toNat * config.ways.toNat ≤ config.cacheSize.toNat := by
  rw [numSets_eq, Nat.div_pos_iff, ← and_assoc]
  apply and_congr_left'
  exact ⟨fun product => ⟨Nat.pos_of_mul_pos_right product, Nat.pos_of_mul_pos_left product⟩,
    fun sizes => Nat.mul_pos sizes.1 sizes.2⟩

/-- The bits of an offset and an index fit in an address. -/
theorem bits_lt (sets : 0 < config.numSets)
    : config.blockSize.toNat.log2 + config.numSets.log2 < 64 := by
  have sizes := numSets_pos_iff.mp sets
  have product : config.blockSize.toNat * config.numSets ≤ config.cacheSize.toNat := by
    rw [numSets_eq, ← Nat.div_div_eq_div_mul]
    exact (Nat.mul_le_mul_left _ (Nat.div_le_self _ _)).trans (Nat.mul_div_le _ _)
  have block := Nat.log2_self_le (Nat.pos_iff_ne_zero.mp sizes.1)
  have index := Nat.log2_self_le (Nat.pos_iff_ne_zero.mp sets)
  have bits : 2 ^ (config.blockSize.toNat.log2 + config.numSets.log2) < 2 ^ 64 := by
    rw [Nat.pow_add]
    exact ((Nat.mul_le_mul block index).trans product).trans_lt config.cacheSize.isLt
  exact (Nat.pow_lt_pow_iff_right (by decide)).mp bits

theorem Indexable.numSets_pos (geometry : config.Indexable) : 0 < config.numSets := by
  obtain ⟨m, numSets⟩ := geometry.numSets
  rw [numSets]
  exact Nat.two_pow_pos m

theorem PowerOfTwo.indexable (geometry : config.PowerOfTwo) : config.Indexable := by
  obtain ⟨sets, block, ways, _, blockSize, waysSize, cacheSize⟩ := geometry
  refine ⟨⟨block, blockSize⟩, ⟨sets, ?_⟩, ?_⟩
  · rw [numSets_eq, blockSize, waysSize, cacheSize, ← Nat.pow_add, Nat.add_assoc,
      Nat.pow_add 2 sets]
    exact Nat.mul_div_cancel _ (Nat.two_pow_pos _)
  · rw [waysSize]
    exact Nat.two_pow_pos ways

end CacheConfig

namespace Cache

variable {config : CacheConfig} {cache : Cache}

theorem toNat_log2 (word : U64) : (BitVec.ofNat 64 word.toNat.log2).toNat = word.toNat.log2 := by
  rw [BitVec.toNat_ofNat]
  exact Nat.mod_eq_of_lt ((Nat.log2_le_self _).trans_lt word.isLt)

theorem offsetBits_new (config : CacheConfig)
    : (new config).offsetBits.toNat = config.blockSize.toNat.log2 :=
  toNat_log2 config.blockSize

theorem indexBits_new (config : CacheConfig)
    : (new config).indexBits.toNat = config.numSets.log2 :=
  toNat_log2 (config.cacheSize / config.blockSize / config.ways)

/-- With powers of two these are the exponents. -/
theorem bits_new {n m : ℕ} (blockSize : config.blockSize.toNat = 2 ^ n)
    (numSets : config.numSets = 2 ^ m)
    : n + m < 64 ∧ (new config).offsetBits.toNat = n ∧ (new config).indexBits.toNat = m := by
  have sets : 0 < config.numSets := by
    rw [numSets]
    exact Nat.two_pow_pos m
  have small := CacheConfig.bits_lt sets
  rw [offsetBits_new, indexBits_new]
  rw [blockSize, numSets, Nat.log2_two_pow, Nat.log2_two_pow] at small ⊢
  exact ⟨small, rfl, rfl⟩

/-- The index is the set of the block. -/
theorem index_new (geometry : config.Indexable) (address : U64)
    : ((new config).index address).toNat = config.setOf (config.block address) := by
  obtain ⟨⟨n, blockSize⟩, ⟨m, numSets⟩, -⟩ := geometry
  obtain ⟨small, offset, bits⟩ := bits_new blockSize numSets
  rw [CacheConfig.setOf, CacheConfig.block, blockSize, numSets, index, BitVec.toNat_and,
    BitVec.shiftLeft_eq', bits, BitVec.ushiftRight_eq', offset, BitVec.toNat_ushiftRight,
    Nat.shiftRight_eq_div_pow]
  have mask : ((1#64 <<< m) - 1).toNat = 2 ^ m - 1 := Words.toNat_mask (by omega)
  rw [mask, Nat.and_two_pow_sub_one_eq_mod]

/-- The tag is the rest of the block number. -/
theorem tag_new (geometry : config.Indexable) (address : U64)
    : ((new config).tag address).toNat = config.block address / config.numSets := by
  obtain ⟨⟨n, blockSize⟩, ⟨m, numSets⟩, -⟩ := geometry
  obtain ⟨small, offset, bits⟩ := bits_new blockSize numSets
  have total : (n + m) % 2 ^ 64 = n + m := Nat.mod_eq_of_lt (by omega)
  rw [CacheConfig.block, blockSize, numSets, tag, BitVec.ushiftRight_eq', BitVec.toNat_add,
    offset, bits, total, BitVec.toNat_ushiftRight, Nat.shiftRight_eq_div_pow, Nat.pow_add,
    Nat.div_div_eq_div_mul]

-----------------------------------------------------------------------------------------
-- Accesses
-----------------------------------------------------------------------------------------

/-- Every address has a set, and every set has a way. -/
structure WellFormed (cache : Cache) : Prop where
  index_lt : ∀ address, (cache.index address).toNat < cache.sets.length
  ways : ∀ set ∈ cache.sets, 0 < set.length

/-- A cache with at least one set is well formed, whatever its sizes. -/
theorem wellFormed_new (sets : 0 < config.numSets) : (Cache.new config).WellFormed where
  index_lt := by
    intro address
    have length : (Cache.new config).sets.length = config.numSets := List.length_replicate
    have small : config.numSets.log2 < 64 :=
      (Nat.le_add_left _ _).trans_lt (CacheConfig.bits_lt sets)
    have mask : ((1#64 <<< (Cache.new config).indexBits) - 1).toNat
        = 2 ^ config.numSets.log2 - 1 := by
      rw [BitVec.shiftLeft_eq', indexBits_new]
      exact Words.toNat_mask small
    have below : ((Cache.new config).index address).toNat ≤ 2 ^ config.numSets.log2 - 1 := by
      rw [index, BitVec.toNat_and, mask]
      exact Nat.and_le_right
    have positive := Nat.two_pow_pos config.numSets.log2
    have fits := Nat.log2_self_le (Nat.pos_iff_ne_zero.mp sets)
    omega
  ways := by
    intro set member
    rw [List.eq_of_mem_replicate member, List.length_replicate]
    exact (CacheConfig.numSets_pos_iff.mp sets).2.1

theorem WellFormed.curSet_pos (h : cache.WellFormed) (address : U64)
    : 0 < (cache.curSet address).length := by
  rw [curSet, List.getD_eq_getElem _ _ (h.index_lt address)]
  exact h.ways _ (List.getElem_mem _)

/-- The scan for the oldest way stays within the set. -/
theorem lruScan_lt {best way bound : ℕ} {stamp : U64} (lines : List Line) (chosen : best < bound)
    (fits : way + lines.length ≤ bound)
    : lruScan best stamp way lines < bound := by
  induction lines generalizing best stamp way with
  | nil => exact chosen
  | cons line rest ih =>
      simp only [List.length_cons] at fits
      unfold lruScan
      split
      · exact ih (by omega) (by omega)
      · exact ih chosen (by omega)

theorem victimWay_lt {set : List Line} (ways : 0 < set.length) : victimWay set < set.length := by
  unfold victimWay
  split
  · rename_i way found
    exact (List.findIdx?_eq_some_iff_getElem.mp found).1
  · split
    · exact ways
    · exact lruScan_lt _ (by simp) (by simp)

theorem access_index (address other : U64) (operation : CacheOperation)
    : (cache.access address operation).2.index other = cache.index other
      ∧ (cache.access address operation).2.tag other = cache.tag other := by
  unfold access
  dsimp only
  split <;> exact ⟨rfl, rfl⟩

theorem access_config (address : U64) (operation : CacheOperation)
    : (cache.access address operation).2.config = cache.config := by
  unfold access
  dsimp only
  split <;> rfl

theorem access_counter (cache : Cache) (address : U64) (operation : CacheOperation)
    : (cache.access address operation).2.globalLRUCounter = cache.globalLRUCounter + 1 := by
  unfold access
  dsimp only
  split <;> rfl

/-- What an access does to the set of its address; the other sets stay. -/
theorem access_sets (cache : Cache) (address : U64) (operation : CacheOperation)
    : ∃ set : List Line,
        (cache.access address operation).2.sets
            = cache.sets.set (cache.index address).toNat set
        ∧ set.length = (cache.curSet address).length := by
  unfold access
  dsimp only
  split
  · exact ⟨_, rfl, List.length_modify ..⟩
  · exact ⟨_, rfl, List.length_set⟩

theorem WellFormed.access (h : cache.WellFormed) (address : U64) (operation : CacheOperation)
    : (cache.access address operation).2.WellFormed := by
  obtain ⟨set, sets, length⟩ := access_sets cache address operation
  constructor
  · intro other
    rw [(access_index address other operation).1, sets, List.length_set]
    exact h.index_lt other
  · intro other member
    rw [sets] at member
    rcases List.mem_or_eq_of_mem_set member with before | same
    · exact h.ways other before
    · rw [same, length]
      exact h.curSet_pos address

-----------------------------------------------------------------------------------------
-- Lines
-----------------------------------------------------------------------------------------

/-- The line that a set has in a way. -/
def lineAt (cache : Cache) (set way : ℕ) : Option Line := (cache.sets.getD set [])[way]?

/-- One line replaced. -/
theorem lineAt_set {next : Cache} {index way : ℕ} {line : Line} (bound : index < cache.sets.length)
    (within : way < (cache.sets.getD index []).length)
    (sets : next.sets = cache.sets.set index ((cache.sets.getD index []).set way line))
    (set other : ℕ)
    : next.lineAt set other
      = if set = index ∧ other = way then some line else cache.lineAt set other := by
  rw [lineAt, lineAt, sets, List.getD_eq_getElem?_getD]
  by_cases here : set = index
  · subst here
    rw [List.getElem?_set_self bound, Option.getD_some]
    by_cases same : other = way
    · subst same
      rw [if_pos ⟨rfl, rfl⟩, List.getElem?_set_self within]
    · rw [if_neg fun both => same both.2, List.getElem?_set_ne (Ne.symm same)]
  · rw [if_neg fun both => here both.1, List.getElem?_set_ne (Ne.symm here),
      ← List.getD_eq_getElem?_getD]

/-- The way that an access writes: that of the valid line with the tag of the address, or the
victim where there is none.
-/
def writtenWay (cache : Cache) (address : U64) : ℕ :=
  ((cache.curSet address).findIdx? fun line => line.valid && line.tag == cache.tag address).getD
    (victimWay (cache.curSet address))

/-- The line that an access writes is one of its set. A hit finds its tag there; after a miss
the way is the victim, and no line of the set is valid with the tag.
-/
theorem WellFormed.written_cases (h : cache.WellFormed) (address : U64)
    (operation : CacheOperation)
    : ∃ old,
        cache.lineAt (cache.index address).toNat (cache.writtenWay address) = some old
        ∧ ((cache.access address operation).1 = true
            ∧ old.valid = true ∧ old.tag = cache.tag address
          ∨ (cache.access address operation).1 = false
            ∧ cache.writtenWay address = victimWay (cache.curSet address)
            ∧ ∀ line ∈ cache.curSet address, line.valid = true → line.tag ≠ cache.tag address) := by
  cases found
    : (cache.curSet address).findIdx? fun line => line.valid && line.tag == cache.tag address with
  | some way =>
      obtain ⟨within, holds, -⟩ := List.findIdx?_eq_some_iff_getElem.mp found
      rw [writtenWay, found]
      refine ⟨_, List.getElem?_eq_getElem within, Or.inl ⟨?_, by simpa using holds⟩⟩
      simp only [Cache.access, found]
  | none =>
      have within := victimWay_lt (h.curSet_pos address)
      rw [writtenWay, found]
      refine ⟨_, List.getElem?_eq_getElem within, Or.inr ⟨?_, rfl, ?_⟩⟩
      · simp only [Cache.access, found]
      · intro line member valid same
        have absent := List.findIdx?_eq_none_iff.mp found line member
        simp [valid, same] at absent

/-- An access writes that line and no other. -/
theorem WellFormed.lineAt_access (h : cache.WellFormed) (address : U64)
    (operation : CacheOperation) (set way : ℕ)
    : (cache.access address operation).2.lineAt set way
      = if set = (cache.index address).toNat ∧ way = cache.writtenWay address then
          some { valid := true, tag := cache.tag address
                 lruStamp := cache.globalLRUCounter + 1 }
        else
          cache.lineAt set way := by
  obtain ⟨old, here, -⟩ := h.written_cases address operation
  have within := (List.getElem?_eq_some_iff.mp here).1
  apply lineAt_set (h.index_lt address) within
  cases found
    : (cache.curSet address).findIdx? fun line => line.valid && line.tag == cache.tag address with
  | some way =>
      obtain ⟨bound, holds, -⟩ := List.findIdx?_eq_some_iff_getElem.mp found
      simp only [Bool.and_eq_true, beq_iff_eq] at holds
      simp only [Cache.access, writtenWay, found]
      rw [List.modify_eq_set_get _ bound, List.get_eq_getElem, holds.1, holds.2]
      rfl
  | none =>
      simp only [Cache.access, writtenWay, found]
      rfl

-----------------------------------------------------------------------------------------
-- Tags
-----------------------------------------------------------------------------------------

/-- The block of an address, as the cache tells blocks apart: by set and tag. -/
def block (cache : Cache) (address : U64) : U64 × U64 := (cache.index address, cache.tag address)

/-- With powers of two these are the blocks of the configuration. -/
theorem block_new_iff (geometry : config.Indexable) {a b : U64}
    : (new config).block a = (new config).block b ↔ config.block a = config.block b := by
  constructor
  · intro same
    have sets := congrArg (fun block => block.1.toNat) same
    have tags := congrArg (fun block => block.2.toNat) same
    simp only [block, index_new geometry, tag_new geometry] at sets tags
    rw [← Nat.div_add_mod (config.block a) config.numSets, tags, ← CacheConfig.setOf, sets,
      CacheConfig.setOf, Nat.div_add_mod]
  · intro same
    apply Prod.ext
    · apply BitVec.eq_of_toNat_eq
      rw [block, block, index_new geometry, index_new geometry, same]
    · apply BitVec.eq_of_toNat_eq
      rw [block, block, tag_new geometry, tag_new geometry, same]

theorem access_block (cache : Cache) (address other : U64) (operation : CacheOperation)
    : (cache.access address operation).2.block other = cache.block other :=
  Prod.ext (access_index address other operation).1 (access_index address other operation).2

/-- The tag that a set holds in a way, if that line is valid. -/
def tagAt (cache : Cache) (set : U64) (way : ℕ) : Option U64 :=
  (cache.sets.getD set.toNat [])[way]?.bind fun line => if line.valid then some line.tag else none

/-- An access hits if its set holds its tag. -/
theorem access_hit_iff (address : U64) (operation : CacheOperation)
    : (cache.access address operation).1 = true
      ↔ ∃ way, cache.tagAt (cache.index address) way = some (cache.tag address) := by
  have found
      : (cache.access address operation).1
        = (cache.curSet address).any fun line => line.valid && line.tag == cache.tag address := by
    rw [← List.findIdx?_isSome]
    unfold access
    dsimp only
    split
    · rename_i way same
      rw [same]
      rfl
    · rename_i none
      rw [none]
      rfl
  rw [found, List.any_eq_true]
  constructor
  · rintro ⟨line, member, holds⟩
    obtain ⟨way, bound, rfl⟩ := List.mem_iff_getElem.mp member
    simp only [Bool.and_eq_true, beq_iff_eq] at holds
    refine ⟨way, ?_⟩
    rw [tagAt, ← curSet, List.getElem?_eq_getElem bound, Option.bind_some, if_pos holds.1, holds.2]
  · rintro ⟨way, holds⟩
    obtain ⟨line, here, same⟩ := Option.bind_eq_some_iff.mp holds
    refine ⟨line, List.mem_of_getElem? here, ?_⟩
    split at same
    · rename_i valid
      simp [valid, Option.some.inj same]
    · cases same

/-- An access changes the tag of one line only: that of the victim, if it misses. -/
theorem WellFormed.tagAt_access (h : cache.WellFormed) (address : U64)
    (operation : CacheOperation) (set : U64) (way : ℕ)
    : (cache.access address operation).2.tagAt set way
      = if cache.index address = set ∧ (cache.access address operation).1 = false
            ∧ victimWay (cache.curSet address) = way then
          some (cache.tag address)
        else
          cache.tagAt set way := by
  obtain ⟨old, here, found⟩ := h.written_cases address operation
  rw [tagAt, tagAt, ← lineAt, ← lineAt, h.lineAt_access]
  rcases found with ⟨hit, valid, tag⟩ | ⟨miss, victim, -⟩
  · rw [if_neg (by simp [hit] : ¬ (_ ∧ _ = false ∧ _))]
    split
    case isTrue same =>
      rw [same.1, same.2, here, Option.bind_some, Option.bind_some, if_pos rfl, if_pos valid, tag]
    case isFalse => rfl
  · rw [victim]
    by_cases same : set.toNat = (cache.index address).toNat ∧ way = victimWay (cache.curSet address)
    · rw [if_pos same, if_pos ⟨BitVec.eq_of_toNat_eq same.1.symm, miss, same.2.symm⟩]
      rfl
    · rw [if_neg same, if_neg]
      rintro ⟨index, -, replaced⟩
      exact same ⟨congrArg BitVec.toNat index.symm, replaced.symm⟩

/-- A second access to an address hits. -/
theorem WellFormed.access_again (h : cache.WellFormed) (address : U64)
    (first second : CacheOperation)
    : ((cache.access address first).2.access address second).1 = true := by
  have index : (cache.access address first).2.index address = cache.index address :=
    (access_index address address first).1
  have tag : (cache.access address first).2.tag address = cache.tag address :=
    (access_index address address first).2
  rw [access_hit_iff, index, tag]
  cases hit : (cache.access address first).1 with
  | true =>
      obtain ⟨way, holds⟩ := (access_hit_iff address first).mp hit
      refine ⟨way, ?_⟩
      rw [h.tagAt_access, if_neg (by simp [hit]), holds]
  | false =>
      refine ⟨victimWay (cache.curSet address), ?_⟩
      rw [h.tagAt_access, if_pos ⟨rfl, hit, rfl⟩]

end Cache
end RiscvSim
