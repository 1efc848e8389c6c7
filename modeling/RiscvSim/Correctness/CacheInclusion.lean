import RiscvSim.Correctness.CacheReplacement

/-! A cache holds every block that a cache with fewer ways holds after the same accesses. -/

namespace RiscvSim

namespace Cache

variable {config : CacheConfig} {cache : Cache}

/-- The set holds a valid line with the tag. -/
def HoldsTag (cache : Cache) (set tag : U64) : Prop := ∃ way, cache.tagAt set way = some tag

/-- A valid line carries the tag. -/
theorem holdsTag_iff {set tag : U64}
    : cache.HoldsTag set tag
      ↔ ∃ line ∈ cache.sets.getD set.toNat [], line.valid = true ∧ line.tag = tag := by
  constructor
  · rintro ⟨way, holds⟩
    obtain ⟨line, here, same⟩ := Option.bind_eq_some_iff.mp holds
    split at same
    case isTrue valid => exact ⟨line, List.mem_of_getElem? here, valid, Option.some.inj same⟩
    case isFalse => cases same
  · rintro ⟨line, member, valid, rfl⟩
    obtain ⟨way, bound, rfl⟩ := List.mem_iff_getElem.mp member
    refine ⟨way, ?_⟩
    rw [tagAt, List.getElem?_eq_getElem bound, Option.bind_some, if_pos valid]

/-- After a history the valid lines of a set are the latest blocks that map to it. -/
theorem LruInv.holdsTag_iff {past : List ℕ} (h : LruInv config cache past)
    (geometry : config.Indexable) {set tag : U64}
    : cache.HoldsTag set tag
      ↔ set.toNat < config.numSets
        ∧ tag.toNat * config.numSets + set.toNat
          ∈ Lru.contents config.ways.toNat (past.filter (config.setOf · == set.toNat)) := by
  rw [Cache.holdsTag_iff]
  by_cases bound : set.toNat < cache.sets.length
  · rw [List.getD_eq_getElem _ _ bound, (h.holds _ bound).mem_iff geometry.numSets_pos]
    exact (and_iff_right (h.numSets ▸ bound)).symm
  · rw [List.getD_eq_default _ _ (Nat.not_lt.mp bound)]
    refine iff_of_false (by simp) fun held => bound ?_
    rw [h.numSets]
    exact held.1

/-- The invariant after a whole sequence. -/
theorem LruInv.after {past : List ℕ} (h : LruInv config cache past) (geometry : config.Indexable)
    (rest : List (U64 × CacheOperation)) (short : past.length + rest.length < 2 ^ 64)
    : LruInv config (cache.accesses rest).2
        ((rest.map fun access => config.block access.1).reverse ++ past) := by
  induction rest generalizing cache past with
  | nil => exact h
  | cons first rest ih =>
      rw [List.length_cons] at short
      have kept := (h.access geometry (by omega) first.1 first.2).2
      have later := ih kept (by rw [List.length_cons]; omega)
      simpa [Cache.accesses] using later

-----------------------------------------------------------------------------------------
-- Two caches
-----------------------------------------------------------------------------------------

/-- Where every hit of one run is a hit of the other, the other has no more misses. -/
theorem count_false_le {left right : List Bool} (length : left.length = right.length)
    (hits : ∀ k : ℕ, left[k]? = some true → right[k]? = some true)
    : right.count false ≤ left.count false := by
  induction left generalizing right with
  | nil => simp [List.length_eq_zero_iff.mp length.symm]
  | cons first left ih =>
      cases right with
      | nil => cases length
      | cons other right =>
          have rest := ih (Nat.succ.inj length) fun k => hits (k + 1)
          cases first with
          | true =>
              obtain rfl : other = true := Option.some.inj (hits 0 rfl)
              simpa using rest
          | false => cases other <;> simp only [List.count_cons] <;> simp <;> omega

/-- After the same accesses a cache with at least as many ways, and with sets and blocks of
the same size, holds every block that the other holds; whatever hits there hits here, and so
it has no more misses. Witness: each set holds the top of the stack of the blocks accessed,
as far as its ways go.
-/
theorem ways_include {few many : CacheConfig} (fewGeometry : few.Indexable)
    (manyGeometry : many.Indexable) (blockSize : few.blockSize = many.blockSize)
    (numSets : few.numSets = many.numSets) (ways : few.ways.toNat ≤ many.ways.toNat)
    (history : List (U64 × CacheOperation)) (short : history.length < 2 ^ 64)
    : (∀ address, (new few).block address = (new many).block address)
      ∧ (∀ k set tag, ((new few).accesses (history.take k)).2.HoldsTag set tag
        → ((new many).accesses (history.take k)).2.HoldsTag set tag)
      ∧ (∀ k : ℕ, ((new few).accesses history).1[k]? = some true
        → ((new many).accesses history).1[k]? = some true)
      ∧ ∀ k : ℕ, ((new many).accesses (history.take k)).2.misses.toNat
        ≤ ((new few).accesses (history.take k)).2.misses.toNat := by
  have block (address : U64) : few.block address = many.block address := by
    rw [CacheConfig.block, CacheConfig.block, blockSize]
  have setOf (number : ℕ) : few.setOf number = many.setOf number := by
    rw [CacheConfig.setOf, CacheConfig.setOf, numSets]
  have blocks : few.block = many.block := funext block
  have sets : few.setOf = many.setOf := funext setOf
  have included (history : List (U64 × CacheOperation)) (short : history.length < 2 ^ 64) (k : ℕ)
      (hit : ((new few).accesses history).1[k]? = some true)
      : ((new many).accesses history).1[k]? = some true := by
    have bound : k < history.length := by
      rw [← length_accesses (new few) history]
      exact (List.getElem?_eq_some_iff.mp hit).1
    have start : ([] : List ℕ).length + history.length < 2 ^ 64 := by simpa using short
    obtain ⟨fewHit, fewResult, fewIff⟩ :=
      (lruInv_new fewGeometry).accesses fewGeometry history start k bound
    obtain ⟨manyHit, manyResult, manyIff⟩ :=
      (lruInv_new manyGeometry).accesses manyGeometry history start k bound
    have recent := fewIff.mp (Option.some.inj (fewResult.symm.trans hit))
    rw [blocks, sets] at recent
    rw [manyResult, manyIff.mpr (recent.mono ways)]
  refine ⟨?_, ?_, included history short, ?_⟩
  · intro address
    refine Prod.ext (BitVec.eq_of_toNat_eq ?_) (BitVec.eq_of_toNat_eq ?_)
    · rw [Cache.block, Cache.block, index_new fewGeometry, index_new manyGeometry, blocks, sets]
    · rw [Cache.block, Cache.block, tag_new fewGeometry, tag_new manyGeometry, blocks, numSets]
  · intro k set tag held
    have start : ([] : List ℕ).length + (history.take k).length < 2 ^ 64 := by
      rw [List.length_take, List.length_nil]
      omega
    have fewInv := (lruInv_new fewGeometry).after fewGeometry (history.take k) start
    have manyInv := (lruInv_new manyGeometry).after manyGeometry (history.take k) start
    obtain ⟨inside, member⟩ := (fewInv.holdsTag_iff fewGeometry).mp held
    rw [numSets] at inside
    rw [blocks, sets, numSets] at member
    exact (manyInv.holdsTag_iff manyGeometry).mpr ⟨inside, Lru.contents_mono ways _ member⟩
  · intro k
    have fits : (history.take k).length < 2 ^ 64 := by
      rw [List.length_take]
      omega
    rw [(accesses_new_counts many fits).2, (accesses_new_counts few fits).2]
    refine count_false_le ?_ (included _ fits)
    rw [length_accesses, length_accesses]

/-- One and two ways after accesses to 0, 16 and 0: the last one hits with two ways only. -/
theorem ways_include_two
    : ((new ⟨32, 8, 2, 5⟩).accesses [(0, .read), (16, .write), (0, .read)]).2.misses.toNat
      ≤ ((new ⟨16, 8, 1, 5⟩).accesses [(0, .read), (16, .write), (0, .read)]).2.misses.toNat :=
  (@ways_include ⟨16, 8, 1, 5⟩ ⟨32, 8, 2, 5⟩
    ⟨⟨3, by decide⟩, ⟨1, by decide⟩, by decide⟩ ⟨⟨3, by decide⟩, ⟨1, by decide⟩, by decide⟩
    rfl (by decide) (by decide) [(0, .read), (16, .write), (0, .read)] (by decide)).2.2.2 3

end Cache
end RiscvSim
