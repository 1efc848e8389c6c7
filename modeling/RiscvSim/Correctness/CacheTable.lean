import RiscvSim.Correctness.CacheReplacement

/-! The table of a cache: its counters, and the tags and stamps of its valid lines, after any
sequence of accesses.
-/

namespace RiscvSim

namespace Cache

variable {config : CacheConfig} {cache : Cache}

/-- The set has a valid line in the way. -/
def ValidAt (cache : Cache) (set way : ℕ) (line : Line) : Prop :=
  cache.lineAt set way = some line ∧ line.valid = true

/-- The table after `accessed` accesses. -/
structure TableInv (cache : Cache) (accessed : ℕ) : Prop where
  counter : cache.globalLRUCounter.toNat = accessed
  results : cache.hits.toNat + cache.misses.toNat = accessed
  tags
    : ∀ {set way other : ℕ} {line second : Line},
        cache.ValidAt set way line
        → cache.ValidAt set other second
        → line.tag = second.tag
        → way = other
  packed
    : ∀ {set way earlier : ℕ} {line : Line},
        cache.ValidAt set way line → earlier < way → ∃ first, cache.ValidAt set earlier first
  stamps
    : ∀ {set way otherSet other : ℕ} {line second : Line},
        cache.ValidAt set way line
        → cache.ValidAt otherSet other second
        → line.lruStamp = second.lruStamp
        → set = otherSet ∧ way = other
  stamped
    : ∀ {set way : ℕ} {line : Line},
        cache.ValidAt set way line
        → 1 ≤ line.lruStamp.toNat ∧ line.lruStamp.toNat ≤ cache.globalLRUCounter.toNat

/-- A new table has no valid line. -/
theorem not_validAt_new {set way : ℕ} {line : Line}
    : ¬ (new config).ValidAt set way line := by
  rintro ⟨here, valid⟩
  have member := List.mem_of_getElem? here
  by_cases bound : set < (new config).sets.length
  · rw [List.getD_eq_getElem _ _ bound, List.eq_of_mem_replicate (List.getElem_mem bound)] at member
    rw [List.eq_of_mem_replicate member] at valid
    cases valid
  · rw [List.getD_eq_default _ _ (Nat.not_lt.mp bound)] at member
    cases member

theorem tableInv_new (config : CacheConfig) : (new config).TableInv 0 where
  counter := rfl
  results := rfl
  tags := fun valid => absurd valid not_validAt_new
  packed := fun valid => absurd valid not_validAt_new
  stamps := fun valid => absurd valid not_validAt_new
  stamped := fun valid => absurd valid not_validAt_new

-----------------------------------------------------------------------------------------
-- One access
-----------------------------------------------------------------------------------------

/-- The lines ahead of the victim are valid. -/
theorem valid_before_victimWay {set : List Line} {way : ℕ} (ahead : way < victimWay set)
    (within : way < set.length)
    : set[way].valid = true := by
  cases found : set.findIdx? (fun line => !line.valid) with
  | some first =>
      unfold victimWay at ahead
      rw [found] at ahead
      simpa using (List.findIdx?_eq_some_iff_getElem.mp found).2.2 way ahead
  | none => simpa using List.findIdx?_eq_none_iff.mp found _ (List.getElem_mem within)

/-- The counters count one access more, if there is room for one. -/
theorem access_total (address : U64) (operation : CacheOperation)
    (room : cache.hits.toNat + cache.misses.toNat + 1 < 2 ^ 64)
    : (cache.access address operation).2.hits.toNat
        + (cache.access address operation).2.misses.toNat
      = cache.hits.toNat + cache.misses.toNat + 1 := by
  obtain ⟨hits, misses⟩ := access_counts cache address operation
  have one {count : U64} (small : count.toNat + 1 < 2 ^ 64)
      : (count + 1).toNat = count.toNat + 1 :=
    BitVec.toNat_add_of_lt small
  rw [hits, misses]
  cases (cache.access address operation).1 with
  | true =>
      rw [if_pos rfl, if_pos rfl, one (by omega), add_zero]
      omega
  | false =>
      rw [if_neg (by decide), if_neg (by decide), one (by omega), add_zero]
      omega

section

variable {address : U64} {operation : CacheOperation} {set way : ℕ} {line : Line}

/-- A valid line after an access is the one written, or it was there before. -/
theorem WellFormed.validAt_cases (formed : cache.WellFormed)
    (valid : (cache.access address operation).2.ValidAt set way line)
    : (set = (cache.index address).toNat ∧ way = cache.writtenWay address
        ∧ line.tag = cache.tag address ∧ line.lruStamp = cache.globalLRUCounter + 1)
      ∨ cache.ValidAt set way line := by
  obtain ⟨here, held⟩ := valid
  rw [formed.lineAt_access] at here
  split at here
  case isTrue place =>
    obtain rfl := Option.some.inj here
    exact Or.inl ⟨place.1, place.2, rfl, rfl⟩
  case isFalse => exact Or.inr ⟨here, held⟩

/-- No access takes a valid line away. -/
theorem WellFormed.validAt_kept (formed : cache.WellFormed) (valid : cache.ValidAt set way line)
    : ∃ line, (cache.access address operation).2.ValidAt set way line := by
  by_cases place : set = (cache.index address).toNat ∧ way = cache.writtenWay address
  · exact ⟨_, (formed.lineAt_access ..).trans (if_pos place), rfl⟩
  · exact ⟨line, (formed.lineAt_access ..).trans ((if_neg place).trans valid.1), valid.2⟩

variable {accessed : ℕ}

/-- No other line of the set has the tag that is written: a hit finds the only one, and a miss
has looked at them all.
-/
theorem TableInv.written_alone (h : cache.TableInv accessed) (formed : cache.WellFormed)
    (valid : cache.ValidAt (cache.index address).toNat way line)
    (tag : line.tag = cache.tag address)
    : way = cache.writtenWay address := by
  obtain ⟨old, here, ⟨-, held, same⟩ | ⟨-, -, absent⟩⟩ := formed.written_cases address .read
  · exact h.tags valid ⟨here, held⟩ (tag.trans same.symm)
  · exact absurd tag (absent line (List.mem_of_getElem? valid.1) valid.2)

/-- The lines ahead of the one written are valid. -/
theorem TableInv.valid_ahead (h : cache.TableInv accessed) (formed : cache.WellFormed)
    (ahead : way < cache.writtenWay address)
    : ∃ line, cache.ValidAt (cache.index address).toNat way line := by
  obtain ⟨old, here, ⟨-, held, -⟩ | ⟨-, victim, -⟩⟩ := formed.written_cases address .read
  · exact h.packed ⟨here, held⟩ ahead
  · have within := ahead.trans (List.getElem?_eq_some_iff.mp here).1
    rw [victim] at ahead
    exact ⟨_, List.getElem?_eq_getElem within, valid_before_victimWay ahead within⟩

/-- An access keeps the table: the line it writes is the only one of its set with its tag, the
lines ahead of it are valid, and its stamp is later than all others.
-/
theorem TableInv.access (h : cache.TableInv accessed) (formed : cache.WellFormed)
    (short : accessed + 1 < 2 ^ 64) (address : U64) (operation : CacheOperation)
    : (cache.access address operation).2.TableInv (accessed + 1) := by
  have counter := access_counter cache address operation
  have stamp : (cache.globalLRUCounter + 1).toNat = accessed + 1 := by
    rw [← h.counter] at short ⊢
    exact BitVec.toNat_add_of_lt short
  have older {set way : ℕ} {line : Line} (valid : cache.ValidAt set way line)
      : line.lruStamp ≠ cache.globalLRUCounter + 1 := by
    intro newest
    have counted := (h.stamped valid).2
    rw [newest, stamp, h.counter] at counted
    omega
  constructor
  case counter => rw [counter, stamp]
  case results =>
    rw [access_total address operation (by rw [h.results]; exact short), h.results]
  case tags =>
    intro set way other line second first last same
    rcases formed.validAt_cases first with ⟨rfl, rfl, tag, -⟩ | before
    · rcases formed.validAt_cases last with ⟨-, rfl, -⟩ | there
      · rfl
      · exact (h.written_alone formed there (same.symm.trans tag)).symm
    · rcases formed.validAt_cases last with ⟨rfl, rfl, tag, -⟩ | there
      · exact h.written_alone formed before (same.trans tag)
      · exact h.tags before there same
  case packed =>
    intro set way earlier line valid less
    have before : ∃ first, cache.ValidAt set earlier first := by
      rcases formed.validAt_cases valid with ⟨rfl, rfl, -⟩ | there
      · exact h.valid_ahead formed less
      · exact h.packed there less
    obtain ⟨first, there⟩ := before
    exact formed.validAt_kept there
  case stamps =>
    intro set way otherSet other line second first last same
    rcases formed.validAt_cases first with ⟨rfl, rfl, -, newest⟩ | before
    · rcases formed.validAt_cases last with ⟨rfl, rfl, -⟩ | there
      · exact ⟨rfl, rfl⟩
      · exact absurd (same.symm.trans newest) (older there)
    · rcases formed.validAt_cases last with ⟨rfl, rfl, -, newest⟩ | there
      · exact absurd (same.trans newest) (older before)
      · exact h.stamps before there same
  case stamped =>
    intro set way line valid
    rw [counter, stamp]
    rcases formed.validAt_cases valid with ⟨-, -, -, newest⟩ | before
    · rw [newest, stamp]
      exact ⟨Nat.le_add_left 1 accessed, le_rfl⟩
    · obtain ⟨positive, counted⟩ := h.stamped before
      exact ⟨positive, counted.trans (h.counter.le.trans (Nat.le_succ accessed))⟩

end

-----------------------------------------------------------------------------------------
-- Sequences of accesses
-----------------------------------------------------------------------------------------

/-- A sequence keeps the table. -/
theorem TableInv.accesses {accessed : ℕ} (h : cache.TableInv accessed) (formed : cache.WellFormed)
    (rest : List (U64 × CacheOperation)) (short : accessed + rest.length < 2 ^ 64)
    : (cache.accesses rest).2.TableInv (accessed + rest.length) := by
  induction rest generalizing cache accessed with
  | nil => exact h
  | cons first rest ih =>
      rw [List.length_cons] at short ⊢
      have kept := h.access formed (by omega) first.1 first.2
      have later := ih kept (formed.access first.1 first.2) (by omega)
      rwa [Nat.add_assoc, Nat.add_comm 1] at later

theorem WellFormed.accesses (formed : cache.WellFormed) (rest : List (U64 × CacheOperation))
    : (cache.accesses rest).2.WellFormed := by
  induction rest generalizing cache with
  | nil => exact formed
  | cons first rest ih => exact ih (formed.access first.1 first.2)

theorem accesses_index (cache : Cache) (rest : List (U64 × CacheOperation)) (address : U64)
    : (cache.accesses rest).2.index address = cache.index address := by
  induction rest generalizing cache with
  | nil => rfl
  | cons first rest ih => exact (ih _).trans (access_index first.1 address first.2).1

/-- The cache after one access more. -/
theorem accesses_take_succ (cache : Cache) {history : List (U64 × CacheOperation)} {k : ℕ}
    (bound : k < history.length)
    : (cache.accesses (history.take (k + 1))).2
      = ((cache.accesses (history.take k)).2.access history[k].1 history[k].2).2 := by
  induction history generalizing cache k with
  | nil => cases bound
  | cons first rest ih =>
      cases k with
      | zero => rfl
      | succ k => exact ih _ (Nat.lt_of_succ_lt_succ bound)

/-- After every sequence of accesses to a new cache the two counters add up to the number of
accesses, the valid lines of a set come first and have tags of their own, and all valid lines
have stamps of their own from 1 to the counter. Each access has changed one line at most, of
the set of its address. Witness: a hit writes the only line with its tag, a miss the first
invalid line or one of a full set, and the stamp is new.
-/
theorem table_after {config : CacheConfig} (geometry : config.Indexable)
    (history : List (U64 × CacheOperation)) (short : history.length < 2 ^ 64)
    : ((new config).accesses history).2.TableInv history.length
      ∧ ∀ (k : ℕ) (bound : k < history.length),
          ∃ changed, ∀ set way,
            ((new config).accesses (history.take (k + 1))).2.lineAt set way
              ≠ ((new config).accesses (history.take k)).2.lineAt set way
            → set = config.setOf (config.block history[k].1) ∧ way = changed := by
  have formed := wellFormed_new geometry.numSets_pos
  constructor
  · have table := (tableInv_new config).accesses formed history (by rwa [Nat.zero_add])
    rwa [Nat.zero_add] at table
  · intro k bound
    have index : (((new config).accesses (history.take k)).2.index history[k].1).toNat
        = config.setOf (config.block history[k].1) := by
      rw [accesses_index, index_new geometry]
    refine ⟨((new config).accesses (history.take k)).2.writtenWay history[k].1, ?_⟩
    intro set way changes
    rw [accesses_take_succ _ bound, (formed.accesses _).lineAt_access, index] at changes
    by_contra elsewhere
    exact changes (if_neg elsewhere)

/-- Four accesses to one set with two ways: after the eviction of block 0 there are two valid
lines, with stamps 3 and 4.
-/
theorem table_after_four
    : ((new ⟨32, 8, 2, 5⟩).accesses [(0, .read), (16, .write), (16, .read), (32, .read)]).2.TableInv
      4 :=
  (@table_after ⟨32, 8, 2, 5⟩ ⟨⟨3, by decide⟩, ⟨1, by decide⟩, by decide⟩
    [(0, .read), (16, .write), (16, .read), (32, .read)] (by decide)).1

end Cache
end RiscvSim
