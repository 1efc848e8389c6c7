import RiscvSim.Pipeline.CacheLines
import RiscvSim.Library.Lru
import Mathlib.Data.List.Perm.Basic

/-! One set of the cache keeps the most recent keys of its history: its valid lines, ordered by
their stamps, are the contents of a least-recently-used store.
-/

namespace RiscvSim

namespace Cache

-----------------------------------------------------------------------------------------
-- The scan for the oldest line
-----------------------------------------------------------------------------------------

/-- The scan ends at a line with the least stamp, if it starts at one with the least stamp so
far.
-/
theorem lruScan_least (before rest : List Line) {best : ℕ} {line : Line}
    (found : (before ++ rest)[best]? = some line)
    (least : ∀ other ∈ before, line.lruStamp.toNat ≤ other.lruStamp.toNat)
    : ∃ oldest,
        (before ++ rest)[lruScan best line.lruStamp before.length rest]? = some oldest
        ∧ ∀ other ∈ before ++ rest, oldest.lruStamp.toNat ≤ other.lruStamp.toNat := by
  induction rest generalizing before best line with
  | nil =>
      refine ⟨line, found, ?_⟩
      simpa using least
  | cons next rest ih =>
      have split : before ++ next :: rest = (before ++ [next]) ++ rest := by simp
      have length : before.length + 1 = (before ++ [next]).length := by simp
      unfold lruScan
      rw [split] at found ⊢
      rw [length]
      by_cases older : next.lruStamp < line.lruStamp
      · rw [if_pos older]
        apply ih
        · simp
        · intro other member
          rcases List.mem_append.mp member with earlier | last
          · exact le_trans (BitVec.lt_def.mp older).le (least other earlier)
          · rw [List.mem_singleton.mp last]
      · rw [if_neg older]
        apply ih _ found
        intro other member
        rcases List.mem_append.mp member with earlier | last
        · exact least other earlier
        · rw [List.mem_singleton.mp last]
          exact Nat.not_lt.mp fun less => older (BitVec.lt_def.mpr less)

/-- The victim of a full set is a line with the least stamp. -/
theorem victimWay_oldest {set : List Line} (full : ∀ line ∈ set, line.valid = true)
    (ways : 0 < set.length)
    : ∃ oldest,
        set[victimWay set]? = some oldest
        ∧ ∀ other ∈ set, oldest.lruStamp.toNat ≤ other.lruStamp.toNat := by
  have noInvalid : set.findIdx? (fun line => !line.valid) = none := by
    rw [List.findIdx?_eq_none_iff]
    intro line member
    simp [full line member]
  cases set with
  | nil => exact absurd ways (by decide)
  | cons first rest =>
      rw [victimWay, noInvalid]
      have start : ([] ++ first :: rest)[0]? = some first := rfl
      exact lruScan_least [] (first :: rest) start (by simp)

-----------------------------------------------------------------------------------------
-- A set and the keys it holds
-----------------------------------------------------------------------------------------

/-- The valid lines of `set`, newest first, hold the blocks `keys`. The block of a line is its
tag followed by the number of the set.
-/
def Represents (numSets index : ℕ) (set : List Line) (keys : List ℕ) : Prop :=
  ∃ lines : List Line,
    (set.filter (·.valid)).Perm lines
    ∧ lines.map (fun line => line.tag.toNat * numSets + index) = keys
    ∧ lines.Pairwise (fun newer older => older.lruStamp.toNat < newer.lruStamp.toNat)

/-- One line of a set replaced by a valid one. -/
theorem filter_set_perm {set : List Line} {way : ℕ} (bound : way < set.length) (line : Line)
    (valid : line.valid = true)
    : ((set.set way line).filter (·.valid)).Perm
        (line :: (set.eraseIdx way).filter (·.valid)) := by
  have perm := (List.set_perm_cons_eraseIdx bound line).filter (·.valid)
  rwa [List.filter_cons_of_pos valid] at perm

theorem filter_perm {set : List Line} {way : ℕ} (bound : way < set.length)
    : (set.filter (·.valid)).Perm ((set[way] :: set.eraseIdx way).filter (·.valid)) :=
  (List.getElem_cons_eraseIdx_perm bound).symm.filter _

variable {numSets index : ℕ} {set : List Line} {keys : List ℕ} {tag stamp : U64}

/-- A line that becomes the newest one of its set. -/
theorem pairwise_cons_newest {lines : List Line} {line : Line}
    (newest : ∀ other ∈ set, other.valid = true → other.lruStamp.toNat < line.lruStamp.toNat)
    (members : ∀ other ∈ lines, other ∈ set.filter (·.valid))
    (ordered : lines.Pairwise (fun newer older => older.lruStamp.toNat < newer.lruStamp.toNat))
    : (line :: lines).Pairwise
        (fun newer older => older.lruStamp.toNat < newer.lruStamp.toNat) := by
  refine List.pairwise_cons.mpr ⟨?_, ordered⟩
  intro other member
  obtain ⟨inside, valid⟩ := List.mem_filter.mp (members other member)
  exact newest other inside valid

/-- A hit moves the key to the front. -/
theorem Represents.hit (h : Represents numSets index set keys) (unique : keys.Nodup)
    (fits : keys.length ≤ set.length)
    (newest : ∀ line ∈ set, line.valid = true → line.lruStamp.toNat < stamp.toNat) {way : ℕ}
    (found : set.findIdx? (fun line => line.valid && line.tag == tag) = some way)
    : tag.toNat * numSets + index ∈ keys
      ∧ Represents numSets index (set.modify way fun line => { line with lruStamp := stamp })
          (Lru.step set.length keys (tag.toNat * numSets + index)) := by
  obtain ⟨lines, perm, rfl, ordered⟩ := h
  obtain ⟨bound, holds, _⟩ := List.findIdx?_eq_some_iff_getElem.mp found
  simp only [Bool.and_eq_true, beq_iff_eq] at holds
  obtain ⟨valid, rfl⟩ := holds
  have member : set[way] ∈ lines :=
    perm.mem_iff.mp (List.mem_filter.mpr ⟨List.getElem_mem bound, valid⟩)
  obtain ⟨newer, older, rfl, _⟩ := List.eq_append_cons_of_mem member
  have others : ((set.eraseIdx way).filter (·.valid)).Perm (newer ++ older) := by
    have whole := ((filter_perm bound).symm.trans perm).trans List.perm_middle
    rw [List.filter_cons_of_pos valid] at whole
    exact whole.cons_inv
  have key : ((newer ++ set[way] :: older).map fun line => line.tag.toNat * numSets + index).erase
        (set[way].tag.toNat * numSets + index)
      = (newer ++ older).map fun line => line.tag.toNat * numSets + index := by
    rw [List.map_append, List.map_cons] at unique ⊢
    rw [List.erase_append_right, List.erase_cons_head, List.map_append]
    intro earlier
    exact (List.nodup_middle.mp unique).notMem (List.mem_append_left _ earlier)
  refine ⟨List.mem_map_of_mem member, { set[way] with lruStamp := stamp } :: (newer ++ older),
    ?_, ?_, ?_⟩
  · rw [List.modify_eq_set_get _ bound]
    have replaced := filter_set_perm bound { set[way] with lruStamp := stamp } valid
    exact replaced.trans (others.cons _)
  · rw [Lru.step, key, List.map_cons, List.take_of_length_le]
    simp only [List.length_map, List.length_append, List.length_cons] at fits ⊢
    omega
  · refine pairwise_cons_newest newest ?_ (ordered.sublist ?_)
    · intro other inside
      have before := others.mem_iff.mpr inside
      exact ((List.eraseIdx_sublist set way).filter _).subset before
    · exact (List.Sublist.refl newer).append (List.sublist_cons_self _ _)

/-- The keys held are those of the valid lines. -/
theorem Represents.mem_iff (h : Represents numSets index set keys) (positive : 0 < numSets)
    : (∃ line ∈ set, line.valid = true ∧ line.tag = tag) ↔ tag.toNat * numSets + index ∈ keys := by
  obtain ⟨lines, perm, rfl, _⟩ := h
  constructor
  · rintro ⟨line, member, valid, rfl⟩
    exact List.mem_map_of_mem (perm.mem_iff.mp (List.mem_filter.mpr ⟨member, valid⟩))
  · intro held
    obtain ⟨line, member, same⟩ := List.mem_map.mp held
    obtain ⟨inside, valid⟩ := List.mem_filter.mp (perm.mem_iff.mpr member)
    have tags : line.tag = tag :=
      BitVec.eq_of_toNat_eq (Nat.eq_of_mul_eq_mul_right positive (by omega))
    exact ⟨line, inside, valid, tags⟩

/-- A key that no valid line carries is not held. -/
theorem Represents.notMem (h : Represents numSets index set keys) (positive : 0 < numSets)
    (missing : set.findIdx? (fun line => line.valid && line.tag == tag) = none)
    : tag.toNat * numSets + index ∉ keys := by
  intro held
  obtain ⟨line, inside, valid, tags⟩ := (h.mem_iff positive).mpr held
  have absent := List.findIdx?_eq_none_iff.mp missing line inside
  simp [valid, tags] at absent

/-- A miss takes an invalid line as long as there is one. -/
theorem Represents.miss_invalid (h : Represents numSets index set keys)
    (newest : ∀ line ∈ set, line.valid = true → line.lruStamp.toNat < stamp.toNat)
    (absent : tag.toNat * numSets + index ∉ keys) {way : ℕ}
    (found : set.findIdx? (fun line => !line.valid) = some way)
    : Represents numSets index
        (set.set way { valid := true, tag := tag, lruStamp := stamp })
        (Lru.step set.length keys (tag.toNat * numSets + index)) := by
  obtain ⟨lines, perm, rfl, ordered⟩ := h
  obtain ⟨bound, invalid, _⟩ := List.findIdx?_eq_some_iff_getElem.mp found
  have others : ((set.eraseIdx way).filter (·.valid)).Perm lines := by
    have whole := (filter_perm bound).symm.trans perm
    rwa [List.filter_cons_of_neg (by simpa using invalid)] at whole
  have fewer : lines.length < set.length := by
    have remaining := List.length_filter_le (·.valid) (set.eraseIdx way)
    rw [List.length_eraseIdx_of_lt bound] at remaining
    have same := others.length_eq
    omega
  refine ⟨{ valid := true, tag := tag, lruStamp := stamp } :: lines, ?_, ?_, ?_⟩
  · exact (filter_set_perm bound _ rfl).trans (others.cons _)
  · rw [Lru.step, List.erase_of_not_mem absent, List.map_cons, List.take_of_length_le]
    simp only [List.length_cons, List.length_map]
    omega
  · exact pairwise_cons_newest newest (fun other inside => perm.mem_iff.mpr inside) ordered

/-- A miss in a full set takes the line with the oldest key. -/
theorem Represents.miss_full (h : Represents numSets index set keys) (ways : 0 < set.length)
    (newest : ∀ line ∈ set, line.valid = true → line.lruStamp.toNat < stamp.toNat)
    (absent : tag.toNat * numSets + index ∉ keys) (full : ∀ line ∈ set, line.valid = true)
    : Represents numSets index
        (set.set (victimWay set) { valid := true, tag := tag, lruStamp := stamp })
        (Lru.step set.length keys (tag.toNat * numSets + index)) := by
  obtain ⟨lines, perm, rfl, ordered⟩ := h
  have whole : set.filter (·.valid) = set := List.filter_eq_self.mpr full
  rw [whole] at perm
  obtain ⟨oldest, found, least⟩ := victimWay_oldest full ways
  obtain ⟨bound, rfl⟩ := List.getElem?_eq_some_iff.mp found
  have nonempty : lines ≠ [] := by
    rintro rfl
    simp [perm.length_eq] at ways
  obtain ⟨newer, last, rfl⟩ : ∃ newer last, lines = newer ++ [last] :=
    ⟨lines.dropLast, lines.getLast nonempty, (List.dropLast_append_getLast nonempty).symm⟩
  -- the last line is the only one with the least stamp
  have victim : set[victimWay set] = last := by
    have member : set[victimWay set] ∈ newer ++ [last] :=
      perm.mem_iff.mp (List.getElem_mem bound)
    rcases List.mem_append.mp member with earlier | final
    · have older := (List.pairwise_append.mp ordered).2.2 _ earlier last (by simp)
      have notOlder := least last (perm.mem_iff.mpr (by simp))
      omega
    · exact List.mem_singleton.mp final
  have others : (set.eraseIdx (victimWay set)).Perm newer := by
    have rotated := ((List.getElem_cons_eraseIdx_perm bound).trans perm).trans
      (List.perm_append_singleton last newer)
    rw [victim] at rotated
    exact rotated.cons_inv
  have stillValid : (set.eraseIdx (victimWay set)).filter (·.valid)
      = set.eraseIdx (victimWay set) :=
    List.filter_eq_self.mpr fun line member =>
      full line ((List.eraseIdx_sublist set _).subset member)
  refine ⟨{ valid := true, tag := tag, lruStamp := stamp } :: newer, ?_, ?_, ?_⟩
  · have replaced := filter_set_perm bound { valid := true, tag := tag, lruStamp := stamp } rfl
    rw [stillValid] at replaced
    exact replaced.trans (others.cons _)
  · have length := perm.length_eq
    rw [List.length_append, List.length_singleton] at length
    rw [Lru.step, List.erase_of_not_mem absent, length, List.take_succ_cons, List.map_append,
      List.take_append_of_le_length (by simp), List.map_cons, List.take_of_length_le (by simp)]
  · refine pairwise_cons_newest newest ?_ (List.pairwise_append.mp ordered).1
    intro other inside
    rw [whole]
    exact perm.mem_iff.mpr (List.mem_append_left _ inside)

/-- A miss brings the key in at the front and drops the oldest one from a full set. -/
theorem Represents.miss (h : Represents numSets index set keys) (ways : 0 < set.length)
    (positive : 0 < numSets)
    (newest : ∀ line ∈ set, line.valid = true → line.lruStamp.toNat < stamp.toNat)
    (missing : set.findIdx? (fun line => line.valid && line.tag == tag) = none)
    : Represents numSets index
        (set.set (victimWay set) { valid := true, tag := tag, lruStamp := stamp })
        (Lru.step set.length keys (tag.toNat * numSets + index)) := by
  have absent := h.notMem positive missing
  cases found : set.findIdx? (fun line => !line.valid) with
  | some way =>
      have victim : victimWay set = way := by
        unfold victimWay
        rw [found]
      rw [victim]
      exact h.miss_invalid newest absent found
  | none =>
      apply h.miss_full ways newest absent
      intro line member
      have valid := List.findIdx?_eq_none_iff.mp found line member
      simpa using valid

end Cache
end RiscvSim
