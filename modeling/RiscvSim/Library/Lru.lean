import Mathlib.Data.Finset.Card
import Mathlib.Data.List.TakeWhile
import Mathlib.Tactic.Common

/-! Least-recently-used replacement of a bounded number of keys, and its characterisation by
stack distance. Histories of accesses are lists with the latest access first.
-/

namespace Lru

variable {α : Type} [DecidableEq α]

/-- The keys held after an access to `a`, newest first. The oldest one is dropped if there
are more than `n`.
-/
def step (n : ℕ) (keys : List α) (a : α) : List α := (a :: keys.erase a).take n

/-- The keys held after a history of accesses. -/
def contents (n : ℕ) : List α → List α
  | [] => []
  | a :: past => step n (contents n past) a

/-- All keys of a history, each at the place of its latest access. -/
def stack : List α → List α
  | [] => []
  | a :: past => a :: (stack past).erase a

/-- `a` was accessed before, and fewer than `n` other keys since its latest access. -/
def Recent (n : ℕ) (past : List α) (a : α) : Prop :=
  a ∈ past ∧ (past.takeWhile (· != a)).toFinset.card < n

instance (n : ℕ) (past : List α) (a : α) : Decidable (Recent n past a) := by
  unfold Recent
  infer_instance

/-- What is recent among few keys is recent among more. -/
theorem Recent.mono {m n : ℕ} (le : m ≤ n) {past : List α} {a : α} (h : Recent m past a)
    : Recent n past a :=
  ⟨h.1, h.2.trans_le le⟩

/-- A key accessed last before `since` is recent if `since` has few enough keys. -/
theorem recent_since {n : ℕ} {since past : List α} {a : α} (apart : a ∉ since)
    : Recent n (since ++ a :: past) a ↔ since.toFinset.card < n := by
  have prefix_eq : (since ++ a :: past).takeWhile (· != a) = since := by
    rw [List.takeWhile_append_of_pos, List.takeWhile_cons_of_neg (by simp), List.append_nil]
    intro b member
    rw [bne_iff_ne]
    rintro rfl
    exact apart member
  rw [Recent, prefix_eq]
  exact and_iff_right (by simp)

-----------------------------------------------------------------------------------------
-- The stack of all keys
-----------------------------------------------------------------------------------------

theorem nodup_stack (past : List α) : (stack past).Nodup := by
  induction past with
  | nil => exact List.nodup_nil
  | cons a past ih => exact List.nodup_cons.mpr ⟨ih.not_mem_erase, ih.erase a⟩

theorem mem_stack {past : List α} {a : α} : a ∈ stack past ↔ a ∈ past := by
  induction past with
  | nil => rfl
  | cons b past ih =>
      rw [stack, List.mem_cons, List.mem_cons, (nodup_stack past).mem_erase_iff, ih]
      tauto

/-- Taking one key out of a list takes it out of the part before another key. -/
theorem takeWhile_erase {a b : α} (apart : a ≠ b) (keys : List α)
    : (keys.erase a).takeWhile (· != b)
      = (keys.takeWhile (· != b)).erase a := by
  induction keys with
  | nil => rfl
  | cons c keys ih =>
      by_cases same : c = a
      · subst same
        simp [apart]
      · by_cases reached : c = b
        · subst reached
          simp [same]
        · simp [same, reached, ih]

/-- The keys above `a` in the stack are those accessed since. -/
theorem mem_takeWhile_stack {past : List α} {a b : α}
    : b ∈ (stack past).takeWhile (· != a)
      ↔ b ∈ past.takeWhile (· != a) := by
  induction past with
  | nil => rfl
  | cons c past ih =>
      by_cases same : c = a
      · subst same
        simp [stack]
      · have above := (nodup_stack past).sublist
          (List.takeWhile_sublist (· != a))
        rw [stack, List.takeWhile_cons_of_pos (by simpa using same),
          List.takeWhile_cons_of_pos (by simpa using same), takeWhile_erase same, List.mem_cons,
          List.mem_cons, above.mem_erase_iff, ih]
        tauto

theorem mem_take_iff {keys : List α} {a : α} (n : ℕ)
    : a ∈ keys.take n
      ↔ a ∈ keys ∧ (keys.takeWhile (· != a)).length < n := by
  induction keys generalizing n with
  | nil => simp
  | cons b keys ih =>
      cases n with
      | zero => simp
      | succ n =>
          by_cases same : b = a
          · subst same
            simp
          · rw [List.take_succ_cons, List.mem_cons, List.mem_cons, ih,
              List.takeWhile_cons_of_pos (by simpa using same), List.length_cons]
            have other : a ≠ b := fun eq => same eq.symm
            simp [other]

-----------------------------------------------------------------------------------------
-- The keys held are the top of the stack
-----------------------------------------------------------------------------------------

theorem take_erase (m : ℕ) (keys : List α) (a : α)
    : ((keys.take (m + 1)).erase a).take m = (keys.erase a).take m := by
  induction m generalizing keys with
  | zero => simp
  | succ m ih =>
      cases keys with
      | nil => rfl
      | cons b keys =>
          by_cases same : b = a
          · subst same
            simp [List.take_take]
          · simp [same, ih]

theorem contents_eq_take (n : ℕ) (past : List α) : contents n past = (stack past).take n := by
  induction past with
  | nil => simp [contents, stack]
  | cons a past ih =>
      cases n with
      | zero => simp [contents, step]
      | succ n =>
          rw [contents, step, ih, stack, List.take_succ_cons, List.take_succ_cons, take_erase]

theorem nodup_contents (n : ℕ) (past : List α) : (contents n past).Nodup := by
  rw [contents_eq_take]
  exact (nodup_stack past).sublist (List.take_sublist n _)

theorem length_contents_le (n : ℕ) (past : List α) : (contents n past).length ≤ n := by
  rw [contents_eq_take]
  exact List.length_take_le n _

/-- A key is held exactly if its stack distance is below the number of places. -/
theorem mem_contents_iff {n : ℕ} {past : List α} {a : α}
    : a ∈ contents n past ↔ Recent n past a := by
  have distance
      : ((stack past).takeWhile (· != a)).length
        = (past.takeWhile (· != a)).toFinset.card := by
    have above := (nodup_stack past).sublist (List.takeWhile_sublist (· != a))
    rw [← List.toFinset_card_of_nodup above]
    congr 1
    ext b
    rw [List.mem_toFinset, List.mem_toFinset, mem_takeWhile_stack]
  rw [contents_eq_take, mem_take_iff, mem_stack, distance, Recent]

/-- More places hold all that fewer places hold, at every point of the history. -/
theorem contents_mono {m n : ℕ} (le : m ≤ n) (past : List α)
    : contents m past ⊆ contents n past :=
  fun _ held => mem_contents_iff.mpr ((mem_contents_iff.mp held).mono le)

-----------------------------------------------------------------------------------------
-- Misses
-----------------------------------------------------------------------------------------

variable {β : Type} [DecidableEq β] {n : ℕ} {set : α → β}

/-- The accesses of a history that are no hits, where the keys of each set share `n` places. -/
def misses (n : ℕ) (set : α → β) : List α → ℕ
  | [] => 0
  | a :: past =>
      misses n set past + if Recent n (past.filter (set · == set a)) a then 0 else 1

/-- Among no more keys than places, a key that was accessed is recent. -/
theorem recent_of_card_le {past : List α} {a : α} (accessed : a ∈ past)
    (fits : past.toFinset.card ≤ n) : Recent n past a := by
  refine ⟨accessed, lt_of_lt_of_le (Finset.card_lt_card ?_) fits⟩
  rw [Finset.ssubset_iff_of_subset]
  · exact ⟨a, List.mem_toFinset.mpr accessed, fun above => by
      simpa using List.mem_takeWhile_imp (List.mem_toFinset.mp above)⟩
  · intro b above
    rw [List.mem_toFinset] at above ⊢
    exact (List.takeWhile_sublist _).subset above

theorem Recent.accessed {p : α → Bool} {past : List α} {a : α} (h : Recent n (past.filter p) a)
    : a ∈ past :=
  List.mem_of_mem_filter h.1

/-- Every key is missed at its first access. -/
theorem card_le_misses (history : List α) : history.toFinset.card ≤ misses n set history := by
  induction history with
  | nil => exact Nat.le_refl 0
  | cons a past ih =>
      rw [misses, List.toFinset_cons]
      by_cases accessed : a ∈ past
      · rw [Finset.insert_eq_of_mem (List.mem_toFinset.mpr accessed)]
        exact ih.trans (Nat.le_add_right _ _)
      · rw [if_neg (mt Recent.accessed accessed)]
        exact (Finset.card_insert_le _ _).trans (Nat.add_le_add_right ih 1)

/-- Where the keys of each set fit in its places, only first accesses miss. -/
theorem misses_of_fits (history : List α)
    (fits : ∀ a ∈ history, (history.filter (set · == set a)).toFinset.card ≤ n)
    : misses n set history = history.toFinset.card := by
  induction history with
  | nil => rfl
  | cons a past ih =>
      have later (b : α) (member : b ∈ past)
          : (past.filter (set · == set b)).toFinset.card ≤ n := by
        refine le_trans (Finset.card_le_card fun key held => ?_)
          (fits b (List.mem_cons_of_mem a member))
        rw [List.mem_toFinset] at held ⊢
        exact ((List.sublist_cons_self a past).filter _).subset held
      rw [misses, ih later, List.toFinset_cons]
      by_cases accessed : a ∈ past
      · have recent : Recent n (past.filter (set · == set a)) a :=
          recent_of_card_le (by simpa using accessed) (later a accessed)
        rw [if_pos recent, Finset.insert_eq_of_mem (List.mem_toFinset.mpr accessed)]
        exact Nat.add_zero _
      · rw [if_neg (mt Recent.accessed accessed),
          Finset.card_insert_of_notMem (mt List.mem_toFinset.mp accessed)]

end Lru
