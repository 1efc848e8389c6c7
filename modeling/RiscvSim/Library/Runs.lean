import Mathlib.Data.List.TakeWhile
import Mathlib.Logic.Function.Iterate
import Mathlib.Order.WellFounded

/-! Runs of a deterministic step function: reachable states, invariants under a condition on
the steps taken, the events a run emits, and one-place buffers between two event streams.
-/

namespace Runs

variable {σ α : Type*} (step : σ → σ)

/-- States reached from `start` by steps that were all taken where `ok` holds. -/
inductive ReachableUnder (ok : σ → Prop) (start : σ) : σ → Prop
  | start : ReachableUnder ok start start
  | next {s} (earlier : ReachableUnder ok start s) (allowed : ok s)
    : ReachableUnder ok start (step s)

/-- States reached from `start` by any number of steps. -/
abbrev Reachable (start : σ) : σ → Prop := ReachableUnder step (fun _ => True) start

variable {step}

/-- A property of the start that every allowed step preserves holds wherever the run gets. -/
theorem ReachableUnder.invariant {ok inv : σ → Prop} {start s : σ}
    (reach : ReachableUnder step ok start s) (base : inv start)
    (preserved : ∀ s, inv s → ok s → inv (step s))
    : inv s := by
  induction reach with
  | start => exact base
  | next _ allowed ih => exact preserved _ ih allowed

/-- A weaker condition on the steps reaches more states. -/
theorem ReachableUnder.mono {ok weaker : σ → Prop} {start s : σ}
    (reach : ReachableUnder step ok start s) (imp : ∀ s, ok s → weaker s)
    : ReachableUnder step weaker start s := by
  induction reach with
  | start => exact .start
  | next _ allowed ih => exact .next ih (imp _ allowed)

theorem ReachableUnder.reachable {ok : σ → Prop} {start s : σ}
    (reach : ReachableUnder step ok start s) : Reachable step start s :=
  reach.mono fun _ _ => trivial

/-- A run of `n` steps whose states all meet the condition stays within the reachable ones.
-/
theorem reachableUnder_iterate {ok : σ → Prop} {start : σ} {n : ℕ}
    (allowed : ∀ m < n, ok (step^[m] start))
    : ReachableUnder step ok start (step^[n] start) := by
  induction n with
  | zero => exact .start
  | succ n ih =>
      rw [Function.iterate_succ_apply']
      exact .next (ih fun m earlier => allowed m (by omega)) (allowed n (by omega))

theorem reachable_iterate (start : σ) (n : ℕ) : Reachable step start (step^[n] start) :=
  reachableUnder_iterate fun _ _ => trivial

/-- A run that keeps a well-founded measure falling as long as the goal is not met meets it;
before that the invariant holds and the goal does not. Witness: well-founded induction.
-/
theorem exists_first_of_measure {β : Type*} {below : β → β → Prop}
    (wellFounded : WellFounded below) (measure : σ → β) {inv goal : σ → Prop}
    (preserved : ∀ s, inv s → ¬ goal s → inv (step s))
    (falls : ∀ s, inv s → ¬ goal s → below (measure (step s)) (measure s))
    (s : σ) (base : inv s)
    : ∃ n, goal (step^[n] s) ∧ inv (step^[n] s) ∧ ∀ m < n, ¬ goal (step^[m] s) := by
  have run : ∀ s, inv s → ∃ n, goal (step^[n] s) ∧ inv (step^[n] s)
      ∧ ∀ m < n, ¬ goal (step^[m] s) := by
    intro s
    induction s using (InvImage.wf measure wellFounded).induction with
    | _ s ih =>
        intro holds
        by_cases met : goal s
        · exact ⟨0, met, holds, by simp⟩
        obtain ⟨n, reached, after, before⟩ :=
          ih (step s) (falls s holds met) (preserved s holds met)
        refine ⟨n + 1, reached, after, fun m earlier => ?_⟩
        cases m with
        | zero => exact met
        | succ m => exact before m (by omega)
  exact run s base

-----------------------------------------------------------------------------------------
-- Events of a run
-----------------------------------------------------------------------------------------

variable (step)

/-- The events emitted by the first `n` steps from `s`, in order. -/
def events (event : σ → Option α) (s : σ) (n : ℕ) : List α :=
  (List.range n).filterMap fun m => event (step^[m] s)

variable {step}

@[simp]
theorem events_zero (event : σ → Option α) (s : σ) : events step event s 0 = [] := rfl

theorem events_succ (event : σ → Option α) (s : σ) (n : ℕ)
    : events step event s (n + 1) = events step event s n ++ (event (step^[n] s)).toList := by
  simp only [events, List.range_succ, List.filterMap_append]
  cases emitted : event (step^[n] s) <;> simp [emitted]

/-- A run in two parts emits the events of the first and then those of the second. -/
theorem events_add (event : σ → Option α) (s : σ) (m n : ℕ)
    : events step event s (m + n)
      = events step event s m ++ events step event (step^[m] s) n := by
  induction n with
  | zero => simp
  | succ n ih =>
      rw [← Nat.add_assoc, events_succ, ih, events_succ, List.append_assoc,
        ← Function.iterate_add_apply, Nat.add_comm n m]

theorem events_one (event : σ → Option α) (s : σ)
    : events step event s 1 = (event s).toList := by
  simp [events_succ]

/-- The events of a longer run start with those of a shorter one. -/
theorem events_prefix (event : σ → Option α) (s : σ) {m n : ℕ} (le : m ≤ n)
    : events step event s m <+: events step event s n := by
  induction n, le using Nat.le_induction with
  | base => exact List.prefix_refl _
  | succ n _ ih =>
      rw [events_succ]
      exact ih.trans (List.prefix_append _ _)

/-- An event of the run comes from one of its steps. -/
theorem mem_events {event : σ → Option α} {s : σ} {n : ℕ} {a : α}
    : a ∈ events step event s n ↔ ∃ m < n, event (step^[m] s) = some a := by
  simp [events]

/-- Events mapped after the fact are the mapped events. -/
theorem map_events {β : Type*} (f : α → β) (event : σ → Option α) (s : σ) (n : ℕ)
    : (events step event s n).map f = events step (fun t => (event t).map f) s n := by
  induction n with
  | zero => rfl
  | succ n ih =>
      rw [events_succ, events_succ, List.map_append, ih]
      cases event (step^[n] s) <;> rfl

/-- Events filtered after the fact are the filtered events. -/
theorem filter_events (keep : α → Bool) (event : σ → Option α) (s : σ) (n : ℕ)
    : (events step event s n).filter keep
      = events step (fun t => (event t).filter keep) s n := by
  induction n with
  | zero => rfl
  | succ n ih =>
      rw [events_succ, events_succ, List.filter_append, ih]
      cases emitted : event (step^[n] s) with
      | none => rfl
      | some a => cases kept : keep a <;> simp [Option.filter, kept]

/-- The events up to the first one that is not kept are those of a shorter run, in which all
are kept. Witness: the first step that emits an event not kept.
-/
theorem takeWhile_events (keep : α → Bool) (event : σ → Option α) (s : σ) (n : ℕ)
    : ∃ m ≤ n,
        (events step event s n).takeWhile keep = events step event s m
        ∧ ∀ j < m, ∀ a, event (step^[j] s) = some a → keep a = true := by
  induction n with
  | zero => exact ⟨0, le_rfl, rfl, fun j earlier => absurd earlier (Nat.not_lt_zero j)⟩
  | succ n ih =>
      obtain ⟨m, bound, same, kept⟩ := ih
      by_cases all : ∀ a ∈ events step event s n, keep a = true
      · have whole : (events step event s n).takeWhile keep = events step event s n :=
          List.takeWhile_eq_self_iff.mpr all
        have earlier : ∀ j < n, ∀ a, event (step^[j] s) = some a → keep a = true :=
          fun j less a emitted => all a (mem_events.mpr ⟨j, less, emitted⟩)
        by_cases last : ∀ a, event (step^[n] s) = some a → keep a = true
        · refine ⟨n + 1, le_rfl, ?_, fun j less a emitted => ?_⟩
          · rw [List.takeWhile_eq_self_iff, events_succ]
            intro a member
            rcases List.mem_append.mp member with before | now
            · exact all a before
            · exact last a (by simpa using now)
          · rcases Nat.lt_succ_iff_lt_or_eq.mp less with before | rfl
            · exact earlier j before a emitted
            · exact last a emitted
        · push Not at last
          obtain ⟨a, emitted, dropped⟩ := last
          refine ⟨n, by omega, ?_, earlier⟩
          rw [events_succ, emitted, List.takeWhile_append_of_pos all]
          simp [dropped]
      · refine ⟨m, by omega, ?_, kept⟩
        have short : ((events step event s n).takeWhile keep).length
            ≠ (events step event s n).length := by
          intro full
          exact all (List.takeWhile_eq_self_iff.mp
            ((List.takeWhile_prefix keep).eq_of_length full))
        rw [events_succ, List.takeWhile_append, if_neg short, same]

/-- In how many of the first `n` steps from `s` the condition `p` holds. -/
def countSteps (step : σ → σ) (p : σ → Bool) (s : σ) (n : ℕ) : ℕ :=
  (List.range n).countP fun m => p (step^[m] s)

@[simp]
theorem countSteps_zero (p : σ → Bool) (s : σ) : countSteps step p s 0 = 0 := rfl

theorem countSteps_succ (p : σ → Bool) (s : σ) (n : ℕ)
    : countSteps step p s (n + 1) = countSteps step p s n + (p (step^[n] s)).toNat := by
  rw [countSteps, countSteps, List.range_succ, List.countP_append, List.countP_singleton]
  cases p (step^[n] s) <;> rfl

theorem countSteps_add (p : σ → Bool) (s : σ) (m n : ℕ)
    : countSteps step p s (m + n)
      = countSteps step p s m + countSteps step p (step^[m] s) n := by
  induction n with
  | zero => rfl
  | succ n ih =>
      rw [← Nat.add_assoc, countSteps_succ, ih, countSteps_succ, Nat.add_assoc,
        ← Function.iterate_add_apply, Nat.add_comm n m]

/-- A run in which the condition holds at some step counts it. -/
theorem countSteps_pos {p : σ → Bool} {s : σ} {m n : ℕ} (earlier : m < n)
    (holds : p (step^[m] s) = true)
    : 0 < countSteps step p s n :=
  List.countP_pos_iff.mpr ⟨m, List.mem_range.mpr earlier, holds⟩

/-- A measure that falls in every step at which the condition does not hold bounds the steps until
it does. Witness: induction on the measure.
-/
theorem exists_le_of_measure {p : σ → Bool} (measure : σ → ℕ) (inv : σ → Prop)
    (preserved : ∀ s, inv s → inv (step s))
    (falls : ∀ s, inv s → p s = false → measure (step s) < measure s)
    (s : σ) (base : inv s)
    : ∃ m ≤ measure s, p (step^[m] s) = true := by
  induction bound : measure s using Nat.strong_induction_on generalizing s with
  | _ k ih =>
      cases now : p s with
      | true => exact ⟨0, Nat.zero_le k, now⟩
      | false =>
          have shorter := falls s base now
          obtain ⟨m, early, reached⟩ := ih _ (bound ▸ shorter) (step s) (preserved s base) rfl
          exact ⟨m + 1, by omega, reached⟩

/-- If the condition holds somewhere in each `width` steps, then a run of `n` steps counts it at
least once for each `width` of them.
-/
theorem div_le_countSteps {p : σ → Bool} {start : σ} {width : ℕ}
    (window : ∀ n, ∃ m, n ≤ m ∧ m < n + width ∧ p (step^[m] start) = true) (n : ℕ)
    : n / width ≤ countSteps step p start n := by
  have windows (k : ℕ) : k ≤ countSteps step p start (width * k) := by
    induction k with
    | zero => exact Nat.zero_le _
    | succ k ih =>
        obtain ⟨m, after, before, holds⟩ := window (width * k)
        have hit : 0 < countSteps step p (step^[width * k] start) width := by
          refine countSteps_pos (by omega : m - width * k < width) ?_
          rwa [← Function.iterate_add_apply, Nat.sub_add_cancel after]
        rw [Nat.mul_succ, countSteps_add]
        omega
  calc n / width ≤ countSteps step p start (width * (n / width)) := windows _
    _ ≤ countSteps step p start n := by
        obtain ⟨rest, split⟩ := Nat.exists_eq_add_of_le (Nat.mul_div_le n width)
        conv_rhs => rw [split, countSteps_add]
        exact Nat.le_add_right _ _

/-- A one-place (or any bounded) buffer between two streams. If every step either keeps the
content or moves it in order, then over a run the initial content followed by everything
that entered is everything that left followed by the final content: nothing is lost,
repeated or reordered. Witness: induction on the length of the run.
-/
theorem buffer_law (slot : σ → List α) (enters leaves : σ → Option α) (s : σ) (n : ℕ)
    (moves
      : ∀ m < n,
          slot (step^[m] s) ++ (enters (step^[m] s)).toList
          = (leaves (step^[m] s)).toList ++ slot (step^[m + 1] s))
    : slot s ++ events step enters s n = events step leaves s n ++ slot (step^[n] s) := by
  induction n with
  | zero => simp
  | succ n ih =>
      rw [events_succ, events_succ, ← List.append_assoc, ih fun m earlier => moves m (by omega),
        List.append_assoc, List.append_assoc, moves n (by omega)]

/-- A run together with an observer, which sees every state and never influences it. -/
def observed {γ : Type*} (step : σ → σ) (observe : σ → γ → γ) (p : σ × γ) : σ × γ :=
  (step p.1, observe p.1 p.2)

/-- The observed run is the run. -/
@[simp]
theorem observed_iterate_fst {γ : Type*} (observe : σ → γ → γ) (s : σ) (g : γ) (n : ℕ)
    : ((observed step observe)^[n] (s, g)).1 = step^[n] s := by
  induction n with
  | zero => rfl
  | succ n ih =>
      rw [Function.iterate_succ_apply', Function.iterate_succ_apply']
      exact congrArg step ih

/-- The last step of an observed run records the state it is taken in. -/
theorem observed_iterate_snd_succ {γ : Type*} (observe : σ → γ → γ) (s : σ) (g : γ) (n : ℕ)
    : ((observed step observe)^[n + 1] (s, g)).2
      = observe (step^[n] s) ((observed step observe)^[n] (s, g)).2 := by
  rw [Function.iterate_succ_apply', observed, observed_iterate_fst]

/-- An observer that counts events has counted those of the run. -/
theorem observed_count {α : Type*} (event : σ → Option α) (s : σ) (count n : ℕ)
    : (observed step fun t m => m + (event t).toList.length)^[n] (s, count)
      = (step^[n] s, count + (events step event s n).length) := by
  induction n with
  | zero => rfl
  | succ n ih =>
      rw [Function.iterate_succ_apply', ih, Function.iterate_succ_apply', events_succ,
        List.length_append, ← Nat.add_assoc]
      rfl

end Runs
