import Mathlib.Data.List.DropRight
import Mathlib.Data.List.TakeWhile
import Mathlib.Data.Nat.Digits.Defs
import Mathlib.Tactic.Common

/-! Texts with leading zeros, in any base: what they read as, how long they are, and where they
end in a text.
-/

namespace Texts

-----------------------------------------------------------------------------------------
-- Numerals
-----------------------------------------------------------------------------------------

/-- The digits of `n`, filled up with zeros to `width` of them. -/
def padded (b width n : ℕ) : List Char :=
  List.replicate (width - (Nat.toDigits b n).length) '0' ++ Nat.toDigits b n

/-- A base with a reader of its digits: which characters they are, and what each is worth. -/
structure Base where
  base : ℕ
  digit : Char → Bool
  value : Char → ℕ
  one_lt : 1 < base
  digits : ∀ d < base, digit d.digitChar = true
  reads : ∀ d < base, value d.digitChar = d

namespace Base

variable (b : Base)

/-- The number behind digits. -/
def number (digits : List Char) : ℕ := digits.foldl (fun n c => b.base * n + b.value c) 0

theorem number_concat (digits : List Char) (c : Char)
    : b.number (digits ++ [c]) = b.base * b.number digits + b.value c := by
  simp [number]

/-- Each number reads back from its digits. Witness: induction on the number. -/
theorem number_toDigits (n : ℕ) : b.number (Nat.toDigits b.base n) = n := by
  induction n using Nat.strong_induction_on with
  | _ n ih =>
      have base := b.one_lt
      rw [Nat.toDigits_eq_if base]
      split
      case isTrue small => simp [number, b.reads n small]
      case isFalse large =>
        have smaller : n / b.base < n := Nat.div_lt_self (by omega) base
        rw [number_concat, ih _ smaller, b.reads _ (Nat.mod_lt n (by omega)), Nat.div_add_mod]

/-- Leading zeros add nothing. -/
theorem number_padded (width n : ℕ) : b.number (padded b.base width n) = n := by
  have zero : b.value '0' = 0 := b.reads 0 (Nat.zero_lt_of_lt b.one_lt)
  have zeros (k : ℕ)
      : (List.replicate k '0').foldl (fun n c => b.base * n + b.value c) 0 = 0 := by
    induction k with
    | zero => rfl
    | succ k ih => simpa [List.replicate_succ, zero] using ih
  rw [number, padded, List.foldl_append, zeros]
  exact b.number_toDigits n

/-- A numeral determines its number. -/
theorem padded_inj {width m n : ℕ} : padded b.base width m = padded b.base width n ↔ m = n := by
  constructor
  · intro same
    rw [← b.number_padded width m, same, b.number_padded]
  · rintro rfl
    rfl

/-- A number that fits fills the field. -/
theorem length_padded {width n : ℕ} (positive : 0 < width) (fits : n < b.base ^ width)
    : (padded b.base width n).length = width := by
  have short := (Nat.length_toDigits_le_iff b.one_lt positive).mpr fits
  rw [padded, List.length_append, List.length_replicate]
  omega

theorem digit_padded (width n : ℕ) : ∀ c ∈ padded b.base width n, b.digit c = true := by
  have base := b.one_lt
  have digits (k : ℕ) : ∀ c ∈ Nat.toDigits b.base k, b.digit c = true := by
    induction k using Nat.strong_induction_on with
    | _ k ih =>
        intro c member
        rw [Nat.toDigits_eq_if base] at member
        split at member
        case isTrue small =>
          rw [List.mem_singleton.mp member]
          exact b.digits k small
        case isFalse large =>
          rcases List.mem_append.mp member with before | last
          · exact ih (k / b.base) (Nat.div_lt_self (by omega) base) c before
          · rw [List.mem_singleton.mp last]
            exact b.digits _ (Nat.mod_lt k (by omega))
  intro c member
  rcases List.mem_append.mp member with zero | own
  · rw [List.eq_of_mem_replicate zero]
    exact b.digits 0 (by omega)
  · exact digits n c own

end Base

-----------------------------------------------------------------------------------------
-- Texts in front of other texts
-----------------------------------------------------------------------------------------

/-- Whatever follows the two texts, they and what follows are the same exactly if `agree` holds:
each shows where it ends.
-/
def Separates (first second : List Char) (agree : Prop) : Prop :=
  ∀ rest more, first ++ rest = second ++ more ↔ agree ∧ rest = more

variable {first second first' second' : List Char} {P Q : Prop}

theorem separates_refl (text : List Char) : Separates text text True := fun _ _ => by simp

/-- The second parts are compared only where the first parts agree. -/
theorem Separates.append_of (front : Separates first second P)
    (back : P → Separates first' second' Q)
    : Separates (first ++ first') (second ++ second') (P ∧ Q) := fun rest more => by
  rw [List.append_assoc, List.append_assoc, front, and_assoc]
  exact and_congr_right fun agree => back agree rest more

theorem Separates.append (front : Separates first second P) (back : Separates first' second' Q)
    : Separates (first ++ first') (second ++ second') (P ∧ Q) :=
  front.append_of fun _ => back

theorem Separates.symm (h : Separates first second P) : Separates second first P :=
  fun rest more => by rw [eq_comm, h, eq_comm (a := more)]

theorem Separates.congr (h : Separates first second P) (same : P ↔ Q)
    : Separates first second Q := fun rest more => by
  rw [h, same]

theorem Separates.eq_iff (h : Separates first second P) : first = second ↔ P := by
  simpa using h [] []

/-- Texts of one length. -/
theorem separates_of_length (same : first.length = second.length)
    : Separates first second (first = second) := fun _ _ =>
  ⟨fun whole => List.append_inj whole same, fun parts => by rw [parts.1, parts.2]⟩

/-- Runs of characters of a class, before a character of another. -/
theorem separates_stop {p : Char → Bool} {c : Char} (all : ∀ c ∈ first, p c = true)
    (all' : ∀ c ∈ second, p c = true) (stop : p c = false)
    : Separates (first ++ [c]) (second ++ [c]) (first = second) := fun rest more => by
  constructor
  · intro whole
    rw [List.append_assoc, List.append_assoc, List.singleton_append, List.singleton_append]
      at whole
    have front := congrArg (List.takeWhile p) whole
    have back := congrArg (List.dropWhile p) whole
    rw [List.takeWhile_append_of_pos all, List.takeWhile_append_of_pos all'] at front
    rw [List.dropWhile_append_of_pos all, List.dropWhile_append_of_pos all'] at back
    exact ⟨by simpa [stop] using front, by simpa [stop] using back⟩
  · rintro ⟨rfl, rfl⟩
    rfl

/-- Parts one behind the other. Witness: induction on the list. -/
theorem separates_flatMap {α : Type*} {f g : α → List Char} {agree : α → Prop} {parts : List α}
    (each : ∀ a ∈ parts, Separates (f a) (g a) (agree a))
    : Separates (parts.flatMap f) (parts.flatMap g) (∀ a ∈ parts, agree a) := by
  induction parts with
  | nil => exact (separates_refl []).congr (by simp)
  | cons a parts ih =>
      have front := each a (by simp)
      have back := ih fun b member => each b (by simp [member])
      exact (front.append back).congr (by simp)

/-- Numerals that fill a field. -/
theorem Base.separates_field (b : Base) {width m n : ℕ} (positive : 0 < width)
    (fits : m < b.base ^ width) (fits' : n < b.base ^ width)
    : Separates (padded b.base width m) (padded b.base width n) (m = n) := by
  have same : (padded b.base width m).length = (padded b.base width n).length := by
    rw [b.length_padded positive fits, b.length_padded positive fits']
  exact (separates_of_length same).congr b.padded_inj

/-- Numerals before a character that is no digit. -/
theorem Base.separates_numeral (b : Base) {c : Char} (stop : b.digit c = false) (width m n : ℕ)
    : Separates (padded b.base width m ++ [c]) (padded b.base width n ++ [c]) (m = n) :=
  (separates_stop (b.digit_padded width m) (b.digit_padded width n) stop).congr b.padded_inj

/-- Texts that differ somewhere are different, even one behind the other. Witness: induction on
the first list.
-/
theorem flatMap_inj {α : Type*} {f : α → List Char} (nonempty : ∀ a, f a ≠ []) {as bs : List α}
    (each : ∀ a ∈ as, ∀ b ∈ bs, Separates (f a) (f b) (a = b))
    : as.flatMap f = bs.flatMap f ↔ as = bs := by
  induction as generalizing bs with
  | nil =>
      cases bs with
      | nil => simp
      | cons b bs => simp [nonempty]
  | cons a as ih =>
      cases bs with
      | nil => simp [nonempty]
      | cons b bs =>
          rw [List.flatMap_cons, List.flatMap_cons, each a (by simp) b (by simp),
            ih fun a member b member' => each a (by simp [member]) b (by simp [member']),
            List.cons.injEq]

/-- A text is read back from what fills it up, if it does not end with the filler itself. -/
theorem append_replicate_inj {c : Char} {m n : ℕ} (ends : first.getLast? ≠ some c)
    (ends' : second.getLast? ≠ some c)
    (same : first ++ List.replicate m c = second ++ List.replicate n c)
    : first = second := by
  have trimmed {text : List Char} (ends : text.getLast? ≠ some c) (k : ℕ)
      : (text ++ List.replicate k c).rdropWhile (· == c) = text := by
    induction k with
    | zero =>
        rw [List.replicate_zero, List.append_nil, List.rdropWhile_eq_self_iff]
        intro nonempty last
        rw [List.getLast?_eq_some_getLast nonempty] at ends
        exact ends (congrArg some (beq_iff_eq.mp last))
    | succ k ih =>
        rw [List.replicate_succ', ← List.append_assoc, List.rdropWhile_concat_pos _ _ _ (by simp)]
        exact ih
  rw [← trimmed ends m, same, trimmed ends' n]

-----------------------------------------------------------------------------------------
-- Integers
-----------------------------------------------------------------------------------------

/-- Base 10. -/
def decimal : Base where
  base := 10
  digit := Char.isDigit
  value c := c.toNat - '0'.toNat
  one_lt := by decide
  digits := by decide
  reads := by decide

theorem toList_nat (n : ℕ) : (toString n).toList = padded 10 0 n := by
  simp [padded]

theorem toList_negSucc (n : ℕ)
    : (toString (Int.negSucc n)).toList = '-' :: padded 10 0 (n + 1) := by
  rw [← toList_nat]
  exact String.toList_append

theorem chars_int (z : ℤ) : ∀ c ∈ (toString z).toList, (c.isDigit || c == '-') = true := by
  have digits (n : ℕ) : ∀ c ∈ padded 10 0 n, (c.isDigit || c == '-') = true :=
    fun c member => by
      have digit : c.isDigit = true := decimal.digit_padded 0 n c member
      rw [digit, Bool.true_or]
  cases z with
  | ofNat n =>
      intro c member
      exact digits n c (toList_nat n ▸ member)
  | negSucc n =>
      rw [toList_negSucc]
      exact List.forall_mem_cons.mpr ⟨rfl, digits (n + 1)⟩

theorem toList_int_ne (z : ℤ) : (toString z).toList ≠ [] := by
  cases z with
  | ofNat n =>
      show (toString n).toList ≠ []
      rw [toList_nat]
      exact List.append_ne_nil_of_right_ne_nil _ Nat.toDigits_ne_nil
  | negSucc n =>
      rw [toList_negSucc]
      exact List.cons_ne_nil _ _

/-- A number is read back with its sign. -/
theorem toList_int_inj {y z : ℤ} : (toString y).toList = (toString z).toList ↔ y = z := by
  have unsigned (m n : ℕ) : padded 10 0 m ≠ '-' :: padded 10 0 n := by
    intro same
    have member : '-' ∈ padded decimal.base 0 m := same ▸ List.mem_cons_self
    exact absurd (decimal.digit_padded 0 m '-' member) (by decide)
  constructor
  · intro same
    cases y with
    | ofNat m =>
        cases z with
        | ofNat n =>
            exact congrArg Int.ofNat
              (decimal.padded_inj.mp ((toList_nat m).symm.trans (same.trans (toList_nat n))))
        | negSucc n =>
            exact absurd ((toList_nat m).symm.trans (same.trans (toList_negSucc n))) (unsigned m _)
    | negSucc m =>
        rw [toList_negSucc] at same
        cases z with
        | ofNat n => exact absurd ((toList_nat n).symm.trans same.symm) (unsigned n _)
        | negSucc n =>
            rw [toList_negSucc, List.cons.injEq] at same
            have number : m + 1 = n + 1 := decimal.padded_inj.mp same.2
            rw [Nat.succ.inj number]
  · rintro rfl
    rfl

/-- Integers before a character that is not part of one. -/
theorem separates_int {c : Char} (stop : (c.isDigit || c == '-') = false) (y z : ℤ)
    : Separates ((toString y).toList ++ [c]) ((toString z).toList ++ [c]) (y = z) :=
  (separates_stop (p := fun c => c.isDigit || c == '-') (chars_int y) (chars_int z) stop).congr
    toList_int_inj

end Texts
