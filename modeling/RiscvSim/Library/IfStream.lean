import Mathlib.Data.BitVec
import Mathlib.Data.List.TakeWhile
import Mathlib.Tactic.Common

/-! Text streams that are read number by number: which characters a number takes, what it is
worth, and how an extraction moves the stream on.
-/

/-- A `std::ifstream`: the characters that are still unread, and two of its state bits. Nothing
sets the third one, `badbit`.
-/
structure IfStream where
  unread : List Char
  eofbit : Bool
  failbit : Bool
  deriving DecidableEq, Repr

namespace IfStream

-----------------------------------------------------------------------------------------
-- Characters
-----------------------------------------------------------------------------------------

/-- What `std::isspace` accepts in the default locale. -/
def isSpace (c : Char) : Bool := c.toNat == ' '.toNat || (9 ≤ c.toNat && c.toNat ≤ 13)

/-- The value of a hexadecimal digit. -/
def hexDigit? (c : Char) : Option ℕ :=
  if '0'.toNat ≤ c.toNat ∧ c.toNat ≤ '9'.toNat then some (c.toNat - '0'.toNat)
  else if 'a'.toNat ≤ c.toNat ∧ c.toNat ≤ 'f'.toNat then some (c.toNat - 'a'.toNat + 10)
  else if 'A'.toNat ≤ c.toNat ∧ c.toNat ≤ 'F'.toNat then some (c.toNat - 'A'.toNat + 10)
  else none

def isHexDigit (c : Char) : Bool := (hexDigit? c).isSome

/-- The number behind hexadecimal digits. -/
def hexValue (digits : List Char) : ℕ :=
  digits.foldl (fun value c => 16 * value + (hexDigit? c).getD 0) 0

/-- An optional sign. -/
def readSign : List Char → Bool × List Char
  | '-' :: text => (true, text)
  | '+' :: text => (false, text)
  | text => (false, text)

/-- An optional `0x`. -/
def readBase : List Char → List Char
  | '0' :: 'x' :: text => text
  | '0' :: 'X' :: text => text
  | text => text

-----------------------------------------------------------------------------------------
-- Numbers
-----------------------------------------------------------------------------------------

/-- `num_get::get` for an unsigned number of `w` bits after `std::hex`: the value stored, whether
it is a number that fits, and the characters left. A token without digits stores 0 and one that
does not fit the largest value.
-/
def readHex (w : ℕ) (text : List Char) : BitVec w × Bool × List Char :=
  let digits := (readBase (readSign text).2).takeWhile isHexDigit
  let unread := (readBase (readSign text).2).dropWhile isHexDigit
  let value := hexValue digits
  if digits.isEmpty then (0, false, unread)
  else if 2 ^ w ≤ value then (BitVec.allOnes w, false, unread)
  else if (readSign text).1 then (-BitVec.ofNat w value, true, unread)
  else (BitVec.ofNat w value, true, unread)

/-- `num_get::get` for an unsigned decimal number of `w` bits: the value, where the token is a
number that fits, and the characters left.
-/
def readDec (w : ℕ) (text : List Char) : Option (BitVec w) × List Char :=
  let digits := (readSign text).2.takeWhile Char.isDigit
  let unread := (readSign text).2.dropWhile Char.isDigit
  let value := Nat.ofDigitChars 10 digits 0
  if digits.isEmpty then (none, unread)
  else if 2 ^ w ≤ value then (none, unread)
  else if (readSign text).1 then (some (-BitVec.ofNat w value), unread)
  else (some (BitVec.ofNat w value), unread)

-----------------------------------------------------------------------------------------
-- Extractions
-----------------------------------------------------------------------------------------

/-- `open` on a file with this text, or on a missing file. -/
def opened : Option (List Char) → IfStream
  | some text => { unread := text, eofbit := false, failbit := false }
  | none => { unread := [], eofbit := false, failbit := true }

def good (stream : IfStream) : Bool := !stream.eofbit && !stream.failbit

/-- `stream >> std::hex >> variable`, with the value that the variable has after it. A stream
that is not good, or that ends before a token, leaves the variable alone.
-/
def extractHex {w : ℕ} (stream : IfStream) (initial : BitVec w) : BitVec w × IfStream :=
  if !stream.good then
    (initial, { stream with failbit := true })
  else
    match stream.unread.dropWhile isSpace with
    | [] => (initial, { unread := [], eofbit := true, failbit := true })
    | text =>
        let (value, ok, unread) := readHex w text
        (value, { unread := unread, eofbit := unread.isEmpty, failbit := !ok })

/-- `stream >> value`, with the value if the extraction succeeds. -/
def extractDec (w : ℕ) (stream : IfStream) : Option (BitVec w) × IfStream :=
  if !stream.good then
    (none, { stream with failbit := true })
  else
    match stream.unread.dropWhile isSpace with
    | [] => (none, { unread := [], eofbit := true, failbit := true })
    | text =>
        let (value, unread) := readDec w text
        (value, { unread := unread, eofbit := unread.isEmpty, failbit := value.isNone })

/-- `std::getline`, without the line read. -/
def getline (stream : IfStream) : IfStream :=
  if !stream.good then
    { stream with failbit := true }
  else
    match stream.unread.dropWhile (· != '\n') with
    | [] => { unread := [], eofbit := true, failbit := stream.unread.isEmpty }
    | _ :: unread => { stream with unread := unread }

variable {w : ℕ} {stream : IfStream} {initial : BitVec w}

-----------------------------------------------------------------------------------------
-- Characters that are read apart
-----------------------------------------------------------------------------------------

/-- Digits are no blanks, and neither signs nor the `x` of a base. -/
theorem isHexDigit_apart {c : Char} (digit : isHexDigit c = true)
    : isSpace c = false ∧ c ≠ '-' ∧ c ≠ '+' ∧ c ≠ 'x' ∧ c ≠ 'X' := by
  have range
      : (48 ≤ c.toNat ∧ c.toNat ≤ 57) ∨ (97 ≤ c.toNat ∧ c.toNat ≤ 102)
        ∨ (65 ≤ c.toNat ∧ c.toNat ≤ 70) := by
    unfold isHexDigit hexDigit? at digit
    split_ifs at digit with decimal lower upper
    · exact .inl decimal
    · exact .inr (.inl lower)
    · exact .inr (.inr upper)
    · cases digit
  refine ⟨?_, ?_, ?_, ?_, ?_⟩
  · simp only [isSpace, Bool.or_eq_false_iff, beq_eq_false_iff_ne, Bool.and_eq_false_imp,
      decide_eq_true_eq, decide_eq_false_iff_not]
    have space : ' '.toNat = 32 := rfl
    omega
  all_goals
    rintro rfl
    revert range
    decide

theorem readSign_unsigned {c : Char} {text : List Char} (minus : c ≠ '-') (plus : c ≠ '+')
    : readSign (c :: text) = (false, c :: text) := by
  unfold readSign
  split
  case h_1 same => exact absurd (List.cons.inj same).1 minus
  case h_2 same => exact absurd (List.cons.inj same).1 plus
  case h_3 => rfl

/-- A run of characters of a class is taken up to the first character of another. -/
theorem span_run {p : Char → Bool} {run rest : List Char} (all : ∀ c ∈ run, p c = true)
    (stops : ∀ c ∈ rest.head?, p c = false)
    : (run ++ rest).takeWhile p = run ∧ (run ++ rest).dropWhile p = rest := by
  rw [List.takeWhile_append_of_pos all, List.dropWhile_append_of_pos all]
  cases rest with
  | nil => simp
  | cons c rest => simp [stops c rfl]

-----------------------------------------------------------------------------------------
-- What an extraction takes
-----------------------------------------------------------------------------------------

theorem length_readSign_le (text : List Char) : (readSign text).2.length ≤ text.length := by
  unfold readSign
  split <;> simp

theorem length_readBase_le (text : List Char) : (readBase text).length ≤ text.length := by
  unfold readBase
  split <;> simp <;> omega

/-- A number that is read has a digit. -/
theorem length_readHex_lt {text : List Char} (ok : (readHex w text).2.1 = true)
    : (readHex w text).2.2.length < text.length := by
  have signed := length_readSign_le text
  have based := length_readBase_le (readSign text).2
  have whole : _ = readBase (readSign text).2 := List.takeWhile_append_dropWhile (p := isHexDigit)
  have lengths := congrArg List.length whole
  rw [List.length_append] at lengths
  unfold readHex at ok ⊢
  dsimp only at ok ⊢
  split_ifs at ok ⊢ with none
  all_goals
    have some := List.length_pos_iff.mpr (mt List.isEmpty_iff.mpr none)
    dsimp only
    omega

/-- A stream that has failed reads nothing and fails again. -/
theorem extractHex_failed (failed : stream.failbit = true) (initial : BitVec w)
    : stream.extractHex initial = (initial, { stream with failbit := true }) := by
  have bad : stream.good = false := by simp [good, failed]
  simp [extractHex, bad]

/-- A successful extraction has read a character. -/
theorem length_extractHex_lt
    (read : (stream.extractHex initial).2.failbit = false)
    : (stream.extractHex initial).2.unread.length < stream.unread.length := by
  have skipped := (List.dropWhile_suffix (l := stream.unread) isSpace).length_le
  unfold extractHex at read ⊢
  split at read
  · cases read
  · rename_i good
    rw [if_neg good]
    cases text : stream.unread.dropWhile isSpace with
    | nil => simp [text] at read
    | cons first rest =>
        simp only [text] at read ⊢
        have shorter := length_readHex_lt (show _ = true by simpa using read)
        rw [text] at skipped
        exact lt_of_lt_of_le shorter skipped

/-- At the end of the text, noticed or not, nothing is read and the stream fails. -/
theorem extractHex_end (initial : BitVec w) (blank : ∀ c ∈ stream.unread, isSpace c = true)
    : (stream.extractHex initial).1 = initial ∧ (stream.extractHex initial).2.failbit = true := by
  have skipped : stream.unread.dropWhile isSpace = [] := List.dropWhile_eq_nil_iff.mpr blank
  cases good : stream.good with
  | false => simp [extractHex, good]
  | true => simp [extractHex, good, skipped]

-----------------------------------------------------------------------------------------
-- Hexadecimal numbers
-----------------------------------------------------------------------------------------

/-- The second character of a number without a base is a digit or a blank. -/
theorem second_known {digits rest text : List Char} {a b : Char} (some' : digits ≠ [])
    (all : ∀ c ∈ digits, isHexDigit c = true) (separated : ∀ c ∈ rest.head?, isSpace c = true)
    (same : digits ++ rest = a :: b :: text)
    : isHexDigit b = true ∨ isSpace b = true := by
  match digits with
  | [] => exact absurd rfl some'
  | [d] =>
      obtain ⟨-, rfl⟩ := List.cons.inj same
      exact .inr (separated b rfl)
  | d :: e :: more =>
      obtain ⟨-, tail⟩ := List.cons.inj same
      obtain ⟨rfl, -⟩ := List.cons.inj tail
      exact .inl (all _ (by simp))

theorem readBase_digits {digits rest : List Char} (some' : digits ≠ [])
    (all : ∀ c ∈ digits, isHexDigit c = true) (separated : ∀ c ∈ rest.head?, isSpace c = true)
    : readBase (digits ++ rest) = digits ++ rest := by
  unfold readBase
  split
  case h_1 same => exact absurd (second_known some' all separated same) (by decide)
  case h_2 same => exact absurd (second_known some' all separated same) (by decide)
  case h_3 => rfl

theorem span_digits {digits rest : List Char} (all : ∀ c ∈ digits, isHexDigit c = true)
    (separated : ∀ c ∈ rest.head?, isSpace c = true)
    : (digits ++ rest).takeWhile isHexDigit = digits
      ∧ (digits ++ rest).dropWhile isHexDigit = rest := by
  apply span_run all
  intro c first
  by_contra digit
  have blank := (isHexDigit_apart (Bool.not_eq_false _ ▸ digit)).1
  rw [separated c first] at blank
  cases blank

/-- A number is read up to the blank behind its digits. -/
theorem readHex_digits {base digits rest : List Char}
    (known : base = [] ∨ base = ['0', 'x'] ∨ base = ['0', 'X']) (some' : digits ≠ [])
    (all : ∀ c ∈ digits, isHexDigit c = true) (separated : ∀ c ∈ rest.head?, isSpace c = true)
    (fits : hexValue digits < 2 ^ w)
    : readHex w (base ++ digits ++ rest) = (BitVec.ofNat w (hexValue digits), true, rest) := by
  obtain ⟨taken, dropped⟩ := span_digits all separated
  have unsigned : readSign (base ++ digits ++ rest) = (false, base ++ digits ++ rest) := by
    rcases known with rfl | rfl | rfl
    · obtain ⟨d, more, rfl⟩ := List.exists_cons_of_ne_nil some'
      have apart := isHexDigit_apart (all d (by simp))
      exact readSign_unsigned apart.2.1 apart.2.2.1
    · rfl
    · rfl
  have based : readBase (base ++ digits ++ rest) = digits ++ rest := by
    rcases known with rfl | rfl | rfl
    · exact readBase_digits some' all separated
    · rfl
    · rfl
  have nonempty : ¬ digits.isEmpty = true := by simpa using some'
  simp only [readHex, unsigned, based, taken, dropped, nonempty, Nat.not_le.mpr fits, if_false,
    Bool.false_eq_true]

-----------------------------------------------------------------------------------------
-- Decimal numbers
-----------------------------------------------------------------------------------------

theorem isHexDigit_of_isDigit {c : Char} (digit : c.isDigit = true) : isHexDigit c = true := by
  rw [isHexDigit, hexDigit?, if_pos (Char.isDigit_iff_toNat.mp digit)]
  rfl

theorem isDigit_toDigits (n : ℕ) : ∀ c ∈ Nat.toDigits 10 n, c.isDigit = true :=
  fun _ => Nat.isDigit_of_mem_toDigits (by decide) (by decide)

/-- The digits of a number start with one. -/
theorem toDigits_cons (n : ℕ)
    : ∃ first more, Nat.toDigits 10 n = first :: more ∧ isHexDigit first = true := by
  obtain ⟨first, more, digits⟩ :=
    List.exists_cons_of_ne_nil (Nat.toDigits_ne_nil (n := n) (b := 10))
  exact ⟨first, more, digits, isHexDigit_of_isDigit (isDigit_toDigits n first (by simp [digits]))⟩

/-- A number that is printed is read back, up to what follows it. -/
theorem readDec_digits (value : BitVec w) {rest : List Char}
    (apart : ∀ c ∈ rest.head?, c.isDigit = false)
    : readDec w (Nat.toDigits 10 value.toNat ++ rest) = (some value, rest) := by
  obtain ⟨first, more, digits, hex⟩ := toDigits_cons value.toNat
  obtain ⟨-, minus, plus, -⟩ := isHexDigit_apart hex
  have unsigned : readSign (Nat.toDigits 10 value.toNat ++ rest)
      = (false, Nat.toDigits 10 value.toNat ++ rest) := by
    rw [digits]
    exact readSign_unsigned minus plus
  obtain ⟨taken, dropped⟩ := span_run (isDigit_toDigits value.toNat) apart
  have nonempty : ¬ (Nat.toDigits 10 value.toNat).isEmpty = true := by simp [digits]
  have fits : ¬ 2 ^ w ≤ value.toNat := Nat.not_le.mpr value.isLt
  simp only [readDec, unsigned, taken, dropped, nonempty, Nat.ofDigitChars_ten_toDigits, fits,
    if_false, Bool.false_eq_true, BitVec.ofNat_toNat, BitVec.setWidth_eq]

/-- The number at the start of a good stream is extracted. -/
theorem extractDec_digits (value : BitVec w) {rest : List Char}
    (apart : ∀ c ∈ rest.head?, c.isDigit = false) (more : rest ≠ [])
    : (IfStream.mk (Nat.toDigits 10 value.toNat ++ rest) false false).extractDec w
      = (some value, ⟨rest, false, false⟩) := by
  obtain ⟨first, others, digits, hex⟩ := toDigits_cons value.toNat
  have read := readDec_digits value apart
  have blank : ¬ isSpace first = true := by simp [(isHexDigit_apart hex).1]
  rw [digits, List.cons_append] at read ⊢
  simp only [extractDec, good, List.dropWhile_cons_of_neg blank, read,
    List.isEmpty_eq_false_iff.mpr more]
  rfl

/-- The rest of a line is skipped. -/
theorem getline_line {comment rest : List Char} (single : '\n' ∉ comment)
    : (IfStream.mk (comment ++ '\n' :: rest) false false).getline = ⟨rest, false, false⟩ := by
  have ends : (comment ++ '\n' :: rest).dropWhile (· != '\n') = '\n' :: rest := by
    refine (span_run ?_ ?_).2
    · intro c member
      rw [bne_iff_ne]
      rintro rfl
      exact single member
    · rintro c ⟨⟩
      rfl
  simp only [getline, good, ends]
  rfl

end IfStream
