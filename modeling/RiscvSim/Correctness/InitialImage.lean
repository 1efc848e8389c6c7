import RiscvSim.Source.MemoryImage
import RiscvSim.Correctness.MemoryAccess

/-! The initial memory image against the word writes that it lists. -/

namespace RiscvSim

open ByteMap (byte)
open IfStream

-----------------------------------------------------------------------------------------
-- Images
-----------------------------------------------------------------------------------------

/-- Blank text. -/
abbrev Blank (text : List Char) : Prop := ∀ c ∈ text, isSpace c = true

/-- A hexadecimal number of 32 bits: digits, perhaps after `0x`. -/
def IsToken (token : List Char) (value : BitVec 32) : Prop :=
  ∃ base digits,
    token = base ++ digits ∧ (base = [] ∨ base = ['0', 'x'] ∨ base = ['0', 'X'])
    ∧ digits ≠ [] ∧ (∀ c ∈ digits, isHexDigit c = true) ∧ hexValue digits = value.toNat

/-- A well-formed `init_mem_image`: pairs of an address and a value, all tokens separated by
blanks, with or without blanks at either end.
-/
inductive IsImage : List Char → List (BitVec 32 × BitVec 32) → Prop
  | nil {blank : List Char} (atEnd : Blank blank) : IsImage blank []
  | cons {before address between value rest : List Char} {pairs : List (BitVec 32 × BitVec 32)}
      {addr val : BitVec 32} (atStart : Blank before) (first : IsToken address addr)
      (separator : Blank between) (apart : between ≠ []) (second : IsToken value val)
      (separated : ∀ c ∈ rest.head?, isSpace c = true) (image : IsImage rest pairs)
      : IsImage (before ++ address ++ between ++ value ++ rest) ((addr, val) :: pairs)

-----------------------------------------------------------------------------------------
-- Reading tokens
-----------------------------------------------------------------------------------------

/-- The number is read up to the end of its token. -/
theorem readHex_token {token rest : List Char} {value : BitVec 32} (h : IsToken token value)
    (separated : ∀ c ∈ rest.head?, isSpace c = true)
    : readHex 32 (token ++ rest) = (value, true, rest) := by
  obtain ⟨base, digits, rfl, known, some', all, number⟩ := h
  have fits : hexValue digits < 2 ^ 32 := number ▸ value.isLt
  rw [readHex_digits known some' all separated fits, number, BitVec.ofNat_toNat,
    BitVec.setWidth_eq]

theorem IsToken.dropWhile {token : List Char} {value : BitVec 32} (h : IsToken token value)
    (rest : List Char) : (token ++ rest).dropWhile isSpace = token ++ rest ∧ token ≠ [] := by
  obtain ⟨base, digits, rfl, known, some', all, -⟩ := h
  obtain ⟨d, more, rfl⟩ := List.exists_cons_of_ne_nil some'
  have first := (isHexDigit_apart (all d (by simp))).1
  rcases known with rfl | rfl | rfl
  · simp [first]
  · simp [isSpace]
  · simp [isSpace]

/-- A token after blanks is read whole. The end of the file is noticed if it follows. -/
theorem extractHex_token {stream : IfStream} {before token rest : List Char}
    {value : BitVec 32} (initial : BitVec 32) (good : stream.good = true)
    (unread : stream.unread = before ++ token ++ rest) (blank : Blank before)
    (h : IsToken token value) (separated : ∀ c ∈ rest.head?, isSpace c = true)
    : stream.extractHex initial
      = (value, { unread := rest, eofbit := rest.isEmpty, failbit := false }) := by
  obtain ⟨kept, nonempty⟩ := h.dropWhile rest
  have skipped : stream.unread.dropWhile isSpace = token ++ rest := by
    rw [unread, List.append_assoc, List.dropWhile_append_of_pos blank, kept]
  have number := readHex_token h separated
  obtain ⟨c, more, rfl⟩ := List.exists_cons_of_ne_nil nonempty
  rw [List.cons_append] at skipped number
  simp only [extractHex, good, skipped, number, Bool.not_true, Bool.false_eq_true, if_false]

-----------------------------------------------------------------------------------------
-- The loop
-----------------------------------------------------------------------------------------

/-- The writes of the pairs, in their order. -/
def writePairs (mem : MemoryStore) (pairs : List (BitVec 32 × BitVec 32)) : MemoryStore :=
  pairs.foldl
    (fun mem pair => (mem.setMemValue (pair.1.setWidth 64) (pair.2.setWidth 64) .wordSize).2) mem

/-- The word at `address` lies in the memory. -/
def MemoryStore.HasWord (mem : MemoryStore) (address : BitVec 32) : Prop :=
  ∀ i < 4, index (address.setWidth 64 - mem.startAddr) i < mem.numEntries

instance (mem : MemoryStore) (address : BitVec 32) : Decidable (mem.HasWord address) :=
  inferInstanceAs (Decidable (∀ i < 4, _))

theorem MemoryStore.hasWord_iff {mem : MemoryStore} {address : BitVec 32} (value : U64)
    : mem.HasWord address
      ↔ (mem.setMemValue (address.setWidth 64) value .wordSize).1 = 0 := by
  rw [setMemValue_ok]
  exact ⟨fun h i _ => h i, fun range i => range i (Nat.zero_le i)⟩

theorem MemoryStore.hasWord_setMemValue {mem : MemoryStore} {address value : U64}
    {size : MemEntrySize} {word : BitVec 32} (h : mem.HasWord word)
    : (mem.setMemValue address value size).2.HasWord word := by
  obtain ⟨start, entries⟩ := @setMemValue_bounds mem value address size
  unfold HasWord
  rw [start, entries]
  exact h

/-- An access returns 0 or the one error code. -/
theorem MemoryStore.setMemValue_code (mem : MemoryStore) (address value : U64)
    (size : MemEntrySize)
    : (mem.setMemValue address value size).1 = 0
      ∨ (mem.setMemValue address value size).1 = -einval := by
  rw [setMemValue_eq]
  dsimp only
  split
  · exact .inl rfl
  · exact .inr rfl

/-- A round of the loop on the text of a pair. -/
theorem prepareLoop_pair {before address between value rest : List Char} {addr val : BitVec 32}
    (atStart : Blank before) (first : IsToken address addr) (separator : Blank between)
    (apart : between ≠ []) (second : IsToken value val)
    (separated : ∀ c ∈ rest.head?, isSpace c = true) {stream : IfStream}
    (unread : stream.unread = before ++ address ++ between ++ value ++ rest)
    (sound : stream.failbit = false) (ended : stream.eofbit = true → stream.unread = [])
    (mem : MemoryStore)
    : prepareLoop stream mem
      = if (mem.setMemValue (addr.setWidth 64) (val.setWidth 64) .wordSize).1 ≠ 0 then
          (-einval, (mem.setMemValue (addr.setWidth 64) (val.setWidth 64) .wordSize).2)
        else
          prepareLoop { unread := rest, eofbit := rest.isEmpty, failbit := false }
            (mem.setMemValue (addr.setWidth 64) (val.setWidth 64) .wordSize).2 := by
  have some' : stream.unread ≠ [] := by simp [unread, apart]
  have good : stream.good = true := by
    cases finished : stream.eofbit with
    | true => exact absurd (ended finished) some'
    | false => simp [IfStream.good, sound, finished]
  have blankNext : ∀ c ∈ (between ++ value ++ rest).head?, isSpace c = true := by
    obtain ⟨c, more, rfl⟩ := List.exists_cons_of_ne_nil apart
    intro d known
    obtain rfl : c = d := Option.some.inj known
    exact separator _ (by simp)
  have readAddr := extractHex_token 0 good
    (unread.trans (by simp only [List.append_assoc])) atStart first blankNext
  have more : (between ++ value ++ rest).isEmpty = false := by simp [apart]
  rw [more] at readAddr
  have readVal := @extractHex_token ⟨between ++ value ++ rest, false, false⟩ between
    value rest val 0 rfl rfl separator second separated
  rw [prepareLoop]
  simp only [sound, Bool.false_eq_true, if_false, readAddr, readVal]

/-- The loop performs the writes of the image, and then one more: after the last pair the
stream has not failed, and both extractions of the last round leave their variables at zero.
-/
theorem prepareLoop_image {text : List Char} {pairs : List (BitVec 32 × BitVec 32)}
    (image : IsImage text pairs) {stream : IfStream} (unread : stream.unread = text)
    (sound : stream.failbit = false) (ended : stream.eofbit = true → text = [])
    {mem : MemoryStore} (inside : ∀ pair ∈ pairs, mem.HasWord pair.1)
    : prepareLoop stream mem = (writePairs mem pairs).setMemValue 0 0 .wordSize := by
  induction image generalizing stream mem with
  | nil atEnd =>
      subst unread
      obtain ⟨addr, failed⟩ := extractHex_end (0 : BitVec 32) atEnd
      have curVal := extractHex_failed failed (0 : BitVec 32)
      have stops (last : IfStream) (mem : MemoryStore)
          : prepareLoop { last with failbit := true } mem = (0, mem) := by
        rw [prepareLoop]
        rfl
      have zero : (0 : BitVec 32).setWidth 64 = (0 : U64) := rfl
      rw [prepareLoop]
      simp only [sound, Bool.false_eq_true, if_false, addr, curVal, stops, zero]
      rcases mem.setMemValue_code 0 0 .wordSize with ok | refused
      · rw [if_neg (not_not.mpr ok)]
        exact Prod.ext ok.symm rfl
      · rw [if_pos (by rw [refused]; decide)]
        exact Prod.ext refused.symm rfl
  | @cons before address between value rest pairs addr val atStart first separator apart second
      separated image ih =>
      have next : ∀ pair ∈ pairs, (mem.setMemValue (addr.setWidth 64) (val.setWidth 64)
          .wordSize).2.HasWord pair.1 := fun pair member =>
        MemoryStore.hasWord_setMemValue (inside pair (List.mem_cons_of_mem _ member))
      have here : mem.HasWord addr := inside (addr, val) (by simp)
      have ok := (MemoryStore.hasWord_iff (val.setWidth 64)).mp here
      have later := @ih ⟨rest, rest.isEmpty, false⟩ rfl rfl List.isEmpty_iff.mp _ next
      rw [prepareLoop_pair atStart first separator apart second separated unread sound
        (unread ▸ ended), if_neg (not_not.mpr ok), later]
      rfl

-----------------------------------------------------------------------------------------
-- The last round
-----------------------------------------------------------------------------------------

/-- The byte that the last pair whose word covers address `k` gives it; zero if none does. -/
def imageByte (pairs : List (BitVec 32 × BitVec 32)) (k : ℕ) : BitVec 8 :=
  match pairs.reverse.find? (fun pair => pair.1.toNat ≤ k ∧ k < pair.1.toNat + 4) with
  | some (addr, val) => byte val (k - addr.toNat)
  | none => 0

/-- The memory of `numEntries` bytes that the constructor fills with zeros. -/
def MemoryStore.zeroed (startAddr : U64) (numEntries : ℕ) : MemoryStore :=
  { startAddr := startAddr, numEntries := numEntries, memArr := fun _ => 0 }

theorem writePairs_append (mem : MemoryStore) (pairs : List (BitVec 32 × BitVec 32))
    (addr val : BitVec 32)
    : writePairs mem (pairs ++ [(addr, val)])
      = ((writePairs mem pairs).setMemValue (addr.setWidth 64) (val.setWidth 64) .wordSize).2 :=
  List.foldl_append ..

theorem writePairs_bounds (mem : MemoryStore) (pairs : List (BitVec 32 × BitVec 32))
    : (writePairs mem pairs).startAddr = mem.startAddr
      ∧ (writePairs mem pairs).numEntries = mem.numEntries := by
  induction pairs using List.reverseRecOn with
  | nil => exact ⟨rfl, rfl⟩
  | append_singleton pairs pair ih =>
      obtain ⟨start, entries⟩ := @MemoryStore.setMemValue_bounds (writePairs mem pairs)
        (pair.2.setWidth 64) (pair.1.setWidth 64) .wordSize
      rw [writePairs_append]
      exact ⟨start.trans ih.1, entries.trans ih.2⟩

/-- Where the word of a pair covers a byte of the word at address 0. -/
theorem index_eq_iff {addr : BitVec 32} {start : U64} {i j : ℕ} (inside : i < 4) (within : j < 4)
    : MemoryStore.index (addr.setWidth 64 - start) j = MemoryStore.index (0 - start) i
      ↔ addr.toNat + j = i := by
  have wide := addr.isLt
  have low := start.isLt
  have zero : (0 : U64).toNat = 0 := rfl
  simp only [MemoryStore.index, BitVec.toNat_add, BitVec.toNat_sub, BitVec.toNat_setWidth,
    BitVec.toNat_ofNat, zero]
  omega

theorem byte_setWidth (val : BitVec 32) (i : ℕ) : byte (val.setWidth 64) i = byte val i := by
  apply BitVec.eq_of_getLsbD_eq
  intro j bound
  rw [ByteMap.getLsbD_byte, ByteMap.getLsbD_byte, BitVec.getLsbD_setWidth]
  by_cases inside : 8 * i + j < 64
  · simp [inside]
  · simp [inside, BitVec.getLsbD_of_ge val (8 * i + j) (by omega)]

/-- What the write of a pair leaves in a byte of the word at address 0. -/
theorem memArr_pair {mem : MemoryStore} {addr val : BitVec 32} (h : mem.HasWord addr) {i : ℕ}
    (inside : i < 4)
    : (mem.setMemValue (addr.setWidth 64) (val.setWidth 64) .wordSize).2.memArr
        (MemoryStore.index (0 - mem.startAddr) i)
      = if addr.toNat ≤ i ∧ i < addr.toNat + 4 then byte val (i - addr.toNat)
        else mem.memArr (MemoryStore.index (0 - mem.startAddr) i) := by
  by_cases covered : addr.toNat ≤ i ∧ i < addr.toNat + 4
  · have within : i - addr.toNat < MemEntrySize.wordSize.bytes := by
      rw [MemEntrySize.bytes]
      omega
    have place := (@index_eq_iff addr mem.startAddr i (i - addr.toNat) inside within).mpr (by omega)
    have written := (MemoryStore.hasWord_iff (val.setWidth 64)).mp h
    rw [if_pos covered, ← place, MemoryStore.memArr_setMemValue written within, byte_setWidth]
  · rw [if_neg covered]
    apply MemoryStore.setMemValue_elsewhere
    intro j within same
    rw [MemEntrySize.bytes] at within
    have place := (index_eq_iff inside within).mp same
    omega

/-- The writes of the image leave these bytes in the word at address 0. -/
theorem memArr_writePairs {start : U64} {entries : ℕ} {pairs : List (BitVec 32 × BitVec 32)}
    (inside : ∀ pair ∈ pairs, (MemoryStore.zeroed start entries).HasWord pair.1) {i : ℕ}
    (low : i < 4)
    : (writePairs (.zeroed start entries) pairs).memArr (MemoryStore.index (0 - start) i)
      = imageByte pairs i := by
  induction pairs using List.reverseRecOn with
  | nil => rfl
  | append_singleton pairs pair ih =>
      obtain ⟨addr, val⟩ := pair
      obtain ⟨first, last⟩ := writePairs_bounds (.zeroed start entries) pairs
      have here : (writePairs (.zeroed start entries) pairs).HasWord addr := by
        unfold MemoryStore.HasWord
        rw [first, last]
        exact inside (addr, val) (by simp)
      have before := ih fun pair member => inside pair (by simp [member])
      have written := @memArr_pair _ addr val here i low
      rw [first] at written
      rw [writePairs_append]
      refine written.trans ?_
      rw [imageByte, List.reverse_append, List.reverse_singleton, List.singleton_append]
      by_cases covered : addr.toNat ≤ i ∧ i < addr.toNat + 4
      · rw [if_pos covered, List.find?_cons_of_pos (by simpa using covered)]
      · rw [if_neg covered, List.find?_cons_of_neg (by simpa using covered)]
        exact before

/-- Writing zero at address 0 succeeds and changes nothing. -/
theorem MemoryStore.zeroWord_iff {mem : MemoryStore}
    : mem.setMemValue 0 0 .wordSize = (0, mem)
      ↔ mem.HasWord 0 ∧ ∀ i < 4, mem.memArr (index (0 - mem.startAddr) i) = 0 := by
  have zero (i : ℕ) : byte (0 : U64) i = 0 := by simp [byte]
  constructor
  · intro same
    have ok := congrArg Prod.fst same
    refine ⟨(hasWord_iff 0).mpr ok, ?_⟩
    intro i inside
    have written := memArr_setMemValue ok (i := i) inside
    rw [same, zero] at written
    exact written
  · rintro ⟨word, clear⟩
    have ok : (mem.setMemValue 0 0 .wordSize).1 = 0 := (@hasWord_iff mem 0 0).mp word
    obtain ⟨start, entries⟩ := @setMemValue_bounds mem 0 0 .wordSize
    have kept : (mem.setMemValue 0 0 .wordSize).2.memArr = mem.memArr := by
      funext k
      by_cases covered : ∃ i < 4, index (0 - mem.startAddr) i = k
      · obtain ⟨i, inside, rfl⟩ := covered
        exact (memArr_setMemValue ok inside).trans ((zero i).trans (clear i inside).symm)
      · apply setMemValue_elsewhere
        intro i inside same
        exact covered ⟨i, inside, same⟩
    refine Prod.ext ok ?_
    cases written : (mem.setMemValue 0 0 .wordSize).2 with
    | mk first count bytes =>
        rw [written] at start entries kept
        subst start entries kept
        rfl

/-- The image is applied exactly if the word at address 0 is in the memory and the writes
leave it zero. Witness: the loop writes a zero there after the last pair.
-/
theorem appliesImage_iff {text : List Char} {pairs : List (BitVec 32 × BitVec 32)}
    (startAddr : U64) (numEntries : ℕ) (image : IsImage text pairs)
    (inside : ∀ pair ∈ pairs, (MemoryStore.zeroed startAddr numEntries).HasWord pair.1)
    : prepareMemory (some text) (.zeroed startAddr numEntries)
        = (0, writePairs (.zeroed startAddr numEntries) pairs)
      ↔ (MemoryStore.zeroed startAddr numEntries).HasWord 0 ∧ ∀ i < 4, imageByte pairs i = 0 := by
  obtain ⟨start, entries⟩ := writePairs_bounds (.zeroed startAddr numEntries) pairs
  have runs := @prepareLoop_image _ _ image (.opened (some text)) rfl rfl
    (fun ended => nomatch ended) _ inside
  rw [prepareMemory, runs, MemoryStore.zeroWord_iff]
  have word : (writePairs (.zeroed startAddr numEntries) pairs).HasWord 0
      ↔ (MemoryStore.zeroed startAddr numEntries).HasWord 0 := by
    unfold MemoryStore.HasWord
    rw [start, entries]
  rw [word, start]
  refine and_congr_right fun _ => forall₂_congr fun i low => ?_
  rw [← memArr_writePairs inside low]
  rfl

/-- One pair beyond the first word, read to the end of the file. -/
theorem appliesImage_beyond
    : prepareMemory (some "8 0xff".toList) (.zeroed 0 16)
      = (0, writePairs (.zeroed 0 16) [(8, 0xff)]) := by
  have address : IsToken ['8'] 8 :=
    ⟨[], ['8'], rfl, .inl rfl, by decide, List.all_eq_true.mp rfl, rfl⟩
  have value : IsToken ['0', 'x', 'f', 'f'] 0xff :=
    ⟨['0', 'x'], ['f', 'f'], rfl, .inr (.inl rfl), by decide, List.all_eq_true.mp rfl, rfl⟩
  have image : IsImage "8 0xff".toList [(8, 0xff)] :=
    @IsImage.cons [] ['8'] [' '] ['0', 'x', 'f', 'f'] [] [] 8 0xff (List.all_eq_true.mp rfl)
      address (List.all_eq_true.mp rfl) (by decide) value (fun _ known => nomatch known)
      (.nil (List.all_eq_true.mp rfl))
  exact (appliesImage_iff 0 16 image (List.forall_mem_singleton.mpr (by decide))).mpr (by decide)

/-- The word written at address 0 is lost. -/
theorem wordAtZero_cleared
    : ¬ ∀ (text : List Char) (pairs : List (BitVec 32 × BitVec 32)) (startAddr : U64)
          (numEntries : ℕ),
          IsImage text pairs
          → (∀ pair ∈ pairs, (MemoryStore.zeroed startAddr numEntries).HasWord pair.1)
          → prepareMemory (some text) (.zeroed startAddr numEntries)
            = (0, writePairs (.zeroed startAddr numEntries) pairs) := by
  intro applied
  have address : IsToken ['0'] 0 :=
    ⟨[], ['0'], rfl, .inl rfl, by decide, List.all_eq_true.mp rfl, rfl⟩
  have value : IsToken ['5'] 5 :=
    ⟨[], ['5'], rfl, .inl rfl, by decide, List.all_eq_true.mp rfl, rfl⟩
  have separated : ∀ c ∈ [' '].head?, isSpace c = true := by
    rintro c ⟨⟩
    decide
  have image : IsImage "0 5 ".toList [(0, 5)] :=
    @IsImage.cons [] ['0'] [' '] ['5'] [' '] [] 0 5 (List.all_eq_true.mp rfl) address
      (List.all_eq_true.mp rfl) (by decide) value separated (.nil (List.all_eq_true.mp rfl))
  have inside : ∀ pair ∈ [((0 : BitVec 32), (5 : BitVec 32))],
      (MemoryStore.zeroed 0 16).HasWord pair.1 :=
    List.forall_mem_singleton.mpr (by decide)
  have runs := @prepareLoop_image _ _ image (.opened (some "0 5 ".toList)) rfl rfl
    (fun ended => nomatch ended) _ inside
  have lost := congrArg (·.2.memArr 0) ((applied _ _ 0 16 image inside).symm.trans runs)
  exact absurd lost (by decide)

end RiscvSim
