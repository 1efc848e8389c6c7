import Mathlib.Data.List.GetD
import RiscvSim.Correctness.InitialImage
import RiscvSim.Source.Drivers

/-! The memory that both programs start with: the bytes of the binary file, over those of the
initial image.
-/

namespace RiscvSim

open ByteMap (byte)
open IfStream

-----------------------------------------------------------------------------------------
-- The initial image
-----------------------------------------------------------------------------------------

namespace MemoryStore

variable {mem : MemoryStore}

/-- A memory that starts at 0 has no wrap-around for addresses of 32 bits. -/
theorem index_word (addr : BitVec 32) {i : ℕ} (inside : i < 4)
    : index (addr.setWidth 64 - 0) i = addr.toNat + i := by
  have wide := addr.isLt
  have zero : (0 : U64).toNat = 0 := rfl
  rw [index, BitVec.toNat_add, BitVec.toNat_sub, BitVec.toNat_setWidth, BitVec.toNat_ofNat, zero]
  omega

theorem hasWord_low_iff (low : mem.startAddr = 0) {addr : BitVec 32}
    : mem.HasWord addr ↔ addr.toNat + 4 ≤ mem.numEntries := by
  unfold HasWord
  rw [low]
  constructor
  · intro word
    have last := word 3 (by omega)
    rw [index_word addr (by omega)] at last
    omega
  · intro fits i inside
    rw [index_word addr inside]
    omega

/-- What the write of a pair leaves in a byte. -/
theorem memArr_word (low : mem.startAddr = 0) {addr val : BitVec 32} (word : mem.HasWord addr)
    (k : ℕ)
    : (mem.setMemValue (addr.setWidth 64) (val.setWidth 64) .wordSize).2.memArr k
      = if addr.toNat ≤ k ∧ k < addr.toNat + 4 then byte val (k - addr.toNat)
        else mem.memArr k := by
  have ok := (hasWord_iff (val.setWidth 64)).mp word
  split
  case isTrue covered =>
    have inside : k - addr.toNat < MemEntrySize.wordSize.bytes := by
      rw [MemEntrySize.bytes]
      omega
    have place : index (addr.setWidth 64 - mem.startAddr) (k - addr.toNat) = k := by
      rw [low, index_word addr inside]
      omega
    have written := memArr_setMemValue ok inside
    rwa [place, byte_setWidth] at written
  case isFalse apart =>
    apply setMemValue_elsewhere
    intro i inside same
    rw [low, index_word addr inside] at same
    rw [MemEntrySize.bytes] at inside
    omega

/-- The last round of `prepareMemory`. -/
theorem setMemValue_zero (low : mem.startAddr = 0) (word : mem.HasWord 0)
    : mem.setMemValue 0 0 .wordSize
      = (0, { mem with memArr := fun k => if k < 4 then 0 else mem.memArr k }) := by
  have bytes := @memArr_word mem low 0 0 word
  have ok := (hasWord_iff ((0 : BitVec 32).setWidth 64)).mp word
  obtain ⟨start, bound⟩ := @setMemValue_bounds mem 0 0 .wordSize
  have zero : (0 : BitVec 32).setWidth 64 = (0 : U64) := rfl
  rw [zero] at bytes ok
  refine Prod.ext ok ?_
  cases written : (mem.setMemValue 0 0 .wordSize).2 with
  | mk startAddr numEntries memArr =>
      rw [written] at start bound bytes
      subst start bound
      rw [MemoryStore.mk.injEq]
      refine ⟨rfl, rfl, funext fun k => (bytes k).trans ?_⟩
      simp [byte]

end MemoryStore

theorem memArr_image {entries : ℕ} {pairs : List (BitVec 32 × BitVec 32)}
    (inside : ∀ pair ∈ pairs, (MemoryStore.zeroed 0 entries).HasWord pair.1) (k : ℕ)
    : (writePairs (.zeroed 0 entries) pairs).memArr k = imageByte pairs k := by
  induction pairs using List.reverseRecOn with
  | nil => rfl
  | append_singleton pairs pair ih =>
      obtain ⟨addr, val⟩ := pair
      obtain ⟨start, bound⟩ := writePairs_bounds (.zeroed 0 entries) pairs
      have word : (writePairs (.zeroed 0 entries) pairs).HasWord addr := by
        rw [MemoryStore.hasWord_low_iff start, bound]
        exact (MemoryStore.hasWord_low_iff rfl).mp (inside (addr, val) (by simp))
      have before := ih fun pair member => inside pair (by simp [member])
      refine (writePairs_append _ pairs addr val ▸ MemoryStore.memArr_word start word k).trans ?_
      rw [before, imageByte.eq_1 (pairs ++ _), List.reverse_append, List.reverse_singleton,
        List.singleton_append]
      by_cases covered : addr.toNat ≤ k ∧ k < addr.toNat + 4
      · rw [if_pos covered, List.find?_cons_of_pos (by simpa using covered)]
      · rw [if_neg covered, List.find?_cons_of_neg (by simpa using covered)]
        rfl

/-- The loop refuses an image with a word outside the memory. -/
theorem prepareLoop_outside {text : List Char} {pairs : List (BitVec 32 × BitVec 32)}
    (image : IsImage text pairs) {stream : IfStream} (unread : stream.unread = text)
    (sound : stream.failbit = false) (ended : stream.eofbit = true → stream.unread = [])
    {mem : MemoryStore} (outside : ∃ pair ∈ pairs, ¬ mem.HasWord pair.1)
    : (prepareLoop stream mem).1 ≠ 0 := by
  induction image generalizing stream mem with
  | nil => simp at outside
  | @cons before address between value rest pairs addr val atStart first separator apart second
      separated image ih =>
      rw [prepareLoop_pair atStart first separator apart second separated unread sound ended]
      by_cases ok : (mem.setMemValue (addr.setWidth 64) (val.setWidth 64) .wordSize).1 = 0
      · rw [if_neg (not_not.mpr ok)]
        refine ih rfl rfl List.isEmpty_iff.mp ?_
        obtain ⟨pair, member, refused⟩ := outside
        rcases List.mem_cons.mp member with rfl | later
        · exact absurd ((MemoryStore.hasWord_iff (val.setWidth 64)).mpr ok) refused
        · refine ⟨pair, later, fun word => refused ?_⟩
          obtain ⟨start, entries⟩ := @MemoryStore.setMemValue_bounds mem (val.setWidth 64)
            (addr.setWidth 64) .wordSize
          unfold MemoryStore.HasWord at word ⊢
          rwa [start, entries] at word
      · rw [if_pos ok]
        exact (by decide : -einval ≠ 0)

-----------------------------------------------------------------------------------------
-- The binary file
-----------------------------------------------------------------------------------------

namespace MemoryStore

/-- Writing one byte of the file. Beyond the memory it is refused, which nobody notices. -/
theorem setMemValue_byte {mem : MemoryStore} (low : mem.startAddr = 0) {i : ℕ}
    (small : i < 2 ^ 64) (fileByte : BitVec 8)
    : (mem.setMemValue (BitVec.ofNat 64 i) (fileByte.signExtend 64) .byteSize).2
      = { mem with
          memArr := fun k => if k = i ∧ i < mem.numEntries then fileByte else mem.memArr k } := by
  have lowest : byte (fileByte.signExtend 64) 0 = fileByte := by
    apply BitVec.eq_of_getLsbD_eq
    intro j bound
    rw [ByteMap.getLsbD_byte, BitVec.getLsbD_signExtend]
    simp [bound, show j < 64 by omega]
  have place : (BitVec.ofNat 64 i - 0 + BitVec.ofNat 64 0).toNat = i := by
    simpa using small
  obtain ⟨_, entries, memArr⟩ := mem
  subst low
  rw [setMemValue_eq, MemEntrySize.bytes, setBytes, setAt?, storedByte, lowest, place]
  by_cases inside : i < entries
  · simp only [inside, if_true, setBytes, and_true]
  · simp only [inside, if_false, and_false]

/-- The bytes of the file, from byte `i` on, lie over what the memory has held. -/
theorem loadLoop_eq {mem : MemoryStore} (low : mem.startAddr = 0) {i : ℕ}
    {buf : List (BitVec 8)} (small : i + buf.length ≤ 2 ^ 64)
    : mem.loadLoop i buf
      = { mem with
          memArr := fun k =>
            if i ≤ k ∧ k < mem.numEntries then buf.getD (k - i) (mem.memArr k)
            else mem.memArr k } := by
  induction buf generalizing mem i with
  | nil => simp [loadLoop]
  | cons fileByte buf ih =>
      rw [List.length_cons] at small
      have next := @ih { mem with
        memArr := fun k => if k = i ∧ i < mem.numEntries then fileByte else mem.memArr k } low
        (i + 1) (by omega)
      rw [loadLoop, setMemValue_byte low (by omega), next]
      congr 1
      funext k
      rcases Nat.lt_trichotomy k i with below | rfl | above
      · simp [show ¬ i + 1 ≤ k by omega, show ¬ i ≤ k by omega, show k ≠ i by omega]
      · simp
      · have next : k - i = k - (i + 1) + 1 := by omega
        simp [show i + 1 ≤ k by omega, show i ≤ k by omega, show k ≠ i by omega, next]

end MemoryStore

-----------------------------------------------------------------------------------------
-- Both
-----------------------------------------------------------------------------------------

/-- The initial image is well formed, and lists these pairs. Without an image there are none. -/
def InputFiles.HasImage (files : InputFiles) (pairs : List (BitVec 32 × BitVec 32)) : Prop :=
  match files.text "init_mem_image" with
  | none => pairs = []
  | some text => IsImage text pairs

/-- What the initial image leaves. The last round of `prepareMemory` clears the word at 0. -/
def presetByte (pairs : List (BitVec 32 × BitVec 32)) (k : ℕ) : BitVec 8 :=
  if k < 4 then 0 else imageByte pairs k

/-- The memory as the initial image leaves it. -/
def presetMemory (numEntries : ℕ) (pairs : List (BitVec 32 × BitVec 32)) : MemoryStore where
  startAddr := 0
  numEntries := numEntries
  memArr := presetByte pairs

variable {files : InputFiles} {pairs : List (BitVec 32 × BitVec 32)}

theorem prepareMemory_inside (image : files.HasImage pairs) {entries : ℕ} (room : 4 ≤ entries)
    (inside : ∀ pair ∈ pairs, pair.1.toNat + 4 ≤ entries)
    : prepareMemory (files.text "init_mem_image") (.zeroed 0 entries)
      = (0, presetMemory entries pairs) := by
  unfold InputFiles.HasImage at image
  split at image
  case h_1 none =>
    subst image
    have clear : presetByte [] = fun _ => 0 := funext fun k => ite_self 0
    rw [none, prepareMemory, prepareLoop, presetMemory, clear]
    rfl
  case h_2 text found =>
    have words : ∀ pair ∈ pairs, (MemoryStore.zeroed 0 entries).HasWord pair.1 :=
      fun pair member => (MemoryStore.hasWord_low_iff rfl).mpr (inside pair member)
    obtain ⟨start, bound⟩ := writePairs_bounds (.zeroed 0 entries) pairs
    have first : (writePairs (.zeroed 0 entries) pairs).HasWord 0 := by
      rw [MemoryStore.hasWord_low_iff start, bound]
      exact room
    have runs := @prepareLoop_image _ _ image (.opened (some text)) rfl rfl
      (fun ended => absurd ended Bool.false_ne_true) _ words
    have bytes : (writePairs (.zeroed 0 entries) pairs).memArr = imageByte pairs :=
      funext (memArr_image words)
    rw [found, prepareMemory, runs, MemoryStore.setMemValue_zero start first, start, bound, bytes]
    rfl

theorem prepareMemory_outside (image : files.HasImage pairs) {entries : ℕ}
    (outside : ∃ pair ∈ pairs, ¬ pair.1.toNat + 4 ≤ entries)
    : (prepareMemory (files.text "init_mem_image") (.zeroed 0 entries)).1 ≠ 0 := by
  unfold InputFiles.HasImage at image
  split at image
  case h_1 none =>
    subst image
    simp at outside
  case h_2 text found =>
    obtain ⟨pair, member, refused⟩ := outside
    rw [found]
    exact @prepareLoop_outside _ _ image (.opened (some text)) rfl rfl
      (fun ended => absurd ended Bool.false_ne_true) _
      ⟨pair, member, mt (MemoryStore.hasWord_low_iff rfl).mp refused⟩

/-- The bytes of the file over those of the initial image, as far as the memory goes. -/
def startMemory (buf : List (BitVec 8)) (pairs : List (BitVec 32 × BitVec 32)) : MemoryStore where
  startAddr := 0
  numEntries := memorySize
  memArr k := if k < memorySize then buf.getD k (presetByte pairs k) else presetByte pairs k

theorem InputFiles.memory_inside (files : InputFiles) (inputFile : String)
    (image : files.HasImage pairs) (inside : ∀ pair ∈ pairs, pair.1.toNat + 4 ≤ memorySize)
    (bound : ((files.binary inputFile).getD []).length < 2 ^ 31)
    : files.memory inputFile = some (startMemory ((files.binary inputFile).getD []) pairs) := by
  have made : files.memory inputFile
      = if (prepareMemory (files.text "init_mem_image") (.zeroed 0 memorySize)).1 = 0 then
          some ((prepareMemory (files.text "init_mem_image")
            (.zeroed 0 memorySize)).2.loadFromFile (files.binary inputFile)).2
        else none := rfl
  rw [made, prepareMemory_inside image (by decide) inside, if_pos rfl]
  cases content : files.binary inputFile with
  | none => simp [MemoryStore.loadFromFile, presetMemory, startMemory]
  | some buf =>
      rw [content, Option.getD_some] at bound
      have loaded := @MemoryStore.loadLoop_eq (presetMemory memorySize pairs) rfl 0 buf (by omega)
      simp only [Nat.zero_le, true_and, Nat.sub_zero] at loaded
      rw [MemoryStore.loadFromFile, loaded]
      rfl

/-- Both programs start with the bytes of the binary file over those of the initial image, as far
as the memory goes, and abort exactly if a word of the image lies outside it.
Witness: the image is written word by word, and a byte of the file that is refused leaves the
memory as it was.
-/
theorem InputFiles.memory_eq (files : InputFiles) (inputFile : String)
    (pairs : List (BitVec 32 × BitVec 32)) (image : files.HasImage pairs)
    (bound : ((files.binary inputFile).getD []).length < 2 ^ 31)
    : files.memory inputFile
      = if pairs.all (·.1.toNat + 4 ≤ memorySize) then
          some (startMemory ((files.binary inputFile).getD []) pairs)
        else none := by
  split
  case isTrue inside =>
    exact files.memory_inside inputFile image (by simpa using inside) bound
  case isFalse outside =>
    rw [List.all_eq_true] at outside
    push Not at outside
    exact if_neg (prepareMemory_outside image (by simpa using outside))

/-- An image of the word `0xa1` at address 16, and a file of two bytes. -/
theorem InputFiles.memory_eq_pair
    : (InputFiles.memory
        { binary := fun _ => some [0x13, 0x05], text := fun _ => some "0x10 a1".toList }
        "a.bin").map (fun mem => (mem.memArr 1, mem.memArr 16))
      = some (0x05, 0xa1) := by
  have address : IsToken ['0', 'x', '1', '0'] 16 :=
    ⟨['0', 'x'], ['1', '0'], rfl, .inr (.inl rfl), by decide, List.all_eq_true.mp rfl, rfl⟩
  have value : IsToken ['a', '1'] 0xa1 :=
    ⟨[], ['a', '1'], rfl, .inl rfl, by decide, List.all_eq_true.mp rfl, rfl⟩
  have image : IsImage "0x10 a1".toList [(16, 0xa1)] :=
    @IsImage.cons [] ['0', 'x', '1', '0'] [' '] ['a', '1'] [] [] 16 0xa1 (List.all_eq_true.mp rfl)
      address (List.all_eq_true.mp rfl) (by decide) value (fun _ known => nomatch known)
      (.nil (List.all_eq_true.mp rfl))
  have eq := InputFiles.memory_eq
    { binary := fun _ => some [0x13, 0x05], text := fun _ => some "0x10 a1".toList } "a.bin"
    [(16, 0xa1)] image (by decide)
  rw [eq]
  rfl

-----------------------------------------------------------------------------------------
-- Files of words
-----------------------------------------------------------------------------------------

end RiscvSim
