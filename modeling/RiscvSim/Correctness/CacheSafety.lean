import RiscvSim.Correctness.CacheReplacement
import RiscvSim.Source.CacheArgs
import RiscvSim.Source.CacheChecks

/-! Which of the configurations that `parseArgs` accepts give a cache that is safe to build and
to access.
-/

namespace RiscvSim

open IfStream

-----------------------------------------------------------------------------------------
-- What the file may hold
-----------------------------------------------------------------------------------------

/-- A line of the configuration file: a number, and a comment that does not continue it. -/
structure ConfigLine where
  value : BitVec 32
  comment : List Char
  apart : ∀ c ∈ comment.head?, c.isDigit = false
  single : '\n' ∉ comment

def ConfigLine.text (line : ConfigLine) : List Char :=
  Nat.toDigits 10 line.value.toNat ++ line.comment ++ ['\n']

/-- A line is read as its number. -/
theorem parseNextLine_text (name : String) (n : ℕ) (line : ConfigLine) (rest : List Char)
    : parseNextLine name { file := ⟨line.text ++ rest, false, false⟩, line := n }
      = .ok (line.value, { file := ⟨rest, false, false⟩, line := n + 1 }) := by
  have text : line.text ++ rest
      = Nat.toDigits 10 line.value.toNat ++ (line.comment ++ '\n' :: rest) := by
    simp [ConfigLine.text]
  have apart : ∀ c ∈ (line.comment ++ '\n' :: rest).head?, c.isDigit = false := by
    cases comment : line.comment with
    | nil =>
        rintro c ⟨⟩
        rfl
    | cons first more =>
        rintro c ⟨⟩
        exact line.apart first (by simp [comment])
  simp only [parseNextLine, text, extractDec_digits line.value apart (by simp),
    getline_line line.single]

/-- Four lines give a configuration. -/
theorem parseConfig_text (cache : String) (n : ℕ) (a b c d : ConfigLine) (rest : List Char)
    : parseConfig cache
        { file := ⟨a.text ++ (b.text ++ (c.text ++ (d.text ++ rest))), false, false⟩, line := n }
      = .ok (.ofWords a.value b.value c.value d.value,
        { file := ⟨rest, false, false⟩, line := n + 4 }) := by
  simp only [parseConfig, bind, StateT.bind, Except.bind, parseNextLine_text]
  rfl

/-- A file of eight lines is accepted, with the numbers it holds. -/
theorem parseArgs_text (program inputFile cacheFile : String) (files : String → Option (List Char))
    (a b c d e f g h : ConfigLine)
    (text
      : files cacheFile
        = some (a.text ++ (b.text ++ (c.text ++ (d.text
            ++ (e.text ++ (f.text ++ (g.text ++ (h.text ++ [])))))))))
    : parseArgs [program, inputFile, cacheFile] files
      = .ok (inputFile, .ofWords a.value b.value c.value d.value,
        .ofWords e.value f.value g.value h.value) := by
  simp only [parseArgs, text, IfStream.opened, parseConfigs, bind, StateT.bind, Except.bind,
    parseConfig_text]
  rfl

/-- `parseArgs` returns the configuration, for one cache or the other. -/
def CacheConfig.Accepted (config : CacheConfig) : Prop :=
  ∃ argv files inputFile icConfig dcConfig,
    parseArgs argv files = .ok (inputFile, icConfig, dcConfig)
    ∧ (config = icConfig ∨ config = dcConfig)

/-- The result of the second of two steps. -/
theorem bind_ok {σ α β ε : Type} {first : StateT σ (Except ε) α}
    {second : α → StateT σ (Except ε) β} {start stop : σ} {result : β}
    (ok : (first >>= second) start = .ok (result, stop))
    : ∃ value middle,
        first start = .ok (value, middle) ∧ second value middle = .ok (result, stop) := by
  simp only [bind, StateT.bind, Except.bind] at ok
  split at ok
  case h_1 => cases ok
  case h_2 step same => exact ⟨step.1, step.2, same, ok⟩

/-- A configuration that is parsed has fields of 32 bits. -/
theorem parseConfig_ok {cache : String} {start stop : ConfigReader} {config : CacheConfig}
    (parsed : parseConfig cache start = .ok (config, stop))
    : ∃ cacheSize blockSize ways missLatency,
        config = .ofWords cacheSize blockSize ways missLatency := by
  obtain ⟨cacheSize, _, -, parsed⟩ := bind_ok parsed
  obtain ⟨blockSize, _, -, parsed⟩ := bind_ok parsed
  obtain ⟨ways, _, -, parsed⟩ := bind_ok parsed
  obtain ⟨missLatency, _, -, parsed⟩ := bind_ok parsed
  cases parsed
  exact ⟨cacheSize, blockSize, ways, missLatency, rfl⟩

/-- The configurations accepted are those of 32-bit numbers, all of them. -/
theorem CacheConfig.accepted_iff {config : CacheConfig}
    : config.Accepted
      ↔ ∃ cacheSize blockSize ways missLatency,
          config = .ofWords cacheSize blockSize ways missLatency := by
  constructor
  · rintro ⟨argv, files, inputFile, icConfig, dcConfig, accepted, which⟩
    unfold parseArgs at accepted
    split at accepted
    case h_2 => cases accepted
    case h_1 =>
      split at accepted
      case h_1 => cases accepted
      case h_2 text _ =>
        split at accepted
        case h_2 => cases accepted
        case h_1 parsed =>
          cases accepted
          obtain ⟨first, _, ofIC, parsed⟩ := bind_ok parsed
          obtain ⟨second, _, ofDC, parsed⟩ := bind_ok parsed
          cases parsed
          rcases which with rfl | rfl
          · exact parseConfig_ok ofIC
          · exact parseConfig_ok ofDC
  · rintro ⟨cacheSize, blockSize, ways, missLatency, rfl⟩
    let line (value : BitVec 32) : ConfigLine := ⟨value, [], by simp, by simp⟩
    exact ⟨["sim_cycle", "program.bin", "cache.txt"], _, _, _, _,
      parseArgs_text _ _ _ (fun _ => some _) (line cacheSize) (line blockSize) (line ways)
        (line missLatency) (line 0) (line 0) (line 0) (line 0) rfl, Or.inl rfl⟩

-----------------------------------------------------------------------------------------
-- The constructor
-----------------------------------------------------------------------------------------

/-- A block and a set have a size, and a set fits into the cache. -/
def CacheConfig.FitsSet (config : CacheConfig) : Prop :=
  0 < config.blockSize.toNat ∧ 0 < config.ways.toNat
  ∧ config.blockSize.toNat * config.ways.toNat ≤ config.cacheSize.toNat

instance (config : CacheConfig) : Decidable config.FitsSet := by
  unfold CacheConfig.FitsSet
  infer_instance

/-- The cache can be built, and then accessed in any way: every value that the source
computes is defined.
-/
def CacheConfig.SafeToUse (config : CacheConfig) : Prop :=
  ∃ cache,
    Cache.new? config = some cache
    ∧ ∀ history : List (U64 × CacheOperation), (cache.accesses? history).isSome = true

namespace Cache

variable {config : CacheConfig} {cache : Cache}

theorem ne_zero_iff (word : U64) : word ≠ 0 ↔ 0 < word.toNat := by
  rw [Nat.pos_iff_ne_zero, ne_eq, ne_eq, ← BitVec.toNat_inj]
  rfl

/-- The constructor divides by zero or takes the logarithm of zero unless a set fits. -/
theorem new?_eq (config : CacheConfig)
    : new? config = if config.FitsSet then some (new config) else none := by
  have sets : config.cacheSize / config.blockSize / config.ways ≠ 0 ↔ config.FitsSet :=
    (ne_zero_iff _).trans CacheConfig.numSets_pos_iff
  by_cases fits : config.FitsSet
  · have blockSize := (ne_zero_iff _).mpr fits.1
    have ways := (ne_zero_iff _).mpr fits.2.1
    have someSet := sets.mpr fits
    rw [if_pos fits]
    simp only [new?, divide?, log2?, if_neg blockSize, if_neg ways, if_neg someSet, bind,
      Option.bind_some]
    rfl
  · have noSet := not_not.mp (mt sets.mp fits)
    rw [if_neg fits]
    simp only [new?, divide?, log2?, bind]
    by_cases blockSize : config.blockSize = 0
    · rw [if_pos blockSize]
      rfl
    · by_cases ways : config.ways = 0
      · rw [if_neg blockSize, Option.bind_some, if_pos ways]
        rfl
      · rw [if_neg blockSize, Option.bind_some, if_neg ways, Option.bind_some, if_pos noSet]
        rfl

-----------------------------------------------------------------------------------------
-- Accesses
-----------------------------------------------------------------------------------------

/-- What an access to `address` relies on: shift amounts below the width of the address, a set
at the index, and a way in that set.
-/
structure AccessSafe (cache : Cache) (address : U64) : Prop where
  indexBits : cache.indexBits.toNat < 64
  offsetBits : cache.offsetBits.toNat < 64
  tagBits : (cache.offsetBits + cache.indexBits).toNat < 64
  index : (cache.index address).toNat < cache.sets.length
  ways : 0 < (cache.curSet address).length

theorem victimWay?_eq {set : List Line} (ways : 0 < set.length)
    : victimWay? set = some (victimWay set) := by
  cases found : set.findIdx? (fun line => !line.valid) with
  | some way => simp only [victimWay?, victimWay, found]
  | none =>
      cases set with
      | nil => exact absurd ways (by decide)
      | cons first rest => simp only [victimWay?, victimWay, found]

theorem AccessSafe.access?_eq {address : U64} (safe : cache.AccessSafe address)
    (operation : CacheOperation)
    : cache.access? address operation = some (cache.access address operation) := by
  have bit : shiftLeft? (1 : U64) cache.indexBits.toNat = some (1#64 <<< cache.indexBits) :=
    if_pos safe.indexBits
  have shifted : shiftRight? address cache.offsetBits.toNat = some (address >>> cache.offsetBits) :=
    if_pos safe.offsetBits
  have tag : shiftRight? address (cache.offsetBits + cache.indexBits).toNat
      = some (cache.tag address) :=
    if_pos safe.tagBits
  have current : cache.sets[(cache.index address).toNat]? = some (cache.curSet address) := by
    rw [curSet, List.getD_eq_getElem _ _ safe.index, List.getElem?_eq_getElem safe.index]
  rw [Cache.index] at current
  simp only [access?, Cache.access, bind, bit, shifted, tag, Option.bind_some]
  rw [current, Option.bind_some]
  split
  · rename_i way found
    simp only [found]
    rfl
  · rename_i found
    rw [victimWay?_eq safe.ways, Option.bind_some, found]
    rfl

/-- An access is defined exactly if it is safe. -/
theorem access?_isSome_iff (address : U64) (operation : CacheOperation)
    : (cache.access? address operation).isSome = true ↔ cache.AccessSafe address := by
  constructor
  · intro defined
    obtain ⟨result, same⟩ := Option.isSome_iff_exists.mp defined
    obtain ⟨bit, indexShift, same⟩ := Option.bind_eq_some_iff.mp same
    obtain ⟨shifted, offsetShift, same⟩ := Option.bind_eq_some_iff.mp same
    obtain ⟨tag, tagShift, same⟩ := Option.bind_eq_some_iff.mp same
    obtain ⟨curSet, current, same⟩ := Option.bind_eq_some_iff.mp same
    obtain ⟨indexBits, ⟨⟩⟩ := Option.ite_none_right_eq_some.mp indexShift
    obtain ⟨offsetBits, ⟨⟩⟩ := Option.ite_none_right_eq_some.mp offsetShift
    obtain ⟨tagBits, ⟨⟩⟩ := Option.ite_none_right_eq_some.mp tagShift
    obtain ⟨index, here⟩ := List.getElem?_eq_some_iff.mp current
    refine ⟨indexBits, offsetBits, tagBits, index, ?_⟩
    have set : cache.curSet address = curSet := (List.getD_eq_getElem _ _ index).trans here
    rw [set]
    apply List.length_pos_iff.mpr
    rintro rfl
    simp [victimWay?] at same
  · intro safe
    rw [safe.access?_eq]
    rfl

/-- A well-formed cache with short shifts, at any address. -/
structure Usable (cache : Cache) : Prop extends cache.WellFormed where
  shifts : cache.offsetBits.toNat + cache.indexBits.toNat < 64

theorem Usable.accessSafe (h : cache.Usable) (address : U64) : cache.AccessSafe address where
  indexBits := by
    have shifts := h.shifts
    omega
  offsetBits := by
    have shifts := h.shifts
    omega
  tagBits := (BitVec.toNat_add ..).trans_lt ((Nat.mod_le ..).trans_lt h.shifts)
  index := h.index_lt address
  ways := h.curSet_pos address

theorem access_bits (address : U64) (operation : CacheOperation)
    : (cache.access address operation).2.offsetBits = cache.offsetBits
      ∧ (cache.access address operation).2.indexBits = cache.indexBits := by
  unfold Cache.access
  dsimp only
  split <;> exact ⟨rfl, rfl⟩

theorem Usable.access (h : cache.Usable) (address : U64) (operation : CacheOperation)
    : (cache.access address operation).2.Usable where
  toWellFormed := h.toWellFormed.access address operation
  shifts := by
    rw [(access_bits address operation).1, (access_bits address operation).2]
    exact h.shifts

/-- Any sequence of accesses is defined, and leads where it leads without the checks. -/
theorem Usable.accesses?_eq (h : cache.Usable) (history : List (U64 × CacheOperation))
    : cache.accesses? history = some (cache.accesses history).2 := by
  induction history generalizing cache with
  | nil => rfl
  | cons first rest ih =>
      rw [accesses?, (h.accessSafe first.1).access?_eq]
      exact ih (h.access first.1 first.2)

/-- Where a set fits, every address has one. -/
theorem usable_new (fits : config.FitsSet) : (new config).Usable := by
  have sets := CacheConfig.numSets_pos_iff.mpr fits
  refine ⟨wellFormed_new sets, ?_⟩
  rw [offsetBits_new, indexBits_new]
  exact CacheConfig.bits_lt sets

end Cache

-----------------------------------------------------------------------------------------
-- Accepted configurations
-----------------------------------------------------------------------------------------

/-- A cache is safe exactly if a set fits into it. -/
theorem CacheConfig.safe_iff_fits (config : CacheConfig) : config.SafeToUse ↔ config.FitsSet := by
  constructor
  · rintro ⟨cache, built, -⟩
    by_contra unfit
    rw [Cache.new?_eq, if_neg unfit] at built
    cases built
  · intro fits
    refine ⟨Cache.new config, ?_, ?_⟩
    · rw [Cache.new?_eq, if_pos fits]
    · intro history
      rw [(Cache.usable_new fits).accesses?_eq]
      rfl

/-- All 32-bit sizes are accepted. They are safe to use, powers of two or not, as long as a
block and a set have a size and a set fits into the cache. Witness: with a set the index mask
is below the number of sets, and otherwise the constructor has no value.
-/
theorem safeToUse_iff (cacheSize blockSize ways missLatency : BitVec 32)
    : (CacheConfig.ofWords cacheSize blockSize ways missLatency).Accepted
      ∧ ((CacheConfig.ofWords cacheSize blockSize ways missLatency).SafeToUse
        ↔ 0 < blockSize.toNat ∧ 0 < ways.toNat
          ∧ blockSize.toNat * ways.toNat ≤ cacheSize.toNat) := by
  refine ⟨CacheConfig.accepted_iff.mpr ⟨cacheSize, blockSize, ways, missLatency, rfl⟩, ?_⟩
  have widened (word : BitVec 32) : (word.setWidth 64).toNat = word.toNat :=
    BitVec.toNat_setWidth_of_le (by decide)
  rw [CacheConfig.safe_iff_fits, CacheConfig.FitsSet, CacheConfig.ofWords, widened, widened,
    widened]

/-- Three sets, no power of two. -/
example : (CacheConfig.ofWords 48 8 2 5).SafeToUse :=
  (CacheConfig.safe_iff_fits _).mpr (by decide)

/-- A file is accepted whose first cache, of 16 bytes, has no room for two blocks of 16 bytes:
the number of sets is 0, and so is the argument of `log2`.
-/
theorem undersized_accepted
    : ¬ ∀ config : CacheConfig, config.Accepted → config.SafeToUse := by
  intro safe
  have accepted : (CacheConfig.ofWords 16 16 2 0).Accepted :=
    ⟨["sim_cycle", "fib.bin", "cache_config.txt"],
      fun _ => some "16\n16\n2\n0\n16\n16\n1\n0\n".toList, "fib.bin", .ofWords 16 16 2 0,
      .ofWords 16 16 1 0, rfl, Or.inl rfl⟩
  obtain ⟨cache, built, -⟩ := safe _ accepted
  cases built

end RiscvSim
