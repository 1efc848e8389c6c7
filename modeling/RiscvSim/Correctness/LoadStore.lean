import RiscvSim.Instructions.Encoding
import RiscvSim.Instructions.MemoryBytes

/-! A load that follows a store to the same address returns what was stored. -/

namespace RiscvSim

open Rv64i (Instr LoadOp StoreOp Reg)

/-- The parts of a store's immediate, put together again. -/
theorem storeParts (imm : BitVec 12)
    : (imm.extractLsb 11 5).setWidth 64 <<< 5 ||| (imm.extractLsb 4 0).setWidth 64
      = imm.setWidth 64 := by
  apply BitVec.eq_of_getLsbD_eq
  intro i bound
  simp only [BitVec.getLsbD_or, BitVec.getLsbD_shiftLeft, BitVec.getLsbD_setWidth,
    BitVec.extractLsb, BitVec.getLsbD_extractLsb']
  by_cases inside : i < 12
  · interval_cases i <;> simp
  · have upper : ¬ i - 5 < 7 := by omega
    have lower : ¬ i < 5 := by omega
    simp [upper, lower, BitVec.getLsbD_of_ge imm i (by omega)]

-----------------------------------------------------------------------------------------
-- Decoded loads and stores
-----------------------------------------------------------------------------------------

section Decoded

variable {x : Instruction} {word : BitVec 32} {rd rs1 rs2 : Reg} {imm : BitVec 12}

/-- HALT and NOP have other opcodes. -/
theorem Instruction.Shows.unspecial (h : x.Shows word) (halt : Rv64i.opcode word ≠ 0b1101101)
    (nop : Rv64i.opcode word ≠ 0b0010011)
    : x.instruction ≠ haltWord ∧ x.instruction ≠ nopWord := by
  rw [h.instruction]
  constructor
  · intro same
    rw [haltWord, Words.setWidth_eq_iff (by decide) (by decide)] at same
    subst same
    exact halt rfl
  · intro same
    rw [nopWord, Words.setWidth_eq_iff (by decide) (by decide)] at same
    subst same
    exact nop rfl

/-- The size behind `funct3`. -/
theorem accessSize_load {op : LoadOp} (funct3 : x.funct3 = op.funct3.setWidth 64)
    : (accessSize x).bytes = op.bytes := by
  unfold accessSize
  rw [funct3]
  cases op <;> decide

theorem accessSize_store {op : StoreOp} (funct3 : x.funct3 = op.funct3.setWidth 64)
    : (accessSize x).bytes = op.bytes := by
  unfold accessSize
  rw [funct3]
  cases op <;> decide

/-- The codes of the loads, and below those of the stores, are listed in the decoder. -/
theorem loadCodes : ∀ op : LoadOp,
    let funct3 := op.funct3.setWidth 64
    funct3 = funct3B ∨ funct3 = funct3H ∨ funct3 = funct3W ∨ funct3 = funct3D
    ∨ funct3 = funct3Bu ∨ funct3 = funct3Hu ∨ funct3 = funct3Wu := by
  decide

theorem storeCodes : ∀ op : StoreOp,
    let funct3 := op.funct3.setWidth 64
    funct3 = funct3B ∨ funct3 = funct3H ∨ funct3 = funct3W ∨ funct3 = funct3D := by
  decide

theorem decodeSignals_load {op : LoadOp} (h : x.Shows (Instr.load op rd rs1 imm).encode)
    : decodeSignals x = { x with readsRs1 := true, writesRd := true, readsMem := true } := by
  have opcode : x.opcode = opLoad := h.opcode_encode
  have listed := loadCodes op
  rw [← Rv64i.funct3_iType rs1 rd op.funct3 0b0000011 imm, ← Instr.encode, ← h.funct3] at listed
  obtain ⟨noHalt, noNop⟩ := h.unspecial (by simp [Instr.encode]) (by simp [Instr.encode])
  simp +decide only [decodeSignals, noHalt, noNop, opcode, listed, if_true, if_false]

theorem decodeSignals_store {op : StoreOp} (h : x.Shows (Instr.store op rs1 rs2 imm).encode)
    : decodeSignals x = { x with readsRs1 := true, readsRs2 := true, writesMem := true } := by
  have opcode : x.opcode = opStore := h.opcode_encode
  have listed := storeCodes op
  rw [← Rv64i.funct3_sType rs2 rs1 op.funct3 0b0100011 imm, ← Instr.encode, ← h.funct3] at listed
  obtain ⟨noHalt, noNop⟩ := h.unspecial (by simp [Instr.encode]) (by simp [Instr.encode])
  simp +decide only [decodeSignals, noHalt, noNop, opcode, listed, if_true, if_false]

/-- The address of a load. -/
theorem memAddress_load {op : LoadOp} (h : x.Shows (Instr.load op rd rs1 imm).encode)
    (reads : x.readsMem = true)
    : simAddrGen x = { x with memAddress := x.op1Val + imm.signExtend 64 } := by
  have imm12 : sext64 (extractBits x.instruction 31 20) 11 = imm.signExtend 64 := by
    rw [sext64_imm12 h, Instr.encode, Rv64i.imm_iType]
  simp only [simAddrGen, reads, if_true, imm12]

/-- The address of a store, whose offset is split over two fields. -/
theorem memAddress_store {op : StoreOp} (h : x.Shows (Instr.store op rs1 rs2 imm).encode)
    (noLoad : x.readsMem = false) (writes : x.writesMem = true)
    : simAddrGen x = { x with memAddress := x.op1Val + imm.signExtend 64 } := by
  have upper : x.funct7 = (imm.extractLsb 11 5).setWidth 64 := by
    rw [h.funct7]
    simp [Rv64i.funct7, Instr.encode, Rv64i.sType, BitVec.extractLsb'_or]
  have lower : x.rd = (imm.extractLsb 4 0).setWidth 64 := by
    rw [h.rd]
    simp [Instr.encode, Rv64i.sType, BitVec.extractLsb'_or]
  have offset : sext64 ((x.funct7 <<< 5) ||| x.rd) 11 = imm.signExtend 64 := by
    rw [upper, lower, storeParts]
    exact sext64_setWidth imm (by decide) (by decide)
  simp only [simAddrGen, noLoad, writes, if_true, Bool.false_eq_true, if_false, offset]

/-- What a load makes of the bytes that it has read. -/
theorem simMemAccess_loaded {op : LoadOp} {mem : MemoryStore} {v : U64}
    (funct3 : x.funct3 = op.funct3.setWidth 64) (reads : x.readsMem = true)
    (read
      : mem.getMemValue x.memAddress (accessSize x)
        = (0, (v.setWidth (8 * (accessSize x).bytes)).setWidth 64))
    : simMemAccess x mem = ({ x with memResult := op.value v }, mem) := by
  have extended (n : ℕ) (positive : 0 < n) (bound : n ≤ 64)
      : sext64 ((v.setWidth n).setWidth 64) (n - 1) = (v.setWidth n).signExtend 64 :=
    sext64_setWidth _ positive bound
  rw [accessSize_load funct3] at read
  simp only [simMemAccess, reads, read, accessSize_load funct3, if_true, ne_eq, not_true_eq_false,
    if_false, funct3]
  cases op with
  | lb => simp +decide [LoadOp.value, LoadOp.bytes, LoadOp.funct3, extended 8]
  | lh => simp +decide [LoadOp.value, LoadOp.bytes, LoadOp.funct3, extended 16]
  | lw => simp +decide [LoadOp.value, LoadOp.bytes, LoadOp.funct3, extended 32]
  | ld => simp +decide [LoadOp.value, LoadOp.bytes, LoadOp.funct3]
  | lbu => simp +decide [LoadOp.value, LoadOp.bytes, LoadOp.funct3]
  | lhu => simp +decide [LoadOp.value, LoadOp.bytes, LoadOp.funct3]
  | lwu => simp +decide [LoadOp.value, LoadOp.bytes, LoadOp.funct3]

/-- A store that raises no exception has written its value. -/
theorem simMemAccess_stored {mem : MemoryStore} (noLoad : x.readsMem = false)
    (writes : x.writesMem = true) (sound : (simMemAccess x mem).1.memException = false)
    : (mem.setMemValue x.memAddress x.op2Val (accessSize x)).1 = 0
      ∧ (simMemAccess x mem).2 = (mem.setMemValue x.memAddress x.op2Val (accessSize x)).2 := by
  unfold simMemAccess at sound ⊢
  simp only [noLoad, writes, Bool.false_eq_true, if_false, if_true] at sound ⊢
  split at sound
  · cases sound
  · rename_i ok
    rw [if_neg ok]
    exact ⟨not_not.mp ok, rfl⟩

/-- A load that finds the low bytes of `v` at its address. -/
theorem simMemAccess_load {op : LoadOp} {mem : MemoryStore} {v : U64}
    (h : x.Shows (Instr.load op rd rs1 imm).encode) (reads : x.readsMem = true)
    (read
      : ∀ size : MemEntrySize, size.bytes = op.bytes
        → mem.getMemValue (x.op1Val + imm.signExtend 64) size
          = (0, (v.setWidth (8 * size.bytes)).setWidth 64))
    : (simMemAccess (simAddrGen x) mem).1.memException = x.memException
      ∧ (simMemAccess (simAddrGen x) mem).1.memResult = op.value v
      ∧ (simMemAccess (simAddrGen x) mem).2 = mem := by
  have funct3 : x.funct3 = op.funct3.setWidth 64 := by
    rw [h.funct3, Instr.encode, Rv64i.funct3_iType]
  rw [memAddress_load h reads,
    @simMemAccess_loaded { x with memAddress := x.op1Val + imm.signExtend 64 } op mem v funct3
      reads (read _ (accessSize_load funct3))]
  exact ⟨rfl, rfl, rfl⟩

/-- A store that raises no exception. -/
theorem simMemAccess_store {op : StoreOp} {mem : MemoryStore}
    (h : x.Shows (Instr.store op rs1 rs2 imm).encode) (noLoad : x.readsMem = false)
    (writes : x.writesMem = true)
    (sound : (simMemAccess (simAddrGen x) mem).1.memException = false)
    : ∃ size : MemEntrySize,
        size.bytes = op.bytes
        ∧ (mem.setMemValue (x.op1Val + imm.signExtend 64) x.op2Val size).1 = 0
        ∧ (simMemAccess (simAddrGen x) mem).2
          = (mem.setMemValue (x.op1Val + imm.signExtend 64) x.op2Val size).2 := by
  have funct3 : x.funct3 = op.funct3.setWidth 64 := by
    rw [h.funct3, Instr.encode, Rv64i.funct3_sType]
  rw [memAddress_store h noLoad writes] at sound ⊢
  obtain ⟨ok, written⟩ :=
    @simMemAccess_stored { x with memAddress := x.op1Val + imm.signExtend 64 } mem noLoad writes
      sound
  exact ⟨_, accessSize_store funct3, ok, written⟩

end Decoded

-----------------------------------------------------------------------------------------
-- A store and a load
-----------------------------------------------------------------------------------------

/-- The instruction fetched as `word`, with the operands `base` and `v`, up to its memory
access.
-/
def accessMemory (word : BitVec 32) (pc base v : U64) (mem : MemoryStore)
    : Instruction × MemoryStore :=
  simMemAccess
    (simAddrGen (Instruction.decodedWith { pc := pc, instruction := word.setWidth 64 } base v)) mem

theorem accessMemory_load {op : LoadOp} {rd rs1 : Reg} {imm : BitVec 12} {pc base b v : U64}
    {mem : MemoryStore}
    (read
      : ∀ size : MemEntrySize, size.bytes = op.bytes
        → mem.getMemValue (base + imm.signExtend 64) size
          = (0, (v.setWidth (8 * size.bytes)).setWidth 64))
    : (accessMemory (Instr.load op rd rs1 imm).encode pc base b mem).1.memException = false
      ∧ (accessMemory (Instr.load op rd rs1 imm).encode pc base b mem).1.memResult = op.value v
      ∧ (accessMemory (Instr.load op rd rs1 imm).encode pc base b mem).2 = mem := by
  have fields := @decodeFields_shows
    { pc := pc, instruction := (Instr.load op rd rs1 imm).encode.setWidth 64 } _ rfl
  have decoded := decodeSignals_load fields
  have reads := congrArg Instruction.readsMem decoded
  have clear := simDecode_memException
    { pc := pc, instruction := (Instr.load op rd rs1 imm).encode.setWidth 64 }
  obtain ⟨sound, result, kept⟩ :=
    simMemAccess_load (decodedWith_shows rfl base b) reads read
  exact ⟨sound.trans clear, result, kept⟩

theorem accessMemory_store {op : StoreOp} {rs1 rs2 : Reg} {imm : BitVec 12} {pc base v : U64}
    {mem : MemoryStore}
    (sound
      : (accessMemory (Instr.store op rs1 rs2 imm).encode pc base v mem).1.memException = false)
    : ∃ size : MemEntrySize,
        size.bytes = op.bytes
        ∧ (mem.setMemValue (base + imm.signExtend 64) v size).1 = 0
        ∧ (accessMemory (Instr.store op rs1 rs2 imm).encode pc base v mem).2
          = (mem.setMemValue (base + imm.signExtend 64) v size).2 := by
  have fields := @decodeFields_shows
    { pc := pc, instruction := (Instr.store op rs1 rs2 imm).encode.setWidth 64 } _ rfl
  have decoded := decodeSignals_store fields
  have noLoad := congrArg Instruction.readsMem decoded
  have writes := congrArg Instruction.writesMem decoded
  have shows := @decodedWith_shows
    { pc := pc, instruction := (Instr.store op rs1 rs2 imm).encode.setWidth 64 } _ rfl base v
  obtain ⟨size, bytes, ok, written⟩ := simMemAccess_store shows noLoad writes sound
  exact ⟨size, bytes, ok, written⟩

/-- Loads undo stores. A store that does not fault is followed by a load, no wider, from the
same base value and offset. Witness: both address the same entries of the memory, whose bytes
the store has left there.
-/
theorem load_undoes_store (mem : MemoryStore) (base v : U64) (imm : BitVec 12) (fs : StoreOp)
    (fl : LoadOp) (rs1 rs2 rs1' rd : Reg) (pc pc' b : U64) (narrow : fl.bytes ≤ fs.bytes)
    (sound
      : (accessMemory (Instr.store fs rs1 rs2 imm).encode pc base v mem).1.memException = false)
    : let stored := (accessMemory (Instr.store fs rs1 rs2 imm).encode pc base v mem).2
      let loaded := accessMemory (Instr.load fl rd rs1' imm).encode pc' base b stored
      loaded.1.memException = false
      ∧ loaded.1.memResult = fl.value v
      ∧ loaded.2 = stored
      ∧ stored.startAddr = mem.startAddr ∧ stored.numEntries = mem.numEntries
      ∧ ∀ k,
          (∀ i < fs.bytes,
            k ≠ (base + imm.signExtend 64 - mem.startAddr + BitVec.ofNat 64 i).toNat)
          → stored.memArr k = mem.memArr k := by
  obtain ⟨size, bytes, ok, written⟩ := accessMemory_store sound
  rw [← bytes] at narrow
  intro stored loaded
  have state : stored = _ := written
  have read (wanted : MemEntrySize) (same : wanted.bytes = fl.bytes)
      : stored.getMemValue (base + imm.signExtend 64) wanted
        = (0, (v.setWidth (8 * wanted.bytes)).setWidth 64) := by
    rw [state]
    exact MemoryStore.getMemValue_setMemValue ok (by omega)
  obtain ⟨noFault, result, kept⟩ := accessMemory_load read
  obtain ⟨start, entries⟩ := @MemoryStore.setMemValue_bounds mem v (base + imm.signExtend 64) size
  refine ⟨noFault, result, kept, state ▸ start, state ▸ entries, ?_⟩
  intro k apart
  rw [state]
  apply MemoryStore.setMemValue_elsewhere
  intro i inside same
  exact apart i (bytes ▸ inside) same.symm

/-- A negative double word stored and its upper half word loaded, at the base less one over
an offset of minus one.
-/
theorem load_undoes_store_negative
    : (accessMemory (Instr.load .lh 3 4 (-1)).encode 8 0x101 0
        (accessMemory (Instr.store .sd 1 2 (-1)).encode 4 0x101 0xFEDCBA9876548210
          (MemoryStore.load [])).2).1.memResult
      = 0xFFFFFFFFFFFF8210 := by
  refine (load_undoes_store (MemoryStore.load []) 0x101 0xFEDCBA9876548210 (-1) .sd .lh 1 2 4 3
    4 8 0 (by decide) (by decide)).2.1.trans ?_
  decide

end RiscvSim
