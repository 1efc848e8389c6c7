import RiscvSim.Correctness.Disassembly
import RiscvSim.Correctness.Programs

/-! What the pipe-state file tells about a run: the state behind every line, in every run that
shows only HALT, NOP, empty words and instructions that are not misprinted.
-/

namespace RiscvSim

open Rv64i (Instr)
open Texts (Separates)

-----------------------------------------------------------------------------------------
-- Words
-----------------------------------------------------------------------------------------

/-- The latch holds the word. -/
theorem setWidth_word (word : BitVec 32) : (word.setWidth 64 : U64).setWidth 32 = word := by
  rw [BitVec.setWidth_setWidth_of_le _ (by decide), BitVec.setWidth_eq]

/-- The words with a text of their own, and the word of empty memory. -/
def specialWords : List (U64 × String) := [(haltWord, "HALT"), (nopWord, "NOP"), (0, "ILLEGAL")]

/-- The words that can be read back from their text. -/
inductive Legible : U64 → String → Prop
  | special {word : U64} {text : String} (listed : (word, text) ∈ specialWords) : Legible word text
  | instr {instr : Instr} (even : instr.EvenOffset) (right : ¬ Misprinted instr)
    : Legible (instr.encode.setWidth 64) instr.text

/-- Instructions with even offsets are encoded apart, as their texts are. -/
theorem encode_inj {i j : Instr} (even : i.EvenOffset) (right : ¬ Misprinted i)
    (even' : j.EvenOffset) (right' : ¬ Misprinted j)
    : i.encode = j.encode ↔ i = j := by
  constructor
  · intro same
    have text := (printInstr_encode i even .normal).symm.trans
      ((congrArg (printInstr · .normal) same).trans (printInstr_encode j even' .normal))
    rw [(shownText_eq_iff i).mpr right, (shownText_eq_iff j).mpr right'] at text
    exact (i.separates_text j).eq_iff.mp
      (congrArg (·.toList ++ [' ']) (column_inj (text_ends i) (text_ends j) text))
  · rintro rfl
    rfl

namespace Legible

variable {x y : U64} {text text' : String}

theorem column (h : Legible x text) (status : StageStatus)
    : printInstr (x.setWidth 32) status = setwLeft 25 (" " ++ text ++ status.str) := by
  cases h with
  | special listed =>
      simp only [specialWords, List.mem_cons, Prod.mk.injEq, List.not_mem_nil, or_false] at listed
      rcases listed with ⟨rfl, rfl⟩ | ⟨rfl, rfl⟩ | ⟨rfl, rfl⟩
      · rfl
      · rfl
      · rfl
  | instr even right =>
      rw [setWidth_word, printInstr_encode _ even, (shownText_eq_iff _).mpr right]

/-- The special words are no instructions with a legible text. -/
theorem special_ne {instr : Instr} (right : ¬ Misprinted instr) (listed : (x, text) ∈ specialWords)
    : x ≠ instr.encode.setWidth 64 := by
  rintro rfl
  simp only [specialWords, List.mem_cons, Prod.mk.injEq, List.not_mem_nil, or_false] at listed
  rcases listed with ⟨halt, _⟩ | ⟨nop, _⟩ | ⟨zero, _⟩
  · exact encode_ne_halt instr ((Words.setWidth_eq_iff (by decide) (by decide)).mp halt)
  · have word := (Words.setWidth_eq_iff (by decide) (by decide)).mp nop
    rw [(encode_eq_nop_iff instr).mp word] at right
    exact right (.inr ⟨rfl, rfl, rfl, rfl⟩)
  · have opcode := Rv64i.opcode_encode instr
    rw [(Words.setWidth_eq_iff (by decide) (by decide)).mp zero] at opcode
    cases instr <;> cases opcode

/-- A text in capital letters is no instruction. -/
theorem separates_capital {first : List Char} (instr : Instr)
    (spaces : ∀ c ∈ first, (c != ' ') = true) (capital : first.any (! ·.isLower) = true)
    : Separates (first ++ [' ']) (instr.text.toList ++ [' ']) False := by
  have letters : ∀ c ∈ instr.mnemonic.name.toList, (c != ' ') = true := by
    intro c member
    rw [bne_iff_ne]
    rintro rfl
    exact absurd (instr.mnemonic.letters_name ' ' member) (by decide)
  have differ : first ≠ instr.mnemonic.name.toList := by
    rintro rfl
    obtain ⟨c, member, upper⟩ := List.any_eq_true.mp capital
    rw [instr.mnemonic.letters_name c member] at upper
    cases upper
  have name := (Texts.separates_stop (c := ' ') spaces letters rfl).congr (iff_false_intro differ)
  rw [instr.toList_text, ← List.append_nil (first ++ [' '])]
  exact (name.append_of (Q := True) fun never => never.elim).congr (and_iff_left trivial)

/-- The text of a legible word tells the word. Witness: special words by their list, instructions
by their text.
-/
theorem separates (hx : Legible x text) (hy : Legible y text')
    : Separates (text.toList ++ [' ']) (text'.toList ++ [' ']) (x = y) := by
  have words : (specialWords.all fun p => p.2.toList.all (· != ' ')) = true := by decide
  have capitals : (specialWords.all fun p => p.2.toList.any (! ·.isLower)) = true := by decide
  have apart
      : (specialWords.all fun p => specialWords.all fun q =>
          decide (p.2.toList = q.2.toList ↔ p.1 = q.1)) = true := by
    decide
  have words {x : U64} {text : String} (listed : (x, text) ∈ specialWords)
      : ∀ c ∈ text.toList, (c != ' ') = true :=
    List.all_eq_true.mp (List.all_eq_true.mp words _ listed)
  cases hx with
  | special listed =>
      cases hy with
      | special listed' =>
          have names : Separates (text.toList ++ [' ']) (text'.toList ++ [' ']) _ :=
            Texts.separates_stop (words listed) (words listed') rfl
          exact names.congr (of_decide_eq_true
            (List.all_eq_true.mp (List.all_eq_true.mp apart _ listed) _ listed'))
      | instr even' right' =>
          have capital := List.all_eq_true.mp capitals _ listed
          exact (separates_capital _ (words listed) capital).congr
            (iff_of_false id (special_ne right' listed))
  | @instr i even right =>
      cases hy with
      | special listed' =>
          have capital := List.all_eq_true.mp capitals _ listed'
          exact (separates_capital _ (words listed') capital).symm.congr
            (iff_of_false id (special_ne right listed').symm)
      | @instr j even' right' =>
          refine (i.separates_text j).congr ?_
          rw [← encode_inj even right even' right']
          constructor
          · exact congrArg (BitVec.setWidth 64)
          · intro same
            rw [← setWidth_word i.encode, same, setWidth_word]

/-- A column tells the word and the status. -/
theorem separates_column (hx : Legible x text) (hy : Legible y text')
    (status status' : StageStatus)
    : Separates ((printInstr (x.setWidth 32) status).toList ++ ['|'])
        ((printInstr (y.setWidth 32) status').toList ++ ['|']) (status = status' ∧ x = y) := by
  rw [hx.column, hy.column]
  exact (RiscvSim.separates_column (hx.separates hy)).congr and_comm

end Legible

-----------------------------------------------------------------------------------------
-- Lines
-----------------------------------------------------------------------------------------

/-- The column of IF tells the address and the status. -/
theorem separates_printIFPC (pc pc' : U64) (status status' : StageStatus)
    : Separates ((printIFPC pc status).toList ++ ['|']) ((printIFPC pc' status').toList ++ ['|'])
        (status = status' ∧ pc = pc') := by
  have number
      : Separates (Texts.padded 16 0 pc.toNat ++ [' ']) (Texts.padded 16 0 pc'.toNat ++ [' ']) _ :=
    hexadecimal.separates_numeral rfl 0 _ _
  have text (pc : U64)
      : ("Inst at 0x" ++ hexField 0 pc.toNat).toList ++ [' ']
        = "Inst at 0x".toList ++ (Texts.padded 16 0 pc.toNat ++ [' ']) := by
    simp [hexField]
  have texts
      : Separates (("Inst at 0x" ++ hexField 0 pc.toNat).toList ++ [' '])
          (("Inst at 0x" ++ hexField 0 pc'.toNat).toList ++ [' ']) (pc = pc') := by
    rw [text, text]
    exact ((Texts.separates_refl _).append number).congr (by simp [BitVec.toNat_inj])
  have column (pc : U64) (status : StageStatus)
      : printIFPC pc status
        = setwLeft 25 (" " ++ ("Inst at 0x" ++ hexField 0 pc.toNat) ++ status.str) := by
    rw [← String.append_assoc]
    rfl
  rw [column, column]
  exact (separates_column texts).congr and_comm

/-- The number of the cycle in its field. -/
theorem separates_cycle (m n : ℕ)
    : Separates ((setwRight 8 (toString m)).toList ++ ['\t'])
        ((setwRight 8 (toString n)).toList ++ ['\t']) (m = n) := by
  have field (n : ℕ)
      : (setwRight 8 (toString n)).toList
        = List.replicate (8 - (toString n).length) ' ' ++ Texts.padded 10 0 n := by
    rw [setwRight, String.toList_append, String.toList_ofList, Texts.toList_nat]
  have digit (n : ℕ) : ∀ c ∈ Texts.padded 10 0 n, c.isDigit = true :=
    Texts.decimal.digit_padded 0 n
  have noTab (n : ℕ) : ∀ c ∈ (setwRight 8 (toString n)).toList, (c != '\t') = true := by
    intro c member
    rw [field] at member
    rcases List.mem_append.mp member with filled | written
    · rw [List.eq_of_mem_replicate filled]
      rfl
    · rw [bne_iff_ne]
      rintro rfl
      exact absurd (digit n '\t' written) (by decide)
  have digits (n : ℕ)
      : (setwRight 8 (toString n)).toList.filter Char.isDigit = Texts.padded 10 0 n := by
    rw [field, List.filter_append, List.filter_replicate,
      List.filter_eq_self.mpr (digit n)]
    rfl
  refine (Texts.separates_stop (noTab m) (noTab n) rfl).congr ⟨fun same => ?_, fun same => ?_⟩
  · have read := congrArg (List.filter Char.isDigit) same
    rw [digits, digits] at read
    exact Texts.decimal.padded_inj.mp read
  · rw [same]

/-- All words of the line can be read back. -/
structure PipeState.AllLegible (state : PipeState) : Prop where
  id : ∃ text, Legible state.idInstr text
  ex : ∃ text, Legible state.exInstr text
  mem : ∃ text, Legible state.memInstr text
  wb : ∃ text, Legible state.wbInstr text

/-- The columns of a line. -/
theorem toList_dumpPipeState (state : PipeState)
    : (dumpPipeState state).toList
      = "Cycle: ".toList ++ ((setwRight 8 (toString state.cycle.toNat)).toList ++ ['\t'])
        ++ ['|'] ++ ['|'] ++ ((printIFPC state.ifPC state.ifStatus).toList ++ ['|'])
        ++ ((printInstr (state.idInstr.setWidth 32) state.idStatus).toList ++ ['|'])
        ++ ((printInstr (state.exInstr.setWidth 32) state.exStatus).toList ++ ['|'])
        ++ ((printInstr (state.memInstr.setWidth 32) state.memStatus).toList ++ ['|'])
        ++ ((printInstr (state.wbInstr.setWidth 32) state.wbStatus).toList ++ ['|'])
        ++ ['\n'] := by
  have tab : "\t|" = "\t" ++ "|" := by decide
  have last : "|\n" = "|" ++ "\n" := by decide
  unfold dumpPipeState
  simp only [tab, last, String.toList_append, List.append_assoc]
  rfl

theorem separates_dumpPipeState {a b : PipeState} (ha : a.AllLegible) (hb : b.AllLegible)
    : Separates (dumpPipeState a).toList (dumpPipeState b).toList (a = b) := by
  obtain ⟨⟨_, ida⟩, ⟨_, exa⟩, ⟨_, mema⟩, ⟨_, wba⟩⟩ := ha
  obtain ⟨⟨_, idb⟩, ⟨_, exb⟩, ⟨_, memb⟩, ⟨_, wbb⟩⟩ := hb
  have bar := Texts.separates_refl ['|']
  have columns := (((((((((Texts.separates_refl "Cycle: ".toList).append
    (separates_cycle a.cycle.toNat b.cycle.toNat)).append bar).append bar).append
    (separates_printIFPC a.ifPC b.ifPC a.ifStatus b.ifStatus)).append
    (ida.separates_column idb a.idStatus b.idStatus)).append
    (exa.separates_column exb a.exStatus b.exStatus)).append
    (mema.separates_column memb a.memStatus b.memStatus)).append
    (wba.separates_column wbb a.wbStatus b.wbStatus)).append (Texts.separates_refl ['\n'])
  rw [toList_dumpPipeState, toList_dumpPipeState]
  refine columns.congr ?_
  obtain ⟨⟩ := a
  obtain ⟨⟩ := b
  simp only [PipeState.mk.injEq, BitVec.toNat_inj, true_and, and_true, and_assoc]

-----------------------------------------------------------------------------------------
-- The file
-----------------------------------------------------------------------------------------

namespace CycleState

/-- The states behind the lines of the first `cycles` cycles. -/
def shownStates (start : CycleState Cache) (cycles : ℕ) : List PipeState :=
  (List.range cycles).map fun k => (next^[k + 1] start).pipeState

theorem toList_pipeStateLines (start : CycleState Cache) (cycles : ℕ)
    : (pipeStateLines start cycles).toList
      = (shownStates start cycles).flatMap fun state => (dumpPipeState state).toList := by
  rw [pipeStateLines, String.toList_join, shownStates, List.flatMap_map, List.flatMap_map]

theorem shownStates_eq_iff (start start' : CycleState Cache) (cycles cycles' : ℕ)
    : shownStates start cycles = shownStates start' cycles'
      ↔ cycles = cycles'
        ∧ ∀ k < cycles, (next^[k + 1] start).pipeState = (next^[k + 1] start').pipeState := by
  constructor
  · intro same
    have length := congrArg List.length same
    simp only [shownStates, List.length_map, List.length_range] at length
    subst length
    refine ⟨rfl, fun k bound => ?_⟩
    exact List.map_inj_left.mp same k (List.mem_range.mpr bound)
  · rintro ⟨rfl, same⟩
    exact List.map_congr_left fun k member => same k (List.mem_range.mp member)

/-- Two runs leave the same pipe-state file exactly if they halt in the same cycle and have been in
the same states up to it, as far as a line shows them. Witness: each line tells where it ends, and
each column what is in it.
-/
theorem pipeStateFiles_eq_iff {start start' : CycleState Cache} {n n' calls : ℕ}
    (halts : HaltsAt start n) (halts' : HaltsAt start' n') (enough : n < calls)
    (enough' : n' < calls)
    (legible : ∀ k < n + 1, (next^[k + 1] start).pipeState.AllLegible)
    (legible' : ∀ k < n' + 1, (next^[k + 1] start').pipeState.AllLegible)
    : (runTillHalt calls start).map (·.2) = (runTillHalt calls start').map (·.2)
      ↔ n = n'
        ∧ ∀ k < n + 1, (next^[k + 1] start).pipeState = (next^[k + 1] start').pipeState := by
  have ended := (runTillHalt_iff_haltsAt calls start _ _).mpr ⟨n, enough, halts, rfl, rfl⟩
  have ended' := (runTillHalt_iff_haltsAt calls start' _ _).mpr ⟨n', enough', halts', rfl, rfl⟩
  have nonempty (state : PipeState) : (dumpPipeState state).toList ≠ [] := by
    rw [toList_dumpPipeState]
    exact List.append_ne_nil_of_right_ne_nil _ (List.cons_ne_nil _ _)
  have lines
      : ∀ a ∈ shownStates start (n + 1), ∀ b ∈ shownStates start' (n' + 1),
          Separates (dumpPipeState a).toList (dumpPipeState b).toList (a = b) := by
    intro a member b member'
    obtain ⟨k, bound, rfl⟩ := List.mem_map.mp member
    obtain ⟨k', bound', rfl⟩ := List.mem_map.mp member'
    exact separates_dumpPipeState (legible k (List.mem_range.mp bound))
      (legible' k' (List.mem_range.mp bound'))
  rw [ended, ended', Option.map_some, Option.map_some, Option.some.injEq, ← String.toList_inj,
    toList_pipeStateLines, toList_pipeStateLines, Texts.flatMap_inj nonempty lines,
    shownStates_eq_iff, Nat.succ_inj]

/-- The file tells the latency of the I-cache. -/
theorem pipeStateFiles_eq_iff_latency
    : (runTillHalt 12 (boot testICache testDCache [0x00300093, 0xfeedfeed])).map (·.2)
      ≠ (runTillHalt 12
          (boot { testICache with missLatency := 1 } testDCache [0x00300093, 0xfeedfeed])).map
            (·.2) := by
  have legible {word : U64} (shown : word ∈ [haltWord, nopWord, 0, 0x00300093])
      : ∃ text, Legible word text := by
    simp only [List.mem_cons, List.not_mem_nil, or_false] at shown
    rcases shown with rfl | rfl | rfl | rfl
    · exact ⟨"HALT", .special (by decide)⟩
    · exact ⟨"NOP", .special (by decide)⟩
    · exact ⟨"ILLEGAL", .special (by decide)⟩
    · exact ⟨_, @Legible.instr (.regImm .addi 1 0 3) trivial (by decide)⟩
  have states (iCacheConfig : CacheConfig) (cycles : ℕ)
      (shown
        : ∀ k < cycles,
            let state := (next^[k + 1] (boot iCacheConfig testDCache
              [0x00300093, 0xfeedfeed])).pipeState
            state.idInstr ∈ [haltWord, nopWord, 0, 0x00300093]
            ∧ state.exInstr ∈ [haltWord, nopWord, 0, 0x00300093]
            ∧ state.memInstr ∈ [haltWord, nopWord, 0, 0x00300093]
            ∧ state.wbInstr ∈ [haltWord, nopWord, 0, 0x00300093])
      : ∀ k < cycles,
          (next^[k + 1] (boot iCacheConfig testDCache
            [0x00300093, 0xfeedfeed])).pipeState.AllLegible := by
    intro k bound
    obtain ⟨id, ex, mem, wb⟩ := shown k bound
    exact ⟨legible id, legible ex, legible mem, legible wb⟩
  have halts : HaltsAt (boot testICache testDCache [0x00300093, 0xfeedfeed]) 10 :=
    ⟨by decide +kernel, by decide +kernel⟩
  have halts'
      : HaltsAt (boot { testICache with missLatency := 1 } testDCache [0x00300093, 0xfeedfeed]) 6 :=
    ⟨by decide +kernel, by decide +kernel⟩
  have same := pipeStateFiles_eq_iff halts halts' (show 10 < 12 by decide) (by decide)
    (states testICache 11 (by decide +kernel))
    (states { testICache with missLatency := 1 } 7 (by decide +kernel))
  exact fun files => absurd (same.mp files).1 (by decide)

end CycleState
end RiscvSim
