/-
Module: QHal.Proofs.BlWrite
Purpose: The write of the boot loader's RRAM driver puts the source into its range and nothing
  else.  If a word of the lines it rewrites fails, it says so, and every byte of the range is
  still the old one or already the new one.
Trusted boundary: none
Main exports: IsWord, WholeBytes, blocksLoop_cases, WritesRange, ntBlRramWrite_writes
-/
import QHal.Proofs.OtpLocks

namespace QHal.Rram

open Mem (InRange overlay)

/-! ## The words of the lines -/

section Words

variable {device : UInt32 → WordAnswer} {memory : Mem UInt8}

/-- The address of a word behind the start of a line. -/
abbrev wordAddr (blockAddr : UInt32) (word : Nat) : UInt32 :=
  blockAddr + UInt32.ofNat (word * 4)

theorem wordAddr_add (blockAddr : UInt32) (line word : Nat) :
    wordAddr (blockAddr + UInt32.ofNat (line * 16)) word =
      wordAddr blockAddr (line * 4 + word) := by
  have bytes : line * 16 + word * 4 = (line * 4 + word) * 4 := by omega
  rw [wordAddr, wordAddr, UInt32.add_assoc, ← UInt32.ofNat_add, bytes]

/-- All words of a line from some word on are written, or one of them fails. -/
theorem wordsLoop_cases (blockAddr : UInt32) (dstBlk : Nat → UInt8) (words wordIdx : Nat)
    (memory : Mem UInt8) (room : wordIdx + words ≤ 4) :
    ((∀ word, wordIdx ≤ word → word < wordIdx + words →
        device (wordAddr blockAddr word) = none) ∧
      wordsLoop device blockAddr dstBlk words wordIdx memory =
        (errNone, memory.write (wordAddr blockAddr wordIdx) (words * 4)
          fun i => dstBlk (wordIdx * 4 + i))) ∨
    ((∃ word, wordIdx ≤ word ∧ word < wordIdx + words ∧
        device (wordAddr blockAddr word) ≠ none) ∧
      (wordsLoop device blockAddr dstBlk words wordIdx memory).1 = ebade) := by
  induction words generalizing wordIdx memory with
  | zero =>
      left
      refine ⟨fun word low high => by omega, ?_⟩
      rw [wordsLoop, Nat.zero_mul, Mem.write_zero]
  | succ words ih =>
      have split : (words + 1) * 4 = 4 + words * 4 := by omega
      have next : (wordIdx + 1) * 4 = wordIdx * 4 + 4 := by omega
      rw [wordsLoop]
      dsimp only
      cases answer : device (wordAddr blockAddr wordIdx) with
      | some torn =>
          right
          refine ⟨⟨wordIdx, Nat.le_refl _, by omega, ?_⟩, rfl⟩
          rw [answer]
          exact Option.some_ne_none torn
      | none =>
          rcases ih (wordIdx + 1) (memory.write (wordAddr blockAddr wordIdx) 4
            fun i => dstBlk (wordIdx * 4 + i)) (by omega) with
            ⟨written, same⟩ | ⟨⟨word, low, high, fails⟩, status⟩
          · left
            constructor
            · intro word low high
              rcases Nat.eq_or_lt_of_le low with here | behind
              · rw [← here, answer]
              · exact written word behind (by omega)
            · refine Eq.trans same ?_
              rw [split, ← Mem.write_append memory _ 4 (words * 4) _ (by omega) (by decide)]
              simp only [wordAddr, next, UInt32.ofNat_add, UInt32.add_assoc, Nat.add_assoc]
          · right
            exact ⟨⟨word, by omega, by omega, fails⟩, status⟩

/-- A line that is read, patched and written back. -/
theorem blockLine_written {blockAddr : UInt32} {byteIdx length : Nat} {data dstBlk : Nat → UInt8}
    (inLine : byteIdx < 16) :
    memory.write blockAddr 16 (overlay
        (if 0 < byteIdx ∨ length < 16 then memory.cells blockAddr else dstBlk) byteIdx
        (min (16 - byteIdx) length) data) =
      memory.write (blockAddr + UInt32.ofNat byteIdx) (min (16 - byteIdx) length) data := by
  rw [← @Mem.write_overlay _ memory blockAddr 16 byteIdx _ data (by omega) (by decide) (by omega)]
  apply Mem.write_congr
  intro i below
  split_ifs with readBack
  · rfl
  · simp only [overlay]
    rw [if_pos (by omega), if_pos (by omega)]

/-- All words of the lines are written, or one of them fails. -/
theorem blocksLoop_cases (source : Nat → UInt8) (blocks : Nat) (blockAddr : UInt32)
    (byteIdx src length : Nat) (dstBlk : Nat → UInt8) (memory : Mem UInt8) (inLine : byteIdx < 16)
    (nonempty : 0 < length) (room : byteIdx + length ≤ blocks * 16)
    (tight : blocks * 16 < byteIdx + length + 16) (small : length < 2 ^ 32) :
    ((∀ word < blocks * 4, device (wordAddr blockAddr word) = none) ∧
      blocksLoop device source blocks blockAddr byteIdx src length dstBlk memory =
        (errNone, memory.write (blockAddr + UInt32.ofNat byteIdx) length
          fun i => source (src + i))) ∨
    ((∃ word < blocks * 4, device (wordAddr blockAddr word) ≠ none) ∧
      (blocksLoop device source blocks blockAddr byteIdx src length dstBlk memory).1 = ebade) := by
  induction blocks generalizing blockAddr byteIdx src length dstBlk memory with
  | zero => omega
  | succ blocks ih =>
      have copied := copyBlockLoop_spec source 16 byteIdx src length
        (if 0 < byteIdx ∨ length < 16 then memory.cells blockAddr else dstBlk)
        (by omega) inLine nonempty
      have line := @blockLine_written memory blockAddr byteIdx length
        (fun i => source (src + i)) dstBlk inLine
      generalize countIs : min (16 - byteIdx) length = count at copied line
      rw [blocksLoop]
      simp only [copied]
      generalize overlay (if 0 < byteIdx ∨ length < 16 then memory.cells blockAddr else dstBlk)
        byteIdx count (fun j => source (src + j)) = block at line ⊢
      rcases @wordsLoop_cases device blockAddr block 4 0 memory (Nat.le_refl _) with
        ⟨written, done⟩ | ⟨⟨word, -, high, fails⟩, status⟩
      · have here : wordAddr blockAddr 0 = blockAddr := UInt32.add_zero _
        rw [done, here]
        simp only [Nat.zero_mul, Nat.zero_add]
        rw [if_neg (by decide), show 4 * 4 = 16 from rfl, line]
        by_cases rest : length - count = 0
        · have last : blocks = 0 := by omega
          have all : length = count := by omega
          subst last
          rw [all]
          exact .inl ⟨fun word below => written word (Nat.zero_le _) (by omega), rfl⟩
        · have lineFull : byteIdx + count = 16 := by omega
          have words : ∀ word, wordAddr (blockAddr + 16) word = wordAddr blockAddr (4 + word) :=
            wordAddr_add blockAddr 1
          have address : blockAddr + 16 + UInt32.ofNat 0 =
              blockAddr + UInt32.ofNat byteIdx + UInt32.ofNat count := by
            rw [UInt32.add_assoc blockAddr (UInt32.ofNat byteIdx), ← UInt32.ofNat_add, lineFull]
            exact UInt32.add_zero _
          have whole : length = count + (length - count) := by omega
          rcases ih (blockAddr + 16) 0 (src + count) (length - count) block
            (memory.write (blockAddr + UInt32.ofNat byteIdx) count fun i => source (src + i))
            (by decide) (by omega) (by omega) (by omega) (by omega) with
            ⟨later, same⟩ | ⟨⟨word, below, fails⟩, status⟩
          · left
            constructor
            · intro word below
              by_cases first : word < 4
              · exact written word (Nat.zero_le _) first
              · have behind := later (word - 4) (by omega)
                rwa [words, Nat.add_sub_cancel' (Nat.not_lt.mp first)] at behind
            · rw [same, address]
              conv_rhs => rw [whole]
              rw [← Mem.write_append memory _ count (length - count) _ (by omega) (by omega)]
              simp only [Nat.add_assoc]
          · right
            exact ⟨⟨4 + word, by omega, words word ▸ fails⟩, status⟩
      · right
        rw [status, if_pos (by decide)]
        exact ⟨⟨word, by omega, fails⟩, rfl⟩

end Words

/-! ## The write -/

section Write

variable (driver : RramDriver) (device : UInt32 → WordAnswer) (stack : Nat → UInt8)
  (memory : Mem UInt8) (dst : UInt32) (wdata : Nat → UInt8) (length : UInt32)

/-- The words that are rewritten: those of the lines that hold a byte of the range. -/
def IsWord (dst length address : UInt32) : Prop :=
  address.toNat % 4 = 0 ∧ dst.toNat / 16 ≤ address.toNat / 16 ∧
    address.toNat / 16 ≤ (dst.toNat + length.toNat - 1) / 16

/-- A word that fails leaves each of its bytes as it was or as it should be. -/
def WholeBytes (device : UInt32 → WordAnswer) : Prop :=
  ∀ address torn, device address = some torn → ∀ i < 4, torn i = 0 ∨ torn i = 0xFF

/-- If all words are written, the memory has the source in the range and the status is 0; if one
fails, there is an error.  Bytes outside of the range do not change.  Each bit inside is the old one
or the new one, and so is each byte if words that fail have whole bytes. -/
structure WritesRange : Prop where
  written : (∀ address, IsWord dst length address → device address = none) →
    ntBlRramWrite driver device stack memory dst wdata length =
      (errNone, memory.write dst length.toNat wdata)
  fails : (∃ address, IsWord dst length address ∧ device address ≠ none) →
    (ntBlRramWrite driver device stack memory dst wdata length).1 = ebade
  outside : ∀ address, ¬ InRange dst length.toNat address →
    (ntBlRramWrite driver device stack memory dst wdata length).2 address = memory address
  bits : ∀ address, InRange dst length.toNat address →
    Blended (memory address) (wdata (address - dst).toNat)
      ((ntBlRramWrite driver device stack memory dst wdata length).2 address)
  inside : WholeBytes device → ∀ address, InRange dst length.toNat address →
    (ntBlRramWrite driver device stack memory dst wdata length).2 address = memory address ∨
      (ntBlRramWrite driver device stack memory dst wdata length).2 address =
        wdata (address - dst).toNat

end Write

/-- The old byte or the new one. -/
def OldOrNew (old new after : UInt8) : Prop := after = old ∨ after = new

theorem OldOrNew.answers {device : UInt32 → WordAnswer} (whole : WholeBytes device) :
    Answers OldOrNew device where
  keeps := fun _ _ => .inl rfl
  reaches := fun _ _ => .inr rfl
  stays := fun _ _ either => either.elim id id
  tears := by
    intro address torn answer i below old new
    rcases whole address torn answer i below with none | all
    · exact .inl (none ▸ blend_none old new)
    · exact .inr (all ▸ blend_all old new)

/-- The rewritten words are those of the lines, one behind the other. -/
theorem isWord_iff {dst length : UInt32} {blocks : Nat} (some : 0 < length.toNat)
    (room : dst.toNat % 16 + length.toNat ≤ blocks * 16)
    (tight : blocks * 16 < dst.toNat % 16 + length.toNat + 16)
    (noWrap : dst.toNat + length.toNat < 2 ^ 32) (address : UInt32) :
    IsWord dst length address ↔
      ∃ word < blocks * 4, address = wordAddr (dst - dst % 16) word := by
  have offset : (dst % 16).toNat = dst.toNat % 16 := UInt32.toNat_mod _ _
  have firstNat : (dst - dst % 16).toNat = dst.toNat - dst.toNat % 16 := by
    rw [UInt32.toNat_sub_of_le _ _ (UInt32.le_iff_toNat_le.mpr (by omega)), offset]
  have wordNat : ∀ word < blocks * 4,
      (wordAddr (dst - dst % 16) word).toNat = dst.toNat - dst.toNat % 16 + word * 4 := by
    intro word below
    rw [wordAddr, UInt32.toNat_add, firstNat,
      UInt32.toNat_ofNat_of_lt' (show word * 4 < 2 ^ 32 by omega)]
    exact Nat.mod_eq_of_lt (by omega)
  have addressLt := address.toNat_lt
  constructor
  · rintro ⟨aligned, low, high⟩
    refine ⟨(address.toNat - (dst.toNat - dst.toNat % 16)) / 4, by omega, ?_⟩
    apply UInt32.toNat_inj.mp
    rw [wordNat _ (by omega)]
    omega
  · rintro ⟨word, below, rfl⟩
    rw [IsWord, wordNat word below]
    omega

theorem ntBlRramWrite_writes (driver : RramDriver) (device : UInt32 → WordAnswer)
    (stack : Nat → UInt8) (memory : Mem UInt8) (dst : UInt32) (wdata : Nat → UInt8)
    (length : UInt32) (some : length ≠ 0)
    (accepted : rramAddressRangeCheck driver memory dst length writeLocked = 0)
    (noWrap : dst.toNat + length.toNat < 2 ^ 32) :
    WritesRange driver device stack memory dst wdata length := by
  have blended := @ntBlRramWrite_mixed _ _ memory (Blended.answers device) driver stack wdata dst
    length noWrap
  obtain ⟨blocks, room, tight, same⟩ :=
    ntBlRramWrite_lines device stack wdata some accepted noWrap
  have offset : (dst % 16).toNat = dst.toNat % 16 := UInt32.toNat_mod _ _
  have positive : 0 < length.toNat :=
    Nat.pos_of_ne_zero fun zero => some (UInt32.toNat_inj.mp zero)
  have words := isWord_iff positive room tight noWrap
  have cases := @blocksLoop_cases device wdata blocks (dst - dst % 16) (dst % 16).toNat 0
    length.toNat stack memory (by omega) positive (by omega) (by omega) (by omega)
  rw [← same, line_add_offset] at cases
  simp only [Nat.zero_add] at cases
  refine ⟨fun written => ?_, ?_, fun address => (blended address).2,
    fun address => (blended address).1, fun whole address => ?_⟩
  · rcases cases with ⟨-, done⟩ | ⟨⟨word, below, fails⟩, -⟩
    · exact done
    · exact absurd (written _ ((words _).mpr ⟨word, below, rfl⟩)) fails
  · rintro ⟨address, isWord, fails⟩
    obtain ⟨word, below, rfl⟩ := (words address).mp isWord
    rcases cases with ⟨written, -⟩ | ⟨-, status⟩
    · exact absurd (written word below) fails
    · exact status
  · exact (@ntBlRramWrite_mixed _ _ memory (OldOrNew.answers whole) driver stack wdata dst length
      noWrap address).1

/-- The word behind the first line fails half-way: two of its bytes are new, two old. -/
def halfWord (address : UInt32) : WordAnswer :=
  if address = 0x200010 then some fun i => if i < 2 then 0xFF else 0 else none

/-- Three bytes over the end of a line, the next of which fails. -/
theorem ntBlRramWrite_writes_three :
    WholeBytes halfWord ∧
      WritesRange (.boot true) halfWord (fun _ => 0) (fun _ => 0) 0x20000E (fun _ => 7) 3 := by
  refine ⟨?_, ntBlRramWrite_writes _ _ _ _ _ _ _ (by decide) (by decide) (by decide)⟩
  intro address torn answer i below
  unfold halfWord at answer
  split_ifs at answer
  cases answer
  exact (ite_eq_or_eq ..).symm

end QHal.Rram
