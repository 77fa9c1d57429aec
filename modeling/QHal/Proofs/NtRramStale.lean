/-
Module: QHal.Proofs.NtRramStale
Purpose: A refused read spoils the RRAM write of the application.  The module
  exhibits, for every destination, source alignment and length with a refused
  read or a length that wraps around, a source and contents of the temporary
  buffer for which a successful write is not exact.
Trusted boundary: none
Main exports: ntRramWrite_exact_iff, ntRramWrite_spoils_last_line
-/
import QHal.Proofs.NtRramWrite

namespace QHal.Rram

open Mem (InRange Mixed overlay)

section Completed

/-- An engine that completes every transfer. -/
def completed : UInt32 → BlockAnswer := fun _ => none

theorem writeTemp_completed (state : NtRram) (desAdr : UInt32) (length : Nat) :
    writeTemp completed state desAdr length =
      (0, { state with memory := state.memory.write desAdr length state.tempRWBuff }) := rfl

theorem writeSource_completed (state : NtRram) (desAdr : UInt32) (srcAdr : Nat → UInt8)
    (length : Nat) :
    writeSource completed state desAdr srcAdr length =
      (0, { state with memory := state.memory.write desAdr length srcAdr }) := rfl

/-- The loop through the temporary buffer leaves the last block in it. -/
theorem tempBlocksLoop_completed (srcAdr : Nat → UInt8) :
    ∀ (blocks : Nat) (desAdr : UInt32) (src : Nat) (state : NtRram),
      ∃ after, tempBlocksLoop completed srcAdr blocks desAdr src state = (0, after) ∧
        after.tempRWBuff 255 =
          if blocks = 0 then state.tempRWBuff 255 else srcAdr (src + blocks * 256 - 1) := by
  intro blocks
  induction blocks with
  | zero =>
      intro desAdr src state
      exact ⟨state, rfl, rfl⟩
  | succ blocks ih =>
      intro desAdr src state
      obtain ⟨after, result, last⟩ := ih (desAdr + UInt32.ofNat 256) (src + 256)
        (writeThroughTemp completed srcAdr state desAdr src).2
      refine ⟨after, result, ?_⟩
      rw [last, if_neg (Nat.succ_ne_zero blocks)]
      split_ifs with none
      · have here : overlay state.tempRWBuff 0 256 (fun i => srcAdr (src + i)) 255 =
            srcAdr (src + 255) := if_pos (by omega)
        rw [none]
        exact here
      · congr 1
        omega

theorem fullBlocksLoop_completed (srcAdr : Nat → UInt8) :
    ∀ (blocks : Nat) (desAdr : UInt32) (src : Nat) (state : NtRram),
      ∃ after, fullBlocksLoop completed srcAdr blocks desAdr src state = (0, after) ∧
        after.tempRWBuff = state.tempRWBuff := by
  intro blocks
  induction blocks with
  | zero =>
      intro desAdr src state
      exact ⟨state, rfl, rfl⟩
  | succ blocks ih =>
      intro desAdr src state
      obtain ⟨after, result, kept⟩ := ih (desAdr + UInt32.ofNat 16368) (src + 16368)
        (writeSource completed state desAdr (fun i => srcAdr (src + i)) 16368).2
      exact ⟨after, result, kept⟩

theorem tempCopy_completed (state : NtRram) (desAdr : UInt32) (srcAdr : Nat → UInt8)
    (remaining : Nat) : (tempCopy completed state desAdr srcAdr remaining).1 = 0 := by
  obtain ⟨after, result, _⟩ :=
    tempBlocksLoop_completed srcAdr (remaining / 256 % 2 ^ 16) desAdr 0 state
  simp only [tempCopy, result, writeTemp_completed]
  split_ifs <;> rfl

theorem partialBlock_completed (state : NtRram) (desAdr : UInt32) (srcAdr : Nat → UInt8)
    (size : Nat) : (partialBlock completed state desAdr srcAdr size).1 = 0 := by
  simp only [partialBlock, writeSource_completed, writeTemp_completed]
  split_ifs <;> rfl

theorem blockCopy_completed (state : NtRram) (desAdr : UInt32) (srcAdr : Nat → UInt8)
    (remaining : Nat) : (blockCopy completed state desAdr srcAdr remaining).1 = 0 := by
  obtain ⟨after, result, _⟩ :=
    fullBlocksLoop_completed srcAdr (remaining / 16368 % 2 ^ 16) desAdr 0 state
  simp only [blockCopy, result]
  split_ifs
  · rfl
  · exact partialBlock_completed _ _ _ _
  · rfl

end Completed

section Spoiled

variable {memory : Mem UInt8} {dst srcAdr length : UInt32}

/-- A refused read leaves the temporary buffer as it was. -/
theorem patchTemp_refused {state : NtRram} {desAdr width : UInt32} (offset count : Nat)
    (rest : Nat → UInt8) (refused : ¬ Readable state.memory desAdr width) :
    patchTemp state desAdr width offset count rest =
      { state with tempRWBuff := overlay state.tempRWBuff offset count rest } := by
  have read : (rramRead .app state.memory desAdr state.tempRWBuff width).2 =
      state.tempRWBuff := by
    unfold rramRead rramReadWith
    split_ifs with empty
    · rfl
    · rfl
    · contradiction
  simp only [patchTemp, read]

/-- Writing a block whose read was refused puts a stale byte behind the data. -/
theorem stale_byte {state : NtRram} {desAdr width : UInt32} {bytes count : Nat}
    (rest : Nat → UInt8) (refused : ¬ Readable state.memory desAdr width)
    (part : count < bytes) (bound : bytes ≤ 2 ^ 32) :
    (writeTemp completed (patchTemp state desAdr width 0 count rest) desAdr bytes).2.memory
        (desAdr + UInt32.ofNat (bytes - 1)) =
      state.tempRWBuff (bytes - 1) := by
  have hit : InRange desAdr bytes (desAdr + UInt32.ofNat (bytes - 1)) :=
    Mem.inRange_add (by omega) (by omega)
  rw [patchTemp_refused 0 count rest refused, writeTemp_completed]
  simp only
  rw [Mem.write_hit hit, Mem.distance_add (by omega), overlay, if_neg (by omega)]

/-- The last block of a copy through the temporary buffer. -/
theorem tempCopy_stale {state : NtRram} {desAdr : UInt32} {rest : Nat → UInt8} {remaining : Nat}
    (small : remaining < 2 ^ 24) (part : remaining % 256 ≠ 0)
    (refused : ¬ Readable (state.memory.write desAdr (remaining / 256 * 256) rest)
      (desAdr + UInt32.ofNat (remaining / 256 * 256)) 256) :
    (tempCopy completed state desAdr rest remaining).2.memory
        (desAdr + UInt32.ofNat (remaining / 256 * 256) + UInt32.ofNat 255) =
      if remaining / 256 = 0 then state.tempRWBuff 255 else rest (remaining / 256 * 256 - 1) := by
  have noCut : remaining / 256 % 2 ^ 16 = remaining / 256 := Nat.mod_eq_of_lt (by omega)
  obtain ⟨after, result, last⟩ :=
    tempBlocksLoop_completed rest (remaining / 256) desAdr 0 state
  have front := (tempBlocksLoop_outcome completed rest (remaining / 256) desAdr 0 state
    (by omega)).congr fun i _ => by rw [Nat.zero_add]
  rw [result] at front
  rw [← front.exact rfl] at refused
  have spoiled := @stale_byte after _ 256 256 (remaining % 256)
    (fun i => rest (remaining / 256 * 256 + i)) refused (by omega) (by decide)
  simp only [tempCopy, noCut, result, ne_eq, not_true_eq_false, if_false, part,
    not_false_eq_true, if_true]
  rw [Nat.zero_add] at last
  rw [← last]
  exact spoiled

/-- The last line of the partial block. -/
theorem partialBlock_stale {state : NtRram} {desAdr : UInt32} {rest : Nat → UInt8} {size : Nat}
    (part : size % 16 ≠ 0)
    (refused : ¬ Readable (state.memory.write desAdr (size / 16 * 16) rest)
      (desAdr + UInt32.ofNat (size / 16 * 16)) 16) :
    (partialBlock completed state desAdr rest size).2.memory
        (desAdr + UInt32.ofNat (size / 16 * 16) + UInt32.ofNat 15) =
      state.tempRWBuff 15 := by
  have front : (if size / 16 * 16 ≠ 0 then
        writeSource completed state desAdr rest (size / 16 * 16) else (errNone, state)) =
      (0, { state with memory := state.memory.write desAdr (size / 16 * 16) rest }) := by
    split_ifs with some
    · rfl
    · rw [not_not.mp some, Mem.write_zero]
      rfl
  have spoiled := @stale_byte
    { state with memory := state.memory.write desAdr (size / 16 * 16) rest } _ 16 16 (size % 16)
    (fun i => rest (size / 16 * 16 + i)) refused (by omega) (by decide)
  unfold partialBlock
  rw [if_neg part]
  simp only [front, ne_eq, not_true_eq_false, if_false]
  exact spoiled

/-- The last line of a copy by large blocks. -/
theorem blockCopy_stale {state : NtRram} {desAdr : UInt32} {rest : Nat → UInt8} {remaining : Nat}
    (small : remaining < 2 ^ 24) (part : remaining % 16 ≠ 0)
    (refused : ¬ Readable (state.memory.write desAdr (remaining / 16 * 16) rest)
      (desAdr + UInt32.ofNat (remaining / 16 * 16)) 16) :
    (blockCopy completed state desAdr rest remaining).2.memory
        (desAdr + UInt32.ofNat (remaining / 16 * 16) + UInt32.ofNat 15) =
      state.tempRWBuff 15 := by
  have noCut : remaining / 16368 % 2 ^ 16 = remaining / 16368 := Nat.mod_eq_of_lt (by omega)
  have some : ¬ remaining % 16368 = 0 := by omega
  have sum : remaining / 16 * 16 =
      remaining / 16368 * 16368 + remaining % 16368 / 16 * 16 := by omega
  obtain ⟨after, result, kept⟩ :=
    fullBlocksLoop_completed rest (remaining / 16368) desAdr 0 state
  have front := (fullBlocksLoop_outcome completed rest (remaining / 16368) desAdr 0 state
    (by omega)).congr fun i _ => by rw [Nat.zero_add]
  rw [result] at front
  rw [sum, ← Mem.write_append _ _ _ _ _ (by omega) (by omega), ← front.exact rfl,
    UInt32.ofNat_add, ← UInt32.add_assoc] at refused
  have spoiled := partialBlock_stale (by omega) refused
  simp only [blockCopy, noCut, result, ne_eq, not_true_eq_false, if_false, some,
    not_false_eq_true, if_true]
  rw [sum, UInt32.ofNat_add, ← UInt32.add_assoc, ← kept]
  exact spoiled

/-- The last byte of a line is no lock byte. -/
theorem lockAddr_not_last {regionNum : UInt32} (small : regionNum < 24) (rdWrLock : UInt32) :
    (lockAddr regionNum rdWrLock).toNat % 16 ≠ 15 := by
  exact lockAddr_of_bytes (P := fun address => address.toNat % 16 ≠ 15) small rdWrLock (by decide)

/-- A read that is refused stays refused if the last byte of a line is written
differently before it. -/
theorem refused_update {done j : Nat} {source : Nat → UInt8} {address width : UInt32}
    (byte : UInt8) (last : (dst + UInt32.ofNat j).toNat % 16 = 15)
    (refused : ¬ Readable (memory.write dst done source) address width) :
    ¬ Readable (memory.write dst done (Function.update source j byte)) address width := by
  intro readable
  apply refused
  apply readable_congr _ readable
  intro regionNum small rdWrLock
  by_cases hit : InRange dst done (lockAddr regionNum rdWrLock)
  · rw [Mem.write_hit hit, Mem.write_hit hit]
    apply Function.update_of_ne
    intro here
    apply lockAddr_not_last small rdWrLock
    rw [← last, ← here, UInt32.ofNat_toNat, UInt32.add_comm, UInt32.sub_add_cancel]
  · rw [Mem.write_miss hit, Mem.write_miss hit]

end Spoiled

section Exactness

variable {memory : Mem UInt8} {dst srcAdr length : UInt32}

/-- Every write that returns 0 is exact. -/
def WriteExact (memory : Mem UInt8) (dst srcAdr length : UInt32) : Prop :=
  ∀ (temp source : Nat → UInt8) (dma : UInt32 → BlockAnswer) (after : NtRram),
    ntRramWrite dma ⟨memory, temp⟩ dst srcAdr source length = (0, after) →
      after.memory = memory.write dst length.toNat source

theorem restCopy_completed (state : NtRram) (source : Nat → UInt8) :
    (restCopy completed state dst srcAdr source length).1 = 0 := by
  unfold restCopy
  split_ifs
  · rfl
  · exact tempCopy_completed _ _ _ _
  · exact blockCopy_completed _ _ _ _

theorem ntRramWrite_unaligned (state : NtRram) (source : Nat → UInt8)
    (valid : ¬ (srcAdr = 0 ∨ length = 0))
    (accepted : rramAddressRangeCheck .app state.memory dst length writeLocked = 0)
    (unaligned : dst % 16 ≠ 0 ∨ srcAdr % 4 ≠ 0) :
    ntRramWrite completed state dst srcAdr source length =
      restCopy completed (headLine completed state dst source length).2 dst srcAdr source
        length := by
  unfold ntRramWrite
  rw [if_neg valid, if_neg (not_not.mpr accepted), if_pos unaligned]
  rfl

theorem ntRramWrite_aligned (state : NtRram) (source : Nat → UInt8)
    (valid : ¬ (srcAdr = 0 ∨ length = 0))
    (accepted : rramAddressRangeCheck .app state.memory dst length writeLocked = 0)
    (aligned : ¬ (dst % 16 ≠ 0 ∨ srcAdr % 4 ≠ 0)) :
    ntRramWrite completed state dst srcAdr source length =
      blockCopy completed state dst source length.toNat := by
  unfold ntRramWrite
  rw [if_neg valid, if_neg (not_not.mpr accepted), if_neg aligned]

/-- An accepted write whose transfers are completed returns 0. -/
theorem WriteExact.whole (exact : WriteExact memory dst srcAdr length)
    (valid : ¬ (srcAdr = 0 ∨ length = 0))
    (accepted : rramAddressRangeCheck .app memory dst length writeLocked = 0)
    (temp source : Nat → UInt8) :
    (ntRramWrite completed ⟨memory, temp⟩ dst srcAdr source length).2.memory =
      memory.write dst length.toNat source := by
  have whole := exact temp source completed
  have status : (ntRramWrite completed ⟨memory, temp⟩ dst srcAdr source length).1 = 0 := by
    by_cases unaligned : dst % 16 ≠ 0 ∨ srcAdr % 4 ≠ 0
    · rw [ntRramWrite_unaligned ⟨memory, temp⟩ source valid accepted unaligned]
      exact restCopy_completed _ _
    · rw [ntRramWrite_aligned ⟨memory, temp⟩ source valid accepted unaligned]
      exact blockCopy_completed _ _ _ _
  generalize ntRramWrite completed ⟨memory, temp⟩ dst srcAdr source length =
    result at whole status ⊢
  obtain ⟨_, after⟩ := result
  cases status
  exact whole after rfl

/-- Where an address counted from the first line lies in the range. -/
theorem line_distance {offset : Nat} (bound : offset < 2 ^ 32) :
    (dst - dst % 16 + UInt32.ofNat offset - dst).toNat =
      if (dst % 16).toNat ≤ offset then offset - (dst % 16).toNat
      else 2 ^ 32 + offset - (dst % 16).toNat := by
  have start : dst - dst % 16 + UInt32.ofNat (dst % 16).toNat = dst := by
    rw [UInt32.ofNat_toNat, UInt32.sub_add_cancel]
  have shifted := @Mem.distance_shift (dst - dst % 16) (dst - dst % 16 + UInt32.ofNat offset)
    (dst % 16).toNat (dst % 16).toNat_lt
  rwa [start, Mem.distance_add bound] at shifted

theorem next_ne (byte : UInt8) : byte ≠ byte + 1 := by
  intro same
  have one : (1 : UInt8).toNat = 1 := by decide
  have below := byte.toNat_lt
  have values := congrArg UInt8.toNat same
  rw [UInt8.toNat_add, one] at values
  omega

/-- A write of a length that wraps around is not complete. -/
theorem WriteExact.noWrap (exact : WriteExact memory dst srcAdr length)
    (valid : ¬ (srcAdr = 0 ∨ length = 0))
    (accepted : rramAddressRangeCheck .app memory dst length writeLocked = 0) :
    dst.toNat + length.toNat < 2 ^ 32 := by
  by_contra wraps
  have long : 2 ^ 31 + 16 < length.toNat := by
    rcases (rangeCheck_accepts .write).mp accepted with ⟨_, high, _⟩ | ⟨first, _⟩
    · omega
    · have firstIn := mainAddrCheck_iff.mp first
      have slack := @slack_le .app
      omega
  have probe := @line_distance dst (16 + 2 ^ 31) (by decide)
  have offset : (dst % 16).toNat = dst.toNat % 16 := UInt32.toNat_mod _ _
  rw [if_pos (by omega)] at probe
  generalize addressIs : dst - dst % 16 + UInt32.ofNat (16 + 2 ^ 31) = address at probe
  have all := exact.whole valid accepted (fun _ => 0) (fun _ => memory address + 1)
  have kept := ntRramWrite_confined completed ⟨memory, fun _ => 0⟩ dst srcAdr
    (fun _ => memory address + 1) length address (by
      unfold InRange
      rw [← addressIs, Mem.distance_add (by decide)]
      decide)
  have hit : InRange dst length.toNat address := by
    unfold InRange
    omega
  rw [all, Mem.write_hit hit] at kept
  exact next_ne _ kept.symm

/-- The read for the first line is granted. -/
theorem WriteExact.head (exact : WriteExact memory dst srcAdr length)
    (valid : ¬ (srcAdr = 0 ∨ length = 0))
    (accepted : rramAddressRangeCheck .app memory dst length writeLocked = 0)
    (noWrap : dst.toNat + length.toNat < 2 ^ 32)
    (unaligned : dst % 16 ≠ 0 ∨ srcAdr % 4 ≠ 0) (part : headCount dst length < 16) :
    Readable memory (dst - dst % 16) 16 := by
  by_contra refused
  have offset : (dst % 16).toNat = dst.toNat % 16 := UInt32.toNat_mod _ _
  -- A byte of the first line that does not belong to the range.
  obtain ⟨index, inLine, free, apart⟩ : ∃ index < 16,
      ¬ ((dst % 16).toNat ≤ index ∧ index < (dst % 16).toNat + headCount dst length) ∧
      ¬ InRange dst length.toNat (dst - dst % 16 + UInt32.ofNat index) := by
    have counts := part
    unfold headCount at counts
    by_cases low : (dst % 16).toNat = 0
    · refine ⟨15, by decide, by omega, ?_⟩
      unfold InRange
      rw [line_distance (by decide), if_pos (by omega)]
      split_ifs at counts <;> omega
    · refine ⟨0, by decide, by omega, ?_⟩
      unfold InRange
      rw [line_distance (by decide), if_neg (by omega)]
      omega
  generalize addressIs : dst - dst % 16 + UInt32.ofNat index = address at apart
  have inside : InRange (dst - dst % 16) 16 address := by
    rw [← addressIs]
    exact Mem.inRange_add inLine (by omega)
  have all := exact.whole valid accepted (fun _ => memory address + 1) (fun _ => 0)
  rw [ntRramWrite_unaligned ⟨memory, fun _ => memory address + 1⟩ (fun _ => 0) valid accepted
    unaligned] at all
  have behind : ¬ InRange (dst - dst % 16 + UInt32.ofNat 16) (2 ^ 31) address := by
    have near : (address - (dst - dst % 16)).toNat < 16 := inside
    unfold InRange
    rw [Mem.distance_shift (by decide), if_neg (by omega)]
    omega
  have later := @restCopy_confined dst srcAdr length completed
    (headLine completed ⟨memory, fun _ => memory address + 1⟩ dst (fun _ => 0) length).2
    (fun _ => 0) address behind
  rw [all, Mem.write_miss apart] at later
  have stale : (headLine completed ⟨memory, fun _ => memory address + 1⟩ dst (fun _ => 0)
      length).2.memory address = memory address + 1 := by
    unfold headLine
    simp only
    rw [@patchTemp_refused ⟨memory, fun _ => memory address + 1⟩ _ _ _ _ _ refused,
      writeTemp_completed]
    simp only
    rw [Mem.write_hit inside, overlay, ← addressIs, Mem.distance_add (by omega), if_neg free]
  exact next_ne _ (later.trans stale)

/-- Behind the end of a range nothing is written. -/
theorem write_behind {source : Nat → UInt8} {count offset : Nat} (behind : count ≤ offset)
    (bound : offset < 2 ^ 32) :
    memory.write dst count source (dst + UInt32.ofNat offset) =
      memory (dst + UInt32.ofNat offset) := by
  apply Mem.write_miss
  unfold InRange
  rw [Mem.distance_add bound]
  exact Nat.not_lt.mpr behind

/-- The read for the last line of an aligned write is granted. -/
theorem WriteExact.tail (exact : WriteExact memory dst srcAdr length)
    (valid : ¬ (srcAdr = 0 ∨ length = 0))
    (accepted : rramAddressRangeCheck .app memory dst length writeLocked = 0)
    (aligned : ¬ (dst % 16 ≠ 0 ∨ srcAdr % 4 ≠ 0)) (small : length.toNat < 2 ^ 24)
    (part : length.toNat % 16 ≠ 0) (source : Nat → UInt8) :
    Readable (memory.write dst (length.toNat / 16 * 16) source)
      (dst + UInt32.ofNat (length.toNat / 16 * 16)) 16 := by
  by_contra refused
  have place : dst + UInt32.ofNat (length.toNat / 16 * 16) + UInt32.ofNat 15 =
      dst + UInt32.ofNat (length.toNat / 16 * 16 + 15) := by
    rw [UInt32.ofNat_add, UInt32.add_assoc]
  generalize addressIs : dst + UInt32.ofNat (length.toNat / 16 * 16 + 15) = address at place
  have stale := @blockCopy_stale ⟨memory, fun _ => memory address + 1⟩ dst source length.toNat
    small part refused
  have all := exact.whole valid accepted (fun _ => memory address + 1) source
  rw [ntRramWrite_aligned ⟨memory, fun _ => memory address + 1⟩ source valid accepted
    aligned] at all
  rw [all, place, ← addressIs, write_behind (by omega) (by omega), addressIs] at stale
  exact next_ne _ stale

/-- The temporary buffer behind the first line. -/
theorem headLine_temp (dma : UInt32 → BlockAnswer) (state : NtRram) (source : Nat → UInt8)
    (full : (dst % 16).toNat + headCount dst length = 16) (more : 0 < headCount dst length) :
    (headLine dma state dst source length).2.tempRWBuff 15 =
        source (headCount dst length - 1) ∧
      (headLine dma state dst source length).2.tempRWBuff 255 = state.tempRWBuff 255 := by
  have last : 15 - (dst % 16).toNat = headCount dst length - 1 := by omega
  have width : (16 : UInt32).toNat = 16 := by decide
  constructor
  · show overlay _ (dst % 16).toNat (headCount dst length) source 15 = _
    rw [overlay, if_pos (by omega), last]
  · show overlay (rramRead .app state.memory (dst - dst % 16) state.tempRWBuff 16).2
      (dst % 16).toNat (headCount dst length) source 255 = _
    rw [overlay, if_neg (by omega), rramRead, rramReadWith]
    split_ifs
    · rfl
    · rfl
    · simp only
      rw [overlay, if_neg (by omega)]

/-- Behind a first line whose read is granted. -/
theorem WriteExact.rest (exact : WriteExact memory dst srcAdr length)
    (valid : ¬ (srcAdr = 0 ∨ length = 0))
    (accepted : rramAddressRangeCheck .app memory dst length writeLocked = 0)
    (unaligned : dst % 16 ≠ 0 ∨ srcAdr % 4 ≠ 0)
    (head : headCount dst length < 16 → Readable memory (dst - dst % 16) 16)
    (full : (dst % 16).toNat + headCount dst length = 16) (temp source : Nat → UInt8) :
    ∃ state : NtRram, state.memory = memory.write dst (headCount dst length) source ∧
      state.tempRWBuff 15 = source (headCount dst length - 1) ∧
      state.tempRWBuff 255 = temp 255 ∧
      (restCopy completed state dst srcAdr source length).2.memory =
        memory.write dst length.toNat source := by
  have offset : (dst % 16).toNat = dst.toNat % 16 := UInt32.toNat_mod _ _
  have written := @headLine_outcome dst length completed ⟨memory, temp⟩ source head
  have buffer := @headLine_temp dst length completed ⟨memory, temp⟩ source full (by omega)
  have all := exact.whole valid accepted temp source
  rw [ntRramWrite_unaligned ⟨memory, temp⟩ source valid accepted unaligned] at all
  exact ⟨_, written.exact rfl, buffer.1, buffer.2, all⟩

/-- The bytes of the first line and of the copy behind it are one write. -/
theorem write_head_rest (source : Nat → UInt8) {count : Nat} (small : length.toNat < 2 ^ 24)
    (within : count ≤ length.toNat) :
    (memory.write dst (headCount dst length) source).write
        (dst + UInt32.ofNat (headCount dst length)) count
        (fun i => source (headCount dst length + i)) =
      memory.write dst (headCount dst length + count) source := by
  have counts := @headCount_le dst length
  exact Mem.write_append _ _ _ _ _ (by omega) (by omega)

/-- The byte before a line behind the first one is the last of its line. -/
theorem last_of_line {count : Nat} (full : (dst % 16).toNat + headCount dst length = 16)
    (lines : count % 16 = 0) :
    (dst + UInt32.ofNat (headCount dst length + count - 1)).toNat % 16 = 15 := by
  have offset : (dst % 16).toNat = dst.toNat % 16 := UInt32.toNat_mod _ _
  rw [UInt32.toNat_add, UInt32.toNat_ofNat']
  omega

/-- The read for the last block of a copy through the temporary buffer is granted:
the buffer would keep the last byte of the block before it. -/
theorem WriteExact.tempTail (exact : WriteExact memory dst srcAdr length)
    (valid : ¬ (srcAdr = 0 ∨ length = 0))
    (accepted : rramAddressRangeCheck .app memory dst length writeLocked = 0)
    (small : length.toNat < 2 ^ 24) (unaligned : dst % 16 ≠ 0 ∨ srcAdr % 4 ≠ 0)
    (head : headCount dst length < 16 → Readable memory (dst - dst % 16) 16)
    (special : (srcAdr + UInt32.ofNat (headCount dst length)) % 4 ≠ 0) {remaining : Nat}
    (remainingIs : length.toNat - headCount dst length = remaining)
    (part : remaining % 256 ≠ 0) (source : Nat → UInt8) :
    Readable (memory.write dst (headCount dst length + remaining / 256 * 256) source)
      (dst - dst % 16 + 16 + UInt32.ofNat (remaining / 256 * 256)) 256 := by
  by_contra refused
  have more : ¬ remaining = 0 := by omega
  have full := @headCount_full dst length (by omega)
  have counts := @headCount_le dst length
  generalize countIs : remaining / 256 * 256 = count at refused
  have place : dst - dst % 16 + 16 + UInt32.ofNat count + UInt32.ofNat 255 =
      dst + UInt32.ofNat (headCount dst length + count + 255) := by
    rw [nextLine_eq full, UInt32.ofNat_add, UInt32.ofNat_add, UInt32.add_assoc, UInt32.add_assoc,
      UInt32.add_assoc]
  generalize addressIs : dst + UInt32.ofNat (headCount dst length + count + 255) = address
    at place
  obtain ⟨state, memoryIs, _, temp, all⟩ := exact.rest valid accepted unaligned head full
    (fun _ => memory address + 1)
    (Function.update source (headCount dst length + count - 1) (memory address + 1))
  have still := refused_update (memory address + 1)
    (@last_of_line dst length count full (by omega)) refused
  rw [← write_head_rest _ small (by omega), ← memoryIs, ← countIs, nextLine_eq full] at still
  have stale := tempCopy_stale (by omega) part still
  rw [restCopy, remainingIs, if_neg more, if_pos special] at all
  rw [← nextLine_eq full, countIs, all, place, ← addressIs, write_behind (by omega) (by omega),
    addressIs] at stale
  apply next_ne (memory address)
  apply stale.trans
  split_ifs with none
  · exact temp
  · have last : headCount dst length + (count - 1) = headCount dst length + count - 1 := by omega
    rw [last, Function.update_self]

/-- The read for the last line of a copy by large blocks is granted: the buffer
would keep the last byte of the first line. -/
theorem WriteExact.blockTail (exact : WriteExact memory dst srcAdr length)
    (valid : ¬ (srcAdr = 0 ∨ length = 0))
    (accepted : rramAddressRangeCheck .app memory dst length writeLocked = 0)
    (small : length.toNat < 2 ^ 24) (unaligned : dst % 16 ≠ 0 ∨ srcAdr % 4 ≠ 0)
    (head : headCount dst length < 16 → Readable memory (dst - dst % 16) 16)
    (wordAligned : ¬ (srcAdr + UInt32.ofNat (headCount dst length)) % 4 ≠ 0) {remaining : Nat}
    (remainingIs : length.toNat - headCount dst length = remaining)
    (part : remaining % 16 ≠ 0) (source : Nat → UInt8) :
    Readable (memory.write dst (headCount dst length + remaining / 16 * 16) source)
      (dst - dst % 16 + 16 + UInt32.ofNat (remaining / 16 * 16)) 16 := by
  by_contra refused
  have more : ¬ remaining = 0 := by omega
  have full := @headCount_full dst length (by omega)
  have counts := @headCount_le dst length
  generalize countIs : remaining / 16 * 16 = count at refused
  have place : dst - dst % 16 + 16 + UInt32.ofNat count + UInt32.ofNat 15 =
      dst + UInt32.ofNat (headCount dst length + count + 15) := by
    rw [nextLine_eq full, UInt32.ofNat_add, UInt32.ofNat_add, UInt32.add_assoc, UInt32.add_assoc,
      UInt32.add_assoc]
  generalize addressIs : dst + UInt32.ofNat (headCount dst length + count + 15) = address at place
  obtain ⟨state, memoryIs, temp, _, all⟩ := exact.rest valid accepted unaligned head full
    (fun _ => 0) (Function.update source (headCount dst length - 1) (memory address + 1))
  have still := refused_update (memory address + 1)
    (@last_of_line dst length 0 full (by omega)) refused
  rw [Nat.add_zero, ← write_head_rest _ small (by omega), ← memoryIs, ← countIs,
    nextLine_eq full] at still
  have stale := blockCopy_stale (by omega) part still
  rw [restCopy, remainingIs, if_neg more, if_neg wordAligned] at all
  rw [← nextLine_eq full, all, countIs, place, ← addressIs, write_behind (by omega) (by omega),
    addressIs, temp, Function.update_self] at stale
  exact next_ne _ stale

/-- An accepted range that does not wrap around is short. -/
theorem accepted_short {driver : RramDriver}
    (accepted : rramAddressRangeCheck driver memory dst length writeLocked = 0)
    (noWrap : dst.toNat + length.toNat < 2 ^ 32) : length.toNat < 2 ^ 24 := by
  rcases (rangeCheck_accepts .write).mp accepted with ⟨_, high, _⟩ | ⟨_, last⟩
  · omega
  · have slack := @slack_le driver
    have lastIn := mainAddrCheck_iff.mp last
    rw [UInt32.toNat_add, Nat.mod_eq_of_lt noWrap] at lastIn
    omega

/-- The reads of an exact write are granted. -/
theorem WriteExact.granted (exact : WriteExact memory dst srcAdr length)
    (valid : ¬ (srcAdr = 0 ∨ length = 0))
    (accepted : rramAddressRangeCheck .app memory dst length writeLocked = 0)
    (noWrap : dst.toNat + length.toNat < 2 ^ 32) (source : Nat → UInt8) :
    ReadsGranted memory dst srcAdr length source := by
  have small := accepted_short accepted noWrap
  intro read member
  unfold rmwReads at member
  by_cases unaligned : dst % 16 ≠ 0 ∨ srcAdr % 4 ≠ 0
  · rw [if_pos unaligned] at member
    have head := exact.head valid accepted noWrap unaligned
    rcases List.mem_append.mp member with first | rest
    · split_ifs at first with part
      · rw [List.mem_singleton.mp first, Mem.write_zero]
        exact head part
      · cases first
    · split_ifs at rest with special
      · unfold Rram.tempTail at rest
        split_ifs at rest with part
        · rw [List.mem_singleton.mp rest]
          exact exact.tempTail valid accepted small unaligned head special rfl part source
        · cases rest
      · unfold Rram.blockTail at rest
        split_ifs at rest with part
        · rw [List.mem_singleton.mp rest]
          exact exact.blockTail valid accepted small unaligned head special rfl part source
        · cases rest
  · rw [if_neg unaligned] at member
    unfold Rram.blockTail at member
    split_ifs at member with part
    · rw [List.mem_singleton.mp member, Nat.zero_add]
      exact exact.tail valid accepted unaligned small part source
    · cases member

/-- The write of the application is exact, whatever the source and the temporary
buffer hold, if and only if it is refused, or its range does not wrap around and
the reads that complete its first line and its last line or block are granted. -/
theorem ntRramWrite_exact_iff (memory : Mem UInt8) (dst srcAdr length : UInt32) :
    (∀ (temp source : Nat → UInt8) (dma : UInt32 → BlockAnswer) (after : NtRram),
      ntRramWrite dma ⟨memory, temp⟩ dst srcAdr source length = (0, after) →
        after.memory = memory.write dst length.toNat source) ↔
      (srcAdr ≠ 0 → length ≠ 0 →
        rramAddressRangeCheck .app memory dst length writeLocked = 0 →
        dst.toNat + length.toNat < 2 ^ 32 ∧
          ∀ source, ReadsGranted memory dst srcAdr length source) := by
  constructor
  · intro exact source nonempty accepted
    have valid : ¬ (srcAdr = 0 ∨ length = 0) := not_or.mpr ⟨source, nonempty⟩
    have noWrap := WriteExact.noWrap exact valid accepted
    exact ⟨noWrap, WriteExact.granted exact valid accepted noWrap⟩
  · intro fine temp source dma after result
    by_cases valid : srcAdr = 0 ∨ length = 0
    · rw [ntRramWrite, if_pos valid] at result
      cases result
    by_cases refused : rramAddressRangeCheck .app memory dst length writeLocked ≠ 0
    · rw [ntRramWrite, if_neg valid, if_pos refused] at result
      cases result
    have accepted := not_not.mp refused
    obtain ⟨noWrap, granted⟩ :=
      fine (fun null => valid (Or.inl null)) (fun empty => valid (Or.inr empty)) accepted
    have outcome := ntRramWrite_outcome dma ⟨memory, temp⟩ (accepted_short accepted noWrap)
      (granted source)
    rw [result] at outcome
    exact outcome.exact rfl

/-- Four bytes shortly before the end of the RRAM: the check refuses to read the
last line, and its first four bytes are replaced by what the buffer holds. -/
theorem ntRramWrite_spoils_last_line :
    ∃ after, ntRramWrite completed ⟨fun _ => 0, fun _ => 0xA5⟩ 0x37FFF4 0x20000000
        (fun _ => 1) 4 = (0, after) ∧
      after.memory 0x37FFF0 = 0xA5 ∧
      after.memory ≠ Mem.write (fun _ => 0) 0x37FFF4 4 (fun _ => 1) := by
  have spoiled : (ntRramWrite completed ⟨fun _ => 0, fun _ => 0xA5⟩ 0x37FFF4 0x20000000
      (fun _ => 1) 4).2.memory 0x37FFF0 = 0xA5 := by decide
  refine ⟨_, rfl, spoiled, ?_⟩
  intro exact
  have byte := spoiled.symm.trans (congrFun exact 0x37FFF0)
  revert byte
  decide

end Exactness

end QHal.Rram
