/-
Module: QHal.Proofs.NtRramWrite
Purpose: What the RRAM write of the application leaves in the memory.  A line
  or a block of the temporary buffer that is overwritten only in part is
  completed by a read whose status is dropped; if the range check refuses that
  read, the rest of the buffer is whatever was there before.
Trusted boundary: none
Main exports: Outcome, Confined, RmwRead, rmwReads, ReadsGranted, ntRramWrite_outcome
-/
import QHal.Rram.NtMem
import QHal.Proofs.OtpLocks

namespace QHal.Rram

open Mem (InRange Mixed overlay)

theorem add_ofNat_zero (address : UInt32) : address + UInt32.ofNat 0 = address :=
  UInt32.add_zero address

section Outcomes

variable {memory : Mem UInt8} {dst : UInt32} {data : Nat → UInt8}

/-- A write that changed nothing but its range, cut short or not, and that is
complete if it reports success. -/
structure Outcome (memory : Mem UInt8) (dst : UInt32) (count : Nat) (data : Nat → UInt8)
    (result : Int × NtRram) : Prop where
  mixed : Mixed Blended memory dst count data result.2.memory
  exact : result.1 = 0 → result.2.memory = memory.write dst count data

theorem Outcome.congr {count : Nat} {data' : Nat → UInt8} {result : Int × NtRram}
    (outcome : Outcome memory dst count data result) (same : ∀ i < count, data i = data' i) :
    Outcome memory dst count data' result where
  mixed := outcome.mixed.congr same
  exact := fun ok => (outcome.exact ok).trans (Mem.write_congr memory dst same)

/-- Nothing to write. -/
theorem Outcome.nothing {status : Int} {state : NtRram} :
    Outcome state.memory dst 0 data (status, state) where
  mixed := Mem.mixed_unchanged Blended.keeps state.memory dst 0 data
  exact := fun _ => (Mem.write_zero state.memory dst data).symm

/-- A write that was refused. -/
theorem Outcome.refused {status : Int} {state : NtRram} {count : Nat} (failed : status ≠ 0) :
    Outcome state.memory dst count data (status, state) where
  mixed := Mem.mixed_unchanged Blended.keeps state.memory dst count data
  exact := fun ok => absurd ok failed

/-- A write that failed is a longer write that failed. -/
theorem Outcome.extend {first : Nat} {status : Int} {state : NtRram} (second : Nat)
    (outcome : Outcome memory dst first data (status, state)) (failed : status ≠ 0) :
    Outcome memory dst (first + second) data (status, state) where
  mixed := outcome.mixed.extend Blended.keeps second
  exact := fun ok => absurd ok failed

/-- A write that goes on, unless it failed, with the bytes right behind it. -/
theorem Outcome.andThen {first second count : Nat} {status : Int} {state : NtRram}
    {next : Int × NtRram} (front : Outcome memory dst first data (status, state))
    (whole : first + second = count) (bound : count < 2 ^ 32)
    (back : state.memory = memory.write dst first data →
      Outcome state.memory (dst + UInt32.ofNat first) second (fun i => data (first + i)) next) :
    Outcome memory dst count data (if status ≠ 0 then (status, state) else next) := by
  subst whole
  by_cases failed : status ≠ 0
  · rw [if_pos failed]
    exact front.extend second failed
  · rw [if_neg failed]
    have sofar : state.memory = memory.write dst first data := front.exact (not_not.mp failed)
    have rest := back sofar
    constructor
    · exact front.mixed.append rest.mixed (by omega) (by omega)
    · intro ok
      rw [rest.exact ok, sofar]
      exact Mem.write_append memory dst first second data (by omega) (by omega)

/-- The transfer of one block. -/
theorem ntRramWriteWithRetry_spec (dma : UInt32 → BlockAnswer) (memory : Mem UInt8)
    (dst : UInt32) (wdata : Nat → UInt8) (length : Nat) :
    Mixed Blended memory dst length wdata
        (ntRramWriteWithRetry dma memory dst wdata length).2 ∧
      ((ntRramWriteWithRetry dma memory dst wdata length).1 = 0 →
        (ntRramWriteWithRetry dma memory dst wdata length).2 = memory.write dst length wdata) := by
  unfold ntRramWriteWithRetry
  cases dma dst with
  | none => exact ⟨Mem.mixed_write Blended.reaches memory dst length wdata, fun _ => rfl⟩
  | some torn =>
      refine ⟨blendWrite_mixed memory dst length wdata fun i _ => Blended.torn (torn i),
        fun ok => ?_⟩
      cases ok

theorem writeSource_outcome (dma : UInt32 → BlockAnswer) (state : NtRram) (desAdr : UInt32)
    (srcAdr : Nat → UInt8) (length : Nat) :
    Outcome state.memory desAdr length srcAdr (writeSource dma state desAdr srcAdr length) :=
  have spec := ntRramWriteWithRetry_spec dma state.memory desAdr srcAdr length
  ⟨spec.1, spec.2⟩

theorem writeTemp_outcome (dma : UInt32 → BlockAnswer) (state : NtRram) (desAdr : UInt32)
    (length : Nat) :
    Outcome state.memory desAdr length state.tempRWBuff (writeTemp dma state desAdr length) :=
  have spec := ntRramWriteWithRetry_spec dma state.memory desAdr state.tempRWBuff length
  ⟨spec.1, spec.2⟩

/-- Whether the read of `length` bytes is granted. -/
def Readable (memory : Mem UInt8) (address length : UInt32) : Prop :=
  rramAddressRangeCheck .app memory address length readLocked = 0

/-- The read, patch and write of a line or a block whose read is granted. -/
theorem patchTemp_outcome (dma : UInt32 → BlockAnswer) (state : NtRram) {desAdr width : UInt32}
    {bytes offset count : Nat} (srcAdr : Nat → UInt8) (widthIs : width.toNat = bytes)
    (nonzero : width ≠ 0) (inside : offset + count ≤ bytes)
    (readable : count < bytes → Readable state.memory desAdr width) :
    Outcome state.memory (desAdr + UInt32.ofNat offset) count srcAdr
      (writeTemp dma (patchTemp state desAdr width offset count srcAdr) desAdr bytes) := by
  subst widthIs
  have widthLt := width.toNat_lt
  have positive : 0 < width.toNat :=
    Nat.pos_of_ne_zero fun zero => nonzero (UInt32.toNat_inj.mp zero)
  have written := writeTemp_outcome dma (patchTemp state desAdr width offset count srcAdr) desAdr
    width.toNat
  have patched : ∀ i < width.toNat,
      (patchTemp state desAdr width offset count srcAdr).tempRWBuff i =
        overlay (state.memory.cells desAdr) offset count srcAdr i := by
    intro i below
    by_cases whole : count < width.toNat
    · have read : rramRead .app state.memory desAdr state.tempRWBuff width =
          (errNone, overlay state.tempRWBuff 0 width.toNat (state.memory.cells desAdr)) :=
        rramReadWith_granted _ nonzero (readable whole)
      simp only [patchTemp, read]
      have whole : overlay state.tempRWBuff 0 width.toNat (state.memory.cells desAdr) i =
          state.memory.cells desAdr i :=
        if_pos ⟨Nat.zero_le i, by omega⟩
      simp only [overlay] at whole ⊢
      rw [whole]
    · simp only [patchTemp, overlay]
      rw [if_pos (by omega), if_pos (by omega)]
  have same := written.congr patched
  constructor
  · exact Mixed.overlay Blended.stays same.mixed inside (by omega) (by omega)
  · intro ok
    rw [same.exact ok]
    exact Mem.write_overlay state.memory desAdr srcAdr inside (by omega) (by omega)

/-- A loop whose rounds each write one block. -/
theorem blocksLoopWith_outcome {write : NtRram → UInt32 → Nat → Int × NtRram} {width : Nat}
    {srcAdr : Nat → UInt8}
    (step : ∀ state desAdr src, Outcome state.memory desAdr width (fun i => srcAdr (src + i))
      (write state desAdr src)) :
    ∀ (blocks : Nat) (desAdr : UInt32) (src : Nat) (state : NtRram), blocks * width < 2 ^ 32 →
      Outcome state.memory desAdr (blocks * width) (fun i => srcAdr (src + i))
        (blocksLoopWith write width blocks desAdr src state) := by
  intro blocks
  induction blocks with
  | zero =>
      intro desAdr src state _
      rw [Nat.zero_mul]
      exact Outcome.nothing
  | succ blocks ih =>
      intro desAdr src state bound
      have split : (blocks + 1) * width = width + blocks * width := by
        rw [Nat.succ_mul, Nat.add_comm]
      have front := step state desAdr src
      rw [split] at bound ⊢
      rw [blocksLoopWith]
      generalize write state desAdr src = outcome at front ⊢
      obtain ⟨status, middle⟩ := outcome
      apply front.andThen rfl bound
      intro _
      have back := ih (desAdr + UInt32.ofNat width) (src + width) middle (by omega)
      exact back.congr fun i _ => by rw [Nat.add_assoc]

theorem tempBlocksLoop_outcome (dma : UInt32 → BlockAnswer) (srcAdr : Nat → UInt8)
    (blocks : Nat) (desAdr : UInt32) (src : Nat) (state : NtRram)
    (bound : blocks * 256 < 2 ^ 32) :
    Outcome state.memory desAdr (blocks * 256) (fun i => srcAdr (src + i))
      (tempBlocksLoop dma srcAdr blocks desAdr src state) := by
  apply blocksLoopWith_outcome _ blocks desAdr src state bound
  intro state desAdr src
  have written := writeTemp_outcome dma { state with
    tempRWBuff := overlay state.tempRWBuff 0 256 fun i => srcAdr (src + i) } desAdr 256
  apply written.congr
  intro i below
  exact if_pos ⟨Nat.zero_le i, by omega⟩

theorem fullBlocksLoop_outcome (dma : UInt32 → BlockAnswer) (srcAdr : Nat → UInt8)
    (blocks : Nat) (desAdr : UInt32) (src : Nat) (state : NtRram)
    (bound : blocks * 16368 < 2 ^ 32) :
    Outcome state.memory desAdr (blocks * 16368) (fun i => srcAdr (src + i))
      (fullBlocksLoop dma srcAdr blocks desAdr src state) :=
  blocksLoopWith_outcome (fun state desAdr _ => writeSource_outcome dma state desAdr _ 16368)
    blocks desAdr src state bound

/-- The copy of a source that is not word aligned, if the read that completes its
last block is granted. -/
theorem tempCopy_outcome (dma : UInt32 → BlockAnswer) (state : NtRram) (desAdr : UInt32)
    (srcAdr : Nat → UInt8) {remaining : Nat} (small : remaining < 2 ^ 24)
    (readable : remaining % 256 ≠ 0 →
      Readable (state.memory.write desAdr (remaining / 256 * 256) srcAdr)
        (desAdr + UInt32.ofNat (remaining / 256 * 256)) 256) :
    Outcome state.memory desAdr remaining srcAdr (tempCopy dma state desAdr srcAdr remaining) := by
  have noCut : remaining / 256 % 2 ^ 16 = remaining / 256 := Nat.mod_eq_of_lt (by omega)
  have front := tempBlocksLoop_outcome dma srcAdr (remaining / 256) desAdr 0 state (by omega)
  have front := front.congr fun i _ => by rw [Nat.zero_add]
  simp only [tempCopy, noCut]
  generalize tempBlocksLoop dma srcAdr (remaining / 256) desAdr 0 state = outcome at front ⊢
  obtain ⟨status, middle⟩ := outcome
  have whole : remaining / 256 * 256 + remaining % 256 = remaining := by omega
  apply front.andThen whole (by omega)
  intro sofar
  by_cases rest : remaining % 256 = 0
  · rw [if_neg (not_not.mpr rest), rest]
    exact Outcome.nothing
  · rw [if_pos rest]
    have tail := @patchTemp_outcome dma middle (desAdr + UInt32.ofNat (remaining / 256 * 256))
      256 256 0 (remaining % 256) (fun i => srcAdr (remaining / 256 * 256 + i)) (by decide)
      (by decide) (by omega) (fun _ => sofar ▸ readable rest)
    rwa [add_ofNat_zero] at tail

/-- The partial block, if the read that completes its last line is granted. -/
theorem partialBlock_outcome (dma : UInt32 → BlockAnswer) (state : NtRram) (desAdr : UInt32)
    (srcAdr : Nat → UInt8) {size : Nat} (small : size < 16368)
    (readable : size % 16 ≠ 0 →
      Readable (state.memory.write desAdr (size / 16 * 16) srcAdr)
        (desAdr + UInt32.ofNat (size / 16 * 16)) 16) :
    Outcome state.memory desAdr size srcAdr (partialBlock dma state desAdr srcAdr size) := by
  unfold partialBlock
  by_cases lines : size % 16 = 0
  · rw [if_pos lines]
    exact writeSource_outcome dma state desAdr srcAdr size
  · rw [if_neg lines]
    have front : Outcome state.memory desAdr (size / 16 * 16) srcAdr
        (if size / 16 * 16 ≠ 0 then writeSource dma state desAdr srcAdr (size / 16 * 16)
        else (errNone, state)) := by
      by_cases none : size / 16 * 16 = 0
      · rw [if_neg (not_not.mpr none), none]
        exact Outcome.nothing
      · rw [if_pos none]
        exact writeSource_outcome dma state desAdr srcAdr _
    simp only
    generalize (if size / 16 * 16 ≠ 0 then writeSource dma state desAdr srcAdr (size / 16 * 16)
      else (errNone, state)) = outcome at front ⊢
    obtain ⟨status, middle⟩ := outcome
    have whole : size / 16 * 16 + size % 16 = size := by omega
    apply front.andThen whole (by omega)
    intro sofar
    have tail := @patchTemp_outcome dma middle (desAdr + UInt32.ofNat (size / 16 * 16))
      16 16 0 (size % 16) (fun i => srcAdr (size / 16 * 16 + i)) (by decide) (by decide)
      (by omega) (fun _ => sofar ▸ readable lines)
    rwa [add_ofNat_zero] at tail

/-- The copy by large blocks, if the read that completes its last line is granted. -/
theorem blockCopy_outcome (dma : UInt32 → BlockAnswer) (state : NtRram) (desAdr : UInt32)
    (srcAdr : Nat → UInt8) {remaining : Nat} (small : remaining < 2 ^ 24)
    (readable : remaining % 16 ≠ 0 →
      Readable (state.memory.write desAdr (remaining / 16 * 16) srcAdr)
        (desAdr + UInt32.ofNat (remaining / 16 * 16)) 16) :
    Outcome state.memory desAdr remaining srcAdr
      (blockCopy dma state desAdr srcAdr remaining) := by
  have noCut : remaining / 16368 % 2 ^ 16 = remaining / 16368 := Nat.mod_eq_of_lt (by omega)
  have front := fullBlocksLoop_outcome dma srcAdr (remaining / 16368) desAdr 0 state (by omega)
  have front := front.congr fun i _ => by rw [Nat.zero_add]
  simp only [blockCopy, noCut]
  generalize fullBlocksLoop dma srcAdr (remaining / 16368) desAdr 0 state = outcome at front ⊢
  obtain ⟨status, middle⟩ := outcome
  have whole : remaining / 16368 * 16368 + remaining % 16368 = remaining := by omega
  apply front.andThen whole (by omega)
  intro sofar
  by_cases rest : remaining % 16368 = 0
  · rw [if_neg (not_not.mpr rest), rest]
    exact Outcome.nothing
  · rw [if_pos rest]
    apply partialBlock_outcome dma middle _ _ (Nat.mod_lt _ (by decide))
    intro lines
    have sum : remaining / 16368 * 16368 + remaining % 16368 / 16 * 16 =
        remaining / 16 * 16 := by omega
    rw [sofar, Mem.write_append _ _ _ _ _ (by omega) (by omega), sum, UInt32.add_assoc,
      ← UInt32.ofNat_add, sum]
    exact readable (by omega)

end Outcomes

section Confined

/-- Only cells of the range changed. -/
def Confined (memory : Mem UInt8) (base : UInt32) (count : Nat) (after : Mem UInt8) : Prop :=
  ∀ address, ¬ InRange base count address → after address = memory address

variable {memory middle after : Mem UInt8} {base : UInt32}

theorem Outcome.confined {count : Nat} {data : Nat → UInt8} {result : Int × NtRram}
    (outcome : Outcome memory base count data result) :
    Confined memory base count result.2.memory :=
  fun address => (outcome.mixed address).2

theorem Confined.mono {count more : Nat} (confined : Confined memory base count after)
    (le : count ≤ more) : Confined memory base more after :=
  fun address outside => confined address fun inside => outside (Nat.lt_of_lt_of_le inside le)

theorem Confined.append {first second : Nat} (front : Confined memory base first middle)
    (back : Confined middle (base + UInt32.ofNat first) second after)
    (bound : first + second ≤ 2 ^ 32) (small : first < 2 ^ 32) :
    Confined memory base (first + second) after := by
  intro address outside
  have notBack : ¬ InRange (base + UInt32.ofNat first) second address := by
    intro inside
    exact outside ((Mem.inRange_shift bound small).mp inside).2
  rw [back address notBack]
  exact front address fun inside => outside (Nat.lt_add_right second inside)

/-- The copy through the temporary buffer stays within the blocks it counted. -/
theorem tempCopy_confined (dma : UInt32 → BlockAnswer) (state : NtRram) (desAdr : UInt32)
    (srcAdr : Nat → UInt8) (remaining : Nat) :
    Confined state.memory desAdr (remaining / 256 % 2 ^ 16 * 256 + 256)
      (tempCopy dma state desAdr srcAdr remaining).2.memory := by
  have front := (tempBlocksLoop_outcome dma srcAdr (remaining / 256 % 2 ^ 16) desAdr 0 state
    (by omega)).confined
  simp only [tempCopy]
  generalize tempBlocksLoop dma srcAdr (remaining / 256 % 2 ^ 16) desAdr 0 state =
    outcome at front ⊢
  obtain ⟨status, middle⟩ := outcome
  simp only
  split_ifs with failed rest
  · exact front.mono (Nat.le_add_right _ _)
  · exact front.append (writeTemp_outcome dma _ _ 256).confined (by omega) (by omega)
  · exact front.mono (Nat.le_add_right _ _)

/-- The partial block stays within the lines it begins. -/
theorem partialBlock_confined (dma : UInt32 → BlockAnswer) (state : NtRram) (desAdr : UInt32)
    (srcAdr : Nat → UInt8) {size : Nat} (small : size < 16368) :
    Confined state.memory desAdr ((size + 15) / 16 * 16)
      (partialBlock dma state desAdr srcAdr size).2.memory := by
  unfold partialBlock
  by_cases lines : size % 16 = 0
  · rw [if_pos lines]
    exact (writeSource_outcome dma state desAdr srcAdr size).confined.mono (by omega)
  · rw [if_neg lines]
    have front : Confined state.memory desAdr (size / 16 * 16)
        (if size / 16 * 16 ≠ 0 then writeSource dma state desAdr srcAdr (size / 16 * 16)
        else (errNone, state)).2.memory := by
      split_ifs with some
      · exact (writeSource_outcome dma state desAdr srcAdr _).confined
      · exact fun _ _ => rfl
    simp only
    generalize (if size / 16 * 16 ≠ 0 then writeSource dma state desAdr srcAdr (size / 16 * 16)
      else (errNone, state)) = outcome at front ⊢
    obtain ⟨status, middle⟩ := outcome
    simp only
    split_ifs with failed
    · exact front.mono (by omega)
    · have both := front.append (writeTemp_outcome dma
        (patchTemp middle (desAdr + UInt32.ofNat (size / 16 * 16)) 16 0 (size % 16)
          fun i => srcAdr (size / 16 * 16 + i))
        (desAdr + UInt32.ofNat (size / 16 * 16)) 16).confined (by omega) (by omega)
      exact both.mono (by omega)

/-- The copy by large blocks stays within the blocks it counted and the lines of
the partial block. -/
theorem blockCopy_confined (dma : UInt32 → BlockAnswer) (state : NtRram) (desAdr : UInt32)
    (srcAdr : Nat → UInt8) (remaining : Nat) :
    Confined state.memory desAdr
      (remaining / 16368 % 2 ^ 16 * 16368 + (remaining % 16368 + 15) / 16 * 16)
      (blockCopy dma state desAdr srcAdr remaining).2.memory := by
  have front := (fullBlocksLoop_outcome dma srcAdr (remaining / 16368 % 2 ^ 16) desAdr 0 state
    (by omega)).confined
  simp only [blockCopy]
  generalize fullBlocksLoop dma srcAdr (remaining / 16368 % 2 ^ 16) desAdr 0 state =
    outcome at front ⊢
  obtain ⟨status, middle⟩ := outcome
  simp only
  split_ifs with failed rest
  · exact front.mono (Nat.le_add_right _ _)
  · exact front.append (partialBlock_confined dma middle _ _ (Nat.mod_lt _ (by decide)))
      (by omega) (by omega)
  · exact front.mono (Nat.le_add_right _ _)

/-- Whether a read is granted depends on the lock bytes only. -/
theorem readable_congr {one other : Mem UInt8} {address width : UInt32}
    (same : ∀ regionNum < 24, ∀ rdWrLock,
      one (lockAddr regionNum rdWrLock) = other (lockAddr regionNum rdWrLock)) :
    Readable one address width → Readable other address width := by
  have bits : ∀ region, RegionPermits one .read region → RegionPermits other .read region := by
    intro region free
    have small : lockNumOf region < 24 := by
      by_cases known : region < otpRegionLockMap.length
      · exact lockNumOf_small known
      · have none : otpRegionLockMap[region]? = none := List.getElem?_eq_none (Nat.not_lt.mp known)
        simp [lockNumOf, none]
    unfold RegionPermits at free ⊢
    rw [← lockBit_congr (same _ small _)]
    exact free
  intro readable
  apply (rangeCheck_accepts .read).mpr
  rcases (rangeCheck_accepts .read).mp readable with ⟨low, high, permits⟩ | main
  · left
    refine ⟨low, high, ?_⟩
    rcases permits with control | free
    · exact Or.inl control
    · exact Or.inr fun region lower upper => bits region (free region lower upper)
  · exact Or.inr main

end Confined

section Exactness

/-- A read that completes a line or a block: how many bytes of the range have
been written before it, where it reads, and how much. -/
structure RmwRead where
  done : Nat
  address : UInt32
  width : UInt32
deriving Repr, DecidableEq

/-- The read for the last line of a copy by large blocks. -/
def blockTail (done : Nat) (desAdr : UInt32) (remaining : Nat) : List RmwRead :=
  if remaining % 16 ≠ 0 then
    [⟨done + remaining / 16 * 16, desAdr + UInt32.ofNat (remaining / 16 * 16), 16⟩]
  else []

/-- The read for the last block of a copy through the temporary buffer. -/
def tempTail (done : Nat) (desAdr : UInt32) (remaining : Nat) : List RmwRead :=
  if remaining % 256 ≠ 0 then
    [⟨done + remaining / 256 * 256, desAdr + UInt32.ofNat (remaining / 256 * 256), 256⟩]
  else []

/-- The reads whose bytes a write puts back. -/
def rmwReads (dst srcAdr length : UInt32) : List RmwRead :=
  if dst % 16 ≠ 0 ∨ srcAdr % 4 ≠ 0 then
    (if headCount dst length < 16 then [⟨0, dst - dst % 16, 16⟩] else []) ++
      (if (srcAdr + UInt32.ofNat (headCount dst length)) % 4 ≠ 0 then
        tempTail (headCount dst length) (dst - dst % 16 + 16)
          (length.toNat - headCount dst length)
      else
        blockTail (headCount dst length) (dst - dst % 16 + 16)
          (length.toNat - headCount dst length))
  else blockTail 0 dst length.toNat

/-- Each of these reads is granted when its turn comes. -/
def ReadsGranted (memory : Mem UInt8) (dst srcAdr length : UInt32) (wdata : Nat → UInt8) : Prop :=
  ∀ read ∈ rmwReads dst srcAdr length,
    Readable (memory.write dst read.done wdata) read.address read.width

variable {memory : Mem UInt8} {dst srcAdr length : UInt32} {wdata : Nat → UInt8}

theorem mem_blockTail {done remaining : Nat} {desAdr : UInt32} (rest : remaining % 16 ≠ 0) :
    ⟨done + remaining / 16 * 16, desAdr + UInt32.ofNat (remaining / 16 * 16), 16⟩ ∈
      blockTail done desAdr remaining := by
  rw [blockTail, if_pos rest]
  exact List.mem_singleton_self _

theorem mem_tempTail {done remaining : Nat} {desAdr : UInt32} (rest : remaining % 256 ≠ 0) :
    ⟨done + remaining / 256 * 256, desAdr + UInt32.ofNat (remaining / 256 * 256), 256⟩ ∈
      tempTail done desAdr remaining := by
  rw [tempTail, if_pos rest]
  exact List.mem_singleton_self _

theorem headCount_le : headCount dst length ≤ length.toNat ∧
    (dst % 16).toNat + headCount dst length ≤ 16 := by
  have offset : (dst % 16).toNat = dst.toNat % 16 := UInt32.toNat_mod _ _
  unfold headCount
  split_ifs <;> omega

/-- Behind the first line there is something to write only if the line is full. -/
theorem headCount_full (more : length.toNat - headCount dst length ≠ 0) :
    (dst % 16).toNat + headCount dst length = 16 := by
  have offset : (dst % 16).toNat = dst.toNat % 16 := UInt32.toNat_mod _ _
  unfold headCount at more ⊢
  split_ifs at more ⊢ <;> omega

/-- The line behind a first line that is full. -/
theorem nextLine_eq (full : (dst % 16).toNat + headCount dst length = 16) :
    dst - dst % 16 + 16 = dst + UInt32.ofNat (headCount dst length) := by
  have whole : dst % 16 + UInt32.ofNat (headCount dst length) = 16 := by
    have sum := congrArg UInt32.ofNat full
    rwa [UInt32.ofNat_add, UInt32.ofNat_toNat] at sum
  generalize dst % 16 = low at whole ⊢
  rw [← whole, ← UInt32.add_assoc, UInt32.sub_add_cancel]

/-- The first line, if its read is granted. -/
theorem headLine_outcome (dma : UInt32 → BlockAnswer) (state : NtRram) (wdata : Nat → UInt8)
    (readable : headCount dst length < 16 → Readable state.memory (dst - dst % 16) 16) :
    Outcome state.memory dst (headCount dst length) wdata
      (headLine dma state dst wdata length) := by
  have line := @patchTemp_outcome dma state (dst - dst % 16) 16 16 (dst % 16).toNat
    (headCount dst length) wdata (by decide) (by decide) headCount_le.2 readable
  rwa [UInt32.ofNat_toNat, UInt32.sub_add_cancel] at line

/-- What follows the first line. -/
def restCopy (dma : UInt32 → BlockAnswer) (state : NtRram) (dst srcAdr : UInt32)
    (source : Nat → UInt8) (length : UInt32) : Int × NtRram :=
  if length.toNat - headCount dst length = 0 then (0, state)
  else if (srcAdr + UInt32.ofNat (headCount dst length)) % 4 ≠ 0 then
    tempCopy dma state (dst - dst % 16 + 16) (fun i => source (headCount dst length + i))
      (length.toNat - headCount dst length)
  else
    blockCopy dma state (dst - dst % 16 + 16) (fun i => source (headCount dst length + i))
      (length.toNat - headCount dst length)

/-- The rest of the write does not come back to the first line. -/
theorem restCopy_confined (dma : UInt32 → BlockAnswer) (state : NtRram) (source : Nat → UInt8) :
    Confined state.memory (dst - dst % 16 + 16) (2 ^ 31)
      (restCopy dma state dst srcAdr source length).2.memory := by
  unfold restCopy
  split_ifs
  · exact fun _ _ => rfl
  · exact (tempCopy_confined dma state _ _ _).mono (by omega)
  · exact (blockCopy_confined dma state _ _ _).mono (by omega)

theorem headLine_confined (dma : UInt32 → BlockAnswer) (state : NtRram) (source : Nat → UInt8) :
    Confined state.memory (dst - dst % 16) 16
      (headLine dma state dst source length).2.memory :=
  (writeTemp_outcome dma (patchTemp state (dst - dst % 16) 16 (dst % 16).toNat
    (headCount dst length) source) (dst - dst % 16) 16).confined

/-- A write changes nothing, or it is accepted and goes the one way or the other. -/
theorem ntRramWrite_cases (dma : UInt32 → BlockAnswer) (state : NtRram) (dst srcAdr : UInt32)
    (source : Nat → UInt8) (length : UInt32) :
    (ntRramWrite dma state dst srcAdr source length).2 = state ∨
      (0 < length.toNat ∧
        rramAddressRangeCheck .app state.memory dst length writeLocked = 0) ∧
        (dst % 16 = 0 ∧ (ntRramWrite dma state dst srcAdr source length).2 =
            (blockCopy dma state dst source length.toNat).2 ∨
          (ntRramWrite dma state dst srcAdr source length).2 =
            (headLine dma state dst source length).2 ∨
          (dst % 16 ≠ 0 ∨ srcAdr % 4 ≠ 0) ∧
            (ntRramWrite dma state dst srcAdr source length).2 =
              (restCopy dma (headLine dma state dst source length).2 dst srcAdr source
                length).2) := by
  unfold ntRramWrite
  by_cases invalid : srcAdr = 0 ∨ length = 0
  · rw [if_pos invalid]
    exact Or.inl rfl
  rw [if_neg invalid]
  by_cases refused : rramAddressRangeCheck .app state.memory dst length writeLocked ≠ 0
  · rw [if_pos refused]
    exact Or.inl rfl
  rw [if_neg refused]
  have nonempty : 0 < length.toNat :=
    Nat.pos_of_ne_zero fun zero => invalid (Or.inr (UInt32.toNat_inj.mp zero))
  refine Or.inr ⟨⟨nonempty, not_not.mp refused⟩, ?_⟩
  by_cases unaligned : dst % 16 ≠ 0 ∨ srcAdr % 4 ≠ 0
  · rw [if_pos unaligned]
    simp only
    by_cases failed : (headLine dma state dst source length).1 ≠ 0
    · rw [if_pos failed]
      exact Or.inr (Or.inl rfl)
    · rw [if_neg failed]
      refine Or.inr (Or.inr ⟨unaligned, ?_⟩)
      unfold restCopy
      split_ifs <;> rfl
  · rw [if_neg unaligned]
    exact Or.inl ⟨not_not.mp fun low => unaligned (Or.inl low), rfl⟩

/-- However long the write is, it does not get beyond half of the address space. -/
theorem ntRramWrite_confined (dma : UInt32 → BlockAnswer) (state : NtRram) (dst srcAdr : UInt32)
    (source : Nat → UInt8) (length : UInt32) :
    Confined state.memory (dst - dst % 16) (16 + 2 ^ 31)
      (ntRramWrite dma state dst srcAdr source length).2.memory := by
  have head := @headLine_confined dst length dma state source
  rcases ntRramWrite_cases dma state dst srcAdr source length with
    unchanged | ⟨_, ⟨aligned, copied⟩ | headOnly | ⟨_, both⟩⟩
  · rw [unchanged]
    exact fun _ _ => rfl
  · rw [copied, aligned, UInt32.sub_zero]
    exact (blockCopy_confined dma state dst source length.toNat).mono (by omega)
  · rw [headOnly]
    exact head.mono (by decide)
  · rw [both]
    exact head.append (restCopy_confined dma _ source) (by decide) (by decide)

/-- A write whose reads are granted. -/
theorem ntRramWrite_outcome (dma : UInt32 → BlockAnswer) (state : NtRram)
    (small : length.toNat < 2 ^ 24)
    (granted : ReadsGranted state.memory dst srcAdr length wdata) :
    Outcome state.memory dst length.toNat wdata
      (ntRramWrite dma state dst srcAdr wdata length) := by
  unfold ntRramWrite
  by_cases invalid : srcAdr = 0 ∨ length = 0
  · rw [if_pos invalid]
    exact Outcome.refused (by decide)
  rw [if_neg invalid]
  by_cases outside : rramAddressRangeCheck .app state.memory dst length writeLocked ≠ 0
  · rw [if_pos outside]
    exact Outcome.refused (by decide)
  rw [if_neg outside]
  unfold ReadsGranted rmwReads at granted
  by_cases unaligned : dst % 16 ≠ 0 ∨ srcAdr % 4 ≠ 0
  · rw [if_pos unaligned] at granted ⊢
    have front := @headLine_outcome dst length dma state wdata fun part => by
      have read := granted ⟨0, dst - dst % 16, 16⟩ (by simp [part])
      rwa [Mem.write_zero] at read
    simp only
    generalize headLine dma state dst wdata length = outcome at front ⊢
    obtain ⟨status, middle⟩ := outcome
    have counts := @headCount_le dst length
    have whole : headCount dst length + (length.toNat - headCount dst length) = length.toNat := by
      omega
    apply front.andThen whole (by omega)
    intro sofar
    by_cases none : length.toNat - headCount dst length = 0
    · rw [if_pos none, none]
      exact Outcome.nothing
    · rw [if_neg none]
      rw [nextLine_eq (headCount_full none)] at granted ⊢
      -- The bytes written so far and those of the copy are one write from `dst`.
      have later : ∀ done, done ≤ length.toNat →
          middle.memory.write (dst + UInt32.ofNat (headCount dst length)) done
              (fun i => wdata (headCount dst length + i)) =
            state.memory.write dst (headCount dst length + done) wdata := by
        intro done bound
        rw [sofar]
        exact Mem.write_append _ _ _ _ _ (by omega) (by omega)
      by_cases special : (srcAdr + UInt32.ofNat (headCount dst length)) % 4 ≠ 0
      · rw [if_pos special] at granted ⊢
        apply tempCopy_outcome dma middle _ _ (by omega)
        intro rest
        rw [later _ (by omega)]
        exact granted _ (List.mem_append_right _ (mem_tempTail rest))
      · rw [if_neg special] at granted ⊢
        apply blockCopy_outcome dma middle _ _ (by omega)
        intro rest
        rw [later _ (by omega)]
        exact granted _ (List.mem_append_right _ (mem_blockTail rest))
  · rw [if_neg unaligned] at granted ⊢
    apply blockCopy_outcome dma state dst wdata small
    intro lines
    have read := granted _ (mem_blockTail lines)
    rwa [Nat.zero_add] at read

end Exactness

end QHal.Rram
