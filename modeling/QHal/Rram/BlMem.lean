/-
Module: QHal.Rram.BlMem
Purpose: The RRAM driver of the boot loader, qboot/system/nt_bl_mem.c: the write
  by lines of 16 bytes and words of 32 bits, and the lock of an OTP region,
  whose body the two drivers share.
Trusted boundary: the answer of the RRAM controller to each 32-bit write
Main exports: WordAnswer, rramWriteStatus, ntBlRramWrite, ntOtpRegionLockWith,
  BlCall, BlCall.run
-/
import QHal.Rram.OtpMap

namespace QHal.Rram

/-- A bit pattern in which the bits of `torn` have reached the new value. -/
def blend (old new torn : UInt8) : UInt8 := (old &&& ~~~torn) ||| (new &&& torn)

/-- What comes of a 32-bit write and its repetitions: `none` if the word was
read back as written, and otherwise the bits that have reached the new value. -/
abbrev WordAnswer := Option (Nat → UInt8)

/-- `_rram_write_status`. -/
def rramWriteStatus (answer : WordAnswer) (memory : Mem UInt8) (address : UInt32)
    (data : Nat → UInt8) : Int × Mem UInt8 :=
  match answer with
  | none => (errNone, memory.write address 4 data)
  | some torn =>
      (ebade, memory.write address 4 fun i => blend (memory.cells address i) (data i) (torn i))

/-- The loop of `nt_bl_rram_write` over the words of a line from number
`wordIdx` on. -/
def wordsLoop (device : UInt32 → WordAnswer) (blockAddr : UInt32) (dstBlk : Nat → UInt8) :
    Nat → Nat → Mem UInt8 → Int × Mem UInt8
  | 0, _, memory => (errNone, memory)
  | words + 1, wordIdx, memory =>
      let address := blockAddr + UInt32.ofNat (wordIdx * 4)
      let (status, memory) :=
        rramWriteStatus (device address) memory address fun i => dstBlk (wordIdx * 4 + i)
      if status ≠ 0 then (ebade, memory)
      else wordsLoop device blockAddr dstBlk words (wordIdx + 1) memory

/-- The `do … while` of `nt_bl_rram_write`: the line buffer, the position in the
source and the bytes that remain.  It ends with the line, so 16 rounds are
enough. -/
def copyBlockLoop (source : Nat → UInt8) :
    Nat → Nat → Nat → Nat → (Nat → UInt8) → (Nat → UInt8) × Nat × Nat
  | 0, _, src, length, dstBlk => (dstBlk, src, length)
  | rounds + 1, byteIdx, src, length, dstBlk =>
      let dstBlk := fun i => if i = byteIdx then source src else dstBlk i
      if byteIdx + 1 < 16 ∧ 0 < length - 1 then
        copyBlockLoop source rounds (byteIdx + 1) (src + 1) (length - 1) dstBlk
      else (dstBlk, src + 1, length - 1)

/-- The loop of `nt_bl_rram_write` over the lines.  `byteIdx` is the offset into
the first of them; `dstBlk` is read back from the RRAM unless the whole line is
overwritten. -/
def blocksLoop (device : UInt32 → WordAnswer) (source : Nat → UInt8) :
    Nat → UInt32 → Nat → Nat → Nat → (Nat → UInt8) → Mem UInt8 → Int × Mem UInt8
  | 0, _, _, _, _, _, memory => (errNone, memory)
  | blocks + 1, blockAddr, byteIdx, src, length, dstBlk, memory =>
      let dstBlk := if 0 < byteIdx ∨ length < 16 then memory.cells blockAddr else dstBlk
      let (dstBlk, src, length) := copyBlockLoop source 16 byteIdx src length dstBlk
      let (status, memory) := wordsLoop device blockAddr dstBlk 4 0 memory
      if status ≠ 0 then (status, memory)
      else blocksLoop device source blocks (blockAddr + 16) 0 src length dstBlk memory

/-- The number of rounds of the loop over the lines. -/
def blockCount (firstBlockAddr lastBlockAddr : UInt32) : Nat :=
  if firstBlockAddr ≤ lastBlockAddr then (lastBlockAddr - firstBlockAddr).toNat / 16 + 1 else 0

/-- `nt_bl_rram_write`.  `stack` is what the line buffer holds at the entry. -/
def ntBlRramWrite (driver : RramDriver) (device : UInt32 → WordAnswer) (stack : Nat → UInt8)
    (memory : Mem UInt8) (dst : UInt32) (wdata : Nat → UInt8) (length : UInt32) :
    Int × Mem UInt8 :=
  if length = 0 then (einval, memory)
  else if rramAddressRangeCheck driver memory dst length writeLocked ≠ 0 then (einval, memory)
  else
    let firstBlockAddr := dst - dst % 16
    let lastBlockAddr := (dst + length - 1) - (dst + length - 1) % 16
    blocksLoop device wdata (blockCount firstBlockAddr lastBlockAddr) firstBlockAddr
      (dst % 16).toNat 0 length.toNat stack memory

/-- `nt_otp_region_lock` of both drivers.  `write` is the driver's write of one
byte from the current state, whose memory is `memory`. -/
def ntOtpRegionLockWith {σ : Type} (driver : RramDriver) (memory : Mem UInt8) (state : σ)
    (write : UInt32 → UInt8 → Int × σ) (regionNum rdWrLock : UInt32) : Int × σ :=
  if driver.maxRegion ≤ regionNum ∨ maxLocked ≤ rdWrLock then (einval, state)
  else if ntOtpRegionLocked driver memory (UInt32.ofNat rwPermissionRegion) writeLocked ≠ 0 then
    (eperm, state)
  else
    let (status, lockByte) :=
      rramRead driver memory (lockAddr regionNum rdWrLock) (fun _ => 0) 1
    if status ≠ 0 then (eio, state)
    else if (lockByte 0).toNat.testBit (regionNum % 8).toNat then (errNone, state)
    else
      let (status, state) := write (lockAddr regionNum rdWrLock)
        (lockByte 0 ||| (1 <<< (regionNum % 8).toUInt8))
      if status ≠ 0 then (eio, state) else (errNone, state)

/-- A call of the boot loader's driver with the answers of the hardware to it. -/
inductive BlCall where
  | lock (regionNum rdWrLock : UInt32) (device : UInt32 → WordAnswer) (stack : Nat → UInt8)
  | write (dst : UInt32) (wdata : Nat → UInt8) (length : UInt32)
      (device : UInt32 → WordAnswer) (stack : Nat → UInt8)

/-- The memory after a call. -/
def BlCall.run (driver : RramDriver) (memory : Mem UInt8) : BlCall → Mem UInt8
  | .lock regionNum rdWrLock device stack =>
      (ntOtpRegionLockWith driver memory memory
        (fun address byte => ntBlRramWrite driver device stack memory address (fun _ => byte) 1)
        regionNum rdWrLock).2
  | .write dst wdata length device stack =>
      (ntBlRramWrite driver device stack memory dst wdata length).2

end QHal.Rram
