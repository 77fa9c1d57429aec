/-
Module: QHal.Rram.NtMem
Purpose: The RRAM write of the application, qhw_support/src/nt_mem.c built with
  RRAM_WRITE_VIA_DXE: an unaligned first line, a copy through the temporary
  buffer for a source that is not word aligned, a copy by large blocks
  otherwise, and the lock of an OTP region.
Trusted boundary: the outcome of the DXE transfer of each block
Main exports: NtRram, BlockAnswer, ntRramWriteWithRetry, ntRramWrite, NtCall,
  NtCall.run
-/
import QHal.Rram.BlMem

namespace QHal.Rram

/-- The memory and `temp_r_w_buff`, which keeps its contents between calls. -/
structure NtRram where
  memory : Mem UInt8
  tempRWBuff : Nat → UInt8

/-- What comes of the transfer of a block and its repetitions: `none` if it was
completed, and otherwise the bits that have reached the new value. -/
abbrev BlockAnswer := Option (Nat → UInt8)

/-- `nt_rram_write_with_retry`. -/
def ntRramWriteWithRetry (dma : UInt32 → BlockAnswer) (memory : Mem UInt8) (dst : UInt32)
    (wdata : Nat → UInt8) (length : Nat) : Int × Mem UInt8 :=
  match dma dst with
  | none => (errNone, memory.write dst length wdata)
  | some torn =>
      (ebade, memory.write dst length fun i => blend (memory.cells dst i) (wdata i) (torn i))

/-- A write of the first bytes of the temporary buffer. -/
def writeTemp (dma : UInt32 → BlockAnswer) (state : NtRram) (desAdr : UInt32) (length : Nat) :
    Int × NtRram :=
  let (status, memory) :=
    ntRramWriteWithRetry dma state.memory desAdr state.tempRWBuff length
  (status, { state with memory := memory })

/-- A write straight from the source. -/
def writeSource (dma : UInt32 → BlockAnswer) (state : NtRram) (desAdr : UInt32)
    (srcAdr : Nat → UInt8) (length : Nat) : Int × NtRram :=
  let (status, memory) := ntRramWriteWithRetry dma state.memory desAdr srcAdr length
  (status, { state with memory := memory })

/-- `nt_rram_read` into the temporary buffer, whose status nothing looks at, and
the bytes of the source laid over it. -/
def patchTemp (state : NtRram) (desAdr length : UInt32) (offset count : Nat)
    (srcAdr : Nat → UInt8) : NtRram :=
  let (_, buffer) := rramRead .app state.memory desAdr state.tempRWBuff length
  { state with tempRWBuff := Mem.overlay buffer offset count srcAdr }

/-- `temp_num_byte` of the first line: the bytes that fit into it. -/
def headCount (dst length : UInt32) : Nat :=
  if 16 - (dst % 16).toNat < length.toNat then 16 - (dst % 16).toNat else length.toNat

/-- The first line, if the destination or the source is not aligned. -/
def headLine (dma : UInt32 → BlockAnswer) (state : NtRram) (dst : UInt32)
    (srcAdr : Nat → UInt8) (length : UInt32) : Int × NtRram :=
  let desAdr := dst - dst % 16
  let state := patchTemp state desAdr 16 (dst % 16).toNat (headCount dst length) srcAdr
  writeTemp dma state desAdr 16

/-- The two loops over full blocks: `write` transfers the block of the source at
position `src`, and both pointers move on by its width. -/
def blocksLoopWith (write : NtRram → UInt32 → Nat → Int × NtRram) (width : Nat) :
    Nat → UInt32 → Nat → NtRram → Int × NtRram
  | 0, _, _, state => (errNone, state)
  | blocks + 1, desAdr, src, state =>
      let (status, state) := write state desAdr src
      if status ≠ 0 then (status, state)
      else blocksLoopWith write width blocks (desAdr + UInt32.ofNat width) (src + width) state

/-- A block of the source, copied into the temporary buffer and written from
there. -/
def writeThroughTemp (dma : UInt32 → BlockAnswer) (srcAdr : Nat → UInt8) (state : NtRram)
    (desAdr : UInt32) (src : Nat) : Int × NtRram :=
  writeTemp dma { state with
    tempRWBuff := Mem.overlay state.tempRWBuff 0 256 fun i => srcAdr (src + i) } desAdr 256

/-- The loop over the full blocks of the temporary buffer. -/
def tempBlocksLoop (dma : UInt32 → BlockAnswer) (srcAdr : Nat → UInt8) :
    Nat → UInt32 → Nat → NtRram → Int × NtRram :=
  blocksLoopWith (writeThroughTemp dma srcAdr) 256

/-- The copy of a source that is not word aligned.  The number of blocks is a
16-bit variable. -/
def tempCopy (dma : UInt32 → BlockAnswer) (state : NtRram) (desAdr : UInt32)
    (srcAdr : Nat → UInt8) (remainingByte : Nat) : Int × NtRram :=
  let fullBlockNum := remainingByte / 256 % 2 ^ 16
  let partialBlockSize := remainingByte % 256
  let (status, state) := tempBlocksLoop dma srcAdr fullBlockNum desAdr 0 state
  if status ≠ 0 then (status, state)
  else if partialBlockSize ≠ 0 then
    let desAdr := desAdr + UInt32.ofNat (fullBlockNum * 256)
    let state := patchTemp state desAdr 256 0 partialBlockSize
      fun i => srcAdr (fullBlockNum * 256 + i)
    writeTemp dma state desAdr 256
  else (status, state)

/-- The loop over the full blocks of `RRAM_WRITE_BLOCK_MAX_SIZE` bytes. -/
def fullBlocksLoop (dma : UInt32 → BlockAnswer) (srcAdr : Nat → UInt8) :
    Nat → UInt32 → Nat → NtRram → Int × NtRram :=
  blocksLoopWith (fun state desAdr src =>
    writeSource dma state desAdr (fun i => srcAdr (src + i)) 16368) 16368

/-- The partial block: its whole lines, and a last line that is completed from
the RRAM. -/
def partialBlock (dma : UInt32 → BlockAnswer) (state : NtRram) (desAdr : UInt32)
    (srcAdr : Nat → UInt8) (partialBlockSize : Nat) : Int × NtRram :=
  if partialBlockSize % 16 = 0 then writeSource dma state desAdr srcAdr partialBlockSize
  else
    let tempNumByte := partialBlockSize / 16 * 16
    let (status, state) :=
      if tempNumByte ≠ 0 then writeSource dma state desAdr srcAdr tempNumByte
      else (errNone, state)
    if status ≠ 0 then (status, state)
    else
      let desAdr := desAdr + UInt32.ofNat tempNumByte
      let state := patchTemp state desAdr 16 0 (partialBlockSize % 16)
        fun i => srcAdr (tempNumByte + i)
      writeTemp dma state desAdr 16

/-- The copy by large blocks.  The number of blocks is a 16-bit variable. -/
def blockCopy (dma : UInt32 → BlockAnswer) (state : NtRram) (desAdr : UInt32)
    (srcAdr : Nat → UInt8) (remainingByte : Nat) : Int × NtRram :=
  let fullBlockNum := remainingByte / 16368 % 2 ^ 16
  let partialBlockSize := remainingByte % 16368
  let (status, state) := fullBlocksLoop dma srcAdr fullBlockNum desAdr 0 state
  if status ≠ 0 then (status, state)
  else if partialBlockSize ≠ 0 then
    partialBlock dma state (desAdr + UInt32.ofNat (fullBlockNum * 16368))
      (fun i => srcAdr (fullBlockNum * 16368 + i)) partialBlockSize
  else (status, state)

/-- `nt_rram_write`.  `srcAdr` is the address of the source and `wdata` its
contents. -/
def ntRramWrite (dma : UInt32 → BlockAnswer) (state : NtRram) (dst srcAdr : UInt32)
    (wdata : Nat → UInt8) (length : UInt32) : Int × NtRram :=
  if srcAdr = 0 ∨ length = 0 then (einval, state)
  else if rramAddressRangeCheck .app state.memory dst length writeLocked ≠ 0 then (efault, state)
  else if dst % 16 ≠ 0 ∨ srcAdr % 4 ≠ 0 then
    let (status, state) := headLine dma state dst wdata length
    if status ≠ 0 then (status, state)
    else
      let tempNumByte := headCount dst length
      let remainingByte := length.toNat - tempNumByte
      if remainingByte = 0 then (status, state)
      else
        let desAdr := dst - dst % 16 + 16
        let rest := fun i => wdata (tempNumByte + i)
        if (srcAdr + UInt32.ofNat tempNumByte) % 4 ≠ 0 then
          tempCopy dma state desAdr rest remainingByte
        else blockCopy dma state desAdr rest remainingByte
  else blockCopy dma state dst wdata length.toNat

/-- A call of the application's driver.  A lock writes its byte from a variable
at `srcAdr`. -/
inductive NtCall where
  | lock (regionNum rdWrLock srcAdr : UInt32) (dma : UInt32 → BlockAnswer)
  | write (dst srcAdr : UInt32) (wdata : Nat → UInt8) (length : UInt32)
      (dma : UInt32 → BlockAnswer)

/-- The state after a call. -/
def NtCall.run (state : NtRram) : NtCall → NtRram
  | .lock regionNum rdWrLock srcAdr dma =>
      (ntOtpRegionLockWith .app state.memory state
        (fun address byte => ntRramWrite dma state address srcAdr (fun _ => byte) 1)
        regionNum rdWrLock).2
  | .write dst srcAdr wdata length dma => (ntRramWrite dma state dst srcAdr wdata length).2

end QHal.Rram
