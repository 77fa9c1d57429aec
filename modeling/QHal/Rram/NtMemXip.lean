/-
Module: QHal.Rram.NtMemXip
Purpose: The RRAM write of the application built with FLASH_XIP_SUPPORT: the bit
  SW_CACHE_TEST_MODE of RRAM_CTRL_TEST, which the write and every read clear and
  set, the reads of the lock bytes included.
Trusted boundary: the outcome of the DXE transfer of each block; whether reads go
  through the DXE engine, which the device configuration decides
Main exports: XipRram, rramReadXipWith, rangeCheckXip, ntRramWriteXip
-/
import QHal.Rram.NtMem

namespace QHal.Rram

/-! ## Reads -/

/-- A range check that starts with the bit in some state and leaves it in another. -/
abbrev RangeCheckXip := UInt32 → UInt32 → UInt32 → Bool → Int × Bool

/-- `nt_rram_read` with the range check it calls: the status, the caller's buffer
and the bit.  A read through the DXE engine does not set it again. -/
def rramReadXipWith (readByDxe : Bool) (check : RangeCheckXip) (memory : Mem UInt8)
    (address : UInt32) (rdata : Nat → UInt8) (length : UInt32) (swCacheTestMode : Bool) :
    (Int × (Nat → UInt8)) × Bool :=
  if length = 0 then ((einval, rdata), swCacheTestMode)
  else
    let (refused, swCacheTestMode) := check address length readLocked false
    if refused ≠ 0 then ((einval, rdata), true)
    else
      let rdata := Mem.overlay rdata 0 length.toNat (memory.cells address)
      if readByDxe then ((errNone, rdata), swCacheTestMode) else ((errNone, rdata), true)

/-- `nt_otp_region_locked`. -/
def ntOtpRegionLockedXipWith (readByDxe : Bool) (check : RangeCheckXip) (memory : Mem UInt8)
    (regionNum rdWrLock : UInt32) (swCacheTestMode : Bool) : Int × Bool :=
  if RramDriver.app.maxRegion ≤ regionNum ∨ maxLocked ≤ rdWrLock then (einval, swCacheTestMode)
  else
    let ((status, lockByte), swCacheTestMode) := rramReadXipWith readByDxe check memory
      (lockAddr regionNum rdWrLock) (fun _ => 0) 1 swCacheTestMode
    if status ≠ 0 then (eio, swCacheTestMode)
    else
      (if (lockByte 0).toNat.testBit (regionNum % 8).toNat then 1 else 0, swCacheTestMode)

/-- `check_otp_region_rw_permission`.  The loop goes through all regions. -/
def checkOtpRegionRwPermissionXip (regionLocked : UInt32 → UInt32 → Bool → Int × Bool)
    (address : UInt32) (length : UInt16) (rwLockCheck : UInt32) (swCacheTestMode : Bool) :
    Bool × Bool :=
  let startingRegionNo := addressToRegionNumMap address
  let endingRegionNo := addressToRegionNumMap (address + length.toUInt32)
  if otpRegionLockMap.length ≤ startingRegionNo ∨ otpRegionLockMap.length ≤ endingRegionNo then
    (false, swCacheTestMode)
  else if startingRegionNo = endingRegionNo ∧ startingRegionNo = rwPermissionRegion ∧
      rwLockCheck = readLocked then (true, swCacheTestMode)
  else
    (List.range' startingRegionNo (endingRegionNo + 1 - startingRegionNo)).foldl
      (fun (retValue, swCacheTestMode) region =>
        let (locked, swCacheTestMode) :=
          regionLocked (lockNumOf region) rwLockCheck swCacheTestMode
        (if locked ≠ 0 then false else retValue, swCacheTestMode))
      (true, swCacheTestMode)

/-- `rram_address_range_check`, with the nesting bounded as in `rangeCheckDepth`. -/
def rangeCheckXipDepth (readByDxe : Bool) (memory : Mem UInt8) : Nat → RangeCheckXip
  | 0, _, _, _, swCacheTestMode => (einval, swCacheTestMode)
  | depth + 1, rramAdd, dataLen, rdWrLock, swCacheTestMode =>
      let driver := RramDriver.app
      if driver.otpAddrCheck rramAdd = true ∧ driver.otpAddrCheck (rramAdd + dataLen) = true then
        let (granted, swCacheTestMode) := checkOtpRegionRwPermissionXip
          (ntOtpRegionLockedXipWith readByDxe (rangeCheckXipDepth readByDxe memory depth) memory)
          rramAdd dataLen.toUInt16 rdWrLock swCacheTestMode
        if granted = true then (errNone, swCacheTestMode) else (einval, swCacheTestMode)
      else if driver.otpAddrCheck rramAdd = true ∨
          driver.otpAddrCheck (rramAdd + dataLen) = true then (einval, swCacheTestMode)
      else if ¬ (driver.mainAddrCheck rramAdd = true ∨ driver.otpAddrCheck rramAdd = true) ∨
          ¬ (driver.mainAddrCheck (rramAdd + dataLen) = true ∨
            driver.otpAddrCheck (rramAdd + dataLen) = true) then (einval, swCacheTestMode)
      else (errNone, swCacheTestMode)

/-- `rram_address_range_check` on the memory. -/
def rangeCheckXip (readByDxe : Bool) (memory : Mem UInt8) : RangeCheckXip :=
  rangeCheckXipDepth readByDxe memory 2

/-! ## Writes -/

/-- The RRAM and the temporary buffer, the bit, and the value it had at each block
write so far. -/
structure XipRram where
  rram : NtRram
  swCacheTestMode : Bool
  during : List Bool

/-- A block write, whose repetitions find the bit as the first one does. -/
def XipRram.wrote (state : XipRram) (outcome : Int × NtRram) : Int × XipRram :=
  (outcome.1, { state with
    rram := outcome.2, during := state.during ++ [state.swCacheTestMode] })

/-- A write of the first bytes of the temporary buffer. -/
def writeTempXip (dma : UInt32 → BlockAnswer) (state : XipRram) (desAdr : UInt32)
    (length : Nat) : Int × XipRram :=
  state.wrote (writeTemp dma state.rram desAdr length)

/-- A write straight from the source. -/
def writeSourceXip (dma : UInt32 → BlockAnswer) (state : XipRram) (desAdr : UInt32)
    (srcAdr : Nat → UInt8) (length : Nat) : Int × XipRram :=
  state.wrote (writeSource dma state.rram desAdr srcAdr length)

/-- `nt_rram_read` into the temporary buffer, and the bytes of the source laid over
it. -/
def patchTempXip (readByDxe : Bool) (state : XipRram) (desAdr length : UInt32)
    (offset count : Nat) (srcAdr : Nat → UInt8) : XipRram :=
  let ((_, buffer), swCacheTestMode) :=
    rramReadXipWith readByDxe (rangeCheckXip readByDxe state.rram.memory) state.rram.memory desAdr
      state.rram.tempRWBuff length state.swCacheTestMode
  { state with
    rram := { state.rram with tempRWBuff := Mem.overlay buffer offset count srcAdr }
    swCacheTestMode := swCacheTestMode }

/-- The first line, if the destination or the source is not aligned. -/
def headLineXip (readByDxe : Bool) (dma : UInt32 → BlockAnswer) (state : XipRram) (dst : UInt32)
    (srcAdr : Nat → UInt8) (length : UInt32) : Int × XipRram :=
  let desAdr := dst - dst % 16
  let state := patchTempXip readByDxe state desAdr 16 (dst % 16).toNat (headCount dst length) srcAdr
  writeTempXip dma state desAdr 16

/-- The two loops over full blocks. -/
def blocksLoopXip (write : XipRram → UInt32 → Nat → Int × XipRram) (width : Nat) :
    Nat → UInt32 → Nat → XipRram → Int × XipRram
  | 0, _, _, state => (errNone, state)
  | blocks + 1, desAdr, src, state =>
      let (status, state) := write state desAdr src
      if status ≠ 0 then (status, state)
      else blocksLoopXip write width blocks (desAdr + UInt32.ofNat width) (src + width) state

/-- A block of the source, copied into the temporary buffer and written from
there. -/
def writeThroughTempXip (dma : UInt32 → BlockAnswer) (srcAdr : Nat → UInt8) (state : XipRram)
    (desAdr : UInt32) (src : Nat) : Int × XipRram :=
  writeTempXip dma { state with rram := { state.rram with
    tempRWBuff := Mem.overlay state.rram.tempRWBuff 0 256 fun i => srcAdr (src + i) } } desAdr 256

/-- The copy of a source that is not word aligned.  It returns without setting the
bit. -/
def tempCopyXip (readByDxe : Bool) (dma : UInt32 → BlockAnswer) (state : XipRram)
    (desAdr : UInt32) (srcAdr : Nat → UInt8) (remainingByte : Nat) : Int × XipRram :=
  let fullBlockNum := remainingByte / 256 % 2 ^ 16
  let partialBlockSize := remainingByte % 256
  let (status, state) :=
    blocksLoopXip (writeThroughTempXip dma srcAdr) 256 fullBlockNum desAdr 0 state
  if status ≠ 0 then (status, state)
  else if partialBlockSize ≠ 0 then
    let desAdr := desAdr + UInt32.ofNat (fullBlockNum * 256)
    let state := patchTempXip readByDxe state desAdr 256 0 partialBlockSize
      fun i => srcAdr (fullBlockNum * 256 + i)
    writeTempXip dma state desAdr 256
  else (status, state)

/-- The partial block: its whole lines, and a last line that is completed from
the RRAM. -/
def partialBlockXip (readByDxe : Bool) (dma : UInt32 → BlockAnswer) (state : XipRram)
    (desAdr : UInt32) (srcAdr : Nat → UInt8) (partialBlockSize : Nat) : Int × XipRram :=
  if partialBlockSize % 16 = 0 then writeSourceXip dma state desAdr srcAdr partialBlockSize
  else
    let tempNumByte := partialBlockSize / 16 * 16
    let (status, state) :=
      if tempNumByte ≠ 0 then writeSourceXip dma state desAdr srcAdr tempNumByte
      else (errNone, state)
    if status ≠ 0 then (status, state)
    else
      let desAdr := desAdr + UInt32.ofNat tempNumByte
      let state := patchTempXip readByDxe state desAdr 16 0 (partialBlockSize % 16)
        fun i => srcAdr (tempNumByte + i)
      writeTempXip dma state desAdr 16

/-- The copy by large blocks. -/
def blockCopyXip (readByDxe : Bool) (dma : UInt32 → BlockAnswer) (state : XipRram)
    (desAdr : UInt32) (srcAdr : Nat → UInt8) (remainingByte : Nat) : Int × XipRram :=
  let fullBlockNum := remainingByte / 16368 % 2 ^ 16
  let partialBlockSize := remainingByte % 16368
  let (status, state) := blocksLoopXip (fun state desAdr src =>
    writeSourceXip dma state desAdr (fun i => srcAdr (src + i)) 16368) 16368 fullBlockNum desAdr 0
      state
  if status ≠ 0 then (status, state)
  else if partialBlockSize ≠ 0 then
    partialBlockXip readByDxe dma state (desAdr + UInt32.ofNat (fullBlockNum * 16368))
      (fun i => srcAdr (fullBlockNum * 16368 + i)) partialBlockSize
  else (status, state)

/-- The end of `nt_rram_write` behind the copy by large blocks, which a failed
block does not reach. -/
def setTestMode (outcome : Int × XipRram) : Int × XipRram :=
  if outcome.1 ≠ 0 then outcome else (outcome.1, { outcome.2 with swCacheTestMode := true })

/-- `nt_rram_write`. -/
def ntRramWriteXip (readByDxe : Bool) (dma : UInt32 → BlockAnswer) (state : XipRram)
    (dst srcAdr : UInt32) (wdata : Nat → UInt8) (length : UInt32) : Int × XipRram :=
  if srcAdr = 0 ∨ length = 0 then (einval, state)
  else
    let (refused, swCacheTestMode) := rangeCheckXip readByDxe state.rram.memory dst length
      writeLocked state.swCacheTestMode
    if refused ≠ 0 then (efault, { state with swCacheTestMode := swCacheTestMode })
    else
      let state := { state with swCacheTestMode := false }
      if dst % 16 ≠ 0 ∨ srcAdr % 4 ≠ 0 then
        let (status, state) := headLineXip readByDxe dma state dst wdata length
        if status ≠ 0 then (status, state)
        else
          let tempNumByte := headCount dst length
          let remainingByte := length.toNat - tempNumByte
          if remainingByte = 0 then (status, state)
          else
            let desAdr := dst - dst % 16 + 16
            let rest := fun i => wdata (tempNumByte + i)
            if (srcAdr + UInt32.ofNat tempNumByte) % 4 ≠ 0 then
              tempCopyXip readByDxe dma state desAdr rest remainingByte
            else setTestMode (blockCopyXip readByDxe dma state desAdr rest remainingByte)
      else setTestMode (blockCopyXip readByDxe dma state dst wdata length.toNat)

end QHal.Rram
