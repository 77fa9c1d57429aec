/-
Module: QHal.Flash.NvmFlash
Purpose: The flash access of the NVM programmer, qprgd/src/nvm_flash.c: reading in
  slices, and writing behind a check that erases the blocks of the range.
Trusted boundary: the initialization of the driver succeeds.
Main exports: NvmFlash, flashInit, flashVerifyAddress, flashPartialCheckErase, flashWrite,
  flashRead
-/
import QHal.Flash.FermFlash

namespace QHal.Flash

/-- `density_in_blocks`, and the driver. -/
structure NvmFlash where
  densityInBlocks : UInt32
  ctx : FlashContext

/-- `flash_init` over an idle driver. -/
def flashInit (config : FlashConfig) (device : Nor.Device) : NvmFlash where
  densityInBlocks := config.densityInBlocks
  ctx :=
    { flashInitDone := true
      state := 0
      config := config
      device := device }

/-- `flash_verify_address`. -/
def flashVerifyAddress (densityInBlocks address length : UInt32) : Bool :=
  address ≤ densityInBlocks * blockSizeInBytes && address % blockSizeInBytes = 0 &&
    densityInBlocks * blockSizeInBytes - address + 1 ≥ length

/-- The loop of `flash_read` over the blocks. -/
def readLoop (ctx : FlashContext) (address byteCnt : UInt32) (offset : Nat)
    (buffer : Nat → UInt8) : FlashStatus × (Nat → UInt8) :=
  if _ : byteCnt = 0 then (.done, buffer)
  else
    let readSize := sliceSize blockSizeInBytes address byteCnt
    match drvFlashRead ctx address readSize (some fun i => buffer (offset + i)) with
    | (.done, some slice) =>
        readLoop ctx (address + readSize) (byteCnt - readSize) (offset + readSize.toNat)
          fun i => if offset ≤ i then slice (i - offset) else buffer i
    | (status, _) => (status, buffer)
termination_by byteCnt.toNat
decreasing_by exact rest_lt (by decide) address ‹_›

/-- `flash_read`. -/
def flashRead (nvm : NvmFlash) (address : UInt32) (buffer : Nat → UInt8) (length : UInt32) :
    FlashStatus × (Nat → UInt8) :=
  readLoop nvm.ctx address length 0 buffer

/-- `memcmp` with `comparative_buffer`. -/
def isBlank (buffer : Nat → UInt8) : Bool :=
  (List.range blockSizeInBytes.toNat).all fun i => buffer i = 0xFF

/-- The loop of `flash_partial_check_erase`, or nothing if it has not ended in as many
rounds. -/
def checkEraseLoop (startBlock blockNum endOffset : UInt32) :
    Nat → UInt32 → NvmFlash → Option (FlashStatus × NvmFlash)
  | 0, _, _ => none
  | rounds + 1, offset, nvm =>
      if offset < endOffset then
        match flashRead nvm offset (fun _ => 0) blockSizeInBytes with
        | (.done, eraseReadBuffer) =>
            if isBlank eraseReadBuffer then
              checkEraseLoop startBlock blockNum endOffset rounds (offset + blockSizeInBytes) nvm
            else
              match drvFlashErase nvm.ctx .block startBlock blockNum with
              | (.done, ctx) =>
                  checkEraseLoop startBlock blockNum endOffset rounds
                    (offset + blockSizeInBytes) { nvm with ctx := ctx }
              | (status, ctx) => some (status, { nvm with ctx := ctx })
        | (status, _) => some (status, nvm)
      else some (.done, nvm)

/-- `flash_partial_check_erase`. -/
def flashPartialCheckErase (nvm : NvmFlash) (startAddr length : UInt32) :
    Option (FlashStatus × NvmFlash) :=
  if flashVerifyAddress nvm.densityInBlocks startAddr length = false then some (.errBounds, nvm)
  else
    let startBlock := startAddr / blockSizeInBytes
    let endBlock := (startAddr + length - 1) / blockSizeInBytes
    let blockNum := endBlock - startBlock + 1
    if blockNum = 0 then some (.done, nvm)
    else
      let offset := startBlock * blockSizeInBytes
      let endOffset := offset + blockNum * blockSizeInBytes
      checkEraseLoop startBlock blockNum endOffset (blockNum.toNat + 1) offset nvm

/-- `flash_write`. -/
def flashWrite (nvm : NvmFlash) (destination : UInt32) (source : Option (Nat → UInt8))
    (length : UInt32) : Option (FlashStatus × NvmFlash) :=
  (flashPartialCheckErase nvm destination length).map fun
    | (.done, checked) =>
        let (status, ctx) := drvFlashWrite checked.ctx destination length source
        (status, { checked with ctx := ctx })
    | (status, checked) => (status, checked)

end QHal.Flash
