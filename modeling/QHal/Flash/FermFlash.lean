/-
Module: QHal.Flash.FermFlash
Purpose: Reading, programming and erasing in the flash driver, hal/src/ferm_flash.c, as
  blocking calls.
Trusted boundary: every QSPI command succeeds and reaches the device with its whole
  address, and every poll of the status register finds the device ready; the suspend and
  resume of XIP are left out.
Main exports: FlashStatus, FlashContext, sliceSize, drvFlashRead, drvFlashWrite,
  drvFlashErase
-/
import QHal.Lib.Nor

namespace QHal.Flash

def pageSizeInBytes : UInt32 := 256
def blockSizeInBytes : UInt32 := 4096

/-- The results of `FLASH_STATUS` that are returned here, and `QAPI_ERR_BOUNDS`. -/
inductive FlashStatus where
  | done | fail | invalidParameter | busy | errBounds
deriving Repr, DecidableEq

/-- `flash_erase_type_t`. -/
inductive EraseType where
  | block | bulk | chip
deriving Repr, DecidableEq

/-- The fields of `flash_config_data_t` that decide what is read, written or erased. -/
structure FlashConfig where
  erase4kbOpcode : UInt8
  bulkEraseSize4kb : UInt8
  bulkEraseOpcode : UInt8
  chipEraseOpcode : UInt8
  densityInBlocks : UInt32
deriving Repr, DecidableEq

/-- `flash_init_done` and `flash_context`, with the device behind the controller.  The
state of the context is 0 but during a call. -/
structure FlashContext where
  flashInitDone : Bool
  state : UInt32
  config : FlashConfig
  device : Nor.Device

/-- The size that the driver compares with. -/
def FlashConfig.density (config : FlashConfig) : UInt32 :=
  config.densityInBlocks * blockSizeInBytes

/-- A range that `drv_flash_read` and `drv_flash_write` refuse. -/
def FlashConfig.refuses (config : FlashConfig) (address byteCnt : UInt32) : Bool :=
  byteCnt = 0 || address + byteCnt < address || address + byteCnt > config.density

/-- The next transfer of a range that is cut at the multiples of `unit`. -/
def sliceSize (unit address byteCnt : UInt32) : UInt32 :=
  if address % unit ≠ 0 then
    let transferSize := unit - address % unit
    if transferSize > byteCnt then byteCnt else transferSize
  else if byteCnt > unit then unit
  else byteCnt

/-- A slice is not empty, and stays in the range and in its unit. -/
theorem sliceSize_spec {unit : UInt32} (positive : 0 < unit.toNat) (address : UInt32)
    {byteCnt : UInt32} (some : byteCnt ≠ 0) :
    0 < (sliceSize unit address byteCnt).toNat ∧
      (sliceSize unit address byteCnt).toNat ≤ byteCnt.toNat ∧
      address.toNat % unit.toNat + (sliceSize unit address byteCnt).toNat ≤ unit.toNat := by
  have count : byteCnt.toNat ≠ 0 := fun zero => some (UInt32.toNat_inj.mp zero)
  have below : address.toNat % unit.toNat < unit.toNat := Nat.mod_lt _ positive
  have rest : (unit - address % unit).toNat = unit.toNat - address.toNat % unit.toNat := by
    rw [UInt32.toNat_sub_of_le _ _ (UInt32.le_iff_toNat_le.mpr (by
      rw [UInt32.toNat_mod]
      exact Nat.le_of_lt below)), UInt32.toNat_mod]
  unfold sliceSize
  by_cases inside : address % unit ≠ 0
  · rw [if_pos inside]
    dsimp only
    split
    case isTrue above =>
      have short := UInt32.lt_iff_toNat_lt.mp above
      rw [rest] at short
      omega
    case isFalse within =>
      have long := UInt32.le_iff_toNat_le.mp (UInt32.not_lt.mp within)
      rw [rest] at long ⊢
      omega
  · rw [if_neg inside]
    have aligned : address.toNat % unit.toNat = 0 := by
      have zero := congrArg UInt32.toNat (not_ne_iff.mp inside)
      rwa [UInt32.toNat_mod] at zero
    split
    case isTrue above =>
      have long := UInt32.lt_iff_toNat_lt.mp above
      omega
    case isFalse within =>
      have short := UInt32.le_iff_toNat_le.mp (UInt32.not_lt.mp within)
      omega

/-- What is left of a range behind a slice. -/
theorem rest_lt {unit : UInt32} (positive : 0 < unit.toNat) (address : UInt32)
    {byteCnt : UInt32} (some : byteCnt ≠ 0) :
    (byteCnt - sliceSize unit address byteCnt).toNat < byteCnt.toNat := by
  obtain ⟨pos, le, -⟩ := sliceSize_spec positive address some
  rw [UInt32.toNat_sub_of_le _ _ (UInt32.le_iff_toNat_le.mpr le)]
  omega

/-- `drv_flash_read` into a buffer, without a callback. -/
def drvFlashRead (ctx : FlashContext) (address byteCnt : UInt32)
    (buffer : Option (Nat → UInt8)) : FlashStatus × Option (Nat → UInt8) :=
  if ctx.flashInitDone = false then (.fail, buffer)
  else if ctx.state ≠ 0 then (.busy, buffer)
  else
    match buffer with
    | none => (.invalidParameter, none)
    | some buffer =>
        if ctx.config.refuses address byteCnt then (.invalidParameter, some buffer)
        else
          (.done, some fun i =>
            if i < byteCnt.toNat then ctx.device.cells (address.toNat + i) else buffer i)

/-- The loop of `drv_flash_write` over the pages. -/
def writeLoop (device : Nor.Device) (address byteCnt : UInt32) (buffer : Nat → UInt8) :
    Nor.Device :=
  if _ : byteCnt = 0 then device
  else
    let transferSize := sliceSize pageSizeInBytes address byteCnt
    writeLoop
      (device.writeEnable.program pageSizeInBytes.toNat address.toNat transferSize.toNat buffer)
      (address + transferSize) (byteCnt - transferSize)
      fun i => buffer (i + transferSize.toNat)
termination_by byteCnt.toNat
decreasing_by exact rest_lt (by decide) address ‹_›

/-- `drv_flash_write` from a buffer, without a callback. -/
def drvFlashWrite (ctx : FlashContext) (address byteCnt : UInt32)
    (buffer : Option (Nat → UInt8)) : FlashStatus × FlashContext :=
  if ctx.flashInitDone = false then (.fail, ctx)
  else if ctx.state ≠ 0 then (.busy, ctx)
  else
    match buffer with
    | none => (.invalidParameter, ctx)
    | some buffer =>
        if ctx.config.refuses address byteCnt then (.invalidParameter, ctx)
        else (.done, { ctx with device := writeLoop ctx.device address byteCnt buffer })

/-- The loop of `drv_flash_erase` with the command of its type. -/
def eraseLoop (command : Nat → Nor.Device → Nor.Device) (size : UInt32) :
    Nat → UInt32 → Nor.Device → Nor.Device
  | 0, _, device => device
  | cnt + 1, address, device =>
      eraseLoop command size cnt (address + size) (command address.toNat device.writeEnable)

/-- The size and the command of an erase type that the flash has. -/
def FlashConfig.eraseCommand (config : FlashConfig) :
    EraseType → Option (UInt32 × (Nat → Nor.Device → Nor.Device))
  | .block =>
      if config.erase4kbOpcode = 0 then none
      else
        some (blockSizeInBytes, fun address device =>
          device.erase blockSizeInBytes.toNat address)
  | .bulk =>
      if config.bulkEraseSize4kb = 0 ∨ config.bulkEraseOpcode = 0 then none
      else
        let size := config.bulkEraseSize4kb.toUInt32 * blockSizeInBytes
        some (size, fun address device => device.erase size.toNat address)
  | .chip =>
      if config.chipEraseOpcode = 0 then none
      else some (config.density, fun _ device => device.eraseChip)

/-- `drv_flash_erase`, without a callback. -/
def drvFlashErase (ctx : FlashContext) (eraseType : EraseType) (start cnt : UInt32) :
    FlashStatus × FlashContext :=
  if ctx.flashInitDone = false then (.fail, ctx)
  else if ctx.state ≠ 0 then (.busy, ctx)
  else
    match ctx.config.eraseCommand eraseType with
    | none => (.invalidParameter, ctx)
    | some (size, command) =>
        let address := start * size
        if cnt = 0 ∨ (start + cnt) * size < address ∨
            (start + cnt) * size > ctx.config.density then (.invalidParameter, ctx)
        else
          (.done, { ctx with device := eraseLoop command size cnt.toNat address ctx.device })

end QHal.Flash
