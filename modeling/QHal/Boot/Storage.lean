/-
Module: QHal.Boot.Storage
Purpose: The storage operations below the second-stage boot loader
  (qboot/system/sbl_storage.c): flash read, flash write, RRAM write and RRAM
  fill.  The drivers behind them are hardware; what the loader sees of them is
  a status word and, on success, a plain copy.
Trusted boundary: the device answers in `Storage`
Main exports: BlError, Storage, bootSblFlashRead, bootSblFlashWrite,
  bootSblRramWrite, rramMemsetDxe, ntBlRramRead
-/
import QHal.Lib.Memory

namespace QHal.Boot

/-- `bl_error_type`.  The drivers cast their own status words into this enum,
so every 32-bit value can occur; only 0 means success. -/
abbrev BlError := UInt32

def blErrNone : BlError := 0
def blErrInvalidParam : BlError := 2
def blErrElfMemRead : BlError := 5
def blErrElfMemInvalParam : BlError := 7
def blErrElfNullPtr : BlError := 8
def blErrElfInvalParam : BlError := 9
def blErrElfHashMismatch : BlError := 17
def blErrImgAuthNullPtr : BlError := 31
def blErrImgSecurityFail : BlError := 33
def blErrRollbackVersionVerifyFail : BlError := 37

/-- The answers of the storage hardware.  Each status may depend on the
address and the byte count of the request.  A refused flash write leaves
`flashTorn` on the device; a refused RRAM operation changes nothing, since
`rram_verify_address` is its only source of errors. -/
structure Storage where
  flash : Mem UInt8
  flashReadStatus : UInt32 → UInt32 → BlError
  flashWriteStatus : UInt32 → UInt32 → BlError
  flashTorn : Mem UInt8
  rramWriteStatus : UInt32 → UInt32 → BlError
  rramSetStatus : UInt32 → UInt32 → BlError
  rramReadStatus : UInt32 → UInt32 → BlError

/-- `boot_sbl_flash_read`: the status and the buffer after the call.  The driver
refuses a read before it transfers anything, so the buffer keeps what it had. -/
def bootSblFlashRead (storage : Storage) (address byteCnt : UInt32) (buffer : Nat → UInt8) :
    BlError × (Nat → UInt8) :=
  let status := storage.flashReadStatus address byteCnt
  if status = blErrNone then
    (status, fun i => storage.flash (address + UInt32.ofNat i))
  else (status, buffer)

/-- `boot_sbl_flash_write`: programming can only clear bits, the driver does
not erase. -/
def bootSblFlashWrite (storage : Storage) (address byteCnt : UInt32)
    (buffer : Nat → UInt8) : BlError × Storage :=
  let status := storage.flashWriteStatus address byteCnt
  if status = blErrNone then
    (status, { storage with
      flash := storage.flash.write address byteCnt.toNat fun i =>
        storage.flash (address + UInt32.ofNat i) &&& buffer i })
  else (status, { storage with flash := storage.flashTorn })

/-- `boot_sbl_rram_write`, the DXE copy of a buffer into RRAM. -/
def bootSblRramWrite (storage : Storage) (memory : Mem UInt8)
    (destination length : UInt32) (source : Nat → UInt8) : BlError × Mem UInt8 :=
  let status := storage.rramWriteStatus destination length
  if status = blErrNone then
    (status, memory.write destination length.toNat source)
  else (status, memory)

/-- `rram_memset_dxe`, the DXE fill of an RRAM range. -/
def rramMemsetDxe (storage : Storage) (memory : Mem UInt8) (address : UInt32)
    (value : UInt8) (length : UInt32) : BlError × Mem UInt8 :=
  let status := storage.rramSetStatus address length
  if status = blErrNone then
    (status, memory.write address length.toNat fun _ => value)
  else (status, memory)

/-- `nt_bl_rram_read`, a copy out of RRAM. -/
def ntBlRramRead (storage : Storage) (memory : Mem UInt8)
    (source destination length : UInt32) : BlError × Mem UInt8 :=
  let status := storage.rramReadStatus source length
  if status = blErrNone then
    (status, memory.write destination length.toNat fun i =>
      memory (source + UInt32.ofNat i))
  else (status, memory)

end QHal.Boot
