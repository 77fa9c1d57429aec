/-
Module: QHal.Qspi.FlashRead
Purpose: Reading the flash in PIO mode over the command queue, drv_flash_read of
  hal/hal/src/ferm_flash.c.
Trusted boundary: one call at a time, with the XIP mode switched off around it; callbacks
  of a read in the background have no code in the source.
Main exports: ReadConfig, ReadContext, drvFlashRead
-/
import QHal.Flash.FermFlash
import QHal.Qspi.FermQspi

namespace QHal.Qspi

open Flash (FlashStatus)

/-- The fields of `flash_config_data_t` that a read uses.  The entries of `flash_device_config`
have 4 or 6 wait states. -/
structure ReadConfig where
  readOpcode : UInt8
  addrBytes : Nat
  readWaitState : Nat
  readCmdMode : Mode
  readAddrMode : Mode
  readDataMode : Mode
  densityInBlocks : UInt32
  evenWaits : readWaitState % 2 = 0

/-- `flash_init_done` and the fields of `flash_context`. -/
structure ReadContext where
  flashInitDone : Bool
  state : UInt32
  config : ReadConfig

/-- `drv_qspi_prepare_cmd` for a read. -/
def ReadConfig.cmd (config : ReadConfig) : Cmd where
  opcode := config.readOpcode
  addrBytes := config.addrBytes
  dummyClocks := config.readWaitState
  cmdMode := config.readCmdMode
  addrMode := config.readAddrMode
  dataMode := config.readDataMode
  write := false

/-- The parameters that `drv_flash_read` refuses. -/
def ReadConfig.refuses (config : ReadConfig) (address byteCnt : UInt32) (buffer : Nat) : Bool :=
  buffer = 0 || byteCnt = 0 || address + byteCnt < address ||
    address + byteCnt > config.densityInBlocks * Flash.blockSizeInBytes

/-- `drv_flash_read` into the memory.  With a callback it reads nothing. -/
def drvFlashRead (transferBuffer : Nat) (transfer : Controller) (ctx : ReadContext)
    (address byteCnt : UInt32) (buffer : Nat) (readCb : Bool) (memory : Nat → UInt8) :
    FlashStatus × (Nat → UInt8) :=
  if ctx.flashInitDone = false then (.fail, memory)
  else if ctx.state ≠ 0 then (.busy, memory)
  else if ctx.config.refuses address byteCnt buffer then (.invalidParameter, memory)
  else if readCb then (.done, memory)
  else
    match runCmd transferBuffer transfer ctx.config.cmd address buffer byteCnt.toNat .pio
        memory with
    | none => (.fail, memory)
    | some state => (.done, state.memory)

end QHal.Qspi
