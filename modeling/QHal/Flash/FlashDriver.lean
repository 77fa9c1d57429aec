/-
Module: QHal.Flash.FlashDriver
Purpose: The flash driver, hal/hal/src/ferm_flash.c, command by command: the calls of its
  interface with their locks, their early exits and every QSPI command that they issue.
Trusted boundary: what the QSPI driver and the device answer is a parameter.  The delays,
  the log, the suspend and resume registers of XIP, what `operation_param` points to, and the
  unused `timer_comparator` and `polling_start` are left out.
Main exports: Build, Qspi, Driver, drvFlashInit, drvFlashRead, drvFlashWrite,
  drvFlashErase, drvFlashReadReg, drvFlashWriteReg, Call
-/
import QHal.Flash.FermFlash

namespace QHal.FlashDriver

open Flash (EraseType sliceSize rest_lt pageSizeInBytes blockSizeInBytes)

/-- What the build defines: `CONFIG_NON_OS`, `FLASH_XIP_SUPPORT` and
`CONFIG_BOARD_QCC730_QSPI_V2_QUAD_MODE`. -/
structure Build where
  nonOs : Bool
  xipSupport : Bool
  quadMode : Bool
deriving Repr, DecidableEq

/-- The results of `FLASH_STATUS` that the driver returns. -/
inductive FlashStatus where
  | done | fail | invalidParameter | notFound | noMemory | busy
deriving Repr, DecidableEq

/-- `flash_config_data_t`, but for the delays. -/
structure FlashConfigData where
  addrBytes : UInt8
  readCmdMode : UInt8
  readAddrMode : UInt8
  readDataMode : UInt8
  readOpcode : UInt8
  readWaitState : UInt8
  writeCmdMode : UInt8
  writeAddrMode : UInt8
  writeDataMode : UInt8
  writeOpcode : UInt8
  erase4kbOpcode : UInt8
  bulkEraseSize4kb : UInt8
  bulkEraseOpcode : UInt8
  chipEraseOpcode : UInt8
  quadEnableMode : UInt8
  suspendEraseOpcode : UInt8
  suspendProgramOpcode : UInt8
  resumeEraseOpcode : UInt8
  resumeProgramOpcode : UInt8
  eraseErrBmsk : UInt8
  eraseErrStatusReg : UInt8
  writeErrBmsk : UInt8
  writeErrStatusReg : UInt8
  highPerformanceModeBmask : UInt8
  densityInBlocks : UInt32
  deviceId : UInt32
  writeProtectBmask : UInt32
  clkFreq : UInt8
deriving Repr, DecidableEq

/-- `density_in_blocks * BLOCK_SIZE_IN_BYTES`. -/
def FlashConfigData.density (config : FlashConfigData) : UInt32 :=
  config.densityInBlocks * blockSizeInBytes

/-- `qspi_cmd_t`, as `drv_qspi_prepare_cmd` fills it in. -/
structure QspiCmd where
  opcode : UInt8
  addrBytes : UInt8
  dummyClocks : UInt8
  cmdMode : UInt8
  addrMode : UInt8
  dataMode : UInt8
  write : Bool
deriving Repr, DecidableEq

/-- A call of `drv_qspi_run_cmd`: its arguments, with what the data pointer pointed to, its
result and the bytes of the device. -/
structure Issued where
  cmd : QspiCmd
  addr : UInt32
  data : Nat → UInt8
  dataBytes : Nat
  accepted : Bool
  answer : Nat → UInt8

/-- The QSPI driver with the device: the results of `drv_qspi_init`, and for each call of
`drv_qspi_run_cmd`, from the calls before it, its result and the bytes that are read. -/
structure Qspi where
  init : Nat → Bool
  accepts : List Issued → QspiCmd → Bool
  answers : List Issued → QspiCmd → Nat → UInt8

/-- `drv_qspi_init` and `drv_qspi_run_cmd` of ferm_qspi.c over a device. -/
def fermQspi (device : List Issued → QspiCmd → Nat → UInt8) : Qspi where
  init _ := true
  accepts _ cmd := !(cmd.addrBytes > 4 || cmd.dummyClocks > 16)
  answers := device

/-- What `flash_context.operation_param` is: NULL, a block, or a block that was freed. -/
inductive OperationParam where
  | null | block | freed
deriving Repr, DecidableEq

/-- `flash_init_done`, `flash_context`, the mutex and `default_qspi_clock`; whether XIP is
enabled and a program or erase announced to it; the calls of `drv_qspi_init`, those of
`drv_qspi_run_cmd`, and how often the configuration was read. -/
structure Driver where
  flashInitDone : Bool
  state : UInt8
  config : Option FlashConfigData
  operationParam : OperationParam
  mutexLocked : Bool
  defaultQspiClock : UInt8
  xipEnabled : Bool
  peState : Bool
  inits : Nat
  issued : List Issued
  configReads : Nat

/-- What keeps a call from returning: a read through `flash_context.config` when it is
NULL, a lock that is held, or a block that is freed again. -/
inductive Fault where
  | nullConfig | deadlock | doubleFree
deriving Repr, DecidableEq

abbrev DriverM := StateT Driver (Except Fault)

/-- `flash_operation_type`: `WRITE_OPERATION`, `ERASE_OPERATION`, `OTHER_OPERATION`. -/
inductive Operation where
  | write | erase | other
deriving Repr, DecidableEq

def writeStatusPollingUsec : Nat := 100
def writeTimeout : Nat := 5000000
def eraseStatusPollingMsec : Nat := 5
def eraseTimeout : Nat := 5000000
def readStatusPollingUsec : Nat := 20
def readStatusTimeout : Nat := 5000000
def chipEraseStatusPollingMsec : Nat := 1000
def chipEraseTimeout : Nat := 500000000

def writeEnableCmd : UInt8 := 0x06
def readStatusCmd : UInt8 := 0x05
def readStatus2Cmd : UInt8 := 0x3F
def readCfgRegCmd : UInt8 := 0x15
def readCfg1Cmd : UInt8 := 0x35
def writeStatusCmd : UInt8 := 0x01
def enter4bAddrCmd : UInt8 := 0xB7
def writeStatus2Cmd : UInt8 := 0x3E
def readIdentificationCmd : UInt8 := 0x9F
def powerupOpcode : UInt8 := 0xAB

def statusWrEnMask : UInt8 := 0x02
def progEraseWriteBusyBmsk : UInt8 := 0x01
def readStatusBusyMask : UInt8 := 0x01

def flashStateWrite : UInt8 := 0x1
def flashStateRead : UInt8 := 0x2
def flashStateErase : UInt8 := 0x4
def flashStateWriteReg : UInt8 := 0x8
def flashStateReadReg : UInt8 := 0x10

/-- `FLASH_16MB_IN_BYTES`. -/
def flash16mbInBytes : UInt32 := 0x1000000

/-! ## The context -/

/-- `flash_context.config`, read through. -/
def readConfig : DriverM FlashConfigData := fun driver =>
  match driver.config with
  | none => .error .nullConfig
  | some config => .ok (config, { driver with configReads := driver.configReads + 1 })

/-- `qurt_mutex_lock`. -/
def mutexLock : DriverM Unit := fun driver =>
  if driver.mutexLocked then .error .deadlock
  else .ok ((), { driver with mutexLocked := true })

/-- `qurt_mutex_create` and `qurt_mutex_unlock`. -/
def mutexUnlock : DriverM Unit := modify fun driver => { driver with mutexLocked := false }

def setState (state : UInt8) : DriverM Unit := modify fun driver => { driver with state }

/-- The end of an initialisation that failed: the block is freed and the pointer stays. -/
def freeOperationParam : DriverM Unit := fun driver =>
  match driver.operationParam with
  | .null => .ok ((), driver)
  | .block => .ok ((), { driver with operationParam := .freed })
  | .freed => .error .doubleFree

/-- `drv_qspi_disable_xip_mode`. -/
def drvQspiDisableXipMode : DriverM Unit :=
  modify fun driver => { driver with xipEnabled := false }

/-- `drv_qspi_restore_xip_mode`. -/
def drvQspiRestoreXipMode : DriverM Unit :=
  modify fun driver => { driver with xipEnabled := true }

/-- `drv_qspi_xip_set_pe_state`. -/
def drvQspiXipSetPeState (enable : Bool) : DriverM Unit :=
  modify fun driver => { driver with peState := enable }

/-- `drv_qspi_prepare_cmd` in the modes of one line. -/
def singleCmd (opcode addrBytes : UInt8) (write : Bool) : QspiCmd where
  opcode
  addrBytes
  dummyClocks := 0
  cmdMode := 1
  addrMode := 1
  dataMode := 1
  write

section

variable (build : Build) (qspi : Qspi) (entries : List FlashConfigData)

/-- A call of `drv_qspi_run_cmd` with a data buffer: its result, and the buffer behind it. -/
def drvQspiRunCmd (cmd : QspiCmd) (addr : UInt32) (data : Nat → UInt8) (dataBytes : Nat) :
    DriverM (Bool × (Nat → UInt8)) := fun driver =>
  let accepted := qspi.accepts driver.issued cmd
  let answer := qspi.answers driver.issued cmd
  let data' := fun i =>
    if accepted ∧ cmd.write = false ∧ i < dataBytes then answer i else data i
  .ok ((accepted, data'),
    { driver with
      issued := driver.issued ++ [{ cmd, addr, data, dataBytes, accepted, answer }] })

/-! ## Registers -/

/-- `drv_flash_read_reg_internal`: the status, and what `reg_value` points to behind it. -/
def drvFlashReadRegInternal (regOpcode len : UInt8) (regValue : Option (Nat → UInt8)) :
    DriverM (FlashStatus × (Nat → UInt8)) := do
  let value := regValue.getD fun _ => 0
  if len > 0 ∧ regValue.isNone then
    return (.invalidParameter, value)
  if build.xipSupport then
    drvQspiDisableXipMode
  let run ← drvQspiRunCmd qspi (singleCmd regOpcode 0 false) 0 value len.toNat
  if build.xipSupport then
    drvQspiRestoreXipMode
  if run.1 then
    return (.done, run.2)
  else
    return (.fail, run.2)

/-- The switch of `drv_flash_check_error`: the mask and the register. -/
def errStatus : Operation → DriverM (UInt8 × UInt8)
  | .write => do
      let config ← readConfig
      return (config.writeErrBmsk, config.writeErrStatusReg)
  | .erase => do
      let config ← readConfig
      return (config.eraseErrBmsk, config.eraseErrStatusReg)
  | .other => return (0, 0)

/-- `drv_flash_check_error`. -/
def drvFlashCheckError (operation : Operation) : DriverM FlashStatus := do
  let err ← errStatus operation
  if err.2 = 0 then
    return .done
  let read ← drvFlashReadRegInternal build qspi err.2 1 (some fun _ => 0)
  if read.1 = .done ∧ read.2 0 &&& err.1 ≠ 0 then
    return .fail
  return read.1

/-- The loop of `drv_flash_wait_operation_done`, with the polls that its time leaves. -/
def pollStatus (operation : Operation) (bmask statusValue : UInt8) :
    Nat → (Nat → UInt8) → DriverM FlashStatus
  | 0, _ => return .fail
  | polls + 1, result => do
      let read ← drvFlashReadRegInternal build qspi readStatusCmd 1 (some result)
      if read.2 0 &&& bmask = statusValue then
        drvFlashCheckError build qspi operation
      else
        pollStatus operation bmask statusValue polls read.2

/-- `drv_flash_wait_operation_done`.  Each timeout is a multiple of its period, so the
loop ends when the timeout is 0. -/
def drvFlashWaitOperationDone (timeout statusPollingUsec : Nat) (operation : Operation)
    (bmask statusValue : UInt8) : DriverM FlashStatus :=
  pollStatus build qspi operation bmask statusValue (timeout / statusPollingUsec) fun _ => 0

/-- `drv_flash_write_enable`. -/
def drvFlashWriteEnable : DriverM FlashStatus := do
  let _ ← drvQspiRunCmd qspi (singleCmd writeEnableCmd 0 false) 0 (fun _ => 0) 0
  drvFlashWaitOperationDone build qspi readStatusTimeout readStatusPollingUsec .other
    statusWrEnMask statusWrEnMask

/-- `drv_flash_write_reg_internal`. -/
def drvFlashWriteRegInternal (regOpcode len : UInt8) (regValue : Option (Nat → UInt8)) :
    DriverM FlashStatus := do
  if len > 0 ∧ regValue.isNone then
    return .invalidParameter
  let status ← drvFlashWriteEnable build qspi
  if status ≠ .done then
    return status
  let run ← drvQspiRunCmd qspi (singleCmd regOpcode 0 true) 0
    (regValue.getD fun _ => 0) len.toNat
  if run.1 then
    return .done
  else
    return .fail

/-- The wait for `READ_STATUS_BUSY_MASK` to clear behind a register write. -/
def drvFlashWaitReady : DriverM FlashStatus :=
  drvFlashWaitOperationDone build qspi readStatusTimeout readStatusPollingUsec .other
    readStatusBusyMask 0

/-! ## Initialisation -/

/-- `drv_flash_power_up`. -/
def drvFlashPowerUp : DriverM Unit := do
  let _ ← drvQspiRunCmd qspi (singleCmd powerupOpcode 0 false) 0 (fun _ => 0) 0

/-- `drv_flash_set_high_performance`. -/
def drvFlashSetHighPerformance : DriverM FlashStatus := do
  let status ← drvFlashReadRegInternal build qspi readStatusCmd 1 (some fun _ => 0)
  let cfg ← drvFlashReadRegInternal build qspi readCfgRegCmd 2 (some fun _ => 0)
  let config ← readConfig
  let temp : Nat → UInt8
    | 0 => status.2 0
    | 1 => cfg.2 0
    | _ => cfg.2 1 ||| config.highPerformanceModeBmask
  let written ← drvFlashWriteRegInternal build qspi writeStatusCmd 3 (some temp)
  if written ≠ .done then
    return written
  drvFlashWaitReady build qspi

/-- `drv_flash_enable_quad_mode145`. -/
def drvFlashEnableQuadMode145 : DriverM FlashStatus := do
  let statusReg1 ← drvFlashReadRegInternal build qspi readStatusCmd 1 (some fun _ => 0)
  if statusReg1.1 ≠ .done then
    return statusReg1.1
  let statusReg2 ← drvFlashReadRegInternal build qspi readCfg1Cmd 1 (some fun _ => 0)
  if statusReg2.1 ≠ .done then
    return statusReg2.1
  if statusReg2.2 0 &&& 0x2 ≠ 0 then
    return statusReg2.1
  let temp : Nat → UInt8
    | 0 => statusReg1.2 0
    | _ => statusReg2.2 0 ||| 0x2
  let written ← drvFlashWriteRegInternal build qspi writeStatusCmd 2 (some temp)
  if written ≠ .done then
    return written
  drvFlashWaitReady build qspi

/-- Quad mode over one bit of a register, as modes 2 and 3 do it. -/
def enableQuadBit (readOpcode writeOpcode bit : UInt8) : DriverM FlashStatus := do
  let statusReg ← drvFlashReadRegInternal build qspi readOpcode 1 (some fun _ => 0)
  if statusReg.1 ≠ .done then
    return statusReg.1
  if statusReg.2 0 &&& bit ≠ 0 then
    return statusReg.1
  let written ← drvFlashWriteRegInternal build qspi writeOpcode 1
    (some fun _ => statusReg.2 0 ||| bit)
  if written ≠ .done then
    return written
  drvFlashWaitReady build qspi

/-- `drv_flash_enable_quad_mode2`. -/
def drvFlashEnableQuadMode2 : DriverM FlashStatus :=
  enableQuadBit build qspi readStatusCmd writeStatusCmd 0x40

/-- `drv_flash_enable_quad_mode3`. -/
def drvFlashEnableQuadMode3 : DriverM FlashStatus :=
  enableQuadBit build qspi readStatus2Cmd writeStatus2Cmd 0x80

/-- `drv_flash_enable_quad_mode`. -/
def drvFlashEnableQuadMode (quadMode : UInt8) : DriverM FlashStatus :=
  if quadMode = 0 then return .done
  else if quadMode = 1 ∨ quadMode = 4 ∨ quadMode = 5 then drvFlashEnableQuadMode145 build qspi
  else if quadMode = 2 then drvFlashEnableQuadMode2 build qspi
  else if quadMode = 3 then drvFlashEnableQuadMode3 build qspi
  else return .fail

/-- `drv_flash_clear_spi_bits`. -/
def drvFlashClearSpiBits (regReadOpcode regWriteOpcode bitsMask : UInt8) :
    DriverM FlashStatus := do
  if bitsMask = 0 then
    return .done
  let read ← drvFlashReadRegInternal build qspi regReadOpcode 1 (some fun _ => 0)
  if read.2 0 &&& bitsMask = 0 ∨ read.1 ≠ .done then
    return read.1
  let written ← drvFlashWriteRegInternal build qspi regWriteOpcode 1
    (some fun _ => read.2 0 &&& ~~~bitsMask)
  if written ≠ .done then
    return written
  let ready ← drvFlashWaitReady build qspi
  if ready ≠ .done then
    return ready
  let back ← drvFlashReadRegInternal build qspi regReadOpcode 1 (some fun _ => 0)
  if back.2 0 &&& bitsMask ≠ 0 ∨ back.1 ≠ .done then
    return .fail
  return back.1

/-- `drv_flash_clear_spi_bits_list`, over the read opcodes, write opcodes and masks. -/
def drvFlashClearSpiBitsList : List (UInt8 × UInt8 × UInt8) → DriverM FlashStatus
  | [] => return .done
  | (regReadOpcode, regWriteOpcode, bitsMask) :: rest => do
      let status ← drvFlashClearSpiBits build qspi regReadOpcode regWriteOpcode bitsMask
      if status ≠ .done then
        return status
      drvFlashClearSpiBitsList rest

/-- `drv_flash_clear_write_protection`. -/
def drvFlashClearWriteProtection : DriverM FlashStatus := do
  let config ← readConfig
  let flashVid := config.deviceId.toUInt8
  let wpMask := config.writeProtectBmask
  if flashVid = 0xEF ∨ flashVid = 0xC8 ∨ flashVid = 0xC4 then
    drvFlashClearSpiBitsList build qspi
      [(readStatusCmd, writeStatusCmd, wpMask.toUInt8),
       (0x35, 0x31, (wpMask >>> 8).toUInt8),
       (0x15, 0x11, (wpMask >>> 16).toUInt8)]
  else if flashVid = 0xC2 ∨ flashVid = 0x9D then
    drvFlashClearSpiBits build qspi readStatusCmd writeStatusCmd wpMask.toUInt8
  else
    return .done

/-- `drv_flash_controller_init`. -/
def drvFlashControllerInit : DriverM FlashStatus := fun driver =>
  .ok (if qspi.init driver.inits then .done else .fail,
    { driver with inits := driver.inits + 1 })

/-- `drv_flash_info_init`, with what the allocation of `operation_param` gives. -/
def drvFlashInfoInit (allocated : Bool) (deviceId : UInt32) : DriverM FlashStatus := do
  match entries.find? fun entry => deviceId = entry.deviceId with
  | none => return .notFound
  | some entry =>
      modify fun driver =>
        { driver with
          state := 0
          config := some entry
          operationParam := .null }
      let config ← readConfig
      if config.clkFreq ≠ (← get).defaultQspiClock then
        modify fun driver => { driver with defaultQspiClock := config.clkFreq }
        let _ ← drvFlashControllerInit qspi
      if !build.nonOs ∧ !allocated then
        return .noMemory
      modify fun driver => { driver with operationParam := .block }
      return .done

/-- `VALID_RW_MODE`. -/
def validRwMode (mode : UInt8) : Bool := (mode ≥ 1 && mode ≤ 3) || mode = 7

/-- `IS_QUAD_MODE`. -/
def isQuadMode (mode : UInt8) : Bool := mode &&& 0x3 = 0x3

/-- The six modes of a configuration. -/
def FlashConfigData.modes (config : FlashConfigData) : List UInt8 :=
  [config.readCmdMode, config.readAddrMode, config.readDataMode,
   config.writeCmdMode, config.writeAddrMode, config.writeDataMode]

/-- The high performance mode, if the configuration has one. -/
def initHighPerformance (config : FlashConfigData) : DriverM FlashStatus :=
  if config.highPerformanceModeBmask ≠ 0 then drvFlashSetHighPerformance build qspi
  else return .done

/-- The quad mode, if a mode of the configuration needs it. -/
def initQuadMode (config : FlashConfigData) : DriverM FlashStatus :=
  if build.quadMode ∧ config.modes.any isQuadMode then
    drvFlashEnableQuadMode build qspi config.quadEnableMode
  else return .done

/-- The address mode of a device of more than 16 MiB. -/
def initAddressMode (config : FlashConfigData) : DriverM FlashStatus :=
  if config.addrBytes = 4 ∧ config.density > flash16mbInBytes then
    drvFlashWriteRegInternal build qspi enter4bAddrCmd 0 none
  else return .done

/-- The three bytes that the device is identified by. -/
def identification (bytes : Nat → UInt8) : UInt32 :=
  (bytes 0).toUInt32 ||| (bytes 1).toUInt32 <<< 8 ||| (bytes 2).toUInt32 <<< 16

/-- `drv_flash_init` up to the identification of the device. -/
def initIdentify : DriverM (FlashStatus × UInt32) := do
  let controller ← drvFlashControllerInit qspi
  if controller ≠ .done then
    return (controller, 0)
  drvFlashPowerUp qspi
  let id ← drvFlashReadRegInternal build qspi readIdentificationCmd 3 (some fun _ => 0)
  return (id.1, identification id.2)

/-- `drv_flash_init` from the write protection on. -/
def initSettings : DriverM FlashStatus := do
  let cleared ← drvFlashClearWriteProtection build qspi
  if cleared ≠ .done then
    return cleared
  let config ← readConfig
  let performance ← initHighPerformance build qspi config
  if performance ≠ .done then
    return performance
  if !config.modes.all validRwMode then
    return .invalidParameter
  let quad ← initQuadMode build qspi config
  if quad ≠ .done then
    return quad
  let entered ← initAddressMode build qspi config
  if entered ≠ .done then
    return entered
  modify fun driver => { driver with flashInitDone := true }
  return .done

/-- The body of `drv_flash_init` between the lock and `FLASH_INIT_END`. -/
def initBody (allocated : Bool) : DriverM FlashStatus := do
  let identified ← initIdentify build qspi
  if identified.1 ≠ .done then
    return identified.1
  let info ← drvFlashInfoInit build qspi entries allocated identified.2
  if info ≠ .done then
    return info
  initSettings build qspi

/-- `FLASH_INIT_END`. -/
def initEnd (status : FlashStatus) : DriverM FlashStatus := do
  if !build.nonOs then
    if status ≠ .done then
      freeOperationParam
    mutexUnlock
  return status

/-- `drv_flash_init`. -/
def drvFlashInit (allocated : Bool) : DriverM FlashStatus := do
  if (← get).flashInitDone then
    return .done
  if !build.nonOs then
    mutexUnlock
    mutexLock
  let status ← initBody build qspi entries allocated
  initEnd build status

/-! ## The operations -/

/-- How each operation begins and ends: the checks of `flash_init_done` and of the state;
behind them the lock, XIP and the state are taken and given back around the body. -/
def operate (state : UInt8) (body : DriverM FlashStatus) : DriverM FlashStatus := do
  if !(← get).flashInitDone then
    return .fail
  if (← get).state ≠ 0 then
    return .busy
  if !build.nonOs then
    mutexLock
  if build.xipSupport then
    drvQspiDisableXipMode
  setState state
  let status ← body
  if build.xipSupport then
    drvQspiRestoreXipMode
  setState 0
  if !build.nonOs then
    mutexUnlock
  return status

/-- `drv_flash_read` between the state and `FLASH_READ_END`; with whether a callback is
given. -/
def readBody (address byteCnt : UInt32) (buffer : Option (Nat → UInt8)) (readCb : Bool) :
    DriverM FlashStatus := do
  match buffer with
  | none => return .invalidParameter
  | some buffer => do
      if byteCnt = 0 ∨ address + byteCnt < address then
        return .invalidParameter
      let config ← readConfig
      if address + byteCnt > config.density then
        return .invalidParameter
      if readCb then
        return .done
      let run ← drvQspiRunCmd qspi
        { opcode := config.readOpcode
          addrBytes := config.addrBytes
          dummyClocks := config.readWaitState
          cmdMode := config.readCmdMode
          addrMode := config.readAddrMode
          dataMode := config.readDataMode
          write := false }
        address buffer byteCnt.toNat
      if run.1 then
        return .done
      else
        return .fail

/-- The page program command of a configuration. -/
def FlashConfigData.pageWriteCmd (config : FlashConfigData) : QspiCmd where
  opcode := config.writeOpcode
  addrBytes := config.addrBytes
  dummyClocks := 0
  cmdMode := config.writeCmdMode
  addrMode := config.writeAddrMode
  dataMode := config.writeDataMode
  write := true

/-- The loop of `drv_flash_write`. -/
def writePages (pageWriteCmd : QspiCmd) (writeCb : Bool) (address byteCnt : UInt32)
    (buffer : Nat → UInt8) : DriverM FlashStatus :=
  if _empty : byteCnt = 0 then return .done
  else do
    let transferSize := sliceSize pageSizeInBytes address byteCnt
    let enabled ← drvFlashWriteEnable build qspi
    if enabled ≠ .done then
      return enabled
    if !writeCb then
      -- The result of the command is not looked at.
      let _ ← drvQspiRunCmd qspi pageWriteCmd address buffer transferSize.toNat
    let status ← drvFlashWaitOperationDone build qspi writeTimeout writeStatusPollingUsec
      .write progEraseWriteBusyBmsk 0
    if status ≠ .done then
      return status
    writePages pageWriteCmd writeCb (address + transferSize) (byteCnt - transferSize)
      fun i => buffer (i + transferSize.toNat)
termination_by byteCnt.toNat
decreasing_by exact rest_lt (by decide) address ‹_›

/-- `drv_flash_write` between the state and `FLASH_WRITE_END`. -/
def writeBody (address byteCnt : UInt32) (buffer : Option (Nat → UInt8)) (writeCb : Bool) :
    DriverM FlashStatus := do
  match buffer with
  | none => return .invalidParameter
  | some buffer => do
      if byteCnt = 0 ∨ address + byteCnt < address then
        return .invalidParameter
      let config ← readConfig
      if address + byteCnt > config.density then
        return .invalidParameter
      if build.xipSupport ∧ config.suspendProgramOpcode > 0 ∧
          config.resumeProgramOpcode > 0 then
        drvQspiXipSetPeState true
      writePages build qspi config.pageWriteCmd writeCb address byteCnt buffer

/-- The loop of `drv_flash_erase`. -/
def eraseUnits (eraseCmd : QspiCmd) (size : UInt32) (timeout pollingMsec : Nat) :
    Nat → UInt32 → DriverM FlashStatus
  | 0, _ => return .done
  | cnt + 1, address => do
      let enabled ← drvFlashWriteEnable build qspi
      if enabled ≠ .done then
        return enabled
      let _ ← drvQspiRunCmd qspi eraseCmd address (fun _ => 0) 0
      let status ← drvFlashWaitOperationDone build qspi timeout (pollingMsec * 1000) .erase
        progEraseWriteBusyBmsk 0
      if status ≠ .done then
        return status
      eraseUnits eraseCmd size timeout pollingMsec cnt (address + size)

/-- What `drv_flash_erase` sets for an erase type: the size, the opcode, the address bytes,
the timeout and the polling period. -/
structure EraseKind where
  size : UInt32
  opcode : UInt8
  addrBytes : UInt8
  timeout : Nat
  pollingMsec : Nat
deriving Repr, DecidableEq

/-- The branches of `drv_flash_erase` over the erase type; none is another value. -/
def FlashConfigData.eraseKind (config : FlashConfigData) (addrBytes : UInt8) :
    Option EraseType → Option EraseKind
  | some .block =>
      if config.erase4kbOpcode = 0 then none
      else
        some
          { size := blockSizeInBytes
            opcode := config.erase4kbOpcode
            addrBytes
            timeout := eraseTimeout
            pollingMsec := eraseStatusPollingMsec }
  | some .bulk =>
      if config.bulkEraseSize4kb = 0 ∨ config.bulkEraseOpcode = 0 then none
      else
        some
          { size := config.bulkEraseSize4kb.toUInt32 * blockSizeInBytes
            opcode := config.bulkEraseOpcode
            addrBytes
            timeout := eraseTimeout
            pollingMsec := eraseStatusPollingMsec }
  | some .chip =>
      if config.chipEraseOpcode = 0 then none
      else
        some
          { size := config.density
            opcode := config.chipEraseOpcode
            addrBytes := 0
            timeout := chipEraseTimeout
            pollingMsec := chipEraseStatusPollingMsec }
  | none => none

/-- The test of `drv_flash_erase` on the range. -/
def eraseRefuses (density size start cnt : UInt32) : Bool :=
  cnt = 0 || (start + cnt) * size < start * size || (start + cnt) * size > density

/-- `drv_flash_erase` between the state and `FLASH_ERASE_END`. -/
def eraseBody (addrBytes : UInt8) (eraseType : Option EraseType) (start cnt : UInt32) :
    DriverM FlashStatus := do
  let config ← readConfig
  match config.eraseKind addrBytes eraseType with
  | none => return .invalidParameter
  | some kind => do
      if eraseRefuses config.density kind.size start cnt then
        return .invalidParameter
      if build.xipSupport ∧ config.suspendEraseOpcode > 0 ∧ config.resumeEraseOpcode > 0 then
        drvQspiXipSetPeState true
      eraseUnits build qspi (singleCmd kind.opcode kind.addrBytes false) kind.size
        kind.timeout kind.pollingMsec cnt.toNat (start * kind.size)

/-- `drv_flash_read`. -/
def drvFlashRead (address byteCnt : UInt32) (buffer : Option (Nat → UInt8)) (readCb : Bool) :
    DriverM FlashStatus :=
  operate build flashStateRead (readBody qspi address byteCnt buffer readCb)

/-- `drv_flash_write`. -/
def drvFlashWrite (address byteCnt : UInt32) (buffer : Option (Nat → UInt8))
    (writeCb : Bool) : DriverM FlashStatus :=
  operate build flashStateWrite do
    let status ← writeBody build qspi address byteCnt buffer writeCb
    if build.xipSupport then
      drvQspiXipSetPeState false
    return status

/-- `drv_flash_erase`. -/
def drvFlashErase (eraseType : Option EraseType) (start cnt : UInt32) :
    DriverM FlashStatus := do
  -- The declaration of `addr_bytes` reads the configuration before the checks.
  let config ← readConfig
  operate build flashStateErase do
    let status ← eraseBody build qspi config.addrBytes eraseType start cnt
    if build.xipSupport then
      drvQspiXipSetPeState false
    return status

/-- `drv_flash_read_reg`. -/
def drvFlashReadReg (regOpcode len : UInt8) (regValue : Option (Nat → UInt8)) :
    DriverM FlashStatus :=
  operate build flashStateReadReg do
    let read ← drvFlashReadRegInternal build qspi regOpcode len regValue
    return read.1

/-- `drv_flash_write_reg`. -/
def drvFlashWriteReg (regOpcode len : UInt8) (regValue : Option (Nat → UInt8))
    (writeCb : Bool) : DriverM FlashStatus :=
  operate build flashStateWriteReg do
    let written ← drvFlashWriteRegInternal build qspi regOpcode len regValue
    if written = .done ∧ !writeCb then
      drvFlashWaitReady build qspi
    else
      return written

/-! ## Sequences of calls -/

/-- A call with its arguments; a buffer is NULL or what it holds. -/
inductive Call where
  | init (allocated : Bool)
  | read (address byteCnt : UInt32) (buffer : Option (Nat → UInt8)) (readCb : Bool)
  | write (address byteCnt : UInt32) (buffer : Option (Nat → UInt8)) (writeCb : Bool)
  | erase (eraseType : Option EraseType) (start cnt : UInt32)
  | readReg (regOpcode len : UInt8) (regValue : Option (Nat → UInt8))
  | writeReg (regOpcode len : UInt8) (regValue : Option (Nat → UInt8)) (writeCb : Bool)

def Call.run : Call → DriverM FlashStatus
  | .init allocated => drvFlashInit build qspi entries allocated
  | .read address byteCnt buffer readCb => drvFlashRead build qspi address byteCnt buffer readCb
  | .write address byteCnt buffer writeCb =>
      drvFlashWrite build qspi address byteCnt buffer writeCb
  | .erase eraseType start cnt => drvFlashErase build qspi eraseType start cnt
  | .readReg regOpcode len regValue => drvFlashReadReg build qspi regOpcode len regValue
  | .writeReg regOpcode len regValue writeCb =>
      drvFlashWriteReg build qspi regOpcode len regValue writeCb

end

/-- The driver before any call. -/
def Driver.uninitialised (xipEnabled : Bool) : Driver where
  flashInitDone := false
  state := 0
  config := none
  operationParam := .null
  mutexLocked := false
  defaultQspiClock := 0
  xipEnabled
  peState := false
  inits := 0
  issued := []
  configReads := 0

/-- The entry of `flash_device_config` for MX25R6435F, without quad mode. -/
def mx25r6435f : FlashConfigData where
  addrBytes := 3
  readCmdMode := 1
  readAddrMode := 2
  readDataMode := 2
  readOpcode := 0xBB
  readWaitState := 4
  writeCmdMode := 1
  writeAddrMode := 1
  writeDataMode := 1
  writeOpcode := 0x02
  erase4kbOpcode := 0x20
  bulkEraseSize4kb := 16
  bulkEraseOpcode := 0xD8
  chipEraseOpcode := 0x60
  quadEnableMode := 2
  suspendEraseOpcode := 0xB0
  suspendProgramOpcode := 0xB0
  resumeEraseOpcode := 0x30
  resumeProgramOpcode := 0x30
  eraseErrBmsk := 0x40
  eraseErrStatusReg := 0x2B
  writeErrBmsk := 0x20
  writeErrStatusReg := 0x2B
  highPerformanceModeBmask := 0
  densityInBlocks := 2048
  deviceId := 0x001728C2
  writeProtectBmask := 0xBC
  clkFreq := 0

/-- A driver that is initialised with a configuration and free. -/
def Driver.ready (config : FlashConfigData) : Driver :=
  { Driver.uninitialised false with flashInitDone := true, config := some config }

end QHal.FlashDriver
