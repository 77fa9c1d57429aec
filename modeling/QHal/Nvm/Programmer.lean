/-
Module: QHal.Nvm.Programmer
Purpose: The command loop of the NVM programmer, qprgd/src/nvm_programmer.c, with the
  accesses of the host to its command block between any two of its own.
Trusted boundary: an NVM operation or a checksum, with the parameters and the buffer that
  it takes, is one step; the drivers are given; what the UART prints is left out.  The
  buffers have no end, and what stands behind them in the memory is left out.
Main exports: crc32Table, Command, NvmFunctions, Drivers, Programmer, deviceSwitch, checksum,
  jtagRun, Access, Event, Session, Session.step
-/
import Mathlib.Logic.Function.Basic

namespace QHal.Nvm

/-- `CRC32_Table`. -/
def crc32Table : List UInt32 :=
  [0x00000000, 0x77073096, 0xee0e612c, 0x990951ba, 0x076dc419, 0x706af48f, 0xe963a535, 0x9e6495a3,
    0x0edb8832, 0x79dcb8a4, 0xe0d5e91e, 0x97d2d988, 0x09b64c2b, 0x7eb17cbd, 0xe7b82d07, 0x90bf1d91,
    0x1db71064, 0x6ab020f2, 0xf3b97148, 0x84be41de, 0x1adad47d, 0x6ddde4eb, 0xf4d4b551, 0x83d385c7,
    0x136c9856, 0x646ba8c0, 0xfd62f97a, 0x8a65c9ec, 0x14015c4f, 0x63066cd9, 0xfa0f3d63, 0x8d080df5,
    0x3b6e20c8, 0x4c69105e, 0xd56041e4, 0xa2677172, 0x3c03e4d1, 0x4b04d447, 0xd20d85fd, 0xa50ab56b,
    0x35b5a8fa, 0x42b2986c, 0xdbbbc9d6, 0xacbcf940, 0x32d86ce3, 0x45df5c75, 0xdcd60dcf, 0xabd13d59,
    0x26d930ac, 0x51de003a, 0xc8d75180, 0xbfd06116, 0x21b4f4b5, 0x56b3c423, 0xcfba9599, 0xb8bda50f,
    0x2802b89e, 0x5f058808, 0xc60cd9b2, 0xb10be924, 0x2f6f7c87, 0x58684c11, 0xc1611dab, 0xb6662d3d,
    0x76dc4190, 0x01db7106, 0x98d220bc, 0xefd5102a, 0x71b18589, 0x06b6b51f, 0x9fbfe4a5, 0xe8b8d433,
    0x7807c9a2, 0x0f00f934, 0x9609a88e, 0xe10e9818, 0x7f6a0dbb, 0x086d3d2d, 0x91646c97, 0xe6635c01,
    0x6b6b51f4, 0x1c6c6162, 0x856530d8, 0xf262004e, 0x6c0695ed, 0x1b01a57b, 0x8208f4c1, 0xf50fc457,
    0x65b0d9c6, 0x12b7e950, 0x8bbeb8ea, 0xfcb9887c, 0x62dd1ddf, 0x15da2d49, 0x8cd37cf3, 0xfbd44c65,
    0x4db26158, 0x3ab551ce, 0xa3bc0074, 0xd4bb30e2, 0x4adfa541, 0x3dd895d7, 0xa4d1c46d, 0xd3d6f4fb,
    0x4369e96a, 0x346ed9fc, 0xad678846, 0xda60b8d0, 0x44042d73, 0x33031de5, 0xaa0a4c5f, 0xdd0d7cc9,
    0x5005713c, 0x270241aa, 0xbe0b1010, 0xc90c2086, 0x5768b525, 0x206f85b3, 0xb966d409, 0xce61e49f,
    0x5edef90e, 0x29d9c998, 0xb0d09822, 0xc7d7a8b4, 0x59b33d17, 0x2eb40d81, 0xb7bd5c3b, 0xc0ba6cad,
    0xedb88320, 0x9abfb3b6, 0x03b6e20c, 0x74b1d29a, 0xead54739, 0x9dd277af, 0x04db2615, 0x73dc1683,
    0xe3630b12, 0x94643b84, 0x0d6d6a3e, 0x7a6a5aa8, 0xe40ecf0b, 0x9309ff9d, 0x0a00ae27, 0x7d079eb1,
    0xf00f9344, 0x8708a3d2, 0x1e01f268, 0x6906c2fe, 0xf762575d, 0x806567cb, 0x196c3671, 0x6e6b06e7,
    0xfed41b76, 0x89d32be0, 0x10da7a5a, 0x67dd4acc, 0xf9b9df6f, 0x8ebeeff9, 0x17b7be43, 0x60b08ed5,
    0xd6d6a3e8, 0xa1d1937e, 0x38d8c2c4, 0x4fdff252, 0xd1bb67f1, 0xa6bc5767, 0x3fb506dd, 0x48b2364b,
    0xd80d2bda, 0xaf0a1b4c, 0x36034af6, 0x41047a60, 0xdf60efc3, 0xa867df55, 0x316e8eef, 0x4669be79,
    0xcb61b38c, 0xbc66831a, 0x256fd2a0, 0x5268e236, 0xcc0c7795, 0xbb0b4703, 0x220216b9, 0x5505262f,
    0xc5ba3bbe, 0xb2bd0b28, 0x2bb45a92, 0x5cb36a04, 0xc2d7ffa7, 0xb5d0cf31, 0x2cd99e8b, 0x5bdeae1d,
    0x9b64c2b0, 0xec63f226, 0x756aa39c, 0x026d930a, 0x9c0906a9, 0xeb0e363f, 0x72076785, 0x05005713,
    0x95bf4a82, 0xe2b87a14, 0x7bb12bae, 0x0cb61b38, 0x92d28e9b, 0xe5d5be0d, 0x7cdcefb7, 0x0bdbdf21,
    0x86d3d2d4, 0xf1d4e242, 0x68ddb3f8, 0x1fda836e, 0x81be16cd, 0xf6b9265b, 0x6fb077e1, 0x18b74777,
    0x88085ae6, 0xff0f6a70, 0x66063bca, 0x11010b5c, 0x8f659eff, 0xf862ae69, 0x616bffd3, 0x166ccf45,
    0xa00ae278, 0xd70dd2ee, 0x4e048354, 0x3903b3c2, 0xa7672661, 0xd06016f7, 0x4969474d, 0x3e6e77db,
    0xaed16a4a, 0xd9d65adc, 0x40df0b66, 0x37d83bf0, 0xa9bcae53, 0xdebb9ec5, 0x47b2cf7f, 0x30b5ffe9,
    0xbdbdf21c, 0xcabac28a, 0x53b39330, 0x24b4a3a6, 0xbad03605, 0xcdd70693, 0x54de5729, 0x23d967bf,
    0xb3667a2e, 0xc4614ab8, 0x5d681b02, 0x2a6f2b94, 0xb40bbe37, 0xc30c8ea1, 0x5a05df1b, 0x2d02ef8d]

/-- `BUFFER_SIZE`. -/
def bufferSize : UInt32 := 4096 * 4

/-- `OTP_START`. -/
def otpStart : UInt32 := 0x001A0000

/-- `QAPI_ERR_BOUNDS`. -/
def qapiErrBounds : Int := -(1 * 10000 + 10)

/-! ## Commands and results -/

/-- The commands that `JTAG_Run` knows. -/
inductive Command where
  | program
  | chipErase
  | computeCrc
  | read
  | partialErase
  | systemReset
  | otpWrite
  | otpRead
deriving Repr, DecidableEq

/-- The command of a command word. -/
def Command.ofWord (word : UInt32) : Option Command :=
  if word = 1 then some .program
  else if word = 5 then some .chipErase
  else if word = 0x41 then some .computeCrc
  else if word = 0x43 then some .read
  else if word = 0x45 then some .partialErase
  else if word = 0x47 then some .systemReset
  else if word = 0x51 then some .otpWrite
  else if word = 0x52 then some .otpRead
  else none

namespace Status

def noError : UInt32 := 0
def programError : UInt32 := 100
def partialEraseError : UInt32 := 101
def chipEraseError : UInt32 := 102
def addressError : UInt32 := 103
def readError : UInt32 := 105
def notImplemented : UInt32 := 141

/-- The status for a result. -/
def ofResult (result : Int) (error : UInt32) : UInt32 := if result = 0 then noError else error

/-- The status for a result, with one of its own for an address out of bounds. -/
def ofBoundedResult (result : Int) (error : UInt32) : UInt32 :=
  if result = qapiErrBounds then addressError else ofResult result error

end Status

/-! ## The programmer -/

/-- `NVM_Write`, `NVM_Read`, `NVM_Partial_Erase` and `NVM_Chip_Erase`, of which the last two
can be NULL, over the state of the device. -/
structure NvmFunctions (σ : Type) where
  write : σ → UInt32 → (Nat → UInt8) → UInt32 → Int × σ
  read : σ → UInt32 → (Nat → UInt8) → UInt32 → Int × (Nat → UInt8) × σ
  partialErase : Option (σ → UInt32 → UInt32 → Int × σ)
  chipErase : Option (σ → Int × σ)

/-- The drivers; that of the flash has `flash_init` and is there in some builds only. -/
structure Drivers (σ : Type) where
  rram : NvmFunctions σ
  otp : NvmFunctions σ
  flash : Option ((σ → Int × σ) × NvmFunctions σ)

/-- `JTAG_Param`; the word `command` is the one of the status, too. -/
structure Block where
  offset : UInt32
  address : UInt32
  size : UInt32
  command : UInt32
  buffer : Nat → UInt8
  readBuffer : Nat → UInt8

/-- Where the programmer stands. -/
inductive Place where
  | attach
  | attachSwitch
  | attachStore
  | attachFailed
  | dispatch
  | execute (command : Command)
  | storeStatus (status : UInt32) (address : Option UInt32)
  | storeAddress (address : UInt32)
  | idle
  | storeIdle
  | stopped
deriving Repr, DecidableEq

/-- The variables of the programmer, the device and the place. -/
structure Programmer (σ : Type) where
  block : Block
  deviceType : UInt32
  deviceTypeAttached : UInt32
  functions : Option (NvmFunctions σ)
  systemReset : Bool
  device : σ
  place : Place

variable {σ : Type}

/-- `NVM_Programmer_Start` in front of the loop. -/
def start (device : σ) : Programmer σ where
  block :=
    { offset := 0
      address := 0
      size := 0
      command := 0
      buffer := fun _ => 0
      readBuffer := fun _ => 0 }
  deviceType := 0
  deviceTypeAttached := 0xFFFF
  functions := none
  systemReset := false
  device := device
  place := .attach

/-- The `switch` of `Device_Attach`, with `flash_init`: the status, and the programmer with the
functions of the device. -/
def deviceSwitch (drivers : Drivers σ) (programmer : Programmer σ) : UInt32 × Programmer σ :=
  if programmer.deviceType = 0 then
    (Status.noError, { programmer with functions := some drivers.rram })
  else if programmer.deviceType = 1 then
    match drivers.flash with
    | none => (Status.programError, programmer)
    | some (flashInit, functions) =>
        let (status, device) := flashInit programmer.device
        (Status.ofResult status Status.programError,
          { programmer with device := device, functions := some functions })
  else if programmer.deviceType = 2 then
    (Status.noError, { programmer with functions := some drivers.otp })
  else (Status.programError, programmer)

/-- The round of `Checksum` for one byte. -/
def crcByte (result : UInt32) (byte : UInt8) : UInt32 :=
  crc32Table.getD ((result ^^^ byte.toUInt32) &&& 0xFF).toNat 0 ^^^ result >>> 8

/-- The inner loop of `Checksum`. -/
def crcBlock (result : UInt32) (buffer : Nat → UInt8) (size : UInt32) : UInt32 :=
  (List.range size.toNat).foldl (fun result i => crcByte result (buffer i)) result

/-- The size of the next block. -/
def blockSize (length : UInt32) : UInt32 := if length > bufferSize then bufferSize else length

theorem blockSize_rest {length : UInt32} (left : length ≠ 0) :
    (length - blockSize length).toNat < length.toNat := by
  have positive : 0 < length.toNat := Nat.pos_of_ne_zero fun zero =>
    left (UInt32.toNat_inj.mp zero)
  unfold blockSize
  split
  · next large =>
      have below : bufferSize.toNat < length.toNat := UInt32.lt_iff_toNat_lt.mp large
      rw [UInt32.toNat_sub_of_le _ _ (UInt32.le_iff_toNat_le.mpr (Nat.le_of_lt below))]
      exact Nat.sub_lt positive (by decide)
  · rw [UInt32.sub_self]
    exact positive

/-- The loop of `Checksum`: the device, the buffer, and the result unless a read failed. -/
def checksumLoop (read : σ → UInt32 → (Nat → UInt8) → UInt32 → Int × (Nat → UInt8) × σ)
    (device : σ) (buffer : Nat → UInt8) (address length result : UInt32) :
    σ × (Nat → UInt8) × Option UInt32 :=
  if _ : length = 0 then (device, buffer, some result)
  else
    match read device address buffer (blockSize length) with
    | (status, buffer, device) =>
        if status ≠ 0 then (device, buffer, none)
        else
          checksumLoop read device buffer (address + blockSize length)
            (length - blockSize length) (crcBlock result buffer (blockSize length))
termination_by length.toNat
decreasing_by exact blockSize_rest ‹_›

/-- `Checksum`, with what it stores in the status word. -/
def checksum (read : σ → UInt32 → (Nat → UInt8) → UInt32 → Int × (Nat → UInt8) × σ)
    (device : σ) (buffer : Nat → UInt8) (address length : UInt32) :
    σ × (Nat → UInt8) × Option UInt32 :=
  let (device, buffer, result) := checksumLoop read device buffer address length 0xFFFFFFFF
  (device, buffer, result.map fun result => result ^^^ 0xFFFFFFFF)

/-! ## JTAG_Run -/

/-- What can be seen of a command: the word that the host writes, the word that is taken as a
command, and the end of the command. -/
inductive Event where
  | hostCommand (word : UInt32)
  | taken (word : UInt32)
  | completed
deriving Repr, DecidableEq

/-- The call of a function that is not there. -/
def Programmer.fault (programmer : Programmer σ) : Programmer σ × List Event :=
  ({ programmer with place := .stopped }, [])

/-- The branch of `JTAG_Run` for a command, up to the store of the status. -/
def execute (programmer : Programmer σ) (command : Command) : Programmer σ × List Event :=
  let block := programmer.block
  let address := block.address + block.offset
  let report (programmer : Programmer σ) (status : UInt32) (address : Option UInt32) :
      Programmer σ × List Event :=
    ({ programmer with place := .storeStatus status address }, [])
  match command with
  | .program =>
      match programmer.functions with
      | none => programmer.fault
      | some functions =>
          let (result, device) := functions.write programmer.device address block.buffer block.size
          report { programmer with device := device }
            (Status.ofBoundedResult result Status.programError) (some address)
  | .computeCrc =>
      match programmer.functions with
      | none => programmer.fault
      | some functions =>
          match checksum functions.read programmer.device block.buffer address block.size with
          | (device, buffer, some crc) =>
              report { programmer with device := device, block := { block with buffer := buffer } }
                crc none
          | (device, buffer, none) =>
              ({ programmer with
                  device := device
                  block := { block with buffer := buffer }
                  place := .attach },
                [.completed])
  | .chipErase =>
      match programmer.functions.bind NvmFunctions.chipErase with
      | none => report programmer Status.notImplemented none
      | some chipErase =>
          let (result, device) := chipErase programmer.device
          report { programmer with device := device }
            (Status.ofResult result Status.chipEraseError) none
  | .partialErase =>
      match programmer.functions.bind NvmFunctions.partialErase with
      | none => programmer.fault
      | some partialErase =>
          let (result, device) := partialErase programmer.device address block.size
          report { programmer with device := device }
            (Status.ofBoundedResult result Status.partialEraseError) (some address)
  | .read =>
      match programmer.functions with
      | none => programmer.fault
      | some functions =>
          let (result, buffer, device) :=
            functions.read programmer.device address block.buffer block.size
          report { programmer with device := device, block := { block with buffer := buffer } }
            (Status.ofBoundedResult result Status.readError) (some address)
  | .systemReset => report { programmer with systemReset := true } Status.noError none
  | .otpWrite =>
      match programmer.functions with
      | none => programmer.fault
      | some functions =>
          let (result, device) :=
            functions.write programmer.device (address + otpStart) block.buffer block.size
          report { programmer with device := device }
            (Status.ofResult result Status.programError) none
  | .otpRead =>
      match programmer.functions with
      | none => programmer.fault
      | some functions =>
          let cleared : Nat → UInt8 := fun i =>
            if i < bufferSize.toNat then 0 else block.readBuffer i
          let (result, readBuffer, device) :=
            functions.read programmer.device (address + otpStart) cleared block.size
          report
            { programmer with
              device := device
              block := { block with readBuffer := readBuffer } }
            (Status.ofResult result Status.programError) none

/-- The next access of `JTAG_Run` to the command block or the device type, with the operation
that goes with it; a programmer that stopped has none. -/
def jtagRun (drivers : Drivers σ) (programmer : Programmer σ) :
    Option (Programmer σ × List Event) :=
  let store (word : UInt32) (place : Place) : Programmer σ :=
    { programmer with
      block := { programmer.block with command := word }
      place := place }
  match programmer.place with
  -- `Device_Attach` reads the device type for its test, for its `switch`, and once more, behind
  -- `flash_init`, for the type that it notes as attached.
  | .attach =>
      some ({ programmer with
        place :=
          if programmer.deviceTypeAttached = programmer.deviceType then .dispatch
          else .attachSwitch }, [])
  | .attachSwitch =>
      let (status, programmer) := deviceSwitch drivers programmer
      some ({ programmer with
        place := if status = Status.noError then .attachStore else .attachFailed }, [])
  | .attachStore =>
      some ({ programmer with
        deviceTypeAttached := programmer.deviceType
        place := .dispatch }, [])
  | .attachFailed => some (store Status.programError .attach, [])
  | .dispatch =>
      match Command.ofWord programmer.block.command with
      | some command =>
          some ({ programmer with place := .execute command },
            [.taken programmer.block.command])
      | none => some ({ programmer with place := .idle }, [])
  | .execute command => some (execute programmer command)
  | .storeStatus status none => some (store status .attach, [.completed])
  | .storeStatus status (some address) =>
      some (store status (.storeAddress address), [.completed])
  | .storeAddress address =>
      some ({ programmer with
        block := { programmer.block with address := address }
        place := .attach }, [])
  | .idle =>
      let place : Place :=
        if programmer.systemReset then .stopped
        else if programmer.block.command ≠ Status.noError then .storeIdle
        else .attach
      some ({ programmer with place := place }, [])
  | .storeIdle => some (store Status.notImplemented .attach, [])
  | .stopped => none

/-! ## The host -/

/-- An access of the host. -/
inductive Access where
  | read
  | writeOffset (word : UInt32)
  | writeAddress (word : UInt32)
  | writeSize (word : UInt32)
  | writeCommand (word : UInt32)
  | writeBuffer (offset : Nat) (byte : UInt8)
  | writeReadBuffer (offset : Nat) (byte : UInt8)
  | writeOther
  | writeDeviceType (deviceType : UInt32)

/-- What an access leaves in the command block. -/
def Access.apply (block : Block) : Access → Block
  | .writeOffset word => { block with offset := word }
  | .writeAddress word => { block with address := word }
  | .writeSize word => { block with size := word }
  | .writeCommand word => { block with command := word }
  | .writeBuffer offset byte => { block with buffer := Function.update block.buffer offset byte }
  | .writeReadBuffer offset byte =>
      { block with readBuffer := Function.update block.readBuffer offset byte }
  | .read | .writeOther | .writeDeviceType _ => block

/-- The device type behind an access. -/
def Access.deviceType (deviceType : UInt32) : Access → UInt32
  | .writeDeviceType word => word
  | _ => deviceType

/-- What can be seen of an access. -/
def Access.events : Access → List Event
  | .writeCommand word => [.hostCommand word]
  | _ => []

/-- A step of the host or of the programmer. -/
inductive Action where
  | host (access : Access)
  | run

/-- The programmer, and what was seen of its commands. -/
structure Session (σ : Type) where
  programmer : Programmer σ
  log : List Event

/-- The programmer after its start. -/
def Session.start (device : σ) : Session σ where
  programmer := Nvm.start device
  log := []

/-- One step. -/
def Session.step (drivers : Drivers σ) (session : Session σ) : Action → Option (Session σ)
  | .host access =>
      some
        { programmer :=
            { session.programmer with
              block := access.apply session.programmer.block
              deviceType := access.deviceType session.programmer.deviceType }
          log := session.log ++ access.events }
  | .run =>
      (jtagRun drivers session.programmer).map fun (programmer, events) =>
        { programmer := programmer
          log := session.log ++ events }

end QHal.Nvm
