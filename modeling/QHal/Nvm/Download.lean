/-
Module: QHal.Nvm.Download
Purpose: The download of an image by the host, `NVM_Programmer.download` of
  tools/qprgc/nvm_programmer.py, to a target that runs `JTAG_Run` once for each continue.
Trusted boundary: gdb's `restore` copies the bytes of the file, those of a hex file by the
  addresses that the parser gives them; an operation of a device that fails says so.  The
  file is there, and what the host prints is left out.
Main exports: Target, Fault, Board, drivers, gdbContinue, Image, download
-/
import Mathlib.Algebra.Group.Int.Defs
import QHal.Flash.NvmFlash
import QHal.Hex.HexFile
import QHal.Nvm.NvmRram
import QHal.Proofs.NvmCommands

namespace QHal.Nvm

open Flash (FlashConfig FlashStatus flashInit flashWrite flashRead)

/-! ## The devices -/

/-- `NVM_TYPE_NAME_RRAM` and `NVM_TYPE_NAME_FLASH`. -/
inductive Target where
  | rram
  | flash
deriving Repr, DecidableEq

def Target.word : Target → UInt32
  | .rram => 0
  | .flash => 1

/-- An operation of a device that fails: what it returns, and what it leaves in the cells, or
in the buffer of a read. -/
structure Fault where
  status : Int
  failed : status ≠ 0
  contents : Nat → UInt8

/-- The RRAM and the flash, `flash_inited`, and how many operations there were. -/
structure Board where
  rram : Cells
  flash : Nor.Device
  flashInited : Bool
  operations : Nat

/-- The status of `flash_write` and `flash_read` as a number. -/
def statusWord : FlashStatus → Int
  | .done => 0
  | .fail => 1
  | .invalidParameter => 3
  | .busy => 8
  | .errBounds => qapiErrBounds

/-- An operation, which may fail. -/
def Board.operate {α : Type} (faults : Nat → Option Fault) (board : Board)
    (failed : Fault → Board → α) (done : Board → α) : α :=
  let next := { board with operations := board.operations + 1 }
  match faults board.operations with
  | some fault => failed fault next
  | none => done next

/-- `nvm_rram_write` and `nvm_rram_read`; the erase has no part in a download. -/
def rramFunctions (faults : Nat → Option Fault) : NvmFunctions Board where
  write board address buffer size :=
    board.operate faults (fun fault board => (fault.status, { board with rram := fault.contents }))
      fun board =>
        match nvmRramWrite board.rram address buffer size with
        | some (status, cells) => (status, { board with rram := cells })
        -- An assertion would stop the target, but none fails (`rramWrite_eq`).
        | none => (1, board)
  read board address buffer size :=
    board.operate faults (fun fault board => (fault.status, fault.contents, board)) fun board =>
      let (status, buffer) := nvmRramRead board.rram address buffer size
      (status, buffer, board)
  partialErase := none
  chipErase := none

/-- `flash_write` and `flash_read`. -/
def flashFunctions (config : FlashConfig) (faults : Nat → Option Fault) : NvmFunctions Board where
  write board address buffer size :=
    board.operate faults
      (fun fault board =>
        (fault.status, { board with flash := { board.flash with cells := fault.contents } }))
      fun board =>
        match flashWrite (flashInit config board.flash) address (some buffer) size with
        | some (status, nvm) => (statusWord status, { board with flash := nvm.ctx.device })
        -- The check in front of a write would not end, but it does (`checkErase_spec`).
        | none => (1, board)
  read board address buffer size :=
    board.operate faults (fun fault board => (fault.status, fault.contents, board)) fun board =>
      let (status, buffer) := flashRead (flashInit config board.flash) address buffer size
      (statusWord status, buffer, board)
  partialErase := none
  chipErase := none

/-- `flash_init`. -/
def initFlash (faults : Nat → Option Fault) (board : Board) : Int × Board :=
  if board.flashInited then (0, board)
  else
    board.operate faults (fun fault board => (fault.status, board)) fun board =>
      (0, { board with flashInited := true })

/-- The drivers of a build with the flash. -/
def drivers (config : FlashConfig) (faults : Nat → Option Fault) : Drivers Board where
  rram := rramFunctions faults
  -- The OTP has no part in a download.
  otp := rramFunctions faults
  flash := some (initFlash faults, flashFunctions config faults)

/-- The byte that a device holds at an address. -/
def Board.byteAt (config : FlashConfig) (board : Board) (target : Target) (address : Int) :
    Option UInt8 :=
  match target with
  | .rram =>
      if rramStart.toNat ≤ address ∧ address ≤ rramEnd.toNat then some (board.rram address.toNat)
      else none
  | .flash =>
      if 0 ≤ address ∧ address < config.density.toNat then some (board.flash.cells address.toNat)
      else none

/-! ## The image -/

/-- The blocks that the parser makes of a hex file: in order, apart from each other, and
with 32-bit addresses (`exists_parsedHex`). -/
structure ParsedHex where
  file : Hex.HexFile
  apart : file.blocks.Pairwise fun block next => block.stop < next.start
  inside : ∀ block ∈ file.blocks, 0 ≤ block.start ∧ block.start < 2 ^ 32

/-- The file and how it is read. -/
inductive Image where
  | binary (beginAddress : Int) (bytes : List UInt8)
  | hex (parsed : ParsedHex)

/-- What the image has at which address. -/
def Image.blocks : Image → List (Int × List UInt8)
  | .binary beginAddress bytes => [(beginAddress, bytes)]
  | .hex parsed => parsed.file.blocks.map fun block => (block.start, block.data)

/-- A byte of the file, as `restore` names it. -/
def Image.fileByte (image : Image) (offset : Int) : Option UInt8 :=
  match image with
  | .binary _ bytes => if 0 ≤ offset then bytes[offset.toNat]? else none
  | .hex parsed => parsed.file.byteAt offset

/-- `file_offset`, the place in the file of a block. -/
def Image.fileOffset (image : Image) (startAddress : Int) : Int :=
  match image with
  | .binary .. => 0
  | .hex _ => startAddress

/-! ## The host -/

/-- `data_buf_size`, the part of `JTAG_Param_t` from `Buffer` on. -/
def dataBufSize : Nat := bufferSize.toNat + bufferSize.toNat

/-- `ERROR_MAP`. -/
def errorMap : List (UInt32 × String) :=
  [(0, "Success"), (1, "Failed"), (100, "Programm error"), (101, "Partial erase error"),
    (102, "Chip erase error"), (103, "Invalid address"), (104, "Device attach error"),
    (105, "Read error"), (141, "Not implemented")]

variable {σ : Type}

/-- `write_int`: the low 32 bits of what `struct.pack` takes for 64 bits. -/
def writeInt (access : UInt32 → Access) (value : Int) (programmer : Programmer σ) :
    Except String (Programmer σ) :=
  if 0 ≤ value ∧ value < 2 ^ 64 then
    let access := access (UInt32.ofNat value.toNat)
    return { programmer with
      block := access.apply programmer.block
      deviceType := access.deviceType programmer.deviceType }
  else throw "argument out of range"

/-- `JTAG_Run` up to its next start, if it comes there in as many accesses. -/
def runOnce (drivers : Drivers σ) : Nat → Programmer σ → Option (Programmer σ)
  | 0, _ => none
  | accesses + 1, programmer => do
      let (programmer, _) ← jtagRun drivers programmer
      if programmer.place = .attach then return programmer else runOnce drivers accesses programmer

/-- `gdb_execute('c')`, up to the breakpoint at `JTAG_Run`. -/
def gdbContinue (drivers : Drivers σ) (programmer : Programmer σ) :
    Except String (Programmer σ) :=
  match runOnce drivers 7 programmer with
  | some programmer => return programmer
  | none => throw "the target does not come to the breakpoint"

/-- `restore` of `size` bytes of the file from `offset` on to the start of the buffer. -/
def restore (image : Image) (offset : Int) (size : Nat) (programmer : Programmer σ) :
    Programmer σ :=
  { programmer with
    block := { programmer.block with
      buffer := fun i =>
        if i < size then (image.fileByte (offset + i)).getD (programmer.block.buffer i)
        else programmer.block.buffer i } }

/-- A command over a range: the status word behind it. -/
def command (drivers : Drivers σ) (word : UInt32) (address : Int) (size : Nat)
    (programmer : Programmer σ) : Except String (UInt32 × Programmer σ) := do
  let programmer ← writeInt .writeAddress address programmer
  let programmer ← writeInt .writeSize size programmer
  let programmer ← writeInt .writeCommand word.toNat programmer
  let programmer ← gdbContinue drivers programmer
  return (programmer.block.command, programmer)

/-- The loop of `download` over the pieces of a block. -/
def programLoop (drivers : Drivers σ) (image : Image) (fileOffset address : Int) (length : Nat)
    (programmer : Programmer σ) : Except String (Programmer σ) :=
  if length = 0 then return programmer
  else do
    let writeLen := min dataBufSize length
    let programmer := restore image fileOffset writeLen programmer
    let (writeResult, programmer) ← command drivers 0x00000001 address writeLen programmer
    if writeResult ≠ 0 then
      match errorMap.lookup writeResult with
      | some text => throw s!"Write operation failed:{text}, error code = {writeResult}"
      | none => throw s!"KeyError: {writeResult}"
    else
      programLoop drivers image (fileOffset + writeLen) (address + writeLen) (length - writeLen)
        programmer
termination_by length
decreasing_by
  have positive : 0 < dataBufSize := by decide
  omega

/-- The round of `download` for a block. -/
def downloadBlock (drivers : Drivers σ) (image : Image) (hexFile : Hex.HexFile)
    (startAddress : Int) (size : Nat) (programmer : Programmer σ) :
    Except String (Programmer σ) := do
  let fileOffset := image.fileOffset startAddress
  let programmer ← programLoop drivers image fileOffset startAddress size programmer
  let (crcResult, programmer) ← command drivers 0x00000041 startAddress size programmer
  if crcResult ≠ crc32 (hexFile.get startAddress size 0xFF) then
    throw "CRC32 verification failed."
  else return programmer

/-- The check of `begin_address`, which is 0 for a hex file. -/
def checkBegin (target : Target) (beginAddress : Int) : Except String Unit :=
  match target with
  | .flash =>
      if beginAddress % 4096 ≠ 0 then
        throw "flash programming begin address is not 4096 bytes aligned"
      else return ()
  | .rram =>
      if beginAddress % 4 ≠ 0 then throw "rram programming address is not 4 bytes aligned"
      else return ()

/-- The object that the host makes of the file. -/
def Image.hexFile : Image → Except String Hex.HexFile
  | .binary beginAddress bytes => Hex.HexFile.empty.add beginAddress bytes
  | .hex parsed => return parsed.file

def Image.beginAddress : Image → Int
  | .binary beginAddress _ => beginAddress
  | .hex _ => 0

/-- `download`, with `set_nvm_name`: the programmer behind it, unless it raises. -/
def download (drivers : Drivers σ) (target : Target) (image : Image)
    (programmer : Programmer σ) : Except String (Programmer σ) := do
  let programmer ← writeInt .writeDeviceType target.word.toNat programmer
  checkBegin target image.beginAddress
  let hexFile ← image.hexFile
  hexFile.blockList.foldlM
    (fun programmer (startAddress, size) =>
      downloadBlock drivers image hexFile startAddress size programmer) programmer

end QHal.Nvm
