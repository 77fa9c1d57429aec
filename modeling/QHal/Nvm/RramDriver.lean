/-
Module: QHal.Nvm.RramDriver
Purpose: The RRAM driver of the NVM programmer, qprgd/src/nvm_rram.c, over the one memory
  that its pointers go to, with a record of the blocks that it gives to the DXE engine.
Trusted boundary: the DXE transfer of one block ends and copies the requested bytes
Main exports: rramBlockWrite, rramWriteUnaligned, rramWrite, nvmRramWrite, rramErase
-/
import QHal.Nvm.NvmRram

namespace QHal.RramDriver

open Boot (DxeMachine rramLine rramWriteBlockMaxSize pieceLength)

/-- `RRAM_ERASE_START`. -/
def rramEraseStart : UInt32 := 0x00208000

/-- `RRAM_ERASE_BUFFER_SIZE`. -/
def rramEraseBufferSize : UInt32 := 4096

/-- `QAPI_ERR_BOUNDS`. -/
def qapiErrBounds : Int := -(1 * 10000 + 10)

/-- `rram_block_write`, unless an assertion fails. -/
def rramBlockWrite (machine : DxeMachine) (destination : UInt32) (source : Nat → UInt8)
    (length : UInt32) : Option (Int × DxeMachine) :=
  if destination &&& (rramLine - 1) = 0 ∧ length &&& (rramLine - 1) = 0 then
    some (0,
      { memory := machine.memory.write destination length.toNat source
        blocks := machine.blocks ++ [⟨destination, length⟩] })
  else none

/-- `rram_write_unaligned`: the status, the machine and `*length` after the call. -/
def rramWriteUnaligned (machine : DxeMachine) (destination : UInt32) (source : Nat → UInt8)
    (length : UInt32) : Option ((Int × DxeMachine) × UInt32) :=
  let offset := destination &&& (rramLine - 1)
  let destination := destination - offset
  let (buffer, bytesWritten) := Boot.unalignedLoop source 16 offset.toNat 0 length.toNat
    (machine.memory.cells destination)
  (rramBlockWrite machine destination buffer rramLine).map fun result =>
    (result, UInt32.ofNat bytesWritten)

/-- The loop of `rram_write` over the full blocks. -/
def fullBlocksLoop : Nat → Int × DxeMachine → UInt32 → UInt32 → Option (Int × DxeMachine)
  | 0, result, _, _ => some result
  | blocks + 1, (_, machine), dst, pSrc => do
      let (status, machine) ←
        rramBlockWrite machine dst (machine.memory.cells pSrc) rramWriteBlockMaxSize
      if status ≠ 0 then return (status, machine)
      else
        fullBlocksLoop blocks (status, machine) (dst + rramWriteBlockMaxSize)
          (pSrc + rramWriteBlockMaxSize)

/-- The partial block at the end of `rram_write`. -/
def partialBlock (machine : DxeMachine) (dst pSrc nbytesPartialBlock : UInt32) :
    Option (Int × DxeMachine) := do
  let unaligned := nbytesPartialBlock &&& (rramLine - 1)
  let aligned := nbytesPartialBlock - unaligned
  let (status, machine) ← rramBlockWrite machine dst (machine.memory.cells pSrc) aligned
  if status ≠ 0 then return (status, machine)
  else
    let dst := dst + aligned
    let pSrc := pSrc + aligned
    if unaligned ≠ 0 then
      let buffer := fun i =>
        if i < unaligned.toNat then machine.memory.cells pSrc i
        else machine.memory.cells (dst + unaligned) (i - unaligned.toNat)
      rramBlockWrite machine dst buffer rramLine
    else return (status, machine)

/-- `rram_write` behind the unaligned first line, whose status nobody looks at when blocks
follow. -/
def alignedWrite (result : Int × DxeMachine) (dst pSrc length : UInt32) :
    Option (Int × DxeMachine) := do
  let nFullBlocks := length / rramWriteBlockMaxSize
  let nbytesPartialBlock := length % rramWriteBlockMaxSize
  let (status, machine) ← fullBlocksLoop nFullBlocks.toNat result dst pSrc
  -- The return out of the loop.
  if nFullBlocks ≠ 0 ∧ status ≠ 0 then return (status, machine)
  else if nbytesPartialBlock ≠ 0 then
    partialBlock machine (dst + nFullBlocks * rramWriteBlockMaxSize)
      (pSrc + nFullBlocks * rramWriteBlockMaxSize) nbytesPartialBlock
  else return (status, machine)

/-- `rram_write`.  The source is a pointer into the same memory. -/
def rramWrite (machine : DxeMachine) (destination source length : UInt32) :
    Option (Int × DxeMachine) :=
  if destination &&& (rramLine - 1) ≠ 0 then do
    let (result, nbytesWritten) ←
      rramWriteUnaligned machine destination (machine.memory.cells source) length
    alignedWrite result (destination + nbytesWritten) (source + nbytesWritten)
      (length - nbytesWritten)
  else alignedWrite (0, machine) destination source length

/-- `nvm_rram_write`. -/
def nvmRramWrite (machine : DxeMachine) (destination source length : UInt32) :
    Option (Int × DxeMachine) :=
  if Nvm.nvmRramVerifyAddress destination length = false then some (qapiErrBounds, machine)
  else rramWrite machine destination source length

/-! ## Erasing -/

/-- `rram_verify_erase_address`. -/
def rramVerifyEraseAddress (address length : UInt32) : Bool :=
  Nvm.verifyAddress rramEraseStart Nvm.rramEnd address length

/-- The loop of `rram_erase`. -/
def eraseLoop (eraseBuffer : UInt32) (result : Int × DxeMachine) (dstAddr length : UInt32) :
    Option (Int × DxeMachine) :=
  if _ : result.1 = 0 ∧ length ≠ 0 then
    let eraseLength := pieceLength rramEraseBufferSize length
    match rramWrite result.2 dstAddr eraseBuffer eraseLength with
    | none => none
    | some (status, machine) =>
        if status ≠ 0 then some (-1, machine)
        else
          eraseLoop eraseBuffer (status, machine) (dstAddr + eraseLength) (length - eraseLength)
  else some result
termination_by length.toNat
decreasing_by exact Boot.pieceLength_rest (by decide) ‹result.1 = 0 ∧ length ≠ 0›.2

/-- `rram_erase` with the `erase_buffer` at an address. -/
def rramErase (eraseBuffer : UInt32) (machine : DxeMachine) (address length : UInt32) :
    Option (Int × DxeMachine) :=
  if rramVerifyEraseAddress address length then do
    let machine :=
      { machine with
        memory := machine.memory.write eraseBuffer rramEraseBufferSize.toNat fun _ => 0xFF }
    if address &&& (rramLine - 1) ≠ 0 then
      let (result, eraseLength) ←
        rramWriteUnaligned machine address (machine.memory.cells eraseBuffer)
          (pieceLength rramLine length)
      eraseLoop eraseBuffer result (address + eraseLength) (length - eraseLength)
    else eraseLoop eraseBuffer (0, machine) address length
  else some (qapiErrBounds, machine)

end QHal.RramDriver
