/-
Module: QHal.Boot.RramDxe
Purpose: The RRAM write of the boot loader through the DXE engine
  (qboot/system/nt_bl_rram_dxe.c): the address check, the block write, the
  read-modify-write of an unaligned first line, the split of a write into
  blocks and the fill of a range.
Trusted boundary: the DXE transfer of one block copies the requested bytes
Main exports: DxeMachine, rramVerifyAddress, rramBlockWriteDxe,
  rramWriteUnalignedDxe, rramWriteDxe, DxeMachine.rramMemsetDxe
-/
import QHal.Boot.Storage

namespace QHal.Boot

def rramStart : UInt32 := 0x00200000
def rramEnd : UInt32 := 0x0037FFFF
def rramWriteBlockMaxSize : UInt32 := 0x3FF0
/-- `RRAM_WRITE_ADR_BYTE_ALIGN` as the width of a line. -/
def rramLine : UInt32 := 16

def blErrRramDxeInvalidAddr : BlError := 20
def blErrRramDxeInvalidBlockAddr : BlError := 21

/-- A block handed to the DXE engine: the fields of its descriptor that decide
where the data goes. -/
structure DxeBlock where
  destination : UInt32
  length : UInt32
deriving Repr, DecidableEq

/-- The memory and a record of the blocks given to the engine, oldest first.
No branch reads the record. -/
structure DxeMachine where
  memory : Mem UInt8
  blocks : List DxeBlock

/-- `rram_verify_address`. -/
def rramVerifyAddress (address length : UInt32) : BlError :=
  if rramStart ≤ address ∧ address ≤ rramEnd ∧ address % 4 = 0 ∧
      length ≤ (rramEnd - address) + 1 then blErrNone
  else blErrRramDxeInvalidAddr

/-- `rram_block_write_dxe`.  The wait for the channel has no other way out than
the end of the transfer. -/
def rramBlockWriteDxe (machine : DxeMachine) (destination : UInt32)
    (source : Nat → UInt8) (length : UInt32) : BlError × DxeMachine :=
  if destination &&& (rramLine - 1) ≠ 0 then (blErrRramDxeInvalidBlockAddr, machine)
  else if length &&& (rramLine - 1) ≠ 0 then (blErrRramDxeInvalidBlockAddr, machine)
  else
    (blErrNone,
      { memory := machine.memory.write destination length.toNat source
        blocks := machine.blocks ++ [⟨destination, length⟩] })

/-- The `while` of `rram_write_unaligned_dxe`: the line buffer and the number of
bytes written.  `offset` rises in every round, so 16 rounds are enough. -/
def unalignedLoop (source : Nat → UInt8) :
    Nat → Nat → Nat → Nat → (Nat → UInt8) → (Nat → UInt8) × Nat
  | 0, _, bytesWritten, _, buffer => (buffer, bytesWritten)
  | fuel + 1, offset, bytesWritten, length, buffer =>
      if offset < 16 ∧ length ≠ 0 then
        unalignedLoop source fuel (offset + 1) (bytesWritten + 1) (length - 1)
          (fun i => if i = offset then source bytesWritten else buffer i)
      else (buffer, bytesWritten)

/-- `rram_write_unaligned_dxe`: the status, the machine and `*length` after the
call. -/
def rramWriteUnalignedDxe (machine : DxeMachine) (destination : UInt32)
    (source : Nat → UInt8) (length : UInt32) : (BlError × DxeMachine) × UInt32 :=
  let offset := destination &&& (rramLine - 1)
  let destination := destination - offset
  let (buffer, bytesWritten) := unalignedLoop source 16 offset.toNat 0 length.toNat
    (machine.memory.cells destination)
  (rramBlockWriteDxe machine destination buffer rramLine, UInt32.ofNat bytesWritten)

/-- The loop of `rram_write_dxe` over the full blocks; `dst` and `pSrc` move on
by one block a round. -/
def fullBlocksLoop : Nat → DxeMachine → UInt32 → UInt32 → BlError × DxeMachine
  | 0, machine, _, _ => (blErrNone, machine)
  | blocks + 1, machine, dst, pSrc =>
      let (status, machine) :=
        rramBlockWriteDxe machine dst (machine.memory.cells pSrc) rramWriteBlockMaxSize
      if status ≠ blErrNone then (status, machine)
      else
        fullBlocksLoop blocks machine (dst + rramWriteBlockMaxSize)
          (pSrc + rramWriteBlockMaxSize)

/-- The partial block at the end of `rram_write_dxe`: the lines that are
overwritten as a whole, then a last line that is completed from the RRAM. -/
def partialBlock (machine : DxeMachine) (dst pSrc nbytesPartialBlock : UInt32) :
    BlError × DxeMachine :=
  let unaligned := nbytesPartialBlock &&& (rramLine - 1)
  let aligned := nbytesPartialBlock - unaligned
  let (status, machine) :=
    rramBlockWriteDxe machine dst (machine.memory.cells pSrc) aligned
  if status ≠ blErrNone then (status, machine)
  else
    let dst := dst + aligned
    let pSrc := pSrc + aligned
    if unaligned ≠ 0 then
      let buffer := fun i =>
        if i < unaligned.toNat then machine.memory.cells pSrc i
        else machine.memory.cells (dst + unaligned) (i - unaligned.toNat)
      rramBlockWriteDxe machine dst buffer rramLine
    else (status, machine)

/-- The part of `rram_write_dxe` behind the unaligned first line. -/
def alignedWrite (machine : DxeMachine) (dst pSrc length : UInt32) :
    BlError × DxeMachine :=
  let nFullBlocks := length / rramWriteBlockMaxSize
  let nbytesPartialBlock := length % rramWriteBlockMaxSize
  let (status, machine) := fullBlocksLoop nFullBlocks.toNat machine dst pSrc
  if status ≠ blErrNone then (status, machine)
  else if nbytesPartialBlock ≠ 0 then
    partialBlock machine (dst + nFullBlocks * rramWriteBlockMaxSize)
      (pSrc + nFullBlocks * rramWriteBlockMaxSize) nbytesPartialBlock
  else (status, machine)

/-- `rram_write_dxe`.  The source is a pointer into the same memory. -/
def rramWriteDxe (machine : DxeMachine) (destination source length : UInt32) :
    BlError × DxeMachine :=
  let status := rramVerifyAddress destination length
  if status ≠ blErrNone then (status, machine)
  else if destination &&& (rramLine - 1) ≠ 0 then
    let ((status, machine), nbytesWritten) :=
      rramWriteUnalignedDxe machine destination (machine.memory.cells source) length
    if status ≠ blErrNone ∨ length ≤ nbytesWritten then (status, machine)
    else
      alignedWrite machine (destination + nbytesWritten) (source + nbytesWritten)
        (length - nbytesWritten)
  else alignedWrite machine destination source length

/-! ## Filling -/

/-- `RRAM_SET_BUFFER_SIZE`. -/
def rramSetBufferSize : UInt32 := 4096

/-- The part of a range that one call sets, of at most `limit` bytes. -/
def pieceLength (limit length : UInt32) : UInt32 := if limit ≤ length then limit else length

theorem pieceLength_rest {limit length : UInt32} (wide : limit ≠ 0) (more : length ≠ 0) :
    (length - pieceLength limit length).toNat < length.toNat := by
  have positive : 0 < length.toNat := Nat.pos_of_ne_zero fun zero =>
    more (UInt32.toNat_inj.mp zero)
  unfold pieceLength
  split
  · next fits =>
      have count : 0 < limit.toNat := Nat.pos_of_ne_zero fun zero =>
        wide (UInt32.toNat_inj.mp zero)
      rw [UInt32.toNat_sub_of_le _ _ fits]
      exact Nat.sub_lt positive count
  · rw [UInt32.sub_self]
    exact positive

/-- The loop of `rram_memset_dxe`. -/
def setLoop (setBuffer : UInt32) (result : BlError × DxeMachine) (dstAddr length : UInt32) :
    BlError × DxeMachine :=
  if _ : result.1 = blErrNone ∧ length ≠ 0 then
    let setLength := pieceLength rramSetBufferSize length
    match rramWriteDxe result.2 dstAddr setBuffer setLength with
    | (status, machine) =>
        if status ≠ 0 then (status, machine)
        else setLoop setBuffer (status, machine) (dstAddr + setLength) (length - setLength)
  else result
termination_by length.toNat
decreasing_by exact pieceLength_rest (by decide) ‹result.1 = blErrNone ∧ length ≠ 0›.2

/-- `rram_memset_dxe` with the `set_buffer` at an address.  The `rramMemsetDxe` of the
storage layer is what the loader sees of it. -/
def DxeMachine.rramMemsetDxe (setBuffer : UInt32) (machine : DxeMachine) (address : UInt32)
    (value : Int32) (length : UInt32) : BlError × DxeMachine :=
  let status := rramVerifyAddress address length
  if status ≠ blErrNone then (status, machine)
  else
    let machine :=
      { machine with
        memory := machine.memory.write setBuffer rramSetBufferSize.toNat fun _ =>
          value.toUInt32.toUInt8 }
    if address &&& (rramLine - 1) ≠ 0 then
      let ((status, machine), setLength) :=
        rramWriteUnalignedDxe machine address (machine.memory.cells setBuffer)
          (pieceLength rramLine length)
      if status ≠ blErrNone ∨ length ≤ setLength then (status, machine)
      else setLoop setBuffer (status, machine) (address + setLength) (length - setLength)
    else setLoop setBuffer (status, machine) address length

end QHal.Boot
