/-
Module: QHal.Nvm.NvmRram
Purpose: The RRAM and OTP writes of the NVM programmer, qprgd/src/nvm_rram.c.
Trusted boundary: the DXE transfer of a block ends and copies the requested bytes; the
  source lies outside the RRAM and the OTP.
Main exports: rramBlockWrite, rramWriteUnaligned, rramWrite, otpRramWrite, nvmRramWrite,
  nvmRramRead, otpRramRead
-/
import QHal.Boot.RramDxe

namespace QHal.Nvm

/-- `RRAM_WRITE_ADR_BYTE_ALIGN`. -/
def rramLine : Nat := 16

def rramWriteBlockMaxSize : Nat := 0x3FF0

def rramStart : UInt32 := 0x00200000
def rramEnd : UInt32 := 0x0037FFFF
def otpEnd : UInt32 := 0x001A0FFF

/-- `READ_PERMISSION_READ_WRITE_PERMISIONS_ADDRESS`. -/
def permissionsAddress : UInt32 := 0x001A0030

/-- `READ_PERMISSION_READ_WRITE_PERMISIONS_OFFSET`, a mask. -/
def permissionsMask : UInt8 := 0x2

/-- The cells by their addresses. -/
abbrev Cells := Nat → UInt8

/-- `rram_block_write`, unless an assertion fails.  Its status is always 0. -/
def rramBlockWrite (cells : Cells) (destination : Nat) (source : Nat → UInt8) (length : Nat) :
    Option Cells :=
  if destination % rramLine = 0 ∧ length % rramLine = 0 then
    some (Mem.overlay cells destination length source)
  else none

/-- `rram_write_unaligned`: the cells, and `*length` behind it. -/
def rramWriteUnaligned (cells : Cells) (destination : Nat) (source : Nat → UInt8) (length : Nat) :
    Option (Cells × Nat) :=
  let offset := destination % rramLine
  let line := destination - offset
  let (buffer, bytesWritten) :=
    Boot.unalignedLoop source 16 offset 0 length fun i => cells (line + i)
  (rramBlockWrite cells line buffer rramLine).map fun cells => (cells, bytesWritten)

/-- The loop of `rram_write` over the full blocks. -/
def rramFullBlocks : Nat → Cells → Nat → (Nat → UInt8) → Option Cells
  | 0, cells, _, _ => some cells
  | blocks + 1, cells, dst, source => do
      let cells ← rramBlockWrite cells dst source rramWriteBlockMaxSize
      rramFullBlocks blocks cells (dst + rramWriteBlockMaxSize)
        fun i => source (rramWriteBlockMaxSize + i)

/-- The partial block at the end of `rram_write`. -/
def rramPartialBlock (cells : Cells) (dst : Nat) (source : Nat → UInt8) (length : Nat) :
    Option Cells := do
  let unaligned := length % rramLine
  let aligned := length - unaligned
  let cells ← rramBlockWrite cells dst source aligned
  if unaligned ≠ 0 then
    let buffer := fun i => if i < unaligned then source (aligned + i) else cells (dst + aligned + i)
    rramBlockWrite cells (dst + aligned) buffer rramLine
  else return cells

/-- `rram_write` behind the unaligned first line. -/
def rramWriteAligned (cells : Cells) (dst : Nat) (source : Nat → UInt8) (length : Nat) :
    Option Cells := do
  let fullBlocks := length / rramWriteBlockMaxSize
  let rest := length % rramWriteBlockMaxSize
  let cells ← rramFullBlocks fullBlocks cells dst source
  if rest ≠ 0 then
    rramPartialBlock cells (dst + fullBlocks * rramWriteBlockMaxSize)
      (fun i => source (fullBlocks * rramWriteBlockMaxSize + i)) rest
  else return cells

/-- `rram_write`. -/
def rramWrite (cells : Cells) (destination : Nat) (source : Nat → UInt8) (length : Nat) :
    Option Cells :=
  if destination % rramLine ≠ 0 then do
    let (cells, written) ← rramWriteUnaligned cells destination source length
    rramWriteAligned cells (destination + written) (fun i => source (written + i))
      (length - written)
  else rramWriteAligned cells destination source length

/-- The common body of the address checks. -/
def verifyAddress (start end_ address length : UInt32) : Bool :=
  start ≤ address && address ≤ end_ && address % 4 = 0 && end_ - address + 1 ≥ length

/-- `otp_rram_verify_address`. -/
def otpRramVerifyAddress (address length : UInt32) : Bool :=
  verifyAddress 0x001A0000 otpEnd address length

/-- `nvm_rram_verify_address`. -/
def nvmRramVerifyAddress (address length : UInt32) : Bool :=
  verifyAddress rramStart rramEnd address length

/-- What `otp_rram_write` makes of its source. -/
def maskSource (destination : UInt32) (source : Nat → UInt8) : Nat → UInt8 := fun i =>
  if destination = permissionsAddress ∧ i = 0 then source i &&& ~~~permissionsMask else source i

/-- `otp_rram_write`: the status, `QAPI_ERR_BOUNDS` if the range is refused. -/
def otpRramWrite (cells : Cells) (destination : UInt32) (source : Nat → UInt8)
    (length : UInt32) : Option (Int × Cells) :=
  if otpRramVerifyAddress destination length = false then some (-(1 * 10000 + 10), cells)
  else
    (rramWrite cells destination.toNat (maskSource destination source) length.toNat).map
      fun cells => (0, cells)

/-- `nvm_rram_write`. -/
def nvmRramWrite (cells : Cells) (destination : UInt32) (source : Nat → UInt8)
    (length : UInt32) : Option (Int × Cells) :=
  if nvmRramVerifyAddress destination length = false then some (-(1 * 10000 + 10), cells)
  else
    (rramWrite cells destination.toNat source length.toNat).map fun cells => (0, cells)

/-- `nvm_rram_read` into a buffer. -/
def nvmRramRead (cells : Cells) (address : UInt32) (buffer : Nat → UInt8) (length : UInt32) :
    Int × (Nat → UInt8) :=
  if nvmRramVerifyAddress address length = false then (-(1 * 10000 + 10), buffer)
  else (0, Mem.overlay buffer 0 length.toNat fun i => cells (address.toNat + i))

/-- `otp_rram_read` into a buffer. -/
def otpRramRead (cells : Cells) (address : UInt32) (buffer : Nat → UInt8) (length : UInt32) :
    Int × (Nat → UInt8) :=
  if otpRramVerifyAddress address length = false then (-(1 * 10000 + 10), buffer)
  else (0, Mem.overlay buffer 0 length.toNat fun i => cells (address.toNat + i))

end QHal.Nvm
