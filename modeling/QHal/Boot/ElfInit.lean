/-
Module: QHal.Boot.ElfInit
Purpose: `boot_elf_load_init` and what it calls (qboot/elf_loader/boot_elf_loader.c and
  boot_elf_mem.c): the headers of an image are read into the loader in RAM and checked.
Trusted boundary: the pointer to the loader is not null; its fields elf_addr, phr_num and mem_ops
  are values beside the memory, which has its two arrays of headers
Main exports: bootElfMemOpInit, bootElfValidateElfHeader, bootElfLoadElfHeader,
  bootElfLoadProgHdrs, bootElfLoadInit
-/
import QHal.Boot.SblAuth
import QHal.Qhash.ElfFile

namespace QHal.Boot

open Qhash (Elf32Ehdr phdrOfBytes elf32HdrSize elf32PhdrSize)

def blErrElfMemInit : BlError := 4
def blErrElfParse : BlError := 11
def blErrElfFormat : BlError := 12
def blErrElfClassInvalid : BlError := 14
def blErrElfSegmentCount : BlError := 16

def blMemMaxNum : Nat := 4

/-! ## The memory operations -/

/-- `boot_elf_mem_op_register`. -/
def bootElfMemOpRegister (memOps : List BlElfMemOp) (memOp : BlElfMemOp) :
    BlError × List BlElfMemOp :=
  if memOps.length ≥ blMemMaxNum then (blErrElfMemInvalParam, memOps)
  else (blErrNone, memOps ++ [memOp])

/-- The loop of `boot_elf_mem_op_init`. -/
def memOpInitLoop : List BlElfMemOp → List BlElfMemOp → BlError × List BlElfMemOp
  | [], memOps => (blErrNone, memOps)
  | memOp :: opCfg, memOps =>
      let (status, memOps) := bootElfMemOpRegister memOps memOp
      if status ≠ blErrNone then (blErrElfMemInit, memOps) else memOpInitLoop opCfg memOps

/-- `boot_elf_mem_op_init`. -/
def bootElfMemOpInit (opCfg : List BlElfMemOp) : BlError × List BlElfMemOp :=
  memOpInitLoop opCfg []

/-! ## The headers in the loader -/

/-- `elf_hdr` and `prog_hdrs` of a `boot_elf_loader` at an address. -/
def elfHdrAddr (loaderAddr : UInt32) : UInt32 := loaderAddr + 4
def progHdrsAddr (loaderAddr : UInt32) : UInt32 := loaderAddr + 56
def progHdrsSize : Nat := elf32PhdrSize * miPbtMaxSegments

/-- `boot_elf32_ehdr` in memory. -/
def elfHdr (memory : Mem UInt8) (loaderAddr : UInt32) : Elf32Ehdr :=
  Elf32Ehdr.ofBytes (memoryBytes memory (elfHdrAddr loaderAddr) elf32HdrSize)

/-- An element of `prog_hdrs`. -/
def progHdr (memory : Mem UInt8) (loaderAddr : UInt32) (progIdx : Nat) : Elf32Phdr :=
  phdrOfBytes (memoryBytes memory
    (progHdrsAddr loaderAddr + UInt32.ofNat (elf32PhdrSize * progIdx)) elf32PhdrSize)

/-- The first elements of `prog_hdrs`. -/
def progHdrs (memory : Mem UInt8) (loaderAddr : UInt32) (phrNum : Nat) : List Elf32Phdr :=
  (List.range phrNum).map (progHdr memory loaderAddr)

/-- `boot_elf_validate_elf_header`. -/
def bootElfValidateElfHeader (header : Elf32Ehdr) : BlError :=
  if header.eIdent.get 0 ≠ 0x7F ∨ header.eIdent.get 1 ≠ 0x45 ∨ header.eIdent.get 2 ≠ 0x4C ∨
      header.eIdent.get 3 ≠ 0x46 then blErrElfParse
  else if header.eIdent.get 4 ≠ 1 then blErrElfClassInvalid
  else if header.eEhsize.toNat ≠ elf32HdrSize then blErrElfFormat
  else if header.ePhentsize.toNat ≠ elf32PhdrSize then blErrElfFormat
  else if header.ePhnum > miPbtMaxSegments then blErrElfSegmentCount
  else blErrNone

/-- `boot_elf_load_elf_header`. -/
def bootElfLoadElfHeader (storage : Storage) (memOps : List BlElfMemOp)
    (loaderAddr elfAddr : UInt32) (machine : ElfMachine) : ElfResult :=
  if elfAddr = 0 then (some blErrElfNullPtr, machine)
  else
    andThen
      (bootElfMemRead storage memOps machine elfAddr (elfHdrAddr loaderAddr)
        (UInt32.ofNat elf32HdrSize))
      fun machine =>
        (some (bootElfValidateElfHeader (elfHdr machine.memory loaderAddr)), machine)

/-- `boot_elf_load_prog_hdrs`. -/
def bootElfLoadProgHdrs (storage : Storage) (memOps : List BlElfMemOp)
    (loaderAddr elfAddr : UInt32) (machine : ElfMachine) : ElfResult :=
  if elfAddr = 0 then (some blErrElfNullPtr, machine)
  else
    let header := elfHdr machine.memory loaderAddr
    bootElfMemRead storage memOps machine (elfAddr + header.ePhoff) (progHdrsAddr loaderAddr)
      (UInt32.ofNat (header.ePhnum * header.ePhentsize.toNat))

/-- Both headers of the loader set to zero. -/
def clearHeaders (loaderAddr : UInt32) (machine : ElfMachine) : ElfMachine :=
  { machine with
    memory := (machine.memory.write (elfHdrAddr loaderAddr) elf32HdrSize fun _ => 0).write
      (progHdrsAddr loaderAddr) progHdrsSize fun _ => 0 }

/-- The calls of `boot_elf_load_init` behind the registration. -/
def loadHeaders (storage : Storage) (memOps : List BlElfMemOp) (loaderAddr elfAddr : UInt32)
    (machine : ElfMachine) : ElfResult :=
  andThen (bootElfLoadElfHeader storage memOps loaderAddr elfAddr machine)
    (bootElfLoadProgHdrs storage memOps loaderAddr elfAddr)

/-- `phr_num` and the other fields of a loader that has been filled. -/
def loaderOf (memory : Mem UInt8) (loaderAddr elfAddr : UInt32) : Option BootElfLoader :=
  if bounded : (elfHdr memory loaderAddr).ePhnum ≤ miPbtMaxSegments then
    some
      { elfAddr
        progHdrs := progHdrs memory loaderAddr (elfHdr memory loaderAddr).ePhnum
        phrNum_le := by simpa [progHdrs] using bounded }
  else none

/-- `boot_elf_load_init`: its result and the loader, if it returns `BL_ERR_NONE`. -/
def bootElfLoadInit (storage : Storage) (opCfg : List BlElfMemOp) (loaderAddr elfAddr : UInt32)
    (machine : ElfMachine) : ElfResult × Option BootElfLoader :=
  if elfAddr = 0 then ((some blErrElfNullPtr, machine), none)
  else
    let machine := clearHeaders loaderAddr machine
    let (status, memOps) := bootElfMemOpInit opCfg
    if status ≠ blErrNone then ((some status, machine), none)
    else
      let result := loadHeaders storage memOps loaderAddr elfAddr machine
      if result.1 = some blErrNone then (result, loaderOf result.2.memory loaderAddr elfAddr)
      else (result, none)

end QHal.Boot
