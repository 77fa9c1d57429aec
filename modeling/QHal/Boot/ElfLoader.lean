/-
Module: QHal.Boot.ElfLoader
Purpose: The segment loader: `boot_elf_load_generic_segment` and
  `boot_elf_load_image` (qboot/elf_loader/boot_elf_loader.c).
Trusted boundary: the program headers of the loader are those that its initialisation has read
Main exports: Elf32Phdr, BootElfLoader, bootElfLoadGenericSegment,
  bootElfLoadImage
-/
import QHal.Boot.ElfMem

namespace QHal.Boot

def ptLoad : UInt32 := 1
def miPbtMaxSegments : Nat := 40

/-- `boot_elf32_phdr`. -/
structure Elf32Phdr where
  pType : UInt32
  pOffset : UInt32
  pVaddr : UInt32
  pPaddr : UInt32
  pFilesz : UInt32
  pMemsz : UInt32
  pFlags : UInt32
  pAlign : UInt32
deriving Repr, DecidableEq

/-- `boot_elf_loader` after `boot_elf_load_init`: `phr_num` is the length of the
list, and the header check has bounded it by the size of the array.  `mem_ops`
is the table `elf_mem_op`, which `loader_start` registers. -/
structure BootElfLoader where
  elfAddr : UInt32
  progHdrs : List Elf32Phdr
  phrNum_le : progHdrs.length ≤ miPbtMaxSegments

/-- `bytes_to_read`. -/
def bytesToRead (header : Elf32Phdr) (offset bytesToLoad : UInt32) : UInt32 :=
  if offset ≥ header.pFilesz then 0
  else if bytesToLoad ≥ header.pFilesz - offset then header.pFilesz - offset
  else bytesToLoad

/-- `bytes_to_set`. -/
def bytesToSet (header : Elf32Phdr) (offset bytesToLoad : UInt32) : UInt32 :=
  let read := bytesToRead header offset bytesToLoad
  if read ≥ bytesToLoad then 0
  else if bytesToLoad - read ≥ header.pMemsz - header.pFilesz then
    header.pMemsz - header.pFilesz
  else bytesToLoad - read

/-- The copy of the file part of a segment, if there is one. -/
def loadFilePart (storage : Storage) (elfAddr : UInt32) (header : Elf32Phdr)
    (offset destAddr bytesToLoad : UInt32) (machine : ElfMachine) : ElfResult :=
  let read := bytesToRead header offset bytesToLoad
  if header.pMemsz ≠ 0 ∧ header.pFilesz ≠ 0 ∧ header.pMemsz ≥ header.pFilesz ∧ read ≠ 0 then
    bootElfMemRead storage elfMemOp machine (elfAddr + header.pOffset + offset) destAddr read
  else (some blErrNone, machine)

/-- The fill of the zero-initialised part of a segment, if there is one. -/
def fillZeroPart (storage : Storage) (header : Elf32Phdr)
    (offset destAddr bytesToLoad : UInt32) (machine : ElfMachine) : ElfResult :=
  let set := bytesToSet header offset bytesToLoad
  if header.pMemsz > header.pFilesz ∧ destAddr + header.pFilesz ≥ destAddr ∧ set ≠ 0 then
    bootElfMemSet storage elfMemOp machine
      (destAddr + bytesToRead header offset bytesToLoad) 0 set
  else (some blErrNone, machine)

/-- The part of `boot_elf_load_generic_segment` after its parameter checks.  A
segment without file bytes is skipped as a whole. -/
def loadSegment (storage : Storage) (elfAddr : UInt32) (header : Elf32Phdr)
    (offset destAddr bytesToLoad : UInt32) (machine : ElfMachine) : ElfResult :=
  if header.pFilesz = 0 then (some blErrNone, machine)
  else
    andThen (loadFilePart storage elfAddr header offset destAddr bytesToLoad machine)
      (fillZeroPart storage header offset destAddr bytesToLoad)

/-- `boot_elf_load_generic_segment`. -/
def bootElfLoadGenericSegment (storage : Storage) (loader : BootElfLoader) (progIdx : Nat)
    (offset destAddr bytesToLoad : UInt32) (machine : ElfMachine) : ElfResult :=
  if loader.elfAddr = 0 then (some blErrElfNullPtr, machine)
  else
    match loader.progHdrs[progIdx]? with
    | none => (some blErrElfInvalParam, machine)
    | some header =>
        loadSegment storage loader.elfAddr header offset destAddr bytesToLoad machine

/-- Whether `boot_elf_load_image` loads a segment of type `PT_LOAD`. -/
def loadsHeader (type : BootElfLoadType) (header : Elf32Phdr) : Bool :=
  match type with
  | .copy => true
  | .ram => header.pVaddr < frnRamEnd
  | .full => true
  | .max => false

/-- Destination and size of a segment in an image load. -/
def headerDest (type : BootElfLoadType) (header : Elf32Phdr) : UInt32 × UInt32 :=
  match type with
  | .copy => (header.pPaddr, header.pFilesz)
  | _ => (header.pVaddr, header.pMemsz)

/-- The loop of `boot_elf_load_image` over the headers from number `progIdx`
on.  Its `result` is `BL_ERR_NONE` in every round that is reached. -/
def loadImageLoop (storage : Storage) (loader : BootElfLoader) (type : BootElfLoadType) :
    List Elf32Phdr → Nat → ElfMachine → ElfResult
  | [], _, machine => (some blErrNone, machine)
  | header :: headers, progIdx, machine =>
      if header.pType = ptLoad ∧ loadsHeader type header = true then
        andThen
          (bootElfLoadGenericSegment storage loader progIdx 0 (headerDest type header).1
            (headerDest type header).2 machine)
          (loadImageLoop storage loader type headers (progIdx + 1))
      else loadImageLoop storage loader type headers (progIdx + 1) machine

/-- `boot_elf_load_image`. -/
def bootElfLoadImage (storage : Storage) (loader : BootElfLoader) (type : BootElfLoadType)
    (machine : ElfMachine) : ElfResult :=
  if loader.elfAddr = 0 then (some blErrElfNullPtr, machine)
  else loadImageLoop storage loader type loader.progHdrs 0 machine

end QHal.Boot
