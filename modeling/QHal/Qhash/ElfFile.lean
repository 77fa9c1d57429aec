/-
Module: QHal.Qhash.ElfFile
Purpose: ELF files as the hash tool reads and writes them: headers packed by struct, the parser and
  the flags of a segment, tools/qhash/sechash/mbn_tools.py.
Trusted boundary: 32-bit files; an exception of Python is the absence of a result
Main exports: Elf32Ehdr, Elf32Ehdr.unpack, Elf32Ehdr.getPackedData, unpackPhdr, packedPhdr,
  preprocessElfFile, fileCopyOffset, miPbtCheckFlagType, getHashAddress
-/
import QHal.Boot.ElfLoader
import QHal.Lib.Files

namespace QHal.Qhash

open Boot (Elf32Phdr)
open Files (readAt writeAt)

def elf32HdrSize : Nat := 52
def elf32PhdrSize : Nat := 32
def elfBlockAlign : Nat := 0x800
def nullType : UInt32 := 0
def phdrType : UInt32 := 6
def miPbtElfHashSegment : UInt32 := 0x02200000
def miPbtElfPhdrSegment : UInt32 := 0x07000000

/-! ## Records -/

/-- A little-endian field of a record. -/
def field (data : List UInt8) (offset width : Nat) : Nat := Bytes.toNat (readAt data offset width)

def halfword (data : List UInt8) (offset : Nat) : UInt16 := UInt16.ofNat (field data offset 2)

def word (data : List UInt8) (offset : Nat) : UInt32 := UInt32.ofNat (field data offset 4)

/-- An `'I'` of `struct`, which raises an exception for a number out of range. -/
def packI (value : Int) : Option UInt32 :=
  if 0 ≤ value ∧ value < 2 ^ 32 then some (UInt32.ofNat value.toNat) else none

/-- `Elf32_Ehdr`; the tool counts in `e_phnum`. -/
structure Elf32Ehdr where
  eIdent : Vector UInt8 16
  eType : UInt16
  eMachine : UInt16
  eVersion : UInt32
  eEntry : UInt32
  ePhoff : UInt32
  eShoff : UInt32
  eFlags : UInt32
  eEhsize : UInt16
  ePhentsize : UInt16
  ePhnum : Nat
  eShentsize : UInt16
  eShnum : UInt16
  eShstrndx : UInt16
deriving DecidableEq

/-- The fields that some bytes begin with. -/
def Elf32Ehdr.ofBytes (data : List UInt8) : Elf32Ehdr where
  eIdent := Vector.ofFn fun i => data.getD i 0
  eType := halfword data 16
  eMachine := halfword data 18
  eVersion := word data 20
  eEntry := word data 24
  ePhoff := word data 28
  eShoff := word data 32
  eFlags := word data 36
  eEhsize := halfword data 40
  ePhentsize := halfword data 42
  ePhnum := (halfword data 44).toNat
  eShentsize := halfword data 46
  eShnum := halfword data 48
  eShstrndx := halfword data 50

def Elf32Ehdr.unpack (data : List UInt8) : Option Elf32Ehdr :=
  if data.length = elf32HdrSize then some (Elf32Ehdr.ofBytes data) else none

def Elf32Ehdr.packed (header : Elf32Ehdr) : List UInt8 :=
  header.eIdent.toList ++ Bytes.ofNat 2 header.eType.toNat ++ Bytes.ofNat 2 header.eMachine.toNat ++
    Bytes.ofNat 4 header.eVersion.toNat ++ Bytes.ofNat 4 header.eEntry.toNat ++
    Bytes.ofNat 4 header.ePhoff.toNat ++ Bytes.ofNat 4 header.eShoff.toNat ++
    Bytes.ofNat 4 header.eFlags.toNat ++ Bytes.ofNat 2 header.eEhsize.toNat ++
    Bytes.ofNat 2 header.ePhentsize.toNat ++ Bytes.ofNat 2 header.ePhnum ++
    Bytes.ofNat 2 header.eShentsize.toNat ++ Bytes.ofNat 2 header.eShnum.toNat ++
    Bytes.ofNat 2 header.eShstrndx.toNat

def Elf32Ehdr.getPackedData (header : Elf32Ehdr) : Option (List UInt8) :=
  if header.ePhnum < 2 ^ 16 then some header.packed else none

def phdrOfBytes (data : List UInt8) : Elf32Phdr where
  pType := word data 0
  pOffset := word data 4
  pVaddr := word data 8
  pPaddr := word data 12
  pFilesz := word data 16
  pMemsz := word data 20
  pFlags := word data 24
  pAlign := word data 28

/-- `Elf32_Phdr` of some bytes. -/
def unpackPhdr (data : List UInt8) : Option Elf32Phdr :=
  if data.length = elf32PhdrSize then some (phdrOfBytes data) else none

/-- `Elf32_Phdr.getPackedData` of fields in range. -/
def packedPhdr (header : Elf32Phdr) : List UInt8 :=
  Bytes.ofNat 4 header.pType.toNat ++ Bytes.ofNat 4 header.pOffset.toNat ++
    Bytes.ofNat 4 header.pVaddr.toNat ++ Bytes.ofNat 4 header.pPaddr.toNat ++
    Bytes.ofNat 4 header.pFilesz.toNat ++ Bytes.ofNat 4 header.pMemsz.toNat ++
    Bytes.ofNat 4 header.pFlags.toNat ++ Bytes.ofNat 4 header.pAlign.toNat

/-- A header with another offset, as it is packed. -/
def movePhdr (header : Elf32Phdr) (offset : Nat) : Option Elf32Phdr := do
  let pOffset ← packI offset
  some { header with pOffset }

/-! ## Files -/

/-- `verify_elf_header`: the magic number, a class and the version. -/
def verifyElfHeader (eIdent : Vector UInt8 16) : Bool :=
  eIdent[0] == 0x7F && eIdent[1] == 0x45 && eIdent[2] == 0x4C && eIdent[3] == 0x46 &&
    (eIdent[4] == 2 || eIdent[4] == 1) && eIdent[6] == 1

/-- The loop of `preprocess_elf_file` over the program headers. -/
def readPhdrs (file : List UInt8) (phdrSize : Nat) : Nat → Nat → Option (List Elf32Phdr)
  | 0, _ => some []
  | count + 1, offset => do
      let header ← unpackPhdr (readAt file offset phdrSize)
      let table ← readPhdrs file phdrSize count (offset + phdrSize)
      some (header :: table)

/-- `preprocess_elf_file`.  The class is a number and is compared with a string, so every file is
read as one of 32 bits. -/
def preprocessElfFile (file : List UInt8) : Option (Elf32Ehdr × List Elf32Phdr) := do
  guard ((readAt file 0 24).length = 24)
  guard (verifyElfHeader (Vector.ofFn fun i => file.getD i 0))
  let header ← Elf32Ehdr.unpack (readAt file 0 elf32HdrSize)
  guard (verifyElfHeader header.eIdent)
  let table ← readPhdrs file header.ePhentsize.toNat header.ePhnum header.ePhoff.toNat
  some (header, table)

/-- `file_copy_offset`: the output file behind it. -/
def fileCopyOffset (input : List UInt8) (inOff : Nat) (output : List UInt8)
    (outOff numBytes : Nat) : List UInt8 :=
  writeAt output outOff (readAt input inOff numBytes)

/-! ## Flags -/

def miPbtSegmentTypeValue (flags : UInt32) : UInt32 := (flags &&& 0x07000000) >>> 0x18

def miPbtPageModeValue (flags : UInt32) : UInt32 := (flags &&& 0x00100000) >>> 0x14

def miPbtAccessTypeValue (flags : UInt32) : UInt32 := (flags &&& 0x00E00000) >>> 0x15

/-- `MI_PBT_CHECK_FLAG_TYPE`: not the hash segment, not unused and not shared. -/
def miPbtCheckFlagType (flags : UInt32) : Bool :=
  miPbtSegmentTypeValue flags != 2 && miPbtAccessTypeValue flags != 3 &&
    miPbtAccessTypeValue flags != 4

/-! ## The address of the hash segment -/

/-- The loop of `get_hash_address`: the segment with the largest physical address, swapped ones
left out, and the first one if there is none. -/
def lastSegment : List Elf32Phdr → UInt32 → Elf32Phdr → Elf32Phdr
  | [], _, segment => segment
  | curr :: table, lastPaddr, segment =>
      if curr.pPaddr > lastPaddr ∧ miPbtSegmentTypeValue curr.pFlags ≠ 5 then
        lastSegment table curr.pPaddr curr
      else lastSegment table lastPaddr segment

/-- The end of a segment, rounded up by a block that is cleared from below. -/
def blockBehind (segment : Elf32Phdr) : Int :=
  ((segment.pPaddr.toNat : Int) + segment.pMemsz.toNat - 1) / elfBlockAlign * elfBlockAlign +
    elfBlockAlign

/-- `get_hash_address`. -/
def getHashAddress (file : List UInt8) : Option Int := do
  let (_, table) ← preprocessElfFile file
  match table with
  | [] => none
  | first :: _ => some (blockBehind (lastSegment table 0 first))

end QHal.Qhash
