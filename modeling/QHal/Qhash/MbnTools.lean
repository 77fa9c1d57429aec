/-
Module: QHal.Qhash.MbnTools
Purpose: The hash table of an ELF file, the file with the headers for it and the image that carries
  it: tools/qhash/sechash/mbn_tools.py and the main function of createxbl.py.
Trusted boundary: SHA-256 is a parameter; the call of createxbl.py, without signature and limits
Main exports: segmentEntries, hashEntries, pbootGenElf, imageHeader, pbootAddHash, createXbl
-/
import QHal.Boot.SblAuth
import QHal.Qhash.CreateXbl

namespace QHal.Qhash

open Boot (Elf32Phdr Digest)
open Files (readAt writeAt)

def miPbtPagedSegment : UInt32 := 1
def maxPhdrCount : Nat := 100
def miBootImgHdrSize : Nat := 40
def miProgBootDigestSize : Nat := 32
def flashPartiVersion : Int := 3
def appsblImg : Int := 5

def noDigest : Digest := Vector.replicate 32 0

/-! ## The hash table -/

/-- The loop of `pboot_gen_elf` over the blocks of a paged segment.  What it writes for a segment
that needs no hash is a string, which the file refuses. -/
def pagedLoop (digest : List UInt8 → Digest) (file : List UInt8) (flags : UInt32) :
    Nat → Nat → Int → Option (List Digest)
  | 0, _, _ => some []
  | fuel + 1, segOffset, off =>
      if (segOffset : Int) < off then
        let hashSize := if segOffset < elfBlockAlign then segOffset else elfBlockAlign
        if miPbtCheckFlagType flags then do
          let entries ← pagedLoop digest file flags fuel (segOffset + elfBlockAlign) off
          some (digest (readAt file segOffset hashSize) :: entries)
        else none
      else some []

/-- How far the first whole block of a paged segment is behind its beginning. -/
def pagedSkip (phdr : Elf32Phdr) : Nat :=
  let off := phdr.pVaddr.toNat % elfBlockAlign
  if off ≠ 0 then elfBlockAlign - off else 0

/-- The entries of one segment. -/
def segmentEntries (digest : List UInt8 → Digest) (file : List UInt8) (phdr : Elf32Phdr) :
    Option (List Digest) :=
  if miPbtPageModeValue phdr.pFlags = miPbtPagedSegment then
    let segSize : Int := phdr.pFilesz.toNat - pagedSkip phdr
    let segOffset := phdr.pOffset.toNat + pagedSkip phdr
    if segSize % elfBlockAlign > 0 then none
    else
      pagedLoop digest file phdr.pFlags (phdr.pFilesz.toNat / elfBlockAlign + 1) segOffset
        (segOffset + segSize)
  else if phdr.pType ≠ phdrType then
    let fileBuff := readAt file phdr.pOffset.toNat phdr.pFilesz.toNat
    some [if miPbtCheckFlagType phdr.pFlags ∧ phdr.pFilesz > 0 then digest fileBuff else noDigest]
  else some []

def hashEntries (digest : List UInt8 → Digest) (file : List UInt8) :
    List Elf32Phdr → Option (List Digest)
  | [] => some []
  | phdr :: table => do
      let entries ← segmentEntries digest file phdr
      let rest ← hashEntries digest file table
      some (entries ++ rest)

/-- The digests one behind the other. -/
def tableBytes (entries : List Digest) : List UInt8 := entries.flatMap Vector.toList

/-! ## The file with the headers -/

/-- `hash_tbl_end_addr` of `initialize_hash_phdr`. -/
def hashTblEndAddr (hashTblSize : Nat) : Nat := elfBlockAlign + miBootImgHdrSize + hashTblSize

/-- `bytes_to_pad`: a whole block where the table ends with one. -/
def bytesToPad (hashTblSize : Nat) : Nat :=
  elfBlockAlign - hashTblEndAddr hashTblSize % elfBlockAlign

def hashSegEnd (hashTblSize : Nat) : Nat := hashTblEndAddr hashTblSize + bytesToPad hashTblSize

/-- `initialize_hash_phdr`, as the header is packed. -/
def initializeHashPhdr (file : List UInt8) (hashTblSize : Nat) : Option Elf32Phdr := do
  let address ← getHashAddress file
  let pVaddr ← packI address
  let pFilesz ← packI (miBootImgHdrSize + hashTblSize : Nat)
  let pMemsz ← packI (miBootImgHdrSize + hashTblSize + bytesToPad hashTblSize : Nat)
  some
    { pType := nullType
      pOffset := UInt32.ofNat elfBlockAlign
      pVaddr
      pPaddr := pVaddr
      pFilesz
      pMemsz
      pFlags := miPbtElfHashSegment
      pAlign := UInt32.ofNat elfBlockAlign }

/-- `min_offset`. -/
def minOffset (first : Elf32Phdr) (table : List Elf32Phdr) : Nat :=
  table.foldl (fun least curr => if curr.pOffset.toNat < least then curr.pOffset.toNat else least)
    first.pOffset.toNat

/-- `hashtable_shift`. -/
def hashtableShift (table : List Elf32Phdr) (hashTblSize : Nat) : Nat :=
  match table with
  | [] => 0
  | first :: _ =>
      if minOffset first table < hashSegEnd hashTblSize then
        hashSegEnd hashTblSize - minOffset first table
      else 0

/-- The segments of the output; those of type `PT_PHDR` are not copied. -/
def copySegments (input : List UInt8) (shift : Nat) : List Elf32Phdr → List UInt8 → List UInt8
  | [], out => out
  | curr :: table, out =>
      if curr.pType = phdrType then copySegments input shift table out
      else
        copySegments input shift table
          (fileCopyOffset input curr.pOffset.toNat out (curr.pOffset.toNat + shift)
            curr.pFilesz.toNat)

/-- The program headers of the output behind the two new ones. -/
def writePhdrs (phdrSize shift : Nat) :
    List Elf32Phdr → Nat → List UInt8 → Option (List UInt8)
  | [], _, out => some out
  | curr :: table, phdrStart, out =>
      if curr.pType = phdrType then writePhdrs phdrSize shift table phdrStart out
      else do
        let moved ← movePhdr curr (curr.pOffset.toNat + shift)
        writePhdrs phdrSize shift table (phdrStart + phdrSize)
          (writeAt out phdrStart (packedPhdr moved))

/-- The header of the output counts the two new program headers and leaves sections out. -/
def pbootHeader (header : Elf32Ehdr) (table : List Elf32Phdr) : Elf32Ehdr :=
  { header with
    ePhoff := 52
    eShoff := 0
    ePhnum := header.ePhnum + 2 - table.countP fun curr => curr.pType = phdrType
    eShnum := 0
    eShstrndx := 0 }

/-- The program header of the ELF header and the program headers. -/
def elfPhdrSegment (pFilesz : UInt32) : Elf32Phdr where
  pType := nullType
  pOffset := 0
  pVaddr := 0
  pPaddr := 0
  pFilesz := pFilesz
  pMemsz := 0
  pFlags := miPbtElfPhdrSegment
  pAlign := 0

/-- `pboot_gen_elf`: the ELF file and the hash table. -/
def pbootGenElf (digest : List UInt8 → Digest) (file : List UInt8) :
    Option (List UInt8 × List UInt8) := do
  let (header, table) ← preprocessElfFile file
  let phdrSize := header.ePhentsize.toNat
  guard (header.ePhnum ≤ maxPhdrCount)
  let entries ← hashEntries digest file table
  let hashtableSize := miProgBootDigestSize * (2 + entries.length)
  let hashPhdr ← initializeHashPhdr file hashtableSize
  let shift := hashtableShift table hashtableSize
  let outHeader := pbootHeader header table
  let out := copySegments file shift table []
  let pFilesz ← packI (elf32HdrSize + outHeader.ePhnum * phdrSize : Nat)
  let out := writeAt out elf32HdrSize (packedPhdr (elfPhdrSegment pFilesz))
  let out := writeAt out (elf32HdrSize + elf32PhdrSize) (packedPhdr hashPhdr)
  let out ← writePhdrs phdrSize shift table (elf32HdrSize + 2 * phdrSize) out
  let packed ← outHeader.getPackedData
  let out := writeAt out 0 packed
  let hash := digest
    (readAt out 0 elf32HdrSize ++ readAt out elf32HdrSize (outHeader.ePhnum * phdrSize))
  some (out, writeAt (tableBytes ([noDigest, noDigest] ++ entries)) 0 hash.toList)

/-! ## The header of the hash segment -/

/-- `Boot_Hdr`, the entries that are written. -/
structure BootHdr where
  imageId : Int
  flashPartiVer : Int
  imageSrc : Int
  imageDestPtr : Int
  imageSize : Int
  codeSize : Int
  sigPtr : Int
  sigSize : Int
  certChainPtr : Int
  certChainSize : Int

/-- The ten entries of `writePackedData`.  Each pointer that is too large makes all ones of an
entry, the one of the certificates that of the signature and the other way around. -/
def BootHdr.values (header : BootHdr) : List Int :=
  let limit : Int := 0x100000000
  let ones : Int := 0xFFFFFFFF
  [header.imageId, header.flashPartiVer, header.imageSrc,
    if header.imageDestPtr ≥ limit then ones else header.imageDestPtr, header.imageSize,
    header.codeSize, if header.certChainPtr ≥ limit then ones else header.sigPtr, header.sigSize,
    if header.sigPtr ≥ limit then ones else header.certChainPtr, header.certChainSize]

def BootHdr.writePackedData (header : BootHdr) : Option (List UInt8) := do
  let packed ← header.values.mapM packI
  some (packed.flatMap fun entry => Bytes.ofNat 4 entry.toNat)

/-- `image_header` of an ELF file that is not signed. -/
def imageHeader (file : List UInt8) (codeSize : Nat) : Option (List UInt8) := do
  let address ← getHashAddress file
  let imageDest := address + miBootImgHdrSize
  let header : BootHdr :=
    { imageId := appsblImg
      flashPartiVer := flashPartiVersion
      imageSrc := 0
      imageDestPtr := imageDest
      imageSize := codeSize
      codeSize := codeSize
      sigPtr := imageDest + codeSize
      sigSize := 0
      certChainPtr := imageDest + codeSize + 0
      certChainSize := 0 }
  header.writePackedData

/-! ## The image -/

/-- `pboot_add_hash`. -/
def pbootAddHash (file hashTbl : List UInt8) : Option (List UInt8) := do
  let (_, table) ← preprocessElfFile file
  let curr ← table.find? fun curr => curr.pFlags = miPbtElfHashSegment
  some (fileCopyOffset hashTbl 0 file curr.pOffset.toNat hashTbl.length)

/-- The main function of createxbl.py with one file. -/
def createXbl (digest : List UInt8 → Digest) (file : List UInt8) (checkNoinitEnabled : Bool) :
    Option (List UInt8) := do
  let merged ← mergeElfs file checkNoinitEnabled
  let (phdrElf, targetHash) ← pbootGenElf digest merged
  let targetHashHd ← imageHeader merged targetHash.length
  pbootAddHash phdrElf (targetHashHd ++ targetHash)

end QHal.Qhash
