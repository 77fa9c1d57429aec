/-
Module: QHal.Qhash.CreateXbl
Purpose: The merge of one ELF file into a new one, tools/qhash/sechash/createxbl.py: which segments
  are skipped, and where the others go.
Trusted boundary: 32-bit input and output, no second file, no xbl_sec; addresses of 32 bits are
  never out of bounds
Main exports: decodeIgnore, shouldSkipSegment, mergeElfs
-/
import QHal.Qhash.ElfFile

namespace QHal.Qhash

open Boot (Elf32Phdr)
open Files (readAt writeAt)

def pageSize : Nat := 4096
def segmentAlign : Nat := 16

/-- `roundup`. -/
def roundup (x precision : Nat) : Nat :=
  if x % precision = 0 then x else x + precision - x % precision

/-! ## The names of sections -/

/-- A byte that goes on with a character of UTF-8, in a range. -/
def continues (low high byte : UInt8) : Bool := low ≤ byte && byte ≤ high

/-- The character at the front of some bytes, and how many of them it takes. -/
def utf8Char (first : UInt8) (rest : List UInt8) : Option (Nat × Nat) :=
  let bits (byte : UInt8) : Nat := byte.toNat % 64
  match rest with
  | second :: third :: fourth :: _ =>
      if first < 0x80 then some (first.toNat, 0)
      else if continues 0xC2 0xDF first && continues 0x80 0xBF second then
        some (first.toNat % 32 * 64 + bits second, 1)
      else if continues 0xE0 0xEF first &&
          continues (if first = 0xE0 then 0xA0 else 0x80) (if first = 0xED then 0x9F else 0xBF)
            second && continues 0x80 0xBF third then
        some ((first.toNat % 16 * 64 + bits second) * 64 + bits third, 2)
      else if continues 0xF0 0xF4 first &&
          continues (if first = 0xF0 then 0x90 else 0x80) (if first = 0xF4 then 0x8F else 0xBF)
            second && continues 0x80 0xBF third && continues 0x80 0xBF fourth then
        some (((first.toNat % 8 * 64 + bits second) * 64 + bits third) * 64 + bits fourth, 3)
      else none
  | _ => if first < 0x80 then some (first.toNat, 0) else none

/-- `decode('utf-8', errors='ignore')`: bytes that are no part of a character are dropped.  The name
is padded behind its end, and the number of its bytes bounds the rounds. -/
def decodeLoop : Nat → List UInt8 → List Nat
  | 0, _ => []
  | _, [] => []
  | fuel + 1, first :: rest =>
      match utf8Char first (rest ++ [0, 0, 0]) with
      | some (character, more) => character :: decodeLoop fuel (rest.drop more)
      | none => decodeLoop fuel rest

def decodeIgnore (name : List UInt8) : List Nat := decodeLoop name.length name

/-- `lower`, as far as letters of ASCII come out of it next to each other. -/
def lower (character : Nat) : Nat :=
  if 65 ≤ character ∧ character ≤ 90 then character + 32 else character

/-- `'noinit' in section_name.lower()`. -/
def namesNoinit (name : List UInt8) : Bool :=
  let noinit : List Nat := [110, 111, 105, 110, 105, 116]
  ((decodeIgnore name).map lower).tails.any fun tail => noinit.isPrefixOf tail

/-- `get_section_name`, before it is decoded. -/
def getSectionName (file : List UInt8) (shNameOffset shstrtabOffset : UInt32) : List UInt8 :=
  if shNameOffset = 0 then []
  else (file.drop (shstrtabOffset.toNat + shNameOffset.toNat)).takeWhile (· ≠ 0)

/-! ## Skipped segments -/

/-- What the tool reads of a section header. -/
structure Elf32Shdr where
  shName : UInt32
  shAddr : UInt32
  shOffset : UInt32

def shdrSize : Nat := 40

def unpackShdr (data : List UInt8) : Option Elf32Shdr :=
  if data.length = shdrSize then some ⟨word data 0, word data 12, word data 16⟩ else none

/-- A section that is not to be initialised begins in a segment. -/
def isNoinitIn (file : List UInt8) (shstrtabOffset : UInt32) (phdr : Elf32Phdr)
    (section' : Elf32Shdr) : Bool :=
  namesNoinit (getSectionName file section'.shName shstrtabOffset) &&
    decide (phdr.pVaddr ≤ section'.shAddr) &&
      decide (section'.shAddr.toNat < phdr.pVaddr.toNat + phdr.pMemsz.toNat)

/-- The loop of `should_skip_segment` over the section headers. -/
def anyNoinit (file : List UInt8) (shstrtabOffset : UInt32) (phdr : Elf32Phdr) :
    Nat → Nat → Option Bool
  | 0, _ => some false
  | count + 1, offset => do
      let section' ← unpackShdr (readAt file offset shdrSize)
      if isNoinitIn file shstrtabOffset phdr section' then some true
      else anyNoinit file shstrtabOffset phdr count (offset + shdrSize)

/-- `should_skip_segment`. -/
def shouldSkipSegment (file : List UInt8) (header : Elf32Ehdr) (checkNoinitEnabled : Bool)
    (phdr : Elf32Phdr) : Option Bool :=
  if checkNoinitEnabled = false then some false
  else if header.eShoff = 0 ∨ header.eShnum = 0 then some false
  else do
    let shstrtab ← unpackShdr
      (readAt file (header.eShoff.toNat + header.eShstrndx.toNat * shdrSize) shdrSize)
    anyNoinit file shstrtab.shOffset phdr header.eShnum.toNat header.eShoff.toNat

/-! ## The merge -/

/-- The header of the output: an ARM executable without sections. -/
def outElfHeader (eEntry : UInt32) (ePhnum : Nat) : Elf32Ehdr where
  eIdent := #v[0x7F, 0x45, 0x4C, 0x46, 1, 1, 1, 0, 0, 0, 0, 0, 0, 0, 0, 0]
  eType := 2
  eMachine := 40
  eVersion := 1
  eEntry := eEntry
  ePhoff := 52
  eShoff := 0
  eFlags := 0
  eEhsize := 52
  ePhentsize := 32
  ePhnum := ePhnum
  eShentsize := 0
  eShnum := 0
  eShstrndx := 0

/-- How many segments are skipped. -/
def countSkipped (skip : Elf32Phdr → Option Bool) : List Elf32Phdr → Option Nat
  | [] => some 0
  | curr :: table => do
      let skipped ← skip curr
      let rest ← countSkipped skip table
      some (if skipped then rest + 1 else rest)

/-- The loop of `merge_elfs` over the program headers. -/
def mergeLoop (source : List UInt8) (skip : Elf32Phdr → Option Bool) :
    List Elf32Phdr → Nat → Nat → List UInt8 → Option (List UInt8)
  | [], _, _, out => some out
  | curr :: table, phdrOffset, segmentOffset, out => do
      if ← skip curr then mergeLoop source skip table phdrOffset segmentOffset out
      else
        let newPhdr ← movePhdr curr segmentOffset
        let out := writeAt out phdrOffset (packedPhdr newPhdr)
        let out := fileCopyOffset source curr.pOffset.toNat out newPhdr.pOffset.toNat
          newPhdr.pFilesz.toNat
        mergeLoop source skip table (phdrOffset + elf32PhdrSize)
          (segmentOffset + roundup newPhdr.pFilesz.toNat segmentAlign) out

/-- `merge_elfs`. -/
def mergeElfs (file : List UInt8) (checkNoinitEnabled : Bool) : Option (List UInt8) := do
  let (header, table) ← preprocessElfFile file
  let skip := shouldSkipSegment file header checkNoinitEnabled
  let skipped ← countSkipped skip table
  let out ← (outElfHeader header.eEntry (header.ePhnum - skipped)).getPackedData
  mergeLoop file skip table elf32HdrSize
    (roundup (elf32HdrSize + header.ePhnum * elf32PhdrSize) pageSize) (writeAt [] 0 out)

end QHal.Qhash
