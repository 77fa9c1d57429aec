/-
Module: QHal.Qfdt.GenFwdTable
Purpose: The generator of the firmware descriptors in flash,
  qfdt/gen_fwd_table.py: the start blocks of the entries, entries and tables
  packed into bytes, one table per aligned sector, and `from_binary`, which reads
  the descriptors back from their binary.
Trusted boundary: `struct` packs and unpacks little-endian words as documented; the exceptions of
  Python itself stand as the names of their classes.
Main exports: FirmwareDescriptorEntry, FirmwareDescriptorTable,
  FirmwareDescriptorTable.toBinary, tablesToBinary, FirmwareDescriptor.computeStartBlock,
  Field, ReadTable, FirmwareDescriptorEntry.fromBinary, tableFromBinary, fromBinary
-/
import QHal.Lib.Bytes

namespace QHal.Qfdt.Gen

/-- `Firmware_Descriptor_Entry`.  A size is a binary float; scaling it by
powers of two rounds nothing. -/
structure FirmwareDescriptorEntry where
  imageId : Int
  startBlock : Option Int
  sizeInKb : Rat
  reserved : Int
  blockSize : Nat
deriving Repr, DecidableEq

/-- `Firmware_Descriptor_Table`.  `num_images` counts the calls of `add_entry`. -/
structure FirmwareDescriptorTable where
  signature : Int
  version : Int
  rank : Int
  status : Int
  numImages : Int
  reserved : Vector UInt8 18
  entries : List FirmwareDescriptorEntry
deriving Repr, DecidableEq

/-- `FWD_TABLE_SIGNATURE`, "FWDT". -/
def fwdTableSignature : Int := 0x54445746

/-- `TABLE_ALIGN_SIZE`. -/
def tableAlignSize : Nat := 4096

namespace FirmwareDescriptorEntry

/-- `get_size_in_block`. -/
def getSizeInBlock (entry : FirmwareDescriptorEntry) : Int :=
  (entry.sizeInKb * 1024 / entry.blockSize).ceil

/-- `to_binary` of an entry, the format `<IIII`.  A start block still to be
computed is no integer, and packing it fails. -/
def toBinary (entry : FirmwareDescriptorEntry) : Option (List UInt8) := do
  let imageId ← Bytes.pack 4 entry.imageId
  let startBlock ← Bytes.pack 4 (← entry.startBlock)
  let sizeInBlock ← Bytes.pack 4 entry.getSizeInBlock
  let reserved ← Bytes.pack 4 entry.reserved
  return imageId ++ startBlock ++ sizeInBlock ++ reserved

end FirmwareDescriptorEntry

/-- The entries of a table one behind the other. -/
def entriesToBinary : List FirmwareDescriptorEntry → Option (List UInt8)
  | [] => some []
  | entry :: entries => do
      let data ← entry.toBinary
      let rest ← entriesToBinary entries
      return data ++ rest

namespace FirmwareDescriptorTable

/-- `to_binary` of a table: the header in the format `<IIIBB18s` and the
entries. -/
def toBinary (table : FirmwareDescriptorTable) : Option (List UInt8) := do
  let signature ← Bytes.pack 4 table.signature
  let version ← Bytes.pack 4 table.version
  let rank ← Bytes.pack 4 table.rank
  let status ← Bytes.pack 1 table.status
  let numImages ← Bytes.pack 1 table.numImages
  let entries ← entriesToBinary table.entries
  return signature ++ version ++ rank ++ status ++ numImages ++ table.reserved.toList ++ entries

end FirmwareDescriptorTable

/-- `tables_to_binary`: erased flash fills up each table to the alignment. -/
def tablesToBinary : List FirmwareDescriptorTable → Option (List UInt8)
  | [] => some []
  | table :: tables => do
      let t ← table.toBinary
      let data ← tablesToBinary tables
      return t ++ (List.replicate tableAlignSize 0xFF).drop t.length ++ data

/-! ## Placing the entries -/

/-- `Firmware_Descriptor`. -/
structure FirmwareDescriptor where
  tableAlignSize : Nat
  blockSize : Nat
  tables : List FirmwareDescriptorTable
deriving Repr, DecidableEq

/-- A number that a start block is computed as: `/` always makes a float. -/
inductive Number where
  | int (value : Int)
  | float (value : Rat)
deriving Repr, DecidableEq

namespace FirmwareDescriptorEntry

/-- `update_start_block`. -/
def updateStartBlock (entry : FirmwareDescriptorEntry) :
    Number → Except String FirmwareDescriptorEntry
  | .int startBlock => return { entry with startBlock := some startBlock }
  | .float _ => throw "The input start block isn't an integer"

/-- An entry without a start block takes the one that is next. -/
def place (entry : FirmwareDescriptorEntry) (startBlock : Number) :
    Except String FirmwareDescriptorEntry :=
  match entry.startBlock with
  | none => entry.updateStartBlock startBlock
  | some _ => return entry

/-- The first block of an entry and the last. -/
def firstLast (entry : FirmwareDescriptorEntry) : Except String (Int × Int) :=
  match entry.startBlock with
  | some start => return (start, start + entry.getSizeInBlock - 1)
  | none => throw "unsupported operand type(s) for +: 'NoneType' and 'int'"

end FirmwareDescriptorEntry

/-- The loop of `compute_start_block` over the entries of a table, with `start_block` and
`highest_end` behind them. -/
def placeEntries (startBlock : Number) (highestEnd : Int) :
    List FirmwareDescriptorEntry →
      Except String (List FirmwareDescriptorEntry × Number × Int)
  | [] => return ([], startBlock, highestEnd)
  | entry :: entries => do
      let entry ← entry.place startBlock
      let (start, _) ← entry.firstLast
      let currEnd := start + entry.getSizeInBlock
      let highestEnd := if currEnd > highestEnd then currEnd else highestEnd
      let (entries, startBlock, highestEnd) ← placeEntries (.int highestEnd) highestEnd entries
      return (entry :: entries, startBlock, highestEnd)

/-- The loop of `compute_start_block` over the tables. -/
def placeTables (startBlock : Number) (highestEnd : Int) :
    List FirmwareDescriptorTable → Except String (List FirmwareDescriptorTable × Number × Int)
  | [] => return ([], startBlock, highestEnd)
  | table :: tables => do
      let (entries, startBlock, highestEnd) ← placeEntries startBlock highestEnd table.entries
      let (tables, startBlock, highestEnd) ← placeTables startBlock highestEnd tables
      return ({ table with entries := entries } :: tables, startBlock, highestEnd)

/-- `__check_overlap`: an entry begins or ends in the blocks and has not just these. -/
def checkOverlap (pstart pend : Int) : List FirmwareDescriptorEntry → Except String Bool
  | [] => return false
  | entry :: entries => do
      let (cstart, cend) ← entry.firstLast
      if cstart = pstart ∧ cend = pend then checkOverlap pstart pend entries
      else if (pstart ≤ cstart ∧ cstart ≤ pend) ∨ (pstart ≤ cend ∧ cend ≤ pend) then return true
      else checkOverlap pstart pend entries

/-- `__check_overlap_all` of the entries of all tables, those of `others`. -/
def checkOverlapAll (others : List FirmwareDescriptorEntry) :
    List FirmwareDescriptorEntry → Except String Unit
  | [] => return ()
  | entry :: entries => do
      let (currStart, currEnd) ← entry.firstLast
      if ← checkOverlap currStart currEnd others then throw "Overlapping partitions"
      else checkOverlapAll others entries

namespace FirmwareDescriptor

/-- The entries of all tables, in the order of the loops over them. -/
def entries (descriptor : FirmwareDescriptor) : List FirmwareDescriptorEntry :=
  descriptor.tables.flatMap FirmwareDescriptorTable.entries

/-- `compute_start_block`. -/
def computeStartBlock (descriptor : FirmwareDescriptor) : Except String FirmwareDescriptor := do
  if descriptor.blockSize = 0 then throw "division by zero"
  else
    let numFwt : Rat :=
      descriptor.tables.length * descriptor.tableAlignSize / descriptor.blockSize
    let (tables, _, _) ← placeTables (.float numFwt) 0 descriptor.tables
    let descriptor := { descriptor with tables := tables }
    checkOverlapAll descriptor.entries descriptor.entries
    return descriptor

end FirmwareDescriptor

/-- A value that is unpacked, or the text that `str` makes of it. -/
inductive Field where
  | int (value : Int)
  | bytes (value : List UInt8)
  | str (value : Field)
deriving Repr, DecidableEq

/-- `all_bytes[index]`. -/
def item (allBytes : List Field) (index : Nat) : Except String Field :=
  match allBytes[index]? with
  | some value => return value
  | none => throw "IndexError"

/-- `range` of a value. -/
def rangeOf : Field → Except String Nat
  | .int value => return value.toNat
  | _ => throw "TypeError"

/-- A little-endian number of some bytes. -/
def number (data : List UInt8) (offset width : Nat) : Int :=
  Bytes.toNat ((data.drop offset).take width)

/-- `fde_size`. -/
def fdeSize : Nat := 16

/-- `from_binary` of an entry, the format `<IIII`. -/
def FirmwareDescriptorEntry.fromBinary (blockSize : Nat) (data : List UInt8) :
    Except String FirmwareDescriptorEntry :=
  if data.length = fdeSize then
    return {
      imageId := number data 0 4
      startBlock := some (number data 4 4)
      sizeInKb := number data 8 4 * blockSize / 1024
      reserved := number data 12 4
      blockSize := blockSize }
  else throw "struct.error"

/-- The members of a `Firmware_Descriptor_Table` behind `from_binary`. -/
structure ReadTable where
  signature : Field
  version : Field
  rank : Field
  status : Field
  numImages : Field
  reserved : Field
  entries : List FirmwareDescriptorEntry
deriving Repr, DecidableEq

/-- `header_size`. -/
def headerSize : Nat := 32

/-- `fdt_packed.unpack`, the format `<IIIBB18s`. -/
def unpackHeader (data : List UInt8) : Except String (List Field) :=
  if data.length = headerSize then
    return [.int (number data 0 4), .int (number data 4 4), .int (number data 8 4),
      .int (number data 12 1), .int (number data 13 1), .bytes (data.drop 14)]
  else throw "struct.error"

def readEntries (blockSize : Nat) (data : List UInt8) :
    Nat → Nat → Except String (List FirmwareDescriptorEntry)
  | 0, _ => return []
  | count + 1, offset => do
      let entry ← FirmwareDescriptorEntry.fromBinary blockSize ((data.drop offset).take fdeSize)
      let entries ← readEntries blockSize data count (offset + fdeSize)
      return entry :: entries

/-- `from_binary` of a table.  The indices are those of bytes, and not of the six values. -/
def tableFromBinary (blockSize : Nat) (data : List UInt8) : Except String ReadTable := do
  let allBytes ← unpackHeader (data.take headerSize)
  let signature ← item allBytes 0
  let version ← item allBytes 4
  let rank ← item allBytes 8
  let status ← item allBytes 12
  let numImages ← item allBytes 13
  let reserved ← item allBytes 14
  let entries ← readEntries blockSize data (← rangeOf numImages) headerSize
  return { signature, version, rank, status, numImages, reserved := .str reserved, entries }

/-- `Firmware_Descriptor.from_binary`: the tables of the aligned sectors that have the
signature. -/
def fromBinary (data : List UInt8) : Except String (List ReadTable) :=
  if headerSize < data.length then do
    let table ← tableFromBinary tableAlignSize data
    let tables ← fromBinary (data.drop tableAlignSize)
    return if table.signature = .int fwdTableSignature then table :: tables else tables
  else return []
termination_by data.length
decreasing_by
  have aligned : 0 < tableAlignSize := by decide
  rw [List.length_drop]
  omega

end QHal.Qfdt.Gen
