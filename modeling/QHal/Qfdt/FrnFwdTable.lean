/-
Module: QHal.Qfdt.FrnFwdTable
Purpose: The converter between a firmware descriptor table and its XML,
  qfdt/frn_fwd_table.py, and the table as the boot loader lays it out.
Trusted boundary: writing and parsing XML text keeps tags, attributes and their order; `struct`
  packs and unpacks little-endian words as documented.
Main exports: FirmwareDescriptorEntry, FirmwareDescriptorTable, binToXml, xmlToBin,
  FdtS, FdtS.binary
-/
import QHal.Lib.Bytes
import QHal.Lib.Numerals
import QHal.Boot.FlashFwd

namespace QHal.Qfdt.Frn

open Numerals

/-- An XML element below the root. -/
structure Element where
  tag : String
  attrib : List (String × Text)
deriving Repr, DecidableEq

structure Document where
  tag : String
  children : List Element
deriving Repr, DecidableEq

/-- `Firmware_Descriptor_Entry`. -/
structure FirmwareDescriptorEntry where
  filename : Text
  id : Int
  rank : Int
  format : Int
  address : Int
  state : Int
  version : Int
  reserved : Vector UInt8 8
deriving Repr, DecidableEq

/-- `Firmware_Descriptor_Table`. -/
structure FirmwareDescriptorTable where
  signature : Int
  numFde : Int
  reserved : Vector UInt8 24
  entries : List FirmwareDescriptorEntry
deriving Repr, DecidableEq

def fwdTableSignature : Int := 0x54445746

/-- A little-endian word of the data to unpack. -/
def word (data : List UInt8) (offset : Nat) : Int :=
  Bytes.toNat ((data.drop offset).take 4)

/-- A string of bytes of the data to unpack. -/
def byteString (count : Nat) (data : List UInt8) (offset : Nat) : Vector UInt8 count :=
  Vector.ofFn fun i => data.getD (offset + i) 0

/-- The comparison of a `bytes` object with a list, which never succeeds. -/
def bytesEqList (_ : List UInt8) (_ : List Nat) : Bool := false

namespace FirmwareDescriptorEntry

/-- `__init__`. -/
def init : FirmwareDescriptorEntry where
  filename := []
  id := 0
  rank := 3
  format := 0
  address := 0
  state := 0
  version := 0
  reserved := Vector.replicate 8 0

/-- `to_binary` of an entry, the format `<IIIIII8s`. -/
def toBinary (entry : FirmwareDescriptorEntry) : Option (List UInt8) := do
  let id ← Bytes.pack 4 entry.id
  let rank ← Bytes.pack 4 entry.rank
  let format ← Bytes.pack 4 entry.format
  let address ← Bytes.pack 4 entry.address
  let state ← Bytes.pack 4 entry.state
  let version ← Bytes.pack 4 entry.version
  return id ++ rank ++ format ++ address ++ state ++ version ++ entry.reserved.toList

/-- `from_binary` of an entry. -/
def fromBinary (data : List UInt8) : Option FirmwareDescriptorEntry :=
  if data.length = 32 then
    some {
      filename := []
      id := word data 0
      rank := word data 4
      format := word data 8
      address := word data 12
      state := word data 16
      version := word data 20
      reserved := byteString 8 data 24 }
  else none

/-- `to_xml` of an entry.  The branch for the reserved bytes names a variable
that does not exist. -/
def toXml (entry : FirmwareDescriptorEntry) : Option Element :=
  if bytesEqList entry.reserved.toList (List.replicate 8 0) then none
  else
    some {
      tag := "fde"
      attrib := [
        ("id", decimal entry.id),
        ("filename", entry.filename),
        ("rank", decimal entry.rank),
        ("format", decimal entry.format),
        ("address", '0' :: 'x' :: hexUpper entry.address),
        ("state", decimal entry.state),
        ("version", decimal entry.version)] }

/-- `from_xml` of an entry. -/
def fromXml (element : Element) : Option FirmwareDescriptorEntry := do
  let filename ← element.attrib.lookup "filename"
  let id ← readInt 0 (← element.attrib.lookup "id")
  let rank ← readInt 0 (← element.attrib.lookup "rank")
  let format ← readInt 0 (← element.attrib.lookup "format")
  let address ← readInt 0 (← element.attrib.lookup "address")
  let state ← readInt 0 (← element.attrib.lookup "state")
  let version ← readInt 0 (← element.attrib.lookup "version")
  return { init with filename, id, rank, format, address, state, version }

end FirmwareDescriptorEntry

/-- The entries of a table one behind the other. -/
def entriesToBinary : List FirmwareDescriptorEntry → Option (List UInt8)
  | [] => some []
  | entry :: entries => do
      let data ← entry.toBinary
      let rest ← entriesToBinary entries
      return data ++ rest

/-- The entry loop of `from_binary` over the entries still to be read. -/
def readEntries (data : List UInt8) : Nat → Nat → Option (List FirmwareDescriptorEntry)
  | 0, _ => some []
  | count + 1, offset => do
      let entry ← FirmwareDescriptorEntry.fromBinary ((data.drop offset).take 32)
      let entries ← readEntries data count (offset + 32)
      return entry :: entries

def entriesToXml : List FirmwareDescriptorEntry → Option (List Element)
  | [] => some []
  | entry :: entries => do
      let element ← entry.toXml
      let elements ← entriesToXml entries
      return element :: elements

namespace FirmwareDescriptorTable

/-- `__init__`. -/
def init : FirmwareDescriptorTable where
  signature := fwdTableSignature
  numFde := 0
  reserved := Vector.replicate 24 0
  entries := []

/-- `add_entry`. -/
def addEntry (table : FirmwareDescriptorTable) (entry : FirmwareDescriptorEntry) :
    FirmwareDescriptorTable :=
  { table with entries := table.entries ++ [entry], numFde := table.numFde + 1 }

/-- `to_binary` of a table: the header in the format `<II24s` and the entries. -/
def toBinary (table : FirmwareDescriptorTable) : Option (List UInt8) := do
  let signature ← Bytes.pack 4 table.signature
  let numFde ← Bytes.pack 4 table.numFde
  let entries ← entriesToBinary table.entries
  return signature ++ numFde ++ table.reserved.toList ++ entries

/-- `from_binary` of a table. -/
def fromBinary (data : List UInt8) : Option FirmwareDescriptorTable :=
  let header := data.take 32
  if header.length = 32 then do
    let entries ← readEntries data (word header 4).toNat 32
    return {
      signature := word header 0
      numFde := word header 4
      reserved := byteString 24 header 8
      entries := entries }
  else none

/-- `to_xml` of a table.  A `bytes` object has no `encode`. -/
def toXml (table : FirmwareDescriptorTable) : Option Document :=
  if bytesEqList table.reserved.toList (List.replicate 24 0) then none
  else do
    let entries ← entriesToXml table.entries
    return {
      tag := "fdt"
      children := { tag := "hdr", attrib := [("signature", hexLower table.signature)] } :: entries }

/-- A child of the root in `from_xml`.  A `str` object has no `decode`. -/
def readChild (table : FirmwareDescriptorTable) (child : Element) :
    Option FirmwareDescriptorTable :=
  if child.tag = "hdr" then do
    let signature ←
      match child.attrib.lookup "signature" with
      | some text => readInt 0 text
      | none => some table.signature
    if (child.attrib.lookup "reserved").isSome then none
    else return { table with signature := signature }
  else if child.tag = "fde" then
    (FirmwareDescriptorEntry.fromXml child).map table.addEntry
  else some table

/-- The loop of `from_xml` over the children still to be read. -/
def readChildren : FirmwareDescriptorTable → List Element → Option FirmwareDescriptorTable
  | table, [] => some table
  | table, child :: children =>
      (readChild table child).bind fun table => readChildren table children

/-- `from_xml` of a table. -/
def fromXml (document : Document) : Option FirmwareDescriptorTable :=
  if document.tag = "fdt" then readChildren init document.children else none

end FirmwareDescriptorTable

/-- `xml_to_bin`: the bytes that it writes. -/
def xmlToBin (document : Document) (size : Nat) : Option (List UInt8) := do
  let table ← FirmwareDescriptorTable.fromXml document
  let data ← table.toBinary
  return data ++ (List.replicate size 0xFF).drop data.length

/-- `bin_to_xml`: the document that it writes. -/
def binToXml (data : List UInt8) : Option Document :=
  (FirmwareDescriptorTable.fromBinary data).bind FirmwareDescriptorTable.toXml

/-- `fdt_s` with its entries; `num_fde` is their number. -/
structure FdtS where
  signature : UInt32
  reserve : Vector UInt8 24
  fde : List Boot.FdtEntry
deriving Repr, DecidableEq

/-- The bytes of a `fdt_entry`. -/
def fdeBytes (fde : Boot.FdtEntry) : List UInt8 :=
  Bytes.ofNat 4 fde.id.toNat ++ Bytes.ofNat 4 fde.rank.toNat ++ Bytes.ofNat 4 fde.format.toNat ++
    Bytes.ofNat 4 fde.addr.toNat ++ Bytes.ofNat 4 fde.state.toNat ++
    Bytes.ofNat 4 fde.version.toNat ++ fde.reserve.toList

namespace FdtS

/-- The bytes of the structure in memory. -/
def bytes (fdt : FdtS) : List UInt8 :=
  Bytes.ofNat 4 fdt.signature.toNat ++ Bytes.ofNat 4 fdt.fde.length ++ fdt.reserve.toList ++
    fdt.fde.flatMap fdeBytes

/-- The binary of a table: 1024 bytes, erased behind the structure. -/
def binary (fdt : FdtS) : List UInt8 :=
  fdt.bytes ++ List.replicate (1024 - fdt.bytes.length) 0xFF

end FdtS

end QHal.Qfdt.Frn
