/-
Module: QHal.Hex.HexFile
Purpose: The blocks of a hex file and the operations on them,
  tools/qprgc/gdb_framework/hexfile.py.
Trusted boundary: addresses and lengths are the integers of Python, without a bound; the
  length of a range that is given is not negative.
Main exports: HexBlock, HexFile, modify, add, merge, delete, fill, offsetAddress, get,
  getBytes, writeBin, blockList
-/
import Mathlib.Logic.Basic

namespace QHal.Hex

/-- The types of the data of a block: only a `bytearray` can be changed in place. -/
inductive Buffer where
  | bytearray
  | bytes
deriving Repr, DecidableEq

/-- `HexBlock`. -/
structure HexBlock where
  address : Int
  data : List UInt8
  kind : Buffer
deriving Repr, DecidableEq

namespace HexBlock

def start (block : HexBlock) : Int := block.address

/-- `end`, the address behind the last byte. -/
def stop (block : HexBlock) : Int := block.address + block.data.length

end HexBlock

/-- `file_type`. -/
inductive FileType where
  | i8hex
  | i16hex
  | i32hex
deriving Repr, DecidableEq

/-- The fields of a `HexFile`. -/
structure HexFile where
  blocks : List HexBlock
  fileType : FileType
  start : Option Int
deriving Repr, DecidableEq

namespace HexFile

/-- `HexFile()`. -/
def empty : HexFile where
  blocks := []
  fileType := .i8hex
  start := none

/-- The list sorted by address; blocks of one address keep their order. -/
def sortBlocks (blocks : List HexBlock) : List HexBlock :=
  blocks.mergeSort fun block other => block.address ≤ other.address

/-- `__check_overlap`: a block overlaps the range. -/
def overlaps (file : HexFile) (address : Int) (length : Nat) : Bool :=
  file.blocks.any fun block => address < block.stop && address + length > block.start

/-! ## Adding and changing data -/

/-- A block with the new data, which touches it, put over it. -/
def joinBlock (block : HexBlock) (address : Int) (data : List UInt8) : HexBlock :=
  let dataEnd := address + data.length
  let front := if address > block.start then block.data.take (address - block.start).toNat else []
  let back :=
    if dataEnd < block.stop then
      block.data.drop (block.data.length - (block.stop - dataEnd).toNat)
    else []
  { address := min address block.start
    data := front ++ data ++ back
    kind := if address > block.start then block.kind else .bytearray }

/-- The loop that merges the next blocks into one that reaches them. -/
def mergeNext (block : HexBlock) : List HexBlock → List HexBlock
  | [] => [block]
  | next :: rest =>
      if next.start ≤ block.stop then
        mergeNext
          { block with data := block.data ++ next.data.drop (block.stop - next.start).toNat } rest
      else block :: next :: rest

/-- The loop of `modify` over the blocks behind those that it has passed. -/
def modifyLoop (address : Int) (data : List UInt8) (passed : List HexBlock) :
    List HexBlock → List HexBlock
  | [] => if data ≠ [] then passed ++ [⟨address, data, .bytearray⟩] else passed
  | block :: rest =>
      if address ≤ block.stop ∧ address + data.length ≥ block.start then
        passed ++ mergeNext (joinBlock block address data) rest
      else if address < block.start then
        sortBlocks (passed ++ block :: rest ++ [⟨address, data, .bytearray⟩])
      else modifyLoop address data (passed ++ [block]) rest

/-- `modify`. -/
def modify (file : HexFile) (address : Int) (data : List UInt8) : HexFile :=
  { file with blocks := modifyLoop address data [] file.blocks }

/-- `add`. -/
def add (file : HexFile) (address : Int) (data : List UInt8) : Except String HexFile :=
  if file.overlaps address data.length then throw "Data overlaps with existing data."
  else return file.modify address data

/-- `merge`. -/
def merge (file other : HexFile) : Except String HexFile :=
  if other.blocks.any fun block => file.overlaps block.start block.data.length then
    throw "Data overlaps with existing data."
  else
    let file := other.blocks.foldl (fun file block => file.modify block.start block.data) file
    return { file with start := file.start.orElse fun _ => other.start }

/-! ## Removing data -/

/-- `del block.data[..]`, which leaves `data`. -/
def delData (block : HexBlock) (data : List UInt8) : Except String HexBlock :=
  match block.kind with
  | .bytearray => return { block with data := data }
  | .bytes => throw "'bytes' object does not support item deletion"

/-- What the loop of `delete` leaves: the blocks, those that it has appended, and the
exception that ended it. -/
structure Deleted where
  blocks : List HexBlock
  appended : List HexBlock
  error : Option String

/-- A block in front of what the loop makes of the others. -/
def Deleted.cons (block : HexBlock) (deleted : Deleted) : Deleted :=
  { deleted with blocks := block :: deleted.blocks }

/-- The loop of `delete`. -/
def deleteLoop (address endAddr : Int) : List HexBlock → Deleted
  | [] => ⟨[], [], none⟩
  | block :: rest =>
      if endAddr < block.start then ⟨block :: rest, [], none⟩
      else
        let address := if address < block.start then block.start else address
        if address ≤ block.stop then
          let delLen := min endAddr block.stop - block.start
          if address = block.start then
            match delData block (block.data.drop delLen.toNat) with
            | .ok left =>
                (deleteLoop address endAddr rest).cons
                  { left with address := left.address + delLen }
            | .error error => ⟨block :: rest, [], some error⟩
          else if endAddr ≥ block.stop then
            match delData block (block.data.take (address - block.start).toNat) with
            | .ok left => (deleteLoop address endAddr rest).cons left
            | .error error => ⟨block :: rest, [], some error⟩
          else
            let back : HexBlock :=
              { address := endAddr
                data := block.data.drop (block.data.length - (block.stop - endAddr).toNat)
                kind := block.kind }
            match delData block (block.data.take (address - block.start).toNat) with
            | .ok left => ⟨left :: rest, [back], none⟩
            | .error error => ⟨block :: rest, [back], some error⟩
        else (deleteLoop address endAddr rest).cons block

/-- `delete`: the object that it leaves, and the exception that it raises. -/
def delete (file : HexFile) (address : Int) (length : Nat) : HexFile × Option String :=
  let deleted := deleteLoop address (address + length) file.blocks
  let blocks := deleted.blocks ++ deleted.appended
  match deleted.error with
  | some error => ({ file with blocks := blocks }, some error)
  | none =>
      ({ file with blocks := sortBlocks (blocks.filter fun block => block.data ≠ []) }, none)

/-- `remove_start`. -/
def removeStart (file : HexFile) : HexFile := { file with start := some (-1) }

/-! ## Filling and moving -/

/-- `start_address`. -/
def startAddress (file : HexFile) : Int := (file.blocks.head?.map HexBlock.start).getD 0

/-- `end_address`, the address of the last byte. -/
def endAddress (file : HexFile) : Int :=
  (file.blocks.getLast?.map fun block => block.stop - 1).getD 0

/-- A block of fill bytes; a negative length gives none. -/
def fillBlock (address length : Int) (byte : UInt8) : HexBlock :=
  ⟨address, List.replicate length.toNat byte, .bytes⟩

/-- The loop of `fill`: the new blocks and the address behind it. -/
def fillLoop (dataEnd : Int) (byte : UInt8) (address : Int) :
    List HexBlock → List HexBlock × Int
  | [] => ([], address)
  | block :: rest =>
      let before := address < block.start
      let filled :=
        if before then [fillBlock address (min dataEnd block.start - address) byte] else []
      let address := if before then block.stop else address
      if dataEnd ≤ block.stop then (filled, address)
      else
        let (blocks, address) := fillLoop dataEnd byte (max address block.stop) rest
        (filled ++ blocks, address)

/-- The loop of `fill` that merges the blocks that touch. -/
def mergeTouching (block : HexBlock) : List HexBlock → List HexBlock
  | [] => [block]
  | next :: rest =>
      if block.stop = next.start then
        mergeTouching { block with data := block.data ++ next.data } rest
      else block :: mergeTouching next rest

/-- `fill`. -/
def fill (file : HexFile) (address length : Option Int) (byte : UInt8) : HexFile :=
  let address := address.getD file.startAddress
  let length := length.getD (file.endAddress - address)
  match file.blocks.getLast? with
  | none => { file with blocks := [fillBlock address length byte] }
  | some last =>
      let dataEnd := address + length
      let (filled, address) := fillLoop dataEnd byte address file.blocks
      let behind :=
        if dataEnd > last.stop then
          [fillBlock (max address last.stop) (dataEnd - max address last.stop) byte]
        else []
      match sortBlocks (file.blocks ++ (filled ++ behind)) with
      | [] => { file with blocks := [] }
      | first :: rest => { file with blocks := mergeTouching first rest }

/-- `offset_address`. -/
def offsetAddress (file : HexFile) (offset : Int) : Except String HexFile :=
  match file.blocks.head?, file.blocks.getLast? with
  | some first, some last =>
      if first.start + offset < 0 ∨ last.stop + offset > 0x100000000 then throw "Invalid offset"
      else
        return { file with
          blocks := file.blocks.map fun block => { block with address := block.address + offset } }
  | _, _ => return file

/-! ## Reading -/

/-- `block_list`. -/
def blockList (file : HexFile) : List (Int × Nat) :=
  file.blocks.map fun block => (block.start, block.data.length)

/-- The loop of `get`, with the bytes behind the last block. -/
def getLoop (dataEnd : Int) (byte : UInt8) (address : Int) : List HexBlock → List UInt8
  | [] => List.replicate (dataEnd - address).toNat byte
  | block :: rest =>
      let before := if address < block.start then (min dataEnd block.start - address).toNat else 0
      let address := address + before
      let copyLen :=
        if block.start ≤ address ∧ address < block.stop then
          (min dataEnd block.stop - address).toNat
        else 0
      let copied := (block.data.drop (address - block.start).toNat).take copyLen
      let address := address + copyLen
      List.replicate before byte ++ copied ++
        if address = dataEnd then [] else getLoop dataEnd byte address rest

/-- `get` of a range. -/
def get (file : HexFile) (address : Int) (length : Nat) (byte : UInt8) : List UInt8 :=
  getLoop (address + length) byte address file.blocks

/-- The address and the end of the range of `get` and `write_bin`: left out, the address is the
one of the first block and the end the one of the last. -/
def bounds (file : HexFile) (address : Option Int) (length : Option Nat) : Int × Int :=
  let address := address.getD file.startAddress
  let length := match length with
    | some length => (length : Int)
    | none => (file.blocks.getLast?.map fun block => block.stop - address).getD 0
  (address, address + length)

/-- `get`, whose range may be left out. -/
def getBytes (file : HexFile) (address : Option Int) (length : Option Nat) (byte : List UInt8) :
    Except String (List UInt8) :=
  match byte with
  | [byte] =>
      let (address, dataEnd) := file.bounds address length
      return getLoop dataEnd byte address file.blocks
  | _ => throw "Invalid fill byte"

/-- The loop of `write_bin` and the write behind the last block, on what the file has so far. -/
def writeBinLoop (dataEnd : Int) (byte : UInt8) (address : Int) (written : List UInt8) :
    List HexBlock → List UInt8
  | [] =>
      if address < dataEnd then written ++ List.replicate (dataEnd - address).toNat byte
      else written
  | block :: rest =>
      let fillLen := if address < block.start then (min dataEnd block.start - address).toNat else 0
      let written := written ++ List.replicate fillLen byte
      let address := address + fillLen
      let inside := block.start ≤ address ∧ address < block.stop
      let writeLen := if inside then (min dataEnd block.stop - address).toNat else 0
      let written :=
        if inside then
          written ++ (block.data.drop (address - block.start).toNat).take writeLen
        else written
      let address := address + writeLen
      -- The break skips the other blocks, and there is nothing left to write behind them.
      if address = dataEnd then written
      else writeBinLoop dataEnd byte address written rest

/-- `write_bin`: the contents of the file that it creates. -/
def writeBin (file : HexFile) (address : Option Int) (length : Option Nat) (byte : List UInt8) :
    Except String (List UInt8) :=
  match byte with
  | [byte] =>
      let (address, dataEnd) := file.bounds address length
      return writeBinLoop dataEnd byte address [] file.blocks
  | _ => throw "Invalid fill byte"

/-- The byte at an address. -/
def byteAt (file : HexFile) (address : Int) : Option UInt8 :=
  file.blocks.findSome? fun block =>
    if block.start ≤ address then block.data[(address - block.start).toNat]? else none

end HexFile

end QHal.Hex
