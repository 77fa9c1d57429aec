/-
Module: QHal.Hex.HexWrite
Purpose: Writing a hex file, tools/qprgc/gdb_framework/hexfile.py.
Trusted boundary: a file is the list of its lines; the length of a line is positive, with 0 the
  loop over the data of a block would not end.
Main exports: writeMap, writeLine, writeBlock, writeBlocks, writeHex
-/
import QHal.Hex.HexParse

namespace QHal.Hex.HexFile

open Numerals (Text)
open Nvm (hexByte)

/-- `WRITE_MAP`: the command of a group in a file of a type. -/
def writeMap : FileType → RecordGroup → Option Nat
  | .i16hex, .extendedAddress => some 2
  | .i16hex, .startAddress => some 3
  | .i32hex, .extendedAddress => some 4
  | .i32hex, .startAddress => some 5
  | _, _ => none

/-- `struct.pack` of an integer with its highest byte first. -/
def packBig (width : Nat) (value : Int) : Except String (List UInt8) :=
  match Bytes.pack width value with
  | some bytes => return bytes.reverse
  | none => throw "struct.error"

/-- `info[group]`. -/
def command (fileType : FileType) (group : RecordGroup) : Except String Nat :=
  match writeMap fileType group with
  | some command => return command
  | none => throw "KeyError"

/-- `__write_line`: the line that it writes. -/
def writeLine (command : Nat) (address : Int) (data : List UInt8) : Except String Text := do
  let length ← packBig 1 data.length
  let address ← packBig 2 address
  let command ← packBig 1 command
  let lineData := length ++ address ++ command ++ data
  let checksum := (256 - (lineData.map UInt8.toNat).sum % 256) % 256
  return ':' :: ((lineData ++ [UInt8.ofNat checksum]).flatMap hexByte).map Char.toUpper ++ ['\n']

/-- The record of a new extended address, and the address that is current behind it. -/
def writeExtended (fileType : FileType) (extAddr curExtAddr : Int) :
    Except String (List Text × Int) :=
  if extAddr ≠ curExtAddr ∧ fileType ≠ .i8hex then do
    let command ← command fileType .extendedAddress
    let data ← packBig 2 extAddr
    let line ← writeLine command 0 data
    return ([line], extAddr)
  else return ([], curExtAddr)

/-- The loop over the data of a block: the lines and the current extended address. Each turn
writes one byte at least. -/
def writeBlock (fileType : FileType) (lineLength : Nat) :
    Nat → Int → List UInt8 → Int → Except String (List Text × Int)
  | 0, _, _, curExtAddr => return ([], curExtAddr)
  | turns + 1, address, data, curExtAddr =>
      if data = [] then return ([], curExtAddr)
      else do
        let lineLen := min lineLength (0x10000 - address % 0x10000).toNat
        let (extended, curExtAddr) ← writeExtended fileType (address / 0x10000) curExtAddr
        let line ← writeLine 0 (address % 0x10000) (data.take lineLen)
        let (lines, curExtAddr) ←
          writeBlock fileType lineLength turns (address + lineLen) (data.drop lineLen) curExtAddr
        return (extended ++ line :: lines, curExtAddr)

/-- The loop over the blocks. -/
def writeBlocks (fileType : FileType) (lineLength : Nat) (curExtAddr : Int) :
    List HexBlock → Except String (List Text)
  | [] => return []
  | block :: rest => do
      let (lines, curExtAddr) ←
        writeBlock fileType lineLength block.data.length block.start block.data curExtAddr
      let others ← writeBlocks fileType lineLength curExtAddr rest
      return lines ++ others

/-- The type of the file that is written. -/
def writtenType (file : HexFile) : FileType :=
  if file.fileType = .i8hex ∧ file.endAddress > 0x10000 then .i32hex else file.fileType

/-- The record of the start address, if there is one. -/
def writeStart (fileType : FileType) : Option Int → Except String (List Text)
  | none => return []
  | some start => do
      let command ← command fileType .startAddress
      let data ← packBig 4 start
      let line ← writeLine command 0 data
      return [line]

/-- `write_hex`: the lines of the file that it creates. -/
def writeHex (file : HexFile) (lineLength : Nat) : Except String (List Text) := do
  let fileType := file.writtenType
  let data ← writeBlocks fileType lineLength (-1) file.blocks
  let start ← writeStart fileType file.start
  let ending ← writeLine 1 0 []
  return data ++ start ++ [ending]

end QHal.Hex.HexFile
