/-
Module: QHal.Hex.HexParse
Purpose: Reading a hex file, tools/qprgc/gdb_framework/hexfile.py.
Trusted boundary: a file is the list of its lines, in ASCII; the exceptions of Python itself
  stand as the names of their classes.
Main exports: LineData, ParseState, parseMap, parseLine, joinLines, parse
-/
import QHal.Hex.HexFile
import QHal.Nvm.OtpField

namespace QHal.Hex

/-- `FILE_TYPE_*`. -/
def FileType.number : FileType → Nat
  | .i8hex => 8
  | .i16hex => 16
  | .i32hex => 32

namespace HexFile

open Numerals (Text strip readInt)
open Nvm (fromHex)

/-- `RECORD_GROUP_*`. -/
inductive RecordGroup where
  | data
  | endOfFile
  | extendedAddress
  | startAddress
deriving Repr, DecidableEq

/-- `PARSE_MAP`. -/
def parseMap : Int → Option (FileType × RecordGroup)
  | 0 => some (.i8hex, .data)
  | 1 => some (.i8hex, .endOfFile)
  | 2 => some (.i16hex, .extendedAddress)
  | 3 => some (.i16hex, .startAddress)
  | 4 => some (.i32hex, .extendedAddress)
  | 5 => some (.i32hex, .startAddress)
  | _ => none

/-- An entry of `line_data`, without the number of its line. -/
structure LineData where
  address : Int
  data : List UInt8
deriving Repr, DecidableEq

/-- What the loop over the lines has set. -/
structure ParseState where
  fileType : FileType
  start : Option Int
  endReached : Bool
  extAddr : Int
  lineData : List LineData
deriving Repr, DecidableEq

def ParseState.init : ParseState where
  fileType := .i8hex
  start := none
  endReached := false
  extAddr := 0
  lineData := []

/-- The value of a conversion that raises a `ValueError`. -/
def converted {α : Type} : Option α → Except String α
  | some value => return value
  | none => throw "ValueError"

/-- The length, the address, the command and the data of a line. -/
def parseFields (line : Text) : Except String (Int × Int × Int × Text) := do
  let bytes ← converted (fromHex (line.drop 1))
  if (bytes.map UInt8.toNat).sum % 0x100 ≠ 0 then throw "Invalid Checksum"
  let length ← converted (readInt 16 ((line.drop 1).take 2))
  let address ← converted (readInt 16 ((line.drop 3).take 4))
  let command ← converted (readInt 16 ((line.drop 7).take 2))
  let data := (line.take (line.length - 2)).drop 9
  if length * 2 ≠ data.length then throw "Invalid line length"
  return (length, address, command, data)

/-- What the record of a line changes. -/
def processRecord (state : ParseState) (length address : Int) (data : Text) :
    RecordGroup → Except String ParseState
  | .data => do
      let bytes ← converted (fromHex data)
      return { state with lineData := state.lineData ++ [⟨state.extAddr + address, bytes⟩] }
  | .endOfFile => return { state with endReached := true }
  | .extendedAddress => do
      if length ≠ 2 then throw "Invalid line"
      let value ← converted (readInt 16 data)
      return { state with extAddr := value * 0x10000 }
  | .startAddress => do
      if length ≠ 4 then throw "Invalid line"
      if state.start ≠ none then throw "Duplicate start address record"
      let value ← converted (readInt 16 data)
      return { state with start := some value }

/-- The body of the loop over the lines. -/
def parseLine (state : ParseState) (line : Text) : Except String ParseState := do
  if state.endReached then throw "Line after End Of File record"
  if line.head? ≠ some ':' then throw "Invalid start of line"
  let (length, address, command, data) ← parseFields line
  match parseMap command with
  | none => throw "KeyError"
  | some (fileType, group) =>
      let fileType := if fileType.number > state.fileType.number then fileType else state.fileType
      processRecord { state with fileType := fileType } length address data group

/-- The lines sorted by address; lines of one address keep their order. -/
def sortLines (lines : List LineData) : List LineData :=
  lines.mergeSort fun line other => line.address ≤ other.address

/-- The loop that merges the lines into blocks. -/
def joinLines (nextAddr : Int) (blocks : List HexBlock) :
    List LineData → Except String (List HexBlock)
  | [] => return blocks
  | line :: rest =>
      if line.address < nextAddr then throw "Duplicate address"
      else if line.address = nextAddr then
        match blocks.getLast? with
        | none => throw "IndexError"
        | some last =>
            joinLines (nextAddr + line.data.length)
              (blocks.dropLast ++ [{ last with data := last.data ++ line.data }]) rest
      else
        joinLines (line.address + line.data.length)
          (blocks ++ [⟨line.address, line.data, .bytearray⟩]) rest

/-- The lines without blanks around them and without the empty ones. -/
def lineList (lines : List Text) : List Text :=
  (lines.map strip).filter fun line => line ≠ []

/-- `__parse_file`. -/
def parse (lines : List Text) : Except String HexFile := do
  let state ← (lineList lines).foldlM parseLine ParseState.init
  if !state.endReached then throw "No End Of File record found"
  let blocks ← joinLines (-1) [] (sortLines state.lineData)
  return { blocks := blocks, fileType := state.fileType, start := state.start }

end HexFile

end QHal.Hex
