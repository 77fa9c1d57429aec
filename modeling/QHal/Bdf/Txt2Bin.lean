/-
Module: QHal.Bdf.Txt2Bin
Purpose: The text of a board data file converted to its binary,
  tools/qbdf/txt2bin.py without its option, on a little-endian host.
Trusted boundary: a file is the list of its bytes, a text that of its lines; the text is ASCII
Main exports: Globals, checksumCal, bitPack, convertLoop, secondWalk, txt2bin
-/
import QHal.Lib.Bytes
import QHal.Lib.Numerals
import Mathlib.Data.Int.Bitwise

namespace QHal.Bdf

open Numerals

/-- The globals of the module, which a conversion leaves to the next one. -/
structure Globals where
  byteCount : Nat
  checkSum : Nat
  wordVal : Nat
deriving Repr, DecidableEq, Inhabited

/-- The globals of a fresh process. -/
def freshGlobals : Globals := ⟨0, 0, 0⟩

/-! ## Lines -/

/-- The columns of a line. -/
def lineSet (line : Text) : List Text := (strip line).splitOn '\t'

/-- The last characters of a text. -/
def lastChars (count : Nat) (text : Text) : Text := text.drop (text.length - count)

/-- The digits of a value column, behind the blank that may precede them. -/
def valueText (column : Text) : Option Text :=
  match column with
  | [] => none
  | ' ' :: _ => (column.splitOn ' ')[1]?
  | _ => some column

/-- `num.find("0x") != -1`. -/
def hasHexPrefix : Text → Bool
  | '0' :: 'x' :: _ => true
  | _ :: rest => hasHexPrefix rest
  | [] => false

/-- The number of a value text. -/
def parseNumber (text : Text) : Option Int :=
  if hasHexPrefix text then readInt 0 text else readInt 10 text

/-- The number in the value column of a line. -/
def lineValue (columns : List Text) : Option Int := do
  let column ← columns[2]?
  let text ← valueText column
  parseNumber text

/-- `"#######" in line`. -/
def hasHashes (line : Text) : Bool :=
  line.tails.any fun tail => (List.replicate 7 '#').isPrefixOf tail

/-! ## Types -/

/-- `num_bytes`. -/
def numBytes (type : Text) : Option Nat :=
  let lenVal := lastChars 2 type
  if lenVal = ['t', '8'] then some 1
  else
    lenVal.head?.map fun first =>
      if first = '_' then 1
      else if lenVal = ['1', '6'] then 2
      else if lenVal = ['3', '2'] then 4
      else if lenVal = ['6', '4'] then 8
      else 1

/-- `data_type`: the width and the sign of the format. -/
def dataType (type : Text) : Nat × Bool :=
  let lenVal := lastChars 2 type
  let signed := type.head? = some 'i'
  if lenVal = ['t', '8'] then (1, signed)
  else if lenVal = ['1', '6'] then (2, signed)
  else if lenVal = ['3', '2'] then (4, signed)
  else if lenVal = ['6', '4'] then (8, signed)
  else (1, true)

/-- `struct.pack` of one integer. -/
def packNumber (format : Nat × Bool) (number : Int) : Option (List UInt8) :=
  let (width, signed) := format
  if signed then
    if -(256 ^ width / 2) ≤ number ∧ number < 256 ^ width / 2 then
      some (Bytes.ofNat width (number % 256 ^ width).toNat)
    else none
  else Bytes.pack width number

/-- Offset and width of a bit-field type, whose name ends in both. -/
def byteOffset (type : Text) : Option (Nat × Nat) := do
  let text := lastChars 3 type
  let offset ← (← text[0]?) |> digitIn 10
  let width ← (← text[2]?) |> digitIn 10
  return (offset, width)

/-! ## Checksum -/

/-- The number whose bytes `checksumCal` takes: two's complement of a signed
type. -/
def checksumRes (typeVal : Text) (num : Int) : Int :=
  let lenVal := lastChars 2 typeVal
  let wrap (bits : Nat) : Int :=
    if num < 0 ∧ typeVal.head? = some 'i' then 2 ^ bits + num else num
  if lenVal = ['t', '8'] then wrap 8
  else if lenVal = ['1', '6'] then wrap 16
  else if lenVal = ['3', '2'] then wrap 32
  else if lenVal = ['6', '4'] then wrap 64
  else 0

/-- One round of the loop of `checksumCal`.  Every second byte completes a
word. -/
def feedByte (globals : Globals) (byte : Nat) : Globals :=
  let byteCount := globals.byteCount + 1
  if byteCount % 2 = 1 then { globals with byteCount := byteCount, wordVal := byte }
  else
    let wordVal := globals.wordVal ||| byte * 256
    { byteCount := byteCount, wordVal := wordVal, checkSum := globals.checkSum ^^^ wordVal }

/-- The loop of `checksumCal`. -/
def feedNumber : Nat → Int → Globals → Globals
  | 0, _, globals => globals
  | byteSize + 1, res, globals =>
      feedNumber byteSize (res / 256) (feedByte globals (res % 256).toNat)

/-- `checksumCal`. -/
def checksumCal (typeVal checksumVal : Text) (byteSize : Nat) (num : Int) (globals : Globals) :
    Globals :=
  if checksumVal = "checksum".toList then
    { globals with
      byteCount := globals.byteCount + 2
      checkSum := (globals.checkSum + 0) &&& 65535 }
  else feedNumber byteSize (checksumRes typeVal num) globals

/-! ## Conversion -/

/-- The file, the position in it and the globals. -/
structure State where
  file : List UInt8
  seekVal : Nat
  globals : Globals
deriving Repr, DecidableEq, Inhabited

/-- `f.seek` and `f.write`: a gap before the position is filled with zeros. -/
def writeAt (file : List UInt8) (position : Nat) (bytes : List UInt8) : List UInt8 :=
  (file ++ List.replicate (position - file.length) 0).take position ++ bytes ++
    file.drop (position + bytes.length)

/-- `bit_pack` over the lines from the first one of a group: the byte and the
lines behind the group. -/
def bitPack : List Text → Nat → Int → Option (Int × List Text)
  | [], _, _ => none
  | line :: rest, byt, num => do
      let columns := lineSet line
      let val ← lineValue columns
      let (offset, width) ← byteOffset (← columns[0]?)
      let num := Int.lor num (val * 2 ^ offset)
      if byt + width = 8 then return (num, rest) else bitPack rest (byt + width) num

/-- One round of the first loop of `main`: the state and the lines left. -/
def convertField (line : Text) (rest : List Text) (state : State) :
    Option (State × List Text) := do
  let columns := lineSet line
  let num ← lineValue columns
  let type ← columns[0]?
  let name ← columns[1]?
  let size ← numBytes type
  if (lastChars 2 type).head? = some '_' then
    let (num, rest) ← bitPack (line :: rest) 0 0
    let bytes ← packNumber (1, false) num
    return ({
      file := writeAt state.file state.seekVal bytes
      seekVal := state.seekVal + size
      globals := checksumCal "uint8".toList "WrongVal".toList 1 num state.globals }, rest)
  else
    let bytes ← packNumber (dataType type) num
    return ({
      file := writeAt state.file state.seekVal bytes
      seekVal := state.seekVal + size
      globals := checksumCal type (lastChars 8 name) size num state.globals }, rest)

/-- The first loop of `main` and whether it ended without an exception; the
number of lines bounds its rounds. -/
def convertLoop : Nat → List Text → State → State × Bool
  | _, [], state => (state, true)
  | 0, _ :: _, state => (state, false)
  | fuel + 1, line :: rest, state =>
      match convertField line rest state with
      | some (state, rest) => convertLoop fuel rest state
      | none => (state, false)

/-- The second loop of `main`: the position of the checksum, if there is one.
It counts a byte for every line of a group. -/
def secondWalk : List Text → Nat → Option (Option Nat)
  | [], _ => some none
  | line :: rest, seekVal => do
      let columns := lineSet line
      let size ← numBytes (← columns[0]?)
      let name ← columns[1]?
      if lastChars 8 name = "checksum".toList then return some seekVal
      else secondWalk rest (seekVal + size)

/-- The lines with fields. -/
def fieldLines (txtLines : List Text) : List Text :=
  if txtLines.head?.any hasHashes then txtLines.tail else txtLines

/-- `main` on the lines of the text: the globals after it and the binary. -/
def txt2bin (txtLines : List Text) (globals : Globals) : Globals × Option (List UInt8) :=
  if txtLines = [] then (globals, none)
  else
    let lines := fieldLines txtLines
    let start : State := { file := [], seekVal := 0, globals := { globals with checkSum := 0 } }
    let (state, finished) := convertLoop lines.length lines start
    if finished then
      let globals := { state.globals with checkSum := 65535 ^^^ state.globals.checkSum }
      match secondWalk lines 0 with
      | none => (globals, none)
      | some none => (globals, some state.file)
      | some (some position) =>
          (globals, (Bytes.pack 2 globals.checkSum).map fun bytes =>
            writeAt state.file position bytes)
    else (state.globals, none)

end QHal.Bdf
