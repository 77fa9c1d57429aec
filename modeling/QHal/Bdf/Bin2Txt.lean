/-
Module: QHal.Bdf.Bin2Txt
Purpose: The binary of a board data file written into the lines of its
  template, tools/qbdf/bin2txt.py, on a little-endian host.
Trusted boundary: a file is the list of its bytes, a template that of its lines; the text is ASCII
Main exports: numericalVal, bitUnpack, readLoop, bin2txt
-/
import QHal.Bdf.Txt2Bin

namespace QHal.Bdf

open Numerals

/-- `numerical_val` of the bytes read. -/
def numericalVal (val : List UInt8) (nBits : Nat) (signVal : Option Char) : Option Int := do
  let a := nBits / 8
  let numVal ← (List.range a).foldlM (fun numVal b =>
    val[a - 1 - b]?.map fun byte => (numVal <<< 8) + byte.toNat) 0
  if signVal = some 'i' ∧ numVal > (1 <<< nBits) / 2 then
    return ((1 <<< nBits : Nat) - numVal : Int) * (-1)
  else return numVal

/-- `num_bytes` of this script. -/
def numBytesTxt (type : Text) : Nat :=
  let lenVal := lastChars 2 type
  if lenVal = ['t', '8'] then 1
  else if lenVal = ['1', '6'] then 2
  else if lenVal = ['3', '2'] then 4
  else if lenVal = ['6', '4'] then 8
  else 1

/-- The text of a value column. -/
def valueColumn (num : Int) : Text :=
  if num ≥ 0 then ' ' :: decimal num else decimal num

/-- A line with a new value. -/
def setValue (columns : List Text) (num : Int) : Option Text :=
  if 2 < columns.length then some (['\t'].intercalate (columns.set 2 (valueColumn num))) else none

/-- The loop over a group of bit fields: their new lines and the lines behind
the group. -/
def bitUnpack (val : Nat) : List Text → Nat → Option (List Text × List Text)
  | [], _ => none
  | line :: rest, byt => do
      let columns := lineSet line
      let (offset, width) ← byteOffset (← columns[0]?)
      let num := (val &&& (2 ^ (offset + width) - 1)) / 2 ^ offset
      let changed ← setValue columns (num : Int)
      if byt + width = 8 then return ([changed], rest)
      else
        let (lines, rest) ← bitUnpack val rest (byt + width)
        return (changed :: lines, rest)

/-- One round of the loop of `main`: the new lines, the position in the binary
and the lines left. -/
def readField (data : List UInt8) (line : Text) (rest : List Text) (seekVal : Nat) :
    Option (List Text × Nat × List Text) := do
  let columns := lineSet line
  let type ← columns[0]?
  let last ← (lastChars 2 type).head?
  if last = '_' then
    let val ← numericalVal ((data.drop seekVal).take 1) 8 (some 'u')
    let (lines, rest) ← bitUnpack val.toNat (line :: rest) 0
    return (lines, seekVal + 1, rest)
  else
    let r := numBytesTxt type
    let fin ← numericalVal ((data.drop seekVal).take r) (r * 8) type.head?
    let changed ← setValue columns fin
    return ([changed], seekVal + r, rest)

/-- The loop of `main`; the number of lines bounds its rounds. -/
def readLoop (data : List UInt8) : Nat → List Text → Nat → Option (List Text)
  | _, [], _ => some []
  | 0, _ :: _, _ => none
  | fuel + 1, line :: rest, seekVal => do
      let (lines, seekVal, rest) ← readField data line rest seekVal
      let others ← readLoop data fuel rest seekVal
      return lines ++ others

/-- `main`: the lines of the text that it writes. -/
def bin2txt (data : List UInt8) (txtLines : List Text) : Option (List Text) := do
  let first ← txtLines.head?
  let header := if hasHashes first then [strip first] else []
  let lines ← readLoop data (fieldLines txtLines).length (fieldLines txtLines) 0
  return (header ++ lines).map fun line => line ++ [' ', '\n']

end QHal.Bdf
