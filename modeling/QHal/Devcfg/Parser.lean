/-
Module: QHal.Devcfg.Parser
Purpose: nt_devcfg_parse, qsystem/src/nt_devcfg_parser.c: the configuration structure is
  filled from the property table, with every index that is used.
Trusted boundary: nt_devcfg_structure.h, which tools/devcfg/dev_xml_cfg_debug.py generates
  from the same file, has one field for each property in the order of the file, and the
  field that the parser names for a device is that of its first property.  What lies
  beside the table is an input.
Main exports: Access, Parse, copyLoop, visit, devcfgPass, ntDevcfgParse
-/
import Mathlib.Logic.Function.Basic
import QHal.Devcfg.PropGen

namespace QHal.Devcfg

/-- The identifiers of the devices in the order of the parser. -/
def parserIds : List Nat :=
  [0x03000002, 0x03000003, 0x03000004, 0x03000005, 0x03000006, 0x03000007, 0x03000008,
    0x03000009, 0x03000010, 0x03000011, 0x03000014]

/-! ## The configuration structure -/

/-- The number of its fields. -/
def numFields (devices : List Device) : Nat := (devices.map fun device => device.props.length).sum

/-- The devices in front of the one with an identifier. -/
def devicesBefore (devices : List Device) (id : Nat) : List Device :=
  devices.takeWhile fun device => device.id ≠ id

/-- The first field of a device. -/
def firstField (devices : List Device) (id : Nat) : Nat := numFields (devicesBefore devices id)

/-- `GET_NUM_LEFT_DEVCFG` for the first field of a device. -/
def numLeft (devices : List Device) (id : Nat) : Nat :=
  numFields devices - firstField devices id

/-! ## Parsing -/

/-- An index into the table, or a field counted from the start of the structure. -/
inductive Access where
  | word (index : Int)
  | field (index : Nat)
deriving Repr, DecidableEq

/-- The index is one of the table or one of the structure. -/
def Access.InBounds (words fields : Nat) : Access → Prop
  | .word index => 0 ≤ index ∧ index < words
  | .field index => index < fields

instance (words fields : Nat) (access : Access) : Decidable (access.InBounds words fields) :=
  match access with
  | .word _ => inferInstanceAs (Decidable (_ ∧ _))
  | .field _ => inferInstanceAs (Decidable (_ < _))

/-- `count_ptr`, the memory from the start of the structure on, and the indices so far. -/
structure Parse where
  countPtr : Nat
  memory : Nat → UInt32
  accesses : List Access

/-- A word of the table, or what lies beside it. -/
def tableWord (table : List UInt32) (beside : Int → UInt32) (index : Int) : UInt32 :=
  if 0 ≤ index ∧ index < table.length then table.getD index.toNat 0 else beside index

/-- The cast of a word to `int`. -/
def asInt (word : UInt32) : Int := word.toBitVec.toInt

section

variable (table : List UInt32) (beside : Int → UInt32)

/-- The loop over `count_2`, of at most as many rounds as there are fields left. -/
def copyLoop (endAdd : Int) : Nat → Int → Parse → Parse
  | 0, _, parse => parse
  | rounds + 1, count2, parse =>
      if count2 < endAdd then
        copyLoop endAdd rounds (count2 + 2)
          { countPtr := parse.countPtr + 1
            memory := Function.update parse.memory parse.countPtr
              (tableWord table beside (count2 + 1))
            accesses := parse.accesses ++ [.word (count2 + 1), .field parse.countPtr] }
      else parse

/-- The round of the loop over `count_1` for one word. -/
def visit (totalHexVal : Int) (deviceId : UInt32) (paramsRemain : Nat) (parse : Parse)
    (count1 : Nat) : Parse :=
  let parse := { parse with accesses := parse.accesses ++ [.word count1] }
  if tableWord table beside count1 = deviceId then
    let startingAdd := (asInt (tableWord table beside (count1 + 1))).tdiv 4
    let endAdd := min (startingAdd + paramsRemain * 2) totalHexVal
    copyLoop table beside endAdd paramsRemain startingAdd
      { parse with accesses := parse.accesses ++ [.word (count1 + 1)] }
  else parse

/-- `total_hex_val`. -/
def totalHexVal : Int := (asInt (tableWord table beside 0)).tdiv 4

/-- The part of `nt_devcfg_parse` for one device. -/
def devcfgPass (devices : List Device) (parse : Parse) (id : Nat) : Parse :=
  (List.range (totalHexVal table beside).toNat).foldl
    (visit table beside (totalHexVal table beside) (UInt32.ofNat id) (numLeft devices id))
    { parse with countPtr := firstField devices id }

/-- `nt_devcfg_parse`, for the memory from the start of `nt_device_instance` on. -/
def ntDevcfgParse (devices : List Device) (memory : Nat → UInt32) : Parse :=
  parserIds.foldl (devcfgPass table beside devices)
    { countPtr := 0
      memory := memory
      accesses := [.word 0] }

end

end QHal.Devcfg
