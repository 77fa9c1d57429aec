/-
Module: QHal.Devcfg.PropGen
Purpose: The generator of the property table, tools/devcfg/propgen.py, for devices with a
  number as their identifier and properties of the type DALPROP_ATTR_TYPE_UINT32 whose
  values are integers.
Trusted boundary: the reading of the XML file; with such properties the string, byte and
  integer sections are empty.  A driver with no name or with the name of another one is
  refused too, which is left out.
Main exports: Props, Device, PropGen, generateArray, printConfig, propgen
-/
import Mathlib.Algebra.GroupWithZero.Nat
import Mathlib.Algebra.Group.Int.Defs
import Mathlib.Logic.Basic

namespace QHal.Devcfg

/-- What a property goes by: its number, or its name in the name section. -/
inductive PropLabel where
  | id (number : Nat)
  | name (name : List UInt8)
deriving Repr, DecidableEq

/-- A `props` element. -/
structure Props where
  label : PropLabel
  min : Option Int
  max : Option Int
  value : Int
deriving Repr, DecidableEq

/-- A `device` element. -/
structure Device where
  id : Nat
  props : List Props
deriving Repr, DecidableEq

/-- The globals of the generator.  While there are devices to come, `devSection` has the
length of the last one at its end. -/
structure PropGen where
  nameSection : List UInt8
  propNames : List (List UInt8)
  devSection : List Int
  deviceId : List (Nat × Int)
  deviceOffset : Int

namespace PropGen

def start : PropGen where
  nameSection := []
  propNames := []
  devSection := []
  deviceId := []
  deviceOffset := 0

/-- `nameoffset` for a property; a new name goes to the name section. -/
def nameOffset (gen : PropGen) : PropLabel → PropGen × Nat
  | .id number => (gen, number)
  | .name name =>
      if name ∈ gen.propNames then
        let before := gen.propNames.takeWhile fun other => other ≠ name
        (gen, (before.map fun other => other.length + 1).sum ||| 0x800000)
      else
        ({ gen with
            propNames := gen.propNames ++ [name]
            nameSection := gen.nameSection ++ name ++ [0] },
          gen.nameSection.length ||| 0x800000)

/-- `type_nameoffset`: the type in the upper eight bits. -/
def typeNameoffset (nameoffset : Nat) : Int :=
  ((0x02 <<< 24 ||| (nameoffset &&& 0x00FFFFFF) : Nat) : Int)

/-- The value is in the limits that are given for it. -/
def inLimits (prop : Props) : Bool :=
  (prop.min.all fun min => decide (min ≤ prop.value)) &&
    (prop.max.all fun max => decide (prop.value ≤ max))

/-- The loop of `GenerateArray` over the properties, or nothing if it raises an error. -/
def generateProps : PropGen → List Props → Option PropGen
  | gen, [] => some gen
  | gen, prop :: props =>
      let (gen, nameoffset) := gen.nameOffset prop.label
      if inLimits prop then
        generateProps
          { gen with devSection := gen.devSection ++ [typeNameoffset nameoffset, prop.value] } props
      else none

/-- The end marker behind the properties of a device. -/
def endMarker : Int := 0xFF00FF00

/-- The length at the end of the device section goes to the offset. -/
def popLength (gen : PropGen) : PropGen :=
  match gen.devSection.getLast? with
  | none => gen
  | some length =>
      { gen with
        devSection := gen.devSection.dropLast
        deviceOffset := gen.deviceOffset + length }

/-- `GenerateArray`. -/
def generateArray (gen : PropGen) (device : Device) : Option PropGen :=
  let gen := gen.popLength
  if device.id > 0xFFFFFFFF then none
  else
    let valLen : Int := 8 * device.props.length
    let gen := { gen with deviceId := gen.deviceId ++ [(device.id, gen.deviceOffset)] }
    (gen.generateProps device.props).map fun gen =>
      { gen with devSection := gen.devSection ++ [endMarker, valLen + 4] }

/-- The devices of the module, one after the other. -/
def generateDevices : PropGen → List Device → Option PropGen
  | gen, [] => some gen
  | gen, device :: devices => (gen.generateArray device).bind fun gen => gen.generateDevices devices

/-- `AlignSectionAddr`, for the name section. -/
def alignSectionAddr (gen : PropGen) : PropGen :=
  { gen with
    nameSection := gen.nameSection ++
      if gen.nameSection.length % 4 ≠ 0 then
        List.replicate (4 - gen.nameSection.length % 4) 0
      else [] }

end PropGen

/-- `PackData` for one word, which `pack` takes. -/
def packWord (word : Int) : UInt32 := UInt32.ofNat word.toNat

/-- `PackData` for words; `pack` raises an error for others. -/
def packData (words : List Int) : Option (List UInt32) :=
  if ∀ word ∈ words, 0 ≤ word ∧ word < 2 ^ 32 then some (words.map packWord) else none

/-- Four bytes as they are printed to one word. -/
def printWords : List UInt8 → List UInt32
  | first :: second :: third :: fourth :: bytes =>
      (first.toUInt32 ||| second.toUInt32 <<< 8 ||| third.toUInt32 <<< 16 |||
        fourth.toUInt32 <<< 24) :: printWords bytes
  | _ => []

/-- `SegmentOffset` with the devices and their offsets. -/
def PropGen.segmentOffset (gen : PropGen) : List Int :=
  let configHeaderLen : Int := 24 + 4 * (2 * gen.deviceId.length)
  let names : Int := gen.nameSection.length
  [configHeaderLen + names + 4 * gen.devSection.length, configHeaderLen, configHeaderLen + names,
      configHeaderLen + names, configHeaderLen + names, gen.deviceId.length] ++
    gen.deviceId.flatMap fun (id, offset) => [(id : Int), offset + (configHeaderLen + names)]

/-- `PrintConfig`, for the words of the table. -/
def printConfig (gen : PropGen) : Option (List UInt32) :=
  (packData gen.devSection).bind fun devSection =>
    (packData gen.segmentOffset).map fun segmentOffset =>
      segmentOffset ++ printWords gen.nameSection ++ devSection

/-- `main`: the table for the devices, or nothing if they are not accepted. -/
def propgen (devices : List Device) : Option (List UInt32) :=
  (PropGen.start.generateDevices devices).bind fun gen =>
    let gen := gen.popLength.alignSectionAddr
    if (gen.deviceId.map Prod.fst).Nodup then printConfig gen else none

end QHal.Devcfg
