/-
Module: QHal.Nvm.OtpField
Purpose: OTP fields as the host tool writes and reads them,
  tools/qprgc/nvm_programmer.py.
Trusted boundary: the device stores the bytes of its parameter buffer and
  returns the bytes of the OTP; the check of the PBL version is a parameter
Main exports: OtpField, Device, setBits, readOtpField, writeOtpField
-/
import QHal.Lib.Bytes
import QHal.Lib.Numerals
import Mathlib.Data.Int.Bitwise

namespace QHal.Nvm

open Numerals

/-- `OTP_Field` without its access rights. -/
structure OtpField where
  name : String
  address : Nat
  offset : Nat
  length : Nat
deriving Repr, DecidableEq

/-- The device as the tool sees it: the OTP and the buffer of `JTAG_Param`,
which keeps what earlier commands left there. -/
structure Device where
  otp : Nat → UInt8
  paramBuffer : Nat → UInt8

/-- The bytes of a field, `math.ceil(field.length/8)`. -/
def OtpField.size (field : OtpField) : Nat := (field.length + 7) / 8

/-- The mask of some bits at an offset. -/
def bitMask (offset length : Nat) : Nat := (1 <<< length - 1) <<< offset

/-- `set_bits`. -/
def setBits (i : Int) (offset length : Nat) (value : Int) : Int :=
  let mask : Int := bitMask offset length
  Int.lor (Int.land i (Int.lnot mask)) (Int.land (value <<< offset) mask)

/-- Two hexadecimal digits of a byte. -/
def hexByte (byte : UInt8) : Text :=
  [(byte.toNat / 16).digitChar, (byte.toNat % 16).digitChar]

/-- `bytes.fromhex`: pairs of digits, with blanks between the bytes. -/
def fromHex : Text → Option (List UInt8)
  | [] => some []
  | [c] => if c ∈ [' ', '\t', '\n', '\x0b', '\x0c', '\r'] then some [] else none
  | high :: low :: rest =>
      if high ∈ [' ', '\t', '\n', '\x0b', '\x0c', '\r'] then fromHex (low :: rest)
      else do
        let first ← digitIn 16 high
        let second ← digitIn 16 low
        let bytes ← fromHex rest
        return UInt8.ofNat (16 * first + second) :: bytes

/-- Pairs of characters, the last one first. -/
def reversePairs : Text → Text
  | [] => []
  | [c] => [c]
  | first :: second :: rest => reversePairs rest ++ [first, second]

/-- The chunks of `reverse_bytes`, each with its pairs in reverse. -/
def reverseChunks : Nat → Text → Text
  | 0, _ => []
  | count + 1, text => reversePairs (text.take 8) ++ reverseChunks count (text.drop 8)

/-- `reverse_bytes`. -/
def reverseBytes (text : Text) : Text :=
  let digits := if ['0', 'x'].isPrefixOf text then text.drop 2 else text
  reverseChunks ((digits.length + 7) / 8) digits

/-- The OTP read command. -/
def otpRead (device : Device) (address size : Nat) : List UInt8 :=
  List.ofFn fun i : Fin size => device.otp (address + i)

/-- The OTP write command: the first bytes of the parameter buffer go to the
OTP. -/
def otpWrite (device : Device) (address size : Nat) : Device :=
  { device with
    otp := fun a =>
      if address ≤ a ∧ a < address + size then device.paramBuffer (a - address) else device.otp a }

/-- `write_buf` into the parameter buffer. -/
def writeBuf (device : Device) (bytes : List UInt8) : Device :=
  { device with
    paramBuffer := fun i => bytes.getD i (device.paramBuffer i) }

/-- `read_otp_field`: the bytes read and the value as it is printed. -/
def readOtpField (device : Device) (field : OtpField) : List UInt8 × Text :=
  let size := if field.size < 4 then 4 else field.size
  let res := otpRead device field.address size
  let resHexString :=
    if field.length < 48 then
      hexLower
        (((Bytes.toNat res &&& bitMask field.offset field.length) >>> field.offset : Nat) : Int)
    else '0' :: 'x' :: res.flatMap hexByte
  (res, resHexString.map Char.toUpper)

/-- The value that is written for `MODULE_PART_NUMBER`, unless one is there. -/
def modulePartNumber (device : Device) (field : OtpField) (value : Text) : Option Text :=
  let written := ((readOtpField device field).1.rdropWhile (· = 0)).flatMap hexByte
  if ['0', '3'].isSuffixOf written then none
  else
    some <| '0' :: 'x' :: value.flatMap (fun c =>
      let digits := Nat.toDigits 16 c.toNat
      List.replicate (2 - digits.length) '0' ++ digits) ++ ['0', '3']

/-- The last steps of `write_otp_field`, with the order of the bytes in
`PK_HASH` that an older PBL wants. -/
def storeOtpField (checkPblVersion : Device → Bool × Device) (field : OtpField) (value : Text)
    (size : Nat) (bytes : List UInt8) (device : Device) : Option Device :=
  if field.name = "PK_HASH" then
    let (isOld, device) := checkPblVersion device
    if isOld then
      (fromHex (reverseBytes value)).map fun bytes =>
        otpWrite (writeBuf device bytes) field.address size
    else some (otpWrite (writeBuf device bytes) field.address size)
  else some (otpWrite (writeBuf device bytes) field.address size)

/-- `write_otp_field`: the device after the write, none when the value is
rejected before it. -/
def writeOtpField (checkPblVersion : Device → Bool × Device) (field : OtpField) (value : Text)
    (device : Device) : Option Device := do
  let value ←
    if field.name = "MODULE_PART_NUMBER" then modulePartNumber device field value else some value
  if field.size < 4 then
    let number ← readInt 16 value
    if number > bitMask 0 field.length then none
    else
      let word := Bytes.toNat (readOtpField device field).1
      let bytes ← Bytes.pack 4 (setBits word field.offset field.length number)
      storeOtpField checkPblVersion field value 4 bytes device
  else
    let value := value.drop 2
    if value.length % 2 ≠ 0 then none
    else
      let bytes ← fromHex value
      storeOtpField checkPblVersion field value field.size bytes device

end QHal.Nvm
