/-
Module: QHal.Proofs.HexRecords
Purpose: Records of the Intel hex format, the lines that spell them, and what the parser makes
  of such a line.
Trusted boundary: none
Main exports: Record, Record.WellFormed, Spells, Record.Spelled, parseLine_spelled
-/
import QHal.Hex.HexParse
import Mathlib.Tactic.Ring

namespace QHal.Hex

open Numerals (Text digitIn isSpace strip strip_of_solid readDigits readDigits_cons readNumber
  readUnsigned readPlain radixOf readInt readInt_of_unsigned)
open Nvm (fromHex)

/-! ## Records -/

/-- `RECORD_TYPE_*`. -/
inductive RecordType where
  | data
  | endOfFile
  | extendedSegmentAddress
  | startSegmentAddress
  | extendedLinearAddress
  | startLinearAddress
deriving Repr, DecidableEq

/-- The byte of a record type. -/
def RecordType.code : RecordType → UInt8
  | .data => 0
  | .endOfFile => 1
  | .extendedSegmentAddress => 2
  | .startSegmentAddress => 3
  | .extendedLinearAddress => 4
  | .startLinearAddress => 5

/-- A record. -/
structure Record where
  type : RecordType
  address : UInt16
  data : List UInt8
deriving Repr, DecidableEq

/-- Bytes with the highest first, as a number. -/
def bigEndian (bytes : List UInt8) : Nat := Bytes.toNat bytes.reverse

namespace Record

/-- The number that the data of a record stands for. -/
def value (record : Record) : Nat := bigEndian record.data

/-- The bytes of a record in front of its checksum. -/
def bytes (record : Record) : List UInt8 :=
  [UInt8.ofNat record.data.length, UInt8.ofNat (record.address.toNat / 256),
    UInt8.ofNat (record.address.toNat % 256), record.type.code] ++ record.data

/-- The data has the length that the type asks for; a data record is not empty. -/
def WellFormed (record : Record) : Prop :=
  match record.type with
  | .data => 0 < record.data.length ∧ record.data.length < 256
  | .endOfFile => record.data.length = 0
  | .extendedSegmentAddress | .extendedLinearAddress => record.data.length = 2
  | .startSegmentAddress | .startLinearAddress => record.data.length = 4

instance : ∀ record : Record, Decidable record.WellFormed
  | ⟨.data, _, data⟩ => inferInstanceAs (Decidable (0 < data.length ∧ data.length < 256))
  | ⟨.endOfFile, _, data⟩ => inferInstanceAs (Decidable (data.length = 0))
  | ⟨.extendedSegmentAddress, _, data⟩ => inferInstanceAs (Decidable (data.length = 2))
  | ⟨.extendedLinearAddress, _, data⟩ => inferInstanceAs (Decidable (data.length = 2))
  | ⟨.startSegmentAddress, _, data⟩ => inferInstanceAs (Decidable (data.length = 4))
  | ⟨.startLinearAddress, _, data⟩ => inferInstanceAs (Decidable (data.length = 4))

end Record

/-- A text gives bytes by two hexadecimal digits each, in capitals or not. -/
inductive Spells : Text → List UInt8 → Prop
  | nil : Spells [] []
  | cons {high low : Char} {first second : Nat} {text : Text} {bytes : List UInt8}
      (isHigh : digitIn 16 high = some first) (isLow : digitIn 16 low = some second)
      (rest : Spells text bytes) :
      Spells (high :: low :: text) (UInt8.ofNat (16 * first + second) :: bytes)

/-- A line is a colon, the bytes of a record, and the byte that makes their sum 0. -/
def Record.Spelled (line : Text) (record : Record) : Prop :=
  ∃ text checksum, line = ':' :: text ∧ Spells text (record.bytes ++ [checksum]) ∧
    ((record.bytes ++ [checksum]).map UInt8.toNat).sum % 256 = 0

/-! ## Texts that spell bytes -/

section Digits

variable {c : Char} {digit : Nat}

theorem digit_lt (isDigit : digitIn 16 c = some digit) : digit < 16 := by
  unfold digitIn at isDigit
  simpa using (Option.filter_eq_some_iff.mp isDigit).2

/-- A digit is none of the characters that mean something else. -/
theorem digit_plain (isDigit : digitIn 16 c = some digit) {other : Char}
    (noDigit : digitIn 16 other = none) : c ≠ other := by
  rintro rfl
  rw [noDigit] at isDigit
  cases isDigit

theorem digit_solid (isDigit : digitIn 16 c = some digit) : isSpace c = false := by
  apply Bool.eq_false_iff.mpr
  intro blank
  have none : ∀ other ∈ [' ', '\t', '\n', '\x0b', '\x0c', '\r', '\x1c', '\x1d', '\x1e', '\x1f'],
      digitIn 16 other = none := by
    simp only [List.forall_mem_cons, List.not_mem_nil, false_implies, implies_true, and_true]
    decide
  exact digit_plain isDigit (none c (of_decide_eq_true blank)) rfl

end Digits

namespace Spells

variable {text more : Text} {bytes front back : List UInt8}

theorem length_eq (spells : Spells text bytes) : text.length = 2 * bytes.length := by
  induction spells with
  | nil => rfl
  | cons _ _ _ ih =>
      rw [List.length_cons, List.length_cons, List.length_cons, ih]
      omega

theorem solid (spells : Spells text bytes) : ∀ c ∈ text, isSpace c = false := by
  induction spells with
  | nil => exact fun _ => nofun
  | cons isHigh isLow _ ih =>
      exact List.forall_mem_cons.mpr ⟨digit_solid isHigh,
        List.forall_mem_cons.mpr ⟨digit_solid isLow, ih⟩⟩

theorem append (first : Spells text front) (second : Spells more back) :
    Spells (text ++ more) (front ++ back) := by
  induction first with
  | nil => exact second
  | cons isHigh isLow _ ih => exact cons isHigh isLow ih

/-- The front of the bytes has the front of the text. -/
theorem take (spells : Spells text bytes) (count : Nat) :
    Spells (text.take (2 * count)) (bytes.take count) := by
  induction spells generalizing count with
  | nil =>
      rw [List.take_nil, List.take_nil]
      exact nil
  | cons isHigh isLow _ ih =>
      cases count with
      | zero => exact nil
      | succ count => exact cons isHigh isLow (ih count)

theorem drop (spells : Spells text bytes) (count : Nat) :
    Spells (text.drop (2 * count)) (bytes.drop count) := by
  induction spells generalizing count with
  | nil =>
      rw [List.drop_nil, List.drop_nil]
      exact nil
  | cons isHigh isLow rest ih =>
      cases count with
      | zero => exact cons isHigh isLow rest
      | succ count => exact ih count

theorem fromHex_eq (spells : Spells text bytes) : fromHex text = some bytes := by
  induction spells with
  | nil => rfl
  | @cons high low first second text bytes isHigh isLow _ ih =>
      have solid : high ∉ [' ', '\t', '\n', '\x0b', '\x0c', '\r'] := by
        intro blank
        have none : ∀ other ∈ [' ', '\t', '\n', '\x0b', '\x0c', '\r'],
            digitIn 16 other = none := by
          simp only [List.forall_mem_cons, List.not_mem_nil, false_implies, implies_true, and_true]
          decide
        exact digit_plain isHigh (none high blank) rfl
      rw [fromHex, if_neg solid, isHigh, isLow, ih]
      rfl

theorem readDigits_eq (spells : Spells text bytes) (value : Nat) :
    readDigits 16 value text = some (256 ^ bytes.length * value + bigEndian bytes) := by
  induction spells generalizing value with
  | nil => simp [readDigits, bigEndian, Bytes.toNat]
  | @cons high low first second text bytes isHigh isLow _ ih =>
      have firstSmall := digit_lt isHigh
      have secondSmall := digit_lt isLow
      have byte : (UInt8.ofNat (16 * first + second)).toNat = 16 * first + second :=
        UInt8.toNat_ofNat_of_lt' (by show _ < 256; omega)
      have next : 16 * (16 * value + first) + second = 256 * value + (16 * first + second) := by
        omega
      rw [readDigits_cons isHigh, readDigits_cons isLow, next, ih]
      unfold bigEndian
      rw [List.reverse_cons, Bytes.toNat_append, List.length_reverse, List.length_cons, pow_succ]
      simp only [Bytes.toNat, byte, Option.some.injEq]
      ring

/-- Digits are read as the number of the bytes. -/
theorem readInt_eq (spells : Spells text bytes) (some : bytes ≠ []) :
    readInt 16 text = .some (bigEndian bytes : Int) := by
  have read := spells.readDigits_eq 0
  have solid := spells.solid
  cases spells with
  | nil => exact absurd rfl some
  | @cons high low first second text bytes isHigh isLow _ =>
      have minus := digit_plain isHigh (show digitIn 16 '-' = none from rfl)
      have plus := digit_plain isHigh (show digitIn 16 '+' = none from rfl)
      refine readInt_of_unsigned solid minus plus ?_
      rw [readDigits_cons isHigh, Nat.mul_zero, Nat.zero_add, Nat.mul_zero, Nat.zero_add] at read
      have number : readNumber 16 (high :: low :: text) = .some (bigEndian
          (UInt8.ofNat (16 * first + second) :: bytes)) := by
        rw [readNumber, isHigh, Option.bind_some, read]
      have smallX := digit_plain isLow (show digitIn 16 'x' = none from rfl)
      have bigX := digit_plain isLow (show digitIn 16 'X' = none from rfl)
      have radix :
          ((radixOf low).any fun radix => (16 : Nat) = 0 || (16 : Nat) = radix) = false := by
        unfold radixOf
        rw [if_neg (by simp [smallX, bigX])]
        split
        · rfl
        · split <;> rfl
      unfold readUnsigned
      split
      · rename_i letter rest same
        obtain ⟨rfl, rfl, rfl⟩ : high = '0' ∧ low = letter ∧ text = rest := by simpa using same
        rw [if_neg (Bool.eq_false_iff.mp radix)]
        exact number
      · exact number

/-- Bytes written in capitals. -/
theorem upper (bytes : List UInt8) :
    Spells ((bytes.flatMap Nvm.hexByte).map Char.toUpper) bytes := by
  induction bytes with
  | nil => exact nil
  | cons byte rest ih =>
      have small : byte.toNat < 256 := byte.toNat_lt
      have pair := cons (Numerals.digitIn_toUpper (Nat.le_refl 16)
        (show byte.toNat / 16 < 16 by omega)) (Numerals.digitIn_toUpper (Nat.le_refl 16)
          (show byte.toNat % 16 < 16 by omega)) ih
      have whole : 16 * (byte.toNat / 16) + byte.toNat % 16 = byte.toNat := by omega
      rw [whole, UInt8.ofNat_toNat] at pair
      exact pair

end Spells

/-! ## Lines in capitals -/

namespace Record

/-- The byte that makes the sum of a record 0. -/
def checksum (record : Record) : UInt8 :=
  UInt8.ofNat ((256 - (record.bytes.map UInt8.toNat).sum % 256) % 256)

/-- The line of a record, in capitals. -/
def line (record : Record) : Text :=
  ':' :: ((record.bytes ++ [record.checksum]).flatMap Nvm.hexByte).map Char.toUpper

theorem spelled_line (record : Record) : Record.Spelled record.line record := by
  refine ⟨_, record.checksum, rfl, Spells.upper _, ?_⟩
  have byte : record.checksum.toNat = (256 - (record.bytes.map UInt8.toNat).sum % 256) % 256 :=
    UInt8.toNat_ofNat_of_lt' (Nat.mod_lt _ (by decide))
  rw [List.map_append, List.sum_append, List.map_cons, List.map_nil, List.sum_singleton, byte]
  omega

theorem solid_line (record : Record) : ∀ c ∈ record.line, isSpace c = false :=
  List.forall_mem_cons.mpr ⟨rfl, (Spells.upper _).solid⟩

/-- The lines of records are read as they are. -/
theorem lineList_lines (records : List Record) :
    HexFile.lineList (records.map line) = records.map line := by
  unfold HexFile.lineList
  have same : (records.map line).map strip = records.map line := by
    rw [List.map_map]
    exact List.map_congr_left fun record _ => strip_of_solid record.solid_line
  rw [same]
  apply List.filter_eq_self.mpr
  intro text member
  obtain ⟨record, -, rfl⟩ := List.mem_map.mp member
  rfl

/-- The lines of records spell them. -/
theorem spelled_lines (records : List Record) :
    List.Forall₂ Record.Spelled (HexFile.lineList (records.map line)) records := by
  rw [lineList_lines]
  induction records with
  | nil => exact .nil
  | cons record rest ih => exact .cons record.spelled_line ih

end Record

/-! ## Reading a line -/

section Line

variable {record : Record} {line : Text}

theorem bigEndian_one (byte : UInt8) : bigEndian [byte] = byte.toNat := by
  simp [bigEndian, Bytes.toNat]

theorem bigEndian_two (high low : UInt8) :
    bigEndian [high, low] = 256 * high.toNat + low.toNat := by
  simp [bigEndian, Bytes.toNat]
  omega

/-- The address is read back from its two bytes. -/
theorem bigEndian_address (address : UInt16) :
    bigEndian [UInt8.ofNat (address.toNat / 256), UInt8.ofNat (address.toNat % 256)] =
      address.toNat := by
  have small : address.toNat < 65536 := address.toNat_lt
  have high : (UInt8.ofNat (address.toNat / 256)).toNat = address.toNat / 256 :=
    UInt8.toNat_ofNat_of_lt' (by show _ < 256; omega)
  have low : (UInt8.ofNat (address.toNat % 256)).toNat = address.toNat % 256 :=
    UInt8.toNat_ofNat_of_lt' (by show _ < 256; omega)
  rw [bigEndian_two, high, low]
  omega

theorem Record.WellFormed.short (formed : record.WellFormed) : record.data.length < 256 := by
  unfold Record.WellFormed at formed
  split at formed <;> omega

/-- The parser finds the fields of a record in the line that spells it. -/
theorem parseFields_spelled (formed : record.WellFormed) (spelled : record.Spelled line) :
    ∃ data, Spells data record.data ∧
      HexFile.parseFields line = .ok ((record.data.length : Int), (record.address.toNat : Int),
        (record.type.code.toNat : Int), data) := by
  obtain ⟨text, checksum, rfl, spells, sum⟩ := spelled
  have size := spells.length_eq
  have bytes : record.bytes ++ [checksum] =
      UInt8.ofNat record.data.length :: UInt8.ofNat (record.address.toNat / 256) ::
        UInt8.ofNat (record.address.toNat % 256) :: record.type.code ::
          (record.data ++ [checksum]) := rfl
  have length : readInt 16 (((':' :: text).drop 1).take 2) = some (record.data.length : Int) := by
    show readInt 16 (text.take 2) = _
    have front := spells.take 1
    rw [bytes] at front
    rw [front.readInt_eq (List.cons_ne_nil _ _)]
    show some ((bigEndian [UInt8.ofNat record.data.length] : Nat) : Int) = _
    rw [bigEndian_one, UInt8.toNat_ofNat_of_lt' formed.short]
  have address : readInt 16 (((':' :: text).drop 3).take 4) =
      some (record.address.toNat : Int) := by
    show readInt 16 ((text.drop 2).take 4) = _
    have middle := (spells.drop 1).take 2
    rw [bytes] at middle
    rw [middle.readInt_eq (List.cons_ne_nil _ _)]
    exact congrArg (fun value : Nat => some (value : Int)) (bigEndian_address record.address)
  have command : readInt 16 (((':' :: text).drop 7).take 2) =
      some (record.type.code.toNat : Int) := by
    show readInt 16 ((text.drop 6).take 2) = _
    have middle := (spells.drop 3).take 1
    rw [bytes] at middle
    rw [middle.readInt_eq (List.cons_ne_nil _ _)]
    exact congrArg (fun value : Nat => some (value : Int)) (bigEndian_one _)
  have count : (record.bytes ++ [checksum]).length = record.data.length + 5 := by
    rw [bytes]
    simp
  have slice : ((':' :: text).take ((':' :: text).length - 2)).drop 9 =
      (text.take (2 * (record.data.length + 4))).drop (2 * 4) := by
    have fits : (':' :: text).length - 2 = 2 * (record.data.length + 4) + 1 := by
      rw [List.length_cons, size, count]
      omega
    rw [fits, List.take_succ_cons]
    rfl
  have data := (spells.take (record.data.length + 4)).drop 4
  rw [bytes] at data
  have own : ((UInt8.ofNat record.data.length :: UInt8.ofNat (record.address.toNat / 256) ::
      UInt8.ofNat (record.address.toNat % 256) :: record.type.code ::
        (record.data ++ [checksum])).take (record.data.length + 4)).drop 4 = record.data := by
    simp
  rw [own] at data
  refine ⟨_, data, ?_⟩
  have sized := data.length_eq
  unfold HexFile.parseFields
  have hex : fromHex ((':' :: text).drop 1) = some (record.bytes ++ [checksum]) := spells.fromHex_eq
  have fits : ¬ (record.data.length : Int) * 2 ≠
      (((text.take (2 * (record.data.length + 4))).drop (2 * 4)).length : Int) := by
    rw [sized]
    omega
  simp only [hex, slice, length, address, command, HexFile.converted, pure_bind, sum, fits,
    ne_eq, not_true_eq_false, if_false]
  rfl

/-- The type of file that a record type is of, and its group. -/
def RecordType.info : RecordType → FileType × HexFile.RecordGroup
  | .data => (.i8hex, .data)
  | .endOfFile => (.i8hex, .endOfFile)
  | .extendedSegmentAddress => (.i16hex, .extendedAddress)
  | .startSegmentAddress => (.i16hex, .startAddress)
  | .extendedLinearAddress => (.i32hex, .extendedAddress)
  | .startLinearAddress => (.i32hex, .startAddress)

theorem parseMap_code (type : RecordType) :
    HexFile.parseMap (type.code.toNat : Int) = some type.info := by
  cases type <;> rfl

/-- What the parser makes of a record. -/
def Record.effect (state : HexFile.ParseState) (record : Record) : HexFile.ParseState :=
  let fileType := record.type.info.1
  let state := { state with
    fileType := if fileType.number > state.fileType.number then fileType else state.fileType }
  match record.type.info.2 with
  | .data =>
      { state with
        lineData := state.lineData ++ [⟨state.extAddr + record.address.toNat, record.data⟩] }
  | .endOfFile => { state with endReached := true }
  | .extendedAddress => { state with extAddr := record.value * 0x10000 }
  | .startAddress => { state with start := some (record.value : Int) }

/-- A record with a start address. -/
def Record.isStart (record : Record) : Bool := record.type.info.2 = .startAddress

/-- The data of a record changes the state as the record says. -/
theorem processRecord_spelled {state : HexFile.ParseState} {data : Text}
    (formed : record.WellFormed) (spells : Spells data record.data)
    (fresh : record.isStart → state.start = none) :
    HexFile.processRecord
        { state with
          fileType := if record.type.info.1.number > state.fileType.number then
            record.type.info.1 else state.fileType }
        record.data.length record.address.toNat data record.type.info.2 =
      .ok (record.effect state) := by
  obtain ⟨type, address, bytes⟩ := record
  have read : bytes ≠ [] → readInt 16 data = some (bigEndian bytes : Int) := spells.readInt_eq
  have number : ∀ count, 0 < count → bytes.length = count →
      readInt 16 data = some (bigEndian bytes : Int) := fun count positive size =>
    read (List.length_pos_iff.mp (size ▸ positive))
  cases type with
  | data => simp only [HexFile.processRecord, RecordType.info, Record.effect, spells.fromHex_eq,
      HexFile.converted, pure_bind]; rfl
  | endOfFile => rfl
  | extendedSegmentAddress | extendedLinearAddress =>
      have size : bytes.length = 2 := formed
      simp only [HexFile.processRecord, RecordType.info, Record.effect, number 2 Nat.two_pos size,
        HexFile.converted, pure_bind, size]
      rfl
  | startSegmentAddress | startLinearAddress =>
      have size : bytes.length = 4 := formed
      simp only [HexFile.processRecord, RecordType.info, Record.effect,
        number 4 (by decide) size, HexFile.converted, pure_bind, size, fresh rfl]
      rfl

/-- A line that spells a record is read as that record. -/
theorem parseLine_spelled {state : HexFile.ParseState} (formed : record.WellFormed)
    (spelled : record.Spelled line) (reading : state.endReached = false)
    (fresh : record.isStart → state.start = none) :
    HexFile.parseLine state line = .ok (record.effect state) := by
  obtain ⟨data, spells, fields⟩ := parseFields_spelled formed spelled
  rw [← processRecord_spelled formed spells fresh]
  obtain ⟨text, checksum, rfl, -, -⟩ := spelled
  have going : ¬ state.endReached = true := by
    rw [reading]
    decide
  have colon : ¬ (':' :: text).head? ≠ some ':' := fun other => other rfl
  simp only [HexFile.parseLine, if_neg going, if_neg colon, fields, bind, Except.bind,
    parseMap_code]

end Line

end QHal.Hex
