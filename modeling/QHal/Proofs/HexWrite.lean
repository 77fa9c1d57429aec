/-
Module: QHal.Proofs.HexWrite
Purpose: The records that a hex file is written with, and the bytes that they stand for.
Trusted boundary: none
Main exports: fileRecords, writeHex_records, blockRecords_bytes, RoundTrips, Writable,
  roundTrips_iff
-/
import QHal.Hex.HexWrite
import QHal.Proofs.HexEdits
import QHal.Proofs.HexParse

namespace QHal.Hex

open Numerals (Text strip isSpace)

namespace HexFile

/-! ## The records -/

/-- The line of a record with its end. -/
def recordText (record : Record) : Text := record.line ++ ['\n']

/-- The record of a new extended address, and the address that is current behind it. -/
def extendedRecords (fileType : FileType) (extAddr curExtAddr : Int) : List Record × Int :=
  if extAddr ≠ curExtAddr ∧ fileType ≠ .i8hex then
    ([{ type := if fileType = .i16hex then .extendedSegmentAddress else .extendedLinearAddress
        address := 0
        data := (Bytes.ofNat 2 extAddr.toNat).reverse }], extAddr)
  else ([], curExtAddr)

/-- The records of a block and the current extended address. -/
def blockRecords (fileType : FileType) (lineLength : Nat) :
    Nat → Int → List UInt8 → Int → List Record × Int
  | 0, _, _, curExtAddr => ([], curExtAddr)
  | turns + 1, address, data, curExtAddr =>
      if data = [] then ([], curExtAddr)
      else
        let lineLen := min lineLength (0x10000 - address % 0x10000).toNat
        let extended := extendedRecords fileType (address / 0x10000) curExtAddr
        let rest :=
          blockRecords fileType lineLength turns (address + lineLen) (data.drop lineLen) extended.2
        (extended.1 ++ ⟨.data, UInt16.ofNat (address % 0x10000).toNat, data.take lineLen⟩ :: rest.1,
          rest.2)

def blocksRecords (fileType : FileType) (lineLength : Nat) (curExtAddr : Int) :
    List HexBlock → List Record
  | [] => []
  | block :: rest =>
      let own :=
        blockRecords fileType lineLength block.data.length block.start block.data curExtAddr
      own.1 ++ blocksRecords fileType lineLength own.2 rest

/-- The record of the start address. -/
def startRecords (fileType : FileType) : Option Int → List Record
  | none => []
  | some start =>
      [{ type := if fileType = .i16hex then .startSegmentAddress else .startLinearAddress
         address := 0
         data := (Bytes.ofNat 4 start.toNat).reverse }]

/-- The records of a file. -/
def fileRecords (file : HexFile) (lineLength : Nat) : List Record :=
  blocksRecords file.writtenType lineLength (-1) file.blocks ++
    startRecords file.writtenType file.start ++ [⟨.endOfFile, 0, []⟩]

/-! ## Writing a record -/

section Lines

variable {record : Record} {width : Nat} {value : Int}

theorem packBig_eq (low : 0 ≤ value) (high : value < 256 ^ width) :
    packBig width value = .ok (Bytes.ofNat width value.toNat).reverse := by
  unfold packBig Bytes.pack
  rw [if_pos ⟨low, high⟩]
  rfl

theorem bigEndian_pack {number : Nat} (small : number < 256 ^ width) :
    bigEndian (Bytes.ofNat width number).reverse = number := by
  unfold bigEndian
  rw [List.reverse_reverse, Bytes.toNat_ofNat_of_lt small]

/-- A line is the line of its record. -/
theorem writeLine_record (short : record.data.length < 256) :
    writeLine record.type.code.toNat record.address.toNat record.data =
      .ok (recordText record) := by
  have addressSmall : record.address.toNat < 65536 := record.address.toNat_lt
  have codeSmall : record.type.code.toNat < 256 := record.type.code.toNat_lt
  have length : packBig 1 record.data.length = .ok [UInt8.ofNat record.data.length] :=
    packBig_eq (Int.natCast_nonneg _) (by norm_num; omega)
  have address : packBig 2 record.address.toNat =
      .ok [UInt8.ofNat (record.address.toNat / 256), UInt8.ofNat (record.address.toNat % 256)] := by
    rw [packBig_eq (Int.natCast_nonneg _) (by norm_num; omega)]
    have low : UInt8.ofNat record.address.toNat = UInt8.ofNat (record.address.toNat % 256) := by
      apply UInt8.toNat_inj.mp
      simp
    show Except.ok [UInt8.ofNat (record.address.toNat / 256), UInt8.ofNat record.address.toNat] = _
    rw [low]
  have command : packBig 1 record.type.code.toNat = .ok [record.type.code] := by
    rw [packBig_eq (Int.natCast_nonneg _) (by norm_num; omega)]
    show Except.ok [UInt8.ofNat record.type.code.toNat] = _
    rw [UInt8.ofNat_toNat]
  unfold writeLine
  rw [length, address, command]
  rfl

/-- The line of a record without an address. -/
theorem writeLine_type (type : RecordType) {data : List UInt8} (short : data.length < 256) :
    writeLine type.code.toNat 0 data = .ok (recordText ⟨type, 0, data⟩) := by
  have written := @writeLine_record ⟨type, 0, data⟩ short
  have zero : ((0 : UInt16).toNat : Int) = 0 := by decide
  dsimp only at written
  rw [zero] at written
  exact written

end Lines

section Writer

variable {fileType : FileType} {lineLength turns : Nat} {address extAddr curExtAddr : Int}
  {data : List UInt8} {blocks : List HexBlock}

theorem length_packed (width value : Nat) : (Bytes.ofNat width value).reverse.length = width := by
  rw [List.length_reverse, Bytes.length_ofNat]

theorem writeExtended_records (low : 0 ≤ extAddr) (high : extAddr < 0x10000) :
    writeExtended fileType extAddr curExtAddr =
      .ok ((extendedRecords fileType extAddr curExtAddr).1.map recordText,
        (extendedRecords fileType extAddr curExtAddr).2) := by
  have packed : packBig 2 extAddr = .ok (Bytes.ofNat 2 extAddr.toNat).reverse :=
    packBig_eq low (by norm_num; omega)
  unfold writeExtended extendedRecords
  split
  · rename_i new
    have short : (Bytes.ofNat 2 extAddr.toNat).reverse.length < 256 := by
      rw [length_packed]
      decide
    rw [packed]
    cases fileType with
    | i8hex => exact absurd rfl new.2
    | i16hex =>
        have code : RecordType.extendedSegmentAddress.code.toNat = 2 := by decide
        have line := writeLine_type .extendedSegmentAddress short
        rw [code] at line
        simp only [command, writeMap, pure, bind, Except.pure, Except.bind, line]
        rfl
    | i32hex =>
        have code : RecordType.extendedLinearAddress.code.toNat = 4 := by decide
        have line := writeLine_type .extendedLinearAddress short
        rw [code] at line
        simp only [command, writeMap, pure, bind, Except.pure, Except.bind, line]
        rfl
  · rfl

/-- The bytes of a line fit into it. -/
theorem lineLen_pos (positive : 0 < lineLength) (address : Int) :
    0 < min lineLength (0x10000 - address % 0x10000).toNat := by
  omega

/-- The lines of a block are those of its records. -/
theorem writeBlock_records (short : lineLength < 256) (low : 0 ≤ address)
    (high : data ≠ [] → address + data.length ≤ 0x100000000) :
    writeBlock fileType lineLength turns address data curExtAddr =
      .ok ((blockRecords fileType lineLength turns address data curExtAddr).1.map recordText,
        (blockRecords fileType lineLength turns address data curExtAddr).2) := by
  induction turns generalizing address data curExtAddr with
  | zero => rfl
  | succ turns ih =>
      rw [writeBlock, blockRecords]
      split
      · rfl
      · rename_i filled
        have positive := List.length_pos_iff.mpr filled
        have inside := high filled
        generalize chosen : min lineLength (0x10000 - address % 0x10000).toNat = lineLen
        have extended := @writeExtended_records fileType (address / 0x10000) curExtAddr
          (by omega) (by omega)
        have line : writeLine 0 (address % 0x10000) (data.take lineLen) =
            .ok (recordText
              ⟨.data, UInt16.ofNat (address % 0x10000).toNat, data.take lineLen⟩) := by
          have written := @writeLine_record
            ⟨.data, UInt16.ofNat (address % 0x10000).toNat, data.take lineLen⟩
            (by rw [List.length_take]; omega)
          have number : ((UInt16.ofNat (address % 0x10000).toNat).toNat : Int) =
              address % 0x10000 := by
            rw [UInt16.toNat_ofNat_of_lt' (by show _ < 65536; omega)]
            omega
          dsimp only at written
          rw [number] at written
          exact written
        have rest := @ih (address + lineLen)
          (extendedRecords fileType (address / 0x10000) curExtAddr).2 (data.drop lineLen)
          (by omega) (fun more => by
            have left := List.length_pos_iff.mpr more
            rw [List.length_drop] at left ⊢
            omega)
        simp only [extended, line, rest, bind, Except.bind, pure, Except.pure, List.map_append,
          List.map_cons]

/-- The data of every block is at addresses of 32 bits. -/
def Within (blocks : List HexBlock) : Prop :=
  ∀ block ∈ blocks, 0 ≤ block.start ∧ block.stop ≤ 0x100000000

theorem writeBlocks_records (short : lineLength < 256) (within : Within blocks) :
    writeBlocks fileType lineLength curExtAddr blocks =
      .ok ((blocksRecords fileType lineLength curExtAddr blocks).map recordText) := by
  induction blocks generalizing curExtAddr with
  | nil => rfl
  | cons block rest ih =>
      obtain ⟨⟨low, high⟩, later⟩ := List.forall_mem_cons.mp within
      have own := @writeBlock_records fileType lineLength block.data.length block.start curExtAddr
        block.data short low fun _ => high
      rw [writeBlocks, own, blocksRecords, List.map_append]
      simp only [bind, Except.bind, ih later, pure, Except.pure]

/-- There is no start address, or the type of the file has a record for it. -/
def StartFits (fileType : FileType) (start : Option Int) : Prop :=
  ∀ value, start = some value → (0 ≤ value ∧ value < 0x100000000) ∧ fileType ≠ .i8hex

theorem writeStart_records {start : Option Int} (fits : StartFits fileType start) :
    writeStart fileType start = .ok ((startRecords fileType start).map recordText) := by
  cases start with
  | none => rfl
  | some value =>
      obtain ⟨⟨low, high⟩, type⟩ := fits value rfl
      have packed : packBig 4 value = .ok (Bytes.ofNat 4 value.toNat).reverse :=
        packBig_eq low (by norm_num; omega)
      have short : (Bytes.ofNat 4 value.toNat).reverse.length < 256 := by
        rw [length_packed]
        decide
      cases fileType with
      | i8hex => exact absurd rfl type
      | i16hex =>
          have code : RecordType.startSegmentAddress.code.toNat = 3 := by decide
          have line := writeLine_type .startSegmentAddress short
          rw [code] at line
          simp only [writeStart, packed, command, writeMap, pure, bind, Except.pure, Except.bind,
            line]
          rfl
      | i32hex =>
          have code : RecordType.startLinearAddress.code.toNat = 5 := by decide
          have line := writeLine_type .startLinearAddress short
          rw [code] at line
          simp only [writeStart, packed, command, writeMap, pure, bind, Except.pure, Except.bind,
            line]
          rfl

/-- A start address that has no record, or does not fit into it, is refused. -/
theorem writeStart_refused {start : Option Int} (unfit : ¬ StartFits fileType start) :
    ∃ error, writeStart fileType start = .error error := by
  cases start with
  | none => exact (unfit nofun).elim
  | some value =>
      by_cases inside : 0 ≤ value ∧ value < 0x100000000
      · cases fileType with
        | i8hex => exact ⟨_, rfl⟩
        | i16hex => exact (unfit fun other same => by cases same; exact ⟨inside, nofun⟩).elim
        | i32hex => exact (unfit fun other same => by cases same; exact ⟨inside, nofun⟩).elim
      · have refused : packBig 4 value = .error "struct.error" := by
          unfold packBig Bytes.pack
          rw [if_neg (by norm_num; omega)]
          rfl
        cases fileType with
        | i8hex => exact ⟨_, rfl⟩
        | _ =>
            simp only [writeStart, command, writeMap, refused, pure, bind, Except.pure, Except.bind]
            exact ⟨_, rfl⟩

/-- The lines of a file are those of its records. -/
theorem writeHex_records {file : HexFile} (short : lineLength < 256) (within : Within file.blocks)
    (fits : StartFits file.writtenType file.start) :
    file.writeHex lineLength = .ok ((fileRecords file lineLength).map recordText) := by
  have ending : writeLine 1 0 [] = .ok (recordText ⟨.endOfFile, 0, []⟩) :=
    writeLine_type .endOfFile (by decide)
  unfold writeHex fileRecords
  simp only [writeBlocks_records short within, writeStart_records fits, ending, bind, Except.bind,
    pure, Except.pure, List.map_append, List.map_cons, List.map_nil]

theorem writeHex_refused {file : HexFile} (short : lineLength < 256) (within : Within file.blocks)
    (unfit : ¬ StartFits file.writtenType file.start) :
    ∃ error, file.writeHex lineLength = .error error := by
  obtain ⟨error, refused⟩ := writeStart_refused unfit
  unfold writeHex
  simp only [writeBlocks_records short within, refused, bind, Except.bind]
  exact ⟨error, rfl⟩

end Writer

/-! ## What the records stand for -/

section Records

variable {fileType : FileType} {lineLength turns : Nat} {address base curExtAddr : Int}
  {data : List UInt8} {blocks : List HexBlock} {records : List Record}

/-- The bytes of records. -/
def bytesFrom (base : Int) (records : List Record) : List (Int × UInt8) :=
  (recordLines 0x10000 base records).flatMap fun line => placeBytes line.address line.data

/-- The scope of the records that are written next: the current extended address, or none yet. -/
def Scope (fileType : FileType) (base curExtAddr : Int) : Prop :=
  if fileType = .i8hex then base = 0 else curExtAddr = -1 ∨ base = 0x10000 * curExtAddr

theorem placeBytes_append (address : Int) (front back : List UInt8) :
    placeBytes address (front ++ back) =
      placeBytes address front ++ placeBytes (address + front.length) back := by
  induction front generalizing address with
  | nil => simp [placeBytes]
  | cons byte front ih =>
      rw [List.cons_append, placeBytes, placeBytes, ih, List.cons_append, List.length_cons]
      congr 3
      omega

/-- Behind the record of its extended address a line has its address. -/
theorem extendedRecords_base (low : 0 ≤ address) (high : address < 0x100000000)
    (fits : fileType = .i8hex → address < 0x10000) (scope : Scope fileType base curExtAddr)
    (records : List Record) :
    bytesFrom base ((extendedRecords fileType (address / 0x10000) curExtAddr).1 ++ records) =
        bytesFrom (0x10000 * (address / 0x10000)) records ∧
      Scope fileType (0x10000 * (address / 0x10000))
        (extendedRecords fileType (address / 0x10000) curExtAddr).2 := by
  unfold extendedRecords
  unfold Scope at scope ⊢
  by_cases plain : fileType = .i8hex
  · have own := fits plain
    rw [if_pos plain] at scope ⊢
    rw [if_neg fun new => new.2 plain]
    have zero : 0x10000 * (address / 0x10000) = 0 := by omega
    rw [zero, scope]
    exact ⟨rfl, rfl⟩
  · rw [if_neg plain] at scope ⊢
    have value : (bigEndian (Bytes.ofNat 2 (address / 0x10000).toNat).reverse : Int) =
        address / 0x10000 := by
      rw [bigEndian_pack (by norm_num; omega)]
      omega
    by_cases same : address / 0x10000 = curExtAddr
    · rw [if_neg fun new => new.1 same]
      refine ⟨?_, Or.inr (by rw [same])⟩
      rcases scope with none | here
      · omega
      · rw [here, same]
        rfl
    · rw [if_pos ⟨same, plain⟩]
      refine ⟨?_, Or.inr rfl⟩
      cases fileType with
      | i8hex => exact absurd rfl plain
      | i16hex | i32hex =>
          exact congrArg (fun value : Int => bytesFrom (0x10000 * value) records) value

/-- The bytes of a line and those behind it. -/
theorem placeBytes_split (address : Int) (data : List UInt8) (count : Nat) :
    placeBytes address (data.take count) ++ placeBytes (address + count) (data.drop count) =
      placeBytes address data := by
  by_cases short : count ≤ data.length
  · have size : (data.take count).length = count := by
      rw [List.length_take]
      omega
    have whole := placeBytes_append address (data.take count) (data.drop count)
    rw [size, List.take_append_drop] at whole
    exact whole.symm
  · rw [List.take_of_length_le (by omega), List.drop_eq_nil_of_le (by omega)]
    exact List.append_nil _

/-- The records of a block stand for its bytes. -/
theorem blockRecords_bytes (positive : 0 < lineLength) (enough : data.length ≤ turns)
    (low : 0 ≤ address) (high : data ≠ [] → address + data.length ≤ 0x100000000)
    (fits : fileType = .i8hex → data ≠ [] → address + data.length ≤ 0x10000)
    (scope : Scope fileType base curExtAddr) :
    ∃ next, Scope fileType next (blockRecords fileType lineLength turns address data curExtAddr).2 ∧
      ∀ more, bytesFrom base
          ((blockRecords fileType lineLength turns address data curExtAddr).1 ++ more) =
        placeBytes address data ++ bytesFrom next more := by
  induction turns generalizing address data base curExtAddr with
  | zero =>
      have empty : data = [] := List.length_eq_zero_iff.mp (Nat.le_zero.mp enough)
      rw [empty]
      exact ⟨base, scope, fun more => rfl⟩
  | succ turns ih =>
      rw [blockRecords]
      split
      · rename_i empty
        rw [empty]
        exact ⟨base, scope, fun more => rfl⟩
      · rename_i filled
        have some := List.length_pos_iff.mpr filled
        have inside := high filled
        have lineLenPos := lineLen_pos positive address
        generalize min lineLength (0x10000 - address % 0x10000).toNat = lineLen at lineLenPos ⊢
        have first := extendedRecords_base low (by omega)
          (fun plain => by have own := fits plain filled; omega) scope
        obtain ⟨next, after, rest⟩ := @ih (address + lineLen) (0x10000 * (address / 0x10000))
          (extendedRecords fileType (address / 0x10000) curExtAddr).2 (data.drop lineLen)
          (by rw [List.length_drop]; omega) (by omega)
          (fun more => by
            have left := List.length_pos_iff.mpr more
            rw [List.length_drop] at left ⊢
            omega)
          (fun plain more => by
            have own := fits plain filled
            have left := List.length_pos_iff.mpr more
            rw [List.length_drop] at left ⊢
            omega) (first []).2
        refine ⟨next, after, fun more => ?_⟩
        dsimp only
        rw [List.append_assoc, (first _).1, List.cons_append]
        have number : 0x10000 * (address / 0x10000) +
            ((UInt16.ofNat (address % 0x10000).toNat).toNat : Int) = address := by
          rw [UInt16.toNat_ofNat_of_lt' (by show _ < 65536; omega)]
          omega
        have line : bytesFrom (0x10000 * (address / 0x10000))
            (⟨.data, UInt16.ofNat (address % 0x10000).toNat, data.take lineLen⟩ ::
              ((blockRecords fileType lineLength turns (address + lineLen) (data.drop lineLen)
                (extendedRecords fileType (address / 0x10000) curExtAddr).2).1 ++ more)) =
            placeBytes (0x10000 * (address / 0x10000) +
              ((UInt16.ofNat (address % 0x10000).toNat).toNat : Int)) (data.take lineLen) ++
                bytesFrom (0x10000 * (address / 0x10000))
                  ((blockRecords fileType lineLength turns (address + lineLen) (data.drop lineLen)
                    (extendedRecords fileType (address / 0x10000) curExtAddr).2).1 ++ more) := rfl
        rw [line, number, rest, ← List.append_assoc, placeBytes_split]

/-- The records of blocks stand for their bytes. -/
theorem blocksRecords_bytes (positive : 0 < lineLength) (within : Within blocks)
    (fits : fileType = .i8hex → ∀ block ∈ blocks, block.stop ≤ 0x10000)
    (scope : Scope fileType base curExtAddr) :
    ∃ next, ∀ more, bytesFrom base
        (blocksRecords fileType lineLength curExtAddr blocks ++ more) =
      blocks.flatMap (fun block => placeBytes block.start block.data) ++ bytesFrom next more := by
  induction blocks generalizing base curExtAddr with
  | nil => exact ⟨base, fun more => rfl⟩
  | cons block rest ih =>
      obtain ⟨⟨low, high⟩, later⟩ := List.forall_mem_cons.mp within
      obtain ⟨middle, after, own⟩ := @blockRecords_bytes fileType lineLength block.data.length
        block.start base curExtAddr block.data positive (Nat.le_refl _) low (fun _ => high)
        (fun plain _ => fits plain block List.mem_cons_self) scope
      obtain ⟨next, others⟩ := ih later
        (fun plain other member => fits plain other (List.mem_cons_of_mem block member)) after
      refine ⟨next, fun more => ?_⟩
      rw [blocksRecords, List.append_assoc, own, others, List.flatMap_cons, List.append_assoc]

/-- A record of the data of a file: of data, or of an extended address. -/
def OfData (record : Record) : Prop :=
  record.WellFormed ∧ record.type ≠ .endOfFile ∧ record.isStart = false

theorem extendedRecords_ofData (fileType : FileType) (extAddr curExtAddr : Int) :
    ∀ record ∈ (extendedRecords fileType extAddr curExtAddr).1, OfData record := by
  unfold extendedRecords
  split
  · intro record single
    rw [List.mem_singleton.mp single]
    split
    · exact ⟨length_packed 2 _, nofun, rfl⟩
    · exact ⟨length_packed 2 _, nofun, rfl⟩
  · exact fun _ => nofun

theorem blockRecords_ofData (positive : 0 < lineLength) (short : lineLength < 256) :
    ∀ record ∈ (blockRecords fileType lineLength turns address data curExtAddr).1,
      OfData record := by
  induction turns generalizing address data curExtAddr with
  | zero => exact fun _ => nofun
  | succ turns ih =>
      rw [blockRecords]
      split
      · exact fun _ => nofun
      · rename_i filled
        have some := List.length_pos_iff.mpr filled
        have lineLenPos := lineLen_pos positive address
        refine List.forall_mem_append.mpr ⟨extendedRecords_ofData _ _ _,
          List.forall_mem_cons.mpr ⟨⟨⟨?_, ?_⟩, nofun, rfl⟩, ih⟩⟩
        · show 0 < (data.take _).length
          rw [List.length_take]
          omega
        · show (data.take _).length < 256
          rw [List.length_take]
          omega

theorem blocksRecords_ofData (positive : 0 < lineLength) (short : lineLength < 256) :
    ∀ record ∈ blocksRecords fileType lineLength curExtAddr blocks, OfData record := by
  induction blocks generalizing curExtAddr with
  | nil => exact fun _ => nofun
  | cons block rest ih =>
      exact List.forall_mem_append.mpr ⟨blockRecords_ofData positive short, ih⟩

/-- The records of a file are those of a hex file. -/
theorem hexRecords_fileRecords (positive : 0 < lineLength) (short : lineLength < 256)
    (file : HexFile) : HexRecords (fileRecords file lineLength) := by
  have data := @blocksRecords_ofData file.writtenType lineLength (-1) file.blocks positive short
  have start : ∀ record ∈ startRecords file.writtenType file.start,
      record.WellFormed ∧ record.type ≠ .endOfFile := by
    cases file.start with
    | none => exact fun _ => nofun
    | some value =>
        intro record single
        rw [List.mem_singleton.mp single]
        dsimp only
        split
        · exact ⟨length_packed 4 _, nofun⟩
        · exact ⟨length_packed 4 _, nofun⟩
  have none : (blocksRecords file.writtenType lineLength (-1) file.blocks).countP Record.isStart =
      0 := List.countP_eq_zero.mpr fun record member => by rw [(data record member).2.2]; decide
  unfold fileRecords
  refine ⟨?_, ?_, ⟨_, by rw [List.getLast?_concat]; rfl, rfl⟩, ?_⟩
  · refine List.forall_mem_append.mpr ⟨List.forall_mem_append.mpr ⟨?_, ?_⟩, ?_⟩
    · exact fun record member => (data record member).1
    · exact fun record member => (start record member).1
    · intro record single
      rw [List.mem_singleton.mp single]
      rfl
  · have most : (startRecords file.writtenType file.start).countP Record.isStart ≤
        (startRecords file.writtenType file.start).length := List.countP_le_length
    have single : (startRecords file.writtenType file.start).length ≤ 1 := by
      cases file.start with
      | none => exact Nat.zero_le 1
      | some value => exact Nat.le_refl 1
    have ending : [Record.mk .endOfFile 0 []].countP Record.isStart = 0 := by decide
    rw [List.countP_append, List.countP_append, none, ending]
    omega
  · rw [List.dropLast_concat]
    refine List.forall_mem_append.mpr ⟨?_, ?_⟩
    · exact fun record member => (data record member).2.1
    · exact fun record member => (start record member).2

/-- The lines of records with their ends are read as the records. -/
theorem spelled_texts (records : List Record) :
    List.Forall₂ Record.Spelled (lineList (records.map recordText)) records := by
  have same : lineList (records.map recordText) = lineList (records.map Record.line) := by
    unfold lineList
    congr 1
    rw [List.map_map, List.map_map]
    refine List.map_congr_left fun record _ => ?_
    show strip (record.line ++ ['\n']) = strip record.line
    rw [Numerals.strip_of_solid record.solid_line]
    have solid := record.solid_line
    have front : (record.line ++ ['\n']).dropWhile isSpace = record.line ++ ['\n'] := rfl
    rw [strip, front, List.rdropWhile_concat_pos _ _ _ (by rfl), List.rdropWhile_eq_self_iff]
    intro filled
    rw [solid _ (List.getLast_mem filled)]
    decide
  rw [same]
  exact Record.spelled_lines records

theorem start_foldl {state : ParseState} (plain : ∀ record ∈ records, record.isStart = false) :
    (records.foldl Record.effect state).start = state.start := by
  induction records generalizing state with
  | nil => rfl
  | cons record rest ih =>
      obtain ⟨own, later⟩ := List.forall_mem_cons.mp plain
      rw [List.foldl_cons, ih later, start_effect own]

/-- The start address of the records of a file. -/
theorem start_fileRecords {file : HexFile} (positive : 0 < lineLength) (short : lineLength < 256)
    (fits : StartFits file.writtenType file.start) :
    ((fileRecords file lineLength).foldl Record.effect ParseState.init).start = file.start := by
  have data := @blocksRecords_ofData file.writtenType lineLength (-1) file.blocks positive short
  unfold fileRecords
  rw [List.foldl_append, List.foldl_append, List.foldl_cons, List.foldl_nil,
    @start_effect ⟨.endOfFile, 0, []⟩ rfl]
  have plain := @start_foldl _ ParseState.init fun record member => (data record member).2.2
  cases start : file.start with
  | none => exact plain
  | some value =>
      obtain ⟨⟨low, high⟩, -⟩ := fits value start
      have number : (bigEndian (Bytes.ofNat 4 value.toNat).reverse : Int) = value := by
        rw [bigEndian_pack (by norm_num; omega)]
        omega
      rw [startRecords, List.foldl_cons, List.foldl_nil]
      split
      · exact congrArg some number
      · exact congrArg some number

/-- Without extended addresses the records have the addresses of 16 bits. -/
theorem blockRecords_plain :
    ∀ record ∈ (blockRecords .i8hex lineLength turns address data curExtAddr).1,
      record.type = .data ∧ record.address.toNat + record.data.length ≤ 0x10000 := by
  induction turns generalizing address data curExtAddr with
  | zero => exact fun _ => nofun
  | succ turns ih =>
      rw [blockRecords]
      split
      · exact fun _ => nofun
      · have none : (extendedRecords .i8hex (address / 0x10000) curExtAddr).1 = [] := by
          unfold extendedRecords
          rw [if_neg fun new => new.2 rfl]
        dsimp only
        rw [none]
        refine List.forall_mem_cons.mpr ⟨⟨rfl, ?_⟩, ih⟩
        show (UInt16.ofNat (address % 0x10000).toNat).toNat + (data.take _).length ≤ 0x10000
        rw [UInt16.toNat_ofNat_of_lt' (by show _ < 65536; omega), List.length_take]
        omega

theorem blocksRecords_plain :
    ∀ record ∈ blocksRecords .i8hex lineLength curExtAddr blocks,
      record.type = .data ∧ record.address.toNat + record.data.length ≤ 0x10000 := by
  induction blocks generalizing curExtAddr with
  | nil => exact fun _ => nofun
  | cons block rest ih => exact List.forall_mem_append.mpr ⟨blockRecords_plain, ih⟩

theorem bytesFrom_plain
    (plain : ∀ record ∈ records,
      record.type = .data ∧ record.address.toNat + record.data.length ≤ 0x10000)
    (more : List Record) {place : Int} {byte : UInt8}
    (member : (place, byte) ∈ bytesFrom 0 (records ++ more)) :
    place < 0x10000 ∨ (place, byte) ∈ bytesFrom 0 more := by
  induction records with
  | nil => exact Or.inr member
  | cons record rest ih =>
      obtain ⟨⟨type, small⟩, later⟩ := List.forall_mem_cons.mp plain
      obtain ⟨kind, address, data⟩ := record
      cases type
      have split : bytesFrom 0 (⟨.data, address, data⟩ :: rest ++ more) =
          placeBytes (0 + address.toNat) data ++ bytesFrom 0 (rest ++ more) := rfl
      rw [split] at member
      rcases List.mem_append.mp member with own | others
      · have inside := HexBlock.inside_of_byte (mem_placeBytes.mp own)
        left
        have stop : (⟨0 + address.toNat, data, .bytearray⟩ : HexBlock).stop =
          0 + address.toNat + data.length := rfl
        dsimp only at small
        omega
      · exact ih later others

/-- The records of the start address and of the end have no bytes. -/
theorem bytesFrom_ending (base : Int) (fileType : FileType) (start : Option Int) :
    bytesFrom base (startRecords fileType start ++ [⟨.endOfFile, 0, []⟩]) = [] := by
  cases start with
  | none => rfl
  | some value => cases fileType <;> rfl

end Records

/-! ## Writing and reading -/

section RoundTrip

variable {file : HexFile} {lineLength : Nat}

/-- The start address, unless it was removed. -/
def setStart (file : HexFile) : Option Int := if file.start = some (-1) then none else file.start

/-- The file that is written is read as the same blocks and the same start address. -/
def RoundTrips (lineLength : Nat) (file : HexFile) : Prop :=
  ∃ lines back, file.writeHex lineLength = .ok lines ∧ parse lines = .ok back ∧
    contents back.blocks = contents file.blocks ∧ back.start = file.setStart

/-- The start address has a record, and a file without extended addresses ends in front of the
address 0x10000. -/
def Writable (file : HexFile) : Prop :=
  StartFits file.writtenType file.start ∧
    ¬ (file.fileType = .i8hex ∧ file.endAddress = 0x10000)

theorem parsed_fileRecords (positive : 0 < lineLength) (within : Within file.blocks)
    (fits : file.writtenType = .i8hex → ∀ block ∈ file.blocks, block.stop ≤ 0x10000) :
    parsedBytes (fileRecords file lineLength) =
      file.blocks.flatMap fun block => placeBytes block.start block.data := by
  have scope : Scope file.writtenType 0 (-1) := by
    unfold Scope
    split
    · rfl
    · exact Or.inl rfl
  obtain ⟨next, bytes⟩ := blocksRecords_bytes positive within fits scope
  show bytesFrom 0 (fileRecords file lineLength) = _
  unfold fileRecords
  rw [List.append_assoc, bytes, bytesFrom_ending, List.append_nil]

/-- A block as a line of data. -/
def blockLine (block : HexBlock) : LineData := ⟨block.address, block.data⟩

theorem apart_blockLine {blocks : List HexBlock} (apart : blocks.Pairwise Apart) :
    ((blocks.map blockLine).map LineData.block).Pairwise Apart := by
  rw [List.map_map]
  exact List.pairwise_map.mpr (apart.imp id)

theorem flatMap_blockLine (blocks : List HexBlock) :
    (blocks.flatMap fun block => placeBytes block.start block.data) =
      (blocks.map blockLine).flatMap fun line => placeBytes line.address line.data := by
  rw [List.flatMap_map]
  rfl

theorem distinct_blocks {blocks : List HexBlock} (canonical : Canonical 1 blocks) :
    Distinct (blocks.flatMap fun block => placeBytes block.start block.data) := by
  rw [flatMap_blockLine]
  refine (distinct_iff fun line member => ?_).mpr (apart_blockLine canonical.apart)
  obtain ⟨block, inside, rfl⟩ := List.mem_map.mp member
  exact canonical.filled block inside

theorem byteIn_blocks {blocks : List HexBlock} (canonical : Canonical 1 blocks) {place : Int}
    {byte : UInt8} : byteIn blocks place = some byte ↔
      (place, byte) ∈ blocks.flatMap fun block => placeBytes block.start block.data := by
  rw [flatMap_blockLine, ← byteIn_lines (apart_blockLine canonical.apart),
    byteIn_eq_some canonical.apart, byteIn_eq_some (apart_blockLine canonical.apart)]
  constructor
  · rintro ⟨block, member, here⟩
    exact ⟨_, List.mem_map_of_mem (List.mem_map_of_mem member), here⟩
  · rintro ⟨_, member, here⟩
    obtain ⟨line, inside, rfl⟩ := List.mem_map.mp member
    obtain ⟨block, own, rfl⟩ := List.mem_map.mp inside
    exact ⟨block, own, here⟩

/-- A file that is written without extended addresses ends in front of 0x10000. -/
theorem plain_fits (canonical : Canonical 1 file.blocks)
    (short : ¬ (file.fileType = .i8hex ∧ file.endAddress = 0x10000))
    (plain : file.writtenType = .i8hex) : ∀ block ∈ file.blocks, block.stop ≤ 0x10000 := by
  intro block member
  obtain ⟨last, final⟩ : ∃ last, file.blocks.getLast? = some last :=
    Option.ne_none_iff_exists'.mp fun none => by
      rw [List.getLast?_eq_none_iff.mp none] at member
      cases member
  have ends : file.endAddress = last.stop - 1 := by
    unfold endAddress
    rw [final]
    rfl
  have before := stop_le_last canonical final block member
  unfold writtenType at plain
  split at plain
  · cases plain
  · rename_i small
    have notAbove : ¬ file.endAddress > 0x10000 := fun above => small ⟨plain, above⟩
    have notAt : file.endAddress ≠ 0x10000 := fun here => short ⟨plain, here⟩
    omega

/-- A byte at 0x10000 is not read back from a file without extended addresses. -/
theorem plain_overflow {back : HexFile} (canonical : Canonical 1 file.blocks)
    (type : file.fileType = .i8hex) (ends : file.endAddress = 0x10000) (positive : 0 < lineLength)
    (short : lineLength < 256) (same : contents back.blocks = contents file.blocks)
    (read : parse ((fileRecords file lineLength).map recordText) = .ok back) : False := by
  have records := hexRecords_fileRecords positive short file
  have spelled := spelled_texts (fileRecords file lineLength)
  obtain ⟨last, final⟩ : ∃ last, file.blocks.getLast? = some last :=
    Option.ne_none_iff_exists'.mp fun none => by
      unfold endAddress at ends
      rw [none] at ends
      cases ends
  have lastEnds : file.endAddress = last.stop - 1 := by
    unfold endAddress
    rw [final]
    rfl
  have inside := List.mem_of_mem_getLast? (Option.mem_def.mpr final)
  have long := HexBlock.start_lt_stop (canonical.filled last inside)
  have written : file.writtenType = .i8hex := by
    unfold writtenType
    rw [if_neg fun above => absurd above.2 (by omega)]
    exact type
  obtain ⟨byte, here⟩ := Option.isSome_iff_exists.mp
    (@HexBlock.isSome_byte last 0x10000 (by omega) (by omega))
  by_cases distinct : Distinct (parsedBytes (fileRecords file lineLength))
  · obtain ⟨other, otherRead, otherCanonical, places⟩ := parse_distinct records spelled distinct
    rw [read] at otherRead
    cases otherRead
    -- The last block is one of those that were read.
    have listed : (last.address, last.data) ∈ contents back.blocks := by
      rw [same]
      exact List.mem_map_of_mem inside
    obtain ⟨block, member, equal⟩ := List.mem_map.mp listed
    obtain ⟨address, data⟩ := Prod.mk.inj equal
    have mine : block.byte 0x10000 = some byte := by
      rw [← here]
      unfold HexBlock.byte HexBlock.start
      rw [address, data]
    have found := (places 0x10000 byte).mp
      ((byteIn_eq_some otherCanonical.apart).mpr ⟨block, member, mine⟩)
    have plain := @blocksRecords_plain lineLength (-1) file.blocks
    rw [← written] at plain
    unfold parsedBytes fileRecords at found
    rw [List.append_assoc] at found
    rcases bytesFrom_plain plain _ found with below | none
    · omega
    · rw [bytesFrom_ending] at none
      cases none
  · rw [parse_clash records spelled distinct] at read
    cases read

/-- A file whose blocks are in order, with gaps between them, is read as it was exactly when it
can be written. -/
theorem roundTrips_iff (positive : 0 < lineLength) (short : lineLength < 256)
    (canonical : Canonical 1 file.blocks) (within : Within file.blocks) :
    RoundTrips lineLength file ↔ Writable file := by
  have records := hexRecords_fileRecords positive short file
  have spelled := spelled_texts (fileRecords file lineLength)
  constructor
  · rintro ⟨lines, back, written, read, blocks, start⟩
    have fits : StartFits file.writtenType file.start := by
      by_contra unfit
      obtain ⟨error, refused⟩ := writeHex_refused short within unfit
      rw [refused] at written
      cases written
    refine ⟨fits, fun ⟨type, ends⟩ => ?_⟩
    rw [writeHex_records short within fits] at written
    cases written
    exact plain_overflow canonical type ends positive short blocks read
  · rintro ⟨fits, ends⟩
    have bytes := parsed_fileRecords positive within (plain_fits canonical ends)
    obtain ⟨back, read, backCanonical, places⟩ := parse_distinct records spelled
      (bytes ▸ distinct_blocks canonical)
    refine ⟨_, back, writeHex_records short within fits, read, ?_, ?_⟩
    · refine contents_unique backCanonical canonical fun place => Option.ext fun byte => ?_
      rw [byteIn_blocks canonical, ← bytes]
      exact places place byte
    · rw [parse_start records spelled read, start_fileRecords positive short fits]
      unfold setStart
      split
      · rename_i removed
        exact absurd (fits _ removed).1.1 (by decide)
      · rfl

end RoundTrip

end HexFile

end QHal.Hex
