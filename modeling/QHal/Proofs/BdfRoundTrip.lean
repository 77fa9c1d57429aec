/-
Module: QHal.Proofs.BdfRoundTrip
Purpose: Converting the text of a board data file and reading the binary back
  into the same template.
Trusted boundary: none
Main exports: readLoop_entries, decode_bytes, RoundTrips
-/
import QHal.Proofs.BdfFields

namespace QHal.Bdf

open Numerals

section Read

/-- The bytes at a place of the binary. -/
def slice (data : List UInt8) (position size : Nat) : List UInt8 :=
  (data.drop position).take size

theorem numericalVal_exact (val : List UInt8) (signVal : Option Char) :
    numericalVal val (val.length * 8) signVal =
      some (if signVal = some 'i' ∧ Bytes.toNat val > 2 ^ (val.length * 8) / 2 then
        (Bytes.toNat val : Int) - 2 ^ (val.length * 8) else Bytes.toNat val) := by
  -- The loop takes the bytes from the last one down.
  have loop : ∀ count ≤ val.length, (List.range count).foldlM (fun numVal b =>
      val[val.length - 1 - b]?.map fun byte => (numVal <<< 8) + byte.toNat) 0 =
        some (Bytes.toNat (val.drop (val.length - count))) := by
    intro count inside
    induction count with
    | zero =>
        rw [Nat.sub_zero, List.drop_length]
        rfl
    | succ count ih =>
        have below : val.length - (count + 1) < val.length := by omega
        have position : val.length - 1 - count = val.length - (count + 1) := by omega
        have next : val.length - (count + 1) + 1 = val.length - count := by omega
        rw [List.range_succ, List.foldlM_append, ih (by omega), Option.bind_eq_bind,
          Option.bind_some, List.foldlM_cons, position, List.getElem?_eq_getElem below,
          List.drop_eq_getElem_cons below, next]
        simp only [List.foldlM_nil, Option.map_some, Option.bind_eq_bind, Option.bind_some,
          Option.pure_def, Bytes.toNat, Nat.shiftLeft_eq]
        congr 1
        omega
  have whole := loop val.length (Nat.le_refl _)
  rw [Nat.sub_self, List.drop_zero] at whole
  rw [numericalVal, Nat.mul_div_cancel _ (by decide)]
  simp only [whole, Option.bind_eq_bind, Option.bind_some, Option.pure_def, Nat.one_shiftLeft]
  split_ifs
  · congr 1
    push_cast
    ring
  · rfl

theorem setValue_columns (type name column : Text) (num : Int) :
    setValue [type, name, column] num = some (newLine type name num) :=
  rfl

/-- The line that is written for a field. -/
def Field.readFrom (field : Field) (bytes : List UInt8) : Text :=
  newLine field.kind.text field.name (field.kind.decode bytes)

theorem bitUnpack_fields {fields : List Field} {byt : Nat} (val : UInt8) (rest : List Text)
    (bits : ∀ field ∈ fields, field.InByte)
    (total : byt + (fields.map Field.width).sum = 8) (unfilled : byt < 8) :
    bitUnpack val.toNat (fields.map Field.line ++ rest) byt =
      some (fields.map fun field => field.readFrom [val], rest) := by
  induction fields generalizing byt with
  | nil =>
      rw [List.map_nil, List.sum_nil] at total
      omega
  | cons field fields ih =>
      obtain ⟨offset, width, kind, positive, small⟩ := bits field List.mem_cons_self
      obtain ⟨column, columns, -⟩ := field.isLine
      have widths : field.width = width := by rw [Field.width, kind]
      have written : newLine field.kind.text field.name
          ((val.toNat &&& (2 ^ (offset + width) - 1)) / 2 ^ offset : Nat) =
            field.readFrom [val] := by
        rw [Field.readFrom, kind, Kind.decode, Bytes.toNat, Bytes.toNat, Nat.mul_zero, Nat.add_zero]
      have position := byteOffset_bits small
      rw [← kind] at position
      rw [List.map_cons, List.sum_cons, widths] at total
      simp only [List.map_cons, List.cons_append, bitUnpack, columns, Option.bind_eq_bind,
        Option.bind_some, List.getElem?_cons_zero, position, setValue_columns, written]
      split_ifs with full
      · have done : fields = [] := by
          cases fields with
          | nil => rfl
          | cons next fields =>
              obtain ⟨start, more, nextKind, nextPositive, -⟩ := bits next (by simp)
              have nextWidth : next.width = more := by rw [Field.width, nextKind]
              rw [List.map_cons, List.sum_cons, nextWidth] at total
              omega
        rw [done]
        rfl
      · rw [ih (fun other listed => bits other (List.mem_cons_of_mem field listed)) (by omega)
          (by omega)]
        rfl

theorem length_slice {data : List UInt8} {position size : Nat}
    (inside : position + size ≤ data.length) : (slice data position size).length = size := by
  rw [slice, List.length_take, List.length_drop]
  omega

/-- An entry takes one round and is read from its bytes. -/
theorem readField_entry {data : List UInt8} (entry : Entry) (rest : List Text) {position : Nat}
    (inside : position + entry.size ≤ data.length) :
    ∃ line others, entry.lines = line :: others ∧
      readField data line (others ++ rest) position =
        some (entry.fields.map fun field => field.readFrom (slice data position entry.size),
          position + entry.size, rest) := by
  have exact := length_slice inside
  cases entry with
  | whole field signed size isInt =>
      refine ⟨field.line, [], rfl, ?_⟩
      obtain ⟨column, columns, -⟩ := field.isLine
      obtain ⟨c, last, notBit⟩ := last_int signed size
      have sized := numBytesTxt_text signed size
      have number := numericalVal_exact (slice data position size.bytes)
        (Kind.text (.int signed size)).head?
      have sign : (Kind.text (.int signed size)).head? = some 'i' ↔ signed = true := by
        cases signed <;> cases size <;> decide
      rw [Entry.size] at exact
      rw [exact] at number
      simp only [sign] at number
      rw [← isInt] at last sized number
      simp only [readField, columns, Option.bind_eq_bind, Option.bind_some,
        List.getElem?_cons_zero, last, notBit, if_false, sized]
      rw [← slice, number, Nat.mul_comm]
      simp only [Option.bind_some, setValue_columns, Entry.fields, List.map_cons, List.map_nil,
        Field.readFrom, isInt, Kind.decode, Entry.size]
      rfl
  | bits fields group =>
      obtain ⟨field, fields, rfl⟩ := List.exists_cons_of_ne_nil group.ne_nil
      refine ⟨field.line, fields.map Field.line, rfl, ?_⟩
      obtain ⟨offset, width, kind, -⟩ := group.bits field List.mem_cons_self
      obtain ⟨column, columns, -⟩ := field.isLine
      obtain ⟨val, single⟩ := List.length_eq_one_iff.mp exact
      have last : (lastChars 2 field.kind.text).head? = some '_' := by
        rw [kind]
        rfl
      have number := numericalVal_exact [val] (some 'u')
      have byte : Bytes.toNat [val] = val.toNat := by
        rw [Bytes.toNat, Bytes.toNat, Nat.mul_zero, Nat.add_zero]
      rw [if_neg (by simp), byte] at number
      have unpacked := bitUnpack_fields val rest group.bits
        (by rw [Nat.zero_add, group.total]) (by decide : 0 < 8)
      rw [List.map_cons, List.cons_append] at unpacked
      have read : (data.drop position).take 1 = [val] := single
      have read_ : slice data position 1 = [val] := single
      simp only [readField, columns, Option.bind_eq_bind, Option.bind_some,
        List.getElem?_cons_zero, last, if_true, read]
      rw [show (8 : Nat) = [val].length * 8 from rfl, number]
      simp only [Option.bind_some, Int.toNat_natCast, unpacked, Entry.size, Entry.fields, read_]
      rfl

/-- The fields of some entries with their places in the binary. -/
def layout : List Entry → Nat → List (Field × Nat)
  | [], _ => []
  | entry :: entries, position =>
      (entry.fields.map fun field => (field, position)) ++ layout entries (position + entry.size)

theorem readLoop_entries {data : List UInt8} {entries : List Entry} {fuel : Nat}
    (enough : entries.length ≤ fuel) {position : Nat}
    (inside : position + totalSize entries ≤ data.length) :
    readLoop data fuel (entries.flatMap Entry.lines) position =
      some ((layout entries position).map fun place =>
        place.1.readFrom (slice data place.2 place.1.kind.size)) := by
  induction entries generalizing fuel position with
  | nil => cases fuel <;> rfl
  | cons entry entries ih =>
      obtain ⟨fuel, rfl⟩ := Nat.exists_eq_succ_of_ne_zero
        (Nat.ne_of_gt (Nat.lt_of_lt_of_le (Nat.succ_pos _) enough))
      rw [totalSize, List.map_cons, List.sum_cons, ← totalSize] at inside
      obtain ⟨line, others, lines, round⟩ := readField_entry entry
        (entries.flatMap Entry.lines) (by omega : position + entry.size ≤ data.length)
      have later := ih (Nat.le_of_succ_le_succ enough)
        (by omega : position + entry.size + totalSize entries ≤ data.length)
      have sized : (entry.fields.map fun field =>
          field.readFrom (slice data position field.kind.size)) =
            entry.fields.map fun field => field.readFrom (slice data position entry.size) :=
        List.map_congr_left fun field listed => by rw [Entry.size_of_mem listed]
      rw [List.flatMap_cons, lines, List.cons_append, readLoop, round, Option.bind_eq_bind,
        Option.bind_some]
      simp only [later, Option.bind_eq_bind, Option.bind_some, layout, List.map_append,
        List.map_map, Function.comp_def, sized]
      rfl

end Read

section Values

theorem testBit_packed (num i : Nat) (fields : List Field) :
    (packed num fields).testBit i =
      (num.testBit i || fields.any fun field => field.placedBits.testBit i) := by
  induction fields generalizing num with
  | nil => rw [List.any_nil, Bool.or_false]; rfl
  | cons field fields ih =>
      have next : packed num (field :: fields) = packed (num ||| field.placedBits) fields := rfl
      rw [next, ih, Nat.testBit_or, List.any_cons, Bool.or_assoc]

/-- The other fields of a group have no part in the bits of a field. -/
theorem packed_field {fields : List Field} (group : Group fields) {field : Field}
    (listed : field ∈ fields) {offset width : Nat} (kind : field.kind = .bits offset width) :
    (packed 0 fields &&& (2 ^ (offset + width) - 1)) / 2 ^ offset = field.value.toNat := by
  have inRange := field.inRange
  rw [kind] at inRange
  have bound : field.value.toNat < 2 ^ width := by
    have below := inRange.2
    zify
    rwa [Int.toNat_of_nonneg inRange.1]
  obtain ⟨before, after, rfl⟩ := List.append_of_mem listed
  obtain ⟨-, later, earlier⟩ := List.pairwise_append.mp group.ascending
  apply Nat.eq_of_testBit_eq
  intro i
  rw [Nat.testBit_div_two_pow, Nat.testBit_and, Nat.testBit_two_pow_sub_one]
  by_cases inside : i < width
  · have mine : field.placedBits.testBit (i + offset) = field.value.toNat.testBit i := by
      rw [Field.placedBits, kind]
      simp only [Nat.testBit_mul_two_pow, Nat.add_sub_cancel]
      simp
    have notBefore : (before.any fun other => other.placedBits.testBit (i + offset)) = false := by
      rw [List.any_eq_false]
      intro other listed
      obtain ⟨start, more, otherKind, -⟩ :=
        group.bits other (List.mem_append_left _ listed)
      have apart := earlier other listed field List.mem_cons_self start more offset width
        otherKind kind
      have small : other.placedBits < 2 ^ (i + offset) :=
        Nat.lt_of_lt_of_le (placedBits_lt otherKind)
          (Nat.pow_le_pow_right (by decide) (by omega))
      rw [Nat.testBit_lt_two_pow small]
      decide
    have notAfter : (after.any fun other => other.placedBits.testBit (i + offset)) = false := by
      rw [List.any_eq_false]
      intro other listed
      obtain ⟨start, more, otherKind, -⟩ :=
        group.bits other (List.mem_append_right _ (List.mem_cons_of_mem _ listed))
      have apart := (List.pairwise_cons.mp later).1 other listed offset width start more
        kind otherKind
      have low : ¬ i + offset ≥ start := by omega
      rw [Field.placedBits, otherKind]
      simp only [Nat.testBit_mul_two_pow, low, decide_false, Bool.false_and]
      decide
    have room : i + offset < offset + width := by omega
    rw [testBit_packed, List.any_append, List.any_cons, notBefore, notAfter, mine,
      Nat.zero_testBit, decide_eq_true room]
    simp
  · have high : ¬ i + offset < offset + width := by omega
    have none_ : field.value.toNat.testBit i = false :=
      Nat.testBit_lt_two_pow (Nat.lt_of_lt_of_le bound
        (Nat.pow_le_pow_right (by decide) (Nat.le_of_not_lt inside)))
    rw [none_, decide_eq_false high, Bool.and_false]

/-- A signed field whose value has no positive counterpart. -/
def Field.AtMinimum (field : Field) : Prop :=
  ∃ size, field.kind = .int true size ∧ field.value = -(256 ^ size.bytes / 2)

theorem two_pow_bytes (size : IntSize) : 2 ^ (8 * size.bytes) = 256 ^ size.bytes := by
  cases size <;> rfl

/-- The bytes of an entry are read as the values of its fields, signed minima
apart. -/
theorem decode_bytes {entry : Entry} {field : Field} (listed : field ∈ entry.fields) :
    field.kind.decode entry.bytes = field.value ↔ ¬ field.AtMinimum := by
  cases entry with
  | whole other signed size isInt =>
      rw [Entry.fields, List.mem_singleton] at listed
      subst listed
      have inRange := field.inRange
      rw [isInt] at inRange
      have even : (256 : Int) ^ size.bytes = 2 * (256 ^ size.bytes / 2) := by
        cases size <;> decide
      have stored : (Bytes.toNat (Entry.whole field signed size isInt).bytes : Int) =
          field.value % 256 ^ size.bytes := by
        have residue : 0 ≤ field.value % 256 ^ size.bytes :=
          Int.emod_nonneg _ (pow_ne_zero _ (by decide))
        have below : field.value % 256 ^ size.bytes < 256 ^ size.bytes :=
          Int.emod_lt_of_pos _ (Int.pow_pos (by decide))
        rw [Entry.bytes, Bytes.toNat_ofNat_of_lt, Int.toNat_of_nonneg residue]
        zify
        rwa [Int.toNat_of_nonneg residue]
      have minimum : field.AtMinimum ↔
          signed = true ∧ field.value = -(256 ^ size.bytes / 2) := by
        constructor
        · rintro ⟨other, isSigned, value⟩
          rw [isInt] at isSigned
          cases isSigned
          exact ⟨rfl, value⟩
        · rintro ⟨rfl, value⟩
          exact ⟨size, isInt, value⟩
      have half : (Bytes.toNat (Entry.whole field signed size isInt).bytes >
          2 ^ (8 * size.bytes) / 2) ↔ field.value % 256 ^ size.bytes > 256 ^ size.bytes / 2 := by
        have cast : ((256 ^ size.bytes / 2 : Nat) : Int) = 256 ^ size.bytes / 2 := by
          cases size <;> rfl
        rw [two_pow_bytes, ← stored, ← cast]
        exact Int.ofNat_lt.symm
      have full : (2 : Int) ^ (8 * size.bytes) = 256 ^ size.bytes := by
        exact_mod_cast two_pow_bytes size
      rw [isInt, Kind.decode]
      simp only [half, stored, full, minimum]
      cases signed with
      | false =>
          rw [if_neg (by simp), Int.emod_eq_of_lt inRange.1 inRange.2]
          simp
      | true =>
          obtain ⟨low, high⟩ := inRange
          have positive : (0 : Int) < 256 ^ size.bytes / 2 := by cases size <;> decide
          clear half full stored
          generalize (256 : Int) ^ size.bytes / 2 = top at *
          rw [even]
          by_cases negative : field.value < 0
          · have wrapped : field.value % (2 * top) = field.value + 2 * top := by
              rw [← Int.add_emod_right, Int.emod_eq_of_lt] <;> omega
            rw [wrapped]
            split_ifs with above
            · simp only [true_and] at above ⊢
              omega
            · simp only [true_and] at above ⊢
              omega
          · rw [Int.emod_eq_of_lt (by omega) (by omega)]
            split_ifs with above
            · simp only [true_and] at above
              omega
            · refine ⟨fun _ least => ?_, fun _ => rfl⟩
              have value := least.2
              omega
  | bits fields group =>
      obtain ⟨offset, width, kind, -⟩ := group.bits field listed
      have inRange := field.inRange
      rw [kind] at inRange
      have byte : Bytes.toNat (Entry.bits fields group).bytes = packed 0 fields := by
        rw [Entry.bytes, Bytes.toNat, Bytes.toNat, Nat.mul_zero, Nat.add_zero, UInt8.toNat_ofNat',
          Nat.mod_eq_of_lt group.packed_lt]
      have noMinimum : ¬ field.AtMinimum := by
        rintro ⟨size, isSigned, -⟩
        rw [kind] at isSigned
        cases isSigned
      rw [kind, Kind.decode]
      simp only [byte, packed_field group listed kind, noMinimum, not_false_eq_true, iff_true]
      exact Int.toNat_of_nonneg inRange.1

/-- No bytes are read as the minimum of a signed type. -/
theorem decode_ne_minimum {field : Field} (minimum : field.AtMinimum) (bytes : List UInt8) :
    field.kind.decode bytes ≠ field.value := by
  obtain ⟨size, kind, value⟩ := minimum
  have even : (256 : Int) ^ size.bytes = 2 * (256 ^ size.bytes / 2) := by
    cases size <;> decide
  have positive : (0 : Int) < 256 ^ size.bytes := Int.pow_pos (by decide)
  have full : (2 : Int) ^ (8 * size.bytes) = 256 ^ size.bytes := by
    exact_mod_cast two_pow_bytes size
  rw [kind, Kind.decode, value, full, two_pow_bytes]
  split_ifs with above
  · have beyond : (Bytes.toNat bytes : Int) > 256 ^ size.bytes / 2 := by
      exact_mod_cast above.2
    omega
  · omega

end Values

section Places

theorem mem_layout {entries : List Entry} {position : Nat} {place : Field × Nat}
    (listed : place ∈ layout entries position) :
    ∃ (before : List Entry) (entry : Entry) (after : List Entry),
      entries = before ++ entry :: after ∧ place.1 ∈ entry.fields ∧
      place.2 = position + totalSize before := by
  induction entries generalizing position with
  | nil => exact absurd listed List.not_mem_nil
  | cons entry entries ih =>
      rcases List.mem_append.mp listed with here | later
      · obtain ⟨field, inside, rfl⟩ := List.mem_map.mp here
        exact ⟨[], entry, entries, rfl, inside, rfl⟩
      · obtain ⟨before, found, after, rfl, inside, start⟩ := ih later
        refine ⟨entry :: before, found, after, rfl, inside, ?_⟩
        rw [start, totalSize, totalSize, List.map_cons, List.sum_cons, Nat.add_assoc]

theorem slice_entry (before : List Entry) (entry : Entry) (after : List Entry) :
    slice ((before ++ entry :: after).flatMap Entry.bytes) (totalSize before) entry.size =
      entry.bytes := by
  rw [slice, List.flatMap_append, List.flatMap_cons, ← length_flatMap_bytes, List.drop_left,
    ← entry.length_bytes, List.take_left]

theorem fst_layout (entries : List Entry) (position : Nat) :
    (layout entries position).map Prod.fst = fieldsOf entries := by
  induction entries generalizing position with
  | nil => rfl
  | cons entry entries ih =>
      rw [layout, List.map_append, ih, List.map_map]
      have same : (entry.fields.map (Prod.fst ∘ fun field => (field, position))) = entry.fields :=
        List.map_id _
      rw [same]
      rfl

/-- Bytes that were not written are kept. -/
theorem slice_writeAt {file bytes : List UInt8} {position start size : Nat}
    (inside : start + size ≤ file.length)
    (apart : start + size ≤ position ∨ position + bytes.length ≤ start) :
    slice (writeAt file position bytes) start size = slice file start size := by
  apply List.ext_getElem?
  intro i
  rw [slice, slice, List.getElem?_take, List.getElem?_take]
  split_ifs with below
  · rw [List.getElem?_drop, List.getElem?_drop, getElem?_writeAt]
    split_ifs with early middle
    · rw [List.getElem?_append_left (by omega)]
    · omega
    · rfl
  · rfl

end Places

section Safe

/-- The bytes behind the place counted for the checksum belong to no other
field. -/
def PatchSafe (entries : List Entry) : Prop :=
  ∀ position, checksumAt (fieldsOf entries) 0 = some position →
    ∀ place ∈ (layout entries 0).eraseP fun place => place.1.named,
      place.2 + place.1.kind.size ≤ position ∨ position + 2 ≤ place.2

/-- No signed field but the checksum has the minimum of its type. -/
def NoMinimum (entries : List Entry) : Prop :=
  ∀ field ∈ (fieldsOf entries).eraseP Field.named, ¬ field.AtMinimum

/-- The number of lines before the fields. -/
def Template.headers (template : Template) : Nat :=
  if template.txtLines.head?.any hasHashes then 1 else 0

/-- The conversion and the reading succeed, and every field but the checksum
has its value in the new text. -/
def RoundTrips (template : Template) : Prop :=
  ∃ binary out, (txt2bin template.txtLines freshGlobals).2 = some binary ∧
    bin2txt binary template.txtLines = some out ∧ out.length = template.txtLines.length ∧
    ∀ pair ∈ ((fieldsOf template.entries).zip (out.drop template.headers)).eraseP
        fun pair => pair.1.named,
      IsLine pair.1.kind.text pair.1.name pair.1.value pair.2

/-- The globals after a conversion in a fresh process, before the checksum is
complemented. -/
def fedGlobals (entries : List Entry) : Globals := entries.foldl Entry.step freshGlobals

/-- The binary of a conversion in a fresh process. -/
def binaryOf (entries : List Entry) : List UInt8 :=
  match checksumAt (fieldsOf entries) 0 with
  | none => entries.flatMap Entry.bytes
  | some position => writeAt (entries.flatMap Entry.bytes) position
      (Bytes.ofNat 2 (65535 ^^^ (fedGlobals entries).checkSum))

theorem txt2bin_fresh (template : Template) :
    (txt2bin template.txtLines freshGlobals).2 = some (binaryOf template.entries) := by
  have converted := txt2bin_entries template.notEmpty template.lines freshGlobals
  have packed := pack_checkSum (foldl_step_sound fresh_sound template.entries)
  have same : ({ freshGlobals with checkSum := 0 } : Globals) = freshGlobals := rfl
  rw [converted, same, packed, binaryOf, fedGlobals]
  cases checksumAt (fieldsOf template.entries) 0 <;> rfl

theorem length_binaryOf (entries : List Entry) : totalSize entries ≤ (binaryOf entries).length := by
  rw [binaryOf, ← length_flatMap_bytes]
  cases checksumAt (fieldsOf entries) 0 with
  | none => exact Nat.le_refl _
  | some position => exact length_writeAt _ _ _

theorem bin2txt_entries (template : Template) {data : List UInt8}
    (inside : totalSize template.entries ≤ data.length) :
    ∃ out, bin2txt data template.txtLines = some out ∧
      out.length = template.txtLines.length ∧
      out.drop template.headers = (layout template.entries 0).map fun place =>
        place.1.readFrom (slice data place.2 place.1.kind.size) ++ [' ', '\n'] := by
  obtain ⟨first, others, txtLines⟩ := List.exists_cons_of_ne_nil template.notEmpty
  have read := readLoop_entries (length_le_lines template.entries)
    (by omega : 0 + totalSize template.entries ≤ data.length)
  have count : (layout template.entries 0).length = (fieldLines template.txtLines).length := by
    rw [template.lines, lines_eq, List.length_map, ← fst_layout template.entries 0, List.length_map]
  rw [← template.lines] at read
  have lines := read
  rw [bin2txt, txtLines, List.head?_cons, Option.bind_eq_bind, Option.bind_some, ← txtLines, read]
  refine ⟨_, rfl, ?_, ?_⟩
  · rw [List.length_map, List.length_append, List.length_map, count, fieldLines, txtLines,
      List.head?_cons, Option.any_some]
    split_ifs
    · rw [List.length_cons, List.tail_cons, List.length_nil, List.length_cons, Nat.zero_add,
        Nat.add_comm]
    · rw [List.length_nil, Nat.zero_add]
  · rw [Template.headers, txtLines, List.head?_cons, Option.any_some, List.map_append]
    split_ifs
    · rw [List.map_cons, List.map_nil, List.singleton_append, List.drop_one, List.tail_cons,
        List.map_map]
      rfl
    · rw [List.map_nil, List.nil_append, List.drop_zero, List.map_map]
      rfl

/-- A template is read back if every other field is decoded from its place. -/
theorem roundTrips_iff (template : Template) :
    RoundTrips template ↔
      ∀ place ∈ (layout template.entries 0).eraseP fun place => place.1.named,
        place.1.kind.decode (slice (binaryOf template.entries) place.2 place.1.kind.size) =
          place.1.value := by
  obtain ⟨out, written, size, lines⟩ :=
    bin2txt_entries template (length_binaryOf template.entries)
  have pairs : ((fieldsOf template.entries).zip (out.drop template.headers)).eraseP
      (fun pair => pair.1.named) =
        ((layout template.entries 0).eraseP fun place => place.1.named).map fun place =>
          (place.1, place.1.readFrom
            (slice (binaryOf template.entries) place.2 place.1.kind.size) ++ [' ', '\n']) := by
    rw [lines, ← fst_layout template.entries 0, List.zip_map', List.eraseP_map]
    rfl
  have isLine : ∀ (field : Field) (bytes : List UInt8),
      IsLine field.kind.text field.name field.value (field.readFrom bytes ++ [' ', '\n']) ↔
        field.kind.decode bytes = field.value := by
    intro field bytes
    have read := isLine_newLine field.kind field.oneColumn (field.kind.decode bytes)
      (List.all_eq_true.mp rfl : ∀ c ∈ [' ', '\n'], isSpace c = true)
    constructor
    · intro same
      have value := lineValue_of_isLine same
      rw [Field.readFrom, lineValue_of_isLine read] at value
      exact Option.some.inj value
    · intro same
      rw [Field.readFrom]
      rwa [same] at read ⊢
  constructor
  · rintro ⟨binary, again, converted, rewritten, -, values⟩ place listed
    rw [txt2bin_fresh] at converted
    obtain rfl := Option.some.inj converted
    rw [written] at rewritten
    obtain rfl := Option.some.inj rewritten
    rw [pairs] at values
    exact (isLine _ _).mp (values _ (List.mem_map_of_mem listed))
  · intro values
    refine ⟨_, out, txt2bin_fresh template, written, size, ?_⟩
    rw [pairs]
    intro pair listed
    obtain ⟨place, inside, rfl⟩ := List.mem_map.mp listed
    exact (isLine _ _).mpr (values place inside)

theorem fields_layout (entries : List Entry) :
    (fieldsOf entries).eraseP Field.named =
      ((layout entries 0).eraseP fun place => place.1.named).map Prod.fst := by
  rw [← fst_layout entries 0, List.eraseP_map]
  rfl

/-- A patch beside the other fields changes none of their bytes. -/
theorem slice_binaryOf {entries : List Entry} (safe : PatchSafe entries) {place : Field × Nat}
    (listed : place ∈ (layout entries 0).eraseP fun place => place.1.named) :
    ∃ entry : Entry, place.1 ∈ entry.fields ∧
      slice (binaryOf entries) place.2 place.1.kind.size = entry.bytes := by
  obtain ⟨before, entry, after, parts, inside, start⟩ := mem_layout (List.mem_of_mem_eraseP listed)
  have size := Entry.size_of_mem inside
  have plain : slice (entries.flatMap Entry.bytes) place.2 place.1.kind.size = entry.bytes := by
    rw [size, start, Nat.zero_add, parts, slice_entry]
  have room : place.2 + place.1.kind.size ≤ (entries.flatMap Entry.bytes).length := by
    rw [length_flatMap_bytes, size, start, parts, totalSize_append]
    omega
  refine ⟨entry, inside, ?_⟩
  rw [binaryOf]
  cases patch : checksumAt (fieldsOf entries) 0 with
  | none => exact plain
  | some position =>
      have apart := safe position patch place listed
      rw [slice_writeAt room, plain]
      rwa [Bytes.length_ofNat]

theorem roundTrips_of_safe {template : Template} (safe : PatchSafe template.entries) :
    RoundTrips template ↔ NoMinimum template.entries := by
  rw [roundTrips_iff, NoMinimum, fields_layout]
  constructor
  · intro values field listed
    obtain ⟨place, inside, rfl⟩ := List.mem_map.mp listed
    obtain ⟨entry, ofEntry, bytes⟩ := slice_binaryOf safe inside
    have value := values place inside
    rw [bytes] at value
    exact (decode_bytes ofEntry).mp value
  · intro large place listed
    obtain ⟨entry, ofEntry, bytes⟩ := slice_binaryOf safe listed
    rw [bytes]
    exact (decode_bytes ofEntry).mpr (large place.1 (List.mem_map_of_mem listed))

theorem noMinimum_of_roundTrips {template : Template} (values : RoundTrips template) :
    NoMinimum template.entries := by
  rw [roundTrips_iff] at values
  rw [NoMinimum, fields_layout]
  intro field listed minimum
  obtain ⟨place, inside, rfl⟩ := List.mem_map.mp listed
  exact decode_ne_minimum minimum _ (values place inside)

end Safe

section Unsafe

theorem layout_zero (entries : List Entry) (position : Nat) :
    layout (entries.map Entry.zero) position =
      (layout entries position).map fun place => (place.1.zero, place.2) := by
  induction entries generalizing position with
  | nil => rfl
  | cons entry entries ih =>
      rw [List.map_cons, layout, layout, entry.size_zero, ih, entry.fields_zero, List.map_append,
        List.map_map, List.map_map]
      rfl

theorem toNat_ne_zero {bytes : List UInt8} (full : 255 ∈ bytes) : Bytes.toNat bytes ≠ 0 := by
  induction bytes with
  | nil => exact absurd full List.not_mem_nil
  | cons byte bytes ih =>
      rw [Bytes.toNat]
      rcases List.mem_cons.mp full with rfl | later
      · have value : (255 : UInt8).toNat = 255 := rfl
        omega
      · have rest := ih later
        omega

/-- A byte with all its bits leaves no field at zero. -/
theorem decode_ne_zero {entry : Entry} {field : Field} (listed : field ∈ entry.fields)
    {bytes : List UInt8} (exact_ : bytes.length = entry.size) (full : 255 ∈ bytes) :
    field.kind.decode bytes ≠ 0 := by
  have some_ := toNat_ne_zero full
  cases entry with
  | whole other signed size isInt =>
      rw [Entry.fields, List.mem_singleton] at listed
      subst listed
      have below := Bytes.toNat_lt bytes
      rw [exact_, Entry.size, ← two_pow_bytes] at below
      have bound : (Bytes.toNat bytes : Int) < 2 ^ (8 * size.bytes) := by exact_mod_cast below
      rw [isInt, Kind.decode]
      split_ifs <;> omega
  | bits fields group =>
      obtain ⟨offset, width, kind, positive, small⟩ := group.bits field listed
      obtain ⟨byte, rfl⟩ := List.length_eq_one_iff.mp exact_
      rw [List.mem_singleton] at full
      have all : ∀ offset < 9, ∀ width < 9, 0 < width → offset + width ≤ 8 →
          (255 &&& (2 ^ (offset + width) - 1)) / 2 ^ offset ≠ 0 := by decide
      have value : Bytes.toNat [byte] = 255 := by
        rw [← full]
        rfl
      rw [kind, Kind.decode, value]
      exact_mod_cast all offset (by omega) width (by omega) positive small

/-- Zeros make the checksum all ones, and another field in its place is
changed. -/
theorem not_roundTrips_zero {entries : List Entry} {position : Nat}
    (patch : checksumAt (fieldsOf entries) 0 = some position) {place : Field × Nat}
    (listed : place ∈ (layout entries 0).eraseP fun place => place.1.named)
    (touched : ¬ (place.2 + place.1.kind.size ≤ position ∨ position + 2 ≤ place.2)) :
    ¬ RoundTrips (Template.ofEntries (entries.map Entry.zero)) := by
  intro values
  rw [roundTrips_iff] at values
  have refilled : (place.1.zero, place.2) ∈
      (layout (entries.map Entry.zero) 0).eraseP fun place => place.1.named := by
    rw [layout_zero, List.eraseP_map]
    exact List.mem_map_of_mem listed
  have value := values _ refilled
  obtain ⟨before, entry, after, parts, inside, start⟩ := mem_layout (List.mem_of_mem_eraseP listed)
  have size := Entry.size_of_mem inside
  have quiet := (foldl_step_zero fresh_sound (.inl rfl) entries).2
  have binary : binaryOf (entries.map Entry.zero) =
      writeAt ((entries.map Entry.zero).flatMap Entry.bytes) position [255, 255] := by
    rw [binaryOf, fieldsOf_zero, checksumAt_zero, patch, fedGlobals, quiet]
    rfl
  have room : place.2 + place.1.kind.size ≤ (binaryOf (entries.map Entry.zero)).length := by
    have total := length_binaryOf (entries.map Entry.zero)
    have same : totalSize (entries.map Entry.zero) = totalSize entries := by
      rw [totalSize, List.map_map, totalSize]
      exact congrArg List.sum (List.map_congr_left fun entry _ => entry.size_zero)
    have whole : totalSize entries = totalSize before + entry.size + totalSize after := by
      rw [parts, totalSize_append]
    omega
  have full : (255 : UInt8) ∈
      slice (binaryOf (entries.map Entry.zero)) place.2 place.1.kind.size := by
    have nonempty := entry.size_pos
    have two : ([255, 255] : List UInt8).length = 2 := rfl
    apply List.mem_of_getElem? (i := max place.2 position - place.2)
    have index : place.2 + (max place.2 position - place.2) = max place.2 position := by omega
    rw [slice, List.getElem?_take, if_pos (by omega), List.getElem?_drop, index, binary,
      getElem?_writeAt, if_neg (by omega), if_pos (by rw [two]; omega)]
    rcases (by omega : max place.2 position - position = 0 ∨
      max place.2 position - position = 1) with first | second
    · rw [first]
      rfl
    · rw [second]
      rfl
  have zeroed : place.1.zero ∈ entry.zero.fields := by
    rw [entry.fields_zero]
    exact List.mem_map_of_mem inside
  exact decode_ne_zero zeroed (by rw [length_slice room, size, entry.size_zero]) full value

theorem noMinimum_zero (entries : List Entry) : NoMinimum (entries.map Entry.zero) := by
  intro field listed minimum
  rw [fieldsOf_zero] at listed
  obtain ⟨other, -, rfl⟩ := List.mem_map.mp (List.mem_of_mem_eraseP listed)
  obtain ⟨size, -, value⟩ := minimum
  have zero : (0 : Int) = -(256 ^ size.bytes / 2) := value
  revert zero
  cases size <;> decide

/-- What the scripts know of a field without its value. -/
def Field.form (field : Field) : Kind × Text := (field.kind, field.name)

theorem layout_of_shape {entries others : List Entry}
    (same : entries.map Entry.shape = others.map Entry.shape) (position : Nat) :
    (layout entries position).map (Prod.map Field.form id) =
      (layout others position).map (Prod.map Field.form id) := by
  induction entries generalizing others position with
  | nil => rw [List.map_eq_nil_iff.mp same.symm]
  | cons entry entries ih =>
      cases others with
      | nil => cases same
      | cons other others =>
          rw [List.map_cons, List.map_cons, List.cons.injEq] at same
          have fields : ∀ entry : Entry,
              (entry.fields.map fun field => (field, position)).map (Prod.map Field.form id) =
                entry.shape.map fun form => (form, position) := by
            intro entry
            rw [Entry.shape, List.map_map, List.map_map]
            rfl
          rw [layout, layout, List.map_append, List.map_append, fields, fields, same.1,
            size_of_shape same.1, ih same.2]

theorem checksumAt_of_form {fields others : List Field}
    (same : fields.map Field.form = others.map Field.form) (position : Nat) :
    checksumAt fields position = checksumAt others position := by
  induction fields generalizing others position with
  | nil => rw [List.map_eq_nil_iff.mp same.symm]
  | cons field fields ih =>
      cases others with
      | nil => cases same
      | cons other others =>
          rw [List.map_cons, List.map_cons, List.cons.injEq] at same
          obtain ⟨kind, name⟩ := Prod.mk.inj same.1
          rw [checksumAt, checksumAt, Field.named, Field.named, kind, name, ih same.2]

/-- Whether the patch is safe is a matter of the template alone. -/
theorem PatchSafe.of_shape {entries others : List Entry} (safe : PatchSafe entries)
    (same : entries.map Entry.shape = others.map Entry.shape) : PatchSafe others := by
  have places := layout_of_shape same 0
  have forms : (fieldsOf entries).map Field.form = (fieldsOf others).map Field.form := by
    have firsts := congrArg (List.map Prod.fst) places
    rw [List.map_map, List.map_map] at firsts
    rw [← fst_layout entries 0, ← fst_layout others 0, List.map_map, List.map_map]
    exact firsts
  intro position patch place listed
  rw [← checksumAt_of_form forms] at patch
  have erased : ∀ entries : List Entry,
      ((layout entries 0).eraseP fun place => place.1.named).map (Prod.map Field.form id) =
        ((layout entries 0).map (Prod.map Field.form id)).eraseP fun form =>
          lastChars 8 form.1.2 = "checksum".toList := by
    intro entries
    rw [List.eraseP_map]
    rfl
  have form : Prod.map Field.form id place ∈
      ((layout entries 0).eraseP fun place => place.1.named).map (Prod.map Field.form id) := by
    rw [erased, places, ← erased]
    exact List.mem_map_of_mem listed
  obtain ⟨place', listed', equal⟩ := List.mem_map.mp form
  have apart := safe position patch place' listed'
  obtain ⟨fieldForm, start⟩ := Prod.mk.inj equal
  have kind : place'.1.kind = place.1.kind := congrArg Prod.fst fieldForm
  have start_ : place'.2 = place.2 := start
  rwa [kind, start_] at apart

/-- All assignments without signed minima are read back exactly if the place
counted for the checksum holds no other field, and no assignment with a signed
minimum is read back. -/
theorem bin2txt_txt2bin_iff (template : Template) :
    ((∀ other : Template, template.SameShape other → NoMinimum other.entries →
        RoundTrips other) ↔ PatchSafe template.entries) ∧
      (RoundTrips template → NoMinimum template.entries) := by
  refine ⟨⟨?_, ?_⟩, noMinimum_of_roundTrips⟩
  · intro all position patch place listed
    by_contra touched
    have same : template.SameShape (Template.ofEntries (template.entries.map Entry.zero)) := by
      rw [Template.SameShape, Template.ofEntries, List.map_map]
      exact List.map_congr_left fun entry _ => entry.shape_zero.symm
    exact not_roundTrips_zero patch listed touched (all _ same (noMinimum_zero template.entries))
  · intro safe other same large
    exact (roundTrips_of_safe (safe.of_shape same)).mpr large

/-- One byte with the least value of its type. -/
def leastTemplate : Template :=
  Template.ofEntries [.whole
    { kind := .int true .one
      name := "level".toList
      value := -128
      line := "int8\tlevel\t-128".toList
      isLine := ⟨"-128".toList, by decide, by decide⟩
      inRange := by decide } true .one rfl]

/-- The least value comes back with the other sign. -/
theorem bin2txt_txt2bin_loses_sign :
    leastTemplate.txtLines = ["#######".toList, "int8\tlevel\t-128".toList] ∧
      (txt2bin leastTemplate.txtLines freshGlobals).2 = some [0x80] ∧
      bin2txt [0x80] leastTemplate.txtLines =
        some ["####### \n".toList, "int8\tlevel\t 128 \n".toList] ∧
      ¬ ∀ template, RoundTrips template := by
  have converted : (txt2bin leastTemplate.txtLines freshGlobals).2 = some [0x80] := by decide
  have written : bin2txt [0x80] leastTemplate.txtLines =
      some ["####### \n".toList, "int8\tlevel\t 128 \n".toList] := by decide
  refine ⟨rfl, converted, written, fun all => ?_⟩
  obtain ⟨binary, out, again, rewritten, -, values⟩ := all leastTemplate
  rw [converted] at again
  obtain rfl := Option.some.inj again
  rw [written] at rewritten
  obtain rfl := Option.some.inj rewritten
  obtain ⟨field, fields⟩ : ∃ field, fieldsOf leastTemplate.entries = [field] ∧
      field.value = -128 ∧ field.named = false := ⟨_, rfl, rfl, by decide⟩
  have read := values (field, "int8\tlevel\t 128 \n".toList) (by
    rw [fields.1]
    have drop : Template.headers leastTemplate = 1 := by decide
    rw [drop]
    simp [fields.2.2])
  have value := lineValue_of_isLine read
  rw [fields.2.1] at value
  dsimp only at value
  revert value
  decide

end Unsafe

end QHal.Bdf
