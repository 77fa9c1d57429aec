/-
Module: QHal.Proofs.BdfFields
Purpose: The fields of a board data file, the bytes they are converted to and
  the lines they are read back into.
Trusted boundary: none
Main exports: Kind, Field, Entry, convertLoop_entries, readLoop_entries
-/
import QHal.Bdf.Bin2Txt

namespace QHal.Bdf

open Numerals

section Kinds

inductive IntSize where
  | one
  | two
  | four
  | eight
deriving Repr, DecidableEq

def IntSize.bytes : IntSize → Nat
  | .one => 1
  | .two => 2
  | .four => 4
  | .eight => 8

def IntSize.text : IntSize → Text
  | .one => ['8']
  | .two => ['1', '6']
  | .four => ['3', '2']
  | .eight => ['6', '4']

/-- What a line of a template holds. -/
inductive Kind where
  | int (signed : Bool) (size : IntSize)
  | bits (offset width : Nat)
deriving Repr, DecidableEq

namespace Kind

/-- The type column. -/
def text : Kind → Text
  | .int signed size => (if signed then [] else ['u']) ++ ['i', 'n', 't'] ++ size.text
  | .bits offset width => ['b', 'i', 't', 's', offset.digitChar, '_', width.digitChar]

/-- The bytes that the field has a part in. -/
def size : Kind → Nat
  | .int _ size => size.bytes
  | .bits _ _ => 1

def InRange : Kind → Int → Prop
  | .int true size, value => -(256 ^ size.bytes / 2) ≤ value ∧ value < 256 ^ size.bytes / 2
  | .int false size, value => 0 ≤ value ∧ value < 256 ^ size.bytes
  | .bits _ width, value => 0 ≤ value ∧ value < 2 ^ width

instance (kind : Kind) (value : Int) : Decidable (kind.InRange value) :=
  match kind with
  | .int true size =>
      inferInstanceAs (Decidable (-(256 ^ size.bytes / 2) ≤ value ∧ value < 256 ^ size.bytes / 2))
  | .int false size => inferInstanceAs (Decidable (0 ≤ value ∧ value < 256 ^ size.bytes))
  | .bits _ width => inferInstanceAs (Decidable (0 ≤ value ∧ value < 2 ^ width))

/-- The number that the bytes of a field are read as. -/
def decode (kind : Kind) (bytes : List UInt8) : Int :=
  match kind with
  | .int signed size =>
      if signed = true ∧ Bytes.toNat bytes > 2 ^ (8 * size.bytes) / 2 then
        (Bytes.toNat bytes : Int) - 2 ^ (8 * size.bytes)
      else Bytes.toNat bytes
  | .bits offset width =>
      ((Bytes.toNat bytes &&& (2 ^ (offset + width) - 1)) / 2 ^ offset : Nat)

end Kind

/-- A line with its columns and the number in it. -/
def IsLine (type name : Text) (value : Int) (line : Text) : Prop :=
  ∃ column, lineSet line = [type, name, column] ∧
    (valueText column).bind parseNumber = some value

/-- A line of a template with a value in its range. -/
structure Field where
  kind : Kind
  name : Text
  value : Int
  line : Text
  isLine : IsLine kind.text name value line
  inRange : kind.InRange value

/-- The width of a bit field. -/
def Field.width (field : Field) : Nat :=
  match field.kind with
  | .bits _ width => width
  | .int _ _ => 0

/-- The bits of a field at their offset. -/
def Field.placedBits (field : Field) : Nat :=
  match field.kind with
  | .bits offset _ => field.value.toNat * 2 ^ offset
  | .int _ _ => 0

/-- A field of some bits of a byte. -/
def Field.InByte (field : Field) : Prop :=
  ∃ offset width, field.kind = .bits offset width ∧ 0 < width ∧ offset + width ≤ 8

/-- Bit fields that make up a byte. -/
structure Group (fields : List Field) : Prop where
  bits : ∀ field ∈ fields, field.InByte
  ascending : fields.Pairwise fun field other => ∀ offset width start stop,
    field.kind = .bits offset width → other.kind = .bits start stop → offset + width ≤ start
  total : (fields.map Field.width).sum = 8

/-- A whole field or a group of bit fields. -/
inductive Entry where
  | whole (field : Field) (signed : Bool) (size : IntSize) (isInt : field.kind = .int signed size)
  | bits (fields : List Field) (group : Group fields)

def Entry.fields : Entry → List Field
  | .whole field _ _ _ => [field]
  | .bits fields _ => fields

/-- The byte of some bit fields, over the bits that it has already. -/
def packed (num : Nat) (fields : List Field) : Nat :=
  fields.foldl (fun num field => num ||| field.placedBits) num

/-- The bytes of an entry. -/
def Entry.bytes : Entry → List UInt8
  | .whole field _ size _ =>
      Bytes.ofNat size.bytes (field.value % 256 ^ size.bytes).toNat
  | .bits fields _ => [UInt8.ofNat (packed 0 fields)]

end Kinds

section Lines

theorem not_mem_of_mem_splitOn {sep : Char} {text column : Text}
    (listed : column ∈ text.splitOn sep) : sep ∉ column := by
  induction text generalizing column with
  | nil =>
      rw [List.splitOn_nil, List.mem_singleton] at listed
      rw [listed]
      exact List.not_mem_nil
  | cons c text ih =>
      rw [List.splitOn_cons_eq_if_modifyHead] at listed
      split_ifs at listed with same
      · rcases List.mem_cons.mp listed with rfl | later
        · exact List.not_mem_nil
        · exact ih later
      · cases split : text.splitOn sep with
        | nil => exact absurd split (List.splitOn_ne_nil sep text)
        | cons first others =>
            rw [split, List.modifyHead_cons] at listed
            rcases List.mem_cons.mp listed with rfl | later
            · intro inside
              rcases List.mem_cons.mp inside with rfl | inside
              · simp at same
              · exact ih (split ▸ List.mem_cons_self) inside
            · exact ih (split ▸ List.mem_cons_of_mem first later)

/-- A text between solid characters keeps all of it. -/
theorem strip_of_ends {text : Text} (first : Char) {last : Char} (rest : Text)
    (begins : isSpace first = false) (ends : isSpace last = false)
    (isText : text = first :: rest) (isLast : text.getLast? = some last) (blanks : Text)
    (blank : ∀ c ∈ blanks, isSpace c = true) : strip (text ++ blanks) = text := by
  have front : (text ++ blanks).dropWhile isSpace = text ++ blanks := by
    rw [isText, List.cons_append, List.dropWhile_cons, begins]
    rfl
  rw [strip, front, List.rdropWhile, List.reverse_append, List.dropWhile_append_of_pos]
  · rw [← List.rdropWhile, List.rdropWhile_eq_self_iff]
    intro notEmpty
    have same : text.getLast notEmpty = last := by
      rw [List.getLast?_eq_some_getLast notEmpty] at isLast
      exact Option.some.inj isLast
    rw [same, ends]
    decide
  · intro c listed
    exact blank c (List.mem_reverse.mp listed)

/-- The line of a field with some value, as it is written. -/
def newLine (type name : Text) (value : Int) : Text :=
  ['\t'].intercalate [type, name, valueColumn value]

theorem newLine_eq (type name : Text) (value : Int) :
    newLine type name value = type ++ '\t' :: (name ++ '\t' :: valueColumn value) := by
  simp [newLine, List.intercalate]

theorem mem_decimal {value : Int} {c : Char} (listed : c ∈ decimal value) :
    c = '-' ∨ ∃ digit < 10, c = digit.digitChar := by
  cases value with
  | ofNat value => exact .inr (mem_toDigits (by decide) listed)
  | negSucc value =>
      rcases List.mem_cons.mp listed with minus | digit
      · exact .inl minus
      · exact .inr (mem_toDigits (by decide) digit)

theorem decimal_plain {value : Int} {c : Char} (listed : c ∈ decimal value) :
    isSpace c = false ∧ c ≠ 'x' := by
  have digits : ∀ digit < 10, isSpace digit.digitChar = false ∧ digit.digitChar ≠ 'x' := by decide
  rcases mem_decimal listed with rfl | ⟨digit, inside, rfl⟩
  · decide
  · exact digits digit inside

theorem decimal_ne_nil (value : Int) : decimal value ≠ [] := by
  cases value with
  | ofNat value => exact Nat.toDigits_ne_nil
  | negSucc value => exact List.cons_ne_nil _ _

theorem hasHexPrefix_of_no_x {text : Text} (plain : 'x' ∉ text) : hasHexPrefix text = false := by
  induction text with
  | nil => rfl
  | cons c text ih =>
      have rest := ih fun listed => plain (List.mem_cons_of_mem c listed)
      rw [hasHexPrefix.eq_def]
      split
      · next later => exact absurd (by simp_all) plain
      · next same => rwa [← (List.cons.inj same).2]
      · next same => cases same

theorem parseNumber_decimal (value : Int) : parseNumber (decimal value) = some value := by
  have noHex := hasHexPrefix_of_no_x fun listed : 'x' ∈ decimal value =>
    (decimal_plain listed).2 rfl
  rw [parseNumber, noHex, if_neg (by decide), readInt_decimal (.inr rfl)]

theorem valueText_valueColumn (value : Int) :
    (valueText (valueColumn value)).bind parseNumber = some value := by
  have noBlank : ' ' ∉ decimal value := fun listed => by
    have plain := (decimal_plain listed).1
    revert plain
    decide
  rw [valueColumn]
  split_ifs with natural
  · have split : (' ' :: decimal value).splitOn ' ' = [[], decimal value] := by
      rw [List.splitOn_cons_eq_if_modifyHead, if_pos (by decide), List.splitOn_eq_singleton noBlank]
    rw [valueText, split]
    exact parseNumber_decimal value
  · obtain ⟨c, rest, begins⟩ : ∃ c rest, decimal value = c :: rest :=
      List.exists_cons_of_ne_nil (decimal_ne_nil value)
    have other : c ≠ ' ' := by
      rintro rfl
      exact noBlank (begins ▸ List.mem_cons_self)
    have whole : valueText (decimal value) = some (decimal value) := by
      rw [begins]
      unfold valueText
      split
      · next same => cases same
      · next same => exact absurd (List.cons.inj same).1 other
      · rfl
    rw [whole, Option.bind_some, parseNumber_decimal]

theorem digitChar_solid (digit : Nat) : isSpace digit.digitChar = false := by
  by_cases small : digit < 16
  · exact solid_digitChar small
  · have other : digit.digitChar = '*' := by
      unfold Nat.digitChar
      repeat rw [if_neg (by omega)]
    rw [other]
    rfl

theorem kind_text_solid (kind : Kind) : ∀ c ∈ kind.text, isSpace c = false := by
  intro c listed
  cases kind with
  | int signed size =>
      have plain : ∀ signed size, (Kind.text (.int signed size)).all fun c => !isSpace c := by
        intro signed size
        cases signed <;> cases size <;> rfl
      exact (Bool.not_eq_true' _).mp (List.all_eq_true.mp (plain signed size) c listed)
  | bits offset width =>
      simp only [Kind.text, List.mem_cons, List.not_mem_nil, or_false] at listed
      rcases listed with rfl | rfl | rfl | rfl | rfl | rfl | rfl
      · rfl
      · rfl
      · rfl
      · rfl
      · exact digitChar_solid offset
      · rfl
      · exact digitChar_solid width

/-- A line that was written is read as its field, with or without its end. -/
theorem isLine_newLine (kind : Kind) {name : Text} (oneColumn : '\t' ∉ name) (value : Int)
    {blanks : Text} (blank : ∀ c ∈ blanks, isSpace c = true) :
    IsLine kind.text name value (newLine kind.text name value ++ blanks) := by
  obtain ⟨first, rest, begins⟩ : ∃ first rest, kind.text = first :: rest := by
    cases kind with
    | int signed size => cases signed <;> exact ⟨_, _, rfl⟩
    | bits offset width => exact ⟨_, _, rfl⟩
  have column : valueColumn value ≠ [] ∧ '\t' ∉ valueColumn value ∧
      (valueColumn value).getLast? = (decimal value).getLast? := by
    have noTab : '\t' ∉ decimal value := fun listed => by
      have plain := (decimal_plain listed).1
      revert plain
      decide
    rw [valueColumn]
    split_ifs
    · refine ⟨List.cons_ne_nil _ _, ?_, ?_⟩
      · rintro (_ | ⟨_, later⟩)
        exact noTab later
      · rw [List.getLast?_cons_of_ne_nil (decimal_ne_nil value)]
    · exact ⟨decimal_ne_nil value, noTab, rfl⟩
  have solidType : '\t' ∉ kind.text := fun listed => by
    have solid := kind_text_solid kind _ listed
    revert solid
    decide
  have last : (newLine kind.text name value).getLast? =
      some ((decimal value).getLast (decimal_ne_nil value)) := by
    rw [newLine_eq, List.getLast?_append_of_ne_nil _ (List.cons_ne_nil _ _),
      List.getLast?_cons_of_ne_nil (by simp),
      List.getLast?_append_of_ne_nil _ (List.cons_ne_nil _ _),
      List.getLast?_cons_of_ne_nil column.1, column.2.2,
      List.getLast?_eq_some_getLast (decimal_ne_nil value)]
  have stripped :
      strip (newLine kind.text name value ++ blanks) = newLine kind.text name value := by
    refine strip_of_ends first (rest ++ '\t' :: (name ++ '\t' :: valueColumn value)) ?_ ?_ ?_
      last blanks blank
    · exact kind_text_solid kind first (begins ▸ List.mem_cons_self)
    · exact (decimal_plain (List.getLast_mem _)).1
    · rw [newLine_eq, begins, List.cons_append]
  refine ⟨valueColumn value, ?_, valueText_valueColumn value⟩
  rw [lineSet, stripped, newLine, List.splitOn_intercalate]
  · intro text listed
    simp only [List.mem_cons, List.not_mem_nil, or_false] at listed
    rcases listed with rfl | rfl | rfl
    · exact solidType
    · exact oneColumn
    · exact column.2.1
  · exact List.cons_ne_nil _ _

end Lines

section Columns

theorem numBytes_text (kind : Kind) : numBytes kind.text = some kind.size := by
  cases kind with
  | int signed size => cases signed <;> cases size <;> rfl
  | bits offset width =>
      have last : lastChars 2 (Kind.text (.bits offset width)) = ['_', width.digitChar] := rfl
      rw [numBytes, last, if_neg (by simp)]
      rfl

theorem numBytesTxt_text (signed : Bool) (size : IntSize) :
    numBytesTxt (Kind.text (.int signed size)) = size.bytes := by
  cases signed <;> cases size <;> rfl

/-- Only the types of bit fields have an underscore before their last
character. -/
theorem last_int (signed : Bool) (size : IntSize) :
    ∃ c, (lastChars 2 (Kind.text (.int signed size))).head? = some c ∧ c ≠ '_' := by
  cases signed <;> cases size <;> exact ⟨_, rfl, by decide⟩

theorem byteOffset_bits {offset width : Nat} (small : offset + width ≤ 8) :
    byteOffset (Kind.text (.bits offset width)) = some (offset, width) := by
  have last : lastChars 3 (Kind.text (.bits offset width)) =
      [offset.digitChar, '_', width.digitChar] := rfl
  have start := digitIn_digitChar (by decide : 10 ≤ 16) (by omega : offset < 10)
  have stop := digitIn_digitChar (by decide : 10 ≤ 16) (by omega : width < 10)
  simp only [byteOffset, last, Option.bind_eq_bind, List.getElem?_cons_zero, Option.bind_some,
    start, List.getElem?_cons_succ, stop]
  rfl

theorem packNumber_int {signed : Bool} {size : IntSize} {value : Int}
    (inRange : Kind.InRange (.int signed size) value) :
    packNumber (dataType (Kind.text (.int signed size))) value =
      some (Bytes.ofNat size.bytes (value % 256 ^ size.bytes).toNat) := by
  have format : dataType (Kind.text (.int signed size)) = (size.bytes, signed) := by
    cases signed <;> cases size <;> rfl
  rw [format, packNumber]
  cases signed with
  | true =>
      have bounds : -(256 ^ size.bytes / 2) ≤ value ∧ value < 256 ^ size.bytes / 2 := inRange
      rw [if_pos rfl, if_pos bounds]
  | false =>
      have bounds : 0 ≤ value ∧ value < 256 ^ size.bytes := inRange
      rw [if_neg (by decide), Bytes.pack, if_pos bounds, Int.emod_eq_of_lt bounds.1 bounds.2]

theorem checksumRes_int {signed : Bool} {size : IntSize} {value : Int}
    (inRange : Kind.InRange (.int signed size) value) :
    checksumRes (Kind.text (.int signed size)) value = value % 256 ^ size.bytes := by
  cases signed with
  | true =>
      obtain ⟨low, high⟩ := inRange
      have number : checksumRes (Kind.text (.int true size)) value =
          if value < 0 then 256 ^ size.bytes + value else value := by
        cases size <;> simp [checksumRes, Kind.text, IntSize.text, lastChars, IntSize.bytes]
      rw [number]
      split_ifs with negative
      · rw [← Int.add_emod_left, Int.emod_eq_of_lt] <;> omega
      · rw [Int.emod_eq_of_lt] <;> omega
  | false =>
      have number : checksumRes (Kind.text (.int false size)) value = value := by
        cases size <;> simp [checksumRes, Kind.text, IntSize.text, lastChars]
      rw [number, Int.emod_eq_of_lt inRange.1 inRange.2]

theorem lineValue_of_isLine {type name line : Text} {value : Int}
    (isLine : IsLine type name value line) : lineValue (lineSet line) = some value := by
  obtain ⟨column, columns, number⟩ := isLine
  rw [lineValue, columns]
  exact number

end Columns

section Convert

/-- The bytes that go into the checksum. -/
def feed (globals : Globals) (bytes : List UInt8) : Globals :=
  bytes.foldl (fun globals byte => feedByte globals byte.toNat) globals

theorem feed_append (globals : Globals) (first second : List UInt8) :
    feed globals (first ++ second) = feed (feed globals first) second :=
  List.foldl_append

theorem feedNumber_natCast (byteSize res : Nat) (globals : Globals) :
    feedNumber byteSize res globals = feed globals (Bytes.ofNat byteSize res) := by
  induction byteSize generalizing res globals with
  | zero => rfl
  | succ byteSize ih =>
      have quotient : (res : Int) / 256 = ((res / 256 : Nat) : Int) := rfl
      have byte : ((res : Int) % 256).toNat = (UInt8.ofNat res).toNat := by
        rw [UInt8.toNat_ofNat']
        omega
      rw [feedNumber, quotient, byte, ih]
      rfl

/-- The name of the checksum field. -/
def Field.named (field : Field) : Bool := lastChars 8 field.name = "checksum".toList

/-- The globals after a field that is named as the checksum. -/
def skip (globals : Globals) : Globals :=
  { globals with
    byteCount := globals.byteCount + 2
    checkSum := (globals.checkSum + 0) &&& 65535 }

/-- The globals after an entry. -/
def Entry.step (globals : Globals) : Entry → Globals
  | .whole field signed size isInt =>
      if field.named then skip globals else feed globals (Entry.whole field signed size isInt).bytes
  | .bits fields group => feed globals (Entry.bits fields group).bytes

/-- The state after an entry. -/
def State.next (state : State) (entry : Entry) : State where
  file := state.file ++ entry.bytes
  seekVal := state.seekVal + entry.bytes.length
  globals := entry.step state.globals

theorem writeAt_end (file bytes : List UInt8) : writeAt file file.length bytes = file ++ bytes := by
  simp [writeAt]

theorem length_bytes_whole (field : Field) (signed : Bool) (size : IntSize)
    (isInt : field.kind = .int signed size) :
    (Entry.whole field signed size isInt).bytes.length = size.bytes :=
  Bytes.length_ofNat _ _

theorem convertField_whole (field : Field) (signed : Bool) (size : IntSize)
    (isInt : field.kind = .int signed size) (rest : List Text) {state : State}
    (atEnd : state.seekVal = state.file.length) :
    convertField field.line rest state =
      some (state.next (.whole field signed size isInt), rest) := by
  obtain ⟨column, columns, -⟩ := field.isLine
  have value := lineValue_of_isLine field.isLine
  have inRange : Kind.InRange (.int signed size) field.value := isInt ▸ field.inRange
  obtain ⟨c, last, notBit⟩ := last_int signed size
  have other : ¬ (lastChars 2 (Kind.text (.int signed size))).head? = some '_' := by
    rw [last, Option.some.injEq]
    exact notBit
  have residue : 0 ≤ field.value % 256 ^ size.bytes := Int.emod_nonneg _ (pow_ne_zero _ (by decide))
  have globals : checksumCal (Kind.text (.int signed size)) (lastChars 8 field.name) size.bytes
      field.value state.globals = Entry.step state.globals (.whole field signed size isInt) := by
    rw [checksumCal, Entry.step, Field.named, checksumRes_int inRange,
      ← Int.toNat_of_nonneg residue, feedNumber_natCast]
    simp only [decide_eq_true_eq, skip, Entry.bytes]
  have size_ := numBytes_text (.int signed size)
  rw [isInt] at columns
  rw [columns] at value
  simp only [convertField, columns, value, Option.bind_eq_bind, Option.bind_some,
    List.getElem?_cons_zero, List.getElem?_cons_succ, size_, other, if_false,
    packNumber_int inRange, Option.pure_def, State.next, length_bytes_whole]
  rw [atEnd, writeAt_end, Kind.size, globals]
  rfl

theorem bitPack_fields {fields : List Field} {byt : Nat} (num : Nat) (rest : List Text)
    (bits : ∀ field ∈ fields, field.InByte)
    (total : byt + (fields.map Field.width).sum = 8) (open_ : byt < 8) :
    bitPack (fields.map Field.line ++ rest) byt num =
      some ((packed num fields : Int), rest) := by
  induction fields generalizing byt num with
  | nil =>
      rw [List.map_nil, List.sum_nil] at total
      omega
  | cons field fields ih =>
      obtain ⟨offset, width, kind, positive, small⟩ := bits field List.mem_cons_self
      obtain ⟨column, columns, -⟩ := field.isLine
      have value := lineValue_of_isLine field.isLine
      have natural : 0 ≤ field.value := by
        have inRange := field.inRange
        rw [kind] at inRange
        exact inRange.1
      have added : Int.lor num (field.value * 2 ^ offset) = (num ||| field.placedBits : Nat) := by
        rw [Field.placedBits, kind, ← Int.toNat_of_nonneg natural]
        rfl
      have widths : field.width = width := by rw [Field.width, kind]
      rw [columns] at value
      rw [kind] at value columns
      simp only [List.map_cons, List.cons_append, bitPack, columns, value, Option.bind_eq_bind,
        Option.bind_some, List.getElem?_cons_zero, byteOffset_bits small, added]
      rw [List.map_cons, List.sum_cons, widths] at total
      split_ifs with full
      · have done : fields = [] := by
          cases fields with
          | nil => rfl
          | cons next fields =>
              obtain ⟨start, more, nextKind, nextPositive, -⟩ := bits next (by simp)
              have nextWidth : next.width = more := by rw [Field.width, nextKind]
              rw [List.map_cons, List.sum_cons, nextWidth] at total
              omega
        rw [done]
        rfl
      · rw [ih _ (fun other listed => bits other (List.mem_cons_of_mem field listed)) (by omega)
          (by omega)]
        rfl

theorem placedBits_lt {field : Field} {offset width : Nat}
    (kind : field.kind = .bits offset width) :
    field.placedBits < 2 ^ (offset + width) := by
  have inRange := field.inRange
  rw [kind] at inRange
  have bound : field.value.toNat < 2 ^ width := by
    have below := inRange.2
    zify
    rwa [Int.toNat_of_nonneg inRange.1]
  rw [Field.placedBits, kind]
  calc field.value.toNat * 2 ^ offset < 2 ^ width * 2 ^ offset :=
        Nat.mul_lt_mul_of_pos_right bound (Nat.two_pow_pos offset)
    _ = 2 ^ (offset + width) := by rw [← pow_add, Nat.add_comm]

theorem packed_lt {fields : List Field} {num : Nat} (small : num < 256)
    (bits : ∀ field ∈ fields, field.InByte) : packed num fields < 256 := by
  induction fields generalizing num with
  | nil => exact small
  | cons field fields ih =>
      obtain ⟨offset, width, kind, -, inside⟩ := bits field List.mem_cons_self
      have placed : field.placedBits < 2 ^ 8 :=
        Nat.lt_of_lt_of_le (placedBits_lt kind) (Nat.pow_le_pow_right (by decide) inside)
      exact ih (Nat.or_lt_two_pow small placed)
        fun other listed => bits other (List.mem_cons_of_mem field listed)

theorem Group.packed_lt {fields : List Field} (group : Group fields) : packed 0 fields < 256 :=
  Bdf.packed_lt (by decide) group.bits

theorem Group.ne_nil {fields : List Field} (group : Group fields) : fields ≠ [] := by
  rintro rfl
  have total := group.total
  simp at total

theorem convertField_bits {field : Field} {fields : List Field} (group : Group (field :: fields))
    (rest : List Text) {state : State} (atEnd : state.seekVal = state.file.length) :
    convertField field.line (fields.map Field.line ++ rest) state =
      some (state.next (.bits (field :: fields) group), rest) := by
  obtain ⟨offset, width, kind, positive, small⟩ := group.bits field List.mem_cons_self
  obtain ⟨column, columns, -⟩ := field.isLine
  have value := lineValue_of_isLine field.isLine
  have last : (lastChars 2 field.kind.text).head? = some '_' := by
    rw [kind]
    rfl
  have size := numBytes_text field.kind
  have size_ : field.kind.size = 1 := by
    rw [kind]
    rfl
  have all := bitPack_fields 0 rest group.bits (by rw [Nat.zero_add, group.total])
    (by decide : 0 < 8)
  have below : ((packed 0 (field :: fields) : Nat) : Int) < 256 ^ 1 := by
    have bound := group.packed_lt
    omega
  have number : packNumber (1, false) (packed 0 (field :: fields) : Nat) =
      some (Entry.bits (field :: fields) group).bytes := by
    rw [packNumber, if_neg (by decide), Bytes.pack, if_pos ⟨Int.natCast_nonneg _, below⟩]
    rfl
  have globals : checksumCal "uint8".toList "WrongVal".toList 1 (packed 0 (field :: fields) : Nat)
      state.globals = Entry.step state.globals (.bits (field :: fields) group) := by
    have byte : checksumRes "uint8".toList (packed 0 (field :: fields) : Nat) =
        (packed 0 (field :: fields) : Nat) := by
      rw [checksumRes, if_pos (by decide)]
      exact if_neg fun wraps => absurd wraps.1 (by omega)
    rw [checksumCal, if_neg (by decide), byte, feedNumber_natCast]
    rfl
  rw [columns] at value
  rw [List.map_cons, List.cons_append, Nat.cast_zero] at all
  simp only [convertField, columns, value, Option.bind_eq_bind, Option.bind_some,
    List.getElem?_cons_zero, List.getElem?_cons_succ, size, last, if_true, all, number,
    Option.pure_def, State.next, size_]
  rw [atEnd, writeAt_end, globals]
  rfl

/-- The lines of an entry. -/
def Entry.lines (entry : Entry) : List Text := entry.fields.map Field.line

/-- An entry takes one round. -/
theorem convertField_entry (entry : Entry) (rest : List Text) {state : State}
    (atEnd : state.seekVal = state.file.length) :
    ∃ line others, entry.lines = line :: others ∧
      convertField line (others ++ rest) state = some (state.next entry, rest) := by
  cases entry with
  | whole field signed size isInt =>
      exact ⟨field.line, [], rfl, convertField_whole field signed size isInt rest atEnd⟩
  | bits fields group =>
      obtain ⟨field, fields, rfl⟩ := List.exists_cons_of_ne_nil group.ne_nil
      exact ⟨field.line, fields.map Field.line, rfl, convertField_bits group rest atEnd⟩

theorem State.next_atEnd {state : State} (atEnd : state.seekVal = state.file.length)
    (entry : Entry) : (state.next entry).seekVal = (state.next entry).file.length := by
  rw [State.next, List.length_append, atEnd]

theorem convertLoop_entries {entries : List Entry} {fuel : Nat} (enough : entries.length ≤ fuel)
    {state : State} (atEnd : state.seekVal = state.file.length) :
    convertLoop fuel (entries.flatMap Entry.lines) state =
      (entries.foldl State.next state, true) := by
  induction entries generalizing fuel state with
  | nil => cases fuel <;> rfl
  | cons entry entries ih =>
      obtain ⟨fuel, rfl⟩ := Nat.exists_eq_succ_of_ne_zero
        (Nat.ne_of_gt (Nat.lt_of_lt_of_le (Nat.succ_pos _) enough))
      obtain ⟨line, others, lines, round⟩ :=
        convertField_entry entry (entries.flatMap Entry.lines) atEnd
      rw [List.flatMap_cons, lines, List.cons_append, convertLoop, round]
      exact ih (Nat.le_of_succ_le_succ enough) (state.next_atEnd atEnd entry)

theorem foldl_next (entries : List Entry) (state : State) :
    (entries.foldl State.next state).file = state.file ++ entries.flatMap Entry.bytes ∧
      (entries.foldl State.next state).globals = entries.foldl Entry.step state.globals := by
  induction entries generalizing state with
  | nil => exact ⟨(List.append_nil _).symm, rfl⟩
  | cons entry entries ih =>
      obtain ⟨file, globals⟩ := ih (state.next entry)
      rw [List.foldl_cons, file, globals, List.flatMap_cons, ← List.append_assoc]
      exact ⟨rfl, rfl⟩

/-- The fields of some entries in the order of their lines. -/
def fieldsOf (entries : List Entry) : List Field := entries.flatMap Entry.fields

theorem lines_eq (entries : List Entry) :
    entries.flatMap Entry.lines = (fieldsOf entries).map Field.line := by
  rw [fieldsOf, List.map_flatMap]
  rfl

theorem length_le_lines (entries : List Entry) :
    entries.length ≤ (entries.flatMap Entry.lines).length := by
  induction entries with
  | nil => exact Nat.le_refl _
  | cons entry entries ih =>
      have line : 0 < entry.lines.length := by
        cases entry with
        | whole field signed size isInt => exact Nat.one_pos
        | bits fields group =>
            rw [Entry.lines, List.length_map]
            exact List.length_pos_of_ne_nil group.ne_nil
      rw [List.flatMap_cons, List.length_append, List.length_cons]
      omega

/-- Where the second walk finds the checksum. -/
def checksumAt : List Field → Nat → Option Nat
  | [], _ => none
  | field :: fields, position =>
      if field.named then some position else checksumAt fields (position + field.kind.size)

theorem secondWalk_fields (fields : List Field) (position : Nat) :
    secondWalk (fields.map Field.line) position = some (checksumAt fields position) := by
  induction fields generalizing position with
  | nil => rfl
  | cons field fields ih =>
      obtain ⟨column, columns, -⟩ := field.isLine
      simp only [List.map_cons, secondWalk, columns, Option.bind_eq_bind, Option.bind_some,
        List.getElem?_cons_zero, List.getElem?_cons_succ, numBytes_text, checksumAt, Field.named,
        decide_eq_true_eq]
      split_ifs
      · rfl
      · exact ih _

/-- The numbers that the globals can hold between two bytes. -/
structure Globals.Sound (globals : Globals) : Prop where
  half : globals.byteCount % 2 = 1 → globals.wordVal < 256
  checkSum : globals.checkSum < 65536

theorem feedByte_sound {globals : Globals} (sound : globals.Sound) {byte : Nat}
    (small : byte < 256) : (feedByte globals byte).Sound := by
  rw [feedByte]
  dsimp only
  split_ifs with odd
  · exact ⟨fun _ => small, sound.checkSum⟩
  · have low : globals.wordVal < 2 ^ 16 := Nat.lt_trans (sound.half (by omega)) (by decide)
    have word : globals.wordVal ||| byte * 256 < 2 ^ 16 := Nat.or_lt_two_pow low (by omega)
    exact ⟨fun other => absurd other odd, Nat.xor_lt_two_pow sound.checkSum word⟩

theorem feedNumber_sound {globals : Globals} (sound : globals.Sound) (byteSize : Nat) (res : Int) :
    (feedNumber byteSize res globals).Sound := by
  induction byteSize generalizing res globals with
  | zero => exact sound
  | succ byteSize ih => exact ih (feedByte_sound sound (by omega)) _

theorem skip_sound {globals : Globals} (sound : globals.Sound) : (skip globals).Sound := by
  refine ⟨fun odd => sound.half ?_, Nat.lt_of_le_of_lt Nat.and_le_right (by decide)⟩
  rwa [skip, Nat.add_mod_right] at odd

theorem feed_sound {globals : Globals} (sound : globals.Sound) (bytes : List UInt8) :
    (feed globals bytes).Sound := by
  induction bytes generalizing globals with
  | nil => exact sound
  | cons byte bytes ih => exact ih (feedByte_sound sound byte.toNat_lt)

theorem step_sound {globals : Globals} (sound : globals.Sound) (entry : Entry) :
    (entry.step globals).Sound := by
  cases entry with
  | whole field signed size isInt =>
      rw [Entry.step]
      split_ifs
      · exact skip_sound sound
      · exact feed_sound sound _
  | bits fields group => exact feed_sound sound _

theorem foldl_step_sound {globals : Globals} (sound : globals.Sound) (entries : List Entry) :
    (entries.foldl Entry.step globals).Sound := by
  induction entries generalizing globals with
  | nil => exact sound
  | cons entry entries ih => exact ih (step_sound sound entry)

theorem checksumCal_sound {globals : Globals} (sound : globals.Sound) (typeVal checksumVal : Text)
    (byteSize : Nat) (num : Int) :
    (checksumCal typeVal checksumVal byteSize num globals).Sound := by
  rw [checksumCal]
  split_ifs
  · exact skip_sound sound
  · exact feedNumber_sound sound byteSize _

/-- The globals after some entries, and the binary with the checksum at the
place that the second walk finds. -/
theorem txt2bin_entries {entries : List Entry} {txtLines : List Text} (notEmpty : txtLines ≠ [])
    (lines : fieldLines txtLines = entries.flatMap Entry.lines) (globals : Globals) :
    let fed := entries.foldl Entry.step { globals with checkSum := 0 }
    txt2bin txtLines globals =
      ({ fed with checkSum := 65535 ^^^ fed.checkSum },
        match checksumAt (fieldsOf entries) 0 with
        | none => some (entries.flatMap Entry.bytes)
        | some position => (Bytes.pack 2 (65535 ^^^ fed.checkSum : Nat)).map fun bytes =>
            writeAt (entries.flatMap Entry.bytes) position bytes) := by
  intro fed
  obtain ⟨start, isStart⟩ : ∃ start : State,
      start = { file := [], seekVal := 0, globals := { globals with checkSum := 0 } } := ⟨_, rfl⟩
  have atEnd : start.seekVal = start.file.length := by rw [isStart]; rfl
  have converted := convertLoop_entries (length_le_lines entries) atEnd
  have walked := secondWalk_fields (fieldsOf entries) 0
  obtain ⟨file, after⟩ := foldl_next entries start
  have fromStart : entries.foldl Entry.step start.globals = fed := by rw [isStart]
  have noFile : start.file = [] := by rw [isStart]
  rw [txt2bin, if_neg notEmpty, lines]
  dsimp only
  rw [← isStart, converted, lines_eq, walked]
  simp only [if_true, file, after, noFile, List.nil_append, fromStart]
  cases checksumAt (fieldsOf entries) 0 <;> rfl

theorem pack_checkSum {globals : Globals} (sound : globals.Sound) :
    Bytes.pack 2 (65535 ^^^ globals.checkSum : Nat) =
      some (Bytes.ofNat 2 (65535 ^^^ globals.checkSum)) := by
  have small : 65535 ^^^ globals.checkSum < 2 ^ 16 :=
    Nat.xor_lt_two_pow (by decide) sound.checkSum
  rw [Bytes.pack, if_pos]
  · rfl
  · constructor
    · exact Int.natCast_nonneg _
    · zify at small
      exact small

theorem fresh_sound : freshGlobals.Sound := ⟨by decide, by decide⟩

/-- The bytes of an entry in the binary. -/
def Entry.size : Entry → Nat
  | .whole _ _ size _ => size.bytes
  | .bits _ _ => 1

theorem Entry.length_bytes (entry : Entry) : entry.bytes.length = entry.size := by
  cases entry with
  | whole field signed size isInt => exact length_bytes_whole field signed size isInt
  | bits fields group => rfl

theorem Entry.size_pos (entry : Entry) : 0 < entry.size := by
  cases entry with
  | whole field signed size isInt => cases size <;> exact Nat.succ_pos _
  | bits fields group => exact Nat.one_pos

/-- Every field of an entry is read from all of its bytes. -/
theorem Entry.size_of_mem {entry : Entry} {field : Field} (listed : field ∈ entry.fields) :
    field.kind.size = entry.size := by
  cases entry with
  | whole other signed size isInt =>
      rw [Entry.fields, List.mem_singleton] at listed
      rw [listed, isInt]
      rfl
  | bits fields group =>
      obtain ⟨offset, width, kind, -⟩ := group.bits field listed
      rw [kind]
      rfl

/-- The length of a binary. -/
def totalSize (entries : List Entry) : Nat := (entries.map Entry.size).sum

theorem length_flatMap_bytes (entries : List Entry) :
    (entries.flatMap Entry.bytes).length = totalSize entries := by
  rw [List.length_flatMap, totalSize]
  exact congrArg List.sum (List.map_congr_left fun entry _ => entry.length_bytes)

theorem totalSize_append (before : List Entry) (entry : Entry) (after : List Entry) :
    totalSize (before ++ entry :: after) = totalSize before + entry.size + totalSize after := by
  rw [totalSize, List.map_append, List.sum_append, List.map_cons, List.sum_cons, ← Nat.add_assoc]
  rfl

theorem getElem?_writeAt (file : List UInt8) (position : Nat) (bytes : List UInt8) (i : Nat) :
    (writeAt file position bytes)[i]? =
      if i < position then (file ++ List.replicate (position - file.length) 0)[i]?
      else if i < position + bytes.length then bytes[i - position]?
      else file[i]? := by
  have front : ((file ++ List.replicate (position - file.length) 0).take position).length =
      position := by
    rw [List.length_take, List.length_append, List.length_replicate]
    omega
  rw [writeAt, List.append_assoc]
  split_ifs with early middle
  · rw [List.getElem?_append_left (by rw [front]; exact early), List.getElem?_take, if_pos early]
  · rw [List.getElem?_append_right (by rw [front]; omega), front,
      List.getElem?_append_left (by omega)]
  · rw [List.getElem?_append_right (by rw [front]; omega), front,
      List.getElem?_append_right (by omega), List.getElem?_drop]
    congr 1
    omega

theorem length_writeAt (file : List UInt8) (position : Nat) (bytes : List UInt8) :
    file.length ≤ (writeAt file position bytes).length := by
  rw [writeAt, List.length_append, List.length_append, List.length_take, List.length_append,
    List.length_replicate, List.length_drop]
  omega

end Convert

section Refill

theorem Field.oneColumn (field : Field) : '\t' ∉ field.name := by
  obtain ⟨column, columns, -⟩ := field.isLine
  refine not_mem_of_mem_splitOn (?_ : field.name ∈ (strip field.line).splitOn '\t')
  rw [← lineSet, columns]
  exact List.mem_cons_of_mem _ List.mem_cons_self

/-- A field with another value in its line. -/
def Field.refill (field : Field) (value : Int) (inRange : field.kind.InRange value) : Field where
  kind := field.kind
  name := field.name
  value := value
  line := newLine field.kind.text field.name value ++ ['\n']
  isLine := isLine_newLine field.kind field.oneColumn value (List.all_eq_true.mp rfl)
  inRange := inRange

theorem Kind.inRange_zero (kind : Kind) : kind.InRange 0 := by
  cases kind with
  | int signed size => cases signed <;> cases size <;> decide
  | bits offset width => exact ⟨Int.le_refl 0, Int.pow_pos (by decide)⟩

def Field.zero (field : Field) : Field := field.refill 0 field.kind.inRange_zero

theorem Group.refill {fields others : List Field} (group : Group fields)
    (kinds : others.map Field.kind = fields.map Field.kind) : Group others where
  bits := by
    intro other listed
    have kind : other.kind ∈ fields.map Field.kind := kinds ▸ List.mem_map_of_mem listed
    obtain ⟨field, inside, same⟩ := List.mem_map.mp kind
    obtain ⟨offset, width, isBits, room⟩ := group.bits field inside
    exact ⟨offset, width, same ▸ isBits, room⟩
  ascending := by
    have ascending := group.ascending
    have onKinds : (fields.map Field.kind).Pairwise fun kind other =>
        ∀ offset width start stop, kind = .bits offset width → other = .bits start stop →
          offset + width ≤ start := List.pairwise_map.mpr ascending
    exact List.pairwise_map.mp (kinds ▸ onKinds)
  total := by
    have widths : ∀ fields : List Field, fields.map Field.width =
        (fields.map Field.kind).map fun kind =>
          match kind with
          | .bits _ width => width
          | .int _ _ => 0 := by
      intro fields
      rw [List.map_map]
      rfl
    rw [widths, kinds, ← widths, group.total]

/-- An entry with zeros. -/
def Entry.zero : Entry → Entry
  | .whole field signed size isInt => .whole field.zero signed size isInt
  | .bits fields group => .bits (fields.map Field.zero) (group.refill (by rw [List.map_map]; rfl))

/-- The types and names of the lines of an entry. -/
def Entry.shape (entry : Entry) : List (Kind × Text) :=
  entry.fields.map fun field => (field.kind, field.name)

@[simp]
theorem Entry.shape_zero (entry : Entry) : entry.zero.shape = entry.shape := by
  cases entry with
  | whole field signed size isInt => rfl
  | bits fields group =>
      rw [shape, zero, Entry.fields, List.map_map]
      rfl

theorem size_of_shape {entry other : Entry} (same : entry.shape = other.shape) :
    entry.size = other.size := by
  have first : ∀ entry : Entry, ∃ field ∈ entry.fields, True := by
    intro entry
    cases entry with
    | whole field signed size isInt => exact ⟨field, List.mem_singleton_self field, trivial⟩
    | bits fields group =>
        obtain ⟨field, listed⟩ := List.exists_mem_of_ne_nil _ group.ne_nil
        exact ⟨field, listed, trivial⟩
  obtain ⟨field, listed, -⟩ := first entry
  have form : (field.kind, field.name) ∈ other.shape := same ▸ List.mem_map_of_mem listed
  obtain ⟨field', listed', equal⟩ := List.mem_map.mp form
  rw [← Entry.size_of_mem listed, ← Entry.size_of_mem listed', (Prod.mk.inj equal).1]

/-- The text of a board data file: perhaps a header line, then the entries. -/
structure Template where
  txtLines : List Text
  entries : List Entry
  notEmpty : txtLines ≠ []
  lines : fieldLines txtLines = entries.flatMap Entry.lines

/-- The same lines up to the values in them. -/
def Template.SameShape (template other : Template) : Prop :=
  template.entries.map Entry.shape = other.entries.map Entry.shape

/-- Some entries under a header. -/
def Template.ofEntries (entries : List Entry) : Template where
  txtLines := List.replicate 7 '#' :: entries.flatMap Entry.lines
  entries := entries
  notEmpty := List.cons_ne_nil _ _
  lines := by
    have header : hasHashes (List.replicate 7 '#') = true := by decide
    rw [fieldLines, List.head?_cons, Option.any_some, header]
    rfl

theorem Entry.fields_zero (entry : Entry) : entry.zero.fields = entry.fields.map Field.zero := by
  cases entry <;> rfl

theorem Entry.size_zero (entry : Entry) : entry.zero.size = entry.size := by
  cases entry <;> rfl

theorem fieldsOf_zero (entries : List Entry) :
    fieldsOf (entries.map Entry.zero) = (fieldsOf entries).map Field.zero := by
  rw [fieldsOf, List.flatMap_map, fieldsOf, List.map_flatMap]
  exact List.flatMap_congr fun entry _ => entry.fields_zero

theorem checksumAt_zero (fields : List Field) (position : Nat) :
    checksumAt (fields.map Field.zero) position = checksumAt fields position := by
  induction fields generalizing position with
  | nil => rfl
  | cons field fields ih =>
      have named : field.zero.named = field.named := rfl
      have kind : field.zero.kind = field.kind := rfl
      rw [List.map_cons, checksumAt, checksumAt, named, kind, ih]

theorem placedBits_zero (field : Field) : field.zero.placedBits = 0 := by
  have kind : field.zero.kind = field.kind := rfl
  have value : field.zero.value = 0 := rfl
  rw [Field.placedBits, kind, value]
  cases field.kind with
  | int signed size => rfl
  | bits offset width => exact Nat.zero_mul _

theorem packed_zero (fields : List Field) (num : Nat) :
    packed num (fields.map Field.zero) = num := by
  induction fields generalizing num with
  | nil => rfl
  | cons field fields ih =>
      have next : packed num ((field :: fields).map Field.zero) =
          packed (num ||| field.zero.placedBits) (fields.map Field.zero) := rfl
      rw [next, placedBits_zero, Nat.or_zero, ih]

theorem ofNat_zero (width : Nat) : Bytes.ofNat width 0 = List.replicate width 0 := by
  induction width with
  | zero => rfl
  | succ width ih => rw [Bytes.ofNat, Nat.zero_div, ih, List.replicate_succ]; rfl

theorem bytes_zero (entry : Entry) : entry.zero.bytes = List.replicate entry.size 0 := by
  cases entry with
  | whole field signed size isInt =>
      have stored : (Entry.whole field signed size isInt).zero.bytes =
          Bytes.ofNat size.bytes ((0 : Int) % 256 ^ size.bytes).toNat := rfl
      rw [stored, Int.zero_emod]
      exact ofNat_zero size.bytes
  | bits fields group =>
      have byte : (Entry.bits fields group).zero.bytes =
          [UInt8.ofNat (packed 0 (fields.map Field.zero))] := rfl
      rw [byte, packed_zero]
      rfl

/-- A zero changes no checksum here. -/
def Globals.Quiet (globals : Globals) : Prop :=
  globals.byteCount % 2 = 0 ∨ globals.wordVal = 0

theorem feed_zeros {globals : Globals} (quiet : globals.Quiet) (count : Nat) :
    (feed globals (List.replicate count 0)).Quiet ∧
      (feed globals (List.replicate count 0)).checkSum = globals.checkSum := by
  induction count generalizing globals with
  | zero => exact ⟨quiet, rfl⟩
  | succ count ih =>
      have next : (feedByte globals 0).Quiet ∧
          (feedByte globals 0).checkSum = globals.checkSum := by
        rw [feedByte]
        dsimp only
        split_ifs with odd
        · exact ⟨.inr rfl, rfl⟩
        · have word : globals.wordVal = 0 := quiet.resolve_left (by omega)
          rw [word]
          exact ⟨.inr rfl, Nat.xor_zero _⟩
      obtain ⟨quiet, checkSum⟩ := ih next.1
      exact ⟨quiet, checkSum.trans next.2⟩

theorem skip_quiet {globals : Globals} (quiet : globals.Quiet) : (skip globals).Quiet := by
  rcases quiet with even | word
  · exact .inl (by rw [skip, Nat.add_mod_right, even])
  · exact .inr word

theorem skip_checkSum {globals : Globals} (sound : globals.Sound) :
    (skip globals).checkSum = globals.checkSum := by
  have small : globals.checkSum < 2 ^ 16 := sound.checkSum
  rw [skip, Nat.add_zero]
  exact Nat.and_two_pow_sub_one_of_lt_two_pow small

theorem step_zero {globals : Globals} (sound : globals.Sound) (quiet : globals.Quiet)
    (entry : Entry) : (entry.zero.step globals).Quiet ∧
      (entry.zero.step globals).checkSum = globals.checkSum := by
  have zeros := feed_zeros quiet entry.size
  rw [← bytes_zero] at zeros
  cases entry with
  | whole field signed size isInt =>
      have stepped : (Entry.whole field signed size isInt).zero.step globals =
          if field.named then skip globals
          else feed globals (Entry.whole field signed size isInt).zero.bytes := rfl
      rw [stepped]
      split_ifs
      · exact ⟨skip_quiet quiet, skip_checkSum sound⟩
      · exact zeros
  | bits fields group => exact zeros

theorem foldl_step_zero {globals : Globals} (sound : globals.Sound) (quiet : globals.Quiet)
    (entries : List Entry) : ((entries.map Entry.zero).foldl Entry.step globals).Quiet ∧
      ((entries.map Entry.zero).foldl Entry.step globals).checkSum = globals.checkSum := by
  induction entries generalizing globals with
  | nil => exact ⟨quiet, rfl⟩
  | cons entry entries ih =>
      have next := step_zero sound quiet entry
      obtain ⟨quiet, checkSum⟩ := ih (step_sound sound entry.zero) next.1
      exact ⟨quiet, checkSum.trans next.2⟩

end Refill

end QHal.Bdf
