/-
Module: QHal.Proofs.OtpField
Purpose: Which values of an OTP field are stored and read back on every device.
Trusted boundary: none
Main exports: otpBit, Stored, Storable, writeOtpField_stores_iff
-/
import QHal.Nvm.OtpField

namespace QHal.Nvm

open Numerals

section Bits

/-- A bit of the OTP, counted from its first byte. -/
def otpBit (device : Device) (i : Nat) : Bool :=
  (device.otp (i / 8)).toNat.testBit (i % 8)

/-- A number below a power of two has no bits from there on. -/
theorem testBit_high {number bound k : Nat} (below : number < 2 ^ bound) (high : bound ≤ k) :
    number.testBit k = false :=
  Nat.testBit_lt_two_pow (Nat.lt_of_lt_of_le below (Nat.pow_le_pow_right (by decide) high))

theorem testBit_bitMask (offset length i : Nat) :
    (bitMask offset length).testBit i = decide (offset ≤ i ∧ i < offset + length) := by
  rw [bitMask, Nat.testBit_shiftLeft, Nat.one_shiftLeft, Nat.testBit_two_pow_sub_one,
    ← Bool.decide_and]
  apply decide_eq_decide.mpr
  omega

/-- `set_bits` of natural numbers. -/
theorem setBits_natCast (i offset length value : Nat) :
    setBits i offset length value =
      ((Nat.ldiff i (bitMask offset length) |||
        (value <<< offset &&& bitMask offset length) : Nat) : Int) := rfl

theorem testBit_setBits (i offset length value k : Nat) :
    (Nat.ldiff i (bitMask offset length) |||
        (value <<< offset &&& bitMask offset length)).testBit k =
      if offset ≤ k ∧ k < offset + length then value.testBit (k - offset) else i.testBit k := by
  rw [Nat.testBit_or, Nat.testBit_ldiff, Nat.testBit_and, Nat.testBit_shiftLeft, testBit_bitMask]
  split_ifs with inside
  · simp [inside]
  · simp [inside]

theorem otpBit_otpRead (device : Device) {address size i : Nat} (inside : i < 8 * size) :
    otpBit device (8 * address + i) = (Bytes.toNat (otpRead device address size)).testBit i := by
  have byte : i / 8 < (otpRead device address size).length := by
    rw [otpRead, List.length_ofFn]
    omega
  rw [Bytes.testBit_toNat, List.getD_eq_getElem _ _ byte, otpBit]
  have number : (8 * address + i) / 8 = address + i / 8 := by omega
  have bit : (8 * address + i) % 8 = i % 8 := by omega
  rw [number, bit]
  simp [otpRead]

end Bits

section Write

/-- The bytes that a write stores: those given, and what the parameter buffer
held behind them. -/
def storedBytes (device : Device) (bytes : List UInt8) (size : Nat) : List UInt8 :=
  List.ofFn fun i : Fin size => bytes.getD i (device.paramBuffer i)

/-- The device after a write. -/
def afterWrite (device : Device) (address size : Nat) (bytes : List UInt8) : Device :=
  otpWrite (writeBuf device bytes) address size

@[simp]
theorem length_storedBytes (device : Device) (bytes : List UInt8) (size : Nat) :
    (storedBytes device bytes size).length = size :=
  List.length_ofFn

theorem storedBytes_of_le (device : Device) {bytes : List UInt8} {size : Nat}
    (enough : size ≤ bytes.length) : storedBytes device bytes size = bytes.take size := by
  apply List.ext_getElem
  · simp [enough]
  · intro i below inside
    rw [List.length_take] at inside
    simp only [storedBytes, List.getElem_ofFn, List.getElem_take]
    exact List.getD_eq_getElem bytes _ (by omega)

theorem otpRead_afterWrite (device : Device) (address size : Nat) (bytes : List UInt8) :
    otpRead (afterWrite device address size bytes) address size =
      storedBytes device bytes size := by
  apply List.ext_getElem
  · simp [otpRead]
  · intro i below inside
    rw [length_storedBytes] at inside
    have stored : address ≤ address + i ∧ address + i < address + size := by omega
    simp only [otpRead, storedBytes, afterWrite, otpWrite, writeBuf, List.getElem_ofFn, stored,
      if_true, and_self, Nat.add_sub_cancel_left]

theorem otpBit_afterWrite_outside (device : Device) (address size : Nat) (bytes : List UInt8)
    {i : Nat} (outside : i < 8 * address ∨ 8 * (address + size) ≤ i) :
    otpBit (afterWrite device address size bytes) i = otpBit device i := by
  have far : ¬ (address ≤ i / 8 ∧ i / 8 < address + size) := by omega
  simp only [otpBit, afterWrite, otpWrite, far, if_false, writeBuf]

theorem otpBit_afterWrite_inside (device : Device) (address size : Nat) (bytes : List UInt8)
    {i : Nat} (inside : i < 8 * size) :
    otpBit (afterWrite device address size bytes) (8 * address + i) =
      (Bytes.toNat (storedBytes device bytes size)).testBit i := by
  rw [otpBit_otpRead _ inside, otpRead_afterWrite]

end Write

section Report

theorem hexByte_digits (byte : UInt8) :
    ∃ high < 16, ∃ low < 16, hexByte byte = [high.digitChar, low.digitChar] ∧
      byte.toNat = 16 * high + low := by
  have small : byte.toNat < 256 := byte.toNat_lt
  exact ⟨byte.toNat / 16, by omega, byte.toNat % 16, by omega, rfl, by omega⟩

theorem readDigits_hexByte (bytes : List UInt8) (value : Nat) :
    readDigits 16 value ((bytes.flatMap hexByte).map Char.toUpper) =
      some (256 ^ bytes.length * value + Bytes.toNat bytes.reverse) := by
  induction bytes generalizing value with
  | nil => simp [readDigits, Bytes.toNat]
  | cons byte bytes ih =>
      obtain ⟨high, highInside, low, lowInside, digits, number⟩ := hexByte_digits byte
      have next : 16 * (16 * value + high) + low = 256 * value + byte.toNat := by omega
      rw [List.flatMap_cons, digits, List.cons_append, List.cons_append, List.nil_append,
        List.map_cons, List.map_cons, readDigits_cons (digitIn_toUpper (by decide) highInside),
        readDigits_cons (digitIn_toUpper (by decide) lowInside), next, ih, List.reverse_cons,
        Bytes.toNat_append, List.length_reverse, List.length_cons, pow_succ]
      simp only [Bytes.toNat, Option.some.injEq]
      ring

/-- Hexadecimal bytes are read with the first byte as the most significant one. -/
theorem readNumber_hexByte {bytes : List UInt8} (notEmpty : bytes ≠ []) :
    readNumber 16 ((bytes.flatMap hexByte).map Char.toUpper) =
      some (Bytes.toNat bytes.reverse) := by
  have read := readDigits_hexByte bytes 0
  cases bytes with
  | nil => exact absurd rfl notEmpty
  | cons byte bytes =>
      obtain ⟨high, highInside, low, lowInside, digits, -⟩ := hexByte_digits byte
      have isDigit := digitIn_toUpper (by decide : 16 ≤ 16) highInside
      rw [List.flatMap_cons, digits, List.cons_append, List.map_cons] at read ⊢
      rw [readDigits_cons isDigit, Nat.mul_zero, Nat.zero_add, Nat.mul_zero, Nat.zero_add] at read
      rw [readNumber, isDigit, Option.bind_some, read]

theorem solid_hexByte (bytes : List UInt8) :
    ∀ c ∈ (bytes.flatMap hexByte).map Char.toUpper, isSpace c = false := by
  intro c listed
  obtain ⟨raw, isRaw, rfl⟩ := List.mem_map.mp listed
  obtain ⟨byte, -, isDigit⟩ := List.mem_flatMap.mp isRaw
  obtain ⟨high, highInside, low, lowInside, digits, -⟩ := hexByte_digits byte
  rw [digits, List.mem_cons, List.mem_singleton] at isDigit
  rcases isDigit with rfl | rfl
  · exact solid_toUpper highInside
  · exact solid_toUpper lowInside

variable (device : Device) {field : OtpField}

/-- A field below 48 bits is reported as the number in its bits. -/
theorem report_short (short : field.length < 48) :
    readInt 16 (readOtpField device field).2 =
      some (((Bytes.toNat (otpRead device field.address (max 4 field.size)) &&&
        bitMask field.offset field.length) >>> field.offset : Nat) : Int) := by
  have size : (if field.size < 4 then 4 else field.size) = max 4 field.size := by
    split_ifs <;> omega
  simp only [readOtpField, short, if_true, size]
  exact readInt_upper (.inr rfl) _

/-- A longer field is reported byte by byte. -/
theorem report_long (long : 48 ≤ field.length) :
    readInt 16 (readOtpField device field).2 =
      some (Bytes.toNat (otpRead device field.address field.size).reverse : Int) := by
  have size : 6 ≤ field.size := by
    rw [OtpField.size]
    omega
  have bytes : otpRead device field.address field.size ≠ [] := by
    intro empty
    have length := congrArg List.length empty
    simp only [otpRead, List.length_ofFn, List.length_nil] at length
    omega
  have notSmall : ¬ field.size < 4 := by omega
  have notShort : ¬ field.length < 48 := by omega
  simp only [readOtpField, notShort, notSmall, if_false]
  exact readInt_hex (.inr rfl) (.inr rfl) (solid_hexByte _) (readNumber_hexByte bytes)

end Report

section Spec

/-- The number that a value string stands for; blanks may stand between its
digits. -/
def valueNumber (value : Text) : Option Int :=
  (readInt 16 value).or (readInt 16 (value.filter fun c => !isSpace c))

/-- The bit of the number that a bit of a field holds.  From 48 bits on the
most significant byte comes first. -/
def numberBit (field : OtpField) (i : Nat) : Nat :=
  if field.length < 48 then i else 8 * (field.size - 1 - i / 8) + i % 8

/-- The bits of a field hold a number. -/
structure Holds (device : Device) (field : OtpField) (number : Int) : Prop where
  natural : 0 ≤ number
  bits : ∀ i < field.length,
    otpBit device (8 * field.address + field.offset + i) =
      number.toNat.testBit (numberBit field i)
  fits : ∀ k, number.toNat.testBit k = true → ∃ i < field.length, numberBit field i = k

/-- A value went into its field and nowhere else, and is read back. -/
structure Stored (before after : Device) (field : OtpField) (value : Text) : Prop where
  number : ∃ number, valueNumber value = some number ∧ Holds after field number ∧
    readInt 16 (readOtpField after field).2 = some number
  frame : ∀ i, i < 8 * field.address + field.offset ∨
      8 * field.address + field.offset + field.length ≤ i →
    otpBit after i = otpBit before i

/-- The number of the bytes of a whole field. -/
def bytesNumber (field : OtpField) (bytes : List UInt8) : Nat :=
  if field.length < 48 then Bytes.toNat bytes else Bytes.toNat bytes.reverse

/-- A value that the tool stores on every device: a field of at most 24 bits
lies in its word and the value is not negative; a longer field consists of
whole bytes, and the bytes given fill it with the number meant. -/
def Storable (field : OtpField) (value : Text) : Prop :=
  if field.size < 4 then
    (field.length = 0 ∨ field.offset + field.length ≤ 32) ∧
      ∃ number, valueNumber value = some number ∧ 0 ≤ number
  else
    field.offset = 0 ∧ field.length = 8 * field.size ∧
      ∃ bytes, fromHex (value.drop 2) = some bytes ∧ field.size ≤ bytes.length ∧
        valueNumber value = some (bytesNumber field (bytes.take field.size) : Int)

end Spec

section Short

variable {checkPblVersion : Device → Bool × Device} {field : OtpField} {value : Text}
variable {device after : Device}

/-- The fields without an encoding of their own. -/
def Plain (field : OtpField) : Prop :=
  field.name ≠ "PK_HASH" ∧ field.name ≠ "MODULE_PART_NUMBER"

theorem storeOtpField_plain (plain : Plain field) (value : Text) (size : Nat) (bytes : List UInt8)
    (device : Device) :
    storeOtpField checkPblVersion field value size bytes device =
      some (afterWrite device field.address size bytes) := by
  rw [storeOtpField, if_neg plain.1, afterWrite]

/-- A short field is changed in its 32-bit word. -/
theorem write_short (plain : Plain field) (short : field.size < 4) :
    writeOtpField checkPblVersion field value device = some after ↔
      ∃ number, readInt 16 value = some number ∧ number ≤ bitMask 0 field.length ∧
        ∃ bytes, Bytes.pack 4 (setBits (Bytes.toNat (otpRead device field.address 4)) field.offset
            field.length number) = some bytes ∧
          afterWrite device field.address 4 bytes = after := by
  have read : (readOtpField device field).1 = otpRead device field.address 4 := by
    simp only [readOtpField, short, if_true]
  simp only [writeOtpField, plain.2, if_false, Option.bind_eq_bind, Option.bind_some, short,
    if_true, storeOtpField_plain plain, read, Option.bind_eq_some_iff]
  constructor
  · rintro ⟨number, isNumber, written⟩
    split_ifs at written with large
    obtain ⟨bytes, packed, same⟩ := Option.bind_eq_some_iff.mp written
    exact ⟨number, isNumber, by omega, bytes, packed, Option.some.inj same⟩
  · rintro ⟨number, isNumber, fits, bytes, packed, rfl⟩
    refine ⟨number, isNumber, ?_⟩
    rw [if_neg (by omega), packed, Option.bind_some]

/-- A long field is written as given. -/
theorem write_long (plain : Plain field) (long : ¬ field.size < 4) :
    writeOtpField checkPblVersion field value device = some after ↔
      (value.drop 2).length % 2 = 0 ∧ ∃ bytes, fromHex (value.drop 2) = some bytes ∧
        afterWrite device field.address field.size bytes = after := by
  simp only [writeOtpField, plain.2, if_false, Option.bind_eq_bind, Option.bind_some, long,
    storeOtpField_plain plain]
  constructor
  · intro written
    split_ifs at written with odd
    obtain ⟨bytes, isHex, same⟩ := Option.bind_eq_some_iff.mp written
    exact ⟨by omega, bytes, isHex, Option.some.inj same⟩
  · rintro ⟨even, bytes, isHex, rfl⟩
    rw [if_neg (by omega), isHex, Option.bind_some]

/-- The word that a short field is written into, with its new bits. -/
def newWord (device : Device) (field : OtpField) (number : Nat) : Nat :=
  Nat.ldiff (Bytes.toNat (otpRead device field.address 4)) (bitMask field.offset field.length) |||
    (number <<< field.offset &&& bitMask field.offset field.length)

theorem testBit_newWord (device : Device) (field : OtpField) (number k : Nat) :
    (newWord device field number).testBit k =
      if field.offset ≤ k ∧ k < field.offset + field.length then number.testBit (k - field.offset)
      else (Bytes.toNat (otpRead device field.address 4)).testBit k :=
  testBit_setBits _ _ _ _ _

theorem write_short_natural (plain : Plain field) (short : field.size < 4) {number : Nat}
    (isNumber : readInt 16 value = some (number : Int)) :
    writeOtpField checkPblVersion field value device = some after ↔
      number < 2 ^ field.length ∧ newWord device field number < 2 ^ 32 ∧
        afterWrite device field.address 4 (Bytes.ofNat 4 (newWord device field number)) =
          after := by
  have mask : bitMask 0 field.length = 2 ^ field.length - 1 := by
    rw [bitMask, Nat.one_shiftLeft, Nat.shiftLeft_zero]
  have positive : 0 < 2 ^ field.length := Nat.two_pow_pos _
  rw [write_short plain short]
  constructor
  · rintro ⟨other, isOther, fits, bytes, packed, same⟩
    rw [isNumber] at isOther
    cases isOther
    rw [setBits_natCast] at packed
    obtain ⟨⟨-, inside⟩, isBytes⟩ := Bytes.pack_eq_some.mp packed
    rw [Int.toNat_natCast] at isBytes
    refine ⟨by omega, ?_, ?_⟩
    · exact_mod_cast inside
    · rw [newWord, isBytes, same]
  · rintro ⟨fits, inside, same⟩
    refine ⟨number, isNumber, by omega, _, ?_, same⟩
    rw [setBits_natCast, Bytes.pack_eq_some]
    refine ⟨⟨Int.natCast_nonneg _, ?_⟩, ?_⟩
    · exact_mod_cast inside
    · rw [Int.toNat_natCast, newWord]

theorem stored_newWord (device : Device) (field : OtpField) {number : Nat}
    (inside : newWord device field number < 2 ^ 32) :
    Bytes.toNat (storedBytes device (Bytes.ofNat 4 (newWord device field number)) 4) =
      newWord device field number := by
  rw [storedBytes_of_le device (by simp), List.take_of_length_le (by simp),
    Bytes.toNat_ofNat_of_lt (by simpa using inside)]

theorem testBit_field (word offset length i : Nat) :
    ((word &&& bitMask offset length) >>> offset).testBit i =
      (decide (i < length) && word.testBit (offset + i)) := by
  rw [Nat.testBit_shiftRight, Nat.testBit_and, testBit_bitMask, Bool.and_comm]
  congr 1
  apply decide_eq_decide.mpr
  omega

/-- A number below 2^length in the field of a word. -/
theorem field_of_bits {word offset length number : Nat} (fits : number < 2 ^ length)
    (bits : ∀ i < length, word.testBit (offset + i) = number.testBit i) :
    (word &&& bitMask offset length) >>> offset = number := by
  apply Nat.eq_of_testBit_eq
  intro i
  rw [testBit_field]
  by_cases inside : i < length
  · rw [decide_eq_true inside, Bool.true_and, bits i inside]
  · have high : number.testBit i = false :=
      Nat.testBit_lt_two_pow (Nat.lt_of_lt_of_le fits
        (Nat.pow_le_pow_right (by decide) (Nat.le_of_not_lt inside)))
    rw [decide_eq_false inside, Bool.false_and, high]

theorem numberBit_short (short : field.size < 4) (i : Nat) : numberBit field i = i := by
  have below : field.length < 48 := by
    rw [OtpField.size] at short
    omega
  rw [numberBit, if_pos below]

/-- A number that fits is stored in a field that lies in its word. -/
theorem stored_short (plain : Plain field) (short : field.size < 4)
    (inWord : field.length = 0 ∨ field.offset + field.length ≤ 32) {number : Nat}
    (isNumber : readInt 16 value = some (number : Int))
    (written : writeOtpField checkPblVersion field value device = some after) :
    Stored device after field value := by
  obtain ⟨fits, inside, rfl⟩ := (write_short_natural plain short isNumber).mp written
  have below : field.length < 48 := by
    rw [OtpField.size] at short
    omega
  have word := stored_newWord device field inside
  have fieldBits : ∀ i < field.length,
      (newWord device field number).testBit (field.offset + i) = number.testBit i := by
    intro i listed
    rw [testBit_newWord, if_pos (by omega), Nat.add_sub_cancel_left]
  constructor
  · refine ⟨number, by rw [valueNumber, isNumber, Option.some_or],
      ⟨Int.natCast_nonneg _, ?_, ?_⟩, ?_⟩
    · intro i listed
      rw [Nat.add_assoc, otpBit_afterWrite_inside _ _ _ _ (by omega), word, fieldBits i listed,
        Int.toNat_natCast, numberBit_short short]
    · intro k set
      rw [Int.toNat_natCast] at set
      refine ⟨k, ?_, numberBit_short short k⟩
      by_contra large
      have high := testBit_high fits (Nat.le_of_not_lt large)
      rw [set] at high
      cases high
    · have size : max 4 field.size = 4 := by omega
      rw [report_short _ below, size, otpRead_afterWrite, word, field_of_bits fits fieldBits]
  · intro i outside
    by_cases inWrite : 8 * field.address ≤ i ∧ i < 8 * (field.address + 4)
    · obtain ⟨k, rfl⟩ := Nat.exists_eq_add_of_le inWrite.1
      rw [otpBit_afterWrite_inside _ _ _ _ (by omega), word, testBit_newWord, if_neg (by omega),
        ← otpBit_otpRead device (by omega)]
    · exact otpBit_afterWrite_outside _ _ _ _ (by omega)

/-- Where a short value is stored on every device, its field lies in the word. -/
theorem inWord_of_stored (plain : Plain field) (short : field.size < 4) {number : Nat}
    (isNumber : readInt 16 value = some (number : Int))
    (written : writeOtpField checkPblVersion field value device = some after)
    (stores : ∀ device after, writeOtpField checkPblVersion field value device = some after →
      Stored device after field value) :
    field.length = 0 ∨ field.offset + field.length ≤ 32 := by
  by_contra outOfWord
  obtain ⟨fits, inside, -⟩ := (write_short_natural plain short isNumber).mp written
  obtain ⟨ones, isOnes⟩ : ∃ ones : Device, ones.otp = fun _ => 0xFF :=
    ⟨{ device with otp := fun _ => 0xFF }, rfl⟩
  -- The write is accepted whatever the word held before.
  have onesInside : newWord ones field number < 2 ^ 32 := by
    apply Nat.lt_pow_two_of_testBit
    intro k high
    rw [testBit_newWord]
    split_ifs with inField
    · have same := testBit_newWord device field number k
      rw [if_pos inField] at same
      rw [← same]
      exact testBit_high inside high
    · have small := Bytes.toNat_lt (otpRead ones field.address 4)
      rw [otpRead, List.length_ofFn] at small
      have below : Bytes.toNat (otpRead ones field.address 4) < 2 ^ 32 := small
      exact testBit_high below high
  have stored := stores ones _
    ((write_short_natural plain short isNumber).mpr ⟨fits, onesInside, rfl⟩)
  obtain ⟨held, isHeld, holds, -⟩ := stored.number
  rw [valueNumber, isNumber, Option.some_or] at isHeld
  cases isHeld
  have last := holds.bits (field.length - 1) (by omega)
  rw [numberBit_short short, Int.toNat_natCast,
    otpBit_afterWrite_outside _ _ _ _ (by omega)] at last
  have set : otpBit ones (8 * field.address + field.offset + (field.length - 1)) = true := by
    have bit : ∀ b < 8, (0xFF : UInt8).toNat.testBit b = true := by decide
    rw [otpBit, isOnes]
    exact bit _ (Nat.mod_lt _ (by decide))
  have same := testBit_newWord device field number (field.offset + (field.length - 1))
  rw [if_pos (by omega), Nat.add_sub_cancel_left, ← last, set] at same
  have beyond : 32 ≤ field.offset + (field.length - 1) := by omega
  have high := testBit_high inside beyond
  rw [same] at high
  cases high

end Short

section Long

variable {checkPblVersion : Device → Bool × Device} {field : OtpField} {value : Text}
variable {device after : Device}

/-- The bits of bytes in reverse. -/
theorem testBit_reverse (bytes : List UInt8) {i : Nat} (inside : i < 8 * bytes.length) :
    (Bytes.toNat bytes.reverse).testBit (8 * (bytes.length - 1 - i / 8) + i % 8) =
      (Bytes.toNat bytes).testBit i := by
  have byte : (8 * (bytes.length - 1 - i / 8) + i % 8) / 8 = bytes.length - 1 - i / 8 := by omega
  have bit : (8 * (bytes.length - 1 - i / 8) + i % 8) % 8 = i % 8 := by omega
  have mirrored : bytes.length - 1 - (bytes.length - 1 - i / 8) = i / 8 := by omega
  have early : i / 8 < bytes.length := by omega
  have late : bytes.length - 1 - i / 8 < bytes.reverse.length := by
    rw [List.length_reverse]
    omega
  rw [Bytes.testBit_toNat, Bytes.testBit_toNat, byte, bit, List.getD_eq_getElem _ _ late,
    List.getD_eq_getElem _ _ early, List.getElem_reverse]
  simp only [mirrored]

theorem testBit_bytesNumber {bytes : List UInt8} (whole : bytes.length = field.size) {i : Nat}
    (inside : i < 8 * field.size) :
    (bytesNumber field bytes).testBit (numberBit field i) = (Bytes.toNat bytes).testBit i := by
  rw [bytesNumber, numberBit]
  split_ifs
  · rfl
  · rw [← whole]
    exact testBit_reverse bytes (by omega)

theorem bytesNumber_lt {bytes : List UInt8} (whole : bytes.length = field.size) :
    bytesNumber field bytes < 2 ^ (8 * field.size) := by
  have size : 2 ^ (8 * field.size) = 256 ^ field.size := by rw [pow_mul]; rfl
  rw [bytesNumber, size, ← whole]
  split_ifs
  · exact Bytes.toNat_lt bytes
  · have below := Bytes.toNat_lt bytes.reverse
    rwa [List.length_reverse] at below

/-- A field of whole bytes is reported as the number of its bytes. -/
theorem report_whole (device : Device) (long : ¬ field.size < 4) (start : field.offset = 0)
    (whole : field.length = 8 * field.size) :
    readInt 16 (readOtpField device field).2 =
      some (bytesNumber field (otpRead device field.address field.size) : Int) := by
  rw [bytesNumber]
  split_ifs with below
  · have size : max 4 field.size = field.size := by omega
    have small := Bytes.toNat_lt (otpRead device field.address field.size)
    rw [otpRead, List.length_ofFn] at small
    have fits : Bytes.toNat (otpRead device field.address field.size) < 2 ^ (8 * field.size) := by
      rw [pow_mul]
      exact small
    rw [report_short device below, size, start, whole, field_of_bits fits]
    intro i inside
    rw [Nat.zero_add]
  · exact report_long device (Nat.le_of_not_lt below)

/-- Bytes that fill a field are stored as the number they stand for. -/
theorem stored_long (plain : Plain field) (long : ¬ field.size < 4) (start : field.offset = 0)
    (whole : field.length = 8 * field.size) {bytes : List UInt8}
    (isHex : fromHex (value.drop 2) = some bytes) (enough : field.size ≤ bytes.length)
    (isNumber : valueNumber value = some (bytesNumber field (bytes.take field.size) : Int))
    (written : writeOtpField checkPblVersion field value device = some after) :
    Stored device after field value := by
  obtain ⟨-, other, isOther, rfl⟩ := (write_long plain long).mp written
  rw [isHex] at isOther
  cases isOther
  have stored := storedBytes_of_le device enough
  have length : (bytes.take field.size).length = field.size := by simp [enough]
  constructor
  · refine ⟨_, isNumber, ⟨Int.natCast_nonneg _, ?_, ?_⟩, ?_⟩
    · intro i inside
      rw [whole] at inside
      rw [start, Nat.add_zero, otpBit_afterWrite_inside _ _ _ _ inside, stored, Int.toNat_natCast,
        testBit_bytesNumber length inside]
    · intro k set
      rw [Int.toNat_natCast] at set
      have small : k < 8 * field.size := by
        by_contra large
        have high := testBit_high (bytesNumber_lt length) (Nat.le_of_not_lt large)
        rw [set] at high
        cases high
      rw [whole]
      by_cases below : field.length < 48
      · exact ⟨k, small, by rw [numberBit, if_pos below]⟩
      · refine ⟨8 * (field.size - 1 - k / 8) + k % 8, by omega, ?_⟩
        rw [numberBit, if_neg below]
        omega
    · rw [report_whole _ long start whole, otpRead_afterWrite, stored]
  · intro i outside
    exact otpBit_afterWrite_outside _ _ _ _ (by omega)

theorem testBit_not (byte : UInt8) {i : Nat} (inside : i < 8) :
    (~~~ byte).toNat.testBit i = !byte.toNat.testBit i := by
  rw [← UInt8.toNat_toBitVec, ← UInt8.toNat_toBitVec, BitVec.testBit_toNat, BitVec.testBit_toNat,
    UInt8.toBitVec_not, BitVec.getLsbD_not, decide_eq_true inside, Bool.true_and]

section Necessary

variable (plain : Plain field) (long : ¬ field.size < 4) {bytes : List UInt8}
variable (even : (value.drop 2).length % 2 = 0) (isHex : fromHex (value.drop 2) = some bytes)
variable (stores : ∀ device after, writeOtpField checkPblVersion field value device = some after →
  Stored device after field value)

include plain long even isHex stores

theorem stored_of_stores (device : Device) :
    Stored device (afterWrite device field.address field.size bytes) field value :=
  stores device _ ((write_long plain long).mpr ⟨even, bytes, isHex, rfl⟩)

/-- Every bit that a write touches belongs to the field. -/
theorem covered_of_stores {i : Nat} (inside : i < 8 * field.size) :
    field.offset ≤ i ∧ i < field.offset + field.length := by
  by_contra outside
  -- A device whose OTP differs from the written bytes in every bit.
  obtain ⟨device, isBuffer, isOtp⟩ : ∃ device : Device, device.paramBuffer = (fun _ => 0) ∧
      device.otp = fun a => ~~~ (bytes.getD (a - field.address) 0) :=
    ⟨⟨fun a => ~~~ (bytes.getD (a - field.address) 0), fun _ => 0⟩, rfl, rfl⟩
  have kept := (stored_of_stores plain long even isHex stores device).frame
    (8 * field.address + i) (by omega)
  have number : (8 * field.address + i) / 8 = field.address + i / 8 := by omega
  have bit : (8 * field.address + i) % 8 = i % 8 := by omega
  have early : i / 8 < field.size := by omega
  rw [otpBit_afterWrite_inside _ _ _ _ inside, Bytes.testBit_toNat,
    List.getD_eq_getElem _ _ (by rwa [length_storedBytes]), otpBit, number, bit, isOtp] at kept
  simp only [storedBytes, List.getElem_ofFn, isBuffer, Nat.add_sub_cancel_left] at kept
  rw [testBit_not _ (Nat.mod_lt i (by decide))] at kept
  exact Bool.self_ne_not _ kept

theorem start_of_stores : field.offset = 0 := by
  have first : 0 < 8 * field.size := by omega
  have covered := covered_of_stores plain long even isHex stores first
  omega

theorem whole_of_stores : field.length = 8 * field.size := by
  have last : 8 * field.size - 1 < 8 * field.size := by omega
  have covered := covered_of_stores plain long even isHex stores last
  have start := start_of_stores plain long even isHex stores
  rw [OtpField.size] at covered ⊢
  omega

/-- The bytes given leave nothing of the parameter buffer to be stored. -/
theorem enough_of_stores : field.size ≤ bytes.length := by
  by_contra short
  have start := start_of_stores plain long even isHex stores
  have whole := whole_of_stores plain long even isHex stores
  have inside : 8 * (field.size - 1) < 8 * field.size := by omega
  -- The last byte comes from the buffer, the number does not.
  have last : ∀ fill : UInt8, ∃ number, valueNumber value = some number ∧
      fill.toNat.testBit 0 = number.toNat.testBit (numberBit field (8 * (field.size - 1))) := by
    intro fill
    obtain ⟨device, isBuffer⟩ : ∃ device : Device, device.paramBuffer = fun _ => fill :=
      ⟨⟨fun _ => 0, fun _ => fill⟩, rfl⟩
    obtain ⟨number, isNumber, holds, -⟩ :=
      (stored_of_stores plain long even isHex stores device).number
    refine ⟨number, isNumber, ?_⟩
    have bit := holds.bits (8 * (field.size - 1)) (by omega)
    have byte : 8 * (field.size - 1) / 8 = field.size - 1 := by omega
    have low : 8 * (field.size - 1) % 8 = 0 := by omega
    have early : field.size - 1 < (storedBytes device bytes field.size).length := by
      rw [length_storedBytes]
      omega
    rw [start, Nat.add_zero, otpBit_afterWrite_inside _ _ _ _ inside, Bytes.testBit_toNat,
      byte, low, List.getD_eq_getElem _ _ early] at bit
    rw [← bit]
    simp only [storedBytes, List.getElem_ofFn, isBuffer]
    rw [List.getD_eq_default _ _ (by omega)]
  obtain ⟨number, isNumber, clear⟩ := last 0
  obtain ⟨other, isOther, set⟩ := last 1
  rw [isNumber] at isOther
  cases isOther
  rw [← clear] at set
  cases set

theorem number_of_stores :
    valueNumber value = some (bytesNumber field (bytes.take field.size) : Int) := by
  have enough := enough_of_stores plain long even isHex stores
  obtain ⟨device⟩ : Nonempty Device := ⟨⟨fun _ => 0, fun _ => 0⟩⟩
  obtain ⟨number, isNumber, -, report⟩ :=
    (stored_of_stores plain long even isHex stores device).number
  rw [report_whole _ long (start_of_stores plain long even isHex stores)
    (whole_of_stores plain long even isHex stores), otpRead_afterWrite,
    storedBytes_of_le device enough] at report
  rw [isNumber, report]

end Necessary

/-- The tool stores exactly the storable ones among the values it accepts. -/
theorem writeOtpField_stores_iff (plain : Plain field)
    (accepted : ∃ device, (writeOtpField checkPblVersion field value device).isSome = true) :
    (∀ device after, writeOtpField checkPblVersion field value device = some after →
      Stored device after field value) ↔ Storable field value := by
  obtain ⟨device, accepts⟩ := accepted
  obtain ⟨after, written⟩ := Option.isSome_iff_exists.mp accepts
  rw [Storable]
  by_cases short : field.size < 4
  · obtain ⟨number, isNumber, -⟩ := (write_short plain short).mp written
    have isValue : valueNumber value = some number := by rw [valueNumber, isNumber, Option.some_or]
    rw [if_pos short, isValue]
    constructor
    · intro stores
      obtain ⟨held, isHeld, holds, -⟩ := (stores device after written).number
      rw [isValue] at isHeld
      cases isHeld
      obtain ⟨natural, rfl⟩ := Int.eq_ofNat_of_zero_le holds.natural
      exact ⟨inWord_of_stored plain short isNumber written stores, _, rfl, holds.natural⟩
    · rintro ⟨inWord, other, isOther, positive⟩ device after written
      cases isOther
      obtain ⟨natural, rfl⟩ := Int.eq_ofNat_of_zero_le positive
      exact stored_short plain short inWord isNumber written
  · obtain ⟨even, bytes, isHex, -⟩ := (write_long plain short).mp written
    rw [if_neg short]
    constructor
    · intro stores
      exact ⟨start_of_stores plain short even isHex stores,
        whole_of_stores plain short even isHex stores, bytes, isHex,
        enough_of_stores plain short even isHex stores,
        number_of_stores plain short even isHex stores⟩
    · rintro ⟨start, whole, given, isGiven, enough, isNumber⟩ device after written
      exact stored_long plain short start whole isGiven enough isNumber written

/-- `MAC_ADDRESSES` of the field list. -/
def macAddresses : OtpField where
  name := "MAC_ADDRESSES"
  address := 0x1C0
  offset := 0
  length := 48

/-- No version check, for the fields that do not need it. -/
def noCheck (device : Device) : Bool × Device := (false, device)

/-- A fresh OTP behind a buffer of some earlier command. -/
def usedDevice : Device where
  otp := fun _ => 0
  paramBuffer := fun _ => 0x5A

theorem writeOtpField_macAddresses :
    Stored usedDevice (afterWrite usedDevice 0x1C0 6 [0x00, 0x11, 0x22, 0x33, 0x44, 0x55])
      macAddresses ['0', 'x', '0', '0', '1', '1', '2', '2', '3', '3', '4', '4', '5', '5'] := by
  have plain : Plain macAddresses := by constructor <;> decide
  have written : writeOtpField noCheck macAddresses
      ['0', 'x', '0', '0', '1', '1', '2', '2', '3', '3', '4', '4', '5', '5'] usedDevice =
        some (afterWrite usedDevice 0x1C0 6 [0x00, 0x11, 0x22, 0x33, 0x44, 0x55]) :=
    (write_long plain (by decide)).mpr
      ⟨by decide, [0x00, 0x11, 0x22, 0x33, 0x44, 0x55], by decide +kernel, rfl⟩
  refine (writeOtpField_stores_iff plain ⟨usedDevice, by rw [written]; rfl⟩).mpr ?_ _ _ written
  rw [Storable, if_neg (by decide)]
  exact ⟨rfl, rfl, _, rfl, by decide, by decide +kernel⟩

/-- A value of two bytes for a field of six is stored with four bytes of the
buffer. -/
theorem writeOtpField_leaks :
    ¬ ∀ (field : OtpField) (value : Text) (device after : Device), Plain field →
      writeOtpField noCheck field value device = some after → Stored device after field value := by
  intro stores
  have plain : Plain macAddresses := by constructor <;> decide
  have written : writeOtpField noCheck macAddresses ['0', 'x', '0', '0', '1', '1'] usedDevice =
      some (afterWrite usedDevice 0x1C0 6 [0x00, 0x11]) :=
    (write_long plain (by decide)).mpr ⟨by decide, [0x00, 0x11], by decide +kernel, rfl⟩
  obtain ⟨number, isNumber, -, report⟩ := (stores _ _ _ _ plain written).number
  have meant : valueNumber ['0', 'x', '0', '0', '1', '1'] = some 0x11 := by decide +kernel
  have read : readInt 16 (readOtpField (afterWrite usedDevice 0x1C0 6 [0x00, 0x11])
      macAddresses).2 = some 0x115A5A5A5A := by decide +kernel
  rw [← isNumber, meant, read] at report
  cases report

end Long

end QHal.Nvm
