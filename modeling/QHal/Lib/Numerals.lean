/-
Module: QHal.Lib.Numerals
Purpose: The text of integers: numerals written in a base, and the reader of
  integer literals with signs, base prefixes and underscores (ASCII).
Trusted boundary: none
Main exports: Text, strip, readNumber, readInt, decimal, hexLower, hexUpper, readInt_decimal,
  readInt_hex, readInt_bounds
-/
import Mathlib.Data.List.DropRight
import Mathlib.Data.Char
import Mathlib.Tactic.Cases
import Mathlib.Tactic.Ring

namespace QHal.Numerals

abbrev Text := List Char

/-- The ASCII blanks. -/
def isSpace (c : Char) : Bool :=
  c ∈ [' ', '\t', '\n', '\x0b', '\x0c', '\r', '\x1c', '\x1d', '\x1e', '\x1f']

/-- A text without the blanks around it. -/
def strip (text : Text) : Text :=
  (text.dropWhile isSpace).rdropWhile isSpace

def digitValue (c : Char) : Option Nat :=
  if 48 ≤ c.toNat ∧ c.toNat ≤ 57 then some (c.toNat - 48)
  else if 97 ≤ c.toNat ∧ c.toNat ≤ 122 then some (c.toNat - 87)
  else if 65 ≤ c.toNat ∧ c.toNat ≤ 90 then some (c.toNat - 55)
  else none

/-- The value of a digit of a base. -/
def digitIn (base : Nat) (c : Char) : Option Nat :=
  (digitValue c).filter (· < base)

/-- The digits behind the first one; single underscores may stand between them. -/
def readDigits (base : Nat) : Nat → Text → Option Nat
  | value, [] => some value
  | value, '_' :: c :: rest =>
      (digitIn base c).bind fun digit => readDigits base (base * value + digit) rest
  | value, c :: rest =>
      (digitIn base c).bind fun digit => readDigits base (base * value + digit) rest

def readNumber (base : Nat) : Text → Option Nat
  | [] => none
  | c :: rest => (digitIn base c).bind fun digit => readDigits base digit rest

/-- The base that the letter of a prefix stands for. -/
def radixOf (letter : Char) : Option Nat :=
  if letter = 'x' ∨ letter = 'X' then some 16
  else if letter = 'o' ∨ letter = 'O' then some 8
  else if letter = 'b' ∨ letter = 'B' then some 2
  else none

/-- A number without prefix.  Base 0 is decimal, and only zero may begin with
the digit 0 there. -/
def readPlain (base : Nat) (text : Text) : Option Nat :=
  if base = 0 then
    (readNumber 10 text).filter fun value => text.head? ≠ some '0' || value = 0
  else readNumber base text

/-- A number with the prefix that its base allows. -/
def readUnsigned (base : Nat) : Text → Option Nat
  | '0' :: letter :: rest =>
      if (radixOf letter).any fun radix => base = 0 || base = radix then
        (radixOf letter).bind fun radix =>
          readNumber radix (if rest.head? = some '_' then rest.tail else rest)
      else readPlain base ('0' :: letter :: rest)
  | text => readPlain base text

/-- An integer literal in a base, base 0 for the base of its prefix. -/
def readInt (base : Nat) (text : Text) : Option Int :=
  match strip text with
  | '-' :: rest => (readUnsigned base rest).map fun value : Nat => -(value : Int)
  | '+' :: rest => (readUnsigned base rest).map fun value : Nat => (value : Int)
  | rest => (readUnsigned base rest).map fun value : Nat => (value : Int)

/-- The decimal text of an integer. -/
def decimal : Int → Text
  | .ofNat value => Nat.toDigits 10 value
  | .negSucc value => '-' :: Nat.toDigits 10 (value + 1)

/-- The hexadecimal text of an integer, with its prefix. -/
def hexLower : Int → Text
  | .ofNat value => '0' :: 'x' :: Nat.toDigits 16 value
  | .negSucc value => '-' :: '0' :: 'x' :: Nat.toDigits 16 (value + 1)

/-- Hexadecimal digits in capitals, without prefix. -/
def hexUpper : Int → Text
  | .ofNat value => (Nat.toDigits 16 value).map Char.toUpper
  | .negSucc value => '-' :: (Nat.toDigits 16 (value + 1)).map Char.toUpper

section Digits

theorem digitIn_underscore (base : Nat) : digitIn base '_' = none := rfl

theorem digitIn_digitChar {base digit : Nat} (small : base ≤ 16) (inside : digit < base) :
    digitIn base digit.digitChar = some digit := by
  have value : digitValue digit.digitChar = some digit := by
    have below : digit < 16 := Nat.lt_of_lt_of_le inside small
    clear inside
    decide +revert
  rw [digitIn, value, Option.filter_some, if_pos (by simpa using inside)]

theorem digitIn_toUpper {base digit : Nat} (small : base ≤ 16) (inside : digit < base) :
    digitIn base digit.digitChar.toUpper = some digit := by
  have value : digitValue digit.digitChar.toUpper = some digit := by
    have below : digit < 16 := Nat.lt_of_lt_of_le inside small
    clear inside
    decide +revert
  rw [digitIn, value, Option.filter_some, if_pos (by simpa using inside)]

theorem readDigits_cons {base digit : Nat} {c : Char} (isDigit : digitIn base c = some digit)
    (value : Nat) (rest : Text) :
    readDigits base value (c :: rest) = readDigits base (base * value + digit) rest := by
  have other : c ≠ '_' := by
    rintro rfl
    rw [digitIn_underscore] at isDigit
    cases isDigit
  rw [readDigits.eq_3 base value c rest fun next tail same => absurd same other, isDigit,
    Option.bind_some]

theorem readDigits_append {base digit value result : Nat} {text : Text} {c : Char}
    (read : readDigits base value text = some result) (isDigit : digitIn base c = some digit) :
    readDigits base value (text ++ [c]) = some (base * result + digit) := by
  induction value, text using readDigits.induct base with
  | case1 value =>
      cases read
      rw [List.nil_append, readDigits_cons isDigit, readDigits]
  | case2 value next rest ih =>
      rw [readDigits] at read
      obtain ⟨first, isFirst, later⟩ := Option.bind_eq_some_iff.mp read
      rw [List.cons_append, List.cons_append, readDigits, isFirst, Option.bind_some]
      exact ih first later
  | case3 value next rest plain ih =>
      rw [readDigits.eq_3 base value next rest plain] at read
      obtain ⟨first, isFirst, later⟩ := Option.bind_eq_some_iff.mp read
      rw [List.cons_append, readDigits_cons isFirst]
      exact ih first later

theorem readNumber_append {base digit value : Nat} {text : Text} {c : Char}
    (read : readNumber base text = some value) (isDigit : digitIn base c = some digit) :
    readNumber base (text ++ [c]) = some (base * value + digit) := by
  cases text with
  | nil => cases read
  | cons first rest =>
      obtain ⟨leading, isFirst, later⟩ := Option.bind_eq_some_iff.mp read
      rw [List.cons_append, readNumber, isFirst, Option.bind_some]
      exact readDigits_append later isDigit

/-- A numeral is read back, whatever the shape of its digits. -/
theorem readNumber_toDigits {base : Nat} (two : 1 < base) (shape : Char → Char)
    (shaped : ∀ digit < base, digitIn base (shape digit.digitChar) = some digit) (value : Nat) :
    readNumber base ((Nat.toDigits base value).map shape) = some value := by
  induction value using Nat.base_induction base two with
  | single digit inside =>
      rw [Nat.toDigits_of_lt_base inside, List.map_cons, List.map_nil, readNumber,
        shaped digit inside]
      rfl
  | digit leading digit inside positive ih =>
      rw [← Nat.toDigits_append_toDigits two positive inside, List.map_append,
        Nat.toDigits_of_lt_base inside]
      exact readNumber_append ih (shaped digit inside)

theorem mem_toDigits {base value : Nat} (two : 1 < base) {c : Char}
    (listed : c ∈ Nat.toDigits base value) : ∃ digit < base, c = digit.digitChar := by
  induction value using Nat.base_induction base two with
  | single digit inside =>
      rw [Nat.toDigits_of_lt_base inside, List.mem_singleton] at listed
      exact ⟨digit, inside, listed⟩
  | digit leading digit inside positive ih =>
      rw [← Nat.toDigits_append_toDigits two positive inside, List.mem_append,
        Nat.toDigits_of_lt_base inside, List.mem_singleton] at listed
      rcases listed with before | last
      · exact ih before
      · exact ⟨digit, inside, last⟩

/-- No numeral but zero begins with the digit 0. -/
theorem head_toDigits {base value : Nat} (two : 1 < base) (positive : 0 < value) :
    ∃ digit rest, 0 < digit ∧ digit < base ∧
      Nat.toDigits base value = digit.digitChar :: rest := by
  induction value using Nat.base_induction base two with
  | single digit inside => exact ⟨digit, [], positive, inside, Nat.toDigits_of_lt_base inside⟩
  | digit leading digit inside leads ih =>
      obtain ⟨first, rest, notZero, small, begins⟩ := ih leads
      refine ⟨first, rest ++ Nat.toDigits base digit, notZero, small, ?_⟩
      rw [← Nat.toDigits_append_toDigits two leads inside, begins, List.cons_append]

end Digits

section Literals

theorem strip_of_solid {text : Text} (solid : ∀ c ∈ text, isSpace c = false) :
    strip text = text := by
  have front : text.dropWhile isSpace = text := by
    cases text with
    | nil => rfl
    | cons c rest => rw [List.dropWhile_cons, solid c List.mem_cons_self]; rfl
  rw [strip, front, List.rdropWhile_eq_self_iff]
  intro notEmpty
  rw [solid _ (List.getLast_mem notEmpty)]
  decide

theorem solid_digitChar {digit : Nat} (inside : digit < 16) : isSpace digit.digitChar = false := by
  decide +revert

theorem solid_toUpper {digit : Nat} (inside : digit < 16) :
    isSpace digit.digitChar.toUpper = false := by
  decide +revert

theorem digitChar_plain {digit : Nat} (inside : digit < 16) :
    digit.digitChar ≠ '-' ∧ digit.digitChar ≠ '+' ∧ (0 < digit → digit.digitChar ≠ '0') := by
  decide +revert

theorem readUnsigned_decimal {base : Nat} (isDecimal : base = 0 ∨ base = 10) (value : Nat) :
    readUnsigned base (Nat.toDigits 10 value) = some value := by
  have read : readNumber 10 (Nat.toDigits 10 value) = some value := by
    have shaped := readNumber_toDigits (by decide : 1 < 10) id
      (fun digit inside => digitIn_digitChar (by decide) inside) value
    rwa [List.map_id] at shaped
  rcases Nat.eq_zero_or_pos value with rfl | positive
  · rcases isDecimal with rfl | rfl <;> rfl
  · obtain ⟨digit, rest, notZero, small, begins⟩ := head_toDigits (by decide : 1 < 10) positive
    have leading := (digitChar_plain (Nat.lt_trans small (by decide))).2.2 notZero
    rw [begins] at read ⊢
    rw [readUnsigned.eq_2 base _ (fun letter tail same => leading (List.cons.inj same).1),
      readPlain]
    rcases isDecimal with rfl | rfl
    · rw [if_pos rfl, read, Option.filter_some, if_pos]
      simp [leading]
    · rw [if_neg (by decide), read]

/-- A prefix `0x` or `0X` is skipped. -/
theorem readUnsigned_hex {base value : Nat} (isHex : base = 0 ∨ base = 16) {letter : Char}
    (isX : letter = 'x' ∨ letter = 'X') {digits : Text}
    (read : readNumber 16 digits = some value) :
    readUnsigned base ('0' :: letter :: digits) = some value := by
  have direct : digits.head? ≠ some '_' := by
    intro underscore
    cases digits with
    | nil => cases underscore
    | cons c rest =>
        cases underscore
        rw [readNumber, digitIn_underscore] at read
        cases read
  have radix : radixOf letter = some 16 := by rcases isX with rfl | rfl <;> rfl
  rw [readUnsigned, radix, if_pos, Option.bind_some, if_neg direct, read]
  rcases isHex with rfl | rfl <;> decide

/-- A text without sign is read as a number. -/
theorem readInt_of_unsigned {base value : Nat} {c : Char} {rest : Text}
    (solid : ∀ d ∈ c :: rest, isSpace d = false) (minus : c ≠ '-') (plus : c ≠ '+')
    (read : readUnsigned base (c :: rest) = some value) :
    readInt base (c :: rest) = some (value : Int) := by
  rw [readInt, strip_of_solid solid]
  split
  · next same => exact absurd (List.cons.inj same).1 minus
  · next same => exact absurd (List.cons.inj same).1 plus
  · rw [read]
    rfl

theorem readInt_negative {base value : Nat} {text : Text} (solid : ∀ c ∈ text, isSpace c = false)
    (read : readUnsigned base text = some value) :
    readInt base ('-' :: text) = some (-(value : Int)) := by
  have noBlank : ∀ c ∈ '-' :: text, isSpace c = false := by
    intro c listed
    rcases List.mem_cons.mp listed with rfl | later
    · rfl
    · exact solid c later
  rw [readInt, strip_of_solid noBlank]
  simp only [read, Option.map_some]

theorem solid_toDigits {base : Nat} (two : 1 < base) (small : base ≤ 16) (value : Nat) :
    ∀ c ∈ Nat.toDigits base value, isSpace c = false := by
  intro c listed
  obtain ⟨digit, inside, rfl⟩ := mem_toDigits two listed
  exact solid_digitChar (Nat.lt_of_lt_of_le inside small)

/-- The decimal text of an integer is read back, with base 0 and with base 10. -/
theorem readInt_decimal {base : Nat} (isDecimal : base = 0 ∨ base = 10) (value : Int) :
    readInt base (decimal value) = some value := by
  have solid := solid_toDigits (by decide : 1 < 10) (by decide)
  cases value with
  | ofNat value =>
      have read := readUnsigned_decimal isDecimal value
      have noBlank := solid value
      have digits := fun c (listed : c ∈ Nat.toDigits 10 value) => mem_toDigits (by decide) listed
      rw [decimal]
      cases text : Nat.toDigits 10 value with
      | nil => exact absurd text Nat.toDigits_ne_nil
      | cons c rest =>
          rw [text] at read noBlank digits
          obtain ⟨digit, inside, rfl⟩ := digits c List.mem_cons_self
          obtain ⟨minus, plus, -⟩ := digitChar_plain (Nat.lt_trans inside (by decide))
          exact readInt_of_unsigned noBlank minus plus read
  | negSucc value =>
      rw [decimal,
        readInt_negative (solid (value + 1)) (readUnsigned_decimal isDecimal (value + 1))]
      rfl

/-- A number in hexadecimal with its prefix is read back, with base 0 and with
base 16. -/
theorem readInt_hex {base value : Nat} (isHex : base = 0 ∨ base = 16) {letter : Char}
    (isX : letter = 'x' ∨ letter = 'X') {digits : Text} (solid : ∀ c ∈ digits, isSpace c = false)
    (read : readNumber 16 digits = some value) :
    readInt base ('0' :: letter :: digits) = some (value : Int) := by
  refine readInt_of_unsigned ?_ (by decide) (by decide) (readUnsigned_hex isHex isX read)
  intro c listed
  simp only [List.mem_cons] at listed
  rcases listed with rfl | rfl | digit
  · rfl
  · rcases isX with rfl | rfl <;> rfl
  · exact solid c digit

theorem readNumber_upper (value : Nat) :
    readNumber 16 ((Nat.toDigits 16 value).map Char.toUpper) = some value :=
  readNumber_toDigits (by decide) Char.toUpper
    (fun _ inside => digitIn_toUpper (by decide) inside) value

theorem solid_upper (value : Nat) :
    ∀ c ∈ (Nat.toDigits 16 value).map Char.toUpper, isSpace c = false := by
  intro c listed
  obtain ⟨raw, isRaw, rfl⟩ := List.mem_map.mp listed
  obtain ⟨digit, inside, rfl⟩ := mem_toDigits (by decide) isRaw
  exact solid_toUpper inside

theorem readInt_hexLower {base : Nat} (isHex : base = 0 ∨ base = 16) (value : Nat) :
    readInt base (hexLower value) = some (value : Int) := by
  have read := readNumber_toDigits (by decide : 1 < 16) id
    (fun _ inside => digitIn_digitChar (by decide) inside) value
  rw [List.map_id] at read
  exact readInt_hex isHex (.inl rfl) (solid_toDigits (by decide) (by decide) value) read

theorem readInt_hexUpper {base : Nat} (isHex : base = 0 ∨ base = 16) (value : Nat) :
    readInt base ('0' :: 'x' :: hexUpper value) = some (value : Int) :=
  readInt_hex isHex (.inl rfl) (solid_upper value) (readNumber_upper value)

/-- Hexadecimal text in capitals is read back too. -/
theorem readInt_upper {base : Nat} (isHex : base = 0 ∨ base = 16) (value : Nat) :
    readInt base ((hexLower value).map Char.toUpper) = some (value : Int) :=
  readInt_hex isHex (.inr rfl) (solid_upper value) (readNumber_upper value)

end Literals

section Bounds

variable {base value number : Nat} {text : Text}

theorem digitIn_lt {c : Char} (isDigit : digitIn base c = some value) : value < base := by
  have kept := (Option.filter_eq_some_iff.mp isDigit).2
  simpa using kept

/-- The value of some digits is below that of as many digits and one in front. -/
theorem readDigits_lt (read : readDigits base value text = some number) :
    number < (value + 1) * base ^ text.length := by
  induction value, text using readDigits.induct base with
  | case1 value =>
      cases read
      rw [List.length_nil, pow_zero, Nat.mul_one]
      exact Nat.lt_succ_self _
  | case2 value c rest ih =>
      rw [readDigits] at read
      obtain ⟨digit, isDigit, later⟩ := Option.bind_eq_some_iff.mp read
      have positive := Nat.zero_lt_of_lt (digitIn_lt isDigit)
      calc number < (base * value + digit + 1) * base ^ rest.length := ih digit later
        _ ≤ (base * value + base) * base ^ rest.length :=
            Nat.mul_le_mul_right _ (Nat.add_le_add_left (digitIn_lt isDigit) _)
        _ = (value + 1) * base ^ (rest.length + 1) := by ring
        _ ≤ (value + 1) * base ^ (rest.length + 2) :=
            Nat.mul_le_mul_left _ (Nat.pow_le_pow_right positive (Nat.le_succ _))
  | case3 value c rest plain ih =>
      rw [readDigits.eq_3 base value c rest plain] at read
      obtain ⟨digit, isDigit, later⟩ := Option.bind_eq_some_iff.mp read
      calc number < (base * value + digit + 1) * base ^ rest.length := ih digit later
        _ ≤ (base * value + base) * base ^ rest.length :=
            Nat.mul_le_mul_right _ (Nat.add_le_add_left (digitIn_lt isDigit) _)
        _ = (value + 1) * base ^ (rest.length + 1) := by ring

theorem readNumber_lt (read : readNumber base text = some number) :
    number < base ^ text.length := by
  cases text with
  | nil => cases read
  | cons c rest =>
      obtain ⟨digit, isDigit, later⟩ := Option.bind_eq_some_iff.mp read
      calc number < (digit + 1) * base ^ rest.length := readDigits_lt later
        _ ≤ base * base ^ rest.length := Nat.mul_le_mul_right _ (digitIn_lt isDigit)
        _ = base ^ (rest.length + 1) := by ring

theorem readUnsigned_lt (positive : 0 < base) (read : readUnsigned base text = some number) :
    number < base ^ text.length := by
  have plain : ∀ text : Text, readPlain base text = some number → number < base ^ text.length := by
    intro text read
    rw [readPlain, if_neg (Nat.ne_of_gt positive)] at read
    exact readNumber_lt read
  unfold readUnsigned at read
  split at read
  · rename_i letter rest
    split at read
    · rename_i allowed
      obtain ⟨radix, isRadix, later⟩ := Option.bind_eq_some_iff.mp read
      rw [isRadix, Option.any_some] at allowed
      have same : base = radix := by
        have either : base = 0 ∨ base = radix := by simpa using allowed
        exact either.resolve_left (Nat.ne_of_gt positive)
      have shorter : (if rest.head? = some '_' then rest.tail else rest).length ≤
          ('0' :: letter :: rest).length := by
        split
        · rw [List.length_tail, List.length_cons, List.length_cons]
          omega
        · rw [List.length_cons, List.length_cons]
          omega
      rw [← same] at later
      exact Nat.lt_of_lt_of_le (readNumber_lt later) (Nat.pow_le_pow_right positive shorter)
    · exact plain _ read
  · exact plain _ read

theorem mem_strip {c : Char} (listed : c ∈ strip text) : c ∈ text :=
  (List.dropWhile_sublist _).subset ((List.rdropWhile_prefix _ _).subset listed)

theorem length_strip_le (text : Text) : (strip text).length ≤ text.length :=
  Nat.le_trans (List.rdropWhile_prefix _ _).length_le (List.dropWhile_sublist _).length_le

/-- A text without a minus sign is read as a number of at most as many digits. -/
theorem readInt_bounds {number : Int} (positive : 0 < base) (noSign : '-' ∉ text)
    (read : readInt base text = some number) :
    0 ≤ number ∧ number < ((base ^ text.length : Nat) : Int) := by
  have short := length_strip_le text
  have bounds : ∀ rest : Text, rest.length ≤ text.length →
      (readUnsigned base rest).map (fun value : Nat => (value : Int)) = some number →
        0 ≤ number ∧ number < ((base ^ text.length : Nat) : Int) := by
    intro rest shorter read
    obtain ⟨value, isValue, rfl⟩ := Option.map_eq_some_iff.mp read
    have below := Nat.lt_of_lt_of_le (readUnsigned_lt positive isValue)
      (Nat.pow_le_pow_right positive shorter)
    omega
  unfold readInt at read
  split at read
  · rename_i rest same
    exact absurd (mem_strip (same ▸ List.mem_cons_self)) noSign
  · rename_i rest same
    rw [same, List.length_cons] at short
    exact bounds rest (Nat.le_of_succ_le short) read
  · exact bounds _ short read

end Bounds

end QHal.Numerals
