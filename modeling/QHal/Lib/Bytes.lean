/-
Module: QHal.Lib.Bytes
Purpose: Numbers as bytes, the least significant first, and the fields of a
  packed record.
Trusted boundary: none
Main exports: Bytes.ofNat, Bytes.toNat, Bytes.pack, Bytes.Placed, Bytes.toNat_ofNat,
  Bytes.ofNat_toNat, Bytes.pack_eq_some, Bytes.placed_append
-/
import Mathlib.Data.List.GetD
import Mathlib.Data.Nat.Bitwise
import Mathlib.Tactic.Ring
import Mathlib.Tactic.Zify

namespace QHal.Bytes

/-- The lowest `width` bytes of a number. -/
def ofNat : Nat → Nat → List UInt8
  | 0, _ => []
  | width + 1, value => UInt8.ofNat value :: ofNat width (value / 256)

def toNat : List UInt8 → Nat
  | [] => 0
  | byte :: bytes => byte.toNat + 256 * toNat bytes

/-- An unsigned field of a packed record: a value out of its range is refused. -/
def pack (width : Nat) (value : Int) : Option (List UInt8) :=
  if 0 ≤ value ∧ value < 256 ^ width then some (ofNat width value.toNat) else none

/-- A buffer holds some bytes from an offset on. -/
def Placed (buffer : Nat → UInt8) (offset : Nat) (bytes : List UInt8) : Prop :=
  ∀ i (inside : i < bytes.length), buffer (offset + i) = bytes[i]

@[simp]
theorem length_ofNat (width value : Nat) : (ofNat width value).length = width := by
  induction width generalizing value with
  | zero => rfl
  | succ width ih => rw [ofNat, List.length_cons, ih]

theorem toNat_lt (bytes : List UInt8) : toNat bytes < 256 ^ bytes.length := by
  induction bytes with
  | nil => exact Nat.one_pos
  | cons byte bytes ih =>
      have small : byte.toNat < 256 := byte.toNat_lt
      rw [toNat, List.length_cons, pow_succ]
      omega

theorem toNat_ofNat (width value : Nat) : toNat (ofNat width value) = value % 256 ^ width := by
  induction width generalizing value with
  | zero => simp [ofNat, toNat, Nat.mod_one]
  | succ width ih =>
      have low : (UInt8.ofNat value).toNat = value % 256 := UInt8.toNat_ofNat'
      rw [ofNat, toNat, ih, low, pow_succ', Nat.mod_mul]

theorem toNat_ofNat_of_lt {width value : Nat} (inside : value < 256 ^ width) :
    toNat (ofNat width value) = value := by
  rw [toNat_ofNat, Nat.mod_eq_of_lt inside]

theorem ofNat_toNat (bytes : List UInt8) : ofNat bytes.length (toNat bytes) = bytes := by
  induction bytes with
  | nil => rfl
  | cons byte bytes ih =>
      have small : byte.toNat < 256 := byte.toNat_lt
      have rest : (byte.toNat + 256 * toNat bytes) / 256 = toNat bytes := by omega
      have head : UInt8.ofNat (byte.toNat + 256 * toNat bytes) = byte := by
        apply UInt8.toNat_inj.mp
        rw [UInt8.toNat_ofNat']
        omega
      rw [List.length_cons, toNat, ofNat, rest, ih, head]

theorem toNat_append (first second : List UInt8) :
    toNat (first ++ second) = toNat first + 256 ^ first.length * toNat second := by
  induction first with
  | nil => simp [toNat]
  | cons byte first ih =>
      rw [List.cons_append, toNat, toNat, ih, List.length_cons, pow_succ']
      ring

theorem pack_eq_some {width : Nat} {value : Int} {bytes : List UInt8} :
    pack width value = some bytes ↔
      (0 ≤ value ∧ value < 256 ^ width) ∧ ofNat width value.toNat = bytes := by
  unfold pack
  split_ifs with inside
  · simp [inside]
  · simp [inside]

/-- The bits of a number are the bits of its bytes. -/
theorem testBit_toNat (bytes : List UInt8) (i : Nat) :
    (toNat bytes).testBit i = (bytes.getD (i / 8) 0).toNat.testBit (i % 8) := by
  induction bytes generalizing i with
  | nil => simp [toNat]
  | cons byte bytes ih =>
      have small : byte.toNat < 2 ^ 8 := byte.toNat_lt
      have value : toNat (byte :: bytes) = 2 ^ 8 * toNat bytes + byte.toNat := by
        rw [toNat, Nat.add_comm]
        rfl
      rw [value, Nat.testBit_two_pow_mul_add _ small]
      split_ifs with low
      · rw [Nat.div_eq_of_lt low, Nat.mod_eq_of_lt low, List.getD_cons_zero]
      · have position : i / 8 = (i - 8) / 8 + 1 := by omega
        have bit : i % 8 = (i - 8) % 8 := by omega
        rw [ih, position, bit, List.getD_cons_succ]

theorem length_of_pack {width : Nat} {value : Int} {bytes : List UInt8}
    (packed : pack width value = some bytes) : bytes.length = width := by
  obtain ⟨-, rfl⟩ := pack_eq_some.mp packed
  exact length_ofNat width value.toNat

/-- A packed field is read back. -/
theorem toNat_of_pack {width : Nat} {value : Int} {bytes : List UInt8}
    (packed : pack width value = some bytes) : (toNat bytes : Int) = value := by
  obtain ⟨⟨positive, below⟩, rfl⟩ := pack_eq_some.mp packed
  have inside : value.toNat < 256 ^ width := by
    zify
    rwa [Int.toNat_of_nonneg positive]
  rw [toNat_ofNat_of_lt inside, Int.toNat_of_nonneg positive]

theorem placed_append {buffer : Nat → UInt8} {offset : Nat} {first second : List UInt8} :
    Placed buffer offset (first ++ second) ↔
      Placed buffer offset first ∧ Placed buffer (offset + first.length) second := by
  constructor
  · intro placed
    constructor
    · intro i inside
      rw [placed i (by rw [List.length_append]; omega), List.getElem_append_left inside]
    · intro i inside
      rw [Nat.add_assoc, placed (first.length + i) (by rw [List.length_append]; omega),
        List.getElem_append_right (Nat.le_add_right _ _)]
      simp only [Nat.add_sub_cancel_left]
  · rintro ⟨left, right⟩ i inside
    by_cases early : i < first.length
    · rw [left i early, List.getElem_append_left early]
    · have late : first.length ≤ i := Nat.le_of_not_lt early
      rw [List.length_append] at inside
      have here := right (i - first.length) (by omega)
      rw [Nat.add_assoc, Nat.add_sub_cancel' late] at here
      rw [here, List.getElem_append_right late]

theorem placed_self (bytes : List UInt8) (fallback : UInt8) :
    Placed (fun i => bytes.getD i fallback) 0 bytes := by
  intro i inside
  rw [Nat.zero_add]
  exact List.getD_eq_getElem bytes fallback inside

/-- The bytes found at an offset of a list. -/
theorem slice_of_placed {data bytes : List UInt8} {offset : Nat} {fallback : UInt8}
    (placed : Placed (fun i => data.getD i fallback) offset bytes)
    (inside : offset + bytes.length ≤ data.length) :
    (data.drop offset).take bytes.length = bytes := by
  apply List.ext_getElem
  · rw [List.length_take, List.length_drop]
    omega
  · intro i below listed
    have here : data.getD (offset + i) fallback = bytes[i] := placed i listed
    rw [List.getD_eq_getElem data fallback (by omega)] at here
    rw [List.getElem_take, List.getElem_drop, here]

end QHal.Bytes
