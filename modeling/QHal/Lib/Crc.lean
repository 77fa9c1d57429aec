/-
Module: QHal.Lib.Crc
Purpose: Reflected cyclic redundancy checks of any width: the register bit by bit, and the
  table of the low bytes that takes a byte at once.
Trusted boundary: none
Main exports: Crc.shift, Crc.shifts, Crc.feed, Crc.remainder, Crc.shifts_xor, Crc.feed_table
-/
import Mathlib.Logic.Basic

namespace QHal.Crc

variable {width : Nat} (poly : BitVec width)

/-- The lowest bit leaves the register. -/
def shift (register : BitVec width) : BitVec width :=
  if register.getLsbD 0 then register >>> 1 ^^^ poly else register >>> 1

def shifts : Nat → BitVec width → BitVec width
  | 0, register => register
  | count + 1, register => shifts count (shift poly register)

/-- A byte goes in. -/
def feed (register : BitVec width) (byte : BitVec 8) : BitVec width :=
  shifts poly 8 (register ^^^ byte.setWidth width)

/-- The register behind some bytes. -/
def remainder (register : BitVec width) (bytes : List (BitVec 8)) : BitVec width :=
  bytes.foldl (feed poly) register

variable {poly}

theorem shift_xor (first second : BitVec width) :
    shift poly (first ^^^ second) = shift poly first ^^^ shift poly second := by
  unfold shift
  rw [BitVec.getLsbD_xor, BitVec.ushiftRight_xor_distrib]
  cases first.getLsbD 0 <;> cases second.getLsbD 0
  · rfl
  · exact BitVec.xor_assoc _ _ _
  · simp only [Bool.xor_false, if_true, Bool.false_eq_true, if_false]
    rw [BitVec.xor_assoc, BitVec.xor_comm (second >>> 1), ← BitVec.xor_assoc]
  · simp only [Bool.xor_self, if_true, Bool.false_eq_true, if_false]
    rw [BitVec.xor_comm (second >>> 1), BitVec.xor_assoc, ← BitVec.xor_assoc poly,
      BitVec.xor_self, BitVec.zero_xor]

/-- The register is linear. -/
theorem shifts_xor (count : Nat) (first second : BitVec width) :
    shifts poly count (first ^^^ second) =
      shifts poly count first ^^^ shifts poly count second := by
  induction count generalizing first second with
  | zero => rfl
  | succ count ih => rw [shifts, shift_xor, ih, shifts, shifts]

/-- Zeros at the low end leave the register without a trace. -/
theorem shifts_of_clear {count : Nat} {register : BitVec width}
    (clear : ∀ i < count, register.getLsbD i = false) :
    shifts poly count register = register >>> count := by
  induction count generalizing register with
  | zero => simp [shifts]
  | succ count ih =>
      have low : shift poly register = register >>> 1 := by
        unfold shift
        rw [clear 0 (Nat.succ_pos count)]
        rfl
      rw [shifts, low, ih fun i below => by
        rw [BitVec.getLsbD_ushiftRight, Nat.add_comm]
        exact clear (i + 1) (Nat.succ_lt_succ below)]
      rw [← BitVec.shiftRight_add, Nat.add_comm]

/-- The low byte of a register and the rest of it. -/
theorem split_low (register : BitVec width) :
    register = (register.setWidth 8).setWidth width ^^^ (register >>> 8 <<< 8) := by
  refine BitVec.eq_of_getLsbD_eq fun i inside => ?_
  simp only [BitVec.getLsbD_xor, BitVec.getLsbD_setWidth, BitVec.getLsbD_shiftLeft,
    BitVec.getLsbD_ushiftRight, inside, decide_true, Bool.true_and]
  by_cases low : i < 8
  · simp [low]
  · simp [low, Nat.add_sub_cancel' (Nat.le_of_not_lt low)]

/-- A byte at once, from a table for the low bytes. -/
theorem feed_table (wide : 8 ≤ width) {table : BitVec 8 → BitVec width}
    (correct : ∀ byte, table byte = shifts poly 8 (byte.setWidth width))
    (register : BitVec width) (byte : BitVec 8) :
    feed poly register byte = table (register.setWidth 8 ^^^ byte) ^^^ register >>> 8 := by
  have low : (register ^^^ byte.setWidth width).setWidth 8 = register.setWidth 8 ^^^ byte := by
    refine BitVec.eq_of_getLsbD_eq fun i inside => ?_
    simp [inside, show i < width by omega]
  have high : (register ^^^ byte.setWidth width) >>> 8 = register >>> 8 := by
    refine BitVec.eq_of_getLsbD_eq fun i inside => ?_
    simp
  have clear : ∀ i < 8, (register >>> 8 <<< 8).getLsbD i = false := by
    intro i below
    simp [below]
  have back : register >>> 8 <<< 8 >>> 8 = register >>> 8 := by
    refine BitVec.eq_of_getLsbD_eq fun i inside => ?_
    by_cases fits : 8 + i < width
    · simp [fits]
    · simp [fits, BitVec.getLsbD_of_ge register (8 + i) (by omega)]
  unfold feed
  rw [split_low (register ^^^ byte.setWidth width), shifts_xor, low, high, ← correct,
    shifts_of_clear clear, back]

end QHal.Crc
