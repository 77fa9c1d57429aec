/-
Module: QHal.Lib.BitCount
Purpose: The positions of the ones of a bit vector as a finite set, their number, and what
  clearing the lowest one and setting a zero do to them.
Trusted boundary: none
Main exports: BitCount.ones, BitCount.count, BitCount.count_clear, BitCount.ones_set
-/
import Mathlib.Data.Fintype.Basic
import Mathlib.Data.Finset.Card
import Mathlib.Data.Fintype.Card
import Mathlib.Algebra.Ring.Parity
import Mathlib.Tactic.Ring

namespace QHal.BitCount

variable {w : Nat}

/-- The positions of the ones. -/
def ones (x : BitVec w) : Finset (Fin w) := Finset.univ.filter fun i => x.getLsbD i = true

/-- The number of the ones. -/
def count (x : BitVec w) : Nat := (ones x).card

@[simp] theorem mem_ones {x : BitVec w} {i : Fin w} : i ∈ ones x ↔ x.getLsbD i = true := by
  simp [ones]

theorem ones_and (x y : BitVec w) : ones (x &&& y) = ones x ∩ ones y := by
  ext i
  simp

theorem ones_eq_empty {x : BitVec w} : ones x = ∅ ↔ x = 0 := by
  constructor
  · intro empty
    apply BitVec.eq_of_getLsbD_eq
    intro i inside
    have zero : (⟨i, inside⟩ : Fin w) ∉ ones x := empty ▸ Finset.notMem_empty _
    rw [mem_ones] at zero
    simpa using zero
  · rintro rfl
    ext i
    simp

@[simp] theorem count_zero : count (0 : BitVec w) = 0 := by
  rw [count, ones_eq_empty.mpr rfl, Finset.card_empty]

theorem count_eq_zero {x : BitVec w} : count x = 0 ↔ x = 0 := by
  rw [count, Finset.card_eq_zero, ones_eq_empty]

theorem count_le (x : BitVec w) : count x ≤ w := by
  have all := Finset.card_le_univ (ones x)
  rwa [Fintype.card_fin] at all

/-- A number above 2^k, whose lower bits are zero, against the one below it. -/
theorem testBit_and_pred (high k i : Nat) :
    (2 ^ (k + 1) * high + 2 ^ k &&& 2 ^ (k + 1) * high + 2 ^ k - 1).testBit i =
      (decide (i ≠ k) && (2 ^ (k + 1) * high + 2 ^ k).testBit i) := by
  have positive := Nat.two_pow_pos k
  have double : 2 ^ (k + 1) = 2 * 2 ^ k := by rw [Nat.pow_succ, Nat.mul_comm]
  have pred : 2 ^ (k + 1) * high + 2 ^ k - 1 = 2 ^ (k + 1) * high + (2 ^ k - 1) := by omega
  rw [Nat.testBit_and, pred, Nat.testBit_two_pow_mul_add _ (by omega),
    Nat.testBit_two_pow_mul_add _ (by omega)]
  split
  · rw [Nat.testBit_two_pow_sub_one]
    by_cases same : i = k
    · simp [same]
    · simp [Nat.testBit_two_pow_of_ne (Ne.symm same)]
  · have other : i ≠ k := by omega
    simp [other]

/-- The lowest one, and what stands above it. -/
theorem exists_lowest {x : Nat} (positive : x ≠ 0) :
    ∃ high k, x = 2 ^ (k + 1) * high + 2 ^ k := by
  induction x using Nat.strongRecOn with
  | ind x ih =>
      obtain ⟨half, even | odd⟩ := Nat.even_or_odd' x
      · obtain ⟨high, k, same⟩ := ih half (by omega) (by omega)
        refine ⟨high, k + 1, ?_⟩
        rw [even, same, Nat.pow_succ 2 (k + 1), Nat.mul_add, Nat.pow_succ 2 k]
        ring
      · exact ⟨half, 0, odd⟩

/-- `x & (x - 1)` has the ones of `x` without the lowest. -/
theorem ones_clear {x : BitVec w} (some : x ≠ 0) :
    ∃ i ∈ ones x, ones (x &&& (x - 1)) = (ones x).erase i := by
  have positive : x.toNat ≠ 0 := fun zero => some (BitVec.eq_of_toNat_eq zero)
  obtain ⟨high, k, same⟩ := exists_lowest positive
  have width : k < w := by
    have top := x.isLt
    have low : 2 ^ k < 2 ^ w := by omega
    exact (Nat.pow_lt_pow_iff_right (by decide)).mp low
  have one : (1 : BitVec w).toNat = 1 := by
    rw [BitVec.ofNat_eq_ofNat, BitVec.toNat_ofNat]
    exact Nat.mod_eq_of_lt (Nat.one_lt_two_pow (by omega))
  have pred : (x - 1).toNat = x.toNat - 1 := by
    rw [BitVec.toNat_sub_of_le (BitVec.le_def.mpr (by omega)), one]
  have bits : ∀ i, (x &&& (x - 1)).getLsbD i = (decide (i ≠ k) && x.getLsbD i) := by
    intro i
    rw [BitVec.getLsbD, BitVec.toNat_and, pred, BitVec.getLsbD, same]
    exact testBit_and_pred high k i
  refine ⟨⟨k, width⟩, ?_, ?_⟩
  · rw [mem_ones, BitVec.getLsbD, same, Nat.testBit_two_pow_mul_add _ (by
      exact Nat.pow_lt_pow_right (by decide) (Nat.lt_succ_self k)), if_pos (Nat.lt_succ_self k)]
    exact Nat.testBit_two_pow_self
  · ext i
    rw [mem_ones, bits, Finset.mem_erase, mem_ones, Bool.and_eq_true, decide_eq_true_eq, ne_eq,
      ne_eq, Fin.ext_iff]

/-- Clearing the lowest one leaves one less. -/
theorem count_clear {x : BitVec w} (some : x ≠ 0) : count (x &&& (x - 1)) + 1 = count x := by
  obtain ⟨i, isOne, same⟩ := ones_clear some
  rw [count, same, Finset.card_erase_add_one isOne, count]

theorem ones_set (x : BitVec w) (i : Fin w) :
    ones (x ||| BitVec.twoPow w i) = insert i (ones x) := by
  ext j
  have inside := i.isLt
  simp only [mem_ones, BitVec.getLsbD_or, BitVec.getLsbD_twoPow, Finset.mem_insert,
    Bool.or_eq_true, Bool.and_eq_true, decide_eq_true_eq, Fin.ext_iff]
  rw [or_comm]
  exact or_congr ⟨fun both => both.2.symm, fun same => ⟨inside, same.symm⟩⟩ Iff.rfl

/-- Under a mask, setting a zero of the mask adds one. -/
theorem count_set {x mask : BitVec w} {i : Fin w} (inMask : mask.getLsbD i = true)
    (zero : x.getLsbD i = false) :
    count ((x ||| BitVec.twoPow w i) &&& mask) = count (x &&& mask) + 1 := by
  have added : ones ((x ||| BitVec.twoPow w i) &&& mask) = insert i (ones (x &&& mask)) := by
    rw [ones_and, ones_set, Finset.insert_inter_of_mem (mem_ones.mpr inMask), ones_and]
  have new : i ∉ ones (x &&& mask) := by
    rw [mem_ones, BitVec.getLsbD_and, zero, Bool.false_and]
    exact Bool.false_ne_true
  rw [count, added, Finset.card_insert_of_notMem new, count]

end QHal.BitCount
