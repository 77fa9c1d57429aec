/-
Module: QHal.Lib.Circular
Purpose: Positions in a circular array of `n` cells.  Two counters that only
  grow, and that are less than `n` apart, are kept as indices modulo `n`; their
  distance can be read off the indices.
Trusted boundary: none
Main exports: Circular.index_cases, Circular.index_ne, Circular.index_next,
  Circular.exists_index, Circular.filled_eq, Circular.free_eq, Circular.count_window
-/
import Mathlib.Order.Interval.Finset.Nat
import Mathlib.Order.Interval.Multiset
import Mathlib.Tactic.Common
import Mathlib.Tactic.SplitIfs

namespace QHal.Circular

variable {n first last : Nat}

/-- The index of a counter up to `n` above another one: it lies that far behind
the index of the other, or it has come round once. -/
theorem index_cases (le : first ≤ last) (lt : last < first + n) :
    (last % n = first % n + (last - first) ∧ first % n + (last - first) < n) ∨
      (last % n + n = first % n + (last - first)) := by
  have positive : 0 < n := by omega
  have below : first % n < n := Nat.mod_lt _ positive
  have sum : last % n = (first % n + (last - first)) % n := by
    rw [Nat.mod_add_mod, Nat.add_sub_cancel' le]
  by_cases inside : first % n + (last - first) < n
  · left
    rw [Nat.mod_eq_of_lt inside] at sum
    exact ⟨sum, inside⟩
  · right
    have wrapped : (first % n + (last - first)) % n = first % n + (last - first) - n := by
      rw [Nat.mod_eq_sub_mod (Nat.not_lt.mp inside)]
      exact Nat.mod_eq_of_lt (by omega)
    omega

/-- Counters less than `n` apart have different indices. -/
theorem index_ne (lt : first < last) (near : last < first + n) : first % n ≠ last % n := by
  rcases index_cases (Nat.le_of_lt lt) near with ⟨plain, _⟩ | wrapped
  · omega
  · omega

/-- The index behind that of a counter is the index of the next value. -/
theorem index_next (n first : Nat) : (first % n + 1) % n = (first + 1) % n :=
  Nat.mod_add_mod first n 1

/-- Every cell is that of a counter less than `n` above another one. -/
theorem exists_index (first : Nat) {cell : Nat} (lt : cell < n) :
    ∃ last, first ≤ last ∧ last < first + n ∧ last % n = cell := by
  have below : first % n < n := Nat.mod_lt _ (by omega)
  have whole := Nat.div_add_mod first n
  by_cases behind : first % n ≤ cell
  · refine ⟨first + (cell - first % n), by omega, by omega, ?_⟩
    have sum : first + (cell - first % n) = cell + n * (first / n) := by omega
    rw [sum, Nat.add_mul_mod_self_left]
    exact Nat.mod_eq_of_lt lt
  · refine ⟨first + (n - first % n + cell), by omega, by omega, ?_⟩
    have sum : first + (n - first % n + cell) = cell + n * (first / n + 1) := by
      rw [Nat.mul_add, Nat.mul_one]
      omega
    rw [sum, Nat.add_mul_mod_self_left]
    exact Nat.mod_eq_of_lt lt

/-- The cells between the two counters. -/
theorem filled_eq (le : first ≤ last) (lt : last < first + n) :
    (if first % n ≤ last % n then last % n - first % n
      else n - (first % n - last % n)) = last - first := by
  rcases index_cases le lt with ⟨plain, _⟩ | wrapped
  · rw [if_pos (by omega)]
    omega
  · have below : last - first < n := by omega
    rw [if_neg (by omega)]
    omega

/-- The cells left, if one cell is never filled. -/
theorem free_eq (le : first ≤ last) (lt : last < first + n) :
    (if last % n < first % n then first % n - last % n - 1
      else n - (last % n - first % n) - 1) = n - 1 - (last - first) := by
  rcases index_cases le lt with ⟨plain, _⟩ | wrapped
  · rw [if_neg (by omega)]
    omega
  · have below : last - first < n := by omega
    rw [if_pos (by omega)]
    omega

/-- If a test holds of exactly the cells between two counters, it holds of as many. -/
theorem count_window {p : Nat → Bool} (le : first ≤ last) (near : last ≤ first + n)
    (inside : ∀ k, first ≤ k → k < last → p (k % n) = true)
    (outside : ∀ k, last ≤ k → k < first + n → p (k % n) = false) :
    (List.range n).countP p = last - first := by
  have round := Nat.multiset_Ico_map_mod first n
  rw [← Multiset.Ico_add_Ico_eq_Ico le near] at round
  have counted := congrArg (Multiset.countP fun k => p k = true) round
  have size : (Multiset.Ico first last).card = last - first := Nat.card_Ico first last
  rw [Multiset.map_add, Multiset.countP_add, Multiset.countP_map, Multiset.countP_map,
    Multiset.filter_eq_self.mpr, Multiset.filter_eq_nil.mpr, size, Multiset.card_zero] at counted
  · have same : (List.range n).countP p =
        Multiset.countP (fun k => p k = true) (Multiset.range n) := by
      simp [Multiset.range]
    rw [same, ← counted, Nat.add_zero]
  · intro k mem
    obtain ⟨low, high⟩ := Multiset.mem_Ico.mp mem
    rw [outside k low high]
    exact Bool.false_ne_true
  · intro k mem
    obtain ⟨low, high⟩ := Multiset.mem_Ico.mp mem
    exact inside k low high

end QHal.Circular
