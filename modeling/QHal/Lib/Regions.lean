/-
Module: QHal.Lib.Regions
Purpose: An interval cut into consecutive regions of given sizes, and the
  number of the region an offset falls into.
Trusted boundary: none
Main exports: Regions.regionOf, Regions.regionOf_mono, Regions.regionOf_lt_length,
  Regions.regionOf_block
-/
import Mathlib.Algebra.GroupWithZero.Nat
import Mathlib.Tactic.Common
import Mathlib.Tactic.SplitIfs

namespace QHal.Regions

/-- The number of the region that holds `offset`, or the number of regions if
the offset lies behind them all. -/
def regionOf : List Nat → Nat → Nat
  | [], _ => 0
  | size :: sizes, offset =>
      if offset < size then 0 else regionOf sizes (offset - size) + 1

theorem regionOf_cons_inside {size offset : Nat} (sizes : List Nat) (inside : offset < size) :
    regionOf (size :: sizes) offset = 0 :=
  if_pos inside

theorem regionOf_cons_behind {size offset : Nat} (sizes : List Nat) (behind : size ≤ offset) :
    regionOf (size :: sizes) offset = regionOf sizes (offset - size) + 1 :=
  if_neg (Nat.not_lt.mpr behind)

/-- A larger offset never falls into an earlier region. -/
theorem regionOf_mono {sizes : List Nat} :
    ∀ {first second : Nat}, first ≤ second → regionOf sizes first ≤ regionOf sizes second := by
  induction sizes with
  | nil =>
      intro first second _
      exact Nat.le_refl 0
  | cons size sizes ih =>
      intro first second le
      by_cases inside : first < size
      · rw [regionOf_cons_inside sizes inside]
        exact Nat.zero_le _
      · have behind := Nat.not_lt.mp inside
        rw [regionOf_cons_behind sizes behind,
          regionOf_cons_behind sizes (Nat.le_trans behind le)]
        exact Nat.succ_le_succ (ih (Nat.sub_le_sub_right le size))

/-- An offset falls into one of the regions exactly if it is below their total
size. -/
theorem regionOf_lt_length {sizes : List Nat} :
    ∀ {offset : Nat}, regionOf sizes offset < sizes.length ↔ offset < sizes.sum := by
  induction sizes with
  | nil => simp [regionOf]
  | cons size sizes ih =>
      intro offset
      rw [List.length_cons, List.sum_cons]
      by_cases inside : offset < size
      · rw [regionOf_cons_inside sizes inside]
        exact iff_of_true (Nat.succ_pos _) (Nat.lt_add_right _ inside)
      · have behind := Nat.not_lt.mp inside
        rw [regionOf_cons_behind sizes behind, Nat.add_lt_add_iff_right, ih]
        omega

/-- Regions made of whole blocks do not divide a block. -/
theorem regionOf_block {sizes : List Nat} {width : Nat} (positive : 0 < width)
    (whole : ∀ size ∈ sizes, width ∣ size) :
    ∀ {first second : Nat}, first / width = second / width →
      regionOf sizes first = regionOf sizes second := by
  induction sizes with
  | nil =>
      intro first second _
      rfl
  | cons size sizes ih =>
      intro first second same
      obtain ⟨blocks, rfl⟩ := whole size List.mem_cons_self
      have below : ∀ offset, offset < width * blocks ↔ offset / width < blocks := by
        intro offset
        rw [Nat.div_lt_iff_lt_mul positive, Nat.mul_comm]
      by_cases inside : first < width * blocks
      · have alike : second < width * blocks :=
          (below second).mpr (same ▸ (below first).mp inside)
        rw [regionOf_cons_inside sizes inside, regionOf_cons_inside sizes alike]
      · have alike : ¬ second < width * blocks :=
          fun early => inside ((below first).mpr (same ▸ (below second).mp early))
        rw [regionOf_cons_behind sizes (Nat.not_lt.mp inside),
          regionOf_cons_behind sizes (Nat.not_lt.mp alike)]
        congr 1
        apply ih fun size member => whole size (List.mem_cons_of_mem _ member)
        rw [Nat.sub_mul_div, Nat.sub_mul_div, same]

end QHal.Regions
