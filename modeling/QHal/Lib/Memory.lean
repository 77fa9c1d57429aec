/-
Module: QHal.Lib.Memory
Purpose: A memory with 32-bit addresses and cells of an arbitrary type, and
  the block write that copies and fills reduce to.  Addresses wrap around at
  2^32, as pointer arithmetic does, so a range is the set of addresses at a
  bounded distance above its base.
Trusted boundary: none
Main exports: Mem, Mem.InRange, Mem.write, Mem.writeIf, Mem.Holds, Mem.overlay,
  Mem.Apart, Mem.Mixed
-/
import Mathlib.Algebra.Group.Nat.Defs
import Mathlib.Tactic.Common
import Mathlib.Tactic.SplitIfs

namespace QHal

/-- Cells indexed by 32-bit addresses. -/
abbrev Mem (α : Type) := UInt32 → α

namespace Mem

variable {α : Type}

/-- `address` is one of the `count` addresses from `base` upwards. -/
def InRange (base : UInt32) (count : Nat) (address : UInt32) : Prop :=
  (address - base).toNat < count

instance (base : UInt32) (count : Nat) (address : UInt32) :
    Decidable (InRange base count address) :=
  inferInstanceAs (Decidable ((address - base).toNat < count))

/-- Replace the `count` cells from `base` upwards by `data 0, data 1, …`. -/
def write (memory : Mem α) (base : UInt32) (count : Nat) (data : Nat → α) :
    Mem α :=
  fun address =>
    if InRange base count address then data (address - base).toNat
    else memory address

/-- The `count` cells from `base` upwards are `data 0, data 1, …`. -/
def Holds (memory : Mem α) (base : UInt32) (count : Nat) (data : Nat → α) :
    Prop :=
  ∀ address, InRange base count address →
    memory address = data (address - base).toNat

/-- The distance from a base upwards, which may wrap around. -/
theorem distance_eq (base address : UInt32) :
    (address - base).toNat =
      if base.toNat ≤ address.toNat then address.toNat - base.toNat
      else 2 ^ 32 + address.toNat - base.toNat := by
  have baseLt := base.toNat_lt
  have addressLt := address.toNat_lt
  rw [UInt32.toNat_sub]
  split_ifs <;> omega

/-- A range that does not wrap around is an interval. -/
theorem inRange_iff {base address : UInt32} {count : Nat} (bound : base.toNat + count ≤ 2 ^ 32) :
    InRange base count address ↔
      base.toNat ≤ address.toNat ∧ address.toNat < base.toNat + count := by
  have addressLt := address.toNat_lt
  unfold InRange
  rw [distance_eq]
  split_ifs <;> omega

theorem inRange_one {base address : UInt32} : InRange base 1 address ↔ address = base := by
  have baseLt := base.toNat_lt
  rw [inRange_iff (by omega), ← UInt32.toNat_inj]
  omega

/-- The address `offset` cells above `base` is at distance `offset` from it. -/
theorem distance_add {base : UInt32} {offset : Nat} (bound : offset < 2 ^ 32) :
    (base + UInt32.ofNat offset - base).toNat = offset := by
  have cancel : base + UInt32.ofNat offset - base = UInt32.ofNat offset := by
    rw [UInt32.add_comm, UInt32.add_sub_cancel]
  rw [cancel, UInt32.toNat_ofNat']
  exact Nat.mod_eq_of_lt bound

theorem inRange_add {base : UInt32} {count offset : Nat} (below : offset < count)
    (bound : offset < 2 ^ 32) : InRange base count (base + UInt32.ofNat offset) := by
  unfold InRange
  rw [distance_add bound]
  exact below

/-- The distance to a base moved up by `step` drops by `step`, or wraps. -/
theorem distance_shift {base address : UInt32} {step : Nat} (bound : step < 2 ^ 32) :
    (address - (base + UInt32.ofNat step)).toNat =
      if step ≤ (address - base).toNat then (address - base).toNat - step
      else 2 ^ 32 + (address - base).toNat - step := by
  have lt : (address - base).toNat < 2 ^ 32 := (address - base).toNat_lt
  have split : address - (base + UInt32.ofNat step) =
      (address - base) - UInt32.ofNat step := by
    grind
  rw [split, UInt32.toNat_sub, UInt32.toNat_ofNat', Nat.mod_eq_of_lt bound]
  split_ifs <;> omega

/-- The range of the addresses from `step` on, seen from the original base. -/
theorem inRange_shift {base address : UInt32} {step rest : Nat}
    (bound : step + rest ≤ 2 ^ 32) (small : step < 2 ^ 32) :
    InRange (base + UInt32.ofNat step) rest address ↔
      step ≤ (address - base).toNat ∧ (address - base).toNat < step + rest := by
  unfold InRange
  rw [distance_shift small]
  split_ifs <;> omega

/-- A write that reaches only the granted cells of its range. -/
def writeIf (memory : Mem α) (base : UInt32) (count : Nat) (granted : Nat → Bool)
    (data : Nat → α) : Mem α :=
  fun address =>
    if InRange base count address ∧ granted (address - base).toNat = true then
      data (address - base).toNat
    else memory address

theorem writeIf_hit {memory : Mem α} {base address : UInt32} {count : Nat}
    {granted : Nat → Bool} {data : Nat → α} (hit : InRange base count address)
    (isGranted : granted (address - base).toNat = true) :
    memory.writeIf base count granted data address = data (address - base).toNat :=
  if_pos ⟨hit, isGranted⟩

theorem writeIf_miss {memory : Mem α} {base address : UInt32} {count : Nat}
    {granted : Nat → Bool} {data : Nat → α}
    (miss : ¬ (InRange base count address ∧ granted (address - base).toNat = true)) :
    memory.writeIf base count granted data address = memory address :=
  if_neg miss

/-- A write is one that is granted everywhere. -/
theorem write_eq_writeIf (memory : Mem α) (base : UInt32) (count : Nat) (data : Nat → α) :
    memory.write base count data = memory.writeIf base count (fun _ => true) data := by
  funext address
  simp [write, writeIf]

@[simp] theorem writeIf_zero (memory : Mem α) (base : UInt32) (granted : Nat → Bool)
    (data : Nat → α) : memory.writeIf base 0 granted data = memory := by
  funext address
  exact writeIf_miss (by simp [InRange])

/-- Only the grants and the data inside the range matter. -/
theorem writeIf_congr (memory : Mem α) (base : UInt32) {count : Nat}
    {granted granted' : Nat → Bool} {data data' : Nat → α}
    (sameGrants : ∀ i < count, granted i = granted' i)
    (sameData : ∀ i < count, data i = data' i) :
    memory.writeIf base count granted data = memory.writeIf base count granted' data' := by
  funext address
  by_cases hit : InRange base count address
  · simp [writeIf, sameGrants _ hit, sameData _ hit]
  · simp [writeIf, hit]

/-- Two adjacent writes are one write. -/
theorem writeIf_append (memory : Mem α) (base : UInt32) (first second : Nat)
    (granted : Nat → Bool) (data : Nat → α) (bound : first + second ≤ 2 ^ 32)
    (small : first < 2 ^ 32) :
    (memory.writeIf base first granted data).writeIf (base + UInt32.ofNat first) second
        (fun i => granted (first + i)) (fun i => data (first + i)) =
      memory.writeIf base (first + second) granted data := by
  funext address
  by_cases upper : InRange (base + UInt32.ofNat first) second address
  · have range := (inRange_shift bound small).mp upper
    have whole : InRange base (first + second) address := range.2
    have notLower : ¬ InRange base first address := Nat.not_lt.mpr range.1
    have offset : first + (address - (base + UInt32.ofNat first)).toNat =
        (address - base).toNat := by
      rw [distance_shift small, if_pos range.1]
      omega
    simp [writeIf, upper, whole, notLower, offset]
  · have outside := mt (inRange_shift bound small).mpr upper
    by_cases lower : InRange base first address
    · have whole : InRange base (first + second) address := Nat.lt_add_right second lower
      simp [writeIf, upper, lower, whole]
    · have neither : ¬ InRange base (first + second) address := by
        unfold InRange at lower ⊢
        omega
      simp [writeIf, upper, lower, neither]

theorem write_hit {memory : Mem α} {base address : UInt32} {count : Nat} {data : Nat → α}
    (hit : InRange base count address) :
    memory.write base count data address = data (address - base).toNat :=
  if_pos hit

theorem write_miss {memory : Mem α} {base address : UInt32} {count : Nat} {data : Nat → α}
    (miss : ¬ InRange base count address) :
    memory.write base count data address = memory address :=
  if_neg miss

@[simp] theorem write_zero (memory : Mem α) (base : UInt32) (data : Nat → α) :
    memory.write base 0 data = memory := by
  funext address
  exact write_miss (by simp [InRange])

/-- Only the data inside the range matters. -/
theorem write_congr (memory : Mem α) (base : UInt32) {count : Nat} {data data' : Nat → α}
    (same : ∀ i < count, data i = data' i) :
    memory.write base count data = memory.write base count data' := by
  funext address
  by_cases hit : InRange base count address
  · rw [write_hit hit, write_hit hit, same _ hit]
  · rw [write_miss hit, write_miss hit]

/-- Two adjacent plain writes are one write. -/
theorem write_append (memory : Mem α) (base : UInt32) (first second : Nat)
    (data : Nat → α) (bound : first + second ≤ 2 ^ 32) (small : first < 2 ^ 32) :
    (memory.write base first data).write (base + UInt32.ofNat first) second
        (fun i => data (first + i)) =
      memory.write base (first + second) data := by
  simp only [write_eq_writeIf]
  exact writeIf_append memory base first second (fun _ => true) data bound small

/-- A buffer with the `count` cells from `offset` on replaced. -/
def overlay (buffer : Nat → α) (offset count : Nat) (data : Nat → α) : Nat → α :=
  fun i => if offset ≤ i ∧ i < offset + count then data (i - offset) else buffer i

@[simp] theorem overlay_zero (buffer : Nat → α) (offset : Nat) (data : Nat → α) :
    overlay buffer offset 0 data = buffer := by
  funext i
  exact if_neg fun inside => Nat.not_lt.mpr inside.1 inside.2

/-- Replacing one cell and then the ones behind it. -/
theorem overlay_cons (buffer : Nat → α) (offset count : Nat) (data : Nat → α) :
    overlay (fun i => if i = offset then data 0 else buffer i) (offset + 1) count
        (fun j => data (j + 1)) =
      overlay buffer offset (count + 1) data := by
  funext i
  simp only [overlay]
  rcases Nat.lt_trichotomy i offset with before | here | behind
  · rw [if_neg (by omega), if_neg (by omega), if_neg (by omega)]
  · rw [if_neg (by omega), if_pos here, if_pos (by omega), here, Nat.sub_self]
  · have shift : i - (offset + 1) + 1 = i - offset := by omega
    rw [if_neg (Nat.ne_of_gt behind), shift]
    exact if_congr (by omega) rfl rfl

/-- Two adjacent replacements are one. -/
theorem overlay_append (buffer : Nat → α) (offset first second : Nat) (data : Nat → α) :
    overlay (overlay buffer offset first data) (offset + first) second
        (fun i => data (first + i)) = overlay buffer offset (first + second) data := by
  funext i
  simp only [overlay]
  by_cases upper : offset + first ≤ i ∧ i < offset + first + second
  · have position : first + (i - (offset + first)) = i - offset := by omega
    rw [if_pos upper, if_pos (by omega), position]
  · rw [if_neg upper]
    exact if_congr (by omega) rfl rfl

/-- Writing back a part of the buffer itself with some cells replaced replaces just these. -/
theorem overlay_overlay (buffer : Nat → α) (base : Nat) {width offset count : Nat}
    (inside : offset + count ≤ width) (data : Nat → α) :
    overlay buffer base width (overlay (fun i => buffer (base + i)) offset count data) =
      overlay buffer (base + offset) count data := by
  funext i
  simp only [overlay]
  by_cases part : base + offset ≤ i ∧ i < base + offset + count
  · have position : i - base - offset = i - (base + offset) := by omega
    rw [if_pos part, if_pos (by omega), if_pos (by omega), position]
  · rw [if_neg part]
    by_cases whole : base ≤ i ∧ i < base + width
    · rw [if_pos whole, if_neg (by omega), Nat.add_sub_cancel' whole.1]
    · exact if_neg whole

/-- Only the data inside the replaced cells matters. -/
theorem overlay_congr (buffer : Nat → α) (offset : Nat) {count : Nat} {data data' : Nat → α}
    (same : ∀ i < count, data i = data' i) :
    overlay buffer offset count data = overlay buffer offset count data' := by
  funext i
  simp only [overlay]
  by_cases inside : offset ≤ i ∧ i < offset + count
  · rw [if_pos inside, if_pos inside, same _ (by omega)]
  · rw [if_neg inside, if_neg inside]

/-- The cells from `base` upwards, as a buffer. -/
def cells (memory : Mem α) (base : UInt32) : Nat → α :=
  fun i => memory (base + UInt32.ofNat i)

/-- The cell at an address, seen from a base. -/
theorem cells_distance (memory : Mem α) (base address : UInt32) :
    memory.cells base (address - base).toNat = memory address := by
  unfold cells
  rw [UInt32.ofNat_toNat, UInt32.add_comm, UInt32.sub_add_cancel]

/-- Read, modify, write: writing back a block of the memory itself with a part
of it replaced writes just that part. -/
theorem write_overlay (memory : Mem α) (base : UInt32) {width offset count : Nat}
    (data : Nat → α) (inside : offset + count ≤ width) (bound : width ≤ 2 ^ 32)
    (small : offset < 2 ^ 32) :
    memory.write base width (overlay (memory.cells base) offset count data) =
      memory.write (base + UInt32.ofNat offset) count data := by
  funext address
  have range := @inRange_shift base address offset count (Nat.le_trans inside bound) small
  by_cases part : InRange (base + UInt32.ofNat offset) count address
  · have between := range.mp part
    have whole : InRange base width address := Nat.lt_of_lt_of_le between.2 inside
    rw [write_hit whole, write_hit part, overlay, if_pos between, distance_shift small,
      if_pos between.1]
  · have outside := mt range.mpr part
    rw [write_miss part]
    by_cases whole : InRange base width address
    · rw [write_hit whole, overlay, if_neg outside, cells_distance]
    · exact write_miss whole

/-- The `count` cells from `source` on lie outside the `count` cells from
`destination` on. -/
def Apart (destination source : UInt32) (count : Nat) : Prop :=
  ∀ i < count, ¬ InRange destination count (source + UInt32.ofNat i)

theorem Apart.take {destination source : UInt32} {first second : Nat}
    (apart : Apart destination source (first + second)) : Apart destination source first := by
  intro i below inside
  exact apart i (Nat.lt_add_right second below) (Nat.lt_add_right second inside)

theorem Apart.drop {destination source : UInt32} {first second : Nat}
    (apart : Apart destination source (first + second)) (bound : first + second ≤ 2 ^ 32)
    (small : first < 2 ^ 32) :
    Apart (destination + UInt32.ofNat first) (source + UInt32.ofNat first) second := by
  intro i below inside
  apply apart (first + i) (Nat.add_lt_add_left below first)
  have between := ((inRange_shift bound small).mp inside).2
  rwa [UInt32.add_assoc, ← UInt32.ofNat_add] at between

/-- A copy does not change the part of its source that is still to be read. -/
theorem Apart.cells_write {destination source : UInt32} {first second i : Nat}
    (apart : Apart destination source (first + second)) (memory : Mem α) (data : Nat → α)
    (below : i < second) :
    (memory.write destination first data).cells (source + UInt32.ofNat first) i =
      memory.cells source (first + i) := by
  have outside : ¬ InRange destination first (source + UInt32.ofNat (first + i)) := by
    intro inside
    exact apart (first + i) (Nat.add_lt_add_left below first)
      (Nat.lt_add_right second inside)
  unfold cells
  rw [UInt32.add_assoc, ← UInt32.ofNat_add, write_miss outside]

/-- What a write can leave that may have been cut short: outside the range the
cells kept their value, inside each one is `Between` its old and its new value. -/
def Mixed (Between : α → α → α → Prop) (memory : Mem α) (base : UInt32) (count : Nat)
    (data : Nat → α) (after : Mem α) : Prop :=
  ∀ address, (InRange base count address →
      Between (memory address) (data (address - base).toNat) (after address)) ∧
    (¬ InRange base count address → after address = memory address)

section Mixed

variable {Between : α → α → α → Prop} {memory middle after : Mem α} {base : UInt32}
  {data : Nat → α}

/-- A complete write. -/
theorem mixed_write (reaches : ∀ old new, Between old new new) (memory : Mem α)
    (base : UInt32) (count : Nat) (data : Nat → α) :
    Mixed Between memory base count data (memory.write base count data) := by
  intro address
  constructor
  · intro hit
    rw [write_hit hit]
    exact reaches _ _
  · intro miss
    exact write_miss miss

/-- A write that changed nothing. -/
theorem mixed_unchanged (keeps : ∀ old new, Between old new old) (memory : Mem α)
    (base : UInt32) (count : Nat) (data : Nat → α) :
    Mixed Between memory base count data memory :=
  fun _ => ⟨fun _ => keeps _ _, fun _ => rfl⟩

theorem Mixed.congr {count : Nat} {data' : Nat → α}
    (mixed : Mixed Between memory base count data after)
    (same : ∀ i < count, data i = data' i) : Mixed Between memory base count data' after := by
  intro address
  refine ⟨fun hit => ?_, (mixed address).2⟩
  rw [← same _ hit]
  exact (mixed address).1 hit

/-- Read, modify, write, cut short: only the modified part can have changed. -/
theorem Mixed.overlay {width offset count : Nat}
    (stays : ∀ cell after, Between cell cell after → after = cell)
    (mixed : Mixed Between memory base width
      (Mem.overlay (memory.cells base) offset count data) after)
    (inside : offset + count ≤ width) (bound : width ≤ 2 ^ 32) (small : offset < 2 ^ 32) :
    Mixed Between memory (base + UInt32.ofNat offset) count data after := by
  intro address
  have range := @inRange_shift base address offset count (Nat.le_trans inside bound) small
  constructor
  · intro part
    have between := range.mp part
    have whole : InRange base width address := Nat.lt_of_lt_of_le between.2 inside
    have cell := (mixed address).1 whole
    rw [Mem.overlay, if_pos between] at cell
    rwa [distance_shift small, if_pos between.1]
  · intro part
    have outside := mt range.mpr part
    by_cases whole : InRange base width address
    · have cell := (mixed address).1 whole
      rw [Mem.overlay, if_neg outside, cells_distance] at cell
      exact stays _ _ cell
    · exact (mixed address).2 whole

/-- A write that stopped early is a write of the longer range, cut short. -/
theorem Mixed.extend {first : Nat} (keeps : ∀ old new, Between old new old)
    (mixed : Mixed Between memory base first data after) (second : Nat) :
    Mixed Between memory base (first + second) data after := by
  intro address
  constructor
  · intro _
    by_cases front : InRange base first address
    · exact (mixed address).1 front
    · rw [(mixed address).2 front]
      exact keeps _ _
  · intro outside
    exact (mixed address).2 fun front => outside (Nat.lt_add_right second front)

/-- Two adjacent writes, cut short or not. -/
theorem Mixed.append {first second : Nat} (front : Mixed Between memory base first data middle)
    (back : Mixed Between middle (base + UInt32.ofNat first) second
      (fun i => data (first + i)) after)
    (bound : first + second ≤ 2 ^ 32) (small : first < 2 ^ 32) :
    Mixed Between memory base (first + second) data after := by
  intro address
  have range := @inRange_shift base address first second bound small
  by_cases upper : InRange (base + UInt32.ofNat first) second address
  · have between := range.mp upper
    have notFront : ¬ InRange base first address := Nat.not_lt.mpr between.1
    have cell := (back address).1 upper
    have offset : first + (address - (base + UInt32.ofNat first)).toNat =
        (address - base).toNat := by
      rw [distance_shift small, if_pos between.1]
      omega
    simp only [(front address).2 notFront, offset] at cell
    exact ⟨fun _ => cell, fun outside => absurd between.2 outside⟩
  · rw [(back address).2 upper]
    constructor
    · intro whole
      have lower : InRange base first address := by
        by_contra notFront
        exact upper (range.mpr ⟨Nat.not_lt.mp notFront, whole⟩)
      exact (front address).1 lower
    · intro outside
      exact (front address).2 fun lower => outside (Nat.lt_add_right second lower)

end Mixed

end Mem

end QHal
