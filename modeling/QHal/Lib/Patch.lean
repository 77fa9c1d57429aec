/-
Module: QHal.Lib.Patch
Purpose: Partial contents of a memory.  A patch says what some cells should
  hold; it can be laid over a memory as a whole or, when the copy is cut short,
  on some of its cells only.  The module says when the contents of one patch
  survive laying another, and what a copy that was cut short can leave.
Trusted boundary: none
Main exports: Patch, Patch.applyAt, Patch.apply, Patch.Present, Patch.Torn
-/
import Mathlib.Logic.Basic

namespace QHal

/-- The cells `i` with `patch i = some value` should hold `value`. -/
abbrev Patch (ι α : Type) := ι → Option α

namespace Patch

variable {ι α : Type}

/-- Lay a patch over the cells that are reached. -/
def applyAt (reached : ι → Bool) (patch : Patch ι α) (memory : ι → α) : ι → α :=
  fun i => if reached i then (patch i).getD (memory i) else memory i

/-- Lay a patch over all its cells. -/
def apply (patch : Patch ι α) (memory : ι → α) : ι → α := patch.applyAt (fun _ => true) memory

/-- The memory holds the contents of the patch. -/
def Present (patch : Patch ι α) (memory : ι → α) : Prop :=
  ∀ i value, patch i = some value → memory i = value

@[simp] theorem apply_eq (patch : Patch ι α) (memory : ι → α) (i : ι) :
    patch.apply memory i = (patch i).getD (memory i) := rfl

/-- Cells outside the patch keep their value. -/
theorem applyAt_of_none {patch : Patch ι α} {i : ι} (outside : patch i = none)
    (reached : ι → Bool) (memory : ι → α) : patch.applyAt reached memory i = memory i := by
  simp [applyAt, outside]

/-- A memory that holds the patch and agrees with another one outside of it is
that other one with the patch laid over. -/
theorem eq_apply {patch : Patch ι α} {before after : ι → α} (present : patch.Present after)
    (frame : ∀ i, patch i = none → after i = before i) : after = patch.apply before := by
  funext i
  cases value : patch i with
  | none => simp [value, frame i value]
  | some byte => simp [value, present i byte value]

/-- The contents depend on the cells of the patch only. -/
theorem Present.congr {patch : Patch ι α} {before after : ι → α}
    (present : patch.Present before)
    (same : ∀ i value, patch i = some value → after i = before i) : patch.Present after := by
  intro i value inside
  rw [same i value inside]
  exact present i value inside

variable {part whole : Patch ι α}

/-- Laying a patch brings in the contents of each of its parts. -/
theorem present_apply (sub : ∀ i value, part i = some value → whole i = some value)
    (memory : ι → α) : part.Present (whole.apply memory) := by
  intro i value inside
  simp [sub i value inside]

/-- Contents that are there already survive laying a patch that includes them, even
if not all cells are reached. -/
theorem Present.applyAt_whole {memory : ι → α} (present : part.Present memory)
    (sub : ∀ i value, part i = some value → whole i = some value) (reached : ι → Bool) :
    part.Present (whole.applyAt reached memory) := by
  intro i value inside
  unfold applyAt
  rw [sub i value inside, present i value inside]
  simp

/-- Contents survive laying a patch for other cells. -/
theorem Present.applyAt_apart {other : Patch ι α} {memory : ι → α}
    (present : part.Present memory)
    (apart : ∀ i value, part i = some value → other i = none) (reached : ι → Bool) :
    part.Present (other.applyAt reached memory) :=
  present.congr fun i value inside => applyAt_of_none (apart i value inside) reached memory

/-- Where one half of a patch is there already, laying the other half is enough. -/
theorem apply_half {half : Patch ι α} {memory : ι → α}
    (split : ∀ i, whole i = (half i).or (part i)) (present : part.Present memory) :
    half.apply memory = whole.apply memory := by
  funext i
  simp only [apply_eq, split i]
  cases mine : half i with
  | some value => rfl
  | none =>
      cases theirs : part i with
      | none => rfl
      | some value => exact present i value theirs

/-- Every cell kept its value or took that of the patch. -/
def Torn (patch : Patch ι α) (before after : ι → α) : Prop :=
  ∀ i, after i = before i ∨ patch i = some (after i)

theorem Torn.refl (patch : Patch ι α) (memory : ι → α) : patch.Torn memory memory :=
  fun _ => Or.inl rfl

theorem Torn.trans {patch : Patch ι α} {before middle after : ι → α}
    (first : patch.Torn before middle) (second : patch.Torn middle after) :
    patch.Torn before after := by
  intro i
  rcases second i with kept | taken
  · rw [kept]
    exact first i
  · exact Or.inr taken

theorem Torn.mono {before after : ι → α} (torn : part.Torn before after)
    (sub : ∀ i value, part i = some value → whole i = some value) :
    whole.Torn before after := by
  intro i
  rcases torn i with kept | taken
  · exact Or.inl kept
  · exact Or.inr (sub i _ taken)

/-- A torn patch was laid over some of its cells. -/
theorem Torn.exists_reached [DecidableEq α] {patch : Patch ι α} {before after : ι → α}
    (torn : patch.Torn before after) : ∃ reached, after = patch.applyAt reached before := by
  refine ⟨fun i => decide (patch i = some (after i)), ?_⟩
  funext i
  by_cases taken : patch i = some (after i)
  · simp [applyAt, taken]
  · have kept : after i = before i := (torn i).resolve_right taken
    rw [kept] at taken
    simp [applyAt, kept, taken]

end Patch

end QHal
