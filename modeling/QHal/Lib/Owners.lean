/-
Module: QHal.Lib.Owners
Purpose: Blocks of a heap and a table of pointers that owns them.  A pointer that is recorded in an
  empty place keeps every block owned; one that is recorded over another loses that block for good,
  since only blocks that the table names are given back.
Trusted boundary: none
Main exports: Heap, Owned, Owned.record, Owned.release, Owned.Holds, Owned.Covers, Owned.Lost,
  Owned.releases_all, Owned.Lost.releases
-/
import Mathlib.Data.List.Perm.Basic
import Mathlib.Logic.Function.Basic
import Mathlib.Tactic.Common

namespace QHal.Owners

/-- A heap that numbers its blocks: how many allocations were asked for, the blocks that are in
use, and those that were freed, one after the other. -/
structure Heap where
  calls : Nat
  live : List Nat
  freed : List Nat
deriving Repr, DecidableEq

/-- An allocation, which gives 0 if it fails. -/
def Heap.malloc (heap : Heap) (granted : Nat → Bool) : Nat × Heap :=
  if granted heap.calls then
    (heap.calls + 1, { heap with calls := heap.calls + 1, live := (heap.calls + 1) :: heap.live })
  else (0, { heap with calls := heap.calls + 1 })

def Heap.free (heap : Heap) (block : Nat) : Heap :=
  { heap with live := heap.live.erase block, freed := heap.freed ++ [block] }

/-- Pointers, of which 0 is the null pointer, and the heap they point to. -/
structure Owned (ι : Type) where
  table : ι → Nat
  heap : Heap

namespace Owned

variable {ι : Type}

/-- An allocation that failed. -/
def refused (owned : Owned ι) : Owned ι :=
  { owned with heap := { owned.heap with calls := owned.heap.calls + 1 } }

variable [DecidableEq ι] {owned : Owned ι}

/-- A block that was allocated is recorded. -/
def record (owned : Owned ι) (place : ι) : Owned ι where
  table := Function.update owned.table place (owned.heap.calls + 1)
  heap := { owned.heap with
    calls := owned.heap.calls + 1, live := (owned.heap.calls + 1) :: owned.heap.live }

/-- The block of a place is given back. -/
def release (owned : Owned ι) (place : ι) : Owned ι :=
  if owned.table place ≠ 0 then
    ⟨Function.update owned.table place 0, owned.heap.free (owned.table place)⟩
  else owned

theorem record_table (owned : Owned ι) (place other : ι) :
    (owned.record place).table other =
      if other = place then owned.heap.calls + 1 else owned.table other :=
  Function.update_apply ..

theorem release_table (owned : Owned ι) (place other : ι) :
    (owned.release place).table other = if other = place then 0 else owned.table other := by
  unfold Owned.release
  split_ifs with some here here
  · rw [here]
    exact Function.update_self ..
  · exact Function.update_of_ne here _ _
  · rw [here]
    exact not_not.mp some
  · rfl

theorem release_live (owned : Owned ι) (place : ι) :
    (owned.release place).heap.live =
      if owned.table place ≠ 0 then owned.heap.live.erase (owned.table place)
      else owned.heap.live := by
  unfold Owned.release
  split_ifs <;> rfl

theorem release_calls (owned : Owned ι) (place : ι) :
    (owned.release place).heap.calls = owned.heap.calls := by
  unfold Owned.release
  split_ifs <;> rfl

/-! ## Blocks that are named -/

/-- The table names different blocks that are in use. -/
structure Holds (owned : Owned ι) : Prop where
  live : ∀ place, owned.table place ≠ 0 → owned.table place ∈ owned.heap.live
  apart : ∀ place other, owned.table place = owned.table other → owned.table place ≠ 0 →
    place = other
  numbered : ∀ block ∈ owned.heap.live, 0 < block ∧ block ≤ owned.heap.calls
  nodup : owned.heap.live.Nodup

/-- The table names every block in use. -/
def Covers (owned : Owned ι) : Prop := ∀ block ∈ owned.heap.live, ∃ place, owned.table place = block

omit [DecidableEq ι] in
theorem Holds.fresh {owned : Owned ι} (holds : owned.Holds) (place : ι) :
    owned.table place ≠ owned.heap.calls + 1 := by
  intro same
  have known := (holds.numbered _ (holds.live place (by omega))).2
  omega

theorem Holds.record (holds : owned.Holds) (place : ι) : (owned.record place).Holds := by
  refine ⟨fun other some => ?_, fun one other same some => ?_, fun block listed => ?_, ?_⟩
  · rw [record_table] at some ⊢
    split_ifs at some ⊢ with here
    · exact List.mem_cons_self
    · exact List.mem_cons_of_mem _ (holds.live other some)
  · rw [record_table] at same some
    rw [record_table] at same
    split_ifs at same some with first second second
    · rw [first, second]
    · exact absurd same.symm (holds.fresh other)
    · exact absurd same (holds.fresh one)
    · exact holds.apart one other same some
  · rcases List.mem_cons.mp listed with rfl | old
    · exact ⟨Nat.succ_pos _, Nat.le_refl _⟩
    · have bounds := holds.numbered block old
      exact ⟨bounds.1, Nat.le_succ_of_le bounds.2⟩
  · refine List.nodup_cons.mpr ⟨fun listed => ?_, holds.nodup⟩
    have bounds := holds.numbered _ listed
    omega

theorem Covers.record (covers : owned.Covers) {place : ι} (empty : owned.table place = 0)
    (holds : owned.Holds) : (owned.record place).Covers := by
  intro block listed
  rcases List.mem_cons.mp listed with rfl | old
  · exact ⟨place, (record_table ..).trans (if_pos rfl)⟩
  · obtain ⟨other, names⟩ := covers block old
    have elsewhere : other ≠ place := by
      rintro rfl
      have some := (holds.numbered block old).1
      omega
    exact ⟨other, (record_table ..).trans ((if_neg elsewhere).trans names)⟩

omit [DecidableEq ι] in
theorem Holds.refused {owned : Owned ι} (holds : owned.Holds) : owned.refused.Holds where
  live := holds.live
  apart := holds.apart
  numbered := fun block listed =>
    ⟨(holds.numbered block listed).1, Nat.le_succ_of_le (holds.numbered block listed).2⟩
  nodup := holds.nodup

theorem Holds.release (holds : owned.Holds) (place : ι) : (owned.release place).Holds := by
  have sublist : ∀ block ∈ (owned.release place).heap.live, block ∈ owned.heap.live := by
    intro block listed
    rw [release_live] at listed
    split_ifs at listed
    · exact List.mem_of_mem_erase listed
    · exact listed
  refine ⟨fun one some => ?_, fun one two same some => ?_, fun block listed => ?_, ?_⟩
  · rw [release_table] at some ⊢
    split_ifs at some ⊢ with here
    · exact absurd rfl some
    · rw [release_live]
      split_ifs
      · refine (List.mem_erase_of_ne fun same => here ?_).mpr (holds.live one some)
        exact holds.apart one place same some
      · exact holds.live one some
  · rw [release_table] at same some
    rw [release_table] at same
    split_ifs at same some with first second second
    · exact absurd rfl some
    · exact absurd rfl some
    · exact absurd same some
    · exact holds.apart one two same some
  · rw [release_calls]
    exact holds.numbered block (sublist block listed)
  · rw [release_live]
    split_ifs
    · exact holds.nodup.erase _
    · exact holds.nodup

theorem Covers.release (covers : owned.Covers) (holds : owned.Holds) (place : ι) :
    (owned.release place).Covers := by
  intro block listed
  rw [release_live] at listed
  split_ifs at listed with some
  · obtain ⟨different, old⟩ := holds.nodup.mem_erase_iff.mp listed
    obtain ⟨other, names⟩ := covers block old
    have elsewhere : other ≠ place := fun here => different (here ▸ names).symm
    exact ⟨other, (release_table ..).trans ((if_neg elsewhere).trans names)⟩
  · obtain ⟨other, names⟩ := covers block listed
    have elsewhere : other ≠ place := by
      rintro rfl
      have positive := (holds.numbered block listed).1
      omega
    exact ⟨other, (release_table ..).trans ((if_neg elsewhere).trans names)⟩

/-- A block is in use or was freed. -/
theorem Holds.release_perm (holds : owned.Holds) (place : ι) :
    ((owned.release place).heap.freed ++ (owned.release place).heap.live).Perm
      (owned.heap.freed ++ owned.heap.live) := by
  unfold Owned.release
  split_ifs with some
  · have front := (List.perm_cons_erase (holds.live place some)).symm
    rw [Heap.free, List.append_assoc]
    exact front.append_left owned.heap.freed
  · exact List.Perm.refl _

/-- What giving back one place after the other preserves, and where it ends. -/
theorem Holds.releases (holds : owned.Holds) (covers : owned.Covers) (places : List ι) :
    (places.foldl Owned.release owned).Holds ∧ (places.foldl Owned.release owned).Covers ∧
      (∀ place, (places.foldl Owned.release owned).table place =
        if place ∈ places then 0 else owned.table place) ∧
      ((places.foldl Owned.release owned).heap.freed ++
        (places.foldl Owned.release owned).heap.live).Perm
          (owned.heap.freed ++ owned.heap.live) := by
  induction places generalizing owned with
  | nil => exact ⟨holds, covers, fun _ => (if_neg List.not_mem_nil).symm, List.Perm.refl _⟩
  | cons first places ih =>
      obtain ⟨still, covered, cleared, moved⟩ := ih (holds.release first)
        (covers.release holds first)
      refine ⟨still, covered, fun place => ?_, moved.trans (holds.release_perm first)⟩
      rw [List.foldl_cons, cleared, release_table]
      simp only [List.mem_cons]
      split_ifs <;> simp_all

/-- If the places that are given back are all that name a block, no block stays in use and each one
was freed once. -/
theorem Holds.releases_all (holds : owned.Holds) (covers : owned.Covers) {places : List ι}
    (all : ∀ place, owned.table place ≠ 0 → place ∈ places) :
    (places.foldl Owned.release owned).heap.live = [] ∧
      (places.foldl Owned.release owned).heap.freed.Perm
        (owned.heap.freed ++ owned.heap.live) := by
  obtain ⟨still, covered, cleared, moved⟩ := holds.releases covers places
  have empty : (places.foldl Owned.release owned).heap.live = [] := by
    apply List.eq_nil_iff_forall_not_mem.mpr
    intro block listed
    obtain ⟨place, names⟩ := covered block listed
    have positive := (still.numbered block listed).1
    rw [cleared] at names
    split_ifs at names with inside
    · omega
    · exact inside (all place (by omega))
  rw [empty, List.append_nil] at moved
  exact ⟨empty, moved⟩

/-! ## Blocks that are lost -/

/-- A block in use that the table does not name. -/
structure Lost (block : Nat) (owned : Owned ι) : Prop where
  live : block ∈ owned.heap.live
  old : block ≤ owned.heap.calls
  unnamed : ∀ place, owned.table place ≠ block

/-- A pointer that is recorded over another one. -/
theorem Holds.lost (holds : owned.Holds) {place : ι} (some : owned.table place ≠ 0) :
    Lost (owned.table place) (owned.record place) := by
  have listed := holds.live place some
  refine ⟨List.mem_cons_of_mem _ listed, Nat.le_succ_of_le (holds.numbered _ listed).2,
    fun other => ?_⟩
  rw [record_table]
  split_ifs with here
  · exact (holds.fresh place).symm
  · intro same
    exact here (holds.apart other place same (same ▸ some))

theorem Lost.record {block : Nat} (lost : Lost block owned) (place : ι) :
    Lost block (owned.record place) := by
  refine ⟨List.mem_cons_of_mem _ lost.live, Nat.le_succ_of_le lost.old, fun other => ?_⟩
  have old := lost.old
  rw [record_table]
  split_ifs
  · omega
  · exact lost.unnamed other

omit [DecidableEq ι] in
theorem Lost.refused {owned : Owned ι} {block : Nat} (lost : Lost block owned) :
    Lost block owned.refused :=
  ⟨lost.live, Nat.le_succ_of_le lost.old, lost.unnamed⟩

theorem Lost.release {block : Nat} (lost : Lost block owned) (positive : block ≠ 0) (place : ι) :
    Lost block (owned.release place) := by
  refine ⟨?_, (release_calls owned place).symm ▸ lost.old, fun other => ?_⟩
  · rw [release_live]
    split_ifs
    · exact (List.mem_erase_of_ne (lost.unnamed place).symm).mpr lost.live
    · exact lost.live
  · rw [release_table]
    split_ifs
    · exact positive.symm
    · exact lost.unnamed other

/-- A lost block is not given back. -/
theorem Lost.releases {block : Nat} (lost : Lost block owned) (positive : block ≠ 0)
    (places : List ι) : Lost block (places.foldl Owned.release owned) := by
  induction places generalizing owned with
  | nil => exact lost
  | cons first places ih => exact ih (lost.release positive first)

end Owned

end QHal.Owners
