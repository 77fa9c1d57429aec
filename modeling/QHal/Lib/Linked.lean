/-
Module: QHal.Lib.Linked
Purpose: Singly linked cells: the cells between two pointers, lists that end at a null
  pointer, rings that come back to their head, and what a change of one link does.
Trusted boundary: none
Main exports: Linked.Segment, Linked.Ring, Linked.segment_append, Linked.segment_congr,
  Linked.ring_of_segment
-/
import Mathlib.Logic.Function.Basic
import Mathlib.Data.List.Basic

namespace QHal.Linked

variable {α : Type} {next other : α → Option α} {head stop : Option α}

/-- The links lead from `head` through the cells to `stop`. -/
def Segment (next : α → Option α) : Option α → List α → Option α → Prop
  | head, [], stop => head = stop
  | head, cell :: cells, stop => head = some cell ∧ Segment next (next cell) cells stop

/-- The links lead from a cell through all cells of a list and back to it. -/
def Ring (next : α → Option α) (head : Option α) (cells : List α) : Prop :=
  cells ≠ [] ∧ Segment next head cells head

/-- A segment in two parts. -/
theorem segment_append {front back : List α} :
    Segment next head (front ++ back) stop ↔
      ∃ middle, Segment next head front middle ∧ Segment next middle back stop := by
  induction front generalizing head with
  | nil =>
      constructor
      · exact fun segment => ⟨head, rfl, segment⟩
      · rintro ⟨middle, rfl, segment⟩
        exact segment
  | cons cell cells ih =>
      constructor
      · rintro ⟨first, rest⟩
        obtain ⟨middle, before, behind⟩ := ih.mp rest
        exact ⟨middle, ⟨first, before⟩, behind⟩
      · rintro ⟨middle, ⟨first, before⟩, behind⟩
        exact ⟨first, ih.mpr ⟨middle, before, behind⟩⟩

/-- The head of a list that ends at a null pointer. -/
theorem segment_head {cells : List α} (segment : Segment next head cells none) :
    head = cells.head? := by
  cases cells with
  | nil => exact segment
  | cons cell cells => exact segment.1

/-- The cells of a segment depend on their own links only. -/
theorem segment_congr {cells : List α} (same : ∀ cell ∈ cells, other cell = next cell)
    (segment : Segment next head cells stop) : Segment other head cells stop := by
  induction cells generalizing head with
  | nil => exact segment
  | cons cell cells ih =>
      obtain ⟨first, rest⟩ := segment
      refine ⟨first, ?_⟩
      rw [same cell List.mem_cons_self]
      exact ih (fun later member => same later (List.mem_cons_of_mem cell member)) rest

theorem ring_congr {cells : List α} (same : ∀ cell ∈ cells, other cell = next cell)
    (ring : Ring next head cells) : Ring other head cells :=
  ⟨ring.1, segment_congr same ring.2⟩

/-- A segment whose last cell is linked to its head becomes a ring. -/
theorem ring_of_segment [DecidableEq α] {cells : List α} {last : α}
    (distinct : (cells ++ [last]).Nodup) (segment : Segment next head (cells ++ [last]) stop) :
    Ring (Function.update next last head) head (cells ++ [last]) := by
  obtain ⟨middle, before, first, -⟩ := segment_append.mp segment
  have apart : ∀ cell ∈ cells, Function.update next last head cell = next cell := by
    intro cell member
    refine Function.update_of_ne ?_ _ _
    rintro rfl
    exact (List.nodup_append.mp distinct).2.2 cell member cell List.mem_cons_self rfl
  refine ⟨by simp, segment_append.mpr ⟨middle, segment_congr apart before, first, ?_⟩⟩
  exact Function.update_self ..

end QHal.Linked
