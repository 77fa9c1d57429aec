/-
Module: QHal.Lib.BubbleSort
Purpose: Bubble sort in place as two nested loops over neighbours, by a test that
  says when neighbours change places, and its result: the same elements, with the
  keys in non-increasing order.
Trusted boundary: none
Main exports: BubbleSort.sort, BubbleSort.sort_perm, BubbleSort.sort_sorted
-/
import Mathlib.Order.Lattice

namespace QHal.BubbleSort

variable {α β : Type} {swaps : α → α → Bool}

/-- The inner loop over the first neighbours of a list: the smaller one moves on. -/
def pass (swaps : α → α → Bool) : Nat → List α → List α
  | 0, elements => elements
  | _ + 1, [] => []
  | _ + 1, [element] => [element]
  | pairs + 1, first :: second :: elements =>
      if swaps first second then second :: pass swaps pairs (first :: elements)
      else first :: pass swaps pairs (second :: elements)

/-- The outer loop: every round has one pair of neighbours less. -/
def rounds (swaps : α → α → Bool) : Nat → List α → List α
  | 0, elements => elements
  | pairs + 1, elements => rounds swaps pairs (pass swaps (pairs + 1) elements)

/-- Bubble sort of a whole list. -/
def sort (swaps : α → α → Bool) (elements : List α) : List α :=
  rounds swaps (elements.length - 1) elements

theorem pass_perm (swaps : α → α → Bool) (pairs : Nat) (elements : List α) :
    (pass swaps pairs elements).Perm elements := by
  induction pairs generalizing elements with
  | zero => exact List.Perm.refl _
  | succ pairs ih =>
      match elements with
      | [] => exact List.Perm.refl _
      | [element] => exact List.Perm.refl _
      | first :: second :: elements =>
          unfold pass
          split
          · exact ((ih (first :: elements)).cons second).trans
              (List.Perm.swap first second elements)
          · exact (ih (second :: elements)).cons first

theorem rounds_perm (swaps : α → α → Bool) (pairs : Nat) (elements : List α) :
    (rounds swaps pairs elements).Perm elements := by
  induction pairs generalizing elements with
  | zero => exact List.Perm.refl _
  | succ pairs ih => exact (ih _).trans (pass_perm swaps _ elements)

/-- Sorting keeps the elements. -/
theorem sort_perm (swaps : α → α → Bool) (elements : List α) :
    (sort swaps elements).Perm elements :=
  rounds_perm swaps _ elements

theorem sort_length (swaps : α → α → Bool) (elements : List α) :
    (sort swaps elements).length = elements.length :=
  (sort_perm swaps elements).length_eq

section Order

variable [LinearOrder β] {key : α → β}

/-- The test changes neighbours whose keys are out of order, and none whose keys are
strictly in order. -/
def Descends (swaps : α → α → Bool) (key : α → β) : Prop :=
  ∀ first second, (swaps first second = true → key first ≤ key second) ∧
    (swaps first second = false → key second ≤ key first)

/-- One round over a front part brings a smallest element of it to its end and leaves
what is behind. -/
theorem pass_smallest (descends : Descends swaps key) (first : α) (front back : List α) :
    ∃ larger smallest, pass swaps front.length (first :: (front ++ back)) =
        larger ++ smallest :: back ∧
      (smallest :: larger).Perm (first :: front) ∧
      ∀ element ∈ larger, key smallest ≤ key element := by
  induction front generalizing first with
  | nil => exact ⟨[], first, rfl, List.Perm.refl _, nofun⟩
  | cons second front ih =>
      -- Whichever neighbour is left behind is at least as large as the one that moves on.
      have left : ∀ behind moved, key moved ≤ key behind →
          (behind :: moved :: front).Perm (first :: second :: front) →
          pass swaps (second :: front).length (first :: (second :: front ++ back)) =
            behind :: pass swaps front.length (moved :: (front ++ back)) →
          ∃ larger smallest, pass swaps (second :: front).length
              (first :: (second :: front ++ back)) = larger ++ smallest :: back ∧
            (smallest :: larger).Perm (first :: second :: front) ∧
            ∀ element ∈ larger, key smallest ≤ key element := by
        intro behind moved ordered same step
        obtain ⟨larger, smallest, result, perm, bound⟩ := ih moved
        have least : key smallest ≤ key moved := by
          rcases List.mem_cons.mp (perm.mem_iff.mpr List.mem_cons_self) with equal | member
          · rw [equal]
          · exact bound moved member
        refine ⟨behind :: larger, smallest, ?_, ?_, ?_⟩
        · rw [step, result]
          rfl
        · exact ((List.Perm.swap behind smallest larger).trans (perm.cons behind)).trans same
        · intro element member
          rcases List.mem_cons.mp member with equal | later
          · rw [equal]
            exact le_trans least ordered
          · exact bound element later
      cases decision : swaps first second with
      | true =>
          refine left second first ((descends first second).1 decision) (List.Perm.swap ..) ?_
          simp [pass, decision]
      | false =>
          refine left first second ((descends first second).2 decision) (List.Perm.refl _) ?_
          simp [pass, decision]

/-- The rounds over a front part, with the rest sorted behind it. -/
theorem rounds_sorted (descends : Descends swaps key) (pairs : Nat) (front back : List α)
    (length : front.length = pairs + 1)
    (sorted : back.Pairwise fun first second => key second ≤ key first)
    (above : ∀ high ∈ front, ∀ low ∈ back, key low ≤ key high) :
    (rounds swaps pairs (front ++ back)).Pairwise fun first second => key second ≤ key first := by
  induction pairs generalizing front back with
  | zero =>
      obtain ⟨element, rfl⟩ := List.length_eq_one_iff.mp length
      exact List.pairwise_cons.mpr ⟨above element List.mem_cons_self, sorted⟩
  | succ pairs ih =>
      match front, length with
      | first :: front, length =>
          have shorter : front.length = pairs + 1 := Nat.succ.inj length
          obtain ⟨larger, smallest, result, perm, bound⟩ :=
            pass_smallest descends first front back
          have members : ∀ element, element ∈ smallest :: larger → element ∈ first :: front :=
            fun element => perm.mem_iff.mp
          have step : rounds swaps (pairs + 1) (first :: front ++ back) =
              rounds swaps pairs (larger ++ smallest :: back) := by
            rw [← result, shorter]
            rfl
          have count : larger.length = pairs + 1 := by
            have same := perm.length_eq
            simp only [List.length_cons] at same
            omega
          rw [step]
          refine ih larger (smallest :: back) count ?_ ?_
          · refine List.pairwise_cons.mpr ⟨fun low member => ?_, sorted⟩
            exact above smallest (members smallest List.mem_cons_self) low member
          · intro high highMember low lowMember
            rcases List.mem_cons.mp lowMember with equal | later
            · rw [equal]
              exact bound high highMember
            · exact above high (members high (List.mem_cons_of_mem _ highMember)) low later

/-- The keys of a sorted list do not increase. -/
theorem sort_sorted (descends : Descends swaps key) (elements : List α) :
    (sort swaps elements).Pairwise fun first second => key second ≤ key first := by
  match elements with
  | [] => exact List.Pairwise.nil
  | first :: rest =>
      have sorted := rounds_sorted descends rest.length (first :: rest) [] rfl List.Pairwise.nil
        (fun _ _ _ member => absurd member List.not_mem_nil)
      rw [List.append_nil] at sorted
      exact sorted

end Order

end QHal.BubbleSort
