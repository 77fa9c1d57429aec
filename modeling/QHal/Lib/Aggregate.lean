/-
Module: QHal.Lib.Aggregate
Purpose: The best ranked value of a collection, kept up to date when one value
  is replaced: raise it when the new value is better, search again only when
  the replaced value was the best.
Trusted boundary: none
Main exports: Aggregate.IsBest, Aggregate.search, Aggregate.revise,
  Aggregate.revise_isBest, Aggregate.IsBest.unique
-/
import Mathlib.Order.Basic
import Mathlib.Order.Lattice

namespace QHal.Aggregate

variable {α β : Type} {beats : α → α → Bool} {rank : α → β} [LinearOrder β]

/-- A comparison decides a rank: the first value beats the second when it ranks
strictly higher. -/
def Decides (beats : α → α → Bool) (rank : α → β) : Prop :=
  ∀ value held, beats value held = true ↔ rank held < rank value

/-- A best value of a collection, or the floor that stands for no value. -/
structure IsBest (rank : α → β) (floor : α) (values : List α) (held : α) : Prop where
  among : held = floor ∨ held ∈ values
  above : rank floor ≤ rank held
  best : ∀ value ∈ values, rank value ≤ rank held

/-- Go through the values and keep the best one seen. -/
def search (beats : α → α → Bool) (held : α) (values : List α) : α :=
  values.foldl (fun held value => if beats value held then value else held) held

/-- The incremental rule: a better value is taken, the loss of the best value
starts a search among the others, and any other change leaves the best. -/
def revise [DecidableEq α] (beats : α → α → Bool) (held old new : α) (others : List α) : α :=
  if beats new held then new
  else if held = old then search beats new others
  else held

theorem search_among (beats : α → α → Bool) (held : α) (values : List α) :
    search beats held values = held ∨ search beats held values ∈ values := by
  induction values generalizing held with
  | nil => exact Or.inl rfl
  | cons value values ih =>
      have step : search beats held (value :: values) =
          search beats (if beats value held then value else held) values := rfl
      rw [step]
      rcases ih (if beats value held then value else held) with kept | found
      · rw [kept]
        split
        · exact Or.inr List.mem_cons_self
        · exact Or.inl rfl
      · exact Or.inr (List.mem_cons_of_mem value found)

theorem search_bound (decides : Decides beats rank) (held : α) (values : List α) :
    rank held ≤ rank (search beats held values) ∧
      ∀ value ∈ values, rank value ≤ rank (search beats held values) := by
  induction values generalizing held with
  | nil => exact ⟨le_refl _, fun _ member => absurd member List.not_mem_nil⟩
  | cons value values ih =>
      have step : search beats held (value :: values) =
          search beats (if beats value held then value else held) values := rfl
      obtain ⟨start, rest⟩ := ih (if beats value held then value else held)
      have both : rank held ≤ rank (if beats value held then value else held) ∧
          rank value ≤ rank (if beats value held then value else held) := by
        split
        case isTrue beaten => exact ⟨le_of_lt ((decides _ _).mp beaten), le_refl _⟩
        case isFalse unbeaten =>
          exact ⟨le_refl _, not_lt.mp fun higher => unbeaten ((decides _ _).mpr higher)⟩
      rw [step]
      refine ⟨le_trans both.1 start, fun other member => ?_⟩
      rcases List.mem_cons.mp member with first | later
      · rw [first]
        exact le_trans both.2 start
      · exact rest other later

/-- Only one value is best when the rank tells values apart. -/
theorem IsBest.unique (injective : Function.Injective rank) {floor first second : α}
    {values : List α} (one : IsBest rank floor values first)
    (two : IsBest rank floor values second) : first = second := by
  apply injective
  apply le_antisymm
  · rcases one.among with none | member
    · rw [none]
      exact two.above
    · exact two.best first member
  · rcases two.among with none | member
    · rw [none]
      exact one.above
    · exact one.best second member

/-- The best value of a collection depends on its members only. -/
theorem IsBest.congr {floor held : α} {values same : List α}
    (members : ∀ value, value ∈ values ↔ value ∈ same) (isBest : IsBest rank floor values held) :
    IsBest rank floor same held where
  among := isBest.among.imp_right (members held).mp
  above := isBest.above
  best := fun value member => isBest.best value ((members value).mpr member)

/-- The floor is the best of nothing, and of a collection that holds only floors. -/
theorem isBest_floor (rank : α → β) {floor : α} {values : List α}
    (floors : ∀ value ∈ values, value = floor) : IsBest rank floor values floor where
  among := Or.inl rfl
  above := le_refl _
  best := fun value member => le_of_eq (congrArg rank (floors value member))

/-- A further floor changes nothing. -/
theorem IsBest.floor_cons {floor held : α} {values : List α} :
    IsBest rank floor (floor :: values) held ↔ IsBest rank floor values held := by
  constructor
  · intro isBest
    refine ⟨?_, isBest.above, fun value member =>
      isBest.best value (List.mem_cons_of_mem floor member)⟩
    rcases isBest.among with none | member
    · exact Or.inl none
    · exact List.mem_cons.mp member
  · intro isBest
    refine ⟨isBest.among.imp_right (List.mem_cons_of_mem floor), isBest.above, ?_⟩
    intro value member
    rcases List.mem_cons.mp member with none | member
    · rw [none]
      exact isBest.above
    · exact isBest.best value member

/-- The incremental rule keeps the best value. -/
theorem revise_isBest [DecidableEq α] (decides : Decides beats rank) {floor held old new : α}
    {others : List α} (lowest : rank floor ≤ rank new)
    (isBest : IsBest rank floor (old :: others) held) :
    IsBest rank floor (new :: others) (revise beats held old new others) := by
  have othersBound : ∀ value ∈ others, rank value ≤ rank held := fun value member =>
    isBest.best value (List.mem_cons_of_mem old member)
  unfold revise
  by_cases better : beats new held = true
  · have higher : rank held < rank new := (decides new held).mp better
    rw [if_pos better]
    refine ⟨Or.inr List.mem_cons_self, lowest, fun value member => ?_⟩
    rcases List.mem_cons.mp member with same | other
    · rw [same]
    · exact le_trans (othersBound value other) (le_of_lt higher)
  · have notHigher : rank new ≤ rank held :=
      not_lt.mp fun higher => better ((decides new held).mpr higher)
    rw [if_neg better]
    by_cases lost : held = old
    · rw [if_pos lost]
      obtain ⟨start, rest⟩ := search_bound decides new others
      refine ⟨Or.inr ?_, le_trans lowest start, fun value member => ?_⟩
      · rcases search_among beats new others with kept | found
        · rw [kept]
          exact List.mem_cons_self
        · exact List.mem_cons_of_mem new found
      · rcases List.mem_cons.mp member with same | other
        · rw [same]
          exact start
        · exact rest value other
    · -- The best value was another's, so the change cannot lose it.
      rw [if_neg lost]
      refine ⟨?_, isBest.above, fun value member => ?_⟩
      · rcases isBest.among with none | member
        · exact Or.inl none
        · rcases List.mem_cons.mp member with same | other
          · exact absurd same lost
          · exact Or.inr (List.mem_cons_of_mem new other)
      · rcases List.mem_cons.mp member with same | other
        · rw [same]
          exact notHigher
        · exact othersBound value other

end QHal.Aggregate
