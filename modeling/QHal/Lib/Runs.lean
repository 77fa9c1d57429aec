/-
Module: QHal.Lib.Runs
Purpose: Runs of a labelled step function, the rule that an invariant holds at
  the end of every run, and runs each of whose steps meets a condition.
Trusted boundary: none
Main exports: Runs.exec, Runs.Meets, Runs.invariant, Runs.meets_iff, Runs.always_iff,
  Runs.invariant_always, Runs.reaches, Runs.lockstep, Runs.tally, Runs.tally_balance
-/
import Mathlib.Logic.Basic

namespace QHal.Runs

variable {σ α : Type} {step : σ → α → Option σ}

/-- The state behind a run, or nothing if some step of it is not enabled. -/
def exec (step : σ → α → Option σ) : σ → List α → Option σ
  | state, [] => some state
  | state, action :: actions => (step state action).bind fun next => exec step next actions

/-- Every step of a run meets a condition in the state before it. -/
def Meets (step : σ → α → Option σ) (cond : σ → α → Prop) : σ → List α → Prop
  | _, [] => True
  | state, action :: actions =>
      cond state action ∧
        match step state action with
        | some next => Meets step cond next actions
        | none => True

instance Meets.decidable (step : σ → α → Option σ) (cond : σ → α → Prop)
    [∀ state action, Decidable (cond state action)] :
    ∀ (state : σ) (actions : List α), Decidable (Meets step cond state actions)
  | _, [] => inferInstanceAs (Decidable True)
  | state, action :: actions =>
      have rest : Decidable (match step state action with
          | some next => Meets step cond next actions
          | none => True) :=
        match step state action with
        | some next => Meets.decidable step cond next actions
        | none => inferInstanceAs (Decidable True)
      @instDecidableAnd (cond state action) _ _ rest

theorem exec_cons {state last : σ} {action : α} {actions : List α} :
    exec step state (action :: actions) = some last ↔
      ∃ next, step state action = some next ∧ exec step next actions = some last := by
  simp [exec, Option.bind_eq_some_iff]

/-- A run in two parts. -/
theorem exec_append {state : σ} {first second : List α} :
    exec step state (first ++ second) =
      (exec step state first).bind fun next => exec step next second := by
  induction first generalizing state with
  | nil => rfl
  | cons action actions ih => simp [exec, ih, Option.bind_assoc]

/-- What each step preserves holds at the end of a run. -/
theorem invariant {cond : σ → α → Prop} {inv : σ → Prop}
    (keeps : ∀ state action next, inv state → cond state action →
      step state action = some next → inv next)
    {state last : σ} {actions : List α} (holds : inv state)
    (meets : Meets step cond state actions) (run : exec step state actions = some last) :
    inv last := by
  induction actions generalizing state with
  | nil =>
      cases run
      exact holds
  | cons action actions ih =>
      obtain ⟨next, stepped, rest⟩ := exec_cons.mp run
      obtain ⟨now, later⟩ := meets
      rw [stepped] at later
      exact ih (keeps state action next holds now stepped) later rest

/-- A condition that holds of every step from an invariant state is met. -/
theorem meets_of_invariant {cond : σ → α → Prop} {inv : σ → Prop}
    (keeps : ∀ state action next, inv state → step state action = some next → inv next)
    (gives : ∀ state action, inv state → cond state action) {state : σ} (actions : List α)
    (holds : inv state) : Meets step cond state actions := by
  induction actions generalizing state with
  | nil => trivial
  | cons action actions ih =>
      refine ⟨gives state action holds, ?_⟩
      cases stepped : step state action with
      | none => trivial
      | some next => exact ih (keeps state action next holds stepped)

/-- Under an invariant that a condition keeps, a run meets it when it meets one that says the
same of each step. -/
theorem meets_iff {cond good : σ → α → Prop} {inv : σ → Prop} {allowed : α → Prop}
    (same : ∀ state action, inv state → allowed action → (good state action ↔ cond state action))
    (keeps : ∀ state action next, inv state → allowed action → cond state action →
      step state action = some next → inv next)
    {state : σ} {actions : List α} (holds : inv state) (all : ∀ action ∈ actions, allowed action) :
    Meets step good state actions ↔ Meets step cond state actions := by
  induction actions generalizing state with
  | nil => exact Iff.rfl
  | cons action actions ih =>
      obtain ⟨own, later⟩ := List.forall_mem_cons.mp all
      rw [Meets, Meets, same state action holds own]
      apply and_congr_right
      intro now
      cases stepped : step state action with
      | none => exact Iff.rfl
      | some next => exact ih (keeps state action next holds own now stepped) later

/-- An invariant holds in every state that a run passes exactly if each of its steps keeps it. -/
theorem always_iff {inv : σ → Prop} {state : σ} {actions : List α} (holds : inv state) :
    (∀ before after reached, actions = before ++ after →
      exec step state before = some reached → inv reached) ↔
      Meets step (fun state action => ∀ next, step state action = some next → inv next) state
        actions := by
  induction actions generalizing state with
  | nil =>
      refine ⟨fun _ => trivial, fun _ before after reached split run => ?_⟩
      obtain ⟨rfl, -⟩ := List.append_eq_nil_iff.mp split.symm
      cases run
      exact holds
  | cons action actions ih =>
      constructor
      · intro always
        have kept : ∀ next, step state action = some next → inv next := fun next stepped =>
          always [action] actions next rfl (exec_cons.mpr ⟨next, stepped, rfl⟩)
        refine ⟨kept, ?_⟩
        cases stepped : step state action with
        | none => trivial
        | some next =>
            apply (ih (kept next stepped)).mp
            intro before after reached split run
            apply always (action :: before) after reached
            · rw [split, List.cons_append]
            · exact exec_cons.mpr ⟨next, stepped, run⟩
      · rintro ⟨kept, later⟩ before after reached split run
        cases before with
        | nil =>
            cases run
            exact holds
        | cons first before =>
            obtain ⟨rfl, rest⟩ := List.cons.inj split
            obtain ⟨next, stepped, run⟩ := exec_cons.mp run
            rw [stepped] at later
            exact (ih (kept next stepped)).mpr later before after reached rest run

/-- What each step preserves without a condition holds at the end of a run. -/
theorem invariant_always {inv : σ → Prop}
    (keeps : ∀ state action next, inv state → step state action = some next → inv next)
    {state last : σ} {actions : List α} (holds : inv state)
    (run : exec step state actions = some last) : inv last := by
  have always : Meets step (fun _ _ => True) state actions :=
    meets_of_invariant keeps (fun _ _ _ => trivial) actions holds
  exact invariant (fun state action next before _ => keeps state action next before) holds always
    run

/-- A run whose steps are enabled from every invariant state does not get stuck. -/
theorem reaches {cond : σ → α → Prop} {inv : σ → Prop}
    (progress : ∀ state action, inv state → cond state action →
      ∃ next, step state action = some next ∧ inv next)
    {state : σ} {actions : List α} (holds : inv state) (meets : Meets step cond state actions) :
    ∃ last, exec step state actions = some last ∧ inv last := by
  induction actions generalizing state with
  | nil => exact ⟨state, rfl, holds⟩
  | cons action actions ih =>
      obtain ⟨now, later⟩ := meets
      obtain ⟨next, stepped, after⟩ := progress state action holds now
      rw [stepped] at later
      obtain ⟨last, run, final⟩ := ih after later
      exact ⟨last, exec_cons.mpr ⟨next, stepped, run⟩, final⟩

/-- Two systems whose steps are enabled together and keep a relation run in lockstep. -/
theorem lockstep {τ : Type} {other : τ → α → Option τ} {related : σ → τ → Prop}
    (keeps : ∀ state mate action, related state mate →
      Option.Rel related (step state action) (other mate action))
    {state : σ} {mate : τ} (holds : related state mate) (actions : List α) :
    Option.Rel related (exec step state actions) (exec other mate actions) := by
  induction actions generalizing state mate with
  | nil => exact Option.Rel.some holds
  | cons action actions ih =>
      have stepped := keeps state mate action holds
      unfold exec
      generalize step state action = left at stepped ⊢
      generalize other mate action = right at stepped ⊢
      cases stepped with
      | some next => exact ih next
      | none => exact Option.Rel.none

/-- How many steps of a run count. -/
def tally (step : σ → α → Option σ) (counts : σ → α → Bool) : σ → List α → Nat
  | _, [] => 0
  | state, action :: actions =>
      (if counts state action then 1 else 0) +
        match step state action with
        | some next => tally step counts next actions
        | none => 0

/-- If each step accounts for the change of a size, so does a run. -/
theorem tally_balance {inv : σ → Prop} {size : σ → Nat} {ins outs : σ → α → Bool}
    (keeps : ∀ state action next, inv state → step state action = some next →
      inv next ∧ size next + (if outs state action then 1 else 0) =
        size state + if ins state action then 1 else 0)
    {state last : σ} {actions : List α} (holds : inv state)
    (run : exec step state actions = some last) :
    size last + tally step outs state actions = size state + tally step ins state actions := by
  induction actions generalizing state with
  | nil =>
      cases run
      rfl
  | cons action actions ih =>
      obtain ⟨next, stepped, rest⟩ := exec_cons.mp run
      obtain ⟨after, change⟩ := keeps state action next holds stepped
      have later := ih after rest
      simp only [tally, stepped]
      omega

end QHal.Runs
