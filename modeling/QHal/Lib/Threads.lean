/-
Module: QHal.Lib.Threads
Purpose: Threads whose programs are guarded atomic actions on a shared state and sections
  under one mutex: their interleavings, balanced locking, and what a thread does when it
  runs to its end alone.
Trusted boundary: none
Main exports: Code, System, System.advance, Code.Balanced, System.Disciplined,
  System.released, Code.solo, Code.Each, Code.Commutes, System.solo_advance
-/
import Mathlib.Logic.Function.Basic

namespace QHal.Threads

/-- What a thread has still to do: nothing but to return, to take or to give back the mutex,
or an atomic action.  An action waits for its guard, and what follows it may depend on the
state it found. -/
inductive Code (ℓ σ ρ : Type) where
  | ret (value : ρ)
  | lock (rest : Code ℓ σ ρ)
  | unlock (rest : Code ℓ σ ρ)
  | act (label : ℓ) (guard : σ → Bool) (effect : σ → σ) (next : σ → Code ℓ σ ρ)

/-- A shared state, the thread that holds the mutex, and the threads. -/
structure System (ι ℓ σ ρ : Type) where
  shared : σ
  owner : Option ι
  code : ι → Code ℓ σ ρ

variable {ι ℓ σ ρ : Type} [DecidableEq ι]

namespace System

/-- A thread is given a program. -/
def start (system : System ι ℓ σ ρ) (thread : ι) (code : Code ℓ σ ρ) : System ι ℓ σ ρ :=
  { system with code := Function.update system.code thread code }

/-- One step of a thread, or nothing if it has returned or must wait. -/
def advance (system : System ι ℓ σ ρ) (thread : ι) : Option (System ι ℓ σ ρ) :=
  match system.code thread with
  | .ret _ => none
  | .lock rest =>
      if system.owner = none then
        some { system.start thread rest with owner := some thread }
      else none
  | .unlock rest =>
      if system.owner = some thread then
        some { system.start thread rest with owner := none }
      else none
  | .act _ guard effect next =>
      if guard system.shared then
        some { system.start thread (next system.shared) with shared := effect system.shared }
      else none

variable {system after : System ι ℓ σ ρ} {thread other : ι}

@[simp] theorem start_shared (code : Code ℓ σ ρ) :
    (system.start thread code).shared = system.shared := rfl

@[simp] theorem start_owner (code : Code ℓ σ ρ) :
    (system.start thread code).owner = system.owner := rfl

@[simp] theorem start_code_self (code : Code ℓ σ ρ) :
    (system.start thread code).code thread = code :=
  Function.update_self ..

theorem start_code_other (different : other ≠ thread) (code : Code ℓ σ ρ) :
    (system.start thread code).code other = system.code other :=
  Function.update_of_ne different ..

/-- What a step of a thread can do. -/
theorem advance_cases (stepped : system.advance thread = some after) :
    (∃ rest, system.code thread = .lock rest ∧ system.owner = none ∧
      after = { system.start thread rest with owner := some thread }) ∨
    (∃ rest, system.code thread = .unlock rest ∧ system.owner = some thread ∧
      after = { system.start thread rest with owner := none }) ∨
    (∃ label guard effect next, system.code thread = .act label guard effect next ∧
      guard system.shared = true ∧
      after = { system.start thread (next system.shared) with
        shared := effect system.shared }) := by
  rw [advance] at stepped
  split at stepped
  · cases stepped
  next rest code =>
    split at stepped
    · exact Or.inl ⟨rest, code, by assumption, (Option.some.inj stepped).symm⟩
    · cases stepped
  next rest code =>
    split at stepped
    · exact Or.inr (Or.inl ⟨rest, code, by assumption, (Option.some.inj stepped).symm⟩)
    · cases stepped
  next label guard effect next code =>
    split at stepped
    · exact Or.inr (Or.inr ⟨label, guard, effect, next, code, by assumption,
        (Option.some.inj stepped).symm⟩)
    · cases stepped

theorem advance_lock {rest : Code ℓ σ ρ} (code : system.code thread = .lock rest)
    (stepped : system.advance thread = some after) :
    after.shared = system.shared ∧ after.code thread = rest := by
  simp only [advance, code, Option.ite_none_right_eq_some, Option.some.injEq] at stepped
  obtain ⟨_, rfl⟩ := stepped
  exact ⟨rfl, start_code_self rest⟩

theorem advance_unlock {rest : Code ℓ σ ρ} (code : system.code thread = .unlock rest)
    (stepped : system.advance thread = some after) :
    after.shared = system.shared ∧ after.code thread = rest := by
  simp only [advance, code, Option.ite_none_right_eq_some, Option.some.injEq] at stepped
  obtain ⟨_, rfl⟩ := stepped
  exact ⟨rfl, start_code_self rest⟩

theorem advance_act {label : ℓ} {guard : σ → Bool} {effect : σ → σ} {next : σ → Code ℓ σ ρ}
    (code : system.code thread = .act label guard effect next)
    (stepped : system.advance thread = some after) :
    guard system.shared = true ∧ after.shared = effect system.shared ∧
      after.code thread = next system.shared := by
  simp only [advance, code, Option.ite_none_right_eq_some, Option.some.injEq] at stepped
  obtain ⟨holds, rfl⟩ := stepped
  exact ⟨holds, rfl, start_code_self _⟩

/-- A step leaves the programs of the other threads. -/
theorem advance_other (stepped : system.advance thread = some after) (different : other ≠ thread) :
    after.code other = system.code other := by
  obtain ⟨rest, _, _, rfl⟩ | ⟨rest, _, _, rfl⟩ | ⟨_, _, _, next, _, _, rfl⟩ :=
    advance_cases stepped
  · exact start_code_other different rest
  · exact start_code_other different rest
  · exact start_code_other different (next system.shared)

end System

/-! ## The mutex -/

/-- A program that takes the mutex only when it does not hold it, gives it back only when it
does, and returns without it. -/
def Code.Balanced : Bool → Code ℓ σ ρ → Prop
  | held, .ret _ => held = false
  | held, .lock rest => held = false ∧ rest.Balanced true
  | held, .unlock rest => held = true ∧ rest.Balanced false
  | held, .act _ _ _ next => ∀ state, (next state).Balanced held

namespace System

/-- Every thread goes on from what it holds. -/
def Disciplined (system : System ι ℓ σ ρ) : Prop :=
  ∀ thread, (system.code thread).Balanced (decide (system.owner = some thread))

variable {system after : System ι ℓ σ ρ} {thread : ι}

/-- A thread that has returned does not hold the mutex. -/
theorem released (disciplined : system.Disciplined) {value : ρ}
    (returned : system.code thread = .ret value) : system.owner ≠ some thread := by
  have balanced := disciplined thread
  rw [returned] at balanced
  exact of_decide_eq_false balanced

theorem disciplined_start (disciplined : system.Disciplined) {value : ρ}
    (returned : system.code thread = .ret value) {code : Code ℓ σ ρ}
    (balanced : code.Balanced false) : (system.start thread code).Disciplined := by
  intro other
  by_cases same : other = thread
  · subst same
    have free : decide (system.owner = some other) = false :=
      decide_eq_false (released disciplined returned)
    rw [start_code_self, start_owner, free]
    exact balanced
  · rw [start_code_other same, start_owner]
    exact disciplined other

theorem disciplined_advance (disciplined : system.Disciplined)
    (stepped : system.advance thread = some after) : after.Disciplined := by
  intro other
  have mine := disciplined thread
  have theirs := disciplined other
  obtain ⟨rest, code, free, rfl⟩ | ⟨rest, code, mineNow, rfl⟩ | ⟨_, _, _, next, code, _, rfl⟩ :=
    advance_cases stepped
  · rw [code] at mine
    by_cases same : other = thread
    · subst same
      simpa using mine.2
    · rw [free] at theirs
      have ne : thread ≠ other := fun h => same h.symm
      simpa [start_code_other same, ne] using theirs
  · rw [code] at mine
    by_cases same : other = thread
    · subst same
      simpa using mine.2
    · rw [mineNow] at theirs
      have ne : thread ≠ other := fun h => same h.symm
      simpa [start_code_other same, ne] using theirs
  · rw [code] at mine
    change (((system.start thread (next system.shared)).code other).Balanced
      (decide (system.owner = some other)))
    by_cases same : other = thread
    · subst same
      rw [start_code_self]
      exact mine system.shared
    · rw [start_code_other same]
      exact theirs

end System

/-! ## A thread alone -/

namespace Code

/-- The state behind a program that runs to its end with no other thread in between. -/
def solo : Code ℓ σ ρ → σ → σ
  | .ret _, state => state
  | .lock rest, state => rest.solo state
  | .unlock rest, state => rest.solo state
  | .act _ _ effect next, state => (next state).solo (effect state)

/-- Every action of a program keeps a relation between the states before and behind it. -/
def Each (keeps : σ → σ → Prop) : Code ℓ σ ρ → Prop
  | .ret _ => True
  | .lock rest => rest.Each keeps
  | .unlock rest => rest.Each keeps
  | .act _ _ effect next =>
      (∀ state, keeps state (effect state)) ∧ ∀ state, (next state).Each keeps

/-- A program that neither reads what a change of the state changes nor writes it. -/
def Commutes (change : σ → σ) : Code ℓ σ ρ → Prop
  | .ret _ => True
  | .lock rest => rest.Commutes change
  | .unlock rest => rest.Commutes change
  | .act _ _ effect next =>
      (∀ state, effect (change state) = change (effect state) ∧
        next (change state) = next state) ∧
      ∀ state, (next state).Commutes change

/-- What every action keeps, a whole program keeps. -/
theorem Each.solo {keeps : σ → σ → Prop} (refl : ∀ state, keeps state state)
    (trans : ∀ first second third, keeps first second → keeps second third → keeps first third)
    {code : Code ℓ σ ρ} (each : code.Each keeps) (state : σ) : keeps state (code.solo state) := by
  induction code generalizing state with
  | ret value => exact refl state
  | lock rest ih => exact ih each state
  | unlock rest ih => exact ih each state
  | act label guard effect next ih =>
      exact trans _ _ _ (each.1 state) (ih state (each.2 state) (effect state))

/-- A change that a program commutes with may be made before it or behind it. -/
theorem Commutes.solo {change : σ → σ} {code : Code ℓ σ ρ} (commutes : code.Commutes change)
    (state : σ) : code.solo (change state) = change (code.solo state) := by
  induction code generalizing state with
  | ret value => rfl
  | lock rest ih => exact ih commutes state
  | unlock rest ih => exact ih commutes state
  | act label guard effect next ih =>
      obtain ⟨writes, reads⟩ := commutes.1 state
      rw [Code.solo, Code.solo, writes, reads]
      exact ih state (commutes.2 state) (effect state)

end Code

namespace System

variable {system after : System ι ℓ σ ρ} {thread : ι}

/-- A step of a thread does not change where it ends when it goes on alone. -/
theorem solo_advance (stepped : system.advance thread = some after) :
    (after.code thread).solo after.shared = (system.code thread).solo system.shared := by
  obtain ⟨rest, code, _, rfl⟩ | ⟨rest, code, _, rfl⟩ | ⟨_, _, effect, next, code, _, rfl⟩ :=
    advance_cases stepped
  · simp [code, Code.solo]
  · simp [code, Code.solo]
  · simp [code, Code.solo]

theorem each_advance {keeps : σ → σ → Prop} (each : (system.code thread).Each keeps)
    (stepped : system.advance thread = some after) : (after.code thread).Each keeps := by
  obtain ⟨rest, code, _, rfl⟩ | ⟨rest, code, _, rfl⟩ | ⟨_, _, effect, next, code, _, rfl⟩ :=
    advance_cases stepped
  · rw [code, Code.Each] at each
    simpa using each
  · rw [code, Code.Each] at each
    simpa using each
  · rw [code] at each
    simpa using each.2 system.shared

theorem each_step {keeps : σ → σ → Prop} (refl : ∀ state, keeps state state)
    (each : (system.code thread).Each keeps) (stepped : system.advance thread = some after) :
    keeps system.shared after.shared := by
  obtain ⟨rest, code, _, rfl⟩ | ⟨rest, code, _, rfl⟩ | ⟨_, _, effect, next, code, _, rfl⟩ :=
    advance_cases stepped
  · exact refl system.shared
  · exact refl system.shared
  · rw [code] at each
    exact each.1 system.shared

theorem commutes_advance {change : σ → σ} (commutes : (system.code thread).Commutes change)
    (stepped : system.advance thread = some after) : (after.code thread).Commutes change := by
  obtain ⟨rest, code, _, rfl⟩ | ⟨rest, code, _, rfl⟩ | ⟨_, _, effect, next, code, _, rfl⟩ :=
    advance_cases stepped
  · rw [code, Code.Commutes] at commutes
    simpa using commutes
  · rw [code, Code.Commutes] at commutes
    simpa using commutes
  · rw [code] at commutes
    simpa using commutes.2 system.shared

end System

end QHal.Threads
