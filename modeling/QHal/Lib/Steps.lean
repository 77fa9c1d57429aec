/-
Module: QHal.Lib.Steps
Purpose: Computations over a state that can fail: running one after another, and the rule
  that what each part does to the state, the whole does.
Trusted boundary: none
Main exports: Steps.Frame, Steps.Keeps, Keeps.pure, Keeps.bind, Keeps.ite,
  Keeps.mono, run_bind, bind_ok_iff, foldlM_invariant
-/
import Mathlib.Logic.Basic

namespace QHal.Steps

variable {σ ε α β : Type}

/-! ## Results -/

/-- A computation that ends has ended in its first part, and then in the rest. -/
theorem bind_ok_iff {value : Except ε α} {next : α → Except ε β} {result : β} :
    (value >>= next) = .ok result ↔ ∃ got, value = .ok got ∧ next got = .ok result := by
  cases value with
  | error fault => exact ⟨nofun, fun ⟨_, got, _⟩ => nomatch got⟩
  | ok got => exact ⟨fun ran => ⟨got, rfl, ran⟩, fun ⟨_, same, ran⟩ => Except.ok.inj same ▸ ran⟩

/-- What every step that ends keeps holds behind a fold that ends. -/
theorem foldlM_invariant {step : σ → α → Except ε σ} {Inv : σ → Prop}
    (keeps : ∀ state item next, Inv state → step state item = .ok next → Inv next)
    {state last : σ} {items : List α} (holds : Inv state)
    (ran : items.foldlM step state = .ok last) : Inv last := by
  induction items generalizing state with
  | nil =>
      cases ran
      exact holds
  | cons item items ih =>
      rw [List.foldlM_cons] at ran
      obtain ⟨next, stepped, rest⟩ := bind_ok_iff.mp ran
      exact ih (keeps state item next holds stepped) rest

/-! ## Running -/

/-- Behind a computation that ends, the rest runs on its result. -/
theorem run_bind {first : StateT σ (Except ε) α} {state next : σ} {result : α}
    (ends : first state = .ok (result, next)) (rest : α → StateT σ (Except ε) β) :
    (first >>= rest) state = rest result next := by
  change (first state >>= fun pair => rest pair.1 pair.2) = _
  rw [ends]
  rfl

/-- A computation that fails ends the whole. -/
theorem run_bind_error {first : StateT σ (Except ε) α} {state : σ} {fault : ε}
    (fails : first state = .error fault) (rest : α → StateT σ (Except ε) β) :
    (first >>= rest) state = .error fault := by
  change (first state >>= fun pair => rest pair.1 pair.2) = _
  rw [fails]
  rfl

@[simp] theorem run_pure (result : α) (state : σ) :
    (pure result : StateT σ (Except ε) α) state = .ok (result, state) := rfl

@[simp] theorem run_modify (change : σ → σ) (state : σ) :
    (modify change : StateT σ (Except ε) Unit) state = .ok ((), change state) := rfl

@[simp] theorem run_get_bind (rest : σ → StateT σ (Except ε) β) (state : σ) :
    ((get : StateT σ (Except ε) σ) >>= rest) state = rest state state := rfl

@[simp] theorem run_pure_bind (result : α) (rest : α → StateT σ (Except ε) β) (state : σ) :
    ((pure result : StateT σ (Except ε) α) >>= rest) state = rest result state := rfl

@[simp] theorem run_modify_bind (change : σ → σ) (rest : Unit → StateT σ (Except ε) β)
    (state : σ) :
    ((modify change : StateT σ (Except ε) Unit) >>= rest) state = rest () (change state) := rfl

/-! ## What a computation does to the state -/

/-- A relation of states that computations compose along, from the states of an invariant. -/
structure Frame (inv : σ → Prop) (rel : σ → σ → Prop) : Prop where
  refl : ∀ state, rel state state
  trans : ∀ first second third, rel first second → rel second third → rel first third
  stable : ∀ first second, inv first → rel first second → inv second

/-- From each state of the invariant the computation ends, in a related state. -/
def Keeps (inv : σ → Prop) (rel : σ → σ → Prop) (run : StateT σ (Except ε) α) : Prop :=
  ∀ state, inv state → ∃ result next, run state = .ok (result, next) ∧ rel state next

variable {inv : σ → Prop} {rel : σ → σ → Prop}

theorem Keeps.pure (frame : Frame inv rel) (result : α) :
    Keeps inv rel (Pure.pure result : StateT σ (Except ε) α) :=
  fun state _ => ⟨result, state, rfl, frame.refl state⟩

theorem Keeps.bind (frame : Frame inv rel) {first : StateT σ (Except ε) α}
    {rest : α → StateT σ (Except ε) β} (begins : Keeps inv rel first)
    (goes : ∀ result, Keeps inv rel (rest result)) : Keeps inv rel (first >>= rest) := by
  intro state holds
  obtain ⟨result, next, ends, moved⟩ := begins state holds
  obtain ⟨last, final, ended, onward⟩ := goes result next (frame.stable _ _ holds moved)
  exact ⟨last, final, (run_bind ends rest).trans ended, frame.trans _ _ _ moved onward⟩

theorem Keeps.ite {cond : Prop} [Decidable cond] {yes no : StateT σ (Except ε) α}
    (holds : cond → Keeps inv rel yes) (fails : ¬cond → Keeps inv rel no) :
    Keeps inv rel (if cond then yes else no) := by
  split
  case isTrue is => exact holds is
  case isFalse is => exact fails is

theorem Keeps.modify {change : σ → σ} (moves : ∀ state, inv state → rel state (change state)) :
    Keeps inv rel (modify change : StateT σ (Except ε) Unit) :=
  fun state holds => ⟨(), change state, rfl, moves state holds⟩

/-- A computation keeps a wider relation, and from the states of a smaller invariant. -/
theorem Keeps.mono {inv' : σ → Prop} {rel' : σ → σ → Prop} {run : StateT σ (Except ε) α}
    (keeps : Keeps inv rel run) (narrower : ∀ state, inv' state → inv state)
    (wider : ∀ state next, rel state next → rel' state next) : Keeps inv' rel' run := by
  intro state holds
  obtain ⟨result, next, ends, moved⟩ := keeps state (narrower state holds)
  exact ⟨result, next, ends, wider state next moved⟩

end QHal.Steps
