/-
Module: QHal.Lib.Loop
Purpose: Loops with an exit.  A loop body receives the number of the current
  iteration and the loop state, and either asks for another iteration or ends
  the loop with a result.  The module gives the state at the head of each
  iteration and the two rules every loop proof uses: an invariant holds at
  every head that is reached, and an ended loop stays ended.
Trusted boundary: none
Main exports: Loop.Status, Loop.status, Loop.Heads, Loop.Heads.invariant,
  Loop.result_of_invariant
-/
import Mathlib.Logic.Basic

namespace QHal.Loop

/-- What a loop body answers: go round again from a new state, or stop. -/
inductive Status (σ ρ : Type) where
  | again (state : σ)
  | done (result : ρ)
deriving Repr, DecidableEq

variable {σ ρ : Type}

/-- Whether the loop has stopped. -/
def Status.ended : Status σ ρ → Bool
  | .again _ => false
  | .done _ => true

/-- The status after `n` rounds of the loop.  Round `n` runs `body n`. -/
def status (body : Nat → σ → Status σ ρ) (start : σ) : Nat → Status σ ρ
  | 0 => .again start
  | n + 1 =>
      match status body start n with
      | .again state => body n state
      | .done result => .done result

/-- `state` is the loop state at the head of iteration `n`. -/
def Heads (body : Nat → σ → Status σ ρ) (start : σ) (n : Nat) (state : σ) :
    Prop :=
  status body start n = .again state

theorem status_succ_of_again {body : Nat → σ → Status σ ρ} {start state : σ}
    {n : Nat} (head : status body start n = .again state) :
    status body start (n + 1) = body n state := by
  simp [status, head]

theorem status_succ_of_done {body : Nat → σ → Status σ ρ} {start : σ}
    {result : ρ} {n : Nat} (stopped : status body start n = .done result) :
    status body start (n + 1) = .done result := by
  simp [status, stopped]

/-- A head of a later iteration was reached from a head of the one before. -/
theorem heads_succ {body : Nat → σ → Status σ ρ} {start state : σ} {n : Nat} :
    Heads body start (n + 1) state ↔
      ∃ before, Heads body start n before ∧ body n before = .again state := by
  unfold Heads
  cases head : status body start n with
  | again before => simp [status_succ_of_again head]
  | done result => simp [status_succ_of_done head]

/-- A stopped loop stays stopped with the same result. -/
theorem status_done_stable {body : Nat → σ → Status σ ρ} {start : σ}
    {result : ρ} {n : Nat} (stopped : status body start n = .done result) :
    ∀ k, status body start (n + k) = .done result := by
  intro k
  induction k with
  | zero => exact stopped
  | succ k ih => exact status_succ_of_done ih

/-- A loop has one result only. -/
theorem done_unique {body : Nat → σ → Status σ ρ} {start : σ} {one other : ρ} {n m : Nat}
    (stopped : status body start n = .done one) (alsoStopped : status body start m = .done other) :
    one = other := by
  have later := status_done_stable stopped m
  rw [Nat.add_comm, status_done_stable alsoStopped n] at later
  cases later
  rfl

/-- The result of a stopped loop was produced at some head. -/
theorem exists_head_of_done {body : Nat → σ → Status σ ρ} {start : σ}
    {result : ρ} {n : Nat} (stopped : status body start n = .done result) :
    ∃ k state, k < n ∧ Heads body start k state ∧ body k state = .done result := by
  induction n with
  | zero => cases stopped
  | succ n ih =>
      cases head : status body start n with
      | again state =>
          rw [status_succ_of_again head] at stopped
          exact ⟨n, state, Nat.lt_succ_self n, head, stopped⟩
      | done earlier =>
          rw [status_succ_of_done head] at stopped
          cases stopped
          obtain ⟨k, state, lt, isHead, result⟩ := ih head
          exact ⟨k, state, Nat.lt_succ_of_lt lt, isHead, result⟩

/-- The invariant rule: what holds at the start and is kept by every round
that goes on from a head holds at every head. -/
theorem Heads.invariant {body : Nat → σ → Status σ ρ} {start : σ}
    (Inv : σ → Prop) (initial : Inv start)
    (preserved : ∀ n state next, Heads body start n state → Inv state →
      body n state = .again next → Inv next)
    {n : Nat} {state : σ} (head : Heads body start n state) : Inv state := by
  induction n generalizing state with
  | zero =>
      cases head
      exact initial
  | succ n ih =>
      obtain ⟨before, isHead, step⟩ := heads_succ.mp head
      exact preserved n before state isHead (ih isHead) step

/-- The same rule for the result: what every last round gives from a state
with the invariant holds of the result. -/
theorem result_of_invariant {body : Nat → σ → Status σ ρ} {start : σ}
    (Inv : σ → Prop) (Post : ρ → Prop) (initial : Inv start)
    (preserved : ∀ n state next, Heads body start n state → Inv state →
      body n state = .again next → Inv next)
    (ends : ∀ n state result, Heads body start n state → Inv state →
      body n state = .done result → Post result)
    {n : Nat} {result : ρ} (stopped : status body start n = .done result) : Post result := by
  obtain ⟨k, state, -, head, last⟩ := exists_head_of_done stopped
  exact ends k state result head (head.invariant Inv initial preserved) last

end QHal.Loop
