/-
Module: QHal.Proofs.DxeSuspend
Purpose: Suspending and resuming the DXE engine: which poll is the last one that counts, and that a
  resume takes back a pause request only if the suspend set the flag.
Trusted boundary: none
Main exports: Observed, InTime, halDxeSuspend_returns, Guarded, SuspendSafe, suspendSafe_iff
-/
import Mathlib.Tactic.Common
import QHal.Dxe.Suspend

namespace QHal.Dxe

/-! ## The polls -/

/-- The engine is seen paused by one of the first polls. -/
def PausedWithin (presented : Nat → UInt32) (polls : Nat) : Prop :=
  ∃ poll < polls, pausedAt presented poll = true

instance (presented : Nat → UInt32) (polls : Nat) : Decidable (PausedWithin presented polls) :=
  inferInstanceAs (Decidable (∃ poll < polls, pausedAt presented poll = true))

/-- The loop is left at the first poll that sees it, or behind its last round. -/
theorem waitLoop_spec (seen : Nat → Bool) (rounds waitCount : Nat) :
    (∃ k < rounds, seen (waitCount + k) = true ∧ (∀ j < k, seen (waitCount + j) = false) ∧
      waitLoop seen rounds waitCount = (waitCount + k + 1, true)) ∨
    ((∀ k < rounds, seen (waitCount + k) = false) ∧
      waitLoop seen rounds waitCount = (waitCount + rounds + 1, false)) := by
  induction rounds generalizing waitCount with
  | zero => exact .inr ⟨fun _ => nofun, rfl⟩
  | succ rounds ih =>
      rw [waitLoop]
      cases here : seen waitCount with
      | true => exact .inl ⟨0, Nat.succ_pos _, here, fun _ => nofun, if_pos rfl⟩
      | false =>
          rw [if_neg Bool.false_ne_true]
          have shift : ∀ k, waitCount + 1 + k = waitCount + (k + 1) := by
            intro k
            rw [Nat.add_assoc, Nat.add_comm 1]
          rcases ih (waitCount + 1) with ⟨k, below, hit, before, result⟩ | ⟨all, result⟩
          · refine .inl ⟨k + 1, Nat.succ_lt_succ below, shift k ▸ hit, fun j less => ?_, ?_⟩
            · cases j with
              | zero => exact here
              | succ j => exact shift j ▸ before j (Nat.lt_of_succ_lt_succ less)
            · rw [result, shift]
          · refine .inr ⟨fun k below => ?_, ?_⟩
            · cases k with
              | zero => exact here
              | succ k => exact shift k ▸ all k (Nat.lt_of_succ_lt_succ below)
            · rw [result, shift]

/-- The flag that the loop gives, and the counter that meets its limit exactly when the last poll is
the first one that sees the engine paused. -/
theorem waitLoop_paused (presented : Nat → UInt32) :
    ((waitLoop (pausedAt presented) dxeMaxRetry 0).2 = true ↔
      PausedWithin presented dxeMaxRetry) ∧
    ((waitLoop (pausedAt presented) dxeMaxRetry 0).1 = dxeMaxRetry ↔
      PausedWithin presented dxeMaxRetry ∧ ¬ PausedWithin presented (dxeMaxRetry - 1)) := by
  rcases waitLoop_spec (pausedAt presented) dxeMaxRetry 0 with
    ⟨k, below, hit, before, result⟩ | ⟨all, result⟩
  · rw [Nat.zero_add] at hit result
    rw [result]
    have within : PausedWithin presented dxeMaxRetry := ⟨k, below, hit⟩
    refine ⟨iff_of_true rfl within, ?_⟩
    rw [and_iff_right within]
    constructor
    · rintro last ⟨j, early, paused⟩
      have clear := before j (by unfold dxeMaxRetry at *; omega)
      rw [Nat.zero_add, paused] at clear
      cases clear
    · intro never
      by_contra other
      exact never ⟨k, by unfold dxeMaxRetry at *; omega, hit⟩
  · rw [result]
    have never : ¬ PausedWithin presented dxeMaxRetry := by
      rintro ⟨k, below, hit⟩
      have clear := all k below
      rw [Nat.zero_add, hit] at clear
      cases clear
    exact ⟨iff_of_false Bool.false_ne_true never, iff_of_false (by decide) fun late => never late.1⟩

/-! ## One call -/

theorem or_and_mask (regVal mask : UInt32) : (regVal ||| mask) &&& mask = mask := by
  apply UInt32.toBitVec_inj.mp
  apply BitVec.eq_of_getLsbD_eq
  intro i _
  rw [UInt32.toBitVec_and, UInt32.toBitVec_or, BitVec.getLsbD_and, BitVec.getLsbD_or]
  cases mask.toBitVec.getLsbD i <;> simp

theorem and_not_mask (regVal : UInt32) :
    (regVal &&& ~~~ dmaCsrPauseMask) &&& dmaCsrPauseMask = 0 := by
  rw [UInt32.and_assoc]
  exact UInt32.and_zero

section Calls

variable (presented : Nat → UInt32) (dxe : DxeControl)

/-- A suspend fails if and only if its last poll is the first to see the engine paused. -/
theorem halDxeSuspend_returns :
    (halDxeSuspend presented dxe).1 = .success ↔
      ¬ (PausedWithin presented dxeMaxRetry ∧ ¬ PausedWithin presented (dxeMaxRetry - 1)) := by
  have counts := (waitLoop_paused presented).2
  unfold halDxeSuspend
  dsimp only
  rw [← counts]
  split_ifs with limit
  · exact iff_of_false nofun (not_not_intro limit)
  · exact iff_of_true rfl limit

theorem halDxeSuspend_dxeSuspend :
    (halDxeSuspend presented dxe).2.dxeSuspend =
      if PausedWithin presented dxeMaxRetry then 1 else dxe.dxeSuspend := by
  have flag := (waitLoop_paused presented).1
  unfold halDxeSuspend
  dsimp only
  rw [← if_congr flag rfl rfl]
  split_ifs <;> rfl

theorem halDxeSuspend_requested : (halDxeSuspend presented dxe).2.pauseRequested = true := by
  have writes : (halDxeSuspend presented dxe).2.csrWrites =
      (presented 0 ||| dmaCsrPauseMask) :: dxe.csrWrites := by
    unfold halDxeSuspend
    dsimp only
    split_ifs <;> rfl
  rw [DxeControl.pauseRequested, writes]
  dsimp only
  rw [or_and_mask]
  rfl

/-- A resume takes back the request if the flag is set, and does nothing if it is not. -/
theorem halDxeResume_requested :
    (halDxeResume presented dxe).2.pauseRequested =
      (decide (dxe.dxeSuspend = 0) && dxe.pauseRequested) := by
  unfold halDxeResume
  dsimp only
  by_cases suspended : dxe.dxeSuspend = 0
  · rw [if_neg (not_not_intro suspended), decide_eq_true suspended, Bool.true_and]
  · rw [if_pos suspended, decide_eq_false suspended, Bool.false_and]
    have cleared : (dxe.write (presented 0 &&& ~~~ dmaCsrPauseMask)).pauseRequested = false := by
      simp only [DxeControl.write, DxeControl.pauseRequested, and_not_mask, bne_self_eq_false]
    split_ifs <;> exact cleared

end Calls

/-! ## Runs -/

/-- The engine pauses early enough for the suspend to say so. -/
def InTime (presented : Nat → UInt32) : Prop := PausedWithin presented (dxeMaxRetry - 1)

theorem InTime.within {presented : Nat → UInt32} (early : InTime presented) :
    PausedWithin presented dxeMaxRetry := by
  obtain ⟨poll, below, paused⟩ := early
  exact ⟨poll, Nat.lt_of_lt_of_le below (Nat.sub_le _ _), paused⟩

/-- A pause request stands only while the flag is set. -/
def Guarded (dxe : DxeControl) : Prop := dxe.pauseRequested = true → dxe.dxeSuspend ≠ 0

theorem Guarded.exec {dxe : DxeControl} (guarded : Guarded dxe) (call : Call)
    (early : ∀ presented, call = .suspend presented → InTime presented) :
    Guarded (call.exec dxe) := by
  cases call with
  | suspend presented =>
      intro _
      change (halDxeSuspend presented dxe).2.dxeSuspend ≠ 0
      rw [halDxeSuspend_dxeSuspend, if_pos (early presented rfl).within]
      decide
  | resume presented =>
      intro requested
      change (halDxeResume presented dxe).2.pauseRequested = true at requested
      rw [halDxeResume_requested, Bool.and_eq_true, decide_eq_true_eq] at requested
      exact absurd requested.1 (guarded requested.2)

theorem Guarded.run {dxe : DxeControl} (guarded : Guarded dxe) (calls : List Call)
    (early : ∀ presented, .suspend presented ∈ calls → InTime presented) :
    Guarded (Call.run calls dxe) := by
  induction calls generalizing dxe with
  | nil => exact guarded
  | cons call calls ih =>
      apply ih
      · apply guarded.exec call
        rintro presented rfl
        exact early presented List.mem_cons_self
      · intro presented listed
        exact early presented (List.mem_cons_of_mem _ listed)

/-- The driver before the calls: nothing was written to the control register. -/
def DxeControl.start (dxeSuspend : UInt8) : DxeControl := ⟨dxeSuspend, []⟩

/-- What is promised of each call of a run. -/
structure SuspendSafe (dxeSuspend : UInt8) (calls : List Call) : Prop where
  returns : ∀ before presented after, calls = before ++ .suspend presented :: after →
    ((halDxeSuspend presented (Call.run before (.start dxeSuspend))).1 = .success ↔
      PausedWithin presented dxeMaxRetry)
  flags : ∀ before presented after, calls = before ++ .suspend presented :: after →
    (halDxeSuspend presented (Call.run before (.start dxeSuspend))).2.dxeSuspend =
      if PausedWithin presented dxeMaxRetry then 1
      else (Call.run before (.start dxeSuspend)).dxeSuspend
  resumes : ∀ before presented after, calls = before ++ .resume presented :: after →
    (halDxeResume presented (Call.run before (.start dxeSuspend))).2.pauseRequested = false

/-- In a run every suspend reports what it saw and every resume takes back the pause request if and
only if each suspend sees the engine paused before its last poll. -/
theorem suspendSafe_iff (dxeSuspend : UInt8) (calls : List Call) :
    SuspendSafe dxeSuspend calls ↔
      ∀ presented, .suspend presented ∈ calls → InTime presented := by
  constructor
  · intro safe presented listed
    obtain ⟨before, after, split⟩ := List.append_of_mem listed
    have returns := safe.returns before presented after split
    rw [halDxeSuspend_returns] at returns
    by_contra late
    by_cases within : PausedWithin presented dxeMaxRetry
    · exact returns.mpr within ⟨within, late⟩
    · exact within (returns.mp fun last => within last.1)
  · intro early
    refine ⟨fun before presented after split => ?_, fun _ presented _ _ => ?_,
      fun before presented after split => ?_⟩
    · have here := early presented (split ▸ List.mem_append_right _ List.mem_cons_self)
      rw [halDxeSuspend_returns]
      exact iff_of_true (fun last => last.2 here) here.within
    · exact halDxeSuspend_dxeSuspend presented _
    · have start : Guarded (.start dxeSuspend) := nofun
      have guarded := start.run before fun presented listed =>
        early presented (split ▸ List.mem_append_left _ listed)
      rw [halDxeResume_requested, Bool.and_eq_false_iff, decide_eq_false_iff_not]
      by_cases requested : (Call.run before (.start dxeSuspend)).pauseRequested = true
      · exact .inl (guarded requested)
      · exact .inr (Bool.eq_false_iff.mpr requested)

/-- An engine that never pauses: the suspend succeeds and the resume leaves its request.  One that
pauses at the last poll: the suspend fails. -/
theorem suspendSafe_not_late :
    ¬ SuspendSafe 0 [.suspend fun _ => 0, .resume fun _ => 0] ∧
      ¬ SuspendSafe 0 [.suspend fun read => if read = 10 then 0x4000 else 0] := by
  constructor
  · intro safe
    have cleared := safe.resumes [.suspend fun _ => 0] (fun _ => 0) [] rfl
    exact absurd cleared (by decide)
  · intro safe
    have returns := safe.returns [] (fun read => if read = 10 then 0x4000 else 0) [] rfl
    exact absurd (returns.mpr (by decide)) (by decide)

end QHal.Dxe
