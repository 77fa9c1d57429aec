/-
Module: QHal.Proofs.LoadLoop
Purpose: What one iteration of the load loop does to the loop variables, and
  what the last iteration of every run has in common: its stages all succeeded
  on one image.
Trusted boundary: none
Main exports: failedStage, runStages_ok, runStages_failed, loop_leaves_verified
-/
import QHal.Proofs.SelectValidFwd

namespace QHal.Boot

open Loop (Heads)

/-- The stage that ends an iteration early, if any. -/
def failedStage (env : LoaderEnv) (errs : StageErrs) : Option Stage :=
  if errs.loadInit ≠ 0 then some .loadInit
  else if env.authEnable ∧ errs.imageAuth ≠ 0 then some .imageAuth
  else if errs.imageLoad ≠ 0 then some .imageLoad
  else if env.authEnable ∧ errs.verifyHash ≠ 0 then some .verifyHash
  else none

/-- The calls of an iteration in which no stage fails. -/
def successfulCalls (env : LoaderEnv) (elfAddr : UInt32) : List StageCall :=
  if env.authEnable then
    [⟨.loadInit, elfAddr, 0⟩, ⟨.imageAuth, elfAddr, 0⟩, ⟨.imageLoad, elfAddr, 0⟩,
      ⟨.verifyHash, elfAddr, 0⟩]
  else [⟨.loadInit, elfAddr, 0⟩, ⟨.imageLoad, elfAddr, 0⟩]

/-- A failed stage leaves its error bit behind, whatever was pending before. -/
theorem or_errorBit_ne_zero (errCode : UInt8) (stage : Stage) :
    errCode ||| stage.errorBit ≠ 0 := by
  intro zero
  have bit : stage.errorBit = 0 := (UInt8.or_eq_zero_iff.mp zero).2
  cases stage <;> exact absurd bit (by decide)

/-- An iteration without a failed stage. -/
theorem runStages_ok {env : LoaderEnv} {errs : StageErrs} (state : LoopState)
    (ok : failedStage env errs = none) :
    runStages env errs state =
      { state with
        elfAddr := state.appLoadAddr
        calls := state.calls ++ successfulCalls env state.appLoadAddr } := by
  unfold failedStage at ok
  split_ifs at ok with init auth load hash
  push Not at init load
  cases enabled : env.authEnable with
  | true =>
      simp only [enabled, true_and, not_not] at auth hash
      simp [runStages, initStage, authStage, loadStage, hashStage, runStage, init, auth,
        load, hash, enabled, successfulCalls, bind, Except.bind]
  | false =>
      simp [runStages, initStage, authStage, loadStage, hashStage, runStage, init, load,
        enabled, successfulCalls, bind, Except.bind]

/-- An iteration with a failed stage: the bit of that stage is added to the
pending errors, and the first call recorded is that of the ELF init. -/
theorem runStages_failed {env : LoaderEnv} {errs : StageErrs} {stage : Stage}
    (state : LoopState) (failed : failedStage env errs = some stage) :
    ∃ rest, runStages env errs state =
      { state with
        info := { state.info with errCode := state.info.errCode ||| stage.errorBit }
        elfAddr := state.appLoadAddr
        calls := state.calls ++
          ⟨.loadInit, state.appLoadAddr, errs.loadInit⟩ :: rest } := by
  unfold failedStage at failed
  split_ifs at failed with init auth load hash
  · cases failed
    exact ⟨[], by simp [runStages, initStage, runStage, init, bind, Except.bind]⟩
  · cases failed
    push Not at init
    exact ⟨[⟨.imageAuth, state.appLoadAddr, errs.imageAuth⟩], by
      simp [runStages, initStage, authStage, runStage, init, auth, bind, Except.bind]⟩
  · cases failed
    push Not at init
    cases enabled : env.authEnable with
    | true =>
        simp only [enabled, true_and, not_not] at auth
        exact ⟨[⟨.imageAuth, state.appLoadAddr, 0⟩,
            ⟨.imageLoad, state.appLoadAddr, errs.imageLoad⟩], by
          simp [runStages, initStage, authStage, loadStage, runStage, init, auth, load,
            enabled, bind, Except.bind]⟩
    | false =>
        exact ⟨[⟨.imageLoad, state.appLoadAddr, errs.imageLoad⟩], by
          simp [runStages, initStage, authStage, loadStage, runStage, init, load,
            enabled, bind, Except.bind]⟩
  · cases failed
    push Not at init load
    simp only [hash.1, true_and, not_not] at auth
    exact ⟨[⟨.imageAuth, state.appLoadAddr, 0⟩, ⟨.imageLoad, state.appLoadAddr, 0⟩,
        ⟨.verifyHash, state.appLoadAddr, errs.verifyHash⟩], by
      simp [runStages, initStage, authStage, loadStage, hashStage, runStage, init, auth,
        load, hash, bind, Except.bind]⟩

/-- The stages never clear a pending error. -/
theorem runStages_errCode_eq_zero {env : LoaderEnv} {errs : StageErrs}
    {state : LoopState} (clear : (runStages env errs state).info.errCode = 0) :
    failedStage env errs = none ∧ state.info.errCode = 0 := by
  cases failed : failedStage env errs with
  | none =>
      rw [runStages_ok state failed] at clear
      exact ⟨rfl, clear⟩
  | some stage =>
      obtain ⟨rest, result⟩ := runStages_failed state failed
      rw [result] at clear
      exact absurd clear (or_errorBit_ne_zero _ _)

/-- Of the loop variables, the stages write the pending errors, the address of the
loader and the record of calls. -/
theorem runStages_eq (env : LoaderEnv) (errs : StageErrs) (state : LoopState) :
    ∃ errCode calls, runStages env errs state =
      { state with
        info := { state.info with errCode := errCode }
        elfAddr := state.appLoadAddr
        calls := calls } := by
  cases failed : failedStage env errs with
  | none => exact ⟨state.info.errCode, _, runStages_ok state failed⟩
  | some stage =>
      obtain ⟨rest, result⟩ := runStages_failed state failed
      exact ⟨_, _, result⟩

/-- Taking over a descriptor starts a fresh record of calls. -/
theorem takeFwd_calls (state : LoopState) (info : SblInfo) (index : UInt8) :
    (takeFwd state info index).calls = [] := by
  unfold takeFwd
  split_ifs
  · rfl
  · rfl

/-- Inversion of an iteration that leaves the loop. -/
theorem loaderIteration_leave {env : LoaderEnv} {errs : StageErrs}
    {state final : LoopState}
    (leaves : loaderIteration env errs state = .done (.leave final)) :
    ∃ index after update, selectStage env state = .chosen index after update ∧
      failedStage env errs = none ∧ after.info.errCode = 0 ∧
      final = runStages env errs after := by
  unfold loaderIteration at leaves
  cases select : selectStage env state with
  | reset update => simp [select] at leaves
  | chosen index after update =>
      simp only [select] at leaves
      split_ifs at leaves with pending
      cases leaves
      push Not at pending
      obtain ⟨ok, clear⟩ := runStages_errCode_eq_zero pending
      exact ⟨index, after, update, rfl, ok, clear, rfl⟩

/-- Inversion of the first part of an iteration. -/
theorem selectStage_chosen {env : LoaderEnv} {state chosen : LoopState} {index : UInt8}
    {update : Option UInt8} (select : selectStage env state = .chosen index chosen update) :
    ∃ info, bootSblSelectValidFwd env.sblFdeRank (selectInfo state) =
        .selected index info update ∧ chosen = takeFwd state info index := by
  unfold selectStage at select
  cases result : bootSblSelectValidFwd env.sblFdeRank (selectInfo state) with
  | reset flag =>
      rw [result] at select
      cases select
  | selected number info flag =>
      rw [result] at select
      cases select
      exact ⟨info, rfl, rfl⟩

theorem selectStage_calls {env : LoaderEnv} {state after : LoopState} {index : UInt8}
    {update : Option UInt8} (select : selectStage env state = .chosen index after update) :
    after.calls = [] := by
  obtain ⟨info, -, rfl⟩ := selectStage_chosen select
  exact takeFwd_calls _ _ _

/-- An iteration that leaves the loop called every stage with success, all on
the same address. -/
theorem leave_calls {env : LoaderEnv} {errs : StageErrs} {state final : LoopState}
    (leaves : loaderIteration env errs state = .done (.leave final)) :
    final.calls = successfulCalls env final.elfAddr := by
  obtain ⟨index, after, update, select, ok, -, rfl⟩ := loaderIteration_leave leaves
  rw [runStages_ok after ok, selectStage_calls select]
  rfl

/-- With secure boot enabled, the loop is left only after an iteration whose
four stages all succeeded on the image at one address. -/
theorem loop_leaves_verified (storage : Storage) (fde : FdtEntry) (sblFdeRank : UInt32)
    (errs : Nat → StageErrs) (n : Nat) (final : LoopState)
    (left : Loop.status (loaderLoop ⟨sblFdeRank, true⟩ errs) (loopStart storage fde) n =
      .done (.leave final)) :
    final.calls =
      [⟨.loadInit, final.elfAddr, 0⟩, ⟨.imageAuth, final.elfAddr, 0⟩,
        ⟨.imageLoad, final.elfAddr, 0⟩, ⟨.verifyHash, final.elfAddr, 0⟩] := by
  obtain ⟨k, state, -, -, last⟩ := Loop.exists_head_of_done left
  exact leave_calls last

/-- The trial image passes all stages in the first iteration. -/
theorem loop_leaves_verified_trial :
    ∃ final,
      Loop.status (loaderLoop ⟨otaImgRankCurrent, true⟩ fun _ => ⟨0, 0, 0, 0⟩)
          (loopStart trialAndGolden zeroFde) 1 = .done (.leave final) ∧
        final.calls =
          [⟨.loadInit, final.elfAddr, 0⟩, ⟨.imageAuth, final.elfAddr, 0⟩,
            ⟨.imageLoad, final.elfAddr, 0⟩, ⟨.verifyHash, final.elfAddr, 0⟩] :=
  ⟨_, rfl, loop_leaves_verified trialAndGolden zeroFde otaImgRankCurrent
    (fun _ => ⟨0, 0, 0, 0⟩) 1 _ rfl⟩

end QHal.Boot
