/-
Module: QHal.Proofs.LoopTermination
Purpose: Progress of the load loop.  The module follows a run along the
  descriptors, from the first selected one to the golden one, and says exactly
  which tables and stage results make the loop try the golden image a second
  time or go round forever.
Trusted boundary: none
Main exports: Attempts, PassesGolden, loop_bounded_iff
-/
import QHal.Proofs.LoadAddress

namespace QHal.Boot

open Loop (Heads)

/-- The number of the descriptor a boot starts with; 0 if there is none. -/
def startNumber (sblFdeRank : UInt32) (info : SblInfo) : Nat :=
  match startSlot sblFdeRank info with
  | some slot => slot.val
  | none => 0

/-- `ota_sbl_exist` after the first selection. -/
def otaSblAfter (info : SblInfo) : UInt8 :=
  match firstValidFwd info with
  | some slot => bootSblFindFwdImage info slot sblImgId
  | none => info.otaSblExist

/-- The stages after which the image has been written over RAM and RRAM. -/
def Stage.late : Stage → Bool
  | .loadInit => false
  | .imageAuth => false
  | .imageLoad => true
  | .verifyHash => true

/-- Iteration `n` fails and the selector does not answer with a reset: the next
descriptor is not valid, or neither an SBL came with the first descriptor nor
was the failure a late one. -/
def FallsThrough (env : LoaderEnv) (errs : Nat → StageErrs) (info : SblInfo) (n : Nat) :
    Prop :=
  ∃ stage, failedStage env (errs n) = some stage ∧
    (otaSblAfter info ≠ 30 ∨ stage.late = true →
      fwdValidAt info (startNumber env.sblFdeRank info + n + 1) = false)

/-- All images up to the golden one fail without a reset. -/
def PassesGolden (env : LoaderEnv) (errs : Nat → StageErrs) (info : SblInfo) : Prop :=
  ∀ n, startNumber env.sblFdeRank info + n < 3 → FallsThrough env errs info n

/-- There is a golden image. -/
def HasGolden (info : SblInfo) : Prop :=
  fwdValidAt info 2 = true ∧ (appEntryAt info 2).isSome

/-- No SBL came with the first descriptor, and the iteration after the one of
the golden descriptor fails. -/
def FailsAfterGolden (env : LoaderEnv) (errs : Nat → StageErrs) (info : SblInfo) : Prop :=
  otaSblAfter info = 30 ∧
    ∃ stage, failedStage env (errs (3 - startNumber env.sblFdeRank info)) = some stage

/-- Iteration `n` works on the image of descriptor `i`: it took the address
from this descriptor, or the selector returned no descriptor and the address is
still the one of the iteration before. -/
inductive Attempts (env : LoaderEnv) (errs : Nat → StageErrs) (start : LoopState) :
    Nat → Nat → Prop where
  | taken {n i : Nat} {state after : LoopState} {index : UInt8} {update : Option UInt8}
      (head : Heads (loaderLoop env errs) start n state)
      (select : selectStage env state = .chosen index after update)
      (number : index.toNat = i)
      (valid : fwdValidAt after.info i = true)
      (app : (appEntryAt after.info i).isSome) : Attempts env errs start n i
  | kept {n i : Nat} {state after : LoopState} {index : UInt8} {update : Option UInt8}
      (before : Attempts env errs start n i)
      (head : Heads (loaderLoop env errs) start (n + 1) state)
      (select : selectStage env state = .chosen index after update)
      (past : ¬ index < maxFwdNum) : Attempts env errs start (n + 1) i

/-- The loop ends within `bound` iterations: by a reset, or with an image whose
stages all succeeded. -/
def EndsWithin (env : LoaderEnv) (errs : Nat → StageErrs) (start : LoopState)
    (bound : Nat) : Prop :=
  ∃ n, n ≤ bound ∧
    ((∃ update, Loop.status (loaderLoop env errs) start n = .done (.reset update)) ∨
      ∃ final, Loop.status (loaderLoop env errs) start n = .done (.leave final) ∧
        final.calls = successfulCalls env final.elfAddr)

/-- How far a run has got: the record `info` of iteration `n` against the
record `info₀` that was read from flash. -/
structure Track (sblFdeRank : UInt32) (info₀ : SblInfo) (n : Nat) (info : SblInfo) :
    Prop where
  number : info.validFwd.toNat = startNumber sblFdeRank info₀ + n
  sbl : info.otaSblExist = otaSblAfter info₀
  later : ∀ i, startNumber sblFdeRank info₀ + n ≤ i → 0 < i →
    fwdValidAt info i = fwdValidAt info₀ i
  apps : ∀ i, appEntryAt info i = appEntryAt info₀ i

/-- The loop state after iteration `n` has failed. -/
structure Failed (env : LoaderEnv) (errs : Nat → StageErrs) (info₀ : SblInfo) (n : Nat)
    (state : LoopState) : Prop where
  track : Track env.sblFdeRank info₀ n state.info
  failed : ∃ stage, failedStage env (errs n) = some stage ∧
    state.info.errCode = stage.errorBit

/-- A loop state no iteration leads out of: the table is used up, no SBL is
involved and an error is pending. -/
structure Stuck (info : SblInfo) : Prop where
  past : ¬ info.validFwd < 3
  noSbl : info.otaSblExist = 30
  pending : info.errCode ≠ 0

theorem errorBit_late (stage : Stage) :
    stage.errorBit >>> errorSblImageLoad ≠ 0 ↔ stage.late = true := by
  cases stage <;> decide

theorem startNumber_lt (sblFdeRank : UInt32) (info : SblInfo) :
    startNumber sblFdeRank info < 3 := by
  unfold startNumber
  cases startSlot sblFdeRank info with
  | some slot => exact slot.isLt
  | none => exact Nat.zero_lt_succ 2

/-- Reading the descriptors does not touch the selector's variables. -/
theorem getFwdInfoLoop_keeps (storage : Storage) (sectors : List UInt8) (status : BlError)
    (info : SblInfo) :
    (getFwdInfoLoop storage sectors status info).2.validFwd = info.validFwd ∧
      (getFwdInfoLoop storage sectors status info).2.otaSblExist = info.otaSblExist ∧
      (getFwdInfoLoop storage sectors status info).2.errCode = info.errCode := by
  induction sectors generalizing status info with
  | nil => exact ⟨rfl, rfl, rfl⟩
  | cons sector sectors ih =>
      unfold getFwdInfoLoop
      simp only
      split_ifs
      · exact ⟨rfl, rfl, rfl⟩
      · apply ih
      · apply ih

theorem loopStart_clear (storage : Storage) (fde : FdtEntry) :
    (loopStart storage fde).info.validFwd = 0 ∧
      (loopStart storage fde).info.errCode = 0 := by
  obtain ⟨number, -, clear⟩ := getFwdInfoLoop_keeps storage [0, 1, 2] blErrInvalidParam
    { zeroInfo with flashFwdTable := fun _ => zeroFwd }
  exact ⟨number, clear⟩

/-- The track does not depend on load type and pending errors. -/
theorem Track.congr {sblFdeRank : UInt32} {info₀ info info' : SblInfo} {n : Nat}
    (track : Track sblFdeRank info₀ n info)
    (number : info'.validFwd = info.validFwd)
    (sbl : info'.otaSblExist = info.otaSblExist)
    (table : info'.flashFwdTable = info.flashFwdTable) :
    Track sblFdeRank info₀ n info' := by
  refine ⟨?_, ?_, ?_, ?_⟩
  · rw [number]
    exact track.number
  · rw [sbl]
    exact track.sbl
  · intro i reached positive
    rw [← track.later i reached positive]
    simp only [fwdValidAt, fwdTableIsValid, table]
  · intro i
    rw [← track.apps i]
    simp only [appEntryAt, table]

theorem Track.takeFwd {sblFdeRank : UInt32} {info₀ info : SblInfo} {n : Nat}
    (track : Track sblFdeRank info₀ n info) (state : LoopState) (index : UInt8) :
    Track sblFdeRank info₀ n (takeFwd state info index).info := by
  obtain ⟨loadType, same⟩ := takeFwd_info state info index
  rw [same]
  exact track.congr rfl rfl rfl

theorem Track.selectInfo {sblFdeRank : UInt32} {info₀ : SblInfo} {n : Nat}
    {state : LoopState} (track : Track sblFdeRank info₀ n state.info) :
    Track sblFdeRank info₀ n (selectInfo state) := by
  obtain ⟨loadType, same⟩ := selectInfo_eq state
  rw [same]
  exact track.congr rfl rfl rfl

theorem takeFwd_errCode (state : LoopState) (info : SblInfo) (index : UInt8) :
    (takeFwd state info index).info.errCode = info.errCode := by
  obtain ⟨loadType, same⟩ := takeFwd_info state info index
  rw [same]

theorem selectInfo_errCode (state : LoopState) :
    (selectInfo state).errCode = state.info.errCode := by
  obtain ⟨loadType, same⟩ := selectInfo_eq state
  rw [same]

theorem selectStage_of_selected {env : LoaderEnv} {state : LoopState} {index : UInt8}
    {info : SblInfo} {update : Option UInt8}
    (result : bootSblSelectValidFwd env.sblFdeRank (selectInfo state) =
      .selected index info update) :
    selectStage env state = .chosen index (takeFwd state info index) update := by
  rw [selectStage, result]

theorem selectStage_of_reset {env : LoaderEnv} {state : LoopState}
    {update : Option UInt8}
    (result : bootSblSelectValidFwd env.sblFdeRank (selectInfo state) = .reset update) :
    selectStage env state = .reset update := by
  rw [selectStage, result]

/-- The descriptor that replaces a skipped trial descriptor is the start. -/
theorem skipTarget_startNumber {sblFdeRank : UInt32} {info : SblInfo}
    (skip : TrialSkipped sblFdeRank info) :
    (skipTarget info).toNat = startNumber sblFdeRank info := by
  have one : indexCurrent.val = 1 := rfl
  have two : indexGolden.val = 2 := rfl
  cases current : fwdTableIsValid info indexCurrent with
  | true => simp [skipTarget, startNumber, startSlot, skip, current, one]
  | false =>
      cases golden : fwdTableIsValid info indexGolden with
      | true => simp [skipTarget, startNumber, startSlot, skip, current, golden, two]
      | false => simp [skipTarget, startNumber, startSlot, skip, current, golden]

/-- The first call of the selector. -/
theorem select_first_track (sblFdeRank : UInt32) {info : SblInfo}
    (clear : info.errCode = 0) (zero : info.validFwd = 0) :
    ∃ index after, bootSblSelectValidFwd sblFdeRank info = .selected index after none ∧
      Track sblFdeRank info 0 after ∧ after.errCode = 0 ∧
      (index.toNat = startNumber sblFdeRank info ∨
        startNumber sblFdeRank info = 0 ∧ ¬ index < maxFwdNum) := by
  rw [selectValidFwd_of_clear sblFdeRank clear]
  rcases selectFirst_cases sblFdeRank info with ⟨skip, result⟩ | ⟨stay, first, result⟩ |
      ⟨slot, stay, first, result⟩
  · have target := skipTarget_startNumber skip
    have first : firstValidFwd info = some indexTrial := by
      simp [firstValidFwd, skip.1]
    refine ⟨skipTarget info, skipInfo info, result, ⟨target, ?_, ?_, ?_⟩, clear,
      Or.inl target⟩
    · simp [otaSblAfter, first, skipInfo, clearStatus, firstInfo]
    · intro i _ positive
      unfold fwdValidAt
      split_ifs with below
      · rw [fwdTableIsValid_skipInfo]
        simp [Nat.pos_iff_ne_zero.mp positive]
      · rfl
    · exact appEntryAt_skipInfo info
  · have number : startNumber sblFdeRank info = 0 := by
      simp [startNumber, startSlot_of_stay stay, first]
    refine ⟨maxFwdNum, info, result, ⟨?_, ?_, fun _ _ _ => rfl, fun _ => rfl⟩, clear,
      Or.inr ⟨number, by decide⟩⟩
    · rw [zero, number]
      rfl
    · simp [otaSblAfter, first]
  · have number : (UInt8.ofNat slot.val).toNat = startNumber sblFdeRank info := by
      rw [fin_toNat_ofNat]
      simp [startNumber, startSlot_of_stay stay, first]
    refine ⟨UInt8.ofNat slot.val, firstInfo info slot, result,
      ⟨number, ?_, fun _ _ _ => rfl, fun _ => rfl⟩, clear, Or.inl number⟩
    simp [otaSblAfter, first, firstInfo]

/-- The first part of the first iteration. -/
theorem selectStage_first (env : LoaderEnv) {state : LoopState}
    (clear : state.info.errCode = 0) (zero : state.info.validFwd = 0) :
    ∃ index after update, selectStage env state = .chosen index after update ∧
      Track env.sblFdeRank state.info 0 after.info ∧ after.info.errCode = 0 ∧
      (index.toNat = startNumber env.sblFdeRank state.info ∨
        startNumber env.sblFdeRank state.info = 0 ∧ ¬ index < maxFwdNum) := by
  obtain ⟨loadType, same⟩ := selectInfo_eq state
  have startClear : (selectInfo state).errCode = 0 := by
    rw [same]
    exact clear
  have startZero : (selectInfo state).validFwd = 0 := by
    rw [same]
    exact zero
  obtain ⟨index, after, result, track, noError, number⟩ :=
    select_first_track env.sblFdeRank startClear startZero
  refine ⟨index, takeFwd state after index, none, selectStage_of_selected result, ?_, ?_, ?_⟩
  · rw [same] at track
    have moved : Track env.sblFdeRank state.info 0 after :=
      ⟨track.number, track.sbl, track.later, track.apps⟩
    exact moved.takeFwd state index
  · rw [takeFwd_errCode]
    exact noError
  · rw [same] at number
    exact number

/-- The selector moves to the next descriptor: the track follows. -/
theorem Track.advance {sblFdeRank : UInt32} {info₀ info : SblInfo} {n : Nat}
    (track : Track sblFdeRank info₀ n info) (below : info.validFwd < 3) :
    Track sblFdeRank info₀ (n + 1) (advance info) := by
  have number : (info.validFwd + 1).toNat = startNumber sblFdeRank info₀ + (n + 1) := by
    rw [succ_toNat_of_lt_three below, track.number]
    rfl
  refine ⟨number, track.sbl, ?_, ?_⟩
  · intro i reached positive
    rw [← track.later i (Nat.le_of_succ_le reached) positive]
    have other : i ≠ info.validFwd.toNat := by
      rw [track.number]
      exact Nat.ne_of_gt reached
    unfold fwdValidAt
    split_ifs with inTable
    · have cleared := fwdTableIsValid_clearStatus info info.validFwd ⟨i, inTable⟩
      apply cleared.trans
      simp [other]
    · rfl
  · intro i
    rw [appEntryAt_advance, track.apps]

/-- The next iteration after a failure, as long as the table is not used up. -/
theorem Failed.select {env : LoaderEnv} {errs : Nat → StageErrs} {info₀ : SblInfo}
    {n : Nat} {state : LoopState} (failed : Failed env errs info₀ n state)
    (inTable : startNumber env.sblFdeRank info₀ + n < 3) :
    (¬ FallsThrough env errs info₀ n ∧ ∃ update, selectStage env state = .reset update) ∨
      (FallsThrough env errs info₀ n ∧ ∃ index after update,
        selectStage env state = .chosen index after update ∧
          index.toNat = startNumber env.sblFdeRank info₀ + (n + 1) ∧
          Track env.sblFdeRank info₀ (n + 1) after.info ∧ after.info.errCode = 0) := by
  obtain ⟨stage, isFailed, bit⟩ := failed.failed
  have track := failed.track.selectInfo
  have code : (selectInfo state).errCode = stage.errorBit := by
    rw [selectInfo_errCode, bit]
  have pending : (selectInfo state).errCode ≠ 0 := by
    rw [code]
    cases stage <;> decide
  have call := selectValidFwd_of_pending env.sblFdeRank pending
  have below : (selectInfo state).validFwd < 3 := by
    rw [UInt8.lt_iff_toNat_lt, track.number]
    exact inTable
  have next : fwdValidAt (selectInfo state) ((selectInfo state).validFwd.toNat + 1) =
      fwdValidAt info₀ (startNumber env.sblFdeRank info₀ + n + 1) := by
    rw [track.number]
    exact track.later _ (Nat.le_succ _) (Nat.succ_pos _)
  have forced : ResetForced (selectInfo state) ↔
      otaSblAfter info₀ ≠ 30 ∨ stage.late = true := by
    rw [ResetForced, track.sbl, code, errorBit_late]
  rcases selectNext_cases (selectInfo state) with ⟨-, isForced, valid, update, result⟩ |
      ⟨-, stays, update, result⟩ | ⟨past, -⟩ | ⟨past, -⟩
  · refine Or.inl ⟨?_, update, selectStage_of_reset (call.trans result)⟩
    rintro ⟨other, same, blocked⟩
    rw [isFailed] at same
    cases same
    rw [next, blocked (forced.mp isForced)] at valid
    cases valid
  · have falls : FallsThrough env errs info₀ n := by
      refine ⟨stage, isFailed, fun cause => ?_⟩
      rw [← next]
      exact stays (forced.mpr cause)
    have moved := track.advance below
    refine Or.inr ⟨falls, _, _, update, selectStage_of_selected (call.trans result),
      moved.number, moved.takeFwd _ _, ?_⟩
    rw [takeFwd_errCode]
    rfl
  · exact absurd below past
  · exact absurd below past

/-- The next iteration after a failure with the table used up. -/
theorem Failed.select_past {env : LoaderEnv} {errs : Nat → StageErrs} {info₀ : SblInfo}
    {n : Nat} {state : LoopState} (failed : Failed env errs info₀ n state)
    (past : startNumber env.sblFdeRank info₀ + n = 3) :
    (otaSblAfter info₀ ≠ 30 ∧ ∃ update, selectStage env state = .reset update) ∨
      (otaSblAfter info₀ = 30 ∧ Stuck state.info) := by
  obtain ⟨stage, -, bit⟩ := failed.failed
  have track := failed.track.selectInfo
  have pending : state.info.errCode ≠ 0 := by
    rw [bit]
    cases stage <;> decide
  have call := selectValidFwd_of_pending env.sblFdeRank (selectInfo_errCode state ▸ pending)
  by_cases sbl : otaSblAfter info₀ = 30
  · refine Or.inr ⟨sbl, ?_, ?_, pending⟩
    · rw [UInt8.lt_iff_toNat_lt, failed.track.number, past]
      decide
    · rw [failed.track.sbl, sbl]
  · have outside : ¬ (selectInfo state).validFwd < 3 := by
      rw [UInt8.lt_iff_toNat_lt, track.number, past]
      decide
    rcases selectNext_cases (selectInfo state) with ⟨below, -⟩ | ⟨below, -⟩ |
        ⟨-, -, update, result⟩ | ⟨-, noSbl, -⟩
    · exact absurd below outside
    · exact absurd below outside
    · exact Or.inl ⟨sbl, update, selectStage_of_reset (call.trans result)⟩
    · rw [track.sbl] at noSbl
      exact absurd noSbl sbl

/-- In a stuck state the selector returns no descriptor and keeps the error. -/
theorem Stuck.select (env : LoaderEnv) {state : LoopState} (stuck : Stuck state.info) :
    ∃ index after update, selectStage env state = .chosen index after update ∧
      ¬ index < maxFwdNum ∧ Stuck after.info := by
  obtain ⟨loadType, same⟩ := selectInfo_eq state
  have selectStuck : Stuck (selectInfo state) := by
    rw [same]
    exact ⟨stuck.past, stuck.noSbl, stuck.pending⟩
  have call := selectValidFwd_of_pending env.sblFdeRank selectStuck.pending
  rcases selectNext_cases (selectInfo state) with ⟨below, -⟩ | ⟨below, -⟩ | ⟨-, sbl, -⟩ |
      ⟨-, -, update, result⟩
  · exact absurd below selectStuck.past
  · exact absurd below selectStuck.past
  · exact absurd selectStuck.noSbl sbl
  · refine ⟨_, _, update, selectStage_of_selected (call.trans result), selectStuck.past, ?_⟩
    obtain ⟨kept, taken⟩ := takeFwd_info state (selectInfo state) (selectInfo state).validFwd
    rw [taken]
    exact ⟨selectStuck.past, selectStuck.noSbl, selectStuck.pending⟩

/-- A stuck loop goes round again, whatever the stages return. -/
theorem Stuck.iterate (env : LoaderEnv) (errs : StageErrs) {state : LoopState}
    (stuck : Stuck state.info) :
    ∃ next, loaderIteration env errs state = .again next ∧ Stuck next.info := by
  obtain ⟨index, after, update, select, -, afterStuck⟩ := stuck.select env
  refine ⟨runStages env errs after, ?_, ?_⟩
  · rw [loaderIteration, select]
    apply if_pos
    intro clear
    exact afterStuck.pending (runStages_errCode_eq_zero clear).2
  · cases failed : failedStage env errs with
    | none =>
        rw [runStages_ok after failed]
        exact afterStuck
    | some stage =>
        obtain ⟨rest, result⟩ := runStages_failed after failed
        rw [result]
        exact ⟨afterStuck.past, afterStuck.noSbl, or_errorBit_ne_zero _ _⟩

theorem loaderIteration_reset {env : LoaderEnv} {errs : StageErrs} {state : LoopState}
    {update : Option UInt8} (select : selectStage env state = .reset update) :
    loaderIteration env errs state = .done (.reset update) := by
  rw [loaderIteration, select]

/-- The second part of an iteration that was entered without an error: it
leaves the loop, or goes round with the error of its failed stage. -/
theorem Track.iterate {env : LoaderEnv} (errs : Nat → StageErrs) {info₀ : SblInfo}
    {n : Nat} {state after : LoopState} {index : UInt8} {update : Option UInt8}
    (select : selectStage env state = .chosen index after update)
    (track : Track env.sblFdeRank info₀ n after.info) (clear : after.info.errCode = 0) :
    (failedStage env (errs n) = none ∧
        ∃ final, loaderIteration env (errs n) state = .done (.leave final)) ∨
      ∃ next, loaderIteration env (errs n) state = .again next ∧
        Failed env errs info₀ n next := by
  cases failed : failedStage env (errs n) with
  | none =>
      have clean : (runStages env (errs n) after).info.errCode = 0 := by
        rw [runStages_ok after failed]
        exact clear
      refine Or.inl ⟨rfl, runStages env (errs n) after, ?_⟩
      rw [loaderIteration, select]
      exact if_neg (not_not.mpr clean)
  | some stage =>
      obtain ⟨rest, result⟩ := runStages_failed after failed
      have code : (runStages env (errs n) after).info.errCode = stage.errorBit := by
        rw [result, clear]
        exact UInt8.zero_or
      refine Or.inr ⟨runStages env (errs n) after, ?_, ?_, stage, failed, code⟩
      · rw [loaderIteration, select]
        apply if_pos
        rw [result]
        exact or_errorBit_ne_zero _ _
      · rw [result]
        exact track.congr rfl rfl rfl

section Runs

variable {env : LoaderEnv} {errs : Nat → StageErrs} {start : LoopState}

/-- Every head after the first one: the run is still on its way through the
table, or it is stuck behind it. -/
theorem heads_track (clear : start.info.errCode = 0) (zero : start.info.validFwd = 0)
    {n : Nat} {state : LoopState}
    (head : Heads (loaderLoop env errs) start (n + 1) state) :
    (startNumber env.sblFdeRank start.info + n ≤ 3 ∧
        (∀ k < n, FallsThrough env errs start.info k) ∧
        Failed env errs start.info n state) ∨
      (3 < startNumber env.sblFdeRank start.info + n ∧
        PassesGolden env errs start.info ∧ FailsAfterGolden env errs start.info ∧
        Stuck state.info) := by
  have small := startNumber_lt env.sblFdeRank start.info
  induction n generalizing state with
  | zero =>
      obtain ⟨before, isStart, step⟩ := Loop.heads_succ.mp head
      cases isStart
      obtain ⟨index, after, update, select, track, noError, -⟩ :=
        selectStage_first env clear zero
      rcases Track.iterate errs select track noError with
        ⟨-, final, leaves⟩ | ⟨next, again, failed⟩
      · rw [loaderLoop, leaves] at step
        cases step
      · rw [loaderLoop, again] at step
        cases step
        exact Or.inl ⟨Nat.le_of_lt small,
          fun k absurdBound => absurd absurdBound (Nat.not_lt_zero k), failed⟩
  | succ n ih =>
      obtain ⟨before, isHead, step⟩ := Loop.heads_succ.mp head
      rcases ih isHead with ⟨bound, falls, failed⟩ | ⟨past, golden, after, stuck⟩
      · rcases Nat.lt_or_eq_of_le bound with inTable | usedUp
        · rcases failed.select inTable with ⟨-, update, select⟩ |
            ⟨fall, index, after, update, select, -, track, noError⟩
          · rw [loaderLoop, loaderIteration_reset select] at step
            cases step
          · rcases Track.iterate errs select track noError with
              ⟨-, final, leaves⟩ | ⟨next, again, nextFailed⟩
            · rw [loaderLoop, leaves] at step
              cases step
            · rw [loaderLoop, again] at step
              cases step
              refine Or.inl ⟨inTable, fun k bounded => ?_, nextFailed⟩
              rcases Nat.lt_succ_iff_lt_or_eq.mp bounded with earlier | rfl
              · exact falls k earlier
              · exact fall
        · rcases failed.select_past usedUp with ⟨-, update, select⟩ | ⟨noSbl, stuck⟩
          · rw [loaderLoop, loaderIteration_reset select] at step
            cases step
          · obtain ⟨next, again, nextStuck⟩ := stuck.iterate env (errs (n + 1))
            rw [loaderLoop, again] at step
            cases step
            obtain ⟨stage, isFailed, -⟩ := failed.failed
            refine Or.inr ⟨by omega, fun k inTable => falls k (by omega), ⟨noSbl, stage, ?_⟩,
              nextStuck⟩
            rwa [← usedUp, Nat.add_sub_cancel_left]
      · obtain ⟨next, again, nextStuck⟩ := stuck.iterate env (errs (n + 1))
        rw [loaderLoop, again] at step
        cases step
        exact Or.inr ⟨Nat.lt_succ_of_lt past, golden, after, nextStuck⟩

/-- A run that falls through reaches every descriptor of the table. -/
theorem heads_of_passesGolden (clear : start.info.errCode = 0)
    (zero : start.info.validFwd = 0) (golden : PassesGolden env errs start.info)
    (n : Nat) (inTable : startNumber env.sblFdeRank start.info + n < 3) :
    ∃ state, Heads (loaderLoop env errs) start (n + 1) state ∧
      Failed env errs start.info n state := by
  induction n with
  | zero =>
      obtain ⟨index, after, update, select, track, noError, -⟩ :=
        selectStage_first env clear zero
      obtain ⟨stage, fails, -⟩ := golden 0 inTable
      rcases Track.iterate errs select track noError with
        ⟨ok, -⟩ | ⟨next, again, failed⟩
      · rw [fails] at ok
        cases ok
      · exact ⟨next, Loop.heads_succ.mpr ⟨start, rfl, again⟩, failed⟩
  | succ n ih =>
      have earlier : startNumber env.sblFdeRank start.info + n < 3 :=
        Nat.lt_of_succ_lt inTable
      obtain ⟨state, head, failed⟩ := ih earlier
      obtain ⟨stage, fails, -⟩ := golden (n + 1) inTable
      rcases failed.select earlier with ⟨stops, -⟩ |
        ⟨-, index, after, update, select, -, track, noError⟩
      · exact absurd (golden n earlier) stops
      · rcases Track.iterate errs select track noError with
          ⟨ok, -⟩ | ⟨next, again, nextFailed⟩
        · rw [fails] at ok
          cases ok
        · exact ⟨next, Loop.heads_succ.mpr ⟨state, head, again⟩, nextFailed⟩

/-- Behind the golden descriptor the selector returns no descriptor, and the
iteration runs once more without a pending error. -/
theorem select_behind_golden (clear : start.info.errCode = 0)
    (zero : start.info.validFwd = 0) (golden : PassesGolden env errs start.info) :
    ∃ n state index after update,
      startNumber env.sblFdeRank start.info + (n + 1) = 3 ∧
        Heads (loaderLoop env errs) start (n + 1) state ∧
        selectStage env state = .chosen index after update ∧ index.toNat = 3 ∧
        Track env.sblFdeRank start.info (n + 1) after.info ∧ after.info.errCode = 0 := by
  have small := startNumber_lt env.sblFdeRank start.info
  obtain ⟨n, last⟩ : ∃ n, startNumber env.sblFdeRank start.info + n = 2 :=
    ⟨2 - startNumber env.sblFdeRank start.info, by omega⟩
  have inTable : startNumber env.sblFdeRank start.info + n < 3 := by omega
  obtain ⟨state, head, failed⟩ := heads_of_passesGolden clear zero golden n inTable
  rcases failed.select inTable with ⟨stops, -⟩ |
    ⟨-, index, after, update, select, number, track, noError⟩
  · exact absurd (golden n inTable) stops
  · exact ⟨n, state, index, after, update, by omega, head, select, by omega, track, noError⟩

/-- A stuck run stays stuck. -/
theorem heads_of_stuck {k : Nat} {state : LoopState}
    (head : Heads (loaderLoop env errs) start k state) (stuck : Stuck state.info) (j : Nat) :
    ∃ later, Heads (loaderLoop env errs) start (k + j) later ∧ Stuck later.info := by
  induction j with
  | zero => exact ⟨state, head, stuck⟩
  | succ j ih =>
      obtain ⟨before, isHead, isStuck⟩ := ih
      obtain ⟨next, again, nextStuck⟩ := isStuck.iterate env (errs (k + j))
      exact ⟨next, Loop.heads_succ.mpr ⟨before, isHead, again⟩, nextStuck⟩

/-- The loop spins forever when the iteration behind the golden descriptor
fails as well. -/
theorem loop_endless (clear : start.info.errCode = 0) (zero : start.info.validFwd = 0)
    (golden : PassesGolden env errs start.info)
    (behind : FailsAfterGolden env errs start.info) (n : Nat) :
    (Loop.status (loaderLoop env errs) start n).ended = false := by
  obtain ⟨k, state, index, after, update, position, head, select, -, track, noError⟩ :=
    select_behind_golden clear zero golden
  obtain ⟨noSbl, stage, fails⟩ := behind
  rw [← position, Nat.add_sub_cancel_left] at fails
  rcases Track.iterate errs select track noError with ⟨ok, -⟩ | ⟨next, again, failed⟩
  · rw [fails] at ok
    cases ok
  · have nextHead : Heads (loaderLoop env errs) start (k + 2) next :=
      Loop.heads_succ.mpr ⟨state, head, again⟩
    rcases failed.select_past position with ⟨sbl, -⟩ | ⟨-, stuck⟩
    · exact absurd noSbl sbl
    · cases stopped : Loop.status (loaderLoop env errs) start n with
      | again state => rfl
      | done result =>
          obtain ⟨later, running, -⟩ := heads_of_stuck nextHead stuck n
          have same := Loop.status_done_stable stopped (k + 2)
          rw [Nat.add_comm, show Loop.status _ _ _ = _ from running] at same
          cases same

/-- A descriptor that is selected is the next one in turn. -/
theorem chosen_track (clear : start.info.errCode = 0) (zero : start.info.validFwd = 0)
    {n : Nat} {state after : LoopState} {index : UInt8} {update : Option UInt8}
    (head : Heads (loaderLoop env errs) start n state)
    (select : selectStage env state = .chosen index after update) (below : index < maxFwdNum) :
    index.toNat = startNumber env.sblFdeRank start.info + n ∧
      Track env.sblFdeRank start.info n after.info := by
  cases n with
  | zero =>
      cases head
      obtain ⟨index', after', update', select', track, -, position⟩ :=
        selectStage_first env clear zero
      cases select.symm.trans select'
      rcases position with position | ⟨-, past⟩
      · exact ⟨position, track⟩
      · exact absurd below past
  | succ n =>
      rcases heads_track clear zero head with ⟨bound, -, failed⟩ | ⟨-, -, -, stuck⟩
      · rcases Nat.lt_or_eq_of_le bound with within | usedUp
        · rcases failed.select within with ⟨-, flag, resets⟩ |
            ⟨-, index', after', update', select', position, track, -⟩
          · cases select.symm.trans resets
          · cases select.symm.trans select'
            exact ⟨position, track⟩
        · rcases failed.select_past usedUp with ⟨-, flag, resets⟩ | ⟨-, stuck⟩
          · cases select.symm.trans resets
          · obtain ⟨index', after', update', select', past, -⟩ := stuck.select env
            cases select.symm.trans select'
            exact absurd below past
      · obtain ⟨index', after', update', select', past, -⟩ := stuck.select env
        cases select.symm.trans select'
        exact absurd below past

/-- The image an iteration works on: the one of the next descriptor in turn,
except for a golden image that is tried a second time. -/
theorem attempts_number (clear : start.info.errCode = 0) (zero : start.info.validFwd = 0)
    {n i : Nat} (attempt : Attempts env errs start n i) :
    (i = startNumber env.sblFdeRank start.info + n ∧
        (0 < i → fwdValidAt start.info i = true) ∧ (appEntryAt start.info i).isSome) ∨
      (PassesGolden env errs start.info ∧ HasGolden start.info) := by
  induction attempt with
  | @taken n i state after index update head select number valid app =>
      left
      have below : index < maxFwdNum := by
        rw [UInt8.lt_iff_toNat_lt, number]
        by_contra outside
        have past : ¬ i < 3 := outside
        simp [fwdValidAt, past] at valid
      obtain ⟨position, track⟩ := chosen_track clear zero head select below
      have here := number.symm.trans position
      refine ⟨here, fun positive => ?_, ?_⟩
      · rw [← track.later i (Nat.le_of_eq here.symm) positive]
        exact valid
      · rw [← track.apps]
        exact app
  | @kept n i state after index update before head select past ih =>
      rcases ih with ⟨here, valid, app⟩ | twice
      · right
        have inTable : i < 3 := by
          by_contra outside
          simp [appEntryAt, outside] at app
        rcases heads_track clear zero head with ⟨-, falls, failed⟩ | ⟨behind, -⟩
        · rcases failed.select (by omega) with ⟨-, flag, resets⟩ |
            ⟨fall, index', after', update', select', position, -⟩
          · rw [select] at resets
            cases resets
          · rw [select] at select'
            cases select'
            -- the selector passed the end of the table, so the image is the golden one
            have golden : i = 2 := by
              have outside : ¬ index.toNat < 3 := fun h => past (UInt8.lt_iff_toNat_lt.mpr h)
              omega
            subst golden
            refine ⟨fun k bound => ?_, valid (Nat.succ_pos 1), app⟩
            have reached : k < n ∨ k = n := by omega
            rcases reached with earlier | rfl
            · exact falls k earlier
            · exact fall
        · omega
      · exact Or.inr twice

/-- A golden image that fails is tried a second time. -/
theorem attempts_golden_twice (clear : start.info.errCode = 0)
    (zero : start.info.validFwd = 0) (golden : PassesGolden env errs start.info)
    (present : HasGolden start.info) :
    ∃ n, Attempts env errs start n 2 ∧ Attempts env errs start (n + 1) 2 := by
  obtain ⟨n, state, index, after, update, position, head, select, number, -⟩ :=
    select_behind_golden clear zero golden
  have past : ¬ index < maxFwdNum := by
    rw [UInt8.lt_iff_toNat_lt, number]
    decide
  have first : Attempts env errs start n 2 := by
    cases n with
    | zero =>
        obtain ⟨index', after', update', select', track, -, place⟩ :=
          selectStage_first env clear zero
        have two : index'.toNat = 2 := by omega
        refine .taken rfl select' two ?_ ?_
        · rw [track.later 2 (by omega) (by omega)]
          exact present.1
        · rw [track.apps]
          exact present.2
    | succ n =>
        have inTable : startNumber env.sblFdeRank start.info + n < 3 := by omega
        obtain ⟨before, isHead, failed⟩ := heads_of_passesGolden clear zero golden n inTable
        rcases failed.select inTable with ⟨stops, -⟩ |
          ⟨-, index', after', update', select', place, track, -⟩
        · exact absurd (golden n inTable) stops
        · have two : index'.toNat = 2 := by omega
          apply Attempts.taken isHead select' two
          · rw [track.later 2 (by omega) (by omega)]
            exact present.1
          · rw [track.apps]
            exact present.2
  exact ⟨n, first, first.kept head select past⟩

end Runs

/-- The load loop ends after at most five iterations and tries no image twice,
unless all images up to the golden one fail without a reset and either there is
a golden image, which is then tried again, or the iteration behind it fails and
no SBL came with the first descriptor. -/
theorem loop_bounded_iff (storage : Storage) (fde : FdtEntry) (env : LoaderEnv)
    (errs : Nat → StageErrs) :
    (EndsWithin env errs (loopStart storage fde) 5 ∧
        ∀ n m i, Attempts env errs (loopStart storage fde) n i →
          Attempts env errs (loopStart storage fde) m i → n = m) ↔
      ¬ (PassesGolden env errs (loopStart storage fde).info ∧
        (HasGolden (loopStart storage fde).info ∨
          FailsAfterGolden env errs (loopStart storage fde).info)) := by
  obtain ⟨zero, clear⟩ := loopStart_clear storage fde
  constructor
  · rintro ⟨⟨n, -, ended⟩, once⟩ ⟨golden, present | behind⟩
    · obtain ⟨k, first, second⟩ := attempts_golden_twice clear zero golden present
      exact absurd (once k (k + 1) 2 first second) (Nat.ne_of_lt (Nat.lt_succ_self k))
    · have running := loop_endless clear zero golden behind n
      rcases ended with ⟨update, stopped⟩ | ⟨final, stopped, -⟩
      · rw [stopped] at running
        cases running
      · rw [stopped] at running
        cases running
  · intro fine
    constructor
    · cases stopped : Loop.status (loaderLoop env errs) (loopStart storage fde) 5 with
      | again state =>
          rcases heads_track clear zero stopped with ⟨bound, -⟩ | ⟨-, golden, behind, -⟩
          · omega
          · exact absurd ⟨golden, Or.inr behind⟩ fine
      | done result =>
          refine ⟨5, Nat.le_refl 5, ?_⟩
          cases result with
          | reset update => exact Or.inl ⟨update, stopped⟩
          | leave final =>
              obtain ⟨k, state, -, -, last⟩ := Loop.exists_head_of_done stopped
              exact Or.inr ⟨final, stopped, leave_calls last⟩
    · intro n m i first second
      rcases attempts_number clear zero first with ⟨atFirst, -⟩ | twice
      · rcases attempts_number clear zero second with ⟨atSecond, -⟩ | twice
        · rw [atFirst] at atSecond
          exact Nat.add_left_cancel atSecond
        · exact absurd ⟨twice.1, Or.inl twice.2⟩ fine
      · exact absurd ⟨twice.1, Or.inl twice.2⟩ fine

/-- A golden descriptor and no other. -/
def goldenOnly : Storage :=
  sampleStorage fun sector => if sector = 0 then sampleDescriptor 0 1 3 else fun _ => 0xFF

/-- The ELF header of the only image cannot be read: the loop never ends. -/
theorem loop_spins_on_golden :
    ¬ ∃ bound, EndsWithin ⟨otaImgRankCurrent, true⟩ (fun _ => ⟨5, 0, 0, 0⟩)
      (loopStart goldenOnly zeroFde) bound := by
  have golden : PassesGolden ⟨otaImgRankCurrent, true⟩ (fun _ => ⟨5, 0, 0, 0⟩)
      (loopStart goldenOnly zeroFde).info := by
    intro n inTable
    have position : startNumber otaImgRankCurrent (loopStart goldenOnly zeroFde).info = 2 := rfl
    refine ⟨.loadInit, rfl, fun _ => dif_neg ?_⟩
    rw [position]
    omega
  have behind : FailsAfterGolden ⟨otaImgRankCurrent, true⟩ (fun _ => ⟨5, 0, 0, 0⟩)
      (loopStart goldenOnly zeroFde).info := ⟨rfl, .loadInit, rfl⟩
  rintro ⟨bound, n, -, ended⟩
  have running := loop_endless rfl rfl golden behind n
  rcases ended with ⟨update, stopped⟩ | ⟨final, stopped, -⟩
  · rw [stopped] at running
    cases running
  · rw [stopped] at running
    cases running

end QHal.Boot
