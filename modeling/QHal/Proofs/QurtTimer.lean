/-
Module: QHal.Proofs.QurtTimer
Purpose: One-shot timers: the option that makes a timer one-shot does not reach the timer object, so
  a change of the period makes it repeat.
Trusted boundary: none
Main exports: Created, OneShotCreated, Single, OneShotSafe, oneShotSafe_iff
-/
import Mathlib.Tactic.Common
import QHal.Timer.QurtTimer

namespace QHal.Qurt

section Timers

variable {allocated : Bool} {id expiryFn : Nat} {attr : TimerAttr} {qtimer next : QurtTimer}

/-! ## Creation -/

/-- What a new timer keeps of its attributes. -/
structure Created (attr : TimerAttr) (qtimer : QurtTimer) : Prop where
  timer : qtimer.timer = ⟨none, []⟩
  duration : qtimer.qurtTimerInfo.duration = attr.duration
  reload : qtimer.qurtTimerInfo.reload = attr.reload
  option : qtimer.qurtTimerInfo.option = 0
  oneShot : attr.option &&& qurtTimerOneshot ≠ 0 → attr.reload = 0

theorem qurtTimerCreate_some
    (created : qurtTimerCreate allocated id (some attr) expiryFn = some qtimer) :
    Created attr qtimer := by
  unfold qurtTimerCreate at created
  dsimp only at created
  split_ifs at created with refused
  obtain rfl := Option.some.inj created
  refine ⟨rfl, rfl, rfl, rfl, fun oneShot => ?_⟩
  by_contra reload
  exact refused ⟨oneShot, reload⟩

/-- The ways to create a one-shot timer. -/
inductive OneShotCreated (qtimer : QurtTimer) : Prop where
  | fromAttr {allocated : Bool} {id expiryFn : Nat} {attr : TimerAttr}
      (created : qurtTimerCreate allocated id (some attr) expiryFn = some qtimer)
      (oneShot : attr.option &&& qurtTimerOneshot ≠ 0)
  | fromTicks {allocated : Bool} {timerPeriodInTicks : UInt32} {timerId callbackFunction : Nat}
      (created : ntQurtTimerCreate allocated timerPeriodInTicks 0 timerId callbackFunction =
        some qtimer)

theorem OneShotCreated.fresh (created : OneShotCreated qtimer) :
    ∃ attr, Created attr qtimer ∧ attr.option &&& qurtTimerOneshot ≠ 0 := by
  cases created with
  | fromAttr created oneShot => exact ⟨_, qurtTimerCreate_some created, oneShot⟩
  | fromTicks created =>
      exact ⟨_, qurtTimerCreate_some created,
        show qurtTimerOneshot &&& qurtTimerOneshot ≠ 0 by decide⟩

/-! ## Calls -/

/-- No call changes the option. -/
theorem TimerCall.exec_option (call : TimerCall) (qtimer : QurtTimer) :
    ∃ next, (TimerCall.exec (some qtimer) call).2 = some next ∧
      next.qurtTimerInfo.option = qtimer.qurtTimerInfo.option := by
  cases call with
  | start => exact ⟨_, rfl, rfl⟩
  | stop => exact ⟨_, rfl, rfl⟩
  | changePeriod period =>
      refine ⟨_, rfl, ?_⟩
      dsimp only
      split_ifs <;> rfl

theorem TimerCall.run_option (calls : List TimerCall) (qtimer : QurtTimer) :
    ∃ next, TimerCall.run calls (some qtimer) = some next ∧
      next.qurtTimerInfo.option = qtimer.qurtTimerInfo.option := by
  induction calls generalizing qtimer with
  | nil => exact ⟨qtimer, rfl, rfl⟩
  | cons call calls ih =>
      obtain ⟨middle, step, option⟩ := call.exec_option qtimer
      obtain ⟨next, run, same⟩ := ih middle
      refine ⟨next, ?_, same.trans option⟩
      unfold TimerCall.run at run ⊢
      rw [List.foldl_cons, step, run]

/-- Without the option a change of the period is carried out. -/
theorem qurtTimerChangePeriod_eok (period : UInt32) (option : qtimer.qurtTimerInfo.option = 0) :
    (qurtTimerChangePeriod period (some qtimer)).1 = .eok := by
  have clear : ¬ qtimer.qurtTimerInfo.option &&& qurtTimerOneshot ≠ 0 := by
    rw [option]
    decide
  unfold qurtTimerChangePeriod onHandle
  dsimp only
  rw [if_neg clear]

/-- A timer whose starts all fire once. -/
structure Single (qtimer : QurtTimer) : Prop where
  reload : qtimer.qurtTimerInfo.reload = 0
  starts : ∀ start ∈ qtimer.timer.starts, start.reload = 0

theorem Created.single (created : Created attr qtimer)
    (oneShot : attr.option &&& qurtTimerOneshot ≠ 0) : Single qtimer where
  reload := created.reload.trans (created.oneShot oneShot)
  starts := by
    rw [created.timer]
    exact fun _ => nofun

theorem Single.exec (single : Single qtimer) {call : TimerCall}
    (kept : ∀ period, call ≠ .changePeriod period) :
    ∃ next, (TimerCall.exec (some qtimer) call).2 = some next ∧ Single next := by
  cases call with
  | start =>
      refine ⟨_, rfl, single.reload, fun start listed => ?_⟩
      rcases List.mem_cons.mp listed with rfl | earlier
      · exact single.reload
      · exact single.starts start earlier
  | stop => exact ⟨_, rfl, single.reload, single.starts⟩
  | changePeriod period => exact absurd rfl (kept period)

theorem Single.run (single : Single qtimer) (calls : List TimerCall)
    (kept : ∀ period, .changePeriod period ∉ calls) :
    ∃ next, TimerCall.run calls (some qtimer) = some next ∧ Single next := by
  induction calls generalizing qtimer with
  | nil => exact ⟨qtimer, rfl, single⟩
  | cons call calls ih =>
      have first : ∀ period, call ≠ .changePeriod period := by
        rintro period rfl
        exact kept period List.mem_cons_self
      obtain ⟨middle, step, still⟩ := single.exec first
      obtain ⟨next, run, last⟩ := ih still fun period listed =>
        kept period (List.mem_cons_of_mem _ listed)
      refine ⟨next, ?_, last⟩
      unfold TimerCall.run at run ⊢
      rw [List.foldl_cons, step, run]

/-! ## One-shot timers -/

/-- What is promised of a one-shot timer and the calls on it. -/
structure OneShotSafe (qtimer : QurtTimer) (calls : List TimerCall) : Prop where
  starts : ∀ next, TimerCall.run calls (some qtimer) = some next →
    ∀ start ∈ next.timer.starts, start.reload = 0
  changes : ∀ before period after, calls = before ++ .changePeriod period :: after →
    qurtTimerChangePeriod period (TimerCall.run before (some qtimer)) =
      (.einvalid, TimerCall.run before (some qtimer))

/-- A timer that was created with the one-shot option keeps its promise if and only if its period is
never changed. -/
theorem oneShotSafe_iff (calls : List TimerCall)
    (created : OneShotCreated qtimer) :
    OneShotSafe qtimer calls ↔ ∀ period, .changePeriod period ∉ calls := by
  obtain ⟨attr, fresh, oneShot⟩ := created.fresh
  constructor
  · intro safe period listed
    obtain ⟨before, after, split⟩ := List.append_of_mem listed
    obtain ⟨next, run, option⟩ := TimerCall.run_option before qtimer
    have refused := safe.changes before period after split
    rw [run] at refused
    have carried := qurtTimerChangePeriod_eok period (option.trans fresh.option)
    rw [refused] at carried
    cases carried
  · intro kept
    refine ⟨fun next run start listed => ?_, fun before period after split => ?_⟩
    · obtain ⟨last, reached, single⟩ := (fresh.single oneShot).run calls kept
      obtain rfl := Option.some.inj (reached.symm.trans run)
      exact single.starts start listed
    · exact absurd (split ▸ List.mem_append_right _ List.mem_cons_self) (kept period)

theorem oneShotSafe_iff_five :
    OneShotSafe ⟨⟨none, []⟩, ⟨5, 0, 0, 7⟩, 3⟩ [.start, .stop, .start] ↔
      ∀ period, TimerCall.changePeriod period ∉ [.start, .stop, .start] :=
  oneShotSafe_iff [.start, .stop, .start]
    (.fromTicks (show ntQurtTimerCreate true 5 0 7 3 = _ from rfl))

/-- A one-shot timer of five ticks whose period is set to eight: the call succeeds and the timer
repeats. -/
theorem oneShotSafe_not_changed : ∃ qtimer,
    ntQurtTimerCreate true 5 0 7 3 = some qtimer ∧
      ¬ OneShotSafe qtimer [.start, .changePeriod 8] := by
  refine ⟨⟨⟨none, []⟩, ⟨5, 0, 0, 7⟩, 3⟩, rfl, fun safe => ?_⟩
  have single := safe.starts _ rfl ⟨8, 8⟩ List.mem_cons_self
  exact absurd single (by decide)

end Timers

end QHal.Qurt
