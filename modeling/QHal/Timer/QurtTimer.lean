/-
Module: QHal.Timer.QurtTimer
Purpose: The timers of qurt/zephyr/src/qurt_timer.c: their creation from attributes, the start, the
  stop and the change of the period, with the calls of the kernel timer that each makes.
Trusted boundary: the kernel timer, which keeps what it was started with; k_calloc; the callback
  and its work item, which no call reads; assert is compiled out
Main exports: TimerAttr, KTimer, QurtTimer, qurtTimerCreate, ntQurtTimerCreate, TimerCall
-/
import Mathlib.Logic.Basic

namespace QHal.Qurt

def qurtTimerOneshot : UInt32 := 0x01
def qurtTimerPeriodic : UInt32 := 0x02

/-- `QURT_EOK` and `QURT_EINVALID`. -/
inductive QurtStatus where
  | eok | einvalid
deriving Repr, DecidableEq

/-- `_qurt_timer_attr_t`. -/
structure TimerAttr where
  duration : UInt32
  reload : UInt32
  option : UInt32
  id : Nat
deriving Repr, DecidableEq

/-- `qurt_timer_attr_init`, which `k_calloc` agrees with. -/
def TimerAttr.init : TimerAttr := ⟨0, 0, 0, 0⟩

def TimerAttr.setDuration (attr : TimerAttr) (duration : UInt32) : TimerAttr :=
  { attr with duration := duration }

def TimerAttr.setReload (attr : TimerAttr) (reloadTime : UInt32) : TimerAttr :=
  { attr with reload := reloadTime }

def TimerAttr.setOption (attr : TimerAttr) (option : UInt32) : TimerAttr :=
  { attr with option := option }

/-- The ticks of a `k_timer_start`. -/
structure Start where
  duration : UInt32
  reload : UInt32
deriving Repr, DecidableEq

/-- `k_timer`: what it runs with, and every start that it was given, the last one first. -/
structure KTimer where
  running : Option Start
  starts : List Start
deriving Repr, DecidableEq

/-- `k_timer_start`. -/
def KTimer.start (timer : KTimer) (duration reload : UInt32) : KTimer :=
  ⟨some ⟨duration, reload⟩, ⟨duration, reload⟩ :: timer.starts⟩

/-- `k_timer_stop`. -/
def KTimer.stop (timer : KTimer) : KTimer := { timer with running := none }

/-- `_qurt_timer_t`. -/
structure QurtTimer where
  timer : KTimer
  qurtTimerInfo : TimerAttr
  userCallback : Nat
deriving Repr, DecidableEq

/-- `qurt_timer_create`.  The option is not copied, so that of a new timer is the zero of
`k_calloc`. -/
def qurtTimerCreate (allocated : Bool) (id : Nat) (attr : Option TimerAttr) (expiryFn : Nat) :
    Option QurtTimer :=
  match attr with
  | none => none
  | some pattr =>
      if pattr.option &&& qurtTimerOneshot ≠ 0 ∧ pattr.reload ≠ 0 then none
      else if pattr.option &&& qurtTimerOneshot = 0 ∧ pattr.option &&& qurtTimerPeriodic ≠ 0 ∧
          pattr.reload = 0 then none
      else if ¬ allocated then none
      else
        some {
          timer := ⟨none, []⟩
          qurtTimerInfo :=
            { TimerAttr.init with duration := pattr.duration, reload := pattr.reload, id := id }
          userCallback := expiryFn }

/-- `nt_qurt_timer_create`. -/
def ntQurtTimerCreate (allocated : Bool) (timerPeriodInTicks : UInt32) (autoReload timerId : Nat)
    (callbackFunction : Nat) : Option QurtTimer :=
  let timerCreate := TimerAttr.init.setDuration timerPeriodInTicks
  let timerCreate :=
    if autoReload = 0 then timerCreate.setOption qurtTimerOneshot
    else (timerCreate.setOption qurtTimerPeriodic).setReload timerPeriodInTicks
  qurtTimerCreate allocated timerId (some timerCreate) callbackFunction

/-- A call with a handle, which refuses the null pointer. -/
def onHandle (body : QurtTimer → QurtStatus × QurtTimer) (handle : Option QurtTimer) :
    QurtStatus × Option QurtTimer :=
  match handle with
  | none => (.einvalid, none)
  | some qtimer => ((body qtimer).1, some (body qtimer).2)

/-- `qurt_timer_start`. -/
def qurtTimerStart (handle : Option QurtTimer) : QurtStatus × Option QurtTimer :=
  onHandle (fun qtimer =>
    (.eok,
      { qtimer with
        timer := qtimer.timer.start qtimer.qurtTimerInfo.duration qtimer.qurtTimerInfo.reload }))
    handle

/-- `qurt_timer_stop`. -/
def qurtTimerStop (handle : Option QurtTimer) : QurtStatus × Option QurtTimer :=
  onHandle (fun qtimer => (.eok, { qtimer with timer := qtimer.timer.stop })) handle

/-- `qurt_timer_change_period`. -/
def qurtTimerChangePeriod (period : UInt32) (handle : Option QurtTimer) :
    QurtStatus × Option QurtTimer :=
  onHandle (fun qtimer =>
    if qtimer.qurtTimerInfo.option &&& qurtTimerOneshot ≠ 0 then (.einvalid, qtimer)
    else
      let info := (qtimer.qurtTimerInfo.setReload period).setDuration period
      (.eok,
        { qtimer with
          timer := qtimer.timer.start info.duration info.reload, qurtTimerInfo := info }))
    handle

/-- The calls on a timer.  None reads its `block_time`. -/
inductive TimerCall where
  | start
  | stop
  | changePeriod (period : UInt32)
deriving Repr, DecidableEq

def TimerCall.exec (handle : Option QurtTimer) : TimerCall → QurtStatus × Option QurtTimer
  | .start => qurtTimerStart handle
  | .stop => qurtTimerStop handle
  | .changePeriod period => qurtTimerChangePeriod period handle

/-- The timer behind some calls. -/
def TimerCall.run (calls : List TimerCall) (handle : Option QurtTimer) : Option QurtTimer :=
  calls.foldl (fun handle call => (TimerCall.exec handle call).2) handle

end QHal.Qurt
