/-
Module: QHal.Timer.HresTimer
Purpose: The high resolution time of qurt_timer.c: the microseconds of the hardware
  counter, read as two halves, and the busy delay on it.
Trusted boundary: the hardware counter is a parameter, with its value at each of the
  register reads; the delay loop has a bound on its polls.
Main exports: Counter, hresTimerCurrTimeUs, hresTimerUsDelay
-/
import Mathlib.Logic.Basic

namespace QHal.HresTimer

/-- The 64-bit counter, at each register read of a run. -/
abbrev Counter := Nat → UInt64

/-- HWIO_QTMR_V1_QTMR_V1_CNTPCT_HI_IN -/
def cntpctHiIn (counter : Counter) (read : Nat) : UInt32 := (counter read >>> 32).toUInt32

/-- HWIO_QTMR_V1_QTMR_V1_CNTPCT_LO_IN -/
def cntpctLoIn (counter : Counter) (read : Nat) : UInt32 := (counter read).toUInt32

def cntrFreqHz : UInt64 := 38400000

/-- hres_timer_curr_time_us: two register reads, the upper half first. -/
def hresTimerCurrTimeUs (counter : Counter) (read : Nat) : UInt64 :=
  let countHi := cntpctHiIn counter read
  let countLo := cntpctLoIn counter (read + 1)
  let currentTicks := countHi.toUInt64 <<< 32 ||| countLo.toUInt64
  currentTicks * 1000000 / cntrFreqHz

/-- The loop of hres_timer_us_delay, with the number of register reads made so far; it
yields the number of reads at its end, or nothing if the polls are used up. -/
def delayLoop (counter : Counter) (targetTime : UInt64) : Nat → Nat → UInt64 → Option Nat
  | 0, read, currTime => if currTime < targetTime then none else some read
  | polls + 1, read, currTime =>
      if currTime < targetTime then
        delayLoop counter targetTime polls (read + 2) (hresTimerCurrTimeUs counter read)
      else some read

/-- hres_timer_us_delay. -/
def hresTimerUsDelay (counter : Counter) (polls read : Nat) (timeUs : UInt32) : Option Nat :=
  let currTime := hresTimerCurrTimeUs counter read
  let targetTime := currTime + timeUs.toUInt64
  delayLoop counter targetTime polls (read + 2) currTime

end QHal.HresTimer
