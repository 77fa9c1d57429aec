/-
Module: QHal.SleepCal.SlpClkCal
Purpose: The active mode sleep clock calibration (wlan_sleep_clk_cal.c) as it is built with sleep
  clock correction and sleep mode calibration: its parameters, the handlers that change them, and
  every index that they use.
Trusted boundary: a configuration register reads back what was written to it; the temperature, the
  HBIN registers, what lies behind the range table and the answers of the power manager and of the
  timer service are inputs; the log writes and the trigger of the calibration are left out, the
  indices that the log arguments use are not.
Main exports: SlpClkCal, Access, slpClkCalGetHbin, sleepClkCalTimerCb, slpClkCalInit,
  slpClkCalEnable, CalEvent, CalRun.step
-/
import Mathlib.Logic.Basic

namespace QHal.SleepCal

def numHbinRange : Nat := 17
def maxNumHbin : UInt8 := 15
def hbinRange2Start : Nat := 6
def hbinRange3Start : Nat := 12
def hbinRangeBitOffset : Nat := 5
def tsHysThresh : UInt32 := 2
def hbinActiveMask : UInt32 := 0x80000000
def calbinDataMask : UInt32 := 0x1FFFFF
/-- The mask of the first range field of the three range registers. -/
def hbinRangeMask : UInt32 := 0x1F

/-- slp_clk_cal_mode_t, with the values that are no mode. -/
inductive CalMode where
  | disable
  | active
  | sleep
  | invalid
deriving Repr, DecidableEq

inductive NtStatus where
  | ok
  | fail
deriving Repr, DecidableEq

/-- The PMU configuration registers that the ranges and the reference are read from. -/
structure PmuRegs where
  hbinLowOffset : UInt32
  hbin0To5Range : UInt32
  hbin6To11Range : UInt32
  hbin12To15Range : UInt32
  refSlpClkCnt : UInt32
deriving Repr, DecidableEq

/-- socpm_sleep_clk_cal_t, with what the handlers read, and the registers. -/
structure SlpClkCal where
  xocnt : UInt32
  refxocnt : UInt32
  hbinRange : Nat → UInt32
  pmuTempSensorData : UInt32
  pendingTicks : UInt32
  pollTimer : UInt32
  prevHbin : UInt8
  initialized : Bool
  sleepModeCalEnabled : Bool
  enabledMode : CalMode
  regs : PmuRegs

/-- An index into hbin_range, or a register counted from HBIN0. -/
inductive Access where
  | hbinRange (index : Nat)
  | hbinReg (index : Int)
deriving Repr, DecidableEq

/-- The index is one of the table or one of the sixteen registers. -/
def Access.InBounds : Access → Prop
  | .hbinRange index => index < numHbinRange
  | .hbinReg index => 0 ≤ index ∧ index ≤ 15

instance (access : Access) : Decidable access.InBounds :=
  match access with
  | .hbinRange _ => inferInstanceAs (Decidable (_ < _))
  | .hbinReg _ => inferInstanceAs (Decidable (_ ∧ _))

/-- hbin_range[index], with what lies behind the table. -/
def SlpClkCal.range (cal : SlpClkCal) (beyond : Nat → UInt32) (index : Nat) : UInt32 :=
  if index < numHbinRange then cal.hbinRange index else beyond index

def isActive (hbinData : UInt32) : Bool := hbinData &&& hbinActiveMask != 0

/-! ## Calibration done -/

/-- The loop of socpm_slp_clk_cal_get_hbin over the ranges from one index on: the bin, and
the indices it looks at. -/
def findBin (hbinRange : Nat → UInt32) (temp : UInt32) : Nat → Nat → Nat → Nat × List Access
  | 0, _, bin => (bin, [])
  | more + 1, index, bin =>
      if hbinRange index ≤ temp then
        let (found, accesses) := findBin hbinRange temp more (index + 1) index
        (found, .hbinRange index :: accesses)
      else (bin, [.hbinRange index])

/-- The calibration count that the bin or a neighbour has, and the registers it reads. -/
def hbinXocnt (xocnt : UInt32) (hbin : Int → UInt32) (bin : Nat) : UInt32 × List Access :=
  if isActive (hbin bin) then (hbin bin &&& calbinDataMask, [.hbinReg bin])
  else if bin ≠ 0 ∧ isActive (hbin (bin - 1)) then
    (hbin (bin - 1) &&& calbinDataMask, [.hbinReg bin, .hbinReg (bin - 1)])
  else if bin ≠ maxNumHbin.toNat then
    (if isActive (hbin (bin + 1)) then hbin (bin + 1) &&& calbinDataMask else xocnt,
      [.hbinReg bin, .hbinReg (bin - 1), .hbinReg (bin + 1)])
  else (xocnt, [.hbinReg bin, .hbinReg (bin - 1)])

/-- socpm_slp_clk_cal_get_hbin, for a temperature and the contents of the registers. -/
def slpClkCalGetHbin (cal : SlpClkCal) (temp : UInt32) (hbin : Int → UInt32) :
    SlpClkCal × List Access × NtStatus :=
  let cal := { cal with pmuTempSensorData := temp }
  if temp < cal.hbinRange 0 then (cal, [.hbinRange 0], .fail)
  else if cal.hbinRange (numHbinRange - 1) ≤ temp then
    (cal, [.hbinRange 0, .hbinRange (numHbinRange - 1)], .fail)
  else
    let (bin, looks) := findBin cal.hbinRange temp (numHbinRange - 1) 0 0
    let (xocnt, reads) := hbinXocnt cal.xocnt hbin bin
    ({ cal with
        xocnt := xocnt
        prevHbin := UInt8.ofNat bin
        initialized := true },
      [.hbinRange 0, .hbinRange (numHbinRange - 1)] ++ looks ++ reads, .ok)

/-! ## Poll timer -/

/-- socpm_sleep_clk_cal_timer_cb: behind the callbacks before a sleep it does nothing,
without a change of the bin it returns, else it logs the ranges and triggers a
calibration. -/
def sleepClkCalTimerCb (cal : SlpClkCal) (preSlpComplete : Bool) (temp : UInt32)
    (beyond : Nat → UInt32) : SlpClkCal × List Access :=
  if preSlpComplete then (cal, [])
  else
    let cal := { cal with pmuTempSensorData := temp }
    let bin := cal.prevHbin.toNat
    if cal.range beyond bin - tsHysThresh ≤ temp then
      if temp < cal.range beyond (bin + 1) + tsHysThresh ∧ cal.initialized = true then
        (cal, [.hbinRange bin, .hbinRange (bin + 1)])
      else
        (cal, [.hbinRange bin, .hbinRange (bin + 1), .hbinRange bin, .hbinRange (bin + 1)])
    else (cal, [.hbinRange bin, .hbinRange bin, .hbinRange (bin + 1)])

/-! ## Initialization -/

/-- socpm_slp_clk_cal_hw_init, for the registers that are read again. -/
def slpClkCalHwInit (cal : SlpClkCal) : SlpClkCal :=
  { cal with
    regs :=
      { hbinLowOffset := 0
        hbin0To5Range := 0x3FFFFFFF
        hbin6To11Range := 0x3FFFFFFF
        hbin12To15Range := 0xFFFFF
        refSlpClkCnt := 0x200 } }

/-- A range field of a register. -/
def rangeField (rdata : UInt32) (field : Nat) : UInt32 :=
  let shift := UInt32.ofNat (hbinRangeBitOffset * field)
  ((hbinRangeMask <<< shift) &&& rdata) >>> shift

/-- The width of a bin. -/
def binWidth (regs : PmuRegs) (index : Nat) : UInt32 :=
  if index < hbinRange2Start then rangeField regs.hbin0To5Range index
  else if index < hbinRange3Start then
    rangeField regs.hbin6To11Range (index - hbinRange2Start)
  else rangeField regs.hbin12To15Range (index - hbinRange3Start)

/-- The ranges that the loop of socpm_slp_clk_cal_init adds up. -/
def initRange (regs : PmuRegs) : Nat → UInt32
  | 0 => regs.hbinLowOffset
  | index + 1 => initRange regs index + binWidth regs index

/-- The ticks of the reference that go with the count. -/
def refTicks (refSlpCnt : UInt32) : UInt32 :=
  if refSlpCnt = 16 then 14
  else if refSlpCnt = 32 then 28
  else if refSlpCnt = 64 then 56
  else if refSlpCnt = 128 then 112
  else if refSlpCnt = 512 then 447
  else if refSlpCnt = 1024 then 895
  else 28

/-- socpm_slp_clk_cal_init, for the configured sleep mode and the handle that the timer
service returns, 0 if it has no timer. -/
def slpClkCalInit (cal : SlpClkCal) (sleepMode : Bool) (timer : UInt32) :
    SlpClkCal × List Access :=
  let cal := slpClkCalHwInit { cal with sleepModeCalEnabled := sleepMode }
  let refxocnt := refTicks cal.regs.refSlpClkCnt * 9375 / 8
  ({ cal with
      hbinRange := initRange cal.regs
      refxocnt := refxocnt
      xocnt := refxocnt
      prevHbin := 0xFF
      pollTimer := if cal.pollTimer = 0 then timer else cal.pollTimer },
    .hbinRange 0 :: (List.range (numHbinRange - 1)).flatMap fun index =>
      [.hbinRange index, .hbinRange (index + 1)])

/-! ## Pause, resume, modes -/

/-- socpm_actv_slp_clk_cal_monitor_pause, for the state of the timer. -/
def monitorPause (cal : SlpClkCal) (isActiveTimer : Bool) (expiry : UInt32) : SlpClkCal :=
  if cal.pollTimer ≠ 0 then { cal with pendingTicks := if isActiveTimer then expiry else 0 }
  else cal

/-- socpm_actv_slp_clk_cal_monitor_resume. -/
def monitorResume (cal : SlpClkCal) (preSlpComplete : Bool) (temp : UInt32)
    (beyond : Nat → UInt32) : SlpClkCal × List Access :=
  let (resumed, accesses) :=
    if cal.pollTimer ≠ 0 then
      if cal.pendingTicks ≠ 0 then ({ cal with pendingTicks := 0 }, [])
      else sleepClkCalTimerCb cal preSlpComplete temp beyond
    else (cal, [])
  ({ slpClkCalHwInit resumed with enabledMode := .active }, accesses)

/-- socpm_slp_clk_cal_enable, for the answers of the configuration and the timer service. -/
def slpClkCalEnable (cal : SlpClkCal) (mode : CalMode) (sleepMode : Bool) (timer : UInt32)
    (deleted : Bool) : SlpClkCal × List Access :=
  match mode with
  | .active =>
      if cal.enabledMode = .active then (cal, [])
      else slpClkCalInit { cal with enabledMode := .active } sleepMode timer
  | .disable =>
      if cal.enabledMode = .disable then (cal, [])
      else if cal.pollTimer ≠ 0 ∧ deleted = false then (cal, [])
      else
        ({ cal with
            xocnt := cal.refxocnt
            pollTimer := 0
            enabledMode := .disable
            initialized := false }, [])
  | .sleep =>
      if cal.sleepModeCalEnabled = false then (cal, [])
      else
        let cal := slpClkCalHwInit { cal with enabledMode := .sleep }
        ({ cal with xocnt := cal.refxocnt }, [])
  | .invalid => (cal, [])

/-- socpm_slp_clk_cal_presleep_activites, for the calibration parameters. -/
def presleepActivities (cal : SlpClkCal) : SlpClkCal × List Access :=
  if cal.sleepModeCalEnabled = false then (cal, [])
  else slpClkCalEnable cal .sleep false 0 false

/-- socpm_slp_clk_cal_postawake_activities. -/
def postawakeActivities (cal : SlpClkCal) (hbin : Int → UInt32) : SlpClkCal × List Access :=
  if cal.sleepModeCalEnabled = false then (cal, [])
  else if cal.enabledMode = .sleep then
    let cal := { cal with enabledMode := .active }
    if cal.prevHbin ≤ maxNumHbin then
      let data := hbin cal.prevHbin.toNat
      if isActive data then
        ({ cal with xocnt := data &&& calbinDataMask }, [.hbinReg cal.prevHbin.toNat])
      else (slpClkCalHwInit cal, [.hbinReg cal.prevHbin.toNat])
    else (slpClkCalHwInit cal, [])
  else (cal, [])

/-! ## Runs -/

/-- The calls that change the parameters, with their inputs. -/
inductive CalEvent where
  | enable (mode : CalMode) (sleepMode : Bool) (timer : UInt32) (deleted : Bool)
  | timerCb (preSlpComplete : Bool) (temp : UInt32) (beyond : Nat → UInt32)
  | calDone (temp : UInt32) (hbin : Int → UInt32)
  | pause (isActiveTimer : Bool) (expiry : UInt32)
  | resume (preSlpComplete : Bool) (temp : UInt32) (beyond : Nat → UInt32)
  | preSleep
  | postAwake (hbin : Int → UInt32)
  /-- socpm_slp_clk_cal_dynamic_slp_mode_cal_enable -/
  | dynamicEnable (enabled : Bool)

/-- The parameters, and every index used so far. -/
structure CalRun where
  cal : SlpClkCal
  accesses : List Access

/-- What one call does to the parameters, and the indices it uses. -/
def CalEvent.apply (cal : SlpClkCal) : CalEvent → SlpClkCal × List Access
  | .enable mode sleepMode timer deleted => slpClkCalEnable cal mode sleepMode timer deleted
  | .timerCb preSlpComplete temp beyond => sleepClkCalTimerCb cal preSlpComplete temp beyond
  | .calDone temp hbin =>
      let (next, accesses, _) := slpClkCalGetHbin cal temp hbin
      (next, accesses)
  | .pause isActiveTimer expiry => (monitorPause cal isActiveTimer expiry, [])
  | .resume preSlpComplete temp beyond => monitorResume cal preSlpComplete temp beyond
  | .preSleep => presleepActivities cal
  | .postAwake hbin => postawakeActivities cal hbin
  | .dynamicEnable enabled => ({ cal with sleepModeCalEnabled := enabled }, [])

def CalRun.step (run : CalRun) (event : CalEvent) : Option CalRun :=
  let (next, accesses) := event.apply run.cal
  some { cal := next, accesses := run.accesses ++ accesses }

/-- The statics and the registers before the first call. -/
def CalRun.start : CalRun where
  cal :=
    { xocnt := 0
      refxocnt := 0
      hbinRange := fun _ => 0
      pmuTempSensorData := 0
      pendingTicks := 0
      pollTimer := 0
      prevHbin := 0
      initialized := false
      sleepModeCalEnabled := false
      enabledMode := .disable
      regs :=
        { hbinLowOffset := 0
          hbin0To5Range := 0
          hbin6To11Range := 0
          hbin12To15Range := 0
          refSlpClkCnt := 0 } }
  accesses := []

end QHal.SleepCal
