/-
Module: QHal.Wlan.WmiCommands
Purpose: The blocking commands and the event handlers of the Wi-Fi driver,
  qwifi/src/wlan_drv/wmi_api.c and wlan_qapi_helper.c: an application thread that sends
  requests and waits for signals, and the thread that dispatches the events.
Trusted boundary: qurt_signal_t keeps its bits until they are cleared, and the payload of
  an event is present.  The track beside the context is read by no program.
Main exports: Sig, Flags, Cxt, Command, Event, Shared, Command.code, Event.code, step
-/
import QHal.Lib.Threads

namespace QHal.WmiCommands

open Threads

/-- `qapi_Status_t`. -/
abbrev Status := Int32

/-- `__QAPI_ERROR`. -/
def qapiErrorOf (modId err : Int32) : Status := 0 - (modId * 10000 + err)

def qapiOk : Status := 0
def qapiError : Status := qapiErrorOf 1 1
def qapiWlanErrEinval : Status := qapiErrorOf 15 16
def qapiWlanErrEproto : Status := qapiErrorOf 15 21

/-- `QAPI_MAX_REG_RULES`. -/
def qapiMaxRegRules : Nat := 17

/-- The bits `WLAN_WMI_CMD_SIG_MASK_...` of `wlan_cmd_done`. -/
inductive Sig where
  | enableDone | disableDone | startedScan | scanCompleted | connectCompleted | disconnected
  | ifAdded | setMode | getStat | setParam | getReg | setRate | getRate | sendRaw
  | setMgmtFilter | getTxPower | getStatus | suspend | resume | sapCsaStatus
deriving Repr, DecidableEq

/-- The flags `wlan_..._block_mode` of `wlan_qapi_cxt_t`. -/
structure Flags where
  wlanEnableBlockMode : Bool
  wlanDisableBlockMode : Bool
  wlanIfAddBlockMode : Bool
  wlanScanStartBlockMode : Bool
  wlanConnectBlockMode : Bool
  wlanDisconnectBlockMode : Bool
  wlanGetStatBlockMode : Bool
  wlanSetParamBlockMode : Bool
  wlanGetRegulatoryBlockMode : Bool
  wlanSetRateBlockMode : Bool
  wlanGetRateBlockMode : Bool
  wlanSendRawBlockMode : Bool
  wlanSetMgmtFilterBlockMode : Bool
  wlanGetTxPowerBlockMode : Bool
  wlanSuspendBlockMode : Bool
  wlanResumeBlockMode : Bool
  wlanSapCsaBlockMode : Bool
deriving Repr, DecidableEq

/-- The flags behind `wlan_qapi_init`, in a context that was zero. -/
def Flags.init : Flags where
  wlanEnableBlockMode := true
  wlanDisableBlockMode := true
  wlanIfAddBlockMode := true
  wlanScanStartBlockMode := true
  wlanConnectBlockMode := false
  wlanDisconnectBlockMode := true
  wlanGetStatBlockMode := true
  wlanSetParamBlockMode := true
  wlanGetRegulatoryBlockMode := true
  wlanSetRateBlockMode := true
  wlanGetRateBlockMode := false
  wlanSendRawBlockMode := true
  wlanSetMgmtFilterBlockMode := true
  wlanGetTxPowerBlockMode := true
  wlanSuspendBlockMode := true
  wlanResumeBlockMode := false
  wlanSapCsaBlockMode := true

/-- `DEV_MODE_AP_E` and `DEV_MODE_STATION_E`. -/
inductive DevMode where
  | ap | station
deriving Repr, DecidableEq

/-- The fields of `wlan_qapi_cxt_t` that commands and handlers share; of `connect_result`
the `bss_Connection_Status` and the status. -/
structure Cxt where
  wlanEnabled : Bool
  wlanQapiError : Status
  bssConnectionStatus : Bool
  joinStatus : Status
  paramId : UInt8
  connectInProgress : Bool
  disconnectInProgress : Bool
  scanInProgress : Bool
  waitScanCompEvt : Bool
  connected : Bool
  opmode : DevMode
  suspendRet : UInt32
deriving Repr, DecidableEq

/-- The commands of the application thread. -/
inductive Command where
  | on | off | suspend | resume | addDevice | startScan | getScanResults | connect | disconnect
  | setOpMode | getStatistics | getRegulatory | setRate | getRate | sendRaw | setMgmtFilter
  | getTxPower | getWifiStatus | sapCsa
  | setParam (paramId : UInt8)
deriving Repr, DecidableEq

/-- A `WMI_JOIN_EVT`: whether its `bssid` is the device's own address, and its status. -/
structure JoinEvt where
  ownBssid : Bool
  statusOk : Bool
deriving Repr, DecidableEq

/-- What `wmi_cmd_result` is called with, by event id.  `response` is a result with the
event id 0, and `other` an id whose handler neither signals nor changes the context. -/
inductive Event where
  | wifiEn | wifiDis
  | netifAdd (statusOk : Bool)
  | wifiSetMode (ret : Int8)
  | scanStart | scanComp | scanResult
  | join (evt : JoinEvt)
  | disconnect
  | setParam (paramId : UInt8) (statusOk : Bool)
  | reportStatistics (statusOk : Bool)
  | regulatory (numRules : Nat)
  | setRate (ret : Int32)
  | getRate
  | sendRawFrame (ret : Int32)
  | getTxPower | mgmtFrameFilter | reportWifiStatus
  | wlanSuspend (msg : UInt32)
  | wlanResume
  | wlanSapCsa (msg : UInt8)
  | response (returnOk : Bool)
  | other
deriving Repr, DecidableEq

/-- Where the application's last command is: its function was called, it sent its request
and will wait for its signal, or it was woken. -/
inductive Stage where
  | idle
  | begun (command : Command)
  | pending (command : Command)
  | woken (command : Command)
deriving Repr, DecidableEq

/-- The history of the pending command: whether an event that answers it was dispatched,
whether the event in hand is such a one, and whether one was handled to its end.  The results
of a scan have no request: there it counts that the handler ended the scan. -/
structure Track where
  stage : Stage
  answered : Bool
  answering : Bool
  scanEnded : Bool
  scanEnding : Bool
  served : Bool
deriving Repr, DecidableEq

namespace Track

def idle : Track := ⟨.idle, false, false, false, false, false⟩

/-- A command begins to wait. -/
def await (command : Command) (track : Track) : Track :=
  { track with stage := .pending command, answered := false, answering := false, served := false }

/-- The results of the scan begin to be waited for. -/
def awaitScan (track : Track) : Track :=
  { track.await .getScanResults with scanEnded := false, scanEnding := false }

def wake (track : Track) : Track :=
  match track.stage with
  | .pending command => { track with stage := .woken command }
  | _ => track

/-- An event that answers `command` was dispatched since it began to wait. -/
def answeredFor (command : Command) (track : Track) : Bool :=
  if command = .getScanResults then track.scanEnded else track.answered

/-- The event dispatched last is such a one. -/
def answeringFor (command : Command) (track : Track) : Bool :=
  if command = .getScanResults then track.scanEnding else track.answering

end Track

/-- The context, the word `wlan_cmd_done`, and the track. -/
structure Shared where
  cxt : Cxt
  sig : Sig → Bool
  track : Track

/-- What is said of a step: a command begins to wait, or the handler of a set-parameter event
makes its comparison. -/
inductive Label where
  | plain
  | begins (command : Command)
  | compare (paramId : UInt8)

abbrev Prog := Code Label Shared Status

/-- A handler is through. -/
def done : Prog := .ret qapiOk

/-- An assignment to the context. -/
def update (change : Cxt → Cxt) (rest : Prog) : Prog :=
  .act .plain (fun _ => true) (fun shared => { shared with cxt := change shared.cxt })
    (fun _ => rest)

/-- A test of the context. -/
def branch (test : Cxt → Bool) (yes no : Prog) : Prog :=
  .act .plain (fun _ => true) id (fun shared => if test shared.cxt then yes else no)

/-- `get_wlan_qapi_error`. -/
def getWlanQapiError (rest : Status → Prog) : Prog :=
  .act .plain (fun _ => true) id (fun shared => rest shared.cxt.wlanQapiError)

/-- `qurt_signal_set`. -/
def qurtSignalSet (bit : Sig) (rest : Prog) : Prog :=
  .act .plain (fun _ => true)
    (fun shared => { shared with sig := Function.update shared.sig bit true }) (fun _ => rest)

/-- `qurt_signal_wait` with `QURT_SIGNAL_ATTR_CLEAR_MASK`: it waits for some bit of the mask
and clears those it has received. -/
def qurtSignalWait (mask : List Sig) (rest : Prog) : Prog :=
  .act .plain (fun shared => mask.any shared.sig)
    (fun shared => { shared with track := shared.track.wake })
    (fun received =>
      .act .plain (fun _ => true)
        (fun shared =>
          { shared with sig := fun bit => shared.sig bit &&
              !(mask.contains bit && received.sig bit) })
        (fun _ => rest))

/-! ## The commands -/

section Commands

variable (flags : Flags)

/-- The command waits for its signal under these flags.  The results of a scan are waited for
under no flag. -/
def Command.blocks : Command → Bool
  | .on => flags.wlanEnableBlockMode
  | .off => flags.wlanDisableBlockMode
  | .suspend => flags.wlanSuspendBlockMode
  | .resume => flags.wlanResumeBlockMode
  | .addDevice => flags.wlanIfAddBlockMode
  | .startScan => flags.wlanScanStartBlockMode
  | .getScanResults => false
  | .connect => flags.wlanConnectBlockMode
  | .disconnect => flags.wlanDisconnectBlockMode
  | .setOpMode => flags.wlanIfAddBlockMode
  | .getStatistics => flags.wlanGetStatBlockMode
  | .getRegulatory => flags.wlanGetRegulatoryBlockMode
  | .setRate => flags.wlanSetRateBlockMode
  | .getRate => flags.wlanSetRateBlockMode
  | .sendRaw => flags.wlanSendRawBlockMode
  | .setMgmtFilter => flags.wlanSetMgmtFilterBlockMode
  | .getTxPower => flags.wlanGetTxPowerBlockMode
  | .getWifiStatus => flags.wlanGetStatBlockMode
  | .sapCsa => flags.wlanSapCsaBlockMode
  | .setParam _ => flags.wlanSetParamBlockMode

/-- `wmi_cmd_send` and `wmi_dev_cmd_send`: the request goes into the pipe. -/
def wmiCmdSend (command : Command) (rest : Prog) : Prog :=
  .act (.begins command) (fun _ => true)
    (fun shared =>
      if command.blocks flags then { shared with track := shared.track.await command }
      else shared)
    (fun _ => rest)

/-- A request, and the wait for its signal in block mode. -/
def request (command : Command) (blockMode : Bool) (mask : List Sig) (rest : Prog) : Prog :=
  wmiCmdSend flags command (if blockMode then qurtSignalWait mask rest else rest)

/-- The error word is read under the mutex and returned. -/
def returnErrorLocked : Prog :=
  .lock (getWlanQapiError fun ret => .unlock (.ret ret))

/-- The error word is read without the mutex and returned. -/
def returnError : Prog :=
  getWlanQapiError fun ret => .ret ret

def wmiOn : Prog :=
  request flags .on flags.wlanEnableBlockMode [.enableDone] returnErrorLocked

def wmiOff : Prog :=
  request flags .off flags.wlanDisableBlockMode [.disableDone]
    (.lock (getWlanQapiError fun ret => .unlock
      -- when disable wlan, clear some setting
      (.lock (update (fun cxt => { cxt with opmode := .ap, wlanQapiError := qapiOk })
        (.unlock (.ret ret))))))

def wmiSuspend : Prog :=
  request flags .suspend flags.wlanSuspendBlockMode [.suspend]
    (.lock (.act .plain (fun _ => true) id fun shared =>
      .unlock (.ret shared.cxt.suspendRet.toInt32)))

def wmiResume : Prog :=
  request flags .resume flags.wlanResumeBlockMode [.resume] returnErrorLocked

def wmiAddDevice : Prog :=
  request flags .addDevice flags.wlanIfAddBlockMode [.ifAdded] returnErrorLocked

def wmiStartScan : Prog :=
  .lock (update (fun cxt => { cxt with scanInProgress := true }) (.unlock
    (request flags .startScan flags.wlanScanStartBlockMode [.startedScan] returnErrorLocked)))

/-- The test for a scan in progress and the mark that it is waited for, in one step: both are
made under the mutex. -/
def awaitScanComp (waits leaves : Prog) : Prog :=
  .act (.begins .getScanResults) (fun _ => true)
    (fun shared =>
      if shared.cxt.scanInProgress then
        { shared with
          cxt := { shared.cxt with waitScanCompEvt := true }
          track := shared.track.awaitScan }
      else shared)
    (fun shared => if shared.cxt.scanInProgress then waits else leaves)

def wlanGetScanResults : Prog :=
  .lock (awaitScanComp (.unlock (qurtSignalWait [.scanCompleted] returnErrorLocked))
    (getWlanQapiError fun ret => .unlock (.ret ret)))

def wmiConnect : Prog :=
  .lock (update (fun cxt =>
      { cxt with
        bssConnectionStatus := false
        joinStatus := qapiOk
        connectInProgress := true }) (.unlock
    (request flags .connect flags.wlanConnectBlockMode [.connectCompleted, .disconnected]
      (if flags.wlanConnectBlockMode then returnErrorLocked else .ret qapiOk))))

def wmiDisconnect : Prog :=
  .lock (update (fun cxt => { cxt with disconnectInProgress := true }) (.unlock
    (branch (fun cxt => cxt.opmode == .ap)
      -- the mutex is taken once more to fill in the request
      (.lock (.unlock
        (request flags .disconnect flags.wlanDisconnectBlockMode [.disconnected]
          returnErrorLocked)))
      (request flags .disconnect flags.wlanDisconnectBlockMode [.disconnected]
        returnErrorLocked))))

def wmiSetOpMode : Prog :=
  request flags .setOpMode flags.wlanIfAddBlockMode [.setMode] returnErrorLocked

def wmiWlanGetStatistics : Prog :=
  request flags .getStatistics flags.wlanGetStatBlockMode [.getStat] returnError

def wmiWlanGetRegulatory : Prog :=
  request flags .getRegulatory flags.wlanGetRegulatoryBlockMode [.getReg] returnError

def wmiSetRate : Prog :=
  request flags .setRate flags.wlanSetRateBlockMode [.setRate] returnError

-- the flag is that of `wmi_set_rate`, not `wlan_get_rate_block_mode`
def wmiGetRate : Prog :=
  request flags .getRate flags.wlanSetRateBlockMode [.getRate] returnError

def wmiSendRaw : Prog :=
  request flags .sendRaw flags.wlanSendRawBlockMode [.sendRaw] returnError

def wmiSetMgmtFilter : Prog :=
  request flags .setMgmtFilter flags.wlanSetMgmtFilterBlockMode [.setMgmtFilter] returnError

def wmiGetTxPower : Prog :=
  request flags .getTxPower flags.wlanGetTxPowerBlockMode [.getTxPower] returnError

def wmiGetWifiStatus : Prog :=
  request flags .getWifiStatus flags.wlanGetStatBlockMode [.getStatus] returnError

def wmiWlanSapCsa : Prog :=
  request flags .sapCsa flags.wlanSapCsaBlockMode [.sapCsaStatus]
    (if flags.wlanSapCsaBlockMode then returnErrorLocked else .ret qapiOk)

/-- The functions of wlan_qapi_helper.c that send `WMI_SET_PDEV_PARAM_CMDID`: in block mode
the parameter's id is published behind the request. -/
def wlanSetParam (paramId : UInt8) : Prog :=
  wmiCmdSend flags (.setParam paramId)
    (if flags.wlanSetParamBlockMode then
      update (fun cxt => { cxt with paramId := paramId }) (qurtSignalWait [.setParam] returnError)
    else returnError)

/-- `wlan_set_channel`, with the frequency of the channel. -/
def wlanSetChannel (freq : Option UInt16) : Prog :=
  match freq with
  | none => .ret qapiError
  | some _ => wlanSetParam flags 0

/-- `wlan_set_phy_mode`. -/
def wlanSetPhyMode : Prog := wlanSetParam flags 2

/-- `wlan_set_country_code`. -/
def wlanSetCountryCode (countryCode : Option (List UInt8)) : Prog :=
  match countryCode with
  | none => .ret qapiError
  | some _ => wlanSetParam flags 3

/-- The function of a command. -/
def Command.code : Command → Prog
  | .on => wmiOn flags
  | .off => wmiOff flags
  | .suspend => wmiSuspend flags
  | .resume => wmiResume flags
  | .addDevice => wmiAddDevice flags
  | .startScan => wmiStartScan flags
  | .getScanResults => wlanGetScanResults
  | .connect => wmiConnect flags
  | .disconnect => wmiDisconnect flags
  | .setOpMode => wmiSetOpMode flags
  | .getStatistics => wmiWlanGetStatistics flags
  | .getRegulatory => wmiWlanGetRegulatory flags
  | .setRate => wmiSetRate flags
  | .getRate => wmiGetRate flags
  | .sendRaw => wmiSendRaw flags
  | .setMgmtFilter => wmiSetMgmtFilter flags
  | .getTxPower => wmiGetTxPower flags
  | .getWifiStatus => wmiGetWifiStatus flags
  | .sapCsa => wmiWlanSapCsa flags
  | .setParam paramId => wlanSetParam flags paramId

end Commands

/-! ## The event handlers -/

section Events

variable (flags : Flags)

/-- The signal of a handler, if its flag is set. -/
def signalIf (blockMode : Bool) (bit : Sig) (rest : Prog) : Prog :=
  if blockMode then qurtSignalSet bit rest else rest

/-- A handler that changes the context and signals, all under the mutex. -/
def underMutex (change : Cxt → Cxt) (blockMode : Bool) (bit : Sig) : Prog :=
  .lock (update change (signalIf blockMode bit (.unlock done)))

/-- `set_wlan_qapi_error`. -/
def setWlanQapiError (status : Status) (cxt : Cxt) : Cxt := { cxt with wlanQapiError := status }

def wmiEnabledEvent : Prog :=
  underMutex (fun cxt => { cxt with wlanEnabled := true, wlanQapiError := qapiOk })
    flags.wlanEnableBlockMode .enableDone

def wmiDisabledEvent : Prog :=
  underMutex (fun cxt => { cxt with wlanEnabled := false, wlanQapiError := qapiOk })
    flags.wlanDisableBlockMode .disableDone

def wmiIfAddedEvent (statusOk : Bool) : Prog :=
  .lock (update (setWlanQapiError (if statusOk then qapiOk else qapiWlanErrEinval)) (.unlock
    (signalIf flags.wlanIfAddBlockMode .ifAdded done)))

def wmiSetModeEvent (ret : Int8) : Prog :=
  .lock (update (setWlanQapiError (if ret = 1 then qapiOk else qapiError)) (.unlock
    (signalIf flags.wlanIfAddBlockMode .setMode done)))

def wmiScanStartedEvent : Prog :=
  signalIf flags.wlanScanStartBlockMode .startedScan done

/-- `wmi_scan_comp_event` where it has found the scan in progress: it ends the scan and, if
its results are waited for, signals without the mutex. -/
def endScan : Prog :=
  .act .plain (fun _ => true)
    (fun shared =>
      { shared with
        cxt := { shared.cxt with
          scanInProgress := false
          wlanQapiError := qapiOk
          waitScanCompEvt := false }
        track := { shared.track with scanEnded := true, scanEnding := true } })
    fun shared =>
      if shared.cxt.waitScanCompEvt then
        .unlock (qurtSignalSet .scanCompleted (.lock (.unlock done)))
      else .unlock done

def wmiScanCompEvent : Prog :=
  .lock (branch (fun cxt => cxt.scanInProgress) endScan (.unlock done))

def wmiScanResultEvent : Prog :=
  .lock (.unlock done)

/-- `_wlan_fill_join_event`: another device's address, in AP mode, is no connection of the
device's own. -/
def fillJoinEvent (evt : JoinEvt) (cxt : Cxt) : Cxt :=
  let status := if evt.statusOk then qapiOk else qapiWlanErrEproto
  { cxt with
    bssConnectionStatus := !(cxt.opmode == .ap && !evt.ownBssid)
    joinStatus := status
    wlanQapiError := status }

/-- `wmi_join_comp_event` where it tests for a disconnect in progress. -/
def joinDisconnect : Prog :=
  branch (fun cxt => cxt.disconnectInProgress)
    (let rest := update (fun cxt => { cxt with disconnectInProgress := false }) (.unlock done)
     if flags.wlanDisconnectBlockMode then
       .unlock (qurtSignalSet .disconnected (.lock rest))
     else rest)
    (.unlock done)

/-- `wmi_join_comp_event` where it tests for a connect in progress. -/
def joinConnect : Prog :=
  branch (fun cxt => cxt.connectInProgress)
    (let rest := update (fun cxt => { cxt with connectInProgress := false })
       (joinDisconnect flags)
     if flags.wlanConnectBlockMode then
       .unlock (branch (fun cxt => cxt.connected)
         (qurtSignalSet .connectCompleted (.lock rest))
         (qurtSignalSet .disconnected (.lock rest)))
     else rest)
    (joinDisconnect flags)

def wmiJoinCompEvent (evt : JoinEvt) : Prog :=
  .lock (update (fillJoinEvent evt)
    (branch (fun cxt => cxt.bssConnectionStatus)
      (update (fun cxt => { cxt with connected := cxt.joinStatus == qapiOk })
        (joinConnect flags))
      (.unlock done)))

def wmiDisconnectEvent : Prog :=
  .lock (update (fun cxt => { cxt with joinStatus := qapiWlanErrEproto, connected := false })
    (branch (fun cxt => cxt.disconnectInProgress)
      (signalIf flags.wlanDisconnectBlockMode .disconnected
        (update (fun cxt => { cxt with disconnectInProgress := false }) (.unlock done)))
      (.unlock done)))

/-- The loop of `wmi_set_param_event`: up to so many tests, with a sleep behind each, for the
published id to be that of the event. -/
def awaitParamId (paramId : UInt8) (rest : Prog) : Nat → Prog
  | 0 => rest
  | polls + 1 => branch (fun cxt => cxt.paramId == paramId) rest (awaitParamId paramId rest polls)

/-- The comparison of `wmi_set_param_event`. -/
def compareParamId (paramId : UInt8) (statusOk : Bool) : Prog :=
  .act (.compare paramId) (fun _ => true) id fun shared =>
    if shared.cxt.paramId == paramId && flags.wlanSetParamBlockMode then
      update (setWlanQapiError (if statusOk then qapiOk else qapiError))
        (qurtSignalSet .setParam (.unlock done))
    else .unlock done

/-- The mutex is held through the loop and its sleeps. -/
def wmiSetParamEvent (paramId : UInt8) (statusOk : Bool) : Prog :=
  .lock (if flags.wlanSetParamBlockMode then
    awaitParamId paramId (compareParamId flags paramId statusOk) 100
  else compareParamId flags paramId statusOk)

def wmiReportStatEvent (statusOk : Bool) : Prog :=
  underMutex (setWlanQapiError (if statusOk then qapiOk else qapiError))
    flags.wlanGetStatBlockMode .getStat

def wmiRegulatoryEvent (numRules : Nat) : Prog :=
  underMutex (setWlanQapiError (if numRules > qapiMaxRegRules then qapiError else qapiOk))
    flags.wlanGetRegulatoryBlockMode .getReg

-- the flag is that of `wmi_off`
def wmiSetRateEvent (ret : Int32) : Prog :=
  underMutex (setWlanQapiError (if ret = 1 then qapiOk else qapiError))
    flags.wlanDisableBlockMode .setRate

def wmiGetRateEvent : Prog :=
  underMutex id flags.wlanDisableBlockMode .getRate

def wmiSendRawEvent (ret : Int32) : Prog :=
  underMutex (setWlanQapiError (if ret = 1 then qapiOk else qapiError))
    flags.wlanDisableBlockMode .sendRaw

def wmiGetTxPowerEvent : Prog :=
  underMutex (setWlanQapiError qapiOk) flags.wlanGetTxPowerBlockMode .getTxPower

def wmiSetMgmtFilterEvent : Prog :=
  underMutex id flags.wlanSetMgmtFilterBlockMode .setMgmtFilter

def wmiReportWifiStatus : Prog :=
  underMutex (setWlanQapiError qapiOk) flags.wlanGetStatBlockMode .getStatus

def wmiWlanSuspendEvent (msg : UInt32) : Prog :=
  update (fun cxt => { cxt with wlanQapiError := msg.toInt32, suspendRet := msg })
    (underMutex id flags.wlanSuspendBlockMode .suspend)

def wmiWlanResumeEvent : Prog :=
  underMutex id flags.wlanResumeBlockMode .resume

def wmiWlanSapCsaEvent (msg : UInt8) : Prog :=
  underMutex (setWlanQapiError (if msg ≠ 0 then qapiError else qapiOk))
    flags.wlanSapCsaBlockMode .sapCsaStatus

/-- `wmi_cmd_result` with `wmi_event_dispatch`. -/
def Event.code : Event → Prog
  | .wifiEn => wmiEnabledEvent flags
  | .wifiDis => wmiDisabledEvent flags
  | .netifAdd statusOk => wmiIfAddedEvent flags statusOk
  | .wifiSetMode ret => wmiSetModeEvent flags ret
  | .scanStart => wmiScanStartedEvent flags
  | .scanComp => wmiScanCompEvent
  | .scanResult => wmiScanResultEvent
  | .join evt => wmiJoinCompEvent flags evt
  | .disconnect => wmiDisconnectEvent flags
  | .setParam paramId statusOk => wmiSetParamEvent flags paramId statusOk
  | .reportStatistics statusOk => wmiReportStatEvent flags statusOk
  | .regulatory numRules => wmiRegulatoryEvent flags numRules
  | .setRate ret => wmiSetRateEvent flags ret
  | .getRate => wmiGetRateEvent flags
  | .sendRawFrame ret => wmiSendRawEvent flags ret
  | .getTxPower => wmiGetTxPowerEvent flags
  | .mgmtFrameFilter => wmiSetMgmtFilterEvent flags
  | .reportWifiStatus => wmiReportWifiStatus flags
  | .wlanSuspend msg => wmiWlanSuspendEvent flags msg
  | .wlanResume => wmiWlanResumeEvent flags
  | .wlanSapCsa msg => wmiWlanSapCsaEvent flags msg
  | .response returnOk => update (setWlanQapiError (if returnOk then qapiOk else qapiError)) done
  | .other => done

end Events

/-! ## Runs -/

/-- The event answers a command whose request was sent before it was dispatched: it reports
that what was asked for is done, or has failed.  A join of the device's own answers a connect,
and a disconnect if it reports a failure. -/
def Event.answers (cxt : Cxt) : Event → Command → Bool
  | .wifiEn, .on => true
  | .wifiDis, .off => true
  | .wlanSuspend _, .suspend => true
  | .wlanResume, .resume => true
  | .netifAdd _, .addDevice => true
  | .scanStart, .startScan => true
  | .join evt, .connect => !(cxt.opmode == .ap && !evt.ownBssid)
  | .join evt, .disconnect => !(cxt.opmode == .ap && !evt.ownBssid) && !evt.statusOk
  | .disconnect, .disconnect => true
  | .wifiSetMode _, .setOpMode => true
  | .reportStatistics _, .getStatistics => true
  | .regulatory _, .getRegulatory => true
  | .setRate _, .setRate => true
  | .getRate, .getRate => true
  | .sendRawFrame _, .sendRaw => true
  | .mgmtFrameFilter, .setMgmtFilter => true
  | .getTxPower, .getTxPower => true
  | .reportWifiStatus, .getWifiStatus => true
  | .wlanSapCsa _, .sapCsa => true
  | .setParam paramId _, .setParam pending => paramId == pending
  | _, _ => false

/-- The application, and the thread that dispatches the events. -/
inductive Thread where
  | app | wmi
deriving Repr, DecidableEq

abbrev Sys := System Thread Label Shared Status

/-- The application calls a command or goes on in it; an event is dispatched, or its handler
goes on. -/
inductive Action where
  | call (command : Command)
  | app
  | dispatch (event : Event)
  | wmi
deriving Repr, DecidableEq

/-- An event is dispatched: the one before it is through. -/
def Track.dispatch (track : Track) (answers : Command → Bool) : Track :=
  match track.stage with
  | .pending command =>
      { track with
        served := track.served || track.answeringFor command
        answered := track.answered || answers command
        answering := answers command
        scanEnding := false }
  | _ => track

/-- One step: a thread is given a program when it has returned from the last. -/
def step (flags : Flags) (sys : Sys) : Action → Option Sys
  | .call command =>
      match sys.code .app with
      | .ret _ =>
          some { sys.start .app (command.code flags) with
            shared := { sys.shared with
              track := { sys.shared.track with stage := .begun command } } }
      | _ => none
  | .app => sys.advance .app
  | .dispatch event =>
      match sys.code .wmi with
      | .ret _ =>
          some { sys.start .wmi (event.code flags) with
            shared := { sys.shared with
              track := sys.shared.track.dispatch (event.answers sys.shared.cxt) } }
      | _ => none
  | .wmi => sys.advance .wmi

/-- Both threads are at rest and no bit is set. -/
def Sys.init (cxt : Cxt) : Sys where
  shared := ⟨cxt, fun _ => false, Track.idle⟩
  owner := none
  code := fun _ => done

end QHal.WmiCommands
