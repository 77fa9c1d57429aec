/-
Module: QHal.Proofs.WmiCommands
Purpose: What is asked of a run of the Wi-Fi commands, and what their programs and those of
  the handlers do wherever they are: a command waits only behind its request and for its own
  bits, and a handler neither clears a bit nor, but for two, looks at what a command marks.
Trusted boundary: none
Main exports: Command.mask, Sound, Admits, Follows, follows_code, balanced_command,
  balanced_event, Handles, handles_event, Handles.advance
-/
import QHal.Wlan.WmiCommands
import QHal.Lib.Runs

namespace QHal.WmiCommands

open Threads

/-! ## What is asked of a run -/

/-- The bits the command waits for. -/
def Command.mask : Command → List Sig
  | .on => [.enableDone]
  | .off => [.disableDone]
  | .suspend => [.suspend]
  | .resume => [.resume]
  | .addDevice => [.ifAdded]
  | .startScan => [.startedScan]
  | .getScanResults => [.scanCompleted]
  | .connect => [.connectCompleted, .disconnected]
  | .disconnect => [.disconnected]
  | .setOpMode => [.setMode]
  | .getStatistics => [.getStat]
  | .getRegulatory => [.getReg]
  | .setRate => [.setRate]
  | .getRate => [.getRate]
  | .sendRaw => [.sendRaw]
  | .setMgmtFilter => [.setMgmtFilter]
  | .getTxPower => [.getTxPower]
  | .getWifiStatus => [.getStatus]
  | .sapCsa => [.sapCsaStatus]
  | .setParam _ => [.setParam]

/-- Some bit the command waits for is set. -/
def Signalled (command : Command) (shared : Shared) : Prop :=
  ∃ bit ∈ command.mask, shared.sig bit = true

instance (command : Command) (shared : Shared) : Decidable (Signalled command shared) :=
  inferInstanceAs (Decidable (∃ bit ∈ command.mask, shared.sig bit = true))

/-- An event that answers the pending command was dispatched, and its handler is through. -/
def Served (command : Command) (sys : Sys) : Prop :=
  sys.shared.track.served = true ∨
    sys.shared.track.answeringFor command = true ∧ ∃ value, sys.code .wmi = .ret value

/-- The command was allowed to return: it does not block, or it was woken behind the dispatch
of an event that answers it. -/
def MayReturn (flags : Flags) (track : Track) : Prop :=
  match track.stage with
  | .idle => True
  | .begun command => command.blocks flags = false
  | .pending _ => False
  | .woken command => track.answeredFor command = true

/-- No wake-up is lost, none is stale, and a command returns without the mutex. -/
structure Sound (flags : Flags) (sys : Sys) : Prop where
  not_lost : ∀ command, sys.shared.track.stage = .pending command → Served command sys →
    Signalled command sys.shared
  not_stale : ∀ value, sys.code .app = .ret value → MayReturn flags sys.shared.track
  released : ∀ value, sys.code .app = .ret value → sys.owner ≠ some .app

/-- The mark of the command that the handlers test still stands. -/
def Command.stands (cxt : Cxt) : Command → Bool
  | .connect => cxt.connectInProgress
  | .disconnect => cxt.disconnectInProgress
  | .getScanResults => cxt.scanInProgress && cxt.waitScanCompEvt
  | _ => true

/-- The handler of the command's event tests a flag that is set. -/
def Command.agrees (flags : Flags) : Command → Bool
  | .setRate | .getRate | .sendRaw => flags.wlanDisableBlockMode
  | _ => true

/-- The step at which the command begins to wait is not met by what earlier events have left:
once the handler in hand is through, no bit it waits for is set, and its mark stands. -/
def Begins (flags : Flags) (sys : Sys) (command : Command) : Prop :=
  let left := (sys.code .wmi).solo sys.shared
  ¬ Signalled command left ∧ command.agrees flags = true ∧
    (command ≠ .getScanResults → command.stands left.cxt = true)

/-- The event signals the end of a disconnect in progress. -/
def Event.endsDisconnect (flags : Flags) (cxt : Cxt) : Event → Bool
  | .join evt =>
      !(cxt.opmode == .ap && !evt.ownBssid) && cxt.disconnectInProgress &&
        flags.wlanDisconnectBlockMode
  | .disconnect => cxt.disconnectInProgress && flags.wlanDisconnectBlockMode
  | _ => false

/-- The application does not begin to wait where it is hindered. -/
def AdmitsApp (flags : Flags) (sys : Sys) : Prog → Prop
  | .act (.begins command) _ _ _ =>
      command.blocks flags = true ∨
        command = .getScanResults ∧ sys.shared.cxt.scanInProgress = true →
      Begins flags sys command
  | _ => True

/-- The event does not end a disconnect for a command that it does not answer. -/
def AdmitsEvent (flags : Flags) (cxt : Cxt) (event : Event) : Stage → Prop
  | .pending command =>
      event.endsDisconnect flags cxt = true → Sig.disconnected ∈ command.mask →
        event.answers cxt command = true
  | _ => True

/-- A set-parameter command is pending. -/
def Stage.setsParam : Stage → Bool
  | .pending (.setParam _) => true
  | _ => false

/-- The comparison of a set-parameter event holds just if the event answers the pending
set-parameter command. -/
def AdmitsWmi (shared : Shared) : Prog → Prop
  | .act (.compare paramId) _ _ _ =>
      shared.track.stage.setsParam = true →
        (shared.cxt.paramId = paramId ↔ shared.track.answering = true)
  | _ => True

/-- What is asked of a step, in the state before it. -/
def Admits (flags : Flags) (sys : Sys) : Action → Prop
  | .call _ => True
  | .app => AdmitsApp flags sys (sys.code .app)
  | .dispatch event => AdmitsEvent flags sys.shared.cxt event sys.shared.track.stage
  | .wmi => AdmitsWmi sys.shared (sys.code .wmi)

/-! ## The programs of the commands -/

section Commands

variable {flags : Flags}

/-- The program goes on as a command at this stage does: it waits just if it has sent its
request in block mode, and then for its own bits, and publishes nothing but its own
parameter's id before. -/
inductive Follows (flags : Flags) : Stage → Prog → Prop where
  | ret {stage value} (waiting : ∀ command, stage ≠ .pending command)
      (blocks : ∀ command, stage = .begun command → command.blocks flags = false) :
      Follows flags stage (.ret value)
  | lock {stage rest} (follows : Follows flags stage rest) : Follows flags stage (.lock rest)
  | unlock {stage rest} (follows : Follows flags stage rest) :
      Follows flags stage (.unlock rest)
  | plain {stage guard effect next} (waiting : ∀ command, stage ≠ .pending command)
      (silent : ∀ shared, (effect shared).track = shared.track)
      (follows : ∀ shared, Follows flags stage (next shared)) :
      Follows flags stage (.act .plain guard effect next)
  | send {command rest} (blocks : command.blocks flags = true)
      (follows : Follows flags (.pending command) rest) :
      Follows flags (.begun command) (wmiCmdSend flags command rest)
  | sendOnly {command rest} (blocks : command.blocks flags = false)
      (follows : Follows flags (.begun command) rest) :
      Follows flags (.begun command) (wmiCmdSend flags command rest)
  | results {waits leaves} (waiting : Follows flags (.pending .getScanResults) waits)
      (leaving : Follows flags (.begun .getScanResults) leaves) :
      Follows flags (.begun .getScanResults) (awaitScanComp waits leaves)
  | publish {paramId rest} (follows : Follows flags (.pending (.setParam paramId)) rest) :
      Follows flags (.pending (.setParam paramId))
        (update (fun cxt => { cxt with paramId := paramId }) rest)
  | wait {command rest} (follows : Follows flags (.woken command) rest) :
      Follows flags (.pending command) (qurtSignalWait command.mask rest)

/-- Behind the wait the error word is read and returned. -/
theorem follows_returnError {stage : Stage} (waiting : ∀ command, stage ≠ .pending command)
    (blocks : ∀ command, stage = .begun command → command.blocks flags = false) :
    Follows flags stage returnError :=
  .plain waiting (fun _ => rfl) fun _ => .ret waiting blocks

theorem follows_returnErrorLocked {stage : Stage} (waiting : ∀ command, stage ≠ .pending command)
    (blocks : ∀ command, stage = .begun command → command.blocks flags = false) :
    Follows flags stage returnErrorLocked :=
  .lock (.plain waiting (fun _ => rfl) fun _ => .unlock (.ret waiting blocks))

/-- A request in block mode is waited for, and another is not. -/
theorem follows_request {command : Command} {blockMode : Bool} {mask : List Sig} {rest : Prog}
    (flag : command.blocks flags = blockMode) (bits : command.mask = mask)
    (follows : ∀ stage, (∀ command, stage ≠ Stage.pending command) →
      (∀ command, stage = .begun command → command.blocks flags = false) →
      Follows flags stage rest) :
    Follows flags (.begun command) (request flags command blockMode mask rest) := by
  subst bits
  rw [request]
  cases blockMode with
  | false =>
      refine .sendOnly flag (follows _ (by simp) ?_)
      rintro _ ⟨rfl⟩
      exact flag
  | true => exact .send flag (.wait (follows _ (by simp) (by simp)))

/-- Every command follows its stages. -/
theorem follows_code (command : Command) :
    Follows flags (.begun command) (command.code flags) := by
  cases command with
  | on => exact follows_request rfl rfl fun _ => follows_returnErrorLocked
  | off =>
      refine follows_request rfl rfl fun stage waiting blocks => ?_
      refine .lock (.plain waiting (fun _ => rfl) fun _ => .unlock (.lock ?_))
      exact .plain waiting (fun _ => rfl) fun _ => .unlock (.ret waiting blocks)
  | suspend =>
      refine follows_request rfl rfl fun stage waiting blocks => ?_
      exact .lock (.plain waiting (fun _ => rfl) fun _ => .unlock (.ret waiting blocks))
  | resume => exact follows_request rfl rfl fun _ => follows_returnErrorLocked
  | addDevice => exact follows_request rfl rfl fun _ => follows_returnErrorLocked
  | startScan =>
      refine .lock (.plain (by simp) (fun _ => rfl) fun _ => .unlock ?_)
      exact follows_request rfl rfl fun _ => follows_returnErrorLocked
  | getScanResults =>
      refine .lock (.results (.unlock (.wait (follows_returnErrorLocked (by simp) (by simp)))) ?_)
      refine .plain (by simp) (fun _ => rfl) fun _ => .unlock (.ret (by simp) ?_)
      rintro _ ⟨rfl⟩
      rfl
  | connect =>
      refine .lock (.plain (by simp) (fun _ => rfl) fun _ => .unlock ?_)
      refine follows_request rfl rfl fun stage waiting blocks => ?_
      cases flags.wlanConnectBlockMode with
      | false => exact .ret waiting blocks
      | true => exact follows_returnErrorLocked waiting blocks
  | disconnect =>
      have rest : Follows flags (.begun .disconnect)
          (request flags .disconnect flags.wlanDisconnectBlockMode [.disconnected]
            returnErrorLocked) :=
        follows_request rfl rfl fun _ => follows_returnErrorLocked
      refine .lock (.plain (by simp) (fun _ => rfl) fun _ => .unlock ?_)
      refine .plain (by simp) (fun _ => rfl) fun shared => ?_
      dsimp only
      split
      · exact .lock (.unlock rest)
      · exact rest
  | setOpMode => exact follows_request rfl rfl fun _ => follows_returnErrorLocked
  | getStatistics => exact follows_request rfl rfl fun _ => follows_returnError
  | getRegulatory => exact follows_request rfl rfl fun _ => follows_returnError
  | setRate => exact follows_request rfl rfl fun _ => follows_returnError
  | getRate => exact follows_request rfl rfl fun _ => follows_returnError
  | sendRaw => exact follows_request rfl rfl fun _ => follows_returnError
  | setMgmtFilter => exact follows_request rfl rfl fun _ => follows_returnError
  | getTxPower => exact follows_request rfl rfl fun _ => follows_returnError
  | getWifiStatus => exact follows_request rfl rfl fun _ => follows_returnError
  | sapCsa =>
      refine follows_request rfl rfl fun stage waiting blocks => ?_
      cases flags.wlanSapCsaBlockMode with
      | false => exact .ret waiting blocks
      | true => exact follows_returnErrorLocked waiting blocks
  | setParam paramId =>
      rw [Command.code, wlanSetParam]
      cases flag : flags.wlanSetParamBlockMode with
      | false =>
          refine .sendOnly flag (follows_returnError (by simp) ?_)
          rintro _ ⟨rfl⟩
          exact flag
      | true =>
          exact .send flag (.publish (.wait (follows_returnError (by simp) (by simp))))

theorem balanced_request (command : Command) (blockMode : Bool) (mask : List Sig) {rest : Prog}
    (balanced : rest.Balanced false) :
    (request flags command blockMode mask rest).Balanced false := by
  cases blockMode with
  | false => exact fun _ => balanced
  | true => exact fun _ _ _ => balanced

theorem balanced_returnErrorLocked : returnErrorLocked.Balanced false :=
  ⟨rfl, fun _ => ⟨rfl, rfl⟩⟩

theorem balanced_returnError : returnError.Balanced false :=
  fun _ => rfl

/-- Every command locks and unlocks in turn. -/
theorem balanced_command (command : Command) : (command.code flags).Balanced false := by
  have locked := balanced_returnErrorLocked
  have unlocked := balanced_returnError
  cases command with
  | on => exact balanced_request _ _ _ locked
  | off =>
      exact balanced_request _ _ _ ⟨rfl, fun _ => ⟨rfl, rfl, fun _ => ⟨rfl, rfl⟩⟩⟩
  | suspend => exact balanced_request _ _ _ ⟨rfl, fun _ => ⟨rfl, rfl⟩⟩
  | resume => exact balanced_request _ _ _ locked
  | addDevice => exact balanced_request _ _ _ locked
  | startScan => exact ⟨rfl, fun _ => ⟨rfl, balanced_request _ _ _ locked⟩⟩
  | getScanResults =>
      refine ⟨rfl, fun shared => ?_⟩
      dsimp only
      split
      · exact ⟨rfl, fun _ _ => locked⟩
      · exact fun _ => ⟨rfl, rfl⟩
  | connect =>
      refine ⟨rfl, fun _ => ⟨rfl, balanced_request _ _ _ ?_⟩⟩
      cases flags.wlanConnectBlockMode with
      | false => rfl
      | true => exact locked
  | disconnect =>
      refine ⟨rfl, fun _ => ⟨rfl, fun shared => ?_⟩⟩
      dsimp only
      split
      · exact ⟨rfl, rfl, balanced_request _ _ _ locked⟩
      · exact balanced_request _ _ _ locked
  | setOpMode => exact balanced_request _ _ _ locked
  | getStatistics => exact balanced_request _ _ _ unlocked
  | getRegulatory => exact balanced_request _ _ _ unlocked
  | setRate => exact balanced_request _ _ _ unlocked
  | getRate => exact balanced_request _ _ _ unlocked
  | sendRaw => exact balanced_request _ _ _ unlocked
  | setMgmtFilter => exact balanced_request _ _ _ unlocked
  | getTxPower => exact balanced_request _ _ _ unlocked
  | getWifiStatus => exact balanced_request _ _ _ unlocked
  | sapCsa =>
      refine balanced_request _ _ _ ?_
      cases flags.wlanSapCsaBlockMode with
      | false => rfl
      | true => exact locked
  | setParam paramId =>
      rw [Command.code, wlanSetParam]
      cases flags.wlanSetParamBlockMode with
      | false => exact fun _ => unlocked
      | true => exact fun _ _ _ _ => unlocked

end Commands

/-! ## The programs of the handlers -/

section Events

variable {flags : Flags}

theorem balanced_signalIf {held : Bool} {rest : Prog} (blockMode : Bool) (bit : Sig)
    (balanced : rest.Balanced held) : (signalIf blockMode bit rest).Balanced held := by
  cases blockMode with
  | false => exact balanced
  | true => exact fun _ => balanced

theorem balanced_branch {held : Bool} {yes no : Prog} (test : Cxt → Bool)
    (left : yes.Balanced held) (right : no.Balanced held) :
    (branch test yes no).Balanced held := by
  intro shared
  dsimp only
  split
  · exact left
  · exact right

theorem balanced_underMutex (change : Cxt → Cxt) (blockMode : Bool) (bit : Sig) :
    (underMutex change blockMode bit).Balanced false :=
  ⟨rfl, fun _ => balanced_signalIf blockMode bit ⟨rfl, rfl⟩⟩

theorem balanced_awaitParamId {held : Bool} {rest : Prog} (paramId : UInt8)
    (balanced : rest.Balanced held) (polls : Nat) :
    (awaitParamId paramId rest polls).Balanced held := by
  induction polls with
  | zero => exact balanced
  | succ polls ih => exact balanced_branch _ balanced ih

theorem balanced_compareParamId (paramId : UInt8) (statusOk : Bool) :
    (compareParamId flags paramId statusOk).Balanced true := by
  intro shared
  dsimp only
  split
  · exact fun _ _ => ⟨rfl, rfl⟩
  · exact ⟨rfl, rfl⟩

theorem balanced_endScan : endScan.Balanced true := by
  intro shared
  dsimp only
  split
  · exact ⟨rfl, fun _ => ⟨rfl, rfl, rfl⟩⟩
  · exact ⟨rfl, rfl⟩

theorem balanced_joinDisconnect : (joinDisconnect flags).Balanced true := by
  refine balanced_branch _ ?_ ⟨rfl, rfl⟩
  dsimp only
  split
  · exact ⟨rfl, fun _ => ⟨rfl, fun _ => ⟨rfl, rfl⟩⟩⟩
  · exact fun _ => ⟨rfl, rfl⟩

theorem balanced_joinConnect : (joinConnect flags).Balanced true := by
  refine balanced_branch _ ?_ balanced_joinDisconnect
  dsimp only
  split
  · refine ⟨rfl, balanced_branch _ ?_ ?_⟩
    · exact fun _ => ⟨rfl, fun _ => balanced_joinDisconnect⟩
    · exact fun _ => ⟨rfl, fun _ => balanced_joinDisconnect⟩
  · exact fun _ => balanced_joinDisconnect

/-- Every handler locks and unlocks in turn. -/
theorem balanced_event (event : Event) : (event.code flags).Balanced false := by
  cases event with
  | netifAdd => exact ⟨rfl, fun _ => ⟨rfl, balanced_signalIf _ _ rfl⟩⟩
  | wifiSetMode => exact ⟨rfl, fun _ => ⟨rfl, balanced_signalIf _ _ rfl⟩⟩
  | scanStart => exact balanced_signalIf _ _ rfl
  | scanComp => exact ⟨rfl, balanced_branch _ balanced_endScan ⟨rfl, rfl⟩⟩
  | scanResult => exact ⟨rfl, rfl, rfl⟩
  | join =>
      exact ⟨rfl, fun _ => balanced_branch _ (fun _ => balanced_joinConnect) ⟨rfl, rfl⟩⟩
  | disconnect =>
      refine ⟨rfl, fun _ => balanced_branch _ ?_ ⟨rfl, rfl⟩⟩
      exact balanced_signalIf _ _ fun _ => ⟨rfl, rfl⟩
  | setParam paramId statusOk =>
      refine ⟨rfl, ?_⟩
      split
      · exact balanced_awaitParamId paramId (balanced_compareParamId paramId statusOk) 100
      · exact balanced_compareParamId paramId statusOk
  | wlanSuspend => exact fun _ => balanced_underMutex _ _ _
  | response => exact fun _ => rfl
  | other => rfl
  | wifiEn | wifiDis | reportStatistics | regulatory | setRate | getRate | sendRawFrame
  | getTxPower | mgmtFrameFilter | reportWifiStatus | wlanResume | wlanSapCsa =>
      exact balanced_underMutex _ _ _

/-- The fields that only the handlers of the scan's end and of a set-parameter event look at
are given other values. -/
def Cxt.disturb (cxt : Cxt) (scan wait : Bool) (paramId : UInt8) : Cxt :=
  { cxt with scanInProgress := scan, waitScanCompEvt := wait, paramId := paramId }

/-- The programs of the other handlers. -/
inductive Built : Prog → Prop where
  | ret {value} : Built (.ret value)
  | lock {rest} (built : Built rest) : Built (.lock rest)
  | unlock {rest} (built : Built rest) : Built (.unlock rest)
  | update {change rest}
      (blind : ∀ cxt scan wait paramId,
        change (Cxt.disturb cxt scan wait paramId) = (change cxt).disturb scan wait paramId)
      (built : Built rest) : Built (update change rest)
  | branch {test yes no}
      (blind : ∀ cxt scan wait paramId, test (Cxt.disturb cxt scan wait paramId) = test cxt)
      (left : Built yes) (right : Built no) : Built (branch test yes no)
  | signal {bit rest} (built : Built rest) : Built (qurtSignalSet bit rest)

/-- What a handler does not do: clear a bit, or touch what is noted of the commands. -/
structure Grows (before after : Shared) : Prop where
  sig : ∀ bit, before.sig bit = true → after.sig bit = true
  stage : after.track.stage = before.track.stage
  answered : after.track.answered = before.track.answered
  answering : after.track.answering = before.track.answering
  served : after.track.served = before.track.served
  scanEnded : before.track.scanEnded = true → after.track.scanEnded = true

/-- What a handler does not do where it has nothing to do with a scan. -/
structure KeepsScan (before after : Shared) : Prop where
  scanInProgress : after.cxt.scanInProgress = before.cxt.scanInProgress
  waitScanCompEvt : after.cxt.waitScanCompEvt = before.cxt.waitScanCompEvt
  scanEnded : after.track.scanEnded = before.track.scanEnded
  scanEnding : after.track.scanEnding = before.track.scanEnding

theorem Grows.refl (shared : Shared) : Grows shared shared :=
  ⟨fun _ set => set, rfl, rfl, rfl, rfl, id⟩

theorem Grows.trans (first second third : Shared) (one : Grows first second)
    (two : Grows second third) : Grows first third where
  sig bit set := two.sig bit (one.sig bit set)
  stage := two.stage.trans one.stage
  answered := two.answered.trans one.answered
  answering := two.answering.trans one.answering
  served := two.served.trans one.served
  scanEnded ended := two.scanEnded (one.scanEnded ended)

theorem KeepsScan.refl (shared : Shared) : KeepsScan shared shared :=
  ⟨rfl, rfl, rfl, rfl⟩

theorem KeepsScan.trans (first second third : Shared) (one : KeepsScan first second)
    (two : KeepsScan second third) : KeepsScan first third where
  scanInProgress := two.scanInProgress.trans one.scanInProgress
  waitScanCompEvt := two.waitScanCompEvt.trans one.waitScanCompEvt
  scanEnded := two.scanEnded.trans one.scanEnded
  scanEnding := two.scanEnding.trans one.scanEnding

theorem grows_signal (bit : Sig) (shared : Shared) :
    Grows shared { shared with sig := Function.update shared.sig bit true } := by
  refine ⟨fun other set => ?_, rfl, rfl, rfl, rfl, id⟩
  by_cases same : other = bit
  · simp [same]
  · simpa [same] using set

/-- The request of a command goes out. -/
def Shared.await (command : Command) (shared : Shared) : Shared :=
  { shared with track := shared.track.await command }

/-- The results of the scan begin to be waited for. -/
def Shared.awaitScan (shared : Shared) : Shared :=
  { shared with
    cxt := { shared.cxt with waitScanCompEvt := true }
    track := shared.track.awaitScan }

/-- The id of a parameter is published. -/
def Shared.publish (paramId : UInt8) (shared : Shared) : Shared :=
  { shared with cxt := { shared.cxt with paramId := paramId } }

/-- What the application does while a handler runs. -/
inductive Foreign : (Shared → Shared) → Prop where
  | await (command : Command) : Foreign (Shared.await command)
  | awaitScan : Foreign Shared.awaitScan
  | publish (paramId : UInt8) : Foreign (Shared.publish paramId)

theorem Built.grows {code : Prog} (built : Built code) : code.Each Grows := by
  induction built with
  | ret => trivial
  | lock built ih => exact ih
  | unlock built ih => exact ih
  | update blind built ih =>
      exact ⟨fun shared => ⟨fun _ set => set, rfl, rfl, rfl, rfl, id⟩, fun _ => ih⟩
  | branch blind left right ihLeft ihRight =>
      refine ⟨Grows.refl, fun shared => ?_⟩
      dsimp only
      split
      · exact ihLeft
      · exact ihRight
  | signal built ih => exact ⟨grows_signal _, fun _ => ih⟩

/-- A change that is blind to the disturbed fields leaves them. -/
theorem kept_of_blind {change : Cxt → Cxt}
    (blind : ∀ cxt scan wait paramId,
      change (Cxt.disturb cxt scan wait paramId) = (change cxt).disturb scan wait paramId)
    (cxt : Cxt) :
    (change cxt).scanInProgress = cxt.scanInProgress ∧
      (change cxt).waitScanCompEvt = cxt.waitScanCompEvt ∧
      (change cxt).paramId = cxt.paramId := by
  have same := blind cxt cxt.scanInProgress cxt.waitScanCompEvt cxt.paramId
  rw [show cxt.disturb cxt.scanInProgress cxt.waitScanCompEvt cxt.paramId = cxt from rfl] at same
  rw [same]
  exact ⟨rfl, rfl, rfl⟩

theorem blind_wait {change : Cxt → Cxt}
    (blind : ∀ cxt scan wait paramId,
      change (Cxt.disturb cxt scan wait paramId) = (change cxt).disturb scan wait paramId)
    (cxt : Cxt) (wait : Bool) :
    change { cxt with waitScanCompEvt := wait } =
      { change cxt with waitScanCompEvt := wait } := by
  obtain ⟨scan, _, param⟩ := kept_of_blind blind cxt
  calc change { cxt with waitScanCompEvt := wait }
      = (change cxt).disturb cxt.scanInProgress wait cxt.paramId := blind cxt _ wait _
    _ = { change cxt with waitScanCompEvt := wait } := by rw [← scan, ← param]; rfl

theorem blind_param {change : Cxt → Cxt}
    (blind : ∀ cxt scan wait paramId,
      change (Cxt.disturb cxt scan wait paramId) = (change cxt).disturb scan wait paramId)
    (cxt : Cxt) (paramId : UInt8) :
    change { cxt with paramId := paramId } = { change cxt with paramId := paramId } := by
  obtain ⟨scan, wait, _⟩ := kept_of_blind blind cxt
  calc change { cxt with paramId := paramId }
      = (change cxt).disturb cxt.scanInProgress cxt.waitScanCompEvt paramId :=
        blind cxt _ _ paramId
    _ = { change cxt with paramId := paramId } := by rw [← scan, ← wait]; rfl

theorem Built.keepsScan {code : Prog} (built : Built code) : code.Each KeepsScan := by
  induction built with
  | ret => trivial
  | lock built ih => exact ih
  | unlock built ih => exact ih
  | update blind built ih =>
      refine ⟨fun shared => ?_, fun _ => ih⟩
      obtain ⟨scan, wait, _⟩ := kept_of_blind blind shared.cxt
      exact ⟨scan, wait, rfl, rfl⟩
  | branch blind left right ihLeft ihRight =>
      refine ⟨KeepsScan.refl, fun shared => ?_⟩
      dsimp only
      split
      · exact ihLeft
      · exact ihRight
  | signal built ih => exact ⟨fun shared => ⟨rfl, rfl, rfl, rfl⟩, fun _ => ih⟩

theorem Built.commutes {code : Prog} (built : Built code) {change : Shared → Shared}
    (foreign : Foreign change) : code.Commutes change := by
  induction built with
  | ret => trivial
  | lock built ih => exact ih
  | unlock built ih => exact ih
  | update blind built ih =>
      refine ⟨fun shared => ⟨?_, rfl⟩, fun _ => ih⟩
      cases foreign with
      | await command => rfl
      | awaitScan => simp [Shared.awaitScan, blind_wait blind shared.cxt true]
      | publish paramId => simp [Shared.publish, blind_param blind shared.cxt paramId]
  | @branch test yes no blind left right ihLeft ihRight =>
      refine ⟨fun shared => ⟨rfl, ?_⟩, fun shared => ?_⟩
      · have same : test (change shared).cxt = test shared.cxt := by
          cases foreign with
          | await command => rfl
          | awaitScan => exact blind shared.cxt _ true _
          | publish paramId => exact blind shared.cxt _ _ paramId
        dsimp only
        rw [same]
      · dsimp only
        split
        · exact ihLeft
        · exact ihRight
  | signal built ih =>
      refine ⟨fun shared => ⟨?_, rfl⟩, fun _ => ih⟩
      cases foreign <;> rfl

theorem built_signalIf {rest : Prog} (blockMode : Bool) (bit : Sig) (built : Built rest) :
    Built (signalIf blockMode bit rest) := by
  cases blockMode with
  | false => exact built
  | true => exact .signal built

theorem built_underMutex {change : Cxt → Cxt} (blockMode : Bool) (bit : Sig)
    (blind : ∀ cxt scan wait paramId,
      change (Cxt.disturb cxt scan wait paramId) = (change cxt).disturb scan wait paramId) :
    Built (underMutex change blockMode bit) :=
  .lock (.update blind (built_signalIf blockMode bit (.unlock .ret)))

theorem built_joinDisconnect : Built (joinDisconnect flags) := by
  have rest : Built (update (fun cxt => { cxt with disconnectInProgress := false })
      (.unlock done)) := .update (fun _ _ _ _ => rfl) (.unlock .ret)
  refine .branch (fun _ _ _ _ => rfl) ?_ (.unlock .ret)
  dsimp only
  split
  · exact .unlock (.signal (.lock rest))
  · exact rest

theorem built_joinConnect : Built (joinConnect flags) := by
  have rest : Built (update (fun cxt => { cxt with connectInProgress := false })
      (joinDisconnect flags)) := .update (fun _ _ _ _ => rfl) built_joinDisconnect
  refine .branch (fun _ _ _ _ => rfl) ?_ built_joinDisconnect
  dsimp only
  split
  · exact .unlock (.branch (fun _ _ _ _ => rfl) (.signal (.lock rest)) (.signal (.lock rest)))
  · exact rest

/-- Every other handler is such a program. -/
theorem built_event (event : Event) (scan : event ≠ .scanComp)
    (param : ∀ paramId statusOk, event ≠ .setParam paramId statusOk) :
    Built (event.code flags) := by
  cases event with
  | netifAdd | wifiSetMode =>
      exact .lock (.update (fun _ _ _ _ => rfl) (.unlock (built_signalIf _ _ .ret)))
  | scanStart => exact built_signalIf _ _ .ret
  | scanComp => exact absurd rfl scan
  | scanResult => exact .lock (.unlock .ret)
  | join =>
      refine .lock (.update (fun _ _ _ _ => rfl)
        (.branch (fun _ _ _ _ => rfl) ?_ (.unlock .ret)))
      exact .update (fun _ _ _ _ => rfl) built_joinConnect
  | disconnect =>
      have rest : Built (update (fun cxt => { cxt with disconnectInProgress := false })
          (.unlock done)) := .update (fun _ _ _ _ => rfl) (.unlock .ret)
      refine .lock (.update ?_ (.branch ?_ (built_signalIf _ _ rest) (.unlock .ret)))
      · exact fun _ _ _ _ => rfl
      · exact fun _ _ _ _ => rfl
  | setParam paramId statusOk => exact absurd rfl (param paramId statusOk)
  | wlanSuspend =>
      rw [Event.code, wmiWlanSuspendEvent]
      exact .update (fun _ _ _ _ => rfl) (built_underMutex _ _ fun _ _ _ _ => rfl)
  | response => exact .update (fun _ _ _ _ => rfl) .ret
  | other => exact .ret
  | wifiEn | wifiDis | reportStatistics | regulatory | setRate | getRate | sendRawFrame
  | getTxPower | mgmtFrameFilter | reportWifiStatus | wlanResume | wlanSapCsa =>
      exact built_underMutex _ _ fun _ _ _ _ => rfl

/-- The handler of a scan's end before it ends the scan. -/
inductive BeforeScan : Prog → Prop where
  | entry : BeforeScan wmiScanCompEvent
  | test : BeforeScan (branch (fun cxt => cxt.scanInProgress) endScan (.unlock done))
  | ends : BeforeScan endScan

/-- The handler of a set-parameter event before its comparison. -/
inductive BeforeCompare (flags : Flags) (paramId : UInt8) (statusOk : Bool) : Prog → Prop where
  | entry : BeforeCompare flags paramId statusOk (wmiSetParamEvent flags paramId statusOk)
  | poll (polls : Nat) :
      BeforeCompare flags paramId statusOk
        (awaitParamId paramId (compareParamId flags paramId statusOk) polls)

/-- What holds of a handler wherever it is. -/
structure Handles (flags : Flags) (code : Prog) : Prop where
  grows : code.Each Grows
  await : ∀ command, code.Commutes (Shared.await command)
  scan : BeforeScan code ∨ code.Each KeepsScan ∧ code.Commutes Shared.awaitScan
  param : (∃ paramId statusOk, BeforeCompare flags paramId statusOk code) ∨
    ∀ paramId, code.Commutes (Shared.publish paramId)

theorem Built.handles {code : Prog} (built : Built code) : Handles flags code where
  grows := built.grows
  await command := built.commutes (.await command)
  scan := Or.inr ⟨built.keepsScan, built.commutes .awaitScan⟩
  param := Or.inr fun paramId => built.commutes (.publish paramId)

/-- What is left behind the end of a scan. -/
theorem built_scanEnded (shared : Shared) :
    Built (if shared.cxt.waitScanCompEvt then
      .unlock (qurtSignalSet .scanCompleted (.lock (.unlock done)))
    else .unlock done) := by
  split
  · exact .unlock (.signal (.lock (.unlock .ret)))
  · exact .unlock .ret

/-- What is left behind the comparison of a set-parameter event. -/
theorem built_compared (paramId : UInt8) (statusOk : Bool) (shared : Shared) :
    Built (if shared.cxt.paramId == paramId && flags.wlanSetParamBlockMode then
      update (setWlanQapiError (if statusOk then qapiOk else qapiError))
        (qurtSignalSet .setParam (.unlock done))
    else .unlock done) := by
  split
  · exact .update (fun _ _ _ _ => rfl) (.signal (.unlock .ret))
  · exact .unlock .ret

theorem each_scanComp : wmiScanCompEvent.Each Grows := by
  refine ⟨Grows.refl, fun shared => ?_⟩
  dsimp only
  split
  · refine ⟨fun shared => ⟨fun _ set => set, rfl, rfl, rfl, rfl, fun _ => rfl⟩, fun shared => ?_⟩
    exact (built_scanEnded shared).grows
  · trivial

/-- The handler of a scan's end neither looks at what is noted of a request nor at the
published id. -/
theorem commutes_scanComp {change : Shared → Shared}
    (request : (∃ command, change = Shared.await command) ∨
      ∃ paramId, change = Shared.publish paramId) : wmiScanCompEvent.Commutes change := by
  have foreign : Foreign change := by
    obtain ⟨command, rfl⟩ | ⟨paramId, rfl⟩ := request
    · exact .await command
    · exact .publish paramId
  refine ⟨fun shared => ⟨rfl, ?_⟩, fun shared => ?_⟩
  · obtain ⟨command, rfl⟩ | ⟨paramId, rfl⟩ := request <;> rfl
  dsimp only
  split
  · refine ⟨fun shared => ?_, fun shared => (built_scanEnded shared).commutes foreign⟩
    obtain ⟨command, rfl⟩ | ⟨paramId, rfl⟩ := request
    · exact ⟨rfl, rfl⟩
    · exact ⟨rfl, rfl⟩
  · trivial

/-- A program that goes on with the comparison, whatever the polls find. -/
theorem each_awaitParamId {keeps : Shared → Shared → Prop} (refl : ∀ shared, keeps shared shared)
    {rest : Prog} (each : rest.Each keeps) (paramId : UInt8) (polls : Nat) :
    (awaitParamId paramId rest polls).Each keeps := by
  induction polls with
  | zero => exact each
  | succ polls ih =>
      refine ⟨refl, fun shared => ?_⟩
      dsimp only
      split
      · exact each
      · exact ih

theorem commutes_awaitParamId {change : Shared → Shared}
    (same : ∀ shared, (change shared).cxt.paramId = shared.cxt.paramId)
    {rest : Prog} (commutes : rest.Commutes change) (paramId : UInt8) (polls : Nat) :
    (awaitParamId paramId rest polls).Commutes change := by
  induction polls with
  | zero => exact commutes
  | succ polls ih =>
      refine ⟨fun shared => ⟨rfl, by simp only [same]⟩, fun shared => ?_⟩
      dsimp only
      split
      · exact commutes
      · exact ih

theorem each_setParam {keeps : Shared → Shared → Prop} (refl : ∀ shared, keeps shared shared)
    (built : ∀ code : Prog, Built code → code.Each keeps) (paramId : UInt8) (statusOk : Bool) :
    (wmiSetParamEvent flags paramId statusOk).Each keeps := by
  have rest : (compareParamId flags paramId statusOk).Each keeps :=
    ⟨refl, fun shared => built _ (built_compared paramId statusOk shared)⟩
  rw [wmiSetParamEvent]
  split
  · exact each_awaitParamId refl rest paramId 100
  · exact rest

theorem commutes_setParam {change : Shared → Shared} (foreign : Foreign change)
    (same : ∀ shared, (change shared).cxt.paramId = shared.cxt.paramId) (paramId : UInt8)
    (statusOk : Bool) : (wmiSetParamEvent flags paramId statusOk).Commutes change := by
  have rest : (compareParamId flags paramId statusOk).Commutes change := by
    refine ⟨fun shared => ⟨rfl, by simp only [same]⟩, fun shared => ?_⟩
    exact (built_compared paramId statusOk shared).commutes foreign
  rw [wmiSetParamEvent]
  split
  · exact commutes_awaitParamId same rest paramId 100
  · exact rest

theorem handles_event (event : Event) : Handles flags (event.code flags) := by
  by_cases scan : event = .scanComp
  · subst scan
    exact ⟨each_scanComp, fun command => commutes_scanComp (Or.inl ⟨command, rfl⟩),
      Or.inl .entry, Or.inr fun paramId => commutes_scanComp (Or.inr ⟨paramId, rfl⟩)⟩
  by_cases param : ∃ paramId statusOk, event = .setParam paramId statusOk
  · obtain ⟨paramId, statusOk, rfl⟩ := param
    exact ⟨each_setParam Grows.refl (fun _ built => built.grows) paramId statusOk,
      fun command => commutes_setParam (.await command) (fun _ => rfl) paramId statusOk,
      Or.inr ⟨each_setParam KeepsScan.refl (fun _ built => built.keepsScan) paramId statusOk,
        commutes_setParam .awaitScan (fun _ => rfl) paramId statusOk⟩,
      Or.inl ⟨paramId, statusOk, .entry⟩⟩
  · exact (built_event event scan fun paramId statusOk same =>
      param ⟨paramId, statusOk, same⟩).handles

end Events

/-! ## The steps of the handlers -/

section Steps

variable {flags : Flags} {sys after : Sys}

/-- A handler ends the scan. -/
def Shared.endScan (shared : Shared) : Shared :=
  { shared with
    cxt := { shared.cxt with
      scanInProgress := false
      wlanQapiError := qapiOk
      waitScanCompEvt := false }
    track := { shared.track with scanEnded := true, scanEnding := true } }

/-- Steps of the scan's handler up to the end of the scan. -/
theorem BeforeScan.advance (before : BeforeScan (sys.code .wmi))
    (stepped : sys.advance .wmi = some after) :
    (after.shared = sys.shared ∧ BeforeScan (after.code .wmi)) ∨
    (after.shared = sys.shared ∧ sys.shared.cxt.scanInProgress = false ∧
      after.code .wmi = .unlock done) ∨
    (after.shared = sys.shared.endScan ∧
      after.code .wmi = if sys.shared.cxt.waitScanCompEvt then
        .unlock (qurtSignalSet .scanCompleted (.lock (.unlock done)))
      else .unlock done) := by
  generalize code : sys.code .wmi = here at before
  cases before with
  | entry =>
      rw [System.advance, code, wmiScanCompEvent] at stepped
      dsimp only at stepped
      split at stepped
      · cases stepped
        exact Or.inl ⟨rfl, by rw [show _ = _ from System.start_code_self _]; exact .test⟩
      · cases stepped
  | test =>
      rw [System.advance, code, branch] at stepped
      cases stepped
      cases scan : sys.shared.cxt.scanInProgress with
      | false => exact Or.inr (Or.inl ⟨rfl, rfl, by simp [scan]⟩)
      | true => exact Or.inl ⟨rfl, by simpa [scan] using BeforeScan.ends⟩
  | ends =>
      rw [System.advance, code, QHal.WmiCommands.endScan] at stepped
      cases stepped
      exact Or.inr (Or.inr ⟨rfl, by simp⟩)

/-- Steps of a set-parameter event's handler up to its comparison. -/
theorem BeforeCompare.advance {paramId : UInt8} {statusOk : Bool}
    (before : BeforeCompare flags paramId statusOk (sys.code .wmi))
    (stepped : sys.advance .wmi = some after) :
    after.shared = sys.shared ∧
      (BeforeCompare flags paramId statusOk (after.code .wmi) ∨
        sys.code .wmi = compareParamId flags paramId statusOk ∧
        after.code .wmi =
          if sys.shared.cxt.paramId == paramId && flags.wlanSetParamBlockMode then
            update (setWlanQapiError (if statusOk then qapiOk else qapiError))
              (qurtSignalSet .setParam (.unlock done))
          else .unlock done) := by
  generalize code : sys.code .wmi = here at before
  cases before with
  | entry =>
      rw [System.advance, code, wmiSetParamEvent] at stepped
      dsimp only at stepped
      split at stepped
      · cases stepped
        refine ⟨rfl, Or.inl ?_⟩
        rw [show _ = _ from System.start_code_self _]
        split
        · exact .poll 100
        · exact .poll 0
      · cases stepped
  | poll polls =>
      cases polls with
      | zero =>
          rw [System.advance, code, awaitParamId, compareParamId] at stepped
          cases stepped
          exact ⟨rfl, Or.inr ⟨rfl, by simp⟩⟩
      | succ polls =>
          rw [System.advance, code, awaitParamId, branch] at stepped
          cases stepped
          refine ⟨rfl, Or.inl ?_⟩
          cases same : sys.shared.cxt.paramId == paramId with
          | false => simpa [same] using BeforeCompare.poll polls
          | true => simpa [same, awaitParamId] using BeforeCompare.poll 0

theorem Handles.advance (handles : Handles flags (sys.code .wmi))
    (stepped : sys.advance .wmi = some after) : Handles flags (after.code .wmi) where
  grows := System.each_advance handles.grows stepped
  await command := System.commutes_advance (handles.await command) stepped
  scan := by
    obtain before | ⟨keeps, commutes⟩ := handles.scan
    · obtain ⟨_, later⟩ | ⟨_, _, code⟩ | ⟨_, code⟩ := before.advance stepped
      · exact Or.inl later
      · have built : Built (after.code .wmi) := by
          rw [code]
          exact .unlock .ret
        exact (show Handles flags _ from built.handles).scan
      · have built : Built (after.code .wmi) := by
          rw [code]
          exact built_scanEnded sys.shared
        exact (show Handles flags _ from built.handles).scan
    · exact Or.inr ⟨System.each_advance keeps stepped, System.commutes_advance commutes stepped⟩
  param := by
    obtain ⟨paramId, statusOk, before⟩ | commutes := handles.param
    · obtain ⟨_, later | ⟨_, code⟩⟩ := before.advance stepped
      · exact Or.inl ⟨paramId, statusOk, later⟩
      · have built : Built (after.code .wmi) := by
          rw [code]
          exact built_compared paramId statusOk sys.shared
        exact (show Handles flags _ from built.handles).param
    · exact Or.inr fun paramId => System.commutes_advance (commutes paramId) stepped

end Steps

end QHal.WmiCommands
