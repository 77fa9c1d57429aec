/-
Module: QHal.Proofs.WmiWakeups
Purpose: The wake-ups of the Wi-Fi commands: none is lost and none is stale in every run that
  keeps clear of the places where a command and a handler disagree, and on every run at all a
  command returns without the mutex.
Trusted boundary: none
Main exports: SignalSound, Pending, Inv, commands_sound, command_returns_unlocked
-/
import QHal.Proofs.WmiCommands

namespace QHal.WmiCommands

open Threads

section Steps

variable {flags : Flags} {sys after : Sys}

/-! ## What holds while a command waits -/

/-- What the handler in hand leaves for the pending command: its mark stands or it is
signalled, and it is signalled just if an event that answers it was dispatched. -/
structure SignalSound (command : Command) (left : Shared) : Prop where
  stands : command.stands left.cxt = true ∨ Signalled command left
  answering : left.track.answeringFor command = true → Signalled command left
  answered : Signalled command left → left.track.answeredFor command = true

/-- The handler in hand leaves the signal so.  For the results of a scan this is said when
the scan is ended, and for a parameter when the ids are compared. -/
def Future (flags : Flags) (command : Command) (shared : Shared) (code : Prog) : Prop :=
  (command = .getScanResults ∧ BeforeScan code ∧
    (shared.cxt.scanInProgress = true ∧ shared.cxt.waitScanCompEvt = true ∨
      Signalled command shared)) ∨
  (∃ pending paramId statusOk, command = .setParam pending ∧
    BeforeCompare flags paramId statusOk code ∧
    (shared.track.answering = true → shared.track.answered = true)) ∨
  SignalSound command (code.solo shared)

/-- What holds of a command from its request to its wake-up. -/
structure Pending (flags : Flags) (command : Command) (shared : Shared) (code : Prog) :
    Prop where
  blocks : command.blocks flags = true ∨ command = .getScanResults
  agrees : command.agrees flags = true
  known : Signalled command shared → shared.track.answeredFor command = true
  kept : shared.track.served = true → Signalled command shared
  future : Future flags command shared code

theorem Signalled.grows {command : Command} {before later : Shared} (grows : Grows before later)
    (signalled : Signalled command before) : Signalled command later := by
  obtain ⟨bit, inMask, set⟩ := signalled
  exact ⟨bit, inMask, grows.sig bit set⟩

theorem Signalled.of_sig {command : Command} {shared other : Shared}
    (same : other.sig = shared.sig) (signalled : Signalled command shared) :
    Signalled command other := by
  obtain ⟨bit, inMask, set⟩ := signalled
  exact ⟨bit, inMask, by rw [same]; exact set⟩

theorem answeredFor_grows {command : Command} {before later : Shared}
    (grows : Grows before later) (answered : before.track.answeredFor command = true) :
    later.track.answeredFor command = true := by
  by_cases scan : command = .getScanResults
  · simp only [Track.answeredFor, scan, if_true] at *
    exact grows.scanEnded answered
  · simp only [Track.answeredFor, scan, if_false] at *
    rw [grows.answered]
    exact answered

/-- A handler that leaves the scan alone leaves what answers a command. -/
theorem answeredFor_kept {command : Command} {before later : Shared}
    (grows : Grows before later) (keeps : KeepsScan before later) :
    later.track.answeredFor command = before.track.answeredFor command := by
  rw [Track.answeredFor, Track.answeredFor, grows.answered, keeps.scanEnded]

/-- A signal that a step of a handler sets answers the command. -/
theorem Pending.known_advance {command : Command} (handles : Handles flags (sys.code .wmi))
    (pending : Pending flags command sys.shared (sys.code .wmi))
    (stepped : sys.advance .wmi = some after) (signalled : Signalled command after.shared) :
    after.shared.track.answeredFor command = true := by
  have grows := System.each_step Grows.refl handles.grows stepped
  -- where nothing is set the signal was there before
  have before (same : sys.shared.sig = after.shared.sig) :
      after.shared.track.answeredFor command = true :=
    answeredFor_grows grows (pending.known (signalled.of_sig same))
  have beforeScan (here : BeforeScan (sys.code .wmi)) :
      after.shared.track.answeredFor command = true := by
    obtain ⟨same, _⟩ | ⟨same, _⟩ | ⟨same, _⟩ := here.advance stepped
    · exact before (by rw [same])
    · exact before (by rw [same])
    · exact before (by rw [same]; rfl)
  obtain here | ⟨keeps, _⟩ := handles.scan
  · exact beforeScan here
  obtain ⟨_, here, _⟩ | ⟨_, _, _, _, here, _⟩ | sound := pending.future
  · exact beforeScan here
  · exact before (by rw [(here.advance stepped).1])
  · rw [← System.solo_advance stepped] at sound
    have later := System.each_advance keeps stepped
    have rest := later.solo KeepsScan.refl KeepsScan.trans after.shared
    have more := (System.each_advance handles.grows stepped).solo Grows.refl Grows.trans
      after.shared
    rw [← answeredFor_kept more rest]
    exact sound.answered (signalled.grows more)

/-- A step of a handler keeps what holds of the pending command. -/
theorem Pending.advance {command : Command} (handles : Handles flags (sys.code .wmi))
    (pending : Pending flags command sys.shared (sys.code .wmi))
    (stage : sys.shared.track.stage = .pending command) (admits : Admits flags sys .wmi)
    (stepped : sys.advance .wmi = some after) :
    Pending flags command after.shared (after.code .wmi) := by
  have grows := System.each_step Grows.refl handles.grows stepped
  have known := pending.known_advance handles stepped
  refine ⟨pending.blocks, pending.agrees, known, ?_, ?_⟩
  · intro served
    rw [grows.served] at served
    exact (pending.kept served).grows grows
  obtain ⟨rfl, here, waits⟩ | ⟨target, paramId, statusOk, rfl, here, told⟩ | sound :=
    pending.future
  · obtain ⟨same, later⟩ | ⟨same, ended, code⟩ | ⟨same, code⟩ := here.advance stepped
    · refine Or.inl ⟨rfl, later, ?_⟩
      rw [same]
      exact waits
    · -- the scan was ended by an event before this one
      refine Or.inr (Or.inr ?_)
      have signalled : Signalled .getScanResults after.shared := by
        rw [same]
        exact waits.resolve_left fun both => by simp [ended] at both
      rw [code]
      exact ⟨Or.inr signalled, fun _ => signalled, known⟩
    · refine Or.inr (Or.inr ?_)
      rw [code, same]
      cases wait : sys.shared.cxt.waitScanCompEvt with
      | true =>
          have signalled : Signalled .getScanResults
              { sys.shared.endScan with
                sig := Function.update sys.shared.sig .scanCompleted true } :=
            ⟨.scanCompleted, by simp [Command.mask], by simp⟩
          exact ⟨Or.inr signalled, fun _ => signalled, fun _ => rfl⟩
      | false =>
          have signalled : Signalled .getScanResults sys.shared.endScan :=
            (waits.resolve_left fun both => by simp [wait] at both).of_sig rfl
          exact ⟨Or.inr signalled, fun _ => signalled, fun _ => rfl⟩
  · obtain ⟨same, later | ⟨compare, code⟩⟩ := here.advance stepped
    · refine Or.inr (Or.inl ⟨target, paramId, statusOk, rfl, later, ?_⟩)
      rw [same]
      exact told
    · refine Or.inr (Or.inr ?_)
      have flag : flags.wlanSetParamBlockMode = true := by
        simpa [Command.blocks] using pending.blocks
      have just : sys.shared.cxt.paramId = paramId ↔ sys.shared.track.answering = true := by
        simpa [Admits, AdmitsWmi, compare, compareParamId, stage, Stage.setsParam] using admits
      rw [code, same]
      by_cases equal : sys.shared.cxt.paramId = paramId
      · have signalled : Signalled (.setParam target)
            { sys.shared with
              cxt := setWlanQapiError (if statusOk then qapiOk else qapiError) sys.shared.cxt
              sig := Function.update sys.shared.sig .setParam true } :=
          ⟨.setParam, by simp [Command.mask], by simp⟩
        simp only [equal, flag, BEq.rfl, Bool.and_true, if_true]
        exact ⟨Or.inl rfl, fun _ => signalled, fun _ => told (just.mp equal)⟩
      · have silent : sys.shared.track.answering = false := by
          simpa [equal] using just
        have different : (sys.shared.cxt.paramId == paramId) = false := by simpa using equal
        simp only [different, Bool.false_and, Bool.false_eq_true, if_false]
        refine ⟨Or.inl rfl, fun answering => ?_, pending.known⟩
        exact absurd (silent.symm.trans answering) (by simp)
  · refine Or.inr (Or.inr ?_)
    rw [System.solo_advance stepped]
    exact sound

/-! ## What an event's handler does, taken alone -/

theorem solo_signalIf (blockMode : Bool) (bit : Sig) (rest : Prog) (shared : Shared) :
    (signalIf blockMode bit rest).solo shared =
      rest.solo { shared with
        sig := if blockMode then Function.update shared.sig bit true else shared.sig } := by
  cases blockMode <;> rfl

theorem solo_underMutex (change : Cxt → Cxt) (blockMode : Bool) (bit : Sig) (shared : Shared) :
    (underMutex change blockMode bit).solo shared =
      { shared with
        cxt := change shared.cxt
        sig := if blockMode then Function.update shared.sig bit true else shared.sig } := by
  cases blockMode <;> rfl

theorem solo_branch (test : Cxt → Bool) (yes no : Prog) (shared : Shared) :
    (branch test yes no).solo shared =
      if test shared.cxt then yes.solo shared else no.solo shared := by
  rw [branch, Code.solo]
  split <;> rfl

theorem solo_joinDisconnect (shared : Shared) :
    (joinDisconnect flags).solo shared =
      { shared with
        cxt := { shared.cxt with disconnectInProgress := false }
        sig := if shared.cxt.disconnectInProgress && flags.wlanDisconnectBlockMode then
          Function.update shared.sig .disconnected true else shared.sig } := by
  rw [joinDisconnect, solo_branch]
  cases progress : shared.cxt.disconnectInProgress with
  | false =>
      obtain ⟨cxt, sig, track⟩ := shared
      obtain ⟨⟩ := cxt
      cases progress
      rfl
  | true => cases flags.wlanDisconnectBlockMode <;> rfl

theorem solo_joinConnect (shared : Shared) :
    (joinConnect flags).solo shared =
      (joinDisconnect flags).solo { shared with
        cxt := { shared.cxt with connectInProgress := false }
        sig := if shared.cxt.connectInProgress && flags.wlanConnectBlockMode then
          Function.update shared.sig
            (if shared.cxt.connected then .connectCompleted else .disconnected) true
          else shared.sig } := by
  obtain ⟨⟨_, _, _, _, _, progress, _, _, _, connected, _, _⟩, sig, track⟩ := shared
  rw [joinConnect, solo_branch]
  cases progress with
  | false => rfl
  | true =>
      cases flags.wlanConnectBlockMode with
      | false => rfl
      | true => cases connected <;> rfl

/-- A join of the device's own. -/
def JoinEvt.own (cxt : Cxt) (evt : JoinEvt) : Bool := !(cxt.opmode == .ap && !evt.ownBssid)

/-- A join that is not the device's own changes no bit and no mark. -/
theorem solo_join_other {evt : JoinEvt} {shared : Shared} (own : evt.own shared.cxt = false) :
    (wmiJoinCompEvent flags evt).solo shared =
      { shared with cxt := fillJoinEvent evt shared.cxt } := by
  have status : (fillJoinEvent evt shared.cxt).bssConnectionStatus = false := own
  rw [wmiJoinCompEvent, Code.solo, update, Code.solo, solo_branch]
  simp only [status, Bool.false_eq_true, if_false]
  rfl

/-- The bits behind a join of the device's own. -/
def JoinEvt.sig (flags : Flags) (evt : JoinEvt) (shared : Shared) : Sig → Bool :=
  let connected :=
    if shared.cxt.connectInProgress && flags.wlanConnectBlockMode then
      Function.update shared.sig (if evt.statusOk then .connectCompleted else .disconnected) true
    else shared.sig
  if shared.cxt.disconnectInProgress && flags.wlanDisconnectBlockMode then
    Function.update connected .disconnected true
  else connected

/-- A join of the device's own ends what is in progress, and signals it in block mode. -/
theorem solo_join_own {evt : JoinEvt} {shared : Shared} (own : evt.own shared.cxt = true) :
    (wmiJoinCompEvent flags evt).solo shared =
      { shared with
        cxt := { fillJoinEvent evt shared.cxt with
          connected := evt.statusOk
          connectInProgress := false
          disconnectInProgress := false }
        sig := evt.sig flags shared } := by
  have status : (fillJoinEvent evt shared.cxt).bssConnectionStatus = true := own
  have connected : ((fillJoinEvent evt shared.cxt).joinStatus == qapiOk) = evt.statusOk := by
    change ((if evt.statusOk then qapiOk else qapiWlanErrEproto) == qapiOk) = evt.statusOk
    cases evt.statusOk <;> decide
  rw [wmiJoinCompEvent, Code.solo, update, Code.solo, solo_branch]
  dsimp only
  rw [if_pos status, update, Code.solo, solo_joinConnect, solo_joinDisconnect]
  simp only [connected]
  rfl

theorem solo_disconnect (shared : Shared) :
    (wmiDisconnectEvent flags).solo shared =
      { shared with
        cxt := { shared.cxt with
          joinStatus := qapiWlanErrEproto
          connected := false
          disconnectInProgress := false }
        sig := if shared.cxt.disconnectInProgress && flags.wlanDisconnectBlockMode then
          Function.update shared.sig .disconnected true else shared.sig } := by
  rw [wmiDisconnectEvent, Code.solo, update, Code.solo, solo_branch]
  cases progress : shared.cxt.disconnectInProgress with
  | false =>
      obtain ⟨cxt, sig, track⟩ := shared
      obtain ⟨⟩ := cxt
      cases progress
      rfl
  | true => cases flags.wlanDisconnectBlockMode <;> rfl

theorem solo_awaitParamId (paramId : UInt8) (rest : Prog) (polls : Nat) (shared : Shared) :
    (awaitParamId paramId rest polls).solo shared = rest.solo shared := by
  induction polls with
  | zero => rfl
  | succ polls ih => rw [awaitParamId, solo_branch, ih, ite_self]

theorem solo_setParam (paramId : UInt8) (statusOk : Bool) (shared : Shared) :
    (wmiSetParamEvent flags paramId statusOk).solo shared =
      (compareParamId flags paramId statusOk).solo shared := by
  rw [wmiSetParamEvent, Code.solo]
  split
  · exact solo_awaitParamId ..
  · rfl

/-! ## The dispatch of an event -/

/-- The state when an event's handler begins. -/
def Shared.dispatch (event : Event) (shared : Shared) : Shared :=
  { shared with track := shared.track.dispatch (event.answers shared.cxt) }

theorem answers_scan (event : Event) (cxt : Cxt) :
    event.answers cxt .getScanResults = false := by
  cases event <;> rfl

theorem answeringFor_dispatch {command : Command} {shared : Shared} (event : Event)
    (stage : shared.track.stage = .pending command) :
    (shared.dispatch event).track.answeringFor command =
      event.answers shared.cxt command := by
  by_cases scan : command = .getScanResults
  · subst scan
    simp [Shared.dispatch, Track.dispatch, Track.answeringFor, stage, answers_scan]
  · simp [Shared.dispatch, Track.dispatch, Track.answeringFor, stage, scan]

theorem answeredFor_dispatch {command : Command} {shared : Shared} (event : Event)
    (stage : shared.track.stage = .pending command) :
    (shared.dispatch event).track.answeredFor command =
      (shared.track.answeredFor command || event.answers shared.cxt command) := by
  by_cases scan : command = .getScanResults
  · subst scan
    simp [Shared.dispatch, Track.dispatch, Track.answeredFor, stage, answers_scan]
  · simp [Shared.dispatch, Track.dispatch, Track.answeredFor, stage, scan]

/-- What is asked of a handler that runs alone: it signals the pending command if its event
answers it, and otherwise leaves its bits and its mark. -/
structure Serves (event : Event) (command : Command) (shared left : Shared) : Prop where
  answering : left.track.answeringFor command = event.answers shared.cxt command
  answered : left.track.answeredFor command =
    (shared.track.answeredFor command || event.answers shared.cxt command)
  keeps : Signalled command shared → Signalled command left
  signals : event.answers shared.cxt command = true → Signalled command left
  fresh : Signalled command left →
    Signalled command shared ∨ event.answers shared.cxt command = true
  stands : command.stands shared.cxt = true →
    command.stands left.cxt = true ∨ Signalled command left

/-- A handler that serves the pending command keeps its signal so. -/
theorem SignalSound.dispatch {event : Event} {command : Command} {shared left : Shared}
    (sound : SignalSound command shared) (serves : Serves event command shared left) :
    SignalSound command left where
  stands := sound.stands.elim serves.stands fun signalled => Or.inr (serves.keeps signalled)
  answering told := serves.signals (serves.answering.symm.trans told)
  answered signalled := by
    rw [serves.answered, Bool.or_eq_true]
    exact (serves.fresh signalled).imp_left sound.answered

/-- The bit that the handler signals under its flag, where it does nothing else that a
command waits for. -/
def Event.signal (flags : Flags) : Event → Option (Sig × Bool)
  | .wifiEn => some (.enableDone, flags.wlanEnableBlockMode)
  | .wifiDis => some (.disableDone, flags.wlanDisableBlockMode)
  | .netifAdd _ => some (.ifAdded, flags.wlanIfAddBlockMode)
  | .wifiSetMode _ => some (.setMode, flags.wlanIfAddBlockMode)
  | .scanStart => some (.startedScan, flags.wlanScanStartBlockMode)
  | .reportStatistics _ => some (.getStat, flags.wlanGetStatBlockMode)
  | .regulatory _ => some (.getReg, flags.wlanGetRegulatoryBlockMode)
  | .setRate _ => some (.setRate, flags.wlanDisableBlockMode)
  | .getRate => some (.getRate, flags.wlanDisableBlockMode)
  | .sendRawFrame _ => some (.sendRaw, flags.wlanDisableBlockMode)
  | .getTxPower => some (.getTxPower, flags.wlanGetTxPowerBlockMode)
  | .mgmtFrameFilter => some (.setMgmtFilter, flags.wlanSetMgmtFilterBlockMode)
  | .reportWifiStatus => some (.getStatus, flags.wlanGetStatBlockMode)
  | .wlanSuspend _ => some (.suspend, flags.wlanSuspendBlockMode)
  | .wlanResume => some (.resume, flags.wlanResumeBlockMode)
  | .wlanSapCsa _ => some (.sapCsaStatus, flags.wlanSapCsaBlockMode)
  | .scanComp | .scanResult | .join _ | .disconnect | .setParam _ _ | .response _ | .other => none

/-- What such a handler does when it runs alone. -/
structure Signals (bit : Sig) (flag : Bool) (shared left : Shared) : Prop where
  sig : left.sig = if flag then Function.update shared.sig bit true else shared.sig
  track : left.track = shared.track
  stands : ∀ command : Command, command.stands left.cxt = command.stands shared.cxt

theorem signals_underMutex {change : Cxt → Cxt}
    (stands : ∀ (command : Command) (cxt : Cxt), command.stands (change cxt) = command.stands cxt)
    (flag : Bool) (bit : Sig) (shared : Shared) :
    Signals bit flag shared ((underMutex change flag bit).solo shared) := by
  rw [solo_underMutex]
  exact ⟨rfl, rfl, fun command => stands command shared.cxt⟩

theorem signals_signalIf (flag : Bool) (bit : Sig) (shared : Shared) :
    Signals bit flag shared ((signalIf flag bit done).solo shared) := by
  rw [solo_signalIf]
  exact ⟨rfl, rfl, fun _ => rfl⟩

/-- A change of the context before it that leaves the marks. -/
theorem Signals.of_change {bit : Sig} {flag : Bool} {shared left : Shared} {cxt : Cxt}
    (stands : ∀ command : Command, command.stands cxt = command.stands shared.cxt)
    (signals : Signals bit flag { shared with cxt := cxt } left) :
    Signals bit flag shared left :=
  ⟨signals.sig, signals.track, fun command => (signals.stands command).trans (stands command)⟩

/-- An assignment of the error word leaves the marks. -/
theorem stands_setWlanQapiError (status : Status) (command : Command) (cxt : Cxt) :
    command.stands (setWlanQapiError status cxt) = command.stands cxt := by
  cases command <;> rfl

/-- Each such handler changes no mark and no bit but its own. -/
theorem signals_event {event : Event} {bit : Sig} {flag : Bool}
    (signal : event.signal flags = some (bit, flag)) (shared : Shared) :
    Signals bit flag shared ((event.code flags).solo shared) := by
  cases event with
  | scanComp | scanResult | join | disconnect | setParam | response | other => cases signal
  | wifiEn | wifiDis =>
      cases signal
      exact signals_underMutex (fun command _ => by cases command <;> rfl) _ _ shared
  | netifAdd | wifiSetMode =>
      cases signal
      refine Signals.of_change (fun command => ?_) (signals_signalIf _ _ _)
      exact stands_setWlanQapiError _ command shared.cxt
  | scanStart =>
      cases signal
      exact signals_signalIf _ _ shared
  | wlanSuspend msg =>
      cases signal
      refine Signals.of_change (fun command => ?_) (signals_underMutex (fun _ _ => rfl) _ _ _)
      cases command <;> rfl
  | getRate | mgmtFrameFilter | wlanResume =>
      cases signal
      exact signals_underMutex (fun _ _ => rfl) _ _ shared
  | reportStatistics | regulatory | setRate | sendRawFrame | getTxPower | reportWifiStatus
  | wlanSapCsa =>
      cases signal
      exact signals_underMutex (stands_setWlanQapiError _) _ _ shared

/-- Such an event answers a command just if the command waits for its bit. -/
theorem answers_signal {event : Event} {bit : Sig} {flag : Bool}
    (signal : event.signal flags = some (bit, flag)) (cxt : Cxt) (command : Command) :
    event.answers cxt command = decide (bit ∈ command.mask) := by
  cases event <;> cases signal <;> cases command <;> rfl

/-- A command that waits for the bit finds the flag of the handler set. -/
theorem flag_signal {event : Event} {bit : Sig} {flag : Bool}
    (signal : event.signal flags = some (bit, flag)) {command : Command}
    (waits : bit ∈ command.mask)
    (blocks : command.blocks flags = true ∨ command = .getScanResults)
    (agrees : command.agrees flags = true) : flag = true := by
  -- The command is known from the bit that it waits for.
  cases event <;> cases signal <;> cases command <;>
    first
    | exact absurd waits (by decide)
    | simp_all [Command.mask, Command.blocks, Command.agrees]

theorem Signals.serves {event : Event} {bit : Sig} {flag : Bool} {command : Command}
    {shared left : Shared} (signals : Signals bit flag (shared.dispatch event) left)
    (signal : event.signal flags = some (bit, flag))
    (stage : shared.track.stage = .pending command)
    (blocks : command.blocks flags = true ∨ command = .getScanResults)
    (agrees : command.agrees flags = true) : Serves event command shared left := by
  have answers := answers_signal signal shared.cxt command
  have keeps : Signalled command shared → Signalled command left := by
    rintro ⟨other, inMask, set⟩
    refine ⟨other, inMask, ?_⟩
    rw [signals.sig]
    split
    · by_cases same : other = bit
      · simp [same]
      · rw [Function.update_of_ne same]
        exact set
    · exact set
  refine ⟨?_, ?_, keeps, ?_, ?_, ?_⟩
  · rw [signals.track]
    exact answeringFor_dispatch event stage
  · rw [signals.track]
    exact answeredFor_dispatch event stage
  · intro told
    have inMask : bit ∈ command.mask := by simpa [answers] using told
    have set := flag_signal signal inMask blocks agrees
    exact ⟨bit, inMask, by rw [signals.sig, set]; simp⟩
  · rintro ⟨other, inMask, set⟩
    rw [signals.sig] at set
    by_cases same : other = bit
    · subst same
      exact Or.inr (by simpa [answers] using inMask)
    · refine Or.inl ⟨other, inMask, ?_⟩
      split at set
      · rw [Function.update_of_ne same] at set
        exact set
      · exact set
  · intro stands
    rw [signals.stands]
    exact Or.inl stands

/-- Bits that a command does not wait for. -/
theorem signalled_congr {command : Command} {shared left : Shared}
    (same : ∀ bit ∈ command.mask, left.sig bit = shared.sig bit) :
    Signalled command left ↔ Signalled command shared := by
  constructor
  · rintro ⟨bit, inMask, set⟩
    exact ⟨bit, inMask, (same bit inMask).symm.trans set⟩
  · rintro ⟨bit, inMask, set⟩
    exact ⟨bit, inMask, (same bit inMask).trans set⟩

/-- A handler that does not answer the command, and leaves its bits and its mark. -/
theorem Serves.of_aside {event : Event} {command : Command} {shared left : Shared}
    (stage : shared.track.stage = .pending command)
    (answering : left.track.answeringFor command =
      (shared.dispatch event).track.answeringFor command)
    (answered : left.track.answeredFor command =
      (shared.dispatch event).track.answeredFor command)
    (aside : event.answers shared.cxt command = false)
    (bits : ∀ bit ∈ command.mask, left.sig bit = shared.sig bit)
    (stands : command.stands left.cxt = command.stands shared.cxt) :
    Serves event command shared left where
  answering := answering.trans (answeringFor_dispatch event stage)
  answered := answered.trans (answeredFor_dispatch event stage)
  keeps := (signalled_congr bits).mpr
  signals told := absurd (aside.symm.trans told) (by simp)
  fresh signalled := Or.inl ((signalled_congr bits).mp signalled)
  stands still := Or.inl (stands.trans still)

/-- The end of a scan is nothing to a command but that for its results. -/
theorem serves_scanComp {command : Command} {shared : Shared}
    (stage : shared.track.stage = .pending command) (other : command ≠ .getScanResults) :
    Serves .scanComp command shared
      (wmiScanCompEvent.solo (shared.dispatch .scanComp)) := by
  have aside : Event.scanComp.answers shared.cxt command = false := by
    cases command <;> rfl
  have bits : Sig.scanCompleted ∉ command.mask := by
    cases command <;> simp_all [Command.mask]
  obtain ⟨cxt, sig, track⟩ := shared
  obtain ⟨_, _, _, _, _, _, _, scan, wait, _, _, _⟩ := cxt
  cases scan with
  | false =>
      refine Serves.of_aside stage rfl rfl aside (fun _ _ => rfl) ?_
      cases command <;> rfl
  | true =>
      have answering : ∀ told : Track,
          Track.answeringFor command { told with scanEnded := true, scanEnding := true } =
            told.answeringFor command := by
        intro told
        simp [Track.answeringFor, other]
      have answered : ∀ told : Track,
          Track.answeredFor command { told with scanEnded := true, scanEnding := true } =
            told.answeredFor command := by
        intro told
        simp [Track.answeredFor, other]
      cases wait with
      | false =>
          refine Serves.of_aside stage (answering _) (answered _) aside (fun _ _ => rfl) ?_
          cases command <;> simp_all [Command.stands]
          all_goals rfl
      | true =>
          refine Serves.of_aside stage (answering _) (answered _) aside (fun bit inMask => ?_) ?_
          · have different : bit ≠ .scanCompleted := fun same => bits (same ▸ inMask)
            exact Function.update_of_ne different ..
          · cases command <;> simp_all [Command.stands]
            all_goals rfl

/-- The end of a set-parameter command is nothing to another. -/
theorem serves_setParam {command : Command} {shared : Shared} {paramId : UInt8} {statusOk : Bool}
    (stage : shared.track.stage = .pending command)
    (other : ∀ pending, command ≠ .setParam pending) :
    Serves (.setParam paramId statusOk) command shared
      ((wmiSetParamEvent flags paramId statusOk).solo
        (shared.dispatch (.setParam paramId statusOk))) := by
  have aside : (Event.setParam paramId statusOk).answers shared.cxt command = false := by
    cases command with
    | setParam pending => exact absurd rfl (other pending)
    | _ => rfl
  have bits : Sig.setParam ∉ command.mask := by
    cases command with
    | setParam pending => exact absurd rfl (other pending)
    | _ => simp [Command.mask]
  rw [solo_setParam, compareParamId, Code.solo]
  split
  · refine Serves.of_aside stage rfl rfl aside (fun bit inMask => ?_)
      (stands_setWlanQapiError _ command shared.cxt)
    have different : bit ≠ .setParam := fun same => bits (same ▸ inMask)
    exact Function.update_of_ne different ..
  · exact Serves.of_aside stage rfl rfl aside (fun _ _ => rfl) rfl

/-- A handler whose event answers the command, and that leaves it signalled. -/
theorem Serves.of_answer {event : Event} {command : Command} {shared left : Shared}
    (stage : shared.track.stage = .pending command)
    (track : left.track = (shared.dispatch event).track)
    (told : event.answers shared.cxt command = true) (signalled : Signalled command left) :
    Serves event command shared left where
  answering := by rw [track, answeringFor_dispatch event stage]
  answered := by rw [track, answeredFor_dispatch event stage]
  keeps _ := signalled
  signals _ := signalled
  fresh _ := Or.inr told
  stands _ := Or.inr signalled

/-- A bit is set under a condition. -/
def raised (sig : Sig → Bool) (holds : Bool) (bit : Sig) : Sig → Bool :=
  if holds then Function.update sig bit true else sig

theorem raised_self {sig : Sig → Bool} {holds : Bool} {bit : Sig} (set : holds = true) :
    raised sig holds bit bit = true := by
  simp [raised, set]

theorem raised_other {sig : Sig → Bool} {bit other : Sig} (holds : Bool) (different : other ≠ bit) :
    raised sig holds bit other = sig other := by
  rw [raised]
  split
  · exact Function.update_of_ne different ..
  · rfl

theorem raised_of_set {sig : Sig → Bool} {other : Sig} (holds : Bool) (bit : Sig)
    (set : sig other = true) : raised sig holds bit other = true := by
  by_cases same : other = bit
  · subst same
    rw [raised]
    split
    · simp
    · exact set
  · rw [raised_other holds same, set]

/-- A disconnect serves every command. -/
theorem serves_disconnect {command : Command} {shared : Shared}
    (stage : shared.track.stage = .pending command)
    (blocks : command.blocks flags = true ∨ command = .getScanResults)
    (stands : command.stands shared.cxt = true ∨ Signalled command shared)
    (admits : Event.disconnect.endsDisconnect flags shared.cxt = true →
      Sig.disconnected ∈ command.mask → Event.disconnect.answers shared.cxt command = true) :
    Serves .disconnect command shared
      ((wmiDisconnectEvent flags).solo (shared.dispatch .disconnect)) := by
  have sig : ((wmiDisconnectEvent flags).solo (shared.dispatch .disconnect)).sig =
      raised shared.sig (shared.cxt.disconnectInProgress && flags.wlanDisconnectBlockMode)
        .disconnected := by
    rw [solo_disconnect]
    rfl
  by_cases same : command = .disconnect
  · subst same
    have flag : flags.wlanDisconnectBlockMode = true := by
      simpa [Command.blocks] using blocks
    refine Serves.of_answer stage (by rw [solo_disconnect]) rfl
      ⟨.disconnected, by simp [Command.mask], ?_⟩
    rw [sig]
    obtain progress | ⟨bit, inMask, set⟩ := stands
    · exact raised_self (by rw [flag, Bool.and_true]; exact progress)
    · obtain rfl : bit = .disconnected := by simpa [Command.mask] using inMask
      exact raised_of_set _ _ set
  · have aside : Event.disconnect.answers shared.cxt command = false := by
      cases command with
      | disconnect => exact absurd rfl same
      | _ => rfl
    refine Serves.of_aside stage (by rw [solo_disconnect]) (by rw [solo_disconnect]) aside
      (fun bit inMask => ?_) ?_
    · rw [sig]
      by_cases equal : bit = .disconnected
      · subst equal
        have quiet : Event.disconnect.endsDisconnect flags shared.cxt = false := by
          cases ends : Event.disconnect.endsDisconnect flags shared.cxt with
          | false => rfl
          | true => exact absurd (admits ends inMask) (by simp [aside])
        rw [Event.endsDisconnect] at quiet
        rw [quiet]
        rfl
      · exact raised_other _ equal
    · rw [solo_disconnect]
      cases command with
      | disconnect => exact absurd rfl same
      | _ => rfl

theorem answers_join {command : Command} {cxt : Cxt} {evt : JoinEvt}
    (told : (Event.join evt).answers cxt command = true) :
    evt.own cxt = true ∧
      (command = .connect ∨ command = .disconnect ∧ evt.statusOk = false) := by
  cases command with
  | connect => exact ⟨told, Or.inl rfl⟩
  | disconnect =>
      have both : (evt.own cxt && !evt.statusOk) = true := told
      simp only [Bool.and_eq_true, Bool.not_eq_true'] at both
      exact ⟨both.1, Or.inr ⟨rfl, both.2⟩⟩
  | _ => cases told

/-- A join serves every command. -/
theorem serves_join {command : Command} {shared : Shared} {evt : JoinEvt}
    (stage : shared.track.stage = .pending command)
    (blocks : command.blocks flags = true ∨ command = .getScanResults)
    (stands : command.stands shared.cxt = true ∨ Signalled command shared)
    (admits : (Event.join evt).endsDisconnect flags shared.cxt = true →
      Sig.disconnected ∈ command.mask → (Event.join evt).answers shared.cxt command = true) :
    Serves (.join evt) command shared
      ((wmiJoinCompEvent flags evt).solo (shared.dispatch (.join evt))) := by
  cases own : evt.own shared.cxt with
  | false =>
      have aside : (Event.join evt).answers shared.cxt command = false := by
        cases told : (Event.join evt).answers shared.cxt command with
        | false => rfl
        | true => exact absurd ((answers_join told).1.symm.trans own) (by simp)
      have alone : (wmiJoinCompEvent flags evt).solo (shared.dispatch (.join evt)) = _ :=
        solo_join_other own
      rw [alone]
      refine Serves.of_aside stage rfl rfl aside (fun _ _ => rfl) ?_
      cases command <;> rfl
  | true =>
      have alone : (wmiJoinCompEvent flags evt).solo (shared.dispatch (.join evt)) = _ :=
        solo_join_own own
      have sig : ((wmiJoinCompEvent flags evt).solo (shared.dispatch (.join evt))).sig =
          raised (raised shared.sig (shared.cxt.connectInProgress && flags.wlanConnectBlockMode)
              (if evt.statusOk then .connectCompleted else .disconnected))
            (shared.cxt.disconnectInProgress && flags.wlanDisconnectBlockMode)
            .disconnected := by
        rw [alone]
        rfl
      cases told : (Event.join evt).answers shared.cxt command with
      | true =>
          refine Serves.of_answer stage (by rw [alone]) told ?_
          obtain progress | ⟨bit, inMask, set⟩ := stands
          · obtain rfl | ⟨rfl, failed⟩ := (answers_join told).2
            · have flag : flags.wlanConnectBlockMode = true := by
                simpa [Command.blocks] using blocks
              have holds : (shared.cxt.connectInProgress && flags.wlanConnectBlockMode) = true := by
                rw [flag, Bool.and_true]
                exact progress
              refine ⟨if evt.statusOk then .connectCompleted else .disconnected, ?_, ?_⟩
              · cases evt.statusOk <;> simp [Command.mask]
              · rw [sig]
                exact raised_of_set _ _ (raised_self holds)
            · have flag : flags.wlanDisconnectBlockMode = true := by
                simpa [Command.blocks] using blocks
              refine ⟨.disconnected, by simp [Command.mask], ?_⟩
              rw [sig]
              exact raised_self (by rw [flag, Bool.and_true]; exact progress)
          · refine ⟨bit, inMask, ?_⟩
            rw [sig]
            exact raised_of_set _ _ (raised_of_set _ _ set)
      | false =>
          -- only a disconnect that waits while a connection succeeds looks at these bits
          have apart : Sig.connectCompleted ∉ command.mask ∧
              (Sig.disconnected ∈ command.mask → command = .disconnect ∧ evt.statusOk = true) := by
            cases command with
            | connect => exact absurd (told.symm.trans own) (by simp)
            | disconnect =>
                have failed : (evt.own shared.cxt && !evt.statusOk) = false := told
                simp [Command.mask, own] at failed ⊢
                exact failed
            | _ => simp [Command.mask]
          have quiet (inMask : Sig.disconnected ∈ command.mask) :
              (shared.cxt.disconnectInProgress && flags.wlanDisconnectBlockMode) = false := by
            cases ends : (shared.cxt.disconnectInProgress && flags.wlanDisconnectBlockMode) with
            | false => rfl
            | true =>
                have signals : (Event.join evt).endsDisconnect flags shared.cxt = true := by
                  have both : (evt.own shared.cxt &&
                      (shared.cxt.disconnectInProgress && flags.wlanDisconnectBlockMode)) =
                      true := by rw [own, ends]; rfl
                  rw [← Bool.and_assoc] at both
                  exact both
                exact absurd (told.symm.trans (admits signals inMask)) (by simp)
          refine Serves.of_aside stage (by rw [alone]) (by rw [alone]) told
            (fun bit inMask => ?_) ?_
          · rw [sig]
            by_cases equal : bit = .disconnected
            · subst equal
              obtain ⟨_, succeeded⟩ := apart.2 inMask
              rw [quiet inMask, raised, if_neg (by simp), succeeded]
              exact raised_other _ (by simp)
            · have neither : bit ≠ .connectCompleted := fun same => apart.1 (same ▸ inMask)
              rw [raised_other _ equal, raised_other]
              split
              · exact neither
              · exact equal
          · rw [alone]
            cases command with
            | connect => exact absurd (told.symm.trans own) (by simp)
            | disconnect =>
                have flag : flags.wlanDisconnectBlockMode = true := by
                  simpa [Command.blocks] using blocks
                have ended := quiet (by simp [Command.mask])
                rw [flag, Bool.and_true] at ended
                exact ended.symm
            | _ => rfl

/-- What a handler that is through has left. -/
theorem Future.signalSound {command : Command} {shared : Shared} {value : Status}
    (future : Future flags command shared (.ret value)) : SignalSound command shared := by
  obtain ⟨_, here, _⟩ | ⟨_, _, _, _, here, _⟩ | sound := future
  · cases here
  · generalize code : (Code.ret value : Prog) = stopped at here
    cases here with
    | entry => cases code
    | poll polls => cases polls <;> cases code
  · exact sound

/-- The dispatch of an event keeps what holds of the pending command. -/
theorem Pending.dispatch {command : Command} {value : Status} {event : Event}
    (pending : Pending flags command sys.shared (.ret value))
    (stage : sys.shared.track.stage = .pending command)
    (admits : event.endsDisconnect flags sys.shared.cxt = true →
      Sig.disconnected ∈ command.mask → event.answers sys.shared.cxt command = true) :
    Pending flags command (sys.shared.dispatch event) (event.code flags) := by
  have sound := pending.future.signalSound
  have known (signalled : Signalled command (sys.shared.dispatch event)) :
      (sys.shared.dispatch event).track.answeredFor command = true := by
    rw [answeredFor_dispatch event stage, pending.known signalled, Bool.true_or]
  have served : (sys.shared.dispatch event).track.served =
      (sys.shared.track.served || sys.shared.track.answeringFor command) := by
    simp [Shared.dispatch, Track.dispatch, stage]
  refine ⟨pending.blocks, pending.agrees, known, fun done => ?_, ?_⟩
  · rw [served, Bool.or_eq_true] at done
    exact done.elim pending.kept sound.answering
  cases signal : event.signal flags with
  | some pair =>
      obtain ⟨bit, flag⟩ := pair
      have serves := (signals_event signal _).serves signal stage pending.blocks pending.agrees
      exact Or.inr (Or.inr (sound.dispatch serves))
  | none =>
      cases event with
      | scanComp =>
          by_cases scan : command = .getScanResults
          · subst scan
            refine Or.inl ⟨rfl, .entry, sound.stands.imp_left fun both => ?_⟩
            exact (Bool.and_eq_true _ _).mp both
          · exact Or.inr (Or.inr (sound.dispatch (serves_scanComp stage scan)))
      | setParam paramId statusOk =>
          by_cases param : ∃ target, command = .setParam target
          · obtain ⟨target, rfl⟩ := param
            refine Or.inr (Or.inl ⟨target, paramId, statusOk, rfl, .entry, fun told => ?_⟩)
            have answers : (Event.setParam paramId statusOk).answers sys.shared.cxt
                (.setParam target) = true := by
              simpa [Shared.dispatch, Track.dispatch, stage] using told
            simp [Shared.dispatch, Track.dispatch, stage, answers]
          · refine Or.inr (Or.inr (sound.dispatch (serves_setParam stage fun target same => ?_)))
            exact param ⟨target, same⟩
      | join evt =>
          have serves := serves_join stage pending.blocks sound.stands admits
          exact Or.inr (Or.inr (sound.dispatch serves))
      | disconnect =>
          have serves := serves_disconnect stage pending.blocks sound.stands admits
          exact Or.inr (Or.inr (sound.dispatch serves))
      | scanResult | response | other =>
          refine Or.inr (Or.inr (sound.dispatch (Serves.of_aside stage rfl rfl ?_ ?_ ?_)))
          · cases command <;> rfl
          · exact fun _ _ => rfl
          · cases command <;> rfl
      | _ => cases signal

/-! ## The steps of the application -/

/-- A command begins to wait while a handler is on its way. -/
theorem Pending.await {command : Command} {code : Prog} {shared : Shared}
    (handles : Handles flags code) (blocks : command.blocks flags = true)
    (request : command ≠ .getScanResults)
    (silent : ¬ Signalled command (code.solo shared)) (agrees : command.agrees flags = true)
    (stands : command.stands (code.solo shared).cxt = true) :
    Pending flags command (shared.await command) code := by
  have grows := handles.grows.solo Grows.refl Grows.trans shared
  have now : ¬ Signalled command shared := fun signalled => silent (signalled.grows grows)
  refine ⟨Or.inl blocks, agrees, fun signalled => absurd signalled now,
    fun served => absurd served (by simp [Shared.await, Track.await]), Or.inr (Or.inr ?_)⟩
  rw [(handles.await command).solo]
  refine ⟨Or.inl stands, fun told => ?_, fun signalled => absurd signalled silent⟩
  simp [Shared.await, Track.await, Track.answeringFor, request] at told

/-- The results of a scan begin to be waited for while a handler is on its way. -/
theorem Pending.awaitScan {code : Prog} {shared : Shared} (handles : Handles flags code)
    (scan : shared.cxt.scanInProgress = true)
    (silent : ¬ Signalled .getScanResults (code.solo shared)) :
    Pending flags .getScanResults shared.awaitScan code := by
  have grows := handles.grows.solo Grows.refl Grows.trans shared
  have now : ¬ Signalled .getScanResults shared :=
    fun signalled => silent (signalled.grows grows)
  refine ⟨Or.inr rfl, rfl, fun signalled => absurd signalled now,
    fun served => absurd served (by simp [Shared.awaitScan, Track.awaitScan, Track.await]), ?_⟩
  obtain before | ⟨keeps, commutes⟩ := handles.scan
  · exact Or.inl ⟨rfl, before, Or.inl ⟨scan, rfl⟩⟩
  · refine Or.inr (Or.inr ?_)
    rw [commutes.solo]
    have kept := keeps.solo KeepsScan.refl KeepsScan.trans shared
    refine ⟨Or.inl ?_, fun told => ?_, fun signalled => absurd signalled silent⟩
    · exact (Bool.and_eq_true _ _).mpr ⟨kept.scanInProgress.trans scan, rfl⟩
    · simp [Shared.awaitScan, Track.awaitScan, Track.answeringFor] at told

/-- The id of the parameter is published while a handler is on its way. -/
theorem Pending.publish {paramId : UInt8} {code : Prog} {shared : Shared}
    (handles : Handles flags code) (pending : Pending flags (.setParam paramId) shared code) :
    Pending flags (.setParam paramId) (shared.publish paramId) code := by
  refine ⟨pending.blocks, pending.agrees, pending.known, pending.kept, ?_⟩
  obtain ⟨scan, _⟩ | compare | sound := pending.future
  · cases scan
  · exact Or.inr (Or.inl compare)
  · have grows := handles.grows.solo Grows.refl Grows.trans shared
    obtain ⟨target, statusOk, before⟩ | commutes := handles.param
    · refine Or.inr (Or.inl ⟨paramId, target, statusOk, rfl, before, fun told => ?_⟩)
      have later := sound.answered (sound.answering (grows.answering.trans told))
      exact grows.answered.symm.trans later
    · refine Or.inr (Or.inr ?_)
      rw [(commutes paramId).solo]
      exact ⟨Or.inl rfl, sound.answering, sound.answered⟩

/-- What holds at every moment. -/
structure Inv (flags : Flags) (sys : Sys) : Prop where
  disciplined : sys.Disciplined
  follows : Follows flags sys.shared.track.stage (sys.code .app)
  handles : Handles flags (sys.code .wmi)
  pending : ∀ command, sys.shared.track.stage = .pending command →
    Pending flags command sys.shared (sys.code .wmi)
  woken : ∀ command, sys.shared.track.stage = .woken command →
    sys.shared.track.answeredFor command = true

theorem Inv.init (cxt : Cxt) : Inv flags (Sys.init cxt) where
  disciplined _ := rfl
  follows := .ret (by simp [Sys.init, Track.idle]) (by simp [Sys.init, Track.idle])
  handles := Built.handles .ret
  pending _ stage := by simp [Sys.init, Track.idle] at stage
  woken _ stage := by simp [Sys.init, Track.idle] at stage

/-- A command returns only where it may. -/
theorem Follows.returns {stage : Stage} {value : Status}
    (follows : Follows flags stage (.ret value)) :
    (∀ command, stage ≠ .pending command) ∧
      ∀ command, stage = .begun command → command.blocks flags = false := by
  generalize code : (Code.ret value : Prog) = stopped at follows
  cases follows with
  | ret waiting blocks => exact ⟨waiting, blocks⟩
  | _ => cases code

/-- What holds is what was asked for. -/
theorem Inv.sound (inv : Inv flags sys) : Sound flags sys where
  not_lost command stage served := by
    have pending := inv.pending command stage
    obtain served | ⟨told, value, through⟩ := served
    · exact pending.kept served
    rw [through] at pending
    exact pending.future.signalSound.answering told
  not_stale value returned := by
    have follows := inv.follows
    rw [returned] at follows
    obtain ⟨waiting, blocks⟩ := follows.returns
    rw [MayReturn]
    split
    · trivial
    next command stage => exact blocks command stage
    next command stage => exact waiting command stage
    next command stage => exact inv.woken command stage
  released _ returned := System.released inv.disciplined returned

/-- Of the application's step: where its command is, and what holds of it. -/
structure Onward (flags : Flags) (code : Prog) (after : Sys) : Prop where
  follows : Follows flags after.shared.track.stage (after.code .app)
  pending : ∀ command, after.shared.track.stage = .pending command →
    Pending flags command after.shared code
  woken : ∀ command, after.shared.track.stage = .woken command →
    after.shared.track.answeredFor command = true

/-- A step that leaves what is noted of the command, outside its wait. -/
theorem Inv.onward_plain (inv : Inv flags sys)
    (waiting : ∀ command, sys.shared.track.stage ≠ .pending command)
    (same : after.shared.track = sys.shared.track)
    (follows : Follows flags sys.shared.track.stage (after.code .app)) :
    Onward flags (sys.code .wmi) after where
  follows := by rw [same]; exact follows
  pending command stage := absurd (same ▸ stage) (waiting command)
  woken command stage := by
    rw [same] at stage ⊢
    exact inv.woken command stage

/-- A step that leaves the shared state. -/
theorem Inv.onward_same (inv : Inv flags sys) (same : after.shared = sys.shared)
    (follows : Follows flags sys.shared.track.stage (after.code .app)) :
    Onward flags (sys.code .wmi) after where
  follows := by rw [same]; exact follows
  pending command stage := by
    rw [same] at stage ⊢
    exact inv.pending command stage
  woken command stage := by
    rw [same] at stage ⊢
    exact inv.woken command stage

/-- Each step of the application goes on as its command does. -/
theorem Inv.onward (inv : Inv flags sys) (admits : Admits flags sys .app)
    (stepped : sys.advance .app = some after) : Onward flags (sys.code .wmi) after := by
  have follows := inv.follows
  rw [Admits] at admits
  generalize code : sys.code .app = program at follows admits
  generalize at_ : sys.shared.track.stage = stage at follows
  cases follows with
  | ret => simp [System.advance, code] at stepped
  | lock follows =>
      obtain ⟨same, next⟩ := System.advance_lock code stepped
      exact inv.onward_same same (by rw [at_, next]; exact follows)
  | unlock follows =>
      obtain ⟨same, next⟩ := System.advance_unlock code stepped
      exact inv.onward_same same (by rw [at_, next]; exact follows)
  | plain waiting silent follows =>
      obtain ⟨_, shared, next⟩ := System.advance_act code stepped
      refine inv.onward_plain (at_ ▸ waiting) (by rw [shared, silent]) ?_
      rw [at_, next]
      exact follows sys.shared
  | @send command rest blocks follows =>
      obtain ⟨_, shared, next⟩ := System.advance_act code stepped
      have request : command ≠ .getScanResults := by
        rintro rfl
        cases blocks
      obtain ⟨silent, agrees, stands⟩ := admits (Or.inl blocks)
      rw [if_pos blocks] at shared
      have pending := Pending.await inv.handles blocks request silent agrees (stands request)
      refine ⟨?_, fun other stage => ?_, fun other stage => ?_⟩
      · rw [shared, next]
        exact follows
      · rw [shared] at stage ⊢
        cases stage
        exact pending
      · rw [shared] at stage
        cases stage
  | sendOnly blocks follows =>
      obtain ⟨_, shared, next⟩ := System.advance_act code stepped
      rw [blocks] at shared
      exact inv.onward_same shared (by rw [at_, next]; exact follows)
  | @results waits leaves waiting leaving =>
      obtain ⟨_, shared, next⟩ := System.advance_act code stepped
      cases scan : sys.shared.cxt.scanInProgress with
      | false =>
          rw [if_neg (by simp [scan])] at shared next
          exact inv.onward_same shared (by rw [at_, next]; exact leaving)
      | true =>
          rw [if_pos scan] at shared next
          obtain ⟨silent, _, _⟩ := admits (Or.inr ⟨rfl, scan⟩)
          have pending := Pending.awaitScan inv.handles scan silent
          refine ⟨?_, fun other stage => ?_, fun other stage => ?_⟩
          · rw [shared, next]
            exact waiting
          · rw [shared] at stage ⊢
            cases stage
            exact pending
          · rw [shared] at stage
            cases stage
  | @publish paramId rest follows =>
      obtain ⟨_, shared, next⟩ := System.advance_act code stepped
      have pending := (inv.pending _ at_).publish inv.handles
      refine ⟨?_, fun other stage => ?_, fun other stage => ?_⟩
      · rw [shared, next]
        exact at_ ▸ follows
      · rw [shared] at stage ⊢
        obtain rfl : Command.setParam paramId = other := Stage.pending.inj (at_.symm.trans stage)
        exact pending
      · rw [shared] at stage
        cases at_.symm.trans stage
  | @wait command rest follows =>
      obtain ⟨signalled, shared, next⟩ := System.advance_act code stepped
      have answered := (inv.pending _ at_).known (List.any_eq_true.mp signalled)
      have woken : sys.shared.track.wake = { sys.shared.track with stage := .woken command } := by
        rw [Track.wake, at_]
      rw [woken] at shared
      refine ⟨?_, fun other stage => ?_, fun other stage => ?_⟩
      · rw [shared, next]
        exact .plain (by simp) (fun _ => rfl) fun _ => follows
      · rw [shared] at stage
        cases stage
      · rw [shared] at stage ⊢
        cases stage
        exact answered

/-- Every step keeps the locking in order. -/
theorem disciplined_step {action : Action} (disciplined : sys.Disciplined)
    (stepped : WmiCommands.step flags sys action = some after) : after.Disciplined := by
  cases action with
  | call command =>
      cases code : sys.code .app with
      | ret value =>
          simp only [WmiCommands.step, code, Option.some.injEq] at stepped
          subst stepped
          exact System.disciplined_start disciplined code (balanced_command command)
      | _ => simp [WmiCommands.step, code] at stepped
  | app => exact System.disciplined_advance disciplined stepped
  | dispatch event =>
      cases code : sys.code .wmi with
      | ret value =>
          simp only [WmiCommands.step, code, Option.some.injEq] at stepped
          subst stepped
          exact System.disciplined_start disciplined code (balanced_event event)
      | _ => simp [WmiCommands.step, code] at stepped
  | wmi => exact System.disciplined_advance disciplined stepped

/-- Every step keeps what holds. -/
theorem Inv.step {action : Action} (inv : Inv flags sys) (admits : Admits flags sys action)
    (stepped : WmiCommands.step flags sys action = some after) : Inv flags after := by
  have disciplined := disciplined_step inv.disciplined stepped
  cases action with
  | call command =>
      cases code : sys.code .app with
      | ret value =>
          simp only [WmiCommands.step, code, Option.some.injEq] at stepped
          subst stepped
          refine ⟨disciplined, ?_, ?_, fun other stage => ?_, fun other stage => ?_⟩
          · simpa using follows_code command
          · simpa [System.start_code_other] using inv.handles
          · cases stage
          · cases stage
      | _ => simp [WmiCommands.step, code] at stepped
  | app =>
      have onward := inv.onward admits stepped
      have other := System.advance_other stepped (show Thread.wmi ≠ .app by decide)
      refine ⟨disciplined, onward.follows, ?_, ?_,
        onward.woken⟩
      · rw [other]
        exact inv.handles
      · rw [other]
        exact onward.pending
  | dispatch event =>
      cases code : sys.code .wmi with
      | ret value =>
          simp only [WmiCommands.step, code, Option.some.injEq] at stepped
          subst stepped
          have stage : (sys.shared.dispatch event).track.stage = sys.shared.track.stage := by
            rw [Shared.dispatch, Track.dispatch]
            split <;> rfl
          refine ⟨disciplined, ?_, ?_, fun command waits => ?_, fun command woken => ?_⟩
          · have other : (sys.start .wmi (event.code flags)).code .app = sys.code .app :=
              System.start_code_other (by decide) _
            exact stage.symm ▸ other.symm ▸ inv.follows
          · simpa using handles_event event
          · have before := stage.symm.trans waits
            have pending := inv.pending command before
            rw [code] at pending
            rw [Admits, before] at admits
            change Pending flags command (sys.shared.dispatch event)
              ((sys.start .wmi (event.code flags)).code .wmi)
            rw [System.start_code_self]
            exact pending.dispatch before admits
          · have before := stage.symm.trans woken
            have same : (sys.shared.dispatch event).track = sys.shared.track := by
              simp [Shared.dispatch, Track.dispatch, before]
            have answered := inv.woken command before
            rw [← same] at answered
            exact answered
      | _ => simp [WmiCommands.step, code] at stepped
  | wmi =>
      have other := System.advance_other stepped (show Thread.app ≠ .wmi by decide)
      have grows := System.each_step Grows.refl inv.handles.grows stepped
      refine ⟨disciplined, ?_,
        inv.handles.advance stepped, fun command waits => ?_, fun command woken => ?_⟩
      · rw [other, grows.stage]
        exact inv.follows
      · have before := grows.stage.symm.trans waits
        exact (inv.pending command before).advance inv.handles before admits stepped
      · exact answeredFor_grows grows (inv.woken command (grows.stage.symm.trans woken))

/-- In every run whose steps keep clear of what commands and handlers leave each other, from
any context, no wake-up is lost, none is stale, and no command returns with the mutex. -/
theorem commands_sound (flags : Flags) (cxt : Cxt) (actions : List Action) (last : Sys)
    (meets : Runs.Meets (WmiCommands.step flags) (Admits flags) (Sys.init cxt) actions)
    (run : Runs.exec (WmiCommands.step flags) (Sys.init cxt) actions = some last) :
    Sound flags last :=
  (Runs.invariant (fun _ _ _ inv admits stepped => Inv.step inv admits stepped)
    (Inv.init cxt) meets run).sound

/-- On every run at all a command returns without the mutex. -/
theorem command_returns_unlocked (flags : Flags) (cxt : Cxt) (actions : List Action) (last : Sys)
    (run : Runs.exec (WmiCommands.step flags) (Sys.init cxt) actions = some last)
    (value : Status) (returned : last.code .app = .ret value) : last.owner ≠ some .app := by
  have initially : (Sys.init cxt).Disciplined := fun _ => rfl
  have disciplined : last.Disciplined :=
    Runs.invariant_always (fun _ _ _ => disciplined_step) initially run
  exact System.released disciplined returned

end Steps

/-! ## Runs of the driver's own flags -/

/-- A context as `wlan_qapi_init` leaves it, in AP mode. -/
def Cxt.init : Cxt where
  wlanEnabled := false
  wlanQapiError := qapiOk
  bssConnectionStatus := false
  joinStatus := qapiOk
  paramId := 0
  connectInProgress := false
  disconnectInProgress := false
  scanInProgress := false
  waitScanCompEvt := false
  connected := false
  opmode := .ap
  suspendRet := 0

instance (flags : Flags) (sys : Sys) (command : Command) : Decidable (Begins flags sys command) :=
  inferInstanceAs (Decidable (¬ _ ∧ _ ∧ (_ → _)))

instance (flags : Flags) (sys : Sys) : ∀ code, Decidable (AdmitsApp flags sys code)
  | .act (.begins _) _ _ _ => inferInstanceAs (Decidable (_ ∨ _ → _))
  | .act .plain _ _ _ | .act (.compare _) _ _ _ => inferInstanceAs (Decidable True)
  | .ret _ | .lock _ | .unlock _ => inferInstanceAs (Decidable True)

instance (flags : Flags) (cxt : Cxt) (event : Event) :
    ∀ stage, Decidable (AdmitsEvent flags cxt event stage)
  | .pending _ => inferInstanceAs (Decidable (_ → _ → _))
  | .idle | .begun _ | .woken _ => inferInstanceAs (Decidable True)

instance (shared : Shared) : ∀ code, Decidable (AdmitsWmi shared code)
  | .act (.compare _) _ _ _ => inferInstanceAs (Decidable (_ → _))
  | .act .plain _ _ _ | .act (.begins _) _ _ _ => inferInstanceAs (Decidable True)
  | .ret _ | .lock _ | .unlock _ => inferInstanceAs (Decidable True)

instance (flags : Flags) (sys : Sys) : ∀ action, Decidable (Admits flags sys action)
  | .call _ => inferInstanceAs (Decidable True)
  | .app => inferInstanceAs (Decidable (AdmitsApp flags sys (sys.code .app)))
  | .dispatch _ => inferInstanceAs (Decidable (AdmitsEvent ..))
  | .wmi => inferInstanceAs (Decidable (AdmitsWmi ..))

/-- A set-rate command, its event and its return, under the flags of the driver. -/
def setRateRun : List Action :=
  [.call .setRate, .app, .dispatch (.setRate 1), .wmi, .wmi, .wmi, .wmi, .app, .app, .app]

/-- One such run. -/
theorem commands_sound_setRate :
    ∃ last, Runs.exec (WmiCommands.step Flags.init) (Sys.init Cxt.init) setRateRun = some last ∧
      Sound Flags.init last := by
  have meets : Runs.Meets (WmiCommands.step Flags.init) (Admits Flags.init) (Sys.init Cxt.init)
      setRateRun := by decide
  have ends : (Runs.exec (WmiCommands.step Flags.init) (Sys.init Cxt.init) setRateRun).isSome := by
    decide
  obtain ⟨last, run⟩ := Option.isSome_iff_exists.mp ends
  exact ⟨last, run, commands_sound Flags.init Cxt.init setRateRun last meets run⟩

/-- The flags of the driver, but for that of `wmi_off`. -/
def offUnblocked : Flags := { Flags.init with wlanDisableBlockMode := false }

def returned (code : Code Label Shared Status) : Bool := code matches .ret _

/-- With that flag clear a set-rate command waits for a signal that its event does not set. -/
theorem set_rate_wakeup_lost :
    ¬ ∀ (flags : Flags) (cxt : Cxt) (actions : List Action) (last : Sys),
      Runs.exec (WmiCommands.step flags) (Sys.init cxt) actions = some last →
        Sound flags last := by
  intro sound
  have ends : (Runs.exec (WmiCommands.step offUnblocked) (Sys.init Cxt.init)
      (setRateRun.take 6)).map (fun last =>
        (last.shared.track, last.shared.sig .setRate, returned (last.code .wmi))) =
      some (⟨.pending .setRate, true, true, false, false, false⟩, false, true) := by
    decide
  obtain ⟨last, run, shape⟩ := Option.map_eq_some_iff.mp ends
  simp only [Prod.mk.injEq] at shape
  obtain ⟨track, clear, through⟩ := shape
  have returned : ∃ value, last.code .wmi = .ret value := by
    cases code : last.code .wmi with
    | ret value => exact ⟨value, rfl⟩
    | _ => simp [code, returned] at through
  obtain ⟨bit, inMask, set⟩ := (sound offUnblocked Cxt.init _ last run).not_lost .setRate
    (by rw [track]) (Or.inr ⟨by rw [track]; rfl, returned⟩)
  obtain rfl : bit = .setRate := by simpa [Command.mask] using inMask
  exact absurd (clear.symm.trans set) (by simp)

/-- Under the flags of the driver a connect does not block; the disconnect behind it is woken
by the event of the connection. -/
example :
    (Runs.exec (WmiCommands.step Flags.init) (Sys.init Cxt.init)
      (Action.call .connect :: List.replicate 4 Action.app ++
        Action.call .disconnect :: List.replicate 7 Action.app ++
        Action.dispatch (.join ⟨true, true⟩) :: List.replicate 12 Action.wmi ++
        List.replicate 5 Action.app)).map
      (fun last => (last.shared.track.stage, last.shared.track.answered,
        returned (last.code .app))) =
      some (.woken .disconnect, false, true) := by
  decide

end QHal.WmiCommands
