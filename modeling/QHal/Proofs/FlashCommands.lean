/-
Module: QHal.Proofs.FlashCommands
Purpose: What the inner functions of the flash driver do: the commands that they issue, and
  that they leave the context, the lock and XIP as they were.
Trusted boundary: none
Main exports: Issues, issue, IsRead, Waited, readRegInternal_run, pollStatus_spec,
  writeEnable_spec, waitOperationDone_spec, wait_ready
-/
import QHal.Flash.FlashDriver
import QHal.Lib.Steps

namespace QHal.FlashDriver

open Steps

/-- Only these commands were issued between two states. -/
structure Issues (commands : List Issued) (before after : Driver) : Prop where
  issued : after.issued = before.issued ++ commands
  flashInitDone : after.flashInitDone = before.flashInitDone
  state : after.state = before.state
  config : after.config = before.config
  operationParam : after.operationParam = before.operationParam
  mutexLocked : after.mutexLocked = before.mutexLocked
  xipEnabled : before.xipEnabled = true → after.xipEnabled = true

namespace Issues

theorem refl (driver : Driver) : Issues [] driver driver :=
  ⟨(List.append_nil _).symm, rfl, rfl, rfl, rfl, rfl, id⟩

theorem trans {first second : List Issued} {before middle after : Driver}
    (begins : Issues first before middle) (goes : Issues second middle after) :
    Issues (first ++ second) before after where
  issued := by rw [goes.issued, begins.issued, List.append_assoc]
  flashInitDone := goes.flashInitDone.trans begins.flashInitDone
  state := goes.state.trans begins.state
  config := goes.config.trans begins.config
  operationParam := goes.operationParam.trans begins.operationParam
  mutexLocked := goes.mutexLocked.trans begins.mutexLocked
  xipEnabled enabled := goes.xipEnabled (begins.xipEnabled enabled)

end Issues

variable (build : Build) (qspi : Qspi)

/-- A command behind others, as it is issued. -/
def issue (issued : List Issued) (cmd : QspiCmd) (addr : UInt32) (data : Nat → UInt8)
    (dataBytes : Nat) : Issued where
  cmd
  addr
  data
  dataBytes
  accepted := qspi.accepts issued cmd
  answer := qspi.answers issued cmd

/-- The driver behind a command. -/
def Driver.push (driver : Driver) (command : Issued) : Driver :=
  { driver with issued := driver.issued ++ [command] }

/-- The read of a register. -/
def Issued.IsRead (command : Issued) : Prop :=
  ∃ opcode, command.cmd = singleCmd opcode 0 false ∧ command.dataBytes = 1

/-- The read of the status register. -/
def Issued.IsStatusRead (command : Issued) : Prop :=
  command.cmd = singleCmd readStatusCmd 0 false ∧ command.dataBytes = 1

/-- The write enable command. -/
def Issued.IsWriteEnable (command : Issued) : Prop :=
  command.cmd = singleCmd writeEnableCmd 0 false ∧ command.dataBytes = 0

theorem Issued.IsStatusRead.isRead {command : Issued} (reads : command.IsStatusRead) :
    command.IsRead :=
  ⟨readStatusCmd, reads⟩

theorem Issued.IsRead.write {command : Issued} (reads : command.IsRead) :
    command.cmd.write = false := by
  obtain ⟨opcode, isCmd, -⟩ := reads
  rw [isCmd]
  rfl

/-- The status register was polled until its bits had a value; behind that, registers were
read. -/
def Waited (bmask statusValue : UInt8) (reads : List Issued) : Prop :=
  ∃ (polls : List Issued) (last : Issued) (errors : List Issued), reads = polls ++ last :: errors ∧
    (∀ poll ∈ polls, poll.IsStatusRead) ∧ last.IsStatusRead ∧ last.accepted = true ∧
    last.answer 0 &&& bmask = statusValue ∧ ∀ error ∈ errors, error.IsRead

/-- The QSPI driver accepts the commands without an address. -/
def Qspi.AcceptsSingle : Prop :=
  ∀ issued opcode write, qspi.accepts issued (singleCmd opcode 0 write) = true

theorem fermQspi_acceptsSingle (device : List Issued → QspiCmd → Nat → UInt8) :
    (fermQspi device).AcceptsSingle :=
  fun _ _ _ => rfl

/-! ## Commands and registers -/

theorem runCmd_bind {α : Type} (cmd : QspiCmd) (addr : UInt32) (data : Nat → UInt8)
    (dataBytes : Nat) (rest : Bool × (Nat → UInt8) → DriverM α) (driver : Driver) :
    (drvQspiRunCmd qspi cmd addr data dataBytes >>= rest) driver =
      rest
        (qspi.accepts driver.issued cmd, fun i =>
          if qspi.accepts driver.issued cmd ∧ cmd.write = false ∧ i < dataBytes then
            qspi.answers driver.issued cmd i
          else data i)
        (driver.push (issue qspi driver.issued cmd addr data dataBytes)) := rfl

theorem issues_issue (cmd : QspiCmd) (addr : UInt32) (data : Nat → UInt8) (dataBytes : Nat)
    (driver : Driver) :
    Issues [issue qspi driver.issued cmd addr data dataBytes] driver
      (driver.push (issue qspi driver.issued cmd addr data dataBytes)) :=
  ⟨rfl, rfl, rfl, rfl, rfl, rfl, id⟩

@[simp] theorem singleCmd_write (opcode addrBytes : UInt8) (write : Bool) :
    (singleCmd opcode addrBytes write).write = write := rfl

/-- The read of a register into a buffer that is there if it is needed. -/
theorem readRegInternal_run (regOpcode len : UInt8) (regValue : Option (Nat → UInt8))
    (present : ¬(len > 0 ∧ regValue.isNone = true)) (driver : Driver) :
    ∃ next,
      drvFlashReadRegInternal build qspi regOpcode len regValue driver =
        .ok ((if qspi.accepts driver.issued (singleCmd regOpcode 0 false) then .done else .fail,
          fun i =>
            if qspi.accepts driver.issued (singleCmd regOpcode 0 false) ∧ i < len.toNat then
              qspi.answers driver.issued (singleCmd regOpcode 0 false) i
            else regValue.getD (fun _ => 0) i), next) ∧
      Issues [issue qspi driver.issued (singleCmd regOpcode 0 false) 0
        (regValue.getD fun _ => 0) len.toNat] driver next := by
  refine ⟨{ driver with
    issued := driver.issued ++
      [issue qspi driver.issued (singleCmd regOpcode 0 false) 0 (regValue.getD fun _ => 0)
        len.toNat]
    xipEnabled := build.xipSupport || driver.xipEnabled }, ?_, ?_⟩
  · unfold drvFlashReadRegInternal
    rw [if_neg present]
    cases xip : build.xipSupport <;>
      cases accepts : qspi.accepts driver.issued (singleCmd regOpcode 0 false) <;>
      simp [drvQspiDisableXipMode, drvQspiRestoreXipMode, runCmd_bind, Driver.push, accepts]
  · exact ⟨rfl, rfl, rfl, rfl, rfl, rfl, fun enabled => by rw [enabled]; exact Bool.or_true _⟩

/-- A register is read into a local byte. -/
theorem readByte_run (regOpcode : UInt8) (value : Nat → UInt8) (driver : Driver) :
    ∃ read next,
      drvFlashReadRegInternal build qspi regOpcode 1 (some value) driver = .ok (read, next) ∧
      Issues [issue qspi driver.issued (singleCmd regOpcode 0 false) 0 value 1] driver next ∧
      (qspi.accepts driver.issued (singleCmd regOpcode 0 false) = true →
        read.1 = .done ∧
          read.2 0 = qspi.answers driver.issued (singleCmd regOpcode 0 false) 0) := by
  obtain ⟨next, ends, issues⟩ :=
    readRegInternal_run build qspi regOpcode 1 (some value) (by simp) driver
  refine ⟨_, next, ends, issues, fun accepts => ?_⟩
  simp [accepts]

theorem readConfig_bind {α : Type} {driver : Driver} {config : FlashConfigData}
    (isConfig : driver.config = some config) (rest : FlashConfigData → DriverM α) :
    (readConfig >>= rest) driver =
      rest config { driver with configReads := driver.configReads + 1 } := by
  refine run_bind ?_ rest
  simp [readConfig, isConfig]

theorem errStatus_run (operation : Operation) {driver : Driver}
    (configured : driver.config.isSome) :
    ∃ err next, errStatus operation driver = .ok (err, next) ∧ Issues [] driver next := by
  obtain ⟨config, isConfig⟩ := Option.isSome_iff_exists.mp configured
  have issues : Issues [] driver { driver with configReads := driver.configReads + 1 } :=
    ⟨(List.append_nil _).symm, rfl, rfl, rfl, rfl, rfl, id⟩
  cases operation with
  | write => exact ⟨_, _, readConfig_bind isConfig _, issues⟩
  | erase => exact ⟨_, _, readConfig_bind isConfig _, issues⟩
  | other => exact ⟨_, _, rfl, Issues.refl driver⟩

/-- `drv_flash_check_error` reads at most the error register, and finds no error in a
register that is 0. -/
theorem checkError_spec (operation : Operation) {driver : Driver}
    (configured : driver.config.isSome) :
    ∃ status next reads, drvFlashCheckError build qspi operation driver = .ok (status, next) ∧
      Issues reads driver next ∧ (∀ read ∈ reads, read.IsRead) ∧
      (qspi.AcceptsSingle →
        (∀ opcode, qspi.answers driver.issued (singleCmd opcode 0 false) 0 = 0) →
        status = .done) := by
  obtain ⟨err, middle, begins, first⟩ := errStatus_run operation configured
  unfold drvFlashCheckError
  rw [run_bind begins]
  by_cases unset : err.2 = 0
  · rw [if_pos unset]
    exact ⟨_, _, _, rfl, first, by simp, fun _ _ => rfl⟩
  · rw [if_neg unset]
    obtain ⟨read, next, goes, second, shows⟩ :=
      readByte_run build qspi err.2 (fun _ => 0) middle
    rw [run_bind goes]
    refine ⟨if read.1 = .done ∧ read.2 0 &&& err.1 ≠ 0 then .fail else read.1, next, _, ?_,
      first.trans second, ?_, fun accepts clear => ?_⟩
    · split <;> rfl
    · intro command isCommand
      rw [List.nil_append, List.mem_singleton] at isCommand
      rw [isCommand]
      exact ⟨err.2, rfl, rfl⟩
    · obtain ⟨done, value⟩ := shows (accepts _ _ _)
      have same : middle.issued = driver.issued := first.issued.trans (List.append_nil _)
      rw [value, same, clear, if_neg (by simp), done]

/-! ## Polls -/

/-- The polls read the status register until it shows the value, and then the error
register. -/
theorem pollStatus_spec (operation : Operation) (bmask statusValue : UInt8) (polls : Nat)
    (result : Nat → UInt8) {driver : Driver} (configured : driver.config.isSome) :
    ∃ status next reads,
      pollStatus build qspi operation bmask statusValue polls result driver =
        .ok (status, next) ∧
      Issues reads driver next ∧ (∀ read ∈ reads, read.IsRead) ∧
      (qspi.AcceptsSingle → status = .done → Waited bmask statusValue reads) := by
  induction polls generalizing driver result with
  | zero => exact ⟨.fail, driver, [], rfl, Issues.refl driver, by simp, fun _ => nofun⟩
  | succ polls ih =>
      obtain ⟨read, middle, begins, first, shows⟩ :=
        readByte_run build qspi readStatusCmd result driver
      have kept : middle.config.isSome := by rwa [first.config]
      have isPoll : (issue qspi driver.issued (singleCmd readStatusCmd 0 false) 0 result
        1).IsStatusRead := ⟨rfl, rfl⟩
      unfold pollStatus
      rw [run_bind begins]
      by_cases shown : read.2 0 &&& bmask = statusValue
      · rw [if_pos shown]
        obtain ⟨status, next, errors, goes, second, are, -⟩ :=
          checkError_spec build qspi operation kept
        refine ⟨status, next, _, goes, first.trans second, ?_, fun accepts _ => ?_⟩
        · exact List.forall_mem_cons.mpr ⟨isPoll.isRead, are⟩
        · have accepted := accepts driver.issued readStatusCmd false
          rw [(shows accepted).2] at shown
          exact ⟨[], _, errors, rfl, nofun, isPoll, accepted, shown, are⟩
      · rw [if_neg shown]
        obtain ⟨status, next, reads, goes, second, are, waited⟩ := ih read.2 kept
        refine ⟨status, next, _, goes, first.trans second, ?_, fun accepts done => ?_⟩
        · exact List.forall_mem_cons.mpr ⟨isPoll.isRead, are⟩
        · obtain ⟨before, last, errors, parts, polled, rest⟩ := waited accepts done
          refine ⟨_ :: before, last, errors, ?_, List.forall_mem_cons.mpr ⟨isPoll, polled⟩, rest⟩
          rw [parts]
          rfl

/-- A poll that finds the value at once. -/
theorem pollStatus_shown (operation : Operation) {bmask statusValue : UInt8} (polls : Nat)
    (result : Nat → UInt8) {driver : Driver}
    (accepts : qspi.accepts driver.issued (singleCmd readStatusCmd 0 false) = true)
    (shown : qspi.answers driver.issued (singleCmd readStatusCmd 0 false) 0 &&& bmask =
      statusValue) :
    ∃ next,
      pollStatus build qspi operation bmask statusValue (polls + 1) result driver =
        drvFlashCheckError build qspi operation next ∧
      Issues [issue qspi driver.issued (singleCmd readStatusCmd 0 false) 0 result 1]
        driver next := by
  obtain ⟨read, next, begins, first, shows⟩ := readByte_run build qspi readStatusCmd result driver
  refine ⟨next, ?_, first⟩
  unfold pollStatus
  rw [run_bind begins, (shows accepts).2, if_pos shown]

/-- Write enable: the command, and the polls for its bit. -/
theorem writeEnable_spec {driver : Driver} (configured : driver.config.isSome) :
    ∃ status next enable reads, drvFlashWriteEnable build qspi driver = .ok (status, next) ∧
      Issues (enable :: reads) driver next ∧ enable.IsWriteEnable ∧
      (∀ read ∈ reads, read.IsRead) ∧
      (qspi.AcceptsSingle → enable.accepted = true ∧
        (status = .done → Waited statusWrEnMask statusWrEnMask reads)) := by
  have kept : (driver.push (issue qspi driver.issued (singleCmd writeEnableCmd 0 false) 0
    (fun _ => 0) 0)).config.isSome := configured
  unfold drvFlashWriteEnable
  rw [runCmd_bind]
  obtain ⟨status, next, reads, goes, second, are, waited⟩ :=
    pollStatus_spec build qspi .other statusWrEnMask statusWrEnMask
      (readStatusTimeout / readStatusPollingUsec) (fun _ => 0) kept
  refine ⟨status, next, _, reads, goes, (issues_issue qspi _ _ _ _ driver).trans second,
    ⟨rfl, rfl⟩, are, fun accepts => ⟨accepts _ _ _, waited accepts⟩⟩

/-- The wait behind a program or an erase. -/
theorem waitOperationDone_spec (timeout statusPollingUsec : Nat) (operation : Operation)
    (bmask statusValue : UInt8) {driver : Driver} (configured : driver.config.isSome) :
    ∃ status next reads,
      drvFlashWaitOperationDone build qspi timeout statusPollingUsec operation bmask statusValue
        driver = .ok (status, next) ∧
      Issues reads driver next ∧ (∀ read ∈ reads, read.IsRead) ∧
      (qspi.AcceptsSingle → status = .done → Waited bmask statusValue reads) :=
  pollStatus_spec build qspi operation bmask statusValue _ _ configured

/-! ## A device that is always ready -/

/-- A device that shows the write enable bit behind a write enable, and else no bit. -/
def readyDevice (issued : List Issued) (_ : QspiCmd) (_ : Nat) : UInt8 :=
  if issued.getLast?.any fun last =>
      last.cmd = singleCmd writeEnableCmd 0 false && last.dataBytes = 0 then
    statusWrEnMask
  else 0

theorem checkError_ready (operation : Operation) {driver : Driver}
    (configured : driver.config.isSome) {issued : List Issued} {last : Issued}
    (isIssued : driver.issued = issued ++ [last]) (isRead : last.dataBytes = 1) :
    ∃ next commands, drvFlashCheckError build (fermQspi readyDevice) operation driver =
      .ok (.done, next) ∧ Issues commands driver next ∧
      ∀ command ∈ commands, command.cmd.write = false := by
  obtain ⟨status, next, reads, ends, issues, are, clear⟩ :=
    checkError_spec build (fermQspi readyDevice) operation configured
  have done : status = .done := by
    refine clear (fermQspi_acceptsSingle _) fun opcode => ?_
    simp [fermQspi, readyDevice, isIssued, isRead]
  exact ⟨next, reads, by rw [ends, done], issues, fun read isRead => (are read isRead).write⟩

/-- On a device that is always ready, a poll that finds what it waits for ends the wait. -/
theorem wait_ready (operation : Operation) {timeout statusPollingUsec : Nat}
    {bmask statusValue : UInt8} (polls : 0 < timeout / statusPollingUsec) {driver : Driver}
    (configured : driver.config.isSome)
    (shown : readyDevice driver.issued (singleCmd readStatusCmd 0 false) 0 &&& bmask =
      statusValue) :
    ∃ next commands,
      drvFlashWaitOperationDone build (fermQspi readyDevice) timeout statusPollingUsec operation
        bmask statusValue driver = .ok (.done, next) ∧ Issues commands driver next ∧
      ∀ command ∈ commands, command.cmd.write = false := by
  obtain ⟨more, isMore⟩ := Nat.exists_eq_succ_of_ne_zero (Nat.pos_iff_ne_zero.mp polls)
  unfold drvFlashWaitOperationDone
  rw [isMore]
  obtain ⟨middle, begins, first⟩ :=
    pollStatus_shown build (fermQspi readyDevice) operation more (fun _ => 0) rfl shown
  obtain ⟨next, commands, ends, second, reads⟩ :=
    checkError_ready build operation (by rwa [first.config]) first.issued rfl
  exact ⟨next, _, begins.trans ends, first.trans second, List.forall_mem_cons.mpr ⟨rfl, reads⟩⟩

theorem readyDevice_idle (issued : List Issued) (cmd : QspiCmd) :
    readyDevice issued cmd 0 &&& progEraseWriteBusyBmsk = 0 := by
  unfold readyDevice
  split <;> decide

theorem writeEnable_ready {driver : Driver} (configured : driver.config.isSome) :
    ∃ next commands, drvFlashWriteEnable build (fermQspi readyDevice) driver = .ok (.done, next) ∧
      Issues commands driver next ∧ ∀ command ∈ commands, command.cmd.write = false := by
  have kept : (driver.push (issue (fermQspi readyDevice) driver.issued
    (singleCmd writeEnableCmd 0 false) 0 (fun _ => 0) 0)).config.isSome := configured
  have polls : 0 < readStatusTimeout / readStatusPollingUsec := by decide
  unfold drvFlashWriteEnable
  rw [runCmd_bind]
  obtain ⟨next, commands, ends, second, reads⟩ :=
    wait_ready build .other polls kept (show _ &&& statusWrEnMask = statusWrEnMask by
      simp [readyDevice, Driver.push, issue])
  exact ⟨next, _, ends, (issues_issue _ _ _ _ _ driver).trans second,
    List.forall_mem_cons.mpr ⟨rfl, reads⟩⟩

/-! ## Operations -/

/-- An operation that is refused before it takes the lock. -/
theorem operate_refused (state : UInt8) (body : DriverM FlashStatus) {driver : Driver}
    (refused : driver.flashInitDone = false ∨ driver.state ≠ 0) :
    operate build state body driver =
      .ok (if driver.flashInitDone then .busy else .fail, driver) := by
  unfold operate
  rw [run_get_bind]
  cases initialised : driver.flashInitDone with
  | false => rfl
  | true =>
      have busy : driver.state ≠ 0 := refused.resolve_left (by rw [initialised]; decide)
      simp [busy]

/-- An erase on a driver that is not initialised, or busy, has looked at the configuration. -/
theorem drvFlashErase_refused {config : FlashConfigData} {eraseType : Option Flash.EraseType}
    {start cnt : UInt32} {driver : Driver} (isConfig : driver.config = some config)
    (refused : driver.flashInitDone = false ∨ driver.state ≠ 0) :
    drvFlashErase build qspi eraseType start cnt driver =
      .ok (if driver.flashInitDone then .busy else .fail,
        { driver with configReads := driver.configReads + 1 }) := by
  unfold drvFlashErase
  rw [readConfig_bind isConfig]
  exact operate_refused build _ _ refused

theorem mutexLock_bind {α : Type} {driver : Driver} (unlocked : driver.mutexLocked = false)
    (rest : Unit → DriverM α) :
    (mutexLock >>= rest) driver = rest () { driver with mutexLocked := true } := by
  refine run_bind ?_ rest
  simp [mutexLock, unlocked]

/-- An operation on a driver that is free issues the commands of its body, and gives back
what it takes. -/
theorem operate_run (state : UInt8) (body : DriverM FlashStatus) {driver : Driver}
    (initialised : driver.flashInitDone = true) (free : driver.state = 0)
    (unlocked : driver.mutexLocked = false) :
    ∃ entered, entered.issued = driver.issued ∧ entered.config = driver.config ∧
      ∀ status commands after, body entered = .ok (status, after) →
        Issues commands entered after →
        ∃ next, operate build state body driver = .ok (status, next) ∧
          Issues commands driver next := by
  refine ⟨{ driver with
    state
    mutexLocked := !build.nonOs
    xipEnabled := !build.xipSupport && driver.xipEnabled }, rfl, rfl, ?_⟩
  intro status commands after ends issues
  refine ⟨{ after with
    state := 0
    mutexLocked := false
    xipEnabled := build.xipSupport || after.xipEnabled }, ?_, ?_⟩
  · have held : after.mutexLocked = !build.nonOs := issues.mutexLocked
    unfold operate
    rw [run_get_bind, if_neg (by rw [initialised]; decide), run_get_bind,
      if_neg (not_not.mpr free)]
    cases os : build.nonOs <;> cases xip : build.xipSupport
    all_goals
      simp only [os, xip, Bool.not_true, Bool.not_false, Bool.false_and, Bool.true_and,
        Bool.false_or, Bool.true_or] at ends held ⊢
      simp only [Bool.false_eq_true, if_true, if_false, mutexLock_bind unlocked, setState,
        drvQspiDisableXipMode, drvQspiRestoreXipMode, mutexUnlock, run_modify_bind, unlocked]
      rw [run_bind ends]
      simp only [run_modify_bind, run_pure, held]
  · refine ⟨issues.issued, issues.flashInitDone, free.symm, issues.config, issues.operationParam,
      unlocked.symm, ?_⟩
    intro enabled
    cases xip : build.xipSupport with
    | true => rfl
    | false =>
        rw [Bool.false_or]
        exact issues.xipEnabled (by rw [xip, enabled]; rfl)

/-- The end of the program or erase that is announced to XIP. -/
theorem endPeState_run (body : DriverM FlashStatus) {driver after : Driver}
    {status : FlashStatus} {commands : List Issued} (ends : body driver = .ok (status, after))
    (issues : Issues commands driver after) :
    ∃ next,
      (do
        let status ← body
        if build.xipSupport then
          drvQspiXipSetPeState false
        return status : DriverM FlashStatus) driver = .ok (status, next) ∧
      Issues commands driver next := by
  rw [run_bind ends]
  cases build.xipSupport with
  | false => exact ⟨after, rfl, issues⟩
  | true =>
      exact ⟨{ after with peState := false }, rfl, issues.issued, issues.flashInitDone,
        issues.state, issues.config, issues.operationParam, issues.mutexLocked, issues.xipEnabled⟩

/-- An operation that announces a program or an erase, on a driver that is free. -/
theorem operate_endPeState_run (state : UInt8) (body : DriverM FlashStatus) {driver : Driver}
    (initialised : driver.flashInitDone = true) (free : driver.state = 0)
    (unlocked : driver.mutexLocked = false) :
    ∃ entered, entered.config = driver.config ∧
      ∀ status commands after, body entered = .ok (status, after) →
        Issues commands entered after →
        ∃ next,
          operate build state (do
            let status ← body
            if build.xipSupport then
              drvQspiXipSetPeState false
            return status) driver = .ok (status, next) ∧
          Issues commands driver next := by
  obtain ⟨entered, -, sameConfig, runs⟩ := operate_run build state (do
    let status ← body
    if build.xipSupport then
      drvQspiXipSetPeState false
    return status) initialised free unlocked
  refine ⟨entered, sameConfig, fun status commands after ends issues => ?_⟩
  obtain ⟨ended, whole, kept⟩ := endPeState_run build body ends issues
  exact runs status commands ended whole kept

end QHal.FlashDriver
