/-
Module: QHal.Proofs.FlashCalls
Purpose: Sequences of calls of the flash driver: each call returns with the state, the lock
  and XIP given back, and before an initialisation the operations fail without a look at the
  configuration, but for an erase and for a block that two failed initialisations free.
Trusted boundary: none
Main exports: Moves, InitEnds, initBody_run, drvFlashInit_run, drvFlashInit_again, InOrder,
  call_returns, calls_sound_iff
-/
import Mathlib.Tactic.ByContra
import QHal.Lib.Runs
import QHal.Proofs.FlashCommands

namespace QHal.FlashDriver

open Steps

variable (build : Build) (qspi : Qspi) (entries : List FlashConfigData)

/-! ## The frame of the inner functions -/

/-- Some commands were issued, and no more. -/
def Moves (before after : Driver) : Prop := ∃ commands, Issues commands before after

/-- The configuration is there. -/
def Configured (driver : Driver) : Prop := driver.config.isSome

theorem moves_frame : Frame Configured Moves where
  refl driver := ⟨[], Issues.refl driver⟩
  trans _ _ _ := fun ⟨_, begins⟩ ⟨_, goes⟩ => ⟨_, begins.trans goes⟩
  stable _ _ holds := fun ⟨_, issues⟩ => by
    unfold Configured
    rwa [issues.config]

theorem readConfig_keeps : Keeps Configured Moves readConfig := by
  intro driver configured
  obtain ⟨config, isConfig⟩ := Option.isSome_iff_exists.mp configured
  refine ⟨config, { driver with configReads := driver.configReads + 1 }, ?_, [], ?_⟩
  · simp [readConfig, isConfig]
  · exact ⟨(List.append_nil _).symm, rfl, rfl, rfl, rfl, rfl, id⟩

/-- A register is read with or without a configuration. -/
theorem readRegInternal_keeps (regOpcode len : UInt8) (regValue : Option (Nat → UInt8)) :
    Keeps (fun _ => True) Moves (drvFlashReadRegInternal build qspi regOpcode len regValue) := by
  intro driver _
  by_cases absent : len > 0 ∧ regValue.isNone = true
  · refine ⟨(.invalidParameter, regValue.getD fun _ => 0), driver, ?_, [], Issues.refl driver⟩
    unfold drvFlashReadRegInternal
    rw [if_pos absent]
    rfl
  · obtain ⟨next, ends, issues⟩ := readRegInternal_run build qspi regOpcode len regValue absent
      driver
    exact ⟨_, next, ends, _, issues⟩

theorem runCmd_keeps (cmd : QspiCmd) (addr : UInt32) (data : Nat → UInt8) (dataBytes : Nat) :
    Keeps (fun _ => True) Moves (drvQspiRunCmd qspi cmd addr data dataBytes) :=
  fun driver _ => ⟨_, _, rfl, _, issues_issue qspi cmd addr data dataBytes driver⟩

theorem readReg_keeps (regOpcode len : UInt8) (regValue : Option (Nat → UInt8)) :
    Keeps Configured Moves (drvFlashReadRegInternal build qspi regOpcode len regValue) :=
  (readRegInternal_keeps build qspi regOpcode len regValue).mono (fun _ _ => trivial)
    fun _ _ => id

theorem writeEnable_keeps : Keeps Configured Moves (drvFlashWriteEnable build qspi) := by
  intro driver configured
  obtain ⟨status, next, enable, reads, ends, issues, -⟩ :=
    writeEnable_spec build qspi configured
  exact ⟨status, next, ends, _, issues⟩

theorem waitOperationDone_keeps (timeout statusPollingUsec : Nat) (operation : Operation)
    (bmask statusValue : UInt8) :
    Keeps Configured Moves
      (drvFlashWaitOperationDone build qspi timeout statusPollingUsec operation bmask
        statusValue) := by
  intro driver configured
  obtain ⟨status, next, reads, ends, issues, -⟩ :=
    waitOperationDone_spec build qspi timeout statusPollingUsec operation bmask statusValue
      configured
  exact ⟨status, next, ends, _, issues⟩

theorem waitReady_keeps : Keeps Configured Moves (drvFlashWaitReady build qspi) :=
  waitOperationDone_keeps build qspi _ _ _ _ _

/-- A status that ends a function early. -/
theorem stop_keeps (status : FlashStatus) {rest : DriverM FlashStatus}
    (goes : Keeps Configured Moves rest) :
    Keeps Configured Moves (if status ≠ .done then return status else rest) :=
  Keeps.ite (fun _ => Keeps.pure moves_frame status) fun _ => goes

theorem writeRegInternal_keeps (regOpcode len : UInt8) (regValue : Option (Nat → UInt8)) :
    Keeps Configured Moves (drvFlashWriteRegInternal build qspi regOpcode len regValue) := by
  refine Keeps.ite (fun _ => Keeps.pure moves_frame _) fun _ => ?_
  refine Keeps.bind moves_frame (writeEnable_keeps build qspi) fun status => stop_keeps _ ?_
  refine Keeps.bind moves_frame ((runCmd_keeps qspi _ _ _ _).mono (fun _ _ => trivial)
    fun _ _ => id) fun run => ?_
  exact Keeps.ite (fun _ => Keeps.pure moves_frame _) fun _ => Keeps.pure moves_frame _

/-- A register is written, and the device waited for. -/
theorem writeWait_keeps (regOpcode len : UInt8) (regValue : Option (Nat → UInt8)) :
    Keeps Configured Moves (do
      let written ← drvFlashWriteRegInternal build qspi regOpcode len regValue
      if written ≠ .done then
        return written
      drvFlashWaitReady build qspi) :=
  Keeps.bind moves_frame (writeRegInternal_keeps build qspi regOpcode len regValue) fun _ =>
    stop_keeps _ (waitReady_keeps build qspi)

theorem setHighPerformance_keeps :
    Keeps Configured Moves (drvFlashSetHighPerformance build qspi) := by
  refine Keeps.bind moves_frame (readReg_keeps build qspi _ _ _) fun status => ?_
  refine Keeps.bind moves_frame (readReg_keeps build qspi _ _ _) fun cfg => ?_
  exact Keeps.bind moves_frame readConfig_keeps fun config => writeWait_keeps build qspi _ _ _

theorem enableQuadMode145_keeps :
    Keeps Configured Moves (drvFlashEnableQuadMode145 build qspi) := by
  refine Keeps.bind moves_frame (readReg_keeps build qspi _ _ _) fun statusReg1 =>
    stop_keeps _ ?_
  refine Keeps.bind moves_frame (readReg_keeps build qspi _ _ _) fun statusReg2 =>
    stop_keeps _ ?_
  exact Keeps.ite (fun _ => Keeps.pure moves_frame _) fun _ => writeWait_keeps build qspi _ _ _

theorem enableQuadBit_keeps (readOpcode writeOpcode bit : UInt8) :
    Keeps Configured Moves (enableQuadBit build qspi readOpcode writeOpcode bit) := by
  refine Keeps.bind moves_frame (readReg_keeps build qspi _ _ _) fun statusReg => stop_keeps _ ?_
  exact Keeps.ite (fun _ => Keeps.pure moves_frame _) fun _ => writeWait_keeps build qspi _ _ _

theorem enableQuadMode_keeps (quadMode : UInt8) :
    Keeps Configured Moves (drvFlashEnableQuadMode build qspi quadMode) := by
  refine Keeps.ite (fun _ => Keeps.pure moves_frame _) fun _ => ?_
  refine Keeps.ite (fun _ => enableQuadMode145_keeps build qspi) fun _ => ?_
  refine Keeps.ite (fun _ => enableQuadBit_keeps build qspi _ _ _) fun _ => ?_
  exact Keeps.ite (fun _ => enableQuadBit_keeps build qspi _ _ _) fun _ =>
    Keeps.pure moves_frame _

theorem clearSpiBits_keeps (regReadOpcode regWriteOpcode bitsMask : UInt8) :
    Keeps Configured Moves
      (drvFlashClearSpiBits build qspi regReadOpcode regWriteOpcode bitsMask) := by
  refine Keeps.ite (fun _ => Keeps.pure moves_frame _) fun _ => ?_
  refine Keeps.bind moves_frame (readReg_keeps build qspi _ _ _) fun read => ?_
  refine Keeps.ite (fun _ => Keeps.pure moves_frame _) fun _ => ?_
  refine Keeps.bind moves_frame (writeRegInternal_keeps build qspi _ _ _) fun written =>
    stop_keeps _ ?_
  refine Keeps.bind moves_frame (waitReady_keeps build qspi) fun ready => stop_keeps _ ?_
  refine Keeps.bind moves_frame (readReg_keeps build qspi _ _ _) fun back => ?_
  exact Keeps.ite (fun _ => Keeps.pure moves_frame _) fun _ => Keeps.pure moves_frame _

theorem clearSpiBitsList_keeps (list : List (UInt8 × UInt8 × UInt8)) :
    Keeps Configured Moves (drvFlashClearSpiBitsList build qspi list) := by
  induction list with
  | nil => exact Keeps.pure moves_frame _
  | cons bits rest ih =>
      exact Keeps.bind moves_frame (clearSpiBits_keeps build qspi _ _ _) fun status =>
        stop_keeps _ ih

theorem clearWriteProtection_keeps :
    Keeps Configured Moves (drvFlashClearWriteProtection build qspi) := by
  refine Keeps.bind moves_frame readConfig_keeps fun config => ?_
  refine Keeps.ite (fun _ => clearSpiBitsList_keeps build qspi _) fun _ => ?_
  exact Keeps.ite (fun _ => clearSpiBits_keeps build qspi _ _ _) fun _ =>
    Keeps.pure moves_frame _

/-! ## The operations -/

theorem setPeState_keeps (enable : Bool) :
    Keeps Configured Moves (drvQspiXipSetPeState enable) :=
  Keeps.modify fun _ _ => ⟨[], (List.append_nil _).symm, rfl, rfl, rfl, rfl, rfl, id⟩

theorem run_keeps (cmd : QspiCmd) (addr : UInt32) (data : Nat → UInt8) (dataBytes : Nat) :
    Keeps Configured Moves (drvQspiRunCmd qspi cmd addr data dataBytes) :=
  (runCmd_keeps qspi cmd addr data dataBytes).mono (fun _ _ => trivial) fun _ _ => id

theorem readBody_keeps (address byteCnt : UInt32) (buffer : Option (Nat → UInt8))
    (readCb : Bool) : Keeps Configured Moves (readBody qspi address byteCnt buffer readCb) := by
  cases buffer with
  | none => exact Keeps.pure moves_frame _
  | some buffer =>
      refine Keeps.ite (fun _ => Keeps.pure moves_frame _) fun _ => ?_
      refine Keeps.bind moves_frame readConfig_keeps fun config => ?_
      refine Keeps.ite (fun _ => Keeps.pure moves_frame _) fun _ => ?_
      refine Keeps.ite (fun _ => Keeps.pure moves_frame _) fun _ => ?_
      refine Keeps.bind moves_frame (run_keeps qspi _ _ _ _) fun run => ?_
      exact Keeps.ite (fun _ => Keeps.pure moves_frame _) fun _ => Keeps.pure moves_frame _

theorem writePages_keeps (pageWriteCmd : QspiCmd) (writeCb : Bool) (address byteCnt : UInt32)
    (buffer : Nat → UInt8) :
    Keeps Configured Moves (writePages build qspi pageWriteCmd writeCb address byteCnt buffer) := by
  induction isCount : byteCnt.toNat using Nat.strongRecOn
    generalizing address byteCnt buffer with
  | ind left ih =>
    rw [writePages]
    by_cases empty : byteCnt = 0
    · rw [dif_pos empty]
      exact Keeps.pure moves_frame _
    · rw [dif_neg empty]
      have rest := ih _ (isCount ▸
        Flash.rest_lt (show 0 < Flash.pageSizeInBytes.toNat by decide) address empty)
        (address + Flash.sliceSize Flash.pageSizeInBytes address byteCnt) _
        (fun i => buffer (i + (Flash.sliceSize Flash.pageSizeInBytes address byteCnt).toNat)) rfl
      refine Keeps.bind moves_frame (writeEnable_keeps build qspi) fun enabled => stop_keeps _ ?_
      have goes := Keeps.bind moves_frame
        (waitOperationDone_keeps build qspi writeTimeout writeStatusPollingUsec .write
          progEraseWriteBusyBmsk 0) fun status => stop_keeps status rest
      refine Keeps.ite (fun _ => ?_) fun _ => goes
      exact Keeps.bind moves_frame (run_keeps qspi _ _ _ _) fun _ => goes

theorem writeBody_keeps (address byteCnt : UInt32) (buffer : Option (Nat → UInt8))
    (writeCb : Bool) :
    Keeps Configured Moves (writeBody build qspi address byteCnt buffer writeCb) := by
  cases buffer with
  | none => exact Keeps.pure moves_frame _
  | some buffer =>
      refine Keeps.ite (fun _ => Keeps.pure moves_frame _) fun _ => ?_
      refine Keeps.bind moves_frame readConfig_keeps fun config => ?_
      refine Keeps.ite (fun _ => Keeps.pure moves_frame _) fun _ => ?_
      have goes := writePages_keeps build qspi config.pageWriteCmd writeCb address byteCnt buffer
      refine Keeps.ite (fun _ => ?_) fun _ => goes
      exact Keeps.bind moves_frame (setPeState_keeps true) fun _ => goes

theorem eraseUnits_keeps (eraseCmd : QspiCmd) (size : UInt32) (timeout pollingMsec cnt : Nat)
    (address : UInt32) :
    Keeps Configured Moves
      (eraseUnits build qspi eraseCmd size timeout pollingMsec cnt address) := by
  induction cnt generalizing address with
  | zero => exact Keeps.pure moves_frame _
  | succ cnt ih =>
      refine Keeps.bind moves_frame (writeEnable_keeps build qspi) fun enabled => stop_keeps _ ?_
      refine Keeps.bind moves_frame (run_keeps qspi _ _ _ _) fun _ => ?_
      exact Keeps.bind moves_frame (waitOperationDone_keeps build qspi _ _ _ _ _) fun _ =>
        stop_keeps _ (ih _)

theorem eraseBody_keeps (addrBytes : UInt8) (eraseType : Option Flash.EraseType)
    (start cnt : UInt32) :
    Keeps Configured Moves (eraseBody build qspi addrBytes eraseType start cnt) := by
  refine Keeps.bind moves_frame readConfig_keeps fun config => ?_
  cases config.eraseKind addrBytes eraseType with
  | none => exact Keeps.pure moves_frame _
  | some kind =>
      refine Keeps.ite (fun _ => Keeps.pure moves_frame _) fun _ => ?_
      have goes := eraseUnits_keeps build qspi (singleCmd kind.opcode kind.addrBytes false)
        kind.size kind.timeout kind.pollingMsec cnt.toNat (start * kind.size)
      refine Keeps.ite (fun _ => ?_) fun _ => goes
      exact Keeps.bind moves_frame (setPeState_keeps true) fun _ => goes

theorem endPeState_keeps {body : DriverM FlashStatus} (keeps : Keeps Configured Moves body) :
    Keeps Configured Moves (do
      let status ← body
      if build.xipSupport then
        drvQspiXipSetPeState false
      return status) := by
  refine Keeps.bind moves_frame keeps fun status => ?_
  refine Keeps.ite (fun _ => ?_) fun _ => Keeps.pure moves_frame _
  exact Keeps.bind moves_frame (setPeState_keeps false) fun _ => Keeps.pure moves_frame _

/-- A driver between two calls: the state and the lock are free, and it is initialised only
with a configuration. -/
structure Idle (driver : Driver) : Prop where
  state : driver.state = 0
  mutexLocked : driver.mutexLocked = false
  configured : driver.flashInitDone = true → driver.config.isSome

theorem Idle.of_issues {commands : List Issued} {before after : Driver} (idle : Idle before)
    (issues : Issues commands before after) : Idle after where
  state := issues.state.trans idle.state
  mutexLocked := issues.mutexLocked.trans idle.mutexLocked
  configured initialised := by
    rw [issues.config]
    exact idle.configured (issues.flashInitDone ▸ initialised)

/-- What a call leaves behind when it returns: the driver is idle, XIP is enabled if it was,
and an operation of a driver that is not initialised has failed without a change. -/
structure Returns (before : Driver) (status : FlashStatus) (after : Driver) : Prop where
  idle : Idle after
  xipEnabled : before.xipEnabled = true → after.xipEnabled = true
  flashInitDone : after.flashInitDone = before.flashInitDone
  early : before.flashInitDone = false → status = .fail ∧ after = before

/-- An operation returns. -/
theorem operate_returns (state : UInt8) {body : DriverM FlashStatus}
    (keeps : Keeps Configured Moves body) {driver : Driver} (idle : Idle driver) :
    ∃ status next, operate build state body driver = .ok (status, next) ∧
      Returns driver status next := by
  cases initialised : driver.flashInitDone with
  | false =>
      refine ⟨.fail, driver, ?_, idle, id, rfl, fun _ => ⟨rfl, rfl⟩⟩
      rw [operate_refused build state body (Or.inl initialised), initialised]
      rfl
  | true =>
      obtain ⟨entered, -, sameConfig, runs⟩ :=
        operate_run build state body initialised idle.state idle.mutexLocked
      obtain ⟨status, after, ends, commands, issues⟩ := keeps entered (by
        unfold Configured
        rw [sameConfig]
        exact idle.configured initialised)
      obtain ⟨next, whole, kept⟩ := runs status commands after ends issues
      refine ⟨status, next, whole, idle.of_issues kept, kept.xipEnabled, kept.flashInitDone,
        fun before => ?_⟩
      rw [initialised] at before
      cases before

/-! ## Initialisation -/

/-- What the parts of an initialisation do: they leave the lock and `flash_init_done`, and a
state that is free. -/
structure Prepares (before after : Driver) : Prop where
  flashInitDone : after.flashInitDone = before.flashInitDone
  state : before.state = 0 → after.state = 0
  mutexLocked : after.mutexLocked = before.mutexLocked
  xipEnabled : before.xipEnabled = true → after.xipEnabled = true

theorem Prepares.trans {first second third : Driver} (begins : Prepares first second)
    (goes : Prepares second third) : Prepares first third where
  flashInitDone := goes.flashInitDone.trans begins.flashInitDone
  state free := goes.state (begins.state free)
  mutexLocked := goes.mutexLocked.trans begins.mutexLocked
  xipEnabled enabled := goes.xipEnabled (begins.xipEnabled enabled)

theorem Issues.prepares {commands : List Issued} {before after : Driver}
    (issues : Issues commands before after) : Prepares before after :=
  ⟨issues.flashInitDone, fun free => issues.state.trans free, issues.mutexLocked,
    issues.xipEnabled⟩

/-- How an initialisation ends: initialised if it is done, and then with a configuration. -/
structure InitEnds (before : Driver) (status : FlashStatus) (after : Driver) : Prop where
  state : before.state = 0 → after.state = 0
  mutexLocked : after.mutexLocked = before.mutexLocked
  xipEnabled : before.xipEnabled = true → after.xipEnabled = true
  flashInitDone : after.flashInitDone = decide (status = .done)
  configured : after.flashInitDone = true → after.config.isSome

/-- A part of an initialisation, and its end. -/
theorem Prepares.ends {before middle after : Driver} {status : FlashStatus}
    (begins : Prepares before middle) (ends : InitEnds middle status after) :
    InitEnds before status after where
  state free := ends.state (begins.state free)
  mutexLocked := ends.mutexLocked.trans begins.mutexLocked
  xipEnabled enabled := ends.xipEnabled (begins.xipEnabled enabled)
  flashInitDone := ends.flashInitDone
  configured := ends.configured

/-- A part of an initialisation that ends it. -/
theorem Prepares.fails {before after : Driver} {status : FlashStatus}
    (begins : Prepares before after) (initialised : before.flashInitDone = false)
    (failed : status ≠ .done) : InitEnds before status after where
  state := begins.state
  mutexLocked := begins.mutexLocked
  xipEnabled := begins.xipEnabled
  flashInitDone := by rw [begins.flashInitDone, initialised, decide_eq_false failed]
  configured is := by
    rw [begins.flashInitDone, initialised] at is
    cases is

theorem Prepares.refl (driver : Driver) : Prepares driver driver := ⟨rfl, id, rfl, id⟩

/-- From each state that has a configuration and is not initialised, the rest of an
initialisation ends, and leaves the block of `operation_param`. -/
def Inits (rest : DriverM FlashStatus) : Prop :=
  ∀ driver, Configured driver → driver.flashInitDone = false →
    ∃ status next, rest driver = .ok (status, next) ∧ InitEnds driver status next ∧
      next.operationParam = driver.operationParam

/-- A part that keeps the configuration, and the rest behind it. -/
theorem Inits.bind {α : Type} {part : DriverM α} {rest : α → DriverM FlashStatus}
    (keeps : Keeps Configured Moves part) (goes : ∀ result, Inits (rest result)) :
    Inits (part >>= rest) := by
  intro driver configured initialised
  obtain ⟨result, middle, first, commands, issues⟩ := keeps driver configured
  obtain ⟨status, next, second, ends, kept⟩ := goes result middle
    (moves_frame.stable _ _ configured ⟨commands, issues⟩)
    (issues.flashInitDone.trans initialised)
  exact ⟨status, next, (run_bind first rest).trans second, issues.prepares.ends ends,
    kept.trans issues.operationParam⟩

/-- A status of failure that ends an initialisation. -/
theorem Inits.refuse {status : FlashStatus} {rest : DriverM FlashStatus} {cond : Prop}
    [Decidable cond] (failed : cond → status ≠ .done) (goes : ¬cond → Inits rest) :
    Inits (if cond then return status else rest) := by
  by_cases refused : cond
  · rw [if_pos refused]
    intro driver _ initialised
    exact ⟨status, driver, rfl, (Prepares.refl driver).fails initialised (failed refused), rfl⟩
  · rw [if_neg refused]
    exact goes refused

/-- A status that ends an initialisation. -/
theorem Inits.stop {status : FlashStatus} {rest : DriverM FlashStatus} (goes : Inits rest) :
    Inits (if status ≠ .done then return status else rest) :=
  Inits.refuse id fun _ => goes

/-- From the write protection on, an initialisation ends. -/
theorem initSettings_inits : Inits (initSettings build qspi) := by
  refine Inits.bind (clearWriteProtection_keeps build qspi) fun cleared => Inits.stop ?_
  refine Inits.bind readConfig_keeps fun config => ?_
  refine Inits.bind (Keeps.ite (fun _ => setHighPerformance_keeps build qspi) fun _ =>
    Keeps.pure moves_frame _) fun performance => Inits.stop ?_
  refine Inits.refuse (fun _ => by decide) fun _ => ?_
  refine Inits.bind (Keeps.ite (fun _ => enableQuadMode_keeps build qspi _) fun _ =>
    Keeps.pure moves_frame _) fun quad => Inits.stop ?_
  refine Inits.bind (Keeps.ite (fun _ => writeRegInternal_keeps build qspi _ _ _) fun _ =>
    Keeps.pure moves_frame _) fun entered => Inits.stop ?_
  intro driver configured _
  exact ⟨.done, { driver with flashInitDone := true }, rfl,
    ⟨id, rfl, id, rfl, fun _ => configured⟩, rfl⟩

/-- What an initialisation would identify the device by: the QSPI driver must start, and take
the command for it behind the one that wakes the device. -/
def identified (driver : Driver) : Option UInt32 :=
  let wakes := issue qspi driver.issued (singleCmd powerupOpcode 0 false) 0 (fun _ => 0) 0
  let issued := driver.issued ++ [wakes]
  let cmd := singleCmd readIdentificationCmd 0 false
  if qspi.init driver.inits ∧ qspi.accepts issued cmd then
    some (identification (qspi.answers issued cmd))
  else none

/-- The device is there, and one of the table. -/
def Recognised (driver : Driver) : Prop :=
  ∃ deviceId ∈ identified qspi driver, (entries.find? fun entry => deviceId = entry.deviceId).isSome

theorem initIdentify_run (driver : Driver) :
    ∃ result next, initIdentify build qspi driver = .ok (result, next) ∧ Prepares driver next ∧
      next.operationParam = driver.operationParam ∧
      (if result.1 = .done then some result.2 else none) = identified qspi driver := by
  unfold initIdentify identified
  let started : Driver := { driver with inits := driver.inits + 1 }
  let woken : Driver :=
    started.push (issue qspi driver.issued (singleCmd powerupOpcode 0 false) 0 (fun _ => 0) 0)
  have starts : drvFlashControllerInit qspi driver =
      .ok (if qspi.init driver.inits then .done else .fail, started) := rfl
  have wakes : drvFlashPowerUp qspi started = .ok ((), woken) := rfl
  rw [run_bind starts]
  cases init : qspi.init driver.inits with
  | false => exact ⟨(.fail, 0), started, rfl, ⟨rfl, id, rfl, id⟩, rfl, rfl⟩
  | true =>
      obtain ⟨next, ends, issues⟩ := readRegInternal_run build qspi readIdentificationCmd 3
        (some fun _ => 0) (by simp) woken
      have begins : Prepares driver woken := ⟨rfl, id, rfl, id⟩
      rw [if_pos rfl, if_neg (by decide), run_bind wakes, run_bind ends]
      refine ⟨_, next, rfl, begins.trans issues.prepares, issues.operationParam, ?_⟩
      dsimp only
      have same : woken.issued = driver.issued ++
          [issue qspi driver.issued (singleCmd powerupOpcode 0 false) 0 (fun _ => 0) 0] := rfl
      rw [same]
      generalize driver.issued ++
        [issue qspi driver.issued (singleCmd powerupOpcode 0 false) 0 (fun _ => 0) 0] = issued
      cases accepts : qspi.accepts issued (singleCmd readIdentificationCmd 0 false) <;>
        simp [identification]

/-- The context is set up, with a configuration if that is done, and the block of before is
forgotten. -/
theorem infoInit_run (allocated : Bool) (deviceId : UInt32) (driver : Driver) :
    ∃ status next,
      drvFlashInfoInit build qspi entries allocated deviceId driver = .ok (status, next) ∧
      Prepares driver next ∧ (status = .done → Configured next) ∧
      if (entries.find? fun entry => deviceId = entry.deviceId).isSome then
        next.operationParam ≠ .freed
      else status ≠ .done ∧ next.operationParam = driver.operationParam := by
  unfold drvFlashInfoInit
  cases entries.find? fun entry => deviceId = entry.deviceId with
  | none => exact ⟨.notFound, driver, rfl, Prepares.refl driver, nofun, nofun, rfl⟩
  | some entry =>
      dsimp only
      rw [run_modify_bind, readConfig_bind rfl, run_get_bind]
      obtain ⟨nonOs, xipSupport, quadMode⟩ := build
      by_cases clock : entry.clkFreq ≠ driver.defaultQspiClock
      · rw [if_pos clock]
        cases nonOs <;> cases allocated <;>
          exact ⟨_, _, rfl, ⟨rfl, fun _ => rfl, rfl, id⟩, fun _ => rfl, nofun⟩
      · rw [if_neg clock]
        cases nonOs <;> cases allocated <;>
          exact ⟨_, _, rfl, ⟨rfl, fun _ => rfl, rfl, id⟩, fun _ => rfl, nofun⟩

/-- Between the lock and its end, an initialisation ends; it has a block of its own if it
recognises the device. -/
theorem initBody_run (allocated : Bool) {driver : Driver}
    (initialised : driver.flashInitDone = false) :
    ∃ status next, initBody build qspi entries allocated driver = .ok (status, next) ∧
      InitEnds driver status next ∧
      (Recognised qspi entries driver → next.operationParam ≠ .freed) ∧
      (¬Recognised qspi entries driver →
        status ≠ .done ∧ next.operationParam = driver.operationParam) := by
  obtain ⟨⟨status, deviceId⟩, middle, identifies, begins, kept, isIdentified⟩ :=
    initIdentify_run build qspi driver
  unfold initBody
  rw [run_bind identifies]
  dsimp only at isIdentified ⊢
  by_cases done : status = .done
  · subst done
    rw [if_pos rfl] at isIdentified
    rw [if_neg (by decide)]
    obtain ⟨info, next, sets, goes, configured, block⟩ :=
      infoInit_run build qspi entries allocated deviceId middle
    rw [run_bind sets]
    have recognised : Recognised qspi entries driver ↔
        (entries.find? fun entry => deviceId = entry.deviceId).isSome := by
      unfold Recognised
      rw [← isIdentified]
      simp
    rw [recognised]
    by_cases found : (entries.find? fun entry => deviceId = entry.deviceId).isSome
    · rw [if_pos found] at block
      by_cases is : info = .done
      · rw [if_neg (not_not.mpr is)]
        obtain ⟨last, after, ends, initEnds, stays⟩ := initSettings_inits build qspi next
          (configured is) ((goes.flashInitDone.trans begins.flashInitDone).trans initialised)
        exact ⟨last, after, ends, (begins.trans goes).ends initEnds,
          fun _ => by rwa [stays], fun not => absurd found not⟩
      · rw [if_pos is]
        exact ⟨info, next, rfl, (begins.trans goes).fails initialised is, fun _ => block,
          fun not => absurd found not⟩
    · rw [if_neg found] at block
      rw [if_pos block.1]
      exact ⟨info, next, rfl, (begins.trans goes).fails initialised block.1,
        fun is => absurd is found, fun _ => ⟨block.1, block.2.trans kept⟩⟩
  · rw [if_neg done] at isIdentified
    rw [if_pos done]
    refine ⟨status, middle, rfl, begins.fails initialised done, fun ⟨deviceId, is, _⟩ => ?_,
      fun _ => ⟨done, kept⟩⟩
    rw [← isIdentified] at is
    cases is

/-- A block that an initialisation has freed is not freed again by the next. -/
def NotFreedAgain (driver : Driver) : Prop :=
  build.nonOs = false → driver.flashInitDone = false → driver.operationParam = .freed →
    Recognised qspi entries driver

/-- The initialisation of a driver that is not initialised takes the lock. -/
theorem drvFlashInit_eq (allocated : Bool) {driver : Driver}
    (initialised : driver.flashInitDone = false) (unlocked : driver.mutexLocked = false) :
    drvFlashInit build qspi entries allocated driver =
      (initBody build qspi entries allocated >>= initEnd build)
        { driver with mutexLocked := !build.nonOs } := by
  unfold drvFlashInit
  rw [run_get_bind, if_neg (by rw [initialised]; decide)]
  cases os : build.nonOs with
  | true =>
      have same : { driver with mutexLocked := false } = driver := by
        rw [← unlocked]
      rw [Bool.not_true, same]
      rfl
  | false =>
      rw [if_pos (by decide)]
      unfold mutexUnlock
      rw [run_modify_bind, mutexLock_bind rfl]
      rfl

theorem freeOperationParam_run {driver : Driver} (once : driver.operationParam ≠ .freed) :
    ∃ param, freeOperationParam driver = .ok ((), { driver with operationParam := param }) := by
  unfold freeOperationParam
  cases isParam : driver.operationParam with
  | null => exact ⟨driver.operationParam, rfl⟩
  | block => exact ⟨.freed, rfl⟩
  | freed => exact absurd isParam once

/-- The end of an initialisation gives the lock back, unless it frees a block again. -/
theorem initEnd_run {status : FlashStatus} {driver : Driver}
    (held : driver.mutexLocked = !build.nonOs)
    (once : build.nonOs = false → status ≠ .done → driver.operationParam ≠ .freed) :
    ∃ param, initEnd build status driver =
      .ok (status, { driver with operationParam := param, mutexLocked := false }) := by
  unfold initEnd
  cases os : build.nonOs with
  | true =>
      rw [os, Bool.not_true] at held
      refine ⟨driver.operationParam, ?_⟩
      rw [← held]
      rfl
  | false =>
      rw [if_pos (by decide)]
      by_cases done : status = .done
      · rw [if_neg (not_not.mpr done)]
        exact ⟨driver.operationParam, rfl⟩
      · obtain ⟨param, frees⟩ := freeOperationParam_run (once os done)
        rw [if_pos done]
        exact ⟨param, run_bind frees _⟩

theorem initEnd_again {status : FlashStatus} {driver : Driver} (os : build.nonOs = false)
    (failed : status ≠ .done) (freed : driver.operationParam = .freed) :
    initEnd build status driver = .error .doubleFree := by
  have frees : freeOperationParam driver = .error .doubleFree := by
    simp [freeOperationParam, freed]
  unfold initEnd
  rw [os, if_pos (by decide), if_pos failed]
  exact run_bind_error frees _

/-- An initialisation returns, unless it would free a block again. -/
theorem drvFlashInit_run (allocated : Bool) {driver : Driver} (idle : Idle driver)
    (once : NotFreedAgain build qspi entries driver) :
    ∃ status next, drvFlashInit build qspi entries allocated driver = .ok (status, next) ∧
      Idle next ∧ (driver.xipEnabled = true → next.xipEnabled = true) ∧
      (next.flashInitDone = true ↔ driver.flashInitDone = true ∨ status = .done) := by
  cases initialised : driver.flashInitDone with
  | true =>
      refine ⟨.done, driver, ?_, idle, id, by simp [initialised]⟩
      unfold drvFlashInit
      rw [run_get_bind, if_pos initialised]
      rfl
  | false =>
      let locked : Driver := { driver with mutexLocked := !build.nonOs }
      obtain ⟨status, after, ends, is, fresh, stale⟩ :=
        initBody_run build qspi entries allocated
          (show locked.flashInitDone = false from initialised)
      have block : build.nonOs = false → status ≠ .done → after.operationParam ≠ .freed := by
        intro os _
        by_cases recognised : Recognised qspi entries locked
        · exact fresh recognised
        · rw [(stale recognised).2]
          exact fun freed => recognised (once os initialised freed)
      obtain ⟨param, gives⟩ := initEnd_run build is.mutexLocked block
      refine ⟨status, { after with operationParam := param, mutexLocked := false }, ?_,
        ⟨is.state idle.state, rfl, is.configured⟩, is.xipEnabled, ?_⟩
      · rw [drvFlashInit_eq build qspi entries allocated initialised idle.mutexLocked,
          run_bind ends, gives]
      · change after.flashInitDone = true ↔ _
        rw [is.flashInitDone, decide_eq_true_iff]
        exact ⟨Or.inr, fun done => done.resolve_left nofun⟩

/-- An initialisation that fails before it recognises the device frees a freed block again. -/
theorem drvFlashInit_again (allocated : Bool) {driver : Driver} (idle : Idle driver)
    (again : ¬NotFreedAgain build qspi entries driver) :
    drvFlashInit build qspi entries allocated driver = .error .doubleFree := by
  unfold NotFreedAgain at again
  push Not at again
  obtain ⟨os, initialised, freed, unrecognised⟩ := again
  let locked : Driver := { driver with mutexLocked := !build.nonOs }
  obtain ⟨status, after, ends, -, -, stale⟩ :=
    initBody_run build qspi entries allocated
      (show locked.flashInitDone = false from initialised)
  obtain ⟨failed, kept⟩ := stale unrecognised
  rw [drvFlashInit_eq build qspi entries allocated initialised idle.mutexLocked, run_bind ends]
  exact initEnd_again build os failed (kept.trans freed)

/-- A QSPI that takes two commands and then no more: the second initialisation frees the block
of the first. -/
example :
    let qspi : Qspi :=
      { init := fun _ => true
        accepts := fun issued _ => issued.length < 2
        answers := fun _ _ i => [0xC2, 0x28, 0x17].getD i 0 }
    let init : DriverM FlashStatus := drvFlashInit ⟨false, false, false⟩ qspi [mx25r6435f] true
    (init >>= fun _ => init) (Driver.uninitialised false) = .error .doubleFree := rfl

/-! ## Sequences of calls -/

def Call.isInit : Call → Bool
  | .init _ => true
  | _ => false

/-- Every call of a sequence returns and gives the state, the lock and XIP back; until an
initialisation was done, the operations fail without a look at the configuration. -/
def AllSound : Driver → Bool → List Call → Prop
  | _, _, [] => True
  | driver, initialised, call :: calls =>
      ∃ status next, call.run build qspi entries driver = .ok (status, next) ∧
        next.state = 0 ∧ next.mutexLocked = false ∧
        (driver.xipEnabled = true → next.xipEnabled = true) ∧
        (initialised = false → call.isInit = false →
          status = .fail ∧ next.configReads = driver.configReads) ∧
        AllSound next (initialised || (call.isInit && status = .done)) calls

/-- The driver behind a call that returns. -/
def Call.step (driver : Driver) (call : Call) : Option Driver :=
  match call.run build qspi entries driver with
  | .ok (_, next) => some next
  | .error _ => none

/-- An erase is called on a driver that is initialised, and no initialisation frees a block
that one before it has freed. -/
def InOrder (driver : Driver) : Call → Prop
  | .erase .. => driver.flashInitDone = true
  | .init _ => NotFreedAgain build qspi entries driver
  | _ => True

/-- An operation that returns is no initialisation. -/
theorem returns_call {run : Except Fault (FlashStatus × Driver)} {driver : Driver}
    (returns : ∃ status next, run = .ok (status, next) ∧ Returns driver status next) :
    ∃ status next, run = .ok (status, next) ∧ Idle next ∧
      (driver.xipEnabled = true → next.xipEnabled = true) ∧
      (driver.flashInitDone = false → false = false →
        status = .fail ∧ next.configReads = driver.configReads) ∧
      next.flashInitDone = (driver.flashInitDone || (false && status = .done)) := by
  obtain ⟨status, next, ends, returns⟩ := returns
  refine ⟨status, next, ends, returns.idle, returns.xipEnabled, fun early _ => ?_,
    returns.flashInitDone.trans (Bool.or_false _).symm⟩
  obtain ⟨failed, same⟩ := returns.early early
  exact ⟨failed, by rw [same]⟩

/-- A call in order returns. -/
theorem call_returns {driver : Driver} (idle : Idle driver) {call : Call}
    (inOrder : InOrder build qspi entries driver call) :
    ∃ status next, call.run build qspi entries driver = .ok (status, next) ∧ Idle next ∧
      (driver.xipEnabled = true → next.xipEnabled = true) ∧
      (driver.flashInitDone = false → call.isInit = false →
        status = .fail ∧ next.configReads = driver.configReads) ∧
      next.flashInitDone = (driver.flashInitDone || (call.isInit && status = .done)) := by
  cases call with
  | init allocated =>
      obtain ⟨status, next, ends, after, xip, done⟩ :=
        drvFlashInit_run build qspi entries allocated idle inOrder
      refine ⟨status, next, ends, after, xip, nofun, ?_⟩
      rw [Bool.eq_iff_iff]
      simp [done, Call.isInit]
  | read address byteCnt buffer readCb =>
      exact returns_call (operate_returns build flashStateRead
        (readBody_keeps qspi address byteCnt buffer readCb) idle)
  | write address byteCnt buffer writeCb =>
      exact returns_call (operate_returns build flashStateWrite
        (endPeState_keeps build (writeBody_keeps build qspi address byteCnt buffer writeCb)) idle)
  | erase eraseType start cnt =>
      have done : driver.flashInitDone = true := inOrder
      obtain ⟨config, isConfig⟩ := Option.isSome_iff_exists.mp (idle.configured done)
      have reads : Idle { driver with configReads := driver.configReads + 1 } :=
        ⟨idle.state, idle.mutexLocked, idle.configured⟩
      obtain ⟨status, next, ends, returns⟩ := operate_returns build flashStateErase
        (endPeState_keeps build
          (eraseBody_keeps build qspi config.addrBytes eraseType start cnt)) reads
      refine ⟨status, next, (readConfig_bind isConfig _).trans ends, returns.idle,
        returns.xipEnabled, fun early => ?_, ?_⟩
      · rw [done] at early
        cases early
      · exact returns.flashInitDone.trans (Bool.or_false _).symm
  | readReg regOpcode len regValue =>
      refine returns_call (operate_returns build flashStateReadReg
        (Keeps.bind moves_frame (readReg_keeps build qspi regOpcode len regValue) fun read =>
          Keeps.pure moves_frame read.1) idle)
  | writeReg regOpcode len regValue writeCb =>
      refine returns_call (operate_returns build flashStateWriteReg
        (Keeps.bind moves_frame (writeRegInternal_keeps build qspi regOpcode len regValue)
          fun written => ?_) idle)
      exact Keeps.ite (fun _ => waitReady_keeps build qspi) fun _ => Keeps.pure moves_frame _

/-- An erase before an initialisation faults, or looks at the configuration. -/
theorem early_erase {driver : Driver} (early : driver.flashInitDone = false)
    (eraseType : Option Flash.EraseType) (start cnt : UInt32) {status : FlashStatus}
    {next : Driver}
    (ends : drvFlashErase build qspi eraseType start cnt driver = .ok (status, next)) :
    next.configReads ≠ driver.configReads := by
  cases isConfig : driver.config with
  | none =>
      have fault : readConfig driver = .error .nullConfig := by
        simp [readConfig, isConfig]
      unfold drvFlashErase at ends
      rw [run_bind_error fault] at ends
      cases ends
  | some config =>
      rw [drvFlashErase_refused build qspi isConfig (Or.inl early)] at ends
      cases ends
      exact Nat.succ_ne_self _

/-- All calls of a sequence are sound exactly if no erase comes before an initialisation that
is done, and no initialisation that fails before it recognises the device comes behind one
that has failed later. -/
theorem calls_sound_iff (xipEnabled : Bool) (calls : List Call) :
    AllSound build qspi entries (Driver.uninitialised xipEnabled) false calls ↔
      Runs.Meets (Call.step build qspi entries) (InOrder build qspi entries)
        (Driver.uninitialised xipEnabled) calls := by
  have idle : Idle (Driver.uninitialised xipEnabled) := ⟨rfl, rfl, nofun⟩
  have flag : false = (Driver.uninitialised xipEnabled).flashInitDone := rfl
  rw [flag]
  generalize Driver.uninitialised xipEnabled = driver at idle
  induction calls generalizing driver with
  | nil => exact Iff.rfl
  | cons call calls ih =>
      constructor
      · rintro ⟨status, next, ends, -, -, -, early, rest⟩
        have inOrder : InOrder build qspi entries driver call := by
          cases call with
          | erase eraseType start cnt =>
              change driver.flashInitDone = true
              by_contra flag
              rw [Bool.not_eq_true] at flag
              exact early_erase build qspi flag eraseType start cnt ends (early flag rfl).2
          | init allocated =>
              change NotFreedAgain build qspi entries driver
              by_contra again
              have faults := drvFlashInit_again build qspi entries allocated idle again
              have returned : drvFlashInit build qspi entries allocated driver =
                  .ok (status, next) := ends
              rw [faults] at returned
              cases returned
          | _ => trivial
        obtain ⟨status', next', ends', after, -, -, done⟩ :=
          call_returns build qspi entries idle inOrder
        obtain ⟨rfl, rfl⟩ := Prod.mk.inj (Except.ok.inj (ends'.symm.trans ends))
        have stepped : Call.step build qspi entries driver call = some next' := by
          unfold Call.step
          rw [ends]
        refine ⟨inOrder, ?_⟩
        rw [stepped]
        rw [← done] at rest
        exact (ih next' after).mp rest
      · rintro ⟨inOrder, rest⟩
        obtain ⟨status, next, ends, after, xip, early, done⟩ :=
          call_returns build qspi entries idle inOrder
        have stepped : Call.step build qspi entries driver call = some next := by
          unfold Call.step
          rw [ends]
        rw [stepped] at rest
        refine ⟨status, next, ends, after.state, after.mutexLocked, xip, early, ?_⟩
        rw [← done]
        exact (ih next after).mpr rest

/-- An erase on a driver that was never initialised reads through NULL. -/
theorem early_erase_faults :
    ¬AllSound ⟨true, false, false⟩ (fermQspi readyDevice) [mx25r6435f]
      (Driver.uninitialised false) false [.erase (some .block) 0 1] := by
  rintro ⟨status, next, ends, -⟩
  cases ends

end QHal.FlashDriver
