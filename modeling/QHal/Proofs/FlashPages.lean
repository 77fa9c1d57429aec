/-
Module: QHal.Proofs.FlashPages
Purpose: The page program commands of a flash write: they cover the range page by page, each
  behind a write enable and before a wait, and when a status of success tells the truth.
Trusted boundary: none
Main exports: Writes, Covers, PagesWritten, writePages_turn, writePages_spec,
  drvFlashWrite_pages_iff
-/
import Mathlib.Algebra.Group.Nat.Defs
import Mathlib.Tactic.ByContra
import QHal.Proofs.FlashCommands

namespace QHal.FlashDriver

open Flash (sliceSize sliceSize_spec rest_lt pageSizeInBytes)
open Steps

variable (build : Build)

/-- What a write issues, with the page programs among it: each behind an accepted write enable
whose bit was seen, and before a wait for the end.  The write is complete if it did not stop
in a page. -/
inductive Writes (pageWriteCmd : QspiCmd) : List Issued → List Issued → Bool → Prop
  | done : Writes pageWriteCmd [] [] true
  | refused {enable : Issued} {reads : List Issued} : enable.IsWriteEnable →
      (∀ read ∈ reads, read.IsRead) → Writes pageWriteCmd (enable :: reads) [] false
  | stuck {enable program : Issued} {reads waits : List Issued} :
      enable.IsWriteEnable → enable.accepted = true →
      Waited statusWrEnMask statusWrEnMask reads → program.cmd = pageWriteCmd →
      (∀ wait ∈ waits, wait.IsRead) →
      Writes pageWriteCmd (enable :: reads ++ program :: waits) [program] false
  | page {enable program : Issued} {reads waits rest programs : List Issued}
      {complete : Bool} :
      enable.IsWriteEnable → enable.accepted = true →
      Waited statusWrEnMask statusWrEnMask reads → program.cmd = pageWriteCmd →
      Waited progEraseWriteBusyBmsk 0 waits → Writes pageWriteCmd rest programs complete →
      Writes pageWriteCmd (enable :: reads ++ program :: waits ++ rest) (program :: programs)
        complete

/-- The programs write a range from a buffer, one behind the other, each within a page. -/
def Covers : Nat → Nat → (Nat → UInt8) → List Issued → Prop
  | _, count, _, [] => count = 0
  | address, count, buffer, program :: programs =>
      program.addr.toNat = address ∧ 0 < program.dataBytes ∧ program.dataBytes ≤ count ∧
        address % 256 + program.dataBytes ≤ 256 ∧
        (∀ i < program.dataBytes, program.data i = buffer i) ∧
        Covers (address + program.dataBytes) (count - program.dataBytes)
          (fun i => buffer (i + program.dataBytes)) programs

/-- What a call that returns a status has issued: programs of the pages from the start of the
range on, and if it says that it is done, of the whole range, all of them accepted. -/
def PagesWritten (config : FlashConfigData) (address byteCnt : Nat) (buffer : Nat → UInt8)
    (trace : List Issued) (status : FlashStatus) : Prop :=
  ∃ programs complete count, Writes config.pageWriteCmd trace programs complete ∧
    count ≤ byteCnt ∧ Covers address count buffer programs ∧
    (status = .done → address + byteCnt ≤ config.densityInBlocks.toNat * 4096 ∧
      complete = true ∧ count = byteCnt ∧ ∀ program ∈ programs, program.accepted = true)

/-! ## The loop -/

/-- One turn of the loop over the pages, without a callback: it stops behind the write
enable, or behind the page, or goes on. -/
theorem writePages_turn (device : List Issued → QspiCmd → Nat → UInt8)
    (pageWriteCmd : QspiCmd) (address : UInt32) {byteCnt : UInt32} (more : byteCnt ≠ 0)
    (buffer : Nat → UInt8) {driver : Driver} (configured : driver.config.isSome) :
    (∃ status next enable reads,
      writePages build (fermQspi device) pageWriteCmd false address byteCnt buffer driver =
        .ok (status, next) ∧ status ≠ .done ∧
      Issues (enable :: reads) driver next ∧ enable.IsWriteEnable ∧
      ∀ read ∈ reads, read.IsRead) ∨
    ∃ status next enable reads issued waits,
      let program := issue (fermQspi device) issued pageWriteCmd address buffer
        (sliceSize pageSizeInBytes address byteCnt).toNat
      Issues (enable :: reads ++ program :: waits) driver next ∧ enable.IsWriteEnable ∧
      enable.accepted = true ∧ Waited statusWrEnMask statusWrEnMask reads ∧
      (∀ wait ∈ waits, wait.IsRead) ∧
      (status = .done → Waited progEraseWriteBusyBmsk 0 waits) ∧
      writePages build (fermQspi device) pageWriteCmd false address byteCnt buffer driver =
        if status ≠ .done then .ok (status, next)
        else
          let transferSize := sliceSize pageSizeInBytes address byteCnt
          writePages build (fermQspi device) pageWriteCmd false (address + transferSize)
            (byteCnt - transferSize) (fun i => buffer (i + transferSize.toNat)) next := by
  obtain ⟨status, middle, enable, reads, begins, first, enables, are, accepts⟩ :=
    writeEnable_spec build (fermQspi device) configured
  obtain ⟨accepted, waited⟩ := accepts (fermQspi_acceptsSingle device)
  by_cases enabled : status = .done
  case neg =>
    refine Or.inl ⟨status, middle, enable, reads, ?_, enabled, first, enables, are⟩
    rw [writePages, dif_neg more]
    dsimp only
    rw [run_bind begins, if_pos enabled]
    rfl
  case pos =>
    have kept : (middle.push (issue (fermQspi device) middle.issued pageWriteCmd address buffer
      (sliceSize pageSizeInBytes address byteCnt).toNat)).config.isSome := by
      change middle.config.isSome
      rwa [first.config]
    obtain ⟨status', next, waits, ends, second, wait, idle⟩ :=
      waitOperationDone_spec build (fermQspi device) writeTimeout writeStatusPollingUsec .write
        progEraseWriteBusyBmsk 0 kept
    refine Or.inr ⟨status', next, enable, reads, middle.issued, waits,
      first.trans ((issues_issue _ _ _ _ _ middle).trans second),
      enables, accepted, waited enabled, wait, idle (fermQspi_acceptsSingle device), ?_⟩
    rw [writePages, dif_neg more]
    dsimp only
    rw [run_bind begins, if_neg (not_not.mpr enabled), if_pos (by decide), runCmd_bind,
      run_bind ends]
    split <;> rfl

/-- The loop writes page behind page from its address on. -/
theorem writePages_spec (device : List Issued → QspiCmd → Nat → UInt8)
    (pageWriteCmd : QspiCmd) (address byteCnt : UInt32) (buffer : Nat → UInt8)
    {driver : Driver} (configured : driver.config.isSome)
    (fits : address.toNat + byteCnt.toNat < 2 ^ 32) :
    ∃ status next trace programs complete count,
      writePages build (fermQspi device) pageWriteCmd false address byteCnt buffer driver =
        .ok (status, next) ∧
      Issues trace driver next ∧ Writes pageWriteCmd trace programs complete ∧
      count ≤ byteCnt.toNat ∧ Covers address.toNat count buffer programs ∧
      (∀ program ∈ programs, program.accepted = (fermQspi device).accepts [] pageWriteCmd) ∧
      (status = .done → complete = true ∧ count = byteCnt.toNat) := by
  induction isCount : byteCnt.toNat using Nat.strongRecOn
    generalizing address byteCnt buffer driver with
  | ind left ih =>
    by_cases more : byteCnt = 0
    case pos =>
      subst more
      rw [writePages, dif_pos rfl]
      exact ⟨.done, driver, [], [], true, 0, rfl, Issues.refl driver, .done, Nat.zero_le _, rfl,
        nofun, fun _ => ⟨rfl, isCount⟩⟩
    case neg =>
      obtain ⟨some, within, page⟩ :=
        sliceSize_spec (show 0 < pageSizeInBytes.toNat by decide) address more
      obtain ⟨status, next, enable, reads, ends, failed, issues, enables, are⟩ |
        ⟨status, middle, enable, reads, issued, waits, first, enables, accepted, waited, wait,
          idle, goes⟩ :=
        writePages_turn build device pageWriteCmd address more buffer configured
      · exact ⟨status, next, _, [], false, 0, ends, issues, .refused enables are, Nat.zero_le _,
          rfl, nofun, fun done => absurd done failed⟩
      · by_cases stays : status = .done
        case neg =>
          rw [goes, if_pos stays]
          refine ⟨status, middle, _, _, false, _, rfl, first,
            .stuck enables accepted waited rfl wait, ?_,
            ⟨rfl, some, Nat.le_refl _, page, fun _ _ => rfl, Nat.sub_self _⟩,
            fun program isOne => ?_, fun done => absurd done stays⟩
          · exact isCount ▸ within
          · rw [List.mem_singleton.mp isOne]
            rfl
        case pos =>
          have address_toNat : (address + sliceSize pageSizeInBytes address byteCnt).toNat =
              address.toNat + (sliceSize pageSizeInBytes address byteCnt).toNat := by
            rw [UInt32.toNat_add, Nat.mod_eq_of_lt]
            exact Nat.lt_of_le_of_lt (Nat.add_le_add_left within _) fits
          have left_toNat : (byteCnt - sliceSize pageSizeInBytes address byteCnt).toNat =
              byteCnt.toNat - (sliceSize pageSizeInBytes address byteCnt).toNat :=
            UInt32.toNat_sub_of_le _ _ (UInt32.le_iff_toNat_le.mpr within)
          obtain ⟨status', next, trace, programs, complete, count, ends, second, writes, le,
            covers, accepts, all⟩ := ih _ (isCount ▸ rest_lt (by decide) address more)
              (address + sliceSize pageSizeInBytes address byteCnt)
              (byteCnt - sliceSize pageSizeInBytes address byteCnt)
              (fun i => buffer (i + (sliceSize pageSizeInBytes address byteCnt).toNat))
              (by rwa [first.config]) (by omega) rfl
          rw [goes, if_neg (not_not.mpr stays)]
          rw [address_toNat] at covers
          refine ⟨status', next, _, _, complete,
            (sliceSize pageSizeInBytes address byteCnt).toNat + count, ends, first.trans second,
            .page enables accepted waited rfl (idle stays) writes, by omega,
            ⟨rfl, some, Nat.le_add_right _ _, page, fun _ _ => rfl, ?_⟩,
            List.forall_mem_cons.mpr ⟨rfl, accepts⟩, fun done => ⟨(all done).1, ?_⟩⟩
          · have rest := Nat.add_sub_cancel_left
              (n := (sliceSize pageSizeInBytes address byteCnt).toNat) (m := count)
            exact rest.symm ▸ covers
          · have whole := (all done).2
            omega

/-- Behind a write enable, the page is programmed if there is no callback. -/
theorem writePages_program (device : List Issued → QspiCmd → Nat → UInt8)
    (pageWriteCmd : QspiCmd) (writeCb : Bool) (address : UInt32) {byteCnt : UInt32}
    (more : byteCnt ≠ 0) (buffer : Nat → UInt8) {driver enabled : Driver}
    (begins : drvFlashWriteEnable build (fermQspi device) driver = .ok (.done, enabled)) :
    ∃ middle commands, Issues commands enabled middle ∧
      (∀ command ∈ commands, command.accepted = true →
        writeCb = false ∧ pageWriteCmd.addrBytes ≤ 4) ∧
      ∀ status next,
        drvFlashWaitOperationDone build (fermQspi device) writeTimeout writeStatusPollingUsec
          .write progEraseWriteBusyBmsk 0 middle = .ok (status, next) →
        writePages build (fermQspi device) pageWriteCmd writeCb address byteCnt buffer driver =
          if status ≠ .done then .ok (status, next)
          else
            let transferSize := sliceSize pageSizeInBytes address byteCnt
            writePages build (fermQspi device) pageWriteCmd writeCb (address + transferSize)
              (byteCnt - transferSize) (fun i => buffer (i + transferSize.toNat)) next := by
  rw [writePages, dif_neg more]
  dsimp only
  rw [run_bind begins, if_neg (not_not.mpr rfl)]
  cases writeCb with
  | true =>
      refine ⟨enabled, [], Issues.refl enabled, nofun, fun status next ends => ?_⟩
      rw [if_neg (by decide), run_bind ends]
      split <;> rfl
  | false =>
      refine ⟨_, _, issues_issue (fermQspi device) pageWriteCmd address buffer
        (sliceSize pageSizeInBytes address byteCnt).toNat enabled, ?_,
        fun status next ends => ?_⟩
      · intro command isCommand accepted
        rw [List.mem_singleton.mp isCommand] at accepted
        simp only [issue, fermQspi, Bool.not_eq_true', Bool.or_eq_false_iff,
          decide_eq_false_iff_not, gt_iff_lt, UInt8.not_lt] at accepted
        exact ⟨rfl, accepted.1⟩
      · rw [if_pos (by decide), runCmd_bind, run_bind ends]
        split <;> rfl

/-- On a device that is always ready the loop is done; a program among what it issues was
issued without a callback, and accepted only with an address that the QSPI driver takes. -/
theorem writePages_ready (pageWriteCmd : QspiCmd) (writeCb : Bool) (address byteCnt : UInt32)
    (buffer : Nat → UInt8) {driver : Driver} (configured : driver.config.isSome) :
    ∃ next trace,
      writePages build (fermQspi readyDevice) pageWriteCmd writeCb address byteCnt buffer driver =
        .ok (.done, next) ∧
      Issues trace driver next ∧
      ∀ command ∈ trace, command.cmd.write = true → command.accepted = true →
        writeCb = false ∧ pageWriteCmd.addrBytes ≤ 4 := by
  induction isCount : byteCnt.toNat using Nat.strongRecOn
    generalizing address byteCnt buffer driver with
  | ind left ih =>
    by_cases more : byteCnt = 0
    case pos =>
      subst more
      rw [writePages, dif_pos rfl]
      exact ⟨driver, [], rfl, Issues.refl driver, nofun⟩
    case neg =>
      obtain ⟨enabled, reads, begins, first, enables⟩ := writeEnable_ready build configured
      obtain ⟨middle, programs, second, accepted, goes⟩ :=
        writePages_program build readyDevice pageWriteCmd writeCb address more buffer begins
      have polls : 0 < writeTimeout / writeStatusPollingUsec := by decide
      obtain ⟨idle, waits, ends, third, waited⟩ :=
        wait_ready build .write polls
          (show middle.config.isSome by rwa [second.config, first.config])
          (readyDevice_idle _ _)
      obtain ⟨next, trace, rest, fourth, writes⟩ :=
        ih _ (isCount ▸ rest_lt (by decide) address more)
          (address + sliceSize pageSizeInBytes address byteCnt)
          (byteCnt - sliceSize pageSizeInBytes address byteCnt)
          (fun i => buffer (i + (sliceSize pageSizeInBytes address byteCnt).toNat))
          (show idle.config.isSome by rwa [third.config, second.config, first.config]) rfl
      refine ⟨next, _, ?_, ((first.trans second).trans third).trans fourth, ?_⟩
      · rw [goes _ _ ends, if_neg (not_not.mpr rfl)]
        exact rest
      · intro command isCommand isWrite isAccepted
        rcases List.mem_append.mp isCommand with inPage | inRest
        · rcases List.mem_append.mp inPage with before | inWaits
          · rcases List.mem_append.mp before with inEnable | inPrograms
            · rw [enables command inEnable] at isWrite
              cases isWrite
            · exact accepted command inPrograms isAccepted
          · rw [waited command inWaits] at isWrite
            cases isWrite
        · exact writes command inRest isWrite isAccepted

/-! ## The call -/

theorem Writes.subset {pageWriteCmd : QspiCmd} {trace programs : List Issued} {complete : Bool}
    (writes : Writes pageWriteCmd trace programs complete) :
    ∀ program ∈ programs, program ∈ trace ∧ program.cmd = pageWriteCmd := by
  induction writes with
  | done => nofun
  | refused => nofun
  | stuck _ _ _ isProgram _ =>
      intro program isOne
      rw [List.mem_singleton.mp isOne]
      exact ⟨by simp, isProgram⟩
  | page _ _ _ isProgram _ _ ih =>
      intro program isOne
      rcases List.mem_cons.mp isOne with isFirst | inRest
      · rw [isFirst]
        exact ⟨by simp, isProgram⟩
      · obtain ⟨inTrace, isCmd⟩ := ih program inRest
        exact ⟨List.mem_append_right _ inTrace, isCmd⟩

/-- What a call of `drv_flash_write` may issue, whatever the device answers. -/
def CallWritesPages (driver : Driver) (config : FlashConfigData) (address byteCnt : UInt32)
    (buffer : Option (Nat → UInt8)) (writeCb : Bool) : Prop :=
  ∀ device, ∃ status next trace,
    drvFlashWrite build (fermQspi device) address byteCnt buffer writeCb driver =
      .ok (status, next) ∧
    next.issued = driver.issued ++ trace ∧
    match buffer with
    | none => trace = [] ∧ status ≠ .done
    | some buffer => PagesWritten config address.toNat byteCnt.toNat buffer trace status

theorem pagesWritten_nil (config : FlashConfigData) (address byteCnt : Nat)
    (buffer : Nat → UInt8) {status : FlashStatus} (failed : status ≠ .done) :
    PagesWritten config address byteCnt buffer [] status :=
  ⟨[], true, 0, .done, Nat.zero_le _, rfl, fun done => absurd done failed⟩

/-- The range test of the driver, in the numbers of the device. -/
theorem writeRefuses_iff (density address byteCnt : UInt32) :
    byteCnt = 0 ∨ address + byteCnt < address ∨ address + byteCnt > density ↔
      byteCnt = 0 ∨ density.toNat < address.toNat + byteCnt.toNat := by
  have sum := UInt32.toNat_add address byteCnt
  have limits := address.toNat_lt
  have limits' := byteCnt.toNat_lt
  have limit := density.toNat_lt
  rw [UInt32.lt_iff_toNat_lt, gt_iff_lt, UInt32.lt_iff_toNat_lt]
  refine or_congr_right ?_
  omega

/-- The body of a write whose range is on the device is its loop. -/
theorem writeBody_accepted (qspi : Qspi) {config : FlashConfigData} {address byteCnt : UInt32}
    (buffer : Nat → UInt8) (writeCb : Bool) {entered : Driver}
    (isConfig : entered.config = some config) (more : byteCnt ≠ 0)
    (inside : address.toNat + byteCnt.toNat ≤ config.density.toNat) :
    ∃ begun, Issues [] entered begun ∧
      writeBody build qspi address byteCnt (some buffer) writeCb entered =
        writePages build qspi config.pageWriteCmd writeCb address byteCnt buffer begun := by
  have accepted := (writeRefuses_iff config.density address byteCnt).not.mpr
    (not_or.mpr ⟨more, Nat.not_lt.mpr inside⟩)
  rw [← or_assoc] at accepted
  obtain ⟨sound, within⟩ := not_or.mp accepted
  unfold writeBody
  dsimp only
  rw [if_neg sound, readConfig_bind isConfig, if_neg within]
  split
  · refine ⟨_, ?_, rfl⟩
    exact ⟨(List.append_nil _).symm, rfl, rfl, rfl, rfl, rfl, id⟩
  · refine ⟨_, ?_, rfl⟩
    exact ⟨(List.append_nil _).symm, rfl, rfl, rfl, rfl, rfl, id⟩

/-- The body of a write that is refused issues nothing. -/
theorem writeBody_refused (qspi : Qspi) {config : FlashConfigData} {address byteCnt : UInt32}
    {buffer : Option (Nat → UInt8)} (writeCb : Bool) {entered : Driver}
    (isConfig : entered.config = some config)
    (refused : buffer = none ∨ byteCnt = 0 ∨
      config.density.toNat < address.toNat + byteCnt.toNat) :
    ∃ after, Issues [] entered after ∧
      writeBody build qspi address byteCnt buffer writeCb entered =
        .ok (.invalidParameter, after) := by
  cases buffer with
  | none => exact ⟨entered, Issues.refl entered, rfl⟩
  | some buffer =>
      have tests := (writeRefuses_iff config.density address byteCnt).mpr
        (refused.resolve_left nofun)
      rw [← or_assoc] at tests
      unfold writeBody
      dsimp only
      by_cases sound : byteCnt = 0 ∨ address + byteCnt < address
      · rw [if_pos sound]
        exact ⟨entered, Issues.refl entered, rfl⟩
      · rw [if_neg sound, readConfig_bind isConfig, if_pos (tests.resolve_left sound)]
        refine ⟨_, ?_, rfl⟩
        exact ⟨(List.append_nil _).symm, rfl, rfl, rfl, rfl, rfl, id⟩

/-- A write to the device with a callback, or with an address that the QSPI driver does not
take, says that it is done though no program was accepted. -/
theorem not_pages_of_unprogrammed {driver : Driver} {config : FlashConfigData}
    {address byteCnt : UInt32} {writeCb : Bool} (buffer : Nat → UInt8)
    (isConfig : driver.config = some config) (initialised : driver.flashInitDone = true)
    (free : driver.state = 0) (unlocked : driver.mutexLocked = false) (more : byteCnt ≠ 0)
    (inside : address.toNat + byteCnt.toNat ≤ config.density.toNat)
    (unprogrammed : ¬(writeCb = false ∧ config.addrBytes ≤ 4)) :
    ¬CallWritesPages build driver config address byteCnt (some buffer) writeCb := by
  intro pages
  obtain ⟨status, next, trace, ends, isTrace, written⟩ := pages readyDevice
  obtain ⟨entered, sameConfig, runs⟩ :=
    operate_endPeState_run build flashStateWrite
      (writeBody build (fermQspi readyDevice) address byteCnt (some buffer) writeCb)
      initialised free unlocked
  obtain ⟨begun, nothing, isLoop⟩ :=
    writeBody_accepted build (fermQspi readyDevice) buffer writeCb (sameConfig.trans isConfig)
      more inside
  obtain ⟨after, commands, loops, issues, programmed⟩ :=
    writePages_ready build config.pageWriteCmd writeCb address byteCnt buffer
      (show begun.config.isSome by rw [nothing.config, sameConfig, isConfig]; rfl)
  obtain ⟨last, done, all⟩ := runs .done _ after (isLoop.trans loops) (nothing.trans issues)
  have same : (FlashStatus.done, last) = (status, next) :=
    Except.ok.inj (done.symm.trans ends)
  obtain ⟨rfl, rfl⟩ := Prod.mk.inj same
  have sameTrace : trace = commands := List.append_cancel_left (isTrace.symm.trans all.issued)
  obtain ⟨programs, complete, count, writes, -, covers, true⟩ := written
  obtain ⟨-, -, whole, accepted⟩ := true rfl
  cases programs with
  | nil => exact more (UInt32.toNat_inj.mp (whole.symm.trans covers))
  | cons program programs =>
      obtain ⟨inTrace, isCmd⟩ := writes.subset program List.mem_cons_self
      rw [sameTrace] at inTrace
      exact unprogrammed (programmed program inTrace (by rw [isCmd]; rfl)
        (accepted program List.mem_cons_self))

/-- A write covers its range page by page and says that it is done only if all pages were
programmed, exactly if it is refused, or has no callback and an address that the QSPI driver
takes. -/
theorem drvFlashWrite_pages_iff {driver : Driver} {config : FlashConfigData}
    (isConfig : driver.config = some config) (unlocked : driver.mutexLocked = false)
    (address byteCnt : UInt32) (buffer : Option (Nat → UInt8)) (writeCb : Bool) :
    CallWritesPages build driver config address byteCnt buffer writeCb ↔
      driver.flashInitDone = false ∨ driver.state ≠ 0 ∨ buffer = none ∨ byteCnt = 0 ∨
      config.density.toNat < address.toNat + byteCnt.toNat ∨
      writeCb = false ∧ config.addrBytes ≤ 4 := by
  constructor
  · intro pages
    by_contra unprogrammed
    simp only [not_or] at unprogrammed
    obtain ⟨initialised, free, isBuffer, more, inside, refused⟩ := unprogrammed
    obtain ⟨buffer, rfl⟩ := Option.ne_none_iff_exists'.mp isBuffer
    exact not_pages_of_unprogrammed build buffer isConfig (Bool.not_eq_false _ ▸ initialised)
      (not_not.mp free) unlocked more (Nat.not_lt.mp inside) refused pages
  · intro holds device
    by_cases refusedEarly : driver.flashInitDone = false ∨ driver.state ≠ 0
    case pos =>
      have failed : (if driver.flashInitDone then FlashStatus.busy else .fail) ≠ .done := by
        split <;> decide
      refine ⟨_, _, [], operate_refused build _ _ refusedEarly, (List.append_nil _).symm, ?_⟩
      cases buffer with
      | none => exact ⟨rfl, failed⟩
      | some buffer => exact pagesWritten_nil config _ _ buffer failed
    case neg =>
      obtain ⟨initialised, free⟩ := not_or.mp refusedEarly
      rw [← or_assoc] at holds
      have rest := holds.resolve_left refusedEarly
      obtain ⟨entered, sameConfig, runs⟩ :=
        operate_endPeState_run build flashStateWrite
          (writeBody build (fermQspi device) address byteCnt buffer writeCb)
          (Bool.not_eq_false _ ▸ initialised) (not_not.mp free) unlocked
      by_cases refused : buffer = none ∨ byteCnt = 0 ∨
          config.density.toNat < address.toNat + byteCnt.toNat
      case pos =>
        obtain ⟨after, nothing, ends⟩ :=
          writeBody_refused build (fermQspi device) writeCb (sameConfig.trans isConfig) refused
        obtain ⟨next, whole, all⟩ := runs _ _ after ends nothing
        refine ⟨.invalidParameter, next, [], whole, all.issued, ?_⟩
        cases buffer with
        | none => exact ⟨rfl, by decide⟩
        | some buffer => exact pagesWritten_nil config _ _ buffer (by decide)
      case neg =>
        simp only [not_or] at refused
        obtain ⟨isBuffer, more, inside⟩ := refused
        obtain ⟨buffer, rfl⟩ := Option.ne_none_iff_exists'.mp isBuffer
        obtain ⟨rfl, takes⟩ :=
          ((rest.resolve_left isBuffer).resolve_left more).resolve_left inside
        obtain ⟨begun, nothing, isLoop⟩ :=
          writeBody_accepted build (fermQspi device) buffer false (sameConfig.trans isConfig)
            more (Nat.not_lt.mp inside)
        have small : config.density.toNat ≤ config.densityInBlocks.toNat * 4096 := by
          unfold FlashConfigData.density
          rw [UInt32.toNat_mul]
          exact Nat.mod_le _ _
        obtain ⟨status, after, trace, programs, complete, count, loops, issues, writes, le,
          covers, accepts, all⟩ :=
          writePages_spec build device config.pageWriteCmd address byteCnt buffer
            (show begun.config.isSome by rw [nothing.config, sameConfig, isConfig]; rfl)
            (Nat.lt_of_le_of_lt (Nat.not_lt.mp inside) config.density.toNat_lt)
        obtain ⟨next, whole, kept⟩ :=
          runs status trace after (isLoop.trans loops) (nothing.trans issues)
        refine ⟨status, next, trace, whole, kept.issued, programs, complete, count, writes, le,
          covers, fun done => ⟨?_, (all done).1, (all done).2, ?_⟩⟩
        · exact Nat.le_trans (Nat.not_lt.mp inside) small
        · intro program isProgram
          rw [accepts program isProgram]
          simp [fermQspi, FlashConfigData.pageWriteCmd, takes]

/-- A byte that is written with a callback. -/
theorem drvFlashWrite_unprogrammed :
    ¬CallWritesPages ⟨true, false, false⟩ (Driver.ready mx25r6435f) mx25r6435f 0 1
      (some fun _ => 0x5A) true :=
  not_pages_of_unprogrammed _ _ rfl rfl rfl rfl (by decide) (by decide) (by decide)

theorem drvFlashWrite_pages_iff_mx25r6435f :
    CallWritesPages ⟨true, false, false⟩ (Driver.ready mx25r6435f) mx25r6435f 0x10F0 300
      (some fun _ => 0x5A) false :=
  (drvFlashWrite_pages_iff ⟨true, false, false⟩ rfl rfl 0x10F0 300 _ false).mpr
    (Or.inr (Or.inr (Or.inr (Or.inr (Or.inr ⟨rfl, by decide⟩)))))

end QHal.FlashDriver
