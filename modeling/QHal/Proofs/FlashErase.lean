/-
Module: QHal.Proofs.FlashErase
Purpose: Which erase commands the flash driver issues: the units that the caller names, in
  their order, except where the range test wraps around.
Trusted boundary: none
Main exports: Erases, ErasesNamed, eraseUnits_spec, drvFlashErase_named_iff
-/
import Mathlib.Algebra.Group.Nat.Defs
import Mathlib.Data.List.Range
import QHal.Proofs.FlashCommands

namespace QHal.FlashDriver

open Flash (EraseType)
open Steps

variable (build : Build) (qspi : Qspi)

/-- What an erase issues, with the erase commands among it: each behind a write enable and
its polls, and before the polls for its end. -/
inductive Erases (eraseCmd : QspiCmd) : List Issued → List Issued → Prop
  | done : Erases eraseCmd [] []
  | refused {enable : Issued} {reads : List Issued} : enable.IsWriteEnable →
      (∀ read ∈ reads, read.IsRead) → Erases eraseCmd (enable :: reads) []
  | unit {enable command : Issued} {reads waits rest commands : List Issued} :
      enable.IsWriteEnable → (∀ read ∈ reads, read.IsRead) →
      command.cmd = eraseCmd → command.dataBytes = 0 → (∀ wait ∈ waits, wait.IsRead) →
      Erases eraseCmd rest commands →
      Erases eraseCmd (enable :: reads ++ command :: waits ++ rest) (command :: commands)

/-- What a call that returns a status has issued, against the units that it was asked to
erase: nothing if they are not all on the device, and else one command for each unit in
order, as far as the call has come. -/
def ErasesNamed (config : FlashConfigData) (kind : EraseKind) (start cnt : Nat)
    (trace : List Issued) (status : FlashStatus) : Prop :=
  ∃ commands, Erases (singleCmd kind.opcode kind.addrBytes false) trace commands ∧
    (commands ≠ [] → start * kind.size.toNat + cnt * kind.size.toNat ≤
      config.densityInBlocks.toNat * 4096) ∧
    (commands.map fun command => command.addr.toNat) <+:
      (List.range cnt).map (fun unit => (start + unit) * kind.size.toNat) ∧
    (∀ command ∈ commands, kind.size.toNat ∣ command.addr.toNat) ∧
    (status = .done → commands.length = cnt)

/-! ## The loop -/

/-- One turn of the loop over the units: it stops behind the write enable, or behind the
erase command, or goes on. -/
theorem eraseUnits_succ (eraseCmd : QspiCmd) (size : UInt32) (timeout pollingMsec cnt : Nat)
    (address : UInt32) {driver : Driver} (configured : driver.config.isSome) :
    (∃ (status : FlashStatus) (next : Driver) (enable : Issued) (reads : List Issued),
      eraseUnits build qspi eraseCmd size timeout pollingMsec (cnt + 1) address driver =
        .ok (status, next) ∧ status ≠ .done ∧
      Issues (enable :: reads) driver next ∧ enable.IsWriteEnable ∧
      ∀ read ∈ reads, read.IsRead) ∨
    ∃ (status : FlashStatus) (next : Driver) (enable : Issued) (reads : List Issued)
      (command : Issued) (waits : List Issued),
      Issues (enable :: reads ++ command :: waits) driver next ∧ enable.IsWriteEnable ∧
      (∀ read ∈ reads, read.IsRead) ∧ command.cmd = eraseCmd ∧ command.addr = address ∧
      command.dataBytes = 0 ∧ (∀ wait ∈ waits, wait.IsRead) ∧
      eraseUnits build qspi eraseCmd size timeout pollingMsec (cnt + 1) address driver =
        if status ≠ .done then .ok (status, next)
        else eraseUnits build qspi eraseCmd size timeout pollingMsec cnt (address + size)
          next := by
  obtain ⟨status, middle, enable, reads, begins, first, enables, are, -⟩ :=
    writeEnable_spec build qspi configured
  by_cases enabled : status = .done
  case neg =>
    refine Or.inl ⟨status, middle, enable, reads, ?_, enabled, first, enables, are⟩
    rw [eraseUnits, run_bind begins, if_pos enabled]
    rfl
  case pos =>
    have kept : (middle.push (issue qspi middle.issued eraseCmd address (fun _ => 0)
      0)).config.isSome := by
      change middle.config.isSome
      rwa [first.config]
    obtain ⟨status', next, waits, ends, second, wait, -⟩ :=
      waitOperationDone_spec build qspi timeout (pollingMsec * 1000) .erase
        progEraseWriteBusyBmsk 0 kept
    refine Or.inr ⟨status', next, enable, reads, _, waits,
      first.trans ((issues_issue qspi eraseCmd address (fun _ => 0) 0 middle).trans second),
      enables, are, rfl, rfl, rfl, wait, ?_⟩
    rw [eraseUnits, run_bind begins, if_neg (not_not.mpr enabled), runCmd_bind, run_bind ends]
    split <;> rfl

/-- The loop erases unit behind unit from its address on. -/
theorem eraseUnits_spec (eraseCmd : QspiCmd) (size : UInt32) (timeout pollingMsec cnt : Nat)
    (address : UInt32) {driver : Driver} (configured : driver.config.isSome)
    (fits : address.toNat + cnt * size.toNat < 2 ^ 32) :
    ∃ status next trace commands,
      eraseUnits build qspi eraseCmd size timeout pollingMsec cnt address driver =
        .ok (status, next) ∧
      Issues trace driver next ∧ Erases eraseCmd trace commands ∧
      (commands.map fun command => command.addr.toNat) <+:
        List.range' address.toNat cnt size.toNat ∧
      (status = .done → commands.length = cnt) := by
  induction cnt generalizing address driver with
  | zero =>
      exact ⟨.done, driver, [], [], rfl, Issues.refl driver, .done, List.nil_prefix,
        fun _ => rfl⟩
  | succ cnt ih =>
      obtain ⟨status, next, enable, reads, ends, failed, issues, enables, are⟩ |
        ⟨status, middle, enable, reads, command, waits, first, enables, are, isErase, isAddress,
          short, wait, goes⟩ :=
        eraseUnits_succ build qspi eraseCmd size timeout pollingMsec cnt address configured
      · exact ⟨status, next, _, [], ends, issues, .refused enables are, List.nil_prefix,
          fun done => absurd done failed⟩
      · have next_toNat : (address + size).toNat = address.toNat + size.toNat := by
          rw [UInt32.toNat_add, Nat.mod_eq_of_lt]
          exact Nat.lt_of_le_of_lt
            (Nat.add_le_add_left (Nat.le_mul_of_pos_left _ (Nat.succ_pos cnt)) _) fits
        rw [goes]
        by_cases idle : status = .done
        case neg =>
          rw [if_pos idle]
          refine ⟨status, middle, _, [command], rfl, first, ?_, ?_,
            fun done => absurd done idle⟩
          · have unit := Erases.unit enables are isErase short wait Erases.done
            rwa [List.append_nil] at unit
          · rw [List.range'_succ, List.map_cons, isAddress]
            exact List.prefix_cons_inj _ |>.mpr List.nil_prefix
        case pos =>
          rw [if_neg (not_not.mpr idle)]
          obtain ⟨status', next, trace, commands, ends, second, erases, addresses, all⟩ :=
            ih (address + size) (by rwa [first.config])
              (by rw [next_toNat]; rw [Nat.succ_mul] at fits; omega)
          refine ⟨status', next, _, command :: commands, ends, first.trans second,
            .unit enables are isErase short wait erases, ?_, fun done => ?_⟩
          · rw [List.range'_succ, List.map_cons, isAddress, ← next_toNat]
            exact List.prefix_cons_inj _ |>.mpr addresses
          · rw [List.length_cons, all done]

/-- On a device that is always ready the loop erases all units. -/
theorem eraseUnits_ready (eraseCmd : QspiCmd) (size : UInt32) {timeout pollingMsec : Nat}
    (polls : 0 < timeout / (pollingMsec * 1000)) (cnt : Nat) (address : UInt32)
    {driver : Driver} (configured : driver.config.isSome) :
    ∃ next commands,
      eraseUnits build (fermQspi readyDevice) eraseCmd size timeout pollingMsec cnt address
        driver = .ok (.done, next) ∧ Issues commands driver next := by
  induction cnt generalizing address driver with
  | zero => exact ⟨driver, [], rfl, Issues.refl driver⟩
  | succ cnt ih =>
      obtain ⟨enabled, reads, begins, first, -⟩ := writeEnable_ready build configured
      have kept : (enabled.push (issue (fermQspi readyDevice) enabled.issued eraseCmd address
        (fun _ => 0) 0)).config.isSome := by
        change enabled.config.isSome
        rwa [first.config]
      obtain ⟨idle, waits, ends, second, -⟩ :=
        wait_ready build .erase polls kept (readyDevice_idle _ _)
      have issued := first.trans
        ((issues_issue (fermQspi readyDevice) eraseCmd address (fun _ => 0) 0 enabled).trans second)
      obtain ⟨next, commands, goes, third⟩ := ih (address + size) (by rwa [issued.config])
      refine ⟨next, _, ?_, issued.trans third⟩
      rw [eraseUnits, run_bind begins, if_neg (not_not.mpr rfl), runCmd_bind, run_bind ends,
        if_neg (not_not.mpr rfl)]
      exact goes

/-! ## The call -/

/-- What a call of `drv_flash_erase` may issue, whatever the QSPI driver and the device
answer. -/
def CallErasesNamed (driver : Driver) (config : FlashConfigData)
    (eraseType : Option EraseType) (start cnt : UInt32) : Prop :=
  ∀ qspi, ∃ status next trace,
    drvFlashErase build qspi eraseType start cnt driver = .ok (status, next) ∧
    next.issued = driver.issued ++ trace ∧
    match config.eraseKind config.addrBytes eraseType with
    | none => trace = []
    | some kind => ErasesNamed config kind start.toNat cnt.toNat trace status

theorem erasesNamed_nil (config : FlashConfigData) (kind : EraseKind) (start cnt : Nat)
    {status : FlashStatus} (failed : status ≠ .done) :
    ErasesNamed config kind start cnt [] status :=
  ⟨[], .done, fun some => absurd rfl some, List.nil_prefix, nofun,
    fun done => absurd done failed⟩

/-- The end of a range, as the range test computes it. -/
theorem end_toNat (start cnt size : UInt32) :
    ((start + cnt) * size).toNat = (start.toNat + cnt.toNat) * size.toNat % 2 ^ 32 := by
  rw [UInt32.toNat_mul, UInt32.toNat_add, Nat.mod_mul_mod]

/-- A range test that does not wrap around refuses what is not on the device. -/
theorem eraseRefuses_false {density size start cnt : UInt32}
    (accepted : eraseRefuses density size start cnt = false) :
    cnt ≠ 0 ∧ (start.toNat + cnt.toNat) * size.toNat % 2 ^ 32 ≤ density.toNat := by
  simp only [eraseRefuses, Bool.or_eq_false_iff, decide_eq_false_iff_not, gt_iff_lt,
    UInt32.not_lt] at accepted
  obtain ⟨⟨some, -⟩, inside⟩ := accepted
  rw [UInt32.le_iff_toNat_le, end_toNat] at inside
  exact ⟨some, inside⟩

theorem eraseKind_polls {config : FlashConfigData} {addrBytes : UInt8}
    {eraseType : Option EraseType} {kind : EraseKind}
    (isKind : config.eraseKind addrBytes eraseType = some kind) :
    0 < kind.timeout / (kind.pollingMsec * 1000) := by
  unfold FlashConfigData.eraseKind at isKind
  split at isKind
  case h_4 => cases isKind
  all_goals
    split at isKind
    · cases isKind
    · cases isKind
      dsimp only
      decide

/-- The body of an erase that passes the range test is its loop. -/
theorem eraseBody_accepted {config : FlashConfigData} {kind : EraseKind}
    {eraseType : Option EraseType} {start cnt : UInt32} {entered : Driver}
    (isConfig : entered.config = some config)
    (isKind : config.eraseKind config.addrBytes eraseType = some kind)
    (accepted : eraseRefuses config.density kind.size start cnt = false) :
    ∃ begun, Issues [] entered begun ∧
      eraseBody build qspi config.addrBytes eraseType start cnt entered =
        eraseUnits build qspi (singleCmd kind.opcode kind.addrBytes false) kind.size
          kind.timeout kind.pollingMsec cnt.toNat (start * kind.size) begun := by
  unfold eraseBody
  rw [readConfig_bind isConfig]
  dsimp only
  rw [isKind]
  dsimp only
  rw [if_neg (by rw [accepted]; decide)]
  split
  · refine ⟨_, ?_, rfl⟩
    exact ⟨(List.append_nil _).symm, rfl, rfl, rfl, rfl, rfl, id⟩
  · refine ⟨_, ?_, rfl⟩
    exact ⟨(List.append_nil _).symm, rfl, rfl, rfl, rfl, rfl, id⟩

/-- The body of an erase that is refused issues nothing. -/
theorem eraseBody_refused {config : FlashConfigData} {eraseType : Option EraseType}
    {start cnt : UInt32} {entered : Driver} (isConfig : entered.config = some config)
    (refused : ∀ kind, config.eraseKind config.addrBytes eraseType = some kind →
      eraseRefuses config.density kind.size start cnt = true) :
    ∃ after, Issues [] entered after ∧
      eraseBody build qspi config.addrBytes eraseType start cnt entered =
        .ok (.invalidParameter, after) := by
  unfold eraseBody
  rw [readConfig_bind isConfig]
  dsimp only
  refine ⟨{ entered with configReads := entered.configReads + 1 },
    ⟨(List.append_nil _).symm, rfl, rfl, rfl, rfl, rfl, id⟩, ?_⟩
  cases isKind : config.eraseKind config.addrBytes eraseType with
  | none => rfl
  | some kind =>
      dsimp only
      rw [if_pos (refused kind isKind)]
      rfl

/-- The units of a range, one after another. -/
theorem range'_units (start cnt size : Nat) :
    List.range' (start * size) cnt size =
      (List.range cnt).map fun unit => (start + unit) * size := by
  induction cnt generalizing start with
  | zero => rfl
  | succ cnt ih =>
      rw [List.range'_succ, ← Nat.succ_mul, ih, List.range_succ_eq_map, List.map_cons,
        List.map_map]
      refine congrArg _ (List.map_congr_left fun unit _ => ?_)
      rw [Function.comp_apply, Nat.succ_add, Nat.add_succ]

/-- A call on a driver that is free does what its body does. -/
theorem drvFlashErase_run {config : FlashConfigData} {eraseType : Option EraseType}
    {start cnt : UInt32} {driver : Driver} (isConfig : driver.config = some config)
    (initialised : driver.flashInitDone = true) (free : driver.state = 0)
    (unlocked : driver.mutexLocked = false) :
    ∃ entered, entered.config = some config ∧
      ∀ status commands after,
        eraseBody build qspi config.addrBytes eraseType start cnt entered = .ok (status, after) →
        Issues commands entered after →
        ∃ next, drvFlashErase build qspi eraseType start cnt driver = .ok (status, next) ∧
          next.issued = driver.issued ++ commands := by
  obtain ⟨entered, sameConfig, runs⟩ :=
    operate_endPeState_run build flashStateErase
      (eraseBody build qspi config.addrBytes eraseType start cnt)
      (show ({ driver with configReads := driver.configReads + 1 } : Driver).flashInitDone = true
        from initialised) free unlocked
  refine ⟨entered, sameConfig.trans isConfig, fun status commands after ends issues => ?_⟩
  obtain ⟨next, whole, all⟩ := runs status commands after ends issues
  refine ⟨next, ?_, all.issued⟩
  unfold drvFlashErase
  rw [readConfig_bind isConfig]
  exact whole

/-- A range that wraps around and passes the test is erased though it is not on the device. -/
theorem not_named_of_wrap {driver : Driver} {config : FlashConfigData} {kind : EraseKind}
    {eraseType : Option EraseType} {start cnt : UInt32} (isConfig : driver.config = some config)
    (initialised : driver.flashInitDone = true) (free : driver.state = 0)
    (unlocked : driver.mutexLocked = false)
    (fits : config.densityInBlocks.toNat * 4096 < 2 ^ 32)
    (isKind : config.eraseKind config.addrBytes eraseType = some kind)
    (wrapped : 2 ^ 32 ≤ (start.toNat + cnt.toNat) * kind.size.toNat)
    (accepted : eraseRefuses config.density kind.size start cnt = false) :
    ¬CallErasesNamed build driver config eraseType start cnt := by
  intro named
  obtain ⟨some, -⟩ := eraseRefuses_false accepted
  obtain ⟨status, next, trace, ends, -, erased⟩ := named (fermQspi readyDevice)
  obtain ⟨entered, sameConfig, runs⟩ :=
    drvFlashErase_run build (fermQspi readyDevice) isConfig initialised free unlocked
  obtain ⟨begun, nothing, isLoop⟩ :=
    eraseBody_accepted build (fermQspi readyDevice) sameConfig isKind accepted
  obtain ⟨after, commands, loops, issues⟩ :=
    eraseUnits_ready build (singleCmd kind.opcode kind.addrBytes false) kind.size
      (eraseKind_polls isKind) cnt.toNat (start * kind.size)
      (show begun.config.isSome by rw [nothing.config, sameConfig]; rfl)
  obtain ⟨last, done, -⟩ := runs .done _ after (isLoop.trans loops) (nothing.trans issues)
  rw [done] at ends
  obtain ⟨rfl, rfl⟩ := Prod.mk.inj (Except.ok.inj ends)
  rw [isKind] at erased
  obtain ⟨units, -, inside, -, -, all⟩ := erased
  have more : units ≠ [] := by
    intro none
    have count := all rfl
    rw [none] at count
    exact some (UInt32.toNat_inj.mp count.symm)
  have bound := inside more
  rw [← Nat.add_mul] at bound
  omega

/-- The block behind 4 GiB is the first block of the device. -/
theorem drvFlashErase_wraps :
    ¬CallErasesNamed ⟨true, false, false⟩ (Driver.ready mx25r6435f) mx25r6435f (some .block)
      0x100000 1 :=
  not_named_of_wrap _ rfl rfl rfl rfl (by decide) rfl (by decide) (by decide)

/-- A call erases what it was asked to, and nothing if that is not all on the device, exactly
if the range test does not wrap around or refuses in spite of that. -/
theorem drvFlashErase_named_iff {driver : Driver} {config : FlashConfigData}
    (isConfig : driver.config = some config) (unlocked : driver.mutexLocked = false)
    (fits : config.densityInBlocks.toNat * 4096 < 2 ^ 32) (eraseType : Option EraseType)
    (start cnt : UInt32) :
    CallErasesNamed build driver config eraseType start cnt ↔
      driver.flashInitDone = false ∨ driver.state ≠ 0 ∨
      ∀ kind, config.eraseKind config.addrBytes eraseType = some kind →
        (start.toNat + cnt.toNat) * kind.size.toNat < 2 ^ 32 ∨
        eraseRefuses config.density kind.size start cnt = true := by
  have density : config.density.toNat = config.densityInBlocks.toNat * 4096 := by
    unfold FlashConfigData.density
    rw [UInt32.toNat_mul, Nat.mod_eq_of_lt]
    · rfl
    · exact fits
  constructor
  · intro named
    by_contra wraps
    push Not at wraps
    obtain ⟨initialised, free, kind, isKind, wrapped, accepted⟩ := wraps
    rw [ne_eq, Bool.not_eq_false] at initialised
    rw [ne_eq, Bool.not_eq_true] at accepted
    exact not_named_of_wrap build isConfig initialised free unlocked fits isKind wrapped accepted
      named
  · intro holds qspi
    by_cases refusedEarly : driver.flashInitDone = false ∨ driver.state ≠ 0
    case pos =>
      refine ⟨_, _, [], drvFlashErase_refused build qspi isConfig refusedEarly,
        (List.append_nil _).symm, ?_⟩
      cases config.eraseKind config.addrBytes eraseType with
      | none => rfl
      | some kind => exact erasesNamed_nil config kind _ _ (by split <;> decide)
    case neg =>
      obtain ⟨initialised, free⟩ := not_or.mp refusedEarly
      rw [Bool.not_eq_false] at initialised
      rw [not_not] at free
      have whole := (holds.resolve_left (by rw [initialised]; decide)).resolve_left
        (not_not.mpr free)
      obtain ⟨entered, sameConfig, runs⟩ :=
        drvFlashErase_run build qspi isConfig initialised free unlocked
      by_cases passes : ∃ kind, config.eraseKind config.addrBytes eraseType = some kind ∧
          eraseRefuses config.density kind.size start cnt = false
      case neg =>
        have refused : ∀ kind, config.eraseKind config.addrBytes eraseType = some kind →
            eraseRefuses config.density kind.size start cnt = true := fun kind isKind => by
          by_contra accepted
          exact passes ⟨kind, isKind, Bool.not_eq_true _ ▸ accepted⟩
        obtain ⟨after, nothing, ends⟩ := eraseBody_refused build qspi sameConfig refused
        obtain ⟨next, whole, issued⟩ := runs _ _ after ends nothing
        refine ⟨_, next, [], whole, issued, ?_⟩
        cases config.eraseKind config.addrBytes eraseType with
        | none => rfl
        | some kind => exact erasesNamed_nil config kind _ _ (by decide)
      case pos =>
        obtain ⟨kind, isKind, accepted⟩ := passes
        obtain ⟨some, inside⟩ := eraseRefuses_false accepted
        have small := (whole kind isKind).resolve_right (by rw [accepted]; decide)
        rw [Nat.mod_eq_of_lt small, density] at inside
        obtain ⟨begun, nothing, isLoop⟩ :=
          eraseBody_accepted build qspi sameConfig isKind accepted
        have total := Nat.add_mul start.toNat cnt.toNat kind.size.toNat
        have first : (start * kind.size).toNat = start.toNat * kind.size.toNat := by
          rw [UInt32.toNat_mul, Nat.mod_eq_of_lt (by omega)]
        obtain ⟨status, after, trace, commands, loops, issues, erases, addresses, all⟩ :=
          eraseUnits_spec build qspi (singleCmd kind.opcode kind.addrBytes false) kind.size
            kind.timeout kind.pollingMsec cnt.toNat (start * kind.size)
            (show begun.config.isSome by rw [nothing.config, sameConfig]; rfl)
            (by rw [first]; omega)
        obtain ⟨next, done, issued⟩ :=
          runs status trace after (isLoop.trans loops) (nothing.trans issues)
        have units : (commands.map fun command => command.addr.toNat) <+:
            (List.range cnt.toNat).map fun unit => (start.toNat + unit) * kind.size.toNat := by
          rw [first, range'_units] at addresses
          exact addresses
        refine ⟨status, next, trace, done, issued, ?_⟩
        rw [isKind]
        refine ⟨commands, erases, fun _ => by omega, units, fun command isCommand => ?_, all⟩
        have isUnit := units.subset (List.mem_map_of_mem isCommand)
        obtain ⟨unit, -, isAddress⟩ := List.mem_map.mp isUnit
        exact ⟨start.toNat + unit, by rw [← isAddress, Nat.mul_comm]⟩

theorem drvFlashErase_named_iff_mx25r6435f :
    CallErasesNamed ⟨true, false, false⟩ (Driver.ready mx25r6435f) mx25r6435f (some .bulk) 3 2 :=
  (drvFlashErase_named_iff ⟨true, false, false⟩ rfl rfl (by decide) (some .bulk) 3 2).mpr
    (Or.inr (Or.inr fun kind isKind => Or.inl (by cases isKind; decide)))

end QHal.FlashDriver
