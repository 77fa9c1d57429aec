/-
Module: QHal.Proofs.NvmBoard
Purpose: The RRAM and the flash behind one interface, and the commands of the host over it:
  what a run of `JTAG_Run` leaves for a program and for a checksum command.
Trusted boundary: none
Main exports: Target.Fits, write_ok, write_accepts, read_same, read_accepts, Waiting,
  command_program, command_program_finishes, command_crc, command_crc_finishes
-/
import QHal.Lib.Steps
import QHal.Nvm.Download
import QHal.Proofs.NvmFlash
import QHal.Proofs.OtpPermissions

namespace QHal.Nvm

open Flash (FlashConfig FlashStatus flashInit flashWrite flashRead)
open Steps (bind_ok_iff)

variable {config : FlashConfig} {faults : Nat → Option Fault} {target : Target}

/-! ## The devices -/

/-- A range in a device that its writes accept. -/
def Target.Fits (config : FlashConfig) (target : Target) (address : Int) (size : Nat) : Prop :=
  match target with
  | .rram => address % 4 = 0 ∧ 0x200000 ≤ address ∧ address + size ≤ 0x380000
  | .flash => address % 4096 = 0 ∧ 0 ≤ address ∧ address + size ≤ config.density.toNat

def Target.functions (config : FlashConfig) (faults : Nat → Option Fault) :
    Target → NvmFunctions Board
  | .rram => rramFunctions faults
  | .flash => flashFunctions config faults

/-- Two boards with the same contents. -/
def Board.Same (board other : Board) : Prop :=
  board.rram = other.rram ∧ board.flash = other.flash

/-- The flash can be written from an address on: it can be erased, or is blank there. -/
def Board.Writable (config : FlashConfig) (board : Board) (target : Target) (address : Nat) :
    Prop :=
  target = .flash →
    config.erase4kbOpcode ≠ 0 ∨ ∀ cell, address ≤ cell → board.flash.cells cell = 0xFF

theorem Board.Same.byteAt {board other : Board} (same : board.Same other) (address : Int) :
    board.byteAt config target address = other.byteAt config target address := by
  unfold Board.byteAt
  rw [same.1, same.2]

theorem Board.Same.symm {board other : Board} (same : board.Same other) : other.Same board :=
  ⟨same.1.symm, same.2.symm⟩

theorem Board.Same.trans {first second third : Board} (one : first.Same second)
    (two : second.Same third) : first.Same third :=
  ⟨one.1.trans two.1, one.2.trans two.2⟩

theorem Board.Same.writable {board other : Board} (same : board.Same other) {address : Nat}
    (able : other.Writable config target address) : board.Writable config target address := by
  unfold Board.Writable
  rw [same.2]
  exact able

/-- The ranges of the RRAM that are accepted. -/
theorem nvmRramVerifyAddress_iff (config : FlashConfig) {address length : UInt32}
    (nonempty : length.toNat ≠ 0) :
    nvmRramVerifyAddress address length = true ↔
      Target.Fits config .rram address.toNat length.toNat := by
  have first : rramStart.toNat = 0x200000 := rfl
  have last : rramEnd.toNat = 0x37FFFF := rfl
  have one : (1 : UInt32).toNat = 1 := rfl
  have aligned : address % 4 = 0 ↔ address.toNat % 4 = 0 := by
    rw [← UInt32.toNat_inj, UInt32.toNat_mod]
    rfl
  have room : address.toNat ≤ rramEnd.toNat →
      (rramEnd - address + 1).toNat = 0x37FFFF - address.toNat + 1 := by
    intro high
    rw [UInt32.toNat_add, UInt32.toNat_sub_of_le _ _ (UInt32.le_iff_toNat_le.mpr high), last, one]
    omega
  unfold nvmRramVerifyAddress verifyAddress Target.Fits
  simp only [Bool.and_eq_true, decide_eq_true_eq, ge_iff_le, aligned, UInt32.le_iff_toNat_le,
    and_assoc, first]
  constructor
  · rintro ⟨low, high, multiple, rest⟩
    rw [room high] at rest
    omega
  · rintro ⟨multiple, low, rest⟩
    have high : address.toNat ≤ rramEnd.toNat := by omega
    rw [room high]
    omega

theorem statusWord_eq_zero {status : FlashStatus} (ok : statusWord status = 0) :
    status = .done := by
  cases status with
  | done => rfl
  | _ => cases ok

/-- A write that succeeds: its data is in the device, which keeps what lies below. -/
theorem write_ok {board after : Board} {address size : UInt32} {buffer : Nat → UInt8}
    (nonempty : size.toNat ≠ 0)
    (wrote : (target.functions config faults).write board address buffer size = (0, after)) :
    target.Fits config address.toNat size.toNat ∧
      (∀ i < size.toNat,
        after.byteAt config target (address.toNat + i : Nat) = some (buffer i)) ∧
      (∀ cell < address.toNat,
        after.byteAt config target cell = board.byteAt config target cell) ∧
      (board.Writable config target address.toNat → (address.toNat + size.toNat) % 4096 = 0 →
        after.Writable config target (address.toNat + size.toNat)) := by
  cases target with
  | rram =>
      simp only [Target.functions, rramFunctions, Board.operate] at wrote
      cases outcome : faults board.operations with
      | some fault =>
          rw [outcome] at wrote
          exact absurd (Prod.mk.inj wrote).1 fault.failed
      | none =>
          rw [outcome] at wrote
          cases verified : nvmRramVerifyAddress address size with
          | false =>
              simp only [nvmRramWrite, if_pos verified] at wrote
              cases wrote
          | true =>
              have fits := (nvmRramVerifyAddress_iff config nonempty).mp verified
              simp only [nvmRramWrite, if_neg (show ¬ nvmRramVerifyAddress address size = false by
                rw [verified]; exact nofun), rramWrite_eq, Option.map_some] at wrote
              obtain rfl := (Prod.mk.inj wrote).2
              have ⟨_, low, high⟩ := fits
              have first : rramStart.toNat = 0x200000 := rfl
              have last : rramEnd.toNat = 0x37FFFF := rfl
              refine ⟨fits, fun i below => ?_, fun cell below => ?_, fun _ _ => nofun⟩
              · simp only [Board.byteAt, Int.toNat_natCast, Mem.overlay]
                rw [if_pos (by omega), if_pos (by omega), Nat.add_sub_cancel_left]
              · simp only [Board.byteAt, Int.toNat_natCast, Mem.overlay]
                rw [if_neg (show ¬ (address.toNat ≤ cell ∧ cell < address.toNat + size.toNat) by
                  omega)]
  | flash =>
      simp only [Target.functions, flashFunctions, Board.operate] at wrote
      cases outcome : faults board.operations with
      | some fault =>
          rw [outcome] at wrote
          exact absurd (Prod.mk.inj wrote).1 fault.failed
      | none =>
          rw [outcome] at wrote
          cases result : flashWrite (flashInit config board.flash) address (some buffer) size with
          | none =>
              rw [result] at wrote
              cases wrote
          | some written =>
              obtain ⟨status, nvm⟩ := written
              rw [result] at wrote
              obtain ⟨ok, rfl⟩ := Prod.mk.inj wrote
              obtain rfl := statusWord_eq_zero ok
              obtain ⟨aligned, -, fits, device, rfl, data, kept⟩ :=
                Flash.flashWrite_done config board.flash result
              refine ⟨⟨by omega, by omega, by omega⟩, fun i below => ?_, fun cell below => ?_,
                fun able multiple _ => ?_⟩
              · simp only [Board.byteAt, Int.toNat_natCast]
                rw [if_pos (by omega)]
                exact congrArg some (data i below)
              · simp only [Board.byteAt, Int.toNat_natCast]
                refine if_congr Iff.rfl (congrArg some (kept cell fun i inside => ?_)) rfl
                omega
              · refine (able rfl).imp id fun blank cell above => ?_
                rw [← blank cell (by omega)]
                exact kept cell fun i inside => by omega

/-- A write that fits succeeds. -/
theorem write_accepts {board : Board} {address size : UInt32} (buffer : Nat → UInt8)
    (nonempty : size.toNat ≠ 0) (fits : target.Fits config address.toNat size.toNat)
    (able : board.Writable config target address.toNat) :
    ∃ after, (target.functions config fun _ => none).write board address buffer size =
      (0, after) := by
  cases target with
  | rram =>
      have verified := (nvmRramVerifyAddress_iff config nonempty).mpr fits
      simp only [Target.functions, rramFunctions, Board.operate, nvmRramWrite, verified,
        Bool.true_eq_false, if_false, rramWrite_eq, Option.map_some]
      exact ⟨_, rfl⟩
  | flash =>
      obtain ⟨aligned, -, inside⟩ := fits
      obtain ⟨nvm, wrote⟩ := Flash.flashWrite_accepts config board.flash buffer
        (by omega) nonempty (by omega) (able rfl)
      simp only [Target.functions, flashFunctions, Board.operate, wrote]
      exact ⟨_, rfl⟩

/-- A read changes nothing. -/
theorem read_same (config : FlashConfig) (faults : Nat → Option Fault) (target : Target)
    (board : Board) (address : UInt32) (buffer : Nat → UInt8) (size : UInt32) :
    ((target.functions config faults).read board address buffer size).2.2.Same board := by
  cases target with
  | rram =>
      simp only [Target.functions, rramFunctions, Board.operate]
      cases faults board.operations with
      | none => exact ⟨rfl, rfl⟩
      | some fault => exact ⟨rfl, rfl⟩
  | flash =>
      simp only [Target.functions, flashFunctions, Board.operate]
      cases faults board.operations with
      | none => exact ⟨rfl, rfl⟩
      | some fault => exact ⟨rfl, rfl⟩

/-- A read of a range in the device gives its bytes. -/
theorem read_accepts (board : Board) {address size : UInt32} (buffer : Nat → UInt8)
    (nonempty : size.toNat ≠ 0) (fits : target.Fits config address.toNat size.toNat) :
    ∃ filled after, (target.functions config fun _ => none).read board address buffer size =
        (0, filled, after) ∧
      ∀ i < size.toNat, board.byteAt config target (address.toNat + i : Nat) = some (filled i) := by
  cases target with
  | rram =>
      have verified := (nvmRramVerifyAddress_iff config nonempty).mpr fits
      obtain ⟨-, low, high⟩ := fits
      have first : rramStart.toNat = 0x200000 := rfl
      have last : rramEnd.toNat = 0x37FFFF := rfl
      simp only [Target.functions, rramFunctions, Board.operate, nvmRramRead, verified,
        Bool.true_eq_false, if_false]
      refine ⟨_, _, rfl, fun i below => ?_⟩
      simp only [Board.byteAt, Int.toNat_natCast, Mem.overlay]
      rw [if_pos (by omega), if_pos (by omega), Nat.sub_zero]
  | flash =>
      obtain ⟨aligned, -, inside⟩ := fits
      obtain ⟨filled, read, cells⟩ :=
        Flash.readLoop_spec config board.flash address size 0 buffer (by omega)
      simp only [Target.functions, flashFunctions, Board.operate, flashRead, read]
      refine ⟨_, _, rfl, fun i below => ?_⟩
      simp only [Board.byteAt, Int.toNat_natCast]
      rw [if_pos (by omega), cells, if_pos (by omega), Nat.sub_zero]

/-! ## One continue -/

/-- The programmer at the breakpoint, with the functions that its `Device_Attach` has assigned
if it has attached one of the targets. -/
structure Waiting (config : FlashConfig) (faults : Nat → Option Fault)
    (programmer : Programmer Board) : Prop where
  place : programmer.place = .attach
  offset : programmer.block.offset = 0
  attached : ∀ target : Target, programmer.deviceTypeAttached = target.word →
    programmer.functions = some (target.functions config faults)

/-- The programmer after its start. -/
theorem start_waiting (config : FlashConfig) (faults : Nat → Option Fault) (board : Board) :
    Waiting config faults (start board) where
  place := rfl
  offset := rfl
  attached := by
    intro target same
    cases target with
    | rram => exact absurd (show (0xFFFF : UInt32) = 0 from same) (by decide)
    | flash => exact absurd (show (0xFFFF : UInt32) = 1 from same) (by decide)

/-- The programmer with a target attached. -/
def attachedTo (config : FlashConfig) (faults : Nat → Option Fault) (target : Target)
    (device : Board) (programmer : Programmer Board) : Programmer Board :=
  { programmer with
    deviceTypeAttached := target.word
    functions := some (target.functions config faults)
    device := device }

/-- `flash_init` succeeds, or an operation of the flash has failed. -/
theorem initFlash_cases (faults : Nat → Option Fault) (board : Board) :
    (∃ device : Board, device.Same board ∧ initFlash faults board = (0, device)) ∨
      ∃ operation fault device, faults operation = some fault ∧
        initFlash faults board = (fault.status, device) := by
  unfold initFlash
  by_cases inited : board.flashInited = true
  · rw [if_pos inited]
    exact Or.inl ⟨board, ⟨rfl, rfl⟩, rfl⟩
  · rw [if_neg inited, Board.operate]
    cases outcome : faults board.operations with
    | none =>
        exact Or.inl
          ⟨{ board with operations := board.operations + 1, flashInited := true }, ⟨rfl, rfl⟩, rfl⟩
    | some fault => exact Or.inr ⟨_, fault, _, outcome, rfl⟩

/-- `Device_Attach` while the host is stopped: the status, and the programmer behind it. -/
def deviceAttach (drivers : Drivers Board) (programmer : Programmer Board) :
    UInt32 × Programmer Board :=
  if programmer.deviceTypeAttached = programmer.deviceType then (Status.noError, programmer)
  else
    let (status, switched) := deviceSwitch drivers programmer
    if status = Status.noError then
      (status, { switched with deviceTypeAttached := switched.deviceType })
    else (status, switched)

/-- The target is attached, or it was not and an operation of the flash has failed. -/
theorem deviceAttach_selected {programmer : Programmer Board}
    (waiting : Waiting config faults programmer)
    (selected : programmer.deviceType = target.word) :
    (∃ device : Board, device.Same programmer.device ∧
      deviceAttach (drivers config faults) programmer =
        (Status.noError, attachedTo config faults target device programmer)) ∨
    ((deviceAttach (drivers config faults) programmer).1 = Status.programError ∧
      programmer.deviceTypeAttached ≠ target.word ∧
      ∃ operation fault, faults operation = some fault) := by
  unfold deviceAttach deviceSwitch attachedTo
  by_cases same : programmer.deviceTypeAttached = programmer.deviceType
  · left
    rw [if_pos same]
    refine ⟨programmer.device, ⟨rfl, rfl⟩, ?_⟩
    rw [selected] at same
    rw [← waiting.attached target same, ← same]
  · rw [if_neg same, selected]
    cases target with
    | rram => exact Or.inl ⟨programmer.device, ⟨rfl, rfl⟩, rfl⟩
    | flash =>
        have other : ¬ (1 : UInt32) = 0 := by decide
        rcases initFlash_cases faults programmer.device with
          ⟨device, alike, done⟩ | ⟨operation, fault, device, outcome, failed⟩
        · refine Or.inl ⟨device, alike, ?_⟩
          simp only [Target.word, if_neg other, if_true, drivers, done, Status.ofResult]
          rfl
        · have refused : ¬ Status.programError = Status.noError := by decide
          refine Or.inr ⟨?_, fun attached => same (attached.trans selected.symm), operation, fault,
            outcome⟩
          simp only [Target.word, if_neg other, if_true, drivers, failed, Status.ofResult,
            if_neg fault.failed, if_neg refused]

/-- An access that does not lead back to the breakpoint. -/
theorem runOnce_next {drivers : Drivers Board} {programmer next : Programmer Board}
    {events : List Event} (accesses : Nat)
    (ran : jtagRun drivers programmer = some (next, events)) (goes : next.place ≠ .attach) :
    runOnce drivers (accesses + 1) programmer = runOnce drivers accesses next := by
  simp only [runOnce, ran, Option.bind_eq_bind, Option.bind_some, if_neg goes]

/-- The `switch` does not look at the place. -/
theorem deviceSwitch_place (drivers : Drivers Board) (programmer : Programmer Board)
    (place : Place) :
    deviceSwitch drivers { programmer with place := place } =
      ((deviceSwitch drivers programmer).1,
        { (deviceSwitch drivers programmer).2 with place := place }) := by
  unfold deviceSwitch
  dsimp only
  repeat' split
  all_goals rfl

/-- A run that cannot attach stores an error. -/
theorem runOnce_failed {drivers : Drivers Board} {programmer : Programmer Board}
    (place : programmer.place = .attach)
    (failed : (deviceAttach drivers programmer).1 = Status.programError) :
    ∃ after, runOnce drivers 7 programmer = some after ∧
      after.block.command = Status.programError := by
  have refused : ¬ Status.programError = Status.noError := by decide
  unfold deviceAttach at failed
  by_cases same : programmer.deviceTypeAttached = programmer.deviceType
  · rw [if_pos same] at failed
    exact absurd failed.symm refused
  · rw [if_neg same] at failed
    dsimp only at failed
    have status : (deviceSwitch drivers programmer).1 = Status.programError := by
      split at failed <;> exact failed
    have test : jtagRun drivers programmer =
        some ({ programmer with place := .attachSwitch }, []) := by
      simp only [jtagRun, place, if_neg same]
    have switch : jtagRun drivers { programmer with place := .attachSwitch } =
        some ({ (deviceSwitch drivers programmer).2 with place := .attachFailed }, []) := by
      simp only [jtagRun, deviceSwitch_place, status, if_neg refused]
    rw [runOnce_next _ test nofun, runOnce_next _ switch nofun]
    exact ⟨_, rfl, rfl⟩

/-- A run with the target attached takes the command, and has two accesses left for its end. -/
theorem runOnce_attached {drivers : Drivers Board} {programmer attached : Programmer Board}
    {command : Command} (place : programmer.place = .attach)
    (attach : deviceAttach drivers programmer = (Status.noError, attached))
    (known : Command.ofWord attached.block.command = some command) :
    ∃ more, runOnce drivers 7 programmer =
      let after := (execute { attached with place := .execute command } command).1
      if after.place = .attach then some after else runOnce drivers (more + 2) after := by
  have dispatch (accesses : Nat) :
      runOnce drivers (accesses + 2) { attached with place := .dispatch } =
        let after := (execute { attached with place := .execute command } command).1
        if after.place = .attach then some after else runOnce drivers accesses after := by
    have taken : jtagRun drivers { attached with place := .dispatch } =
        some ({ attached with place := .execute command },
          [.taken attached.block.command]) := by
      simp only [jtagRun, known]
    rw [runOnce_next _ taken nofun]
    rfl
  unfold deviceAttach at attach
  by_cases same : programmer.deviceTypeAttached = programmer.deviceType
  · rw [if_pos same] at attach
    obtain rfl := (Prod.mk.inj attach).2
    have test : jtagRun drivers programmer = some ({ programmer with place := .dispatch }, []) := by
      simp only [jtagRun, place, if_pos same]
    exact ⟨2, by rw [runOnce_next _ test nofun, dispatch]⟩
  · rw [if_neg same] at attach
    dsimp only at attach
    have status : (deviceSwitch drivers programmer).1 = Status.noError := by
      by_contra failed
      rw [if_neg failed] at attach
      exact failed (Prod.mk.inj attach).1
    rw [if_pos status] at attach
    obtain rfl := (Prod.mk.inj attach).2
    have test : jtagRun drivers programmer =
        some ({ programmer with place := .attachSwitch }, []) := by
      simp only [jtagRun, place, if_neg same]
    have switch : jtagRun drivers { programmer with place := .attachSwitch } =
        some ({ (deviceSwitch drivers programmer).2 with place := .attachStore }, []) := by
      simp only [jtagRun, deviceSwitch_place, status, if_true]
    have store : jtagRun drivers
        { (deviceSwitch drivers programmer).2 with place := .attachStore } =
        some ({ (deviceSwitch drivers programmer).2 with
          deviceTypeAttached := (deviceSwitch drivers programmer).2.deviceType
          place := .dispatch }, []) := rfl
    refine ⟨0, ?_⟩
    rw [runOnce_next _ test nofun, runOnce_next _ switch nofun, runOnce_next _ store nofun]
    exact dispatch 2

/-- What is known behind a continue. -/
structure Returned (config : FlashConfig) (faults : Nat → Option Fault) (target : Target)
    (programmer : Programmer Board) : Prop extends Waiting config faults programmer where
  selected : programmer.deviceType = target.word

/-- The bytes of a checksum are only read. -/
theorem checksum_same (config : FlashConfig) (faults : Nat → Option Fault) (target : Target)
    (board : Board) (buffer : Nat → UInt8) (address length : UInt32) :
    (checksum (target.functions config faults).read board buffer address length).1.Same board := by
  unfold checksum
  dsimp only
  generalize (0xFFFFFFFF : UInt32) = result
  induction board, buffer, address, length, result using
    checksumLoop.induct (target.functions config faults).read with
  | case1 board buffer address result =>
      rw [checksumLoop, dif_pos rfl]
      exact ⟨rfl, rfl⟩
  | case2 board buffer address length result left status buffer' board' got failed =>
      have same := read_same config faults target board address buffer (blockSize length)
      rw [checksumLoop, dif_neg left, got]
      rw [got] at same
      simp only [if_pos failed]
      exact same
  | case3 board buffer address length result left status buffer' board' got done ih =>
      have same := read_same config faults target board address buffer (blockSize length)
      rw [checksumLoop, dif_neg left, got]
      rw [got] at same
      simp only [if_neg done]
      exact ih.trans same

/-- A program command with the target attached. -/
theorem program_run {programmer : Programmer Board} {device : Board}
    (waiting : Returned config faults target programmer)
    (taken : programmer.block.command = 1)
    (attach : deviceAttach (drivers config faults) programmer =
      (Status.noError, attachedTo config faults target device programmer)) :
    ∃ after, runOnce (drivers config faults) 7 programmer = some after ∧
      Returned config faults target after ∧ after.deviceTypeAttached = target.word ∧
      after.device = ((target.functions config faults).write device programmer.block.address
        programmer.block.buffer programmer.block.size).2 ∧
      after.block.command = Status.ofBoundedResult
        ((target.functions config faults).write device programmer.block.address
          programmer.block.buffer programmer.block.size).1 Status.programError := by
  have known : Command.ofWord (attachedTo config faults target device programmer).block.command =
      some .program := by
    rw [show (attachedTo config faults target device programmer).block.command = 1 from taken]
    rfl
  have address : programmer.block.address + programmer.block.offset = programmer.block.address := by
    rw [waiting.offset, UInt32.add_zero]
  obtain ⟨more, ran⟩ := runOnce_attached waiting.place attach known
  rw [ran]
  simp only [execute, attachedTo, address, runOnce, jtagRun, Option.bind_eq_bind, Option.bind_some]
  refine ⟨_, rfl, ⟨⟨rfl, waiting.offset, fun other same => ?_⟩, waiting.selected⟩, rfl, rfl, rfl⟩
  have same : target.word = other.word := same
  cases target <;> cases other <;> first | rfl | cases same

/-- A checksum command with the target attached. -/
theorem crc_run {programmer : Programmer Board} {device : Board}
    (waiting : Returned config faults target programmer)
    (taken : programmer.block.command = 0x41)
    (attach : deviceAttach (drivers config faults) programmer =
      (Status.noError, attachedTo config faults target device programmer)) :
    ∃ after, runOnce (drivers config faults) 7 programmer = some after ∧
      Returned config faults target after ∧ after.device.Same device ∧
      ∀ crc, (readRange (target.functions config faults).read device programmer.block.buffer
        programmer.block.address programmer.block.size).map crc32 = some crc →
        after.block.command = crc := by
  have known : Command.ofWord (attachedTo config faults target device programmer).block.command =
      some .computeCrc := by
    rw [show (attachedTo config faults target device programmer).block.command = 0x41 from taken]
    rfl
  have address : programmer.block.address + programmer.block.offset = programmer.block.address := by
    rw [waiting.offset, UInt32.add_zero]
  have kept : ∀ other : Target, target.word = other.word →
      some (target.functions config faults) = some (other.functions config faults) := by
    intro other same
    cases target <;> cases other <;> first | rfl | cases same
  obtain ⟨more, ran⟩ := runOnce_attached waiting.place attach known
  rw [ran, ← checksum_eq]
  have same := checksum_same config faults target device programmer.block.buffer
    programmer.block.address programmer.block.size
  generalize result : checksum (target.functions config faults).read device
    programmer.block.buffer programmer.block.address programmer.block.size = outcome at same
  obtain ⟨after, buffer, crc⟩ := outcome
  cases crc with
  | none =>
      simp only [execute, attachedTo, address, result, if_true]
      exact ⟨_, rfl, ⟨⟨rfl, waiting.offset, kept⟩, waiting.selected⟩, same, nofun⟩
  | some crc =>
      simp only [execute, attachedTo, address, result, runOnce, jtagRun, Option.bind_eq_bind,
        Option.bind_some]
      exact ⟨_, rfl, ⟨⟨rfl, waiting.offset, kept⟩, waiting.selected⟩, same,
        fun _ found => Option.some.inj found⟩

/-! ## Commands of the host -/

/-- The programmer with a command in its block. -/
def commanded (word : UInt32) (address : Int) (size : Nat) (programmer : Programmer Board) :
    Programmer Board :=
  { programmer with
    block := { programmer.block with
      address := UInt32.ofNat address.toNat
      size := UInt32.ofNat size
      command := word } }

theorem Returned.commanded {programmer : Programmer Board}
    (waiting : Returned config faults target programmer) (word : UInt32) (address : Int)
    (size : Nat) :
    Returned config faults target (commanded word address size programmer) where
  place := waiting.place
  offset := waiting.offset
  attached := waiting.attached
  selected := waiting.selected

theorem writeInt_ok_iff (access : UInt32 → Access) (value : Int)
    (programmer after : Programmer Board) :
    writeInt access value programmer = .ok after ↔
      (0 ≤ value ∧ value < 2 ^ 64) ∧
        { programmer with
          block := (access (UInt32.ofNat value.toNat)).apply programmer.block
          deviceType := (access (UInt32.ofNat value.toNat)).deviceType programmer.deviceType } =
        after := by
  unfold writeInt
  split
  case isTrue fits => exact ⟨fun ok => ⟨fits, Except.ok.inj ok⟩, fun ⟨_, same⟩ => congrArg _ same⟩
  case isFalse refused => exact ⟨nofun, fun ⟨fits, _⟩ => absurd fits refused⟩

theorem ofNat_word (word : UInt32) :
    ((0 : Int) ≤ (word.toNat : Int) ∧ (word.toNat : Int) < 2 ^ 64) ∧
      UInt32.ofNat (word.toNat : Int).toNat = word := by
  have bound := word.toNat_lt
  exact ⟨by omega, by rw [Int.toNat_natCast, UInt32.ofNat_toNat]⟩

/-- A command comes back if its numbers can be packed and the target comes back. -/
theorem command_ok_iff (drivers : Drivers Board) (word : UInt32) (address : Int) (size : Nat)
    (programmer after : Programmer Board) (status : UInt32) :
    command drivers word address size programmer = .ok (status, after) ↔
      (0 ≤ address ∧ address < 2 ^ 64) ∧ size < 2 ^ 64 ∧
        runOnce drivers 7 (commanded word address size programmer) = some after ∧
        status = after.block.command := by
  have packed := ofNat_word word
  have run : ∀ programmer : Programmer Board, ∀ result,
      (gdbContinue drivers programmer >>= fun programmer =>
          (pure (programmer.block.command, programmer) : Except String (UInt32 × Programmer Board)))
        = .ok result ↔
      ∃ after, runOnce drivers 7 programmer = some after ∧
        (after.block.command, after) = result := by
    intro programmer result
    unfold gdbContinue
    cases runOnce drivers 7 programmer with
    | none => exact ⟨nofun, fun ⟨_, back, _⟩ => nomatch back⟩
    | some after =>
        exact ⟨fun ran => ⟨after, rfl, Except.ok.inj ran⟩,
          fun ⟨_, same, ran⟩ => Option.some.inj same ▸ congrArg Except.ok ran⟩
  unfold command
  simp only [bind_ok_iff, writeInt_ok_iff, run]
  constructor
  · rintro ⟨first, ⟨fits, rfl⟩, second, ⟨short, rfl⟩, third, ⟨-, rfl⟩, last, ran, same⟩
    obtain ⟨rfl, rfl⟩ := Prod.mk.inj same
    refine ⟨fits, by omega, ?_, rfl⟩
    rw [← ran, commanded, packed.2]
    rfl
  · rintro ⟨fits, short, ran, rfl⟩
    refine ⟨_, ⟨fits, rfl⟩, _, ⟨by omega, rfl⟩, _, ⟨packed.1, rfl⟩, after, ?_, rfl⟩
    rw [← ran, commanded, packed.2]
    rfl

theorem ofBoundedResult_eq_zero {result : Int} {error : UInt32} (nonzero : error ≠ 0)
    (ok : Status.ofBoundedResult result error = 0) : result = 0 := by
  unfold Status.ofBoundedResult Status.ofResult at ok
  split at ok
  · exact absurd ok (by decide)
  · split at ok
    case isTrue zero => exact zero
    case isFalse => exact absurd ok nonzero

/-- A program command that reports no error: the device has written the buffer. -/
theorem command_program {programmer after : Programmer Board} {address : Int} {size : Nat}
    (waiting : Returned config faults target programmer)
    (ran : command (drivers config faults) 1 address size programmer = .ok (0, after)) :
    Returned config faults target after ∧ after.deviceTypeAttached = target.word ∧
      ∃ device : Board, device.Same programmer.device ∧
        (target.functions config faults).write device (UInt32.ofNat address.toNat)
          programmer.block.buffer (UInt32.ofNat size) = (0, after.device) := by
  obtain ⟨-, -, run, status⟩ := (command_ok_iff ..).mp ran
  rcases deviceAttach_selected (waiting.commanded 1 address size).toWaiting
      (waiting.commanded 1 address size).selected with
    ⟨device, same, attach⟩ | ⟨failed, -, -⟩
  · obtain ⟨back, returned, next, attached, contents, word⟩ :=
      program_run (waiting.commanded 1 address size) rfl attach
    obtain rfl := Option.some.inj (run.symm.trans returned)
    refine ⟨next, attached, device, same, Prod.ext ?_ contents.symm⟩
    exact ofBoundedResult_eq_zero (by decide) (word.symm.trans status.symm)
  · obtain ⟨back, returned, word⟩ := runOnce_failed (waiting.commanded 1 address size).place failed
    obtain rfl := Option.some.inj (run.symm.trans returned)
    exact absurd (status.trans word) (by decide)

/-- A program command whose write succeeds comes back without an error. -/
theorem command_program_finishes {programmer : Programmer Board} {address : Int} (size : Nat)
    (waiting : Returned config (fun _ => none) target programmer)
    (packed : 0 ≤ address ∧ address < 2 ^ 64) (short : size < 2 ^ 64)
    (accepts : ∀ device : Board, device.Same programmer.device → ∃ written,
      (target.functions config fun _ => none).write device (UInt32.ofNat address.toNat)
        programmer.block.buffer (UInt32.ofNat size) = (0, written)) :
    ∃ after, command (drivers config fun _ => none) 1 address size programmer = .ok (0, after) := by
  rcases deviceAttach_selected (waiting.commanded 1 address size).toWaiting
      (waiting.commanded 1 address size).selected with
    ⟨device, same, attach⟩ | ⟨-, -, operation, fault, outcome⟩
  · obtain ⟨after, returned, -, -, -, word⟩ :=
      program_run (waiting.commanded 1 address size) rfl attach
    obtain ⟨written, wrote⟩ := accepts device same
    refine ⟨after, (command_ok_iff ..).mpr ⟨packed, short, returned, ?_⟩⟩
    rw [word]
    simp only [commanded, wrote]
    rfl
  · cases outcome

/-- A checksum command leaves the contents, and the programmer at the breakpoint unless the
target could not be attached. -/
theorem command_crc {programmer after : Programmer Board} {address : Int} {size : Nat}
    {crc : UInt32} (waiting : Returned config faults target programmer)
    (ran : command (drivers config faults) 0x41 address size programmer = .ok (crc, after)) :
    (Returned config faults target after ∧ after.device.Same programmer.device) ∨
      (programmer.deviceTypeAttached ≠ target.word ∧ crc = Status.programError) := by
  obtain ⟨-, -, run, status⟩ := (command_ok_iff ..).mp ran
  rcases deviceAttach_selected (waiting.commanded 0x41 address size).toWaiting
      (waiting.commanded 0x41 address size).selected with
    ⟨device, same, attach⟩ | ⟨failed, detached, -⟩
  · obtain ⟨back, returned, next, kept, -⟩ :=
      crc_run (waiting.commanded 0x41 address size) rfl attach
    obtain rfl := Option.some.inj (run.symm.trans returned)
    exact Or.inl ⟨next, kept.trans same⟩
  · obtain ⟨back, returned, word⟩ :=
      runOnce_failed (waiting.commanded 0x41 address size).place failed
    obtain rfl := Option.some.inj (run.symm.trans returned)
    exact Or.inr ⟨detached, status.trans word⟩

/-- A checksum command over a range that can be read comes back with its CRC-32. -/
theorem command_crc_finishes {programmer : Programmer Board} {address : Int} (size : Nat)
    (bytes : List UInt8) (waiting : Returned config (fun _ => none) target programmer)
    (packed : 0 ≤ address ∧ address < 2 ^ 64) (short : size < 2 ^ 64)
    (content : ∀ device : Board, device.Same programmer.device →
      readRange (target.functions config fun _ => none).read device programmer.block.buffer
        (UInt32.ofNat address.toNat) (UInt32.ofNat size) = some bytes) :
    ∃ after, command (drivers config fun _ => none) 0x41 address size programmer =
      .ok (crc32 bytes, after) := by
  rcases deviceAttach_selected (waiting.commanded 0x41 address size).toWaiting
      (waiting.commanded 0x41 address size).selected with
    ⟨device, same, attach⟩ | ⟨-, -, operation, fault, outcome⟩
  · obtain ⟨after, returned, -, -, word⟩ :=
      crc_run (waiting.commanded 0x41 address size) rfl attach
    refine ⟨after, (command_ok_iff ..).mpr ⟨packed, short, returned, ?_⟩⟩
    refine (word _ ?_).symm
    simp only [commanded, content device same, Option.map_some]
  · cases outcome

end QHal.Nvm
