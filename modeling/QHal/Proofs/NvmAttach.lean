/-
Module: QHal.Proofs.NvmAttach
Purpose: The handlers that the NVM programmer calls are those of the selected device, as
  long as it does not take an attached device for attached behind a failed attempt at
  another one.
Trusted boundary: none
Main exports: selected, Right, Monitored, Monitored.orderly, handlers_selected
-/
import QHal.Lib.Runs
import QHal.Nvm.Programmer
import Mathlib.Tactic.SplitIfs

namespace QHal.Nvm

variable {σ : Type} {drivers : Drivers σ}

/-! ## What a command may call -/

/-- The functions that `Device_Attach` assigns to a device type. -/
def selected (drivers : Drivers σ) (deviceType : UInt32) : Option (NvmFunctions σ) :=
  if deviceType = 0 then some drivers.rram
  else if deviceType = 1 then drivers.flash.map Prod.snd
  else if deviceType = 2 then some drivers.otp
  else none

/-- The functions hold a handler for a command. -/
def NvmFunctions.has (functions : NvmFunctions σ) : Command → Bool
  | .chipErase => functions.chipErase.isSome
  | .partialErase => functions.partialErase.isSome
  | _ => true

/-- A command about to run calls the handler of the selected device, or none and reports an
error when there is none; and a failed attach reports an error. -/
structure Right (drivers : Drivers σ) (programmer : Programmer σ) : Prop where
  handled : ∀ command functions, programmer.place = .execute command → command ≠ .systemReset →
    selected drivers programmer.deviceType = some functions → functions.has command = true →
      programmer.functions = some functions
  refused : ∀ command, programmer.place = .execute command → command ≠ .systemReset →
    (∀ functions, selected drivers programmer.deviceType = some functions →
      functions.has command = false) →
        ∃ status, status ≠ Status.noError ∧
          execute programmer command = ({ programmer with place := .storeStatus status none }, [])
  unattached : programmer.place = .attachSwitch →
    (deviceSwitch drivers programmer).1 ≠ Status.noError →
      jtagRun drivers programmer =
        some ({ (deviceSwitch drivers programmer).2 with place := .attachFailed }, [])
  failed : programmer.place = .attachFailed →
    ∃ status, status ≠ Status.noError ∧
      jtagRun drivers programmer =
        some ({ programmer with
          block := { programmer.block with command := status }
          place := .attach }, [])

/-! ## The history of the handlers -/

/-- The session, and whether the handlers come from an attach that succeeded and has noted its
type. -/
structure Monitored (σ : Type) where
  session : Session σ
  valid : Bool

def Monitored.start (device : σ) : Monitored σ where
  session := Session.start device
  valid := false

/-- Whether the handlers come from an attach that succeeded, behind the next access: the
`switch` assigns others, and they count from the store of their type on. -/
def validBehind (drivers : Drivers σ) (programmer : Programmer σ) (valid : Bool) : Bool :=
  match programmer.place with
  | .attachSwitch => valid && (selected drivers programmer.deviceType).isNone
  | .attachStore => true
  | _ => valid

/-- One step. -/
def Monitored.step (drivers : Drivers σ) (monitored : Monitored σ) (action : Action) :
    Option (Monitored σ) :=
  (monitored.session.step drivers action).map fun next =>
    { session := next
      valid :=
        match action with
        | .run => validBehind drivers monitored.session.programmer monitored.valid
        | .host _ => monitored.valid }

/-- The device type stays from the `switch` of an attach to the call of the handler, no device
is taken for attached while the handlers do not come from an attach that succeeded, and a
partial erase is for a device that has one. -/
def Monitored.orderly (drivers : Drivers σ) (monitored : Monitored σ) (action : Action) : Bool :=
  let programmer := monitored.session.programmer
  match action, programmer.place with
  | .host access, .attachStore | .host access, .dispatch | .host access, .execute _ =>
      access.deviceType programmer.deviceType = programmer.deviceType
  | .run, .attach => programmer.deviceTypeAttached ≠ programmer.deviceType || monitored.valid
  | .run, .dispatch =>
      Command.ofWord programmer.block.command ≠ some .partialErase ||
        (selected drivers programmer.deviceType).any fun functions => functions.has .partialErase
  | _, _ => true

/-! ## Steps and runs -/

/-- The programmer is on the way to a handler. -/
def Place.attached : Place → Bool
  | .dispatch | .execute _ => true
  | _ => false

/-- The programmer has decided for a device and has not called its handler yet. -/
def Place.decided : Place → Bool
  | .attachStore => true
  | place => place.attached

theorem Place.decided_of_attached {place : Place} (attached : place.attached = true) :
    place.decided = true := by
  cases place <;> first | rfl | cases attached

/-- Handlers from an attach that succeeded are those of the attached type, and on the way
to a handler they are those of the selected one, as they are behind a `switch` that succeeded. -/
structure Monitored.Inv (drivers : Drivers σ) (monitored : Monitored σ) : Prop where
  handlers : monitored.valid = true →
    (selected drivers monitored.session.programmer.deviceTypeAttached).isSome ∧
      monitored.session.programmer.functions =
        selected drivers monitored.session.programmer.deviceTypeAttached
  switched : monitored.session.programmer.place = .attachStore →
    (selected drivers monitored.session.programmer.deviceType).isSome ∧
      monitored.session.programmer.functions =
        selected drivers monitored.session.programmer.deviceType
  way : monitored.session.programmer.place.attached = true → monitored.valid = true ∧
    monitored.session.programmer.deviceTypeAttached = monitored.session.programmer.deviceType
  erase : monitored.session.programmer.place = .execute .partialErase →
    ∃ functions, selected drivers monitored.session.programmer.deviceType = some functions ∧
      functions.has .partialErase = true

/-- What the `switch` can do. -/
theorem deviceSwitch_cases (drivers : Drivers σ) (programmer : Programmer σ) :
    (selected drivers programmer.deviceType = none ∧
      deviceSwitch drivers programmer = (Status.programError, programmer)) ∨
    ∃ functions device status, selected drivers programmer.deviceType = some functions ∧
      deviceSwitch drivers programmer =
        (status, { programmer with device := device, functions := some functions }) := by
  unfold deviceSwitch selected
  split_ifs with rram flash otp
  · exact .inr ⟨drivers.rram, programmer.device, Status.noError, rfl, rfl⟩
  · cases build : drivers.flash with
    | none => exact .inl ⟨rfl, rfl⟩
    | some driver => exact .inr ⟨driver.2, (driver.1 programmer.device).2, _, rfl, rfl⟩
  · exact .inr ⟨drivers.otp, programmer.device, Status.noError, rfl, rfl⟩
  · exact .inl ⟨rfl, rfl⟩

theorem Monitored.Inv.host {monitored : Monitored σ} (inv : monitored.Inv drivers)
    {access : Access} (orderly : monitored.orderly drivers (.host access) = true) :
    Monitored.Inv drivers
      { monitored with
        session :=
          { programmer :=
              { monitored.session.programmer with
                block := access.apply monitored.session.programmer.block
                deviceType := access.deviceType monitored.session.programmer.deviceType }
            log := monitored.session.log ++ access.events } } := by
  have kept : monitored.session.programmer.place.decided = true →
      access.deviceType monitored.session.programmer.deviceType =
        monitored.session.programmer.deviceType := by
    intro decided
    unfold Monitored.orderly at orderly
    dsimp only at orderly
    cases place : monitored.session.programmer.place with
    | attachStore =>
        rw [place] at orderly
        exact of_decide_eq_true orderly
    | dispatch =>
        rw [place] at orderly
        exact of_decide_eq_true orderly
    | execute command =>
        rw [place] at orderly
        exact of_decide_eq_true orderly
    | _ =>
        rw [place] at decided
        cases decided
  constructor
  · exact inv.handlers
  · intro place
    have here : monitored.session.programmer.place = .attachStore := place
    dsimp only
    rw [kept (by rw [here]; rfl)]
    exact inv.switched place
  · intro attached
    obtain ⟨valid, same⟩ := inv.way attached
    exact ⟨valid, same.trans (kept (Place.decided_of_attached attached)).symm⟩
  · intro place
    have attached : monitored.session.programmer.place.attached = true := by
      have here : monitored.session.programmer.place = .execute .partialErase := place
      rw [here]
      rfl
    have functions := inv.erase place
    rw [← kept (Place.decided_of_attached attached)] at functions
    exact functions

/-- A step that leaves the handlers and their type alone, and the way to a handler. -/
theorem Monitored.Inv.keep {monitored : Monitored σ} (inv : monitored.Inv drivers)
    {programmer : Programmer σ} (functions : programmer.functions =
      monitored.session.programmer.functions)
    (type : programmer.deviceTypeAttached = monitored.session.programmer.deviceTypeAttached)
    (away : programmer.place.decided = false) (log : List Event) :
    Monitored.Inv drivers
      { monitored with session := { programmer := programmer, log := log } } := by
  constructor
  · intro valid
    dsimp only
    rw [functions, type]
    exact inv.handlers valid
  · intro place
    dsimp only at place
    rw [place] at away
    cases away
  · intro attached
    rw [Place.decided_of_attached attached] at away
    cases away
  · intro place
    dsimp only at place
    rw [place] at away
    cases away

/-- A command leaves the handlers and the types alone, and its way is over. -/
theorem execute_keeps (programmer : Programmer σ) (command : Command) :
    (execute programmer command).1.functions = programmer.functions ∧
      (execute programmer command).1.deviceTypeAttached = programmer.deviceTypeAttached ∧
      (execute programmer command).1.place.decided = false := by
  cases command with
  | systemReset => exact ⟨rfl, rfl, rfl⟩
  | chipErase =>
      unfold execute
      cases programmer.functions.bind NvmFunctions.chipErase <;> exact ⟨rfl, rfl, rfl⟩
  | partialErase =>
      unfold execute
      cases programmer.functions.bind NvmFunctions.partialErase <;> exact ⟨rfl, rfl, rfl⟩
  | computeCrc =>
      unfold execute
      cases given : programmer.functions with
      | none => exact ⟨given, rfl, rfl⟩
      | some functions =>
          dsimp only
          generalize checksum functions.read programmer.device programmer.block.buffer
            (programmer.block.address + programmer.block.offset) programmer.block.size = outcome
          obtain ⟨device, buffer, result⟩ := outcome
          cases result <;> exact ⟨rfl, rfl, rfl⟩
  | _ =>
      unfold execute
      cases given : programmer.functions with
      | none => exact ⟨given, rfl, rfl⟩
      | some functions => exact ⟨rfl, rfl, rfl⟩

/-- Behind a `switch` that succeeded the handlers are those of the selected device. -/
theorem Monitored.Inv.attachSwitch {monitored : Monitored σ} (inv : monitored.Inv drivers)
    (log : List Event) :
    Monitored.Inv drivers
      { session :=
          { programmer :=
              { (deviceSwitch drivers monitored.session.programmer).2 with
                place :=
                  if (deviceSwitch drivers monitored.session.programmer).1 = Status.noError then
                    .attachStore
                  else .attachFailed }
            log := log }
        valid := monitored.valid &&
          (selected drivers monitored.session.programmer.deviceType).isNone } := by
  rcases deviceSwitch_cases drivers monitored.session.programmer with
    ⟨unknown, switched⟩ | ⟨functions, device, status, known, switched⟩
  · rw [unknown, switched]
    refine ⟨fun valid => inv.handlers ?_, nofun, nofun, nofun⟩
    exact (Bool.and_eq_true_iff.mp valid).1
  · rw [known, switched]
    refine ⟨fun valid => ?_, fun _ => ?_, fun way => ?_, fun erase => ?_⟩
    · cases (Bool.and_eq_true_iff.mp valid).2
    · dsimp only
      rw [known]
      exact ⟨rfl, rfl⟩
    · dsimp only at way
      split_ifs at way <;> cases way
    · dsimp only at erase
      split_ifs at erase

theorem Monitored.Inv.run {monitored next : Monitored σ} (inv : monitored.Inv drivers)
    (orderly : monitored.orderly drivers .run = true)
    (stepped : monitored.step drivers .run = some next) : next.Inv drivers := by
  obtain ⟨⟨programmer, log⟩, valid⟩ := monitored
  obtain ⟨session, ran, rfl⟩ := Option.map_eq_some_iff.mp stepped
  obtain ⟨⟨after, events⟩, run, rfl⟩ := Option.map_eq_some_iff.mp ran
  unfold Monitored.orderly at orderly
  unfold jtagRun at run
  unfold validBehind
  dsimp only at run orderly ⊢
  cases place : programmer.place with
  | stopped =>
      rw [place] at run
      cases run
  | attach =>
      rw [place] at run orderly
      cases run
      rw [Bool.or_eq_true, decide_eq_true_iff] at orderly
      dsimp only
      by_cases same : programmer.deviceTypeAttached = programmer.deviceType
      · rw [if_pos same]
        exact ⟨inv.handlers, nofun, fun _ => ⟨orderly.resolve_left (not_not.mpr same), same⟩, nofun⟩
      · rw [if_neg same]
        refine inv.keep ?_ ?_ ?_ _ <;> rfl
  | attachSwitch =>
      rw [place] at run
      cases run
      exact inv.attachSwitch _
  | attachStore =>
      rw [place] at run
      cases run
      exact ⟨fun _ => inv.switched place, nofun, fun _ => ⟨rfl, rfl⟩, nofun⟩
  | dispatch =>
      rw [place] at run orderly
      have attached : programmer.place.attached = true := by
        rw [place]
        rfl
      obtain ⟨isValid, same⟩ := inv.way attached
      dsimp only at run orderly same
      cases known : Command.ofWord programmer.block.command with
      | none =>
          rw [known] at run
          cases run
          refine inv.keep ?_ ?_ ?_ _ <;> rfl
      | some command =>
          rw [known] at run orderly
          cases run
          refine ⟨inv.handlers, nofun, fun _ => ⟨isValid, same⟩, fun taken => ?_⟩
          cases taken
          rw [Bool.or_eq_true, decide_eq_true_iff] at orderly
          have some_ := orderly.resolve_left (not_not.mpr rfl)
          obtain ⟨functions, assigned, has⟩ := (Option.any_eq_true _ _).mp some_
          exact ⟨functions, assigned, has⟩
  | execute command =>
      rw [place] at run
      have done := Option.some.inj run
      obtain ⟨functions, type, away⟩ := execute_keeps programmer command
      rw [done] at functions type away
      exact inv.keep functions type away _
  | storeStatus status address =>
      rw [place] at run
      cases address <;>
        · cases run
          refine inv.keep ?_ ?_ ?_ _ <;> rfl
  | idle =>
      rw [place] at run
      cases run
      refine inv.keep ?_ ?_ ?_ _
      · rfl
      · rfl
      · dsimp only
        split_ifs <;> rfl
  | _ =>
      rw [place] at run
      cases run
      refine inv.keep ?_ ?_ ?_ _ <;> rfl

theorem Monitored.Inv.step {monitored next : Monitored σ} {action : Action}
    (inv : monitored.Inv drivers) (orderly : monitored.orderly drivers action = true)
    (stepped : monitored.step drivers action = some next) : next.Inv drivers := by
  cases action with
  | host access =>
      cases stepped
      exact inv.host orderly
  | run => exact inv.run orderly stepped

theorem Monitored.start_inv (device : σ) : (Monitored.start device).Inv drivers :=
  ⟨nofun, nofun, nofun, nofun⟩

theorem Monitored.Inv.right {monitored : Monitored σ} (inv : monitored.Inv drivers) :
    Right drivers monitored.session.programmer := by
  obtain ⟨⟨programmer, log⟩, valid⟩ := monitored
  constructor
  · intro command functions place real assigned has
    have attached : programmer.place.attached = true := by
      have here : programmer.place = .execute command := place
      rw [here]
      rfl
    obtain ⟨isValid, same⟩ := inv.way attached
    rw [(inv.handlers isValid).2, same, assigned]
  · intro command place real lacks
    have here : programmer.place = .execute command := place
    have attached : programmer.place.attached = true := by
      rw [here]
      rfl
    obtain ⟨isValid, same⟩ := inv.way attached
    obtain ⟨some_, functions⟩ := inv.handlers isValid
    rw [same] at some_ functions
    obtain ⟨assigned, isAssigned⟩ := Option.isSome_iff_exists.mp some_
    have absent := lacks assigned isAssigned
    rw [isAssigned] at functions
    have here_ : programmer.functions = some assigned := functions
    cases command with
    | chipErase =>
        have none_ : assigned.chipErase = none := Option.isNone_iff_eq_none.mp (by
          rw [NvmFunctions.has] at absent
          rw [← Option.not_isSome, absent]
          rfl)
        have noErase : programmer.functions.bind NvmFunctions.chipErase = none := by
          rw [here_]
          exact none_
        refine ⟨Status.notImplemented, by decide, ?_⟩
        unfold execute
        dsimp only
        rw [noErase]
    | partialErase =>
        obtain ⟨other, isOther, has⟩ := inv.erase here
        rw [lacks other isOther] at has
        cases has
    | systemReset => exact absurd rfl real
    | _ => cases absent
  · intro place failed
    rw [jtagRun, place]
    dsimp only
    rw [if_neg failed]
  · intro place
    refine ⟨Status.programError, by decide, ?_⟩
    rw [jtagRun, place]

/-- In an orderly run every command calls the handler of the selected device, or none where
there is none. -/
theorem handlers_selected (drivers : Drivers σ) (device : σ) {actions : List Action}
    {monitored : Monitored σ}
    (orderly : Runs.Meets (Monitored.step drivers)
      (fun monitored action => monitored.orderly drivers action = true) (Monitored.start device)
        actions)
    (run : Runs.exec (Monitored.step drivers) (Monitored.start device) actions = some monitored) :
    Right drivers monitored.session.programmer :=
  (Runs.invariant (fun _ _ _ inv meets stepped => Monitored.Inv.step inv meets stepped)
    (Monitored.start_inv device) orderly run).right

/-- Devices that note which of their writes were called, a flash that fails to initialize
for some rounds, and handlers as the devices of the programmer have them. -/
def notingDrivers : Drivers (Nat × List Nat) :=
  let functions (type : Nat) : NvmFunctions (Nat × List Nat) :=
    { write := fun device _ _ _ => (0, (device.1, device.2 ++ [type]))
      read := fun device _ buffer _ => (0, buffer, device)
      partialErase := if type = 2 then none else some fun device _ _ => (0, device)
      chipErase := if type = 1 then some fun device => (0, device) else none }
  { rram := functions 0
    otp := functions 2
    flash := some
      (fun device => if device.1 = 0 then (0, device) else (-1, (device.1 - 1, device.2)),
        functions 1) }

/-- RRAM, then for some rounds the flash, then RRAM again and the command to program. -/
def switchRun (flash rram : Nat) : List Action :=
  List.replicate 5 Action.run ++ [Action.host (.writeDeviceType 1)] ++
    List.replicate flash Action.run ++
    [Action.host (.writeDeviceType 0), Action.host (.writeCommand 1)] ++
    List.replicate rram Action.run

theorem handlers_selected_switch :
    ∃ monitored, Runs.exec (Monitored.step notingDrivers) (Monitored.start (0, []))
        (switchRun 5 4) = some monitored ∧
      monitored.session.programmer.place = .execute .program ∧
      Right notingDrivers monitored.session.programmer := by
  have orderly : Runs.Meets (Monitored.step notingDrivers)
      (fun monitored action => monitored.orderly notingDrivers action = true)
        (Monitored.start (0, [])) (switchRun 5 4) := by
    decide +kernel
  have ends : (Runs.exec (Monitored.step notingDrivers) (Monitored.start (0, []))
      (switchRun 5 4)).map
      (fun monitored => monitored.session.programmer.place) = some (.execute .program) := by
    decide +kernel
  obtain ⟨monitored, run, place⟩ := Option.map_eq_some_iff.mp ends
  exact ⟨monitored, run, place, handlers_selected notingDrivers (0, []) orderly run⟩

/-- When the flash fails to initialize, the data for RRAM are written to the flash. -/
theorem handlers_not_selected :
    ∃ monitored, Runs.exec (Monitored.step notingDrivers) (Monitored.start (1, []))
        (switchRun 3 2) = some monitored ∧
      monitored.session.programmer.deviceType = 0 ∧
      monitored.session.programmer.place = .execute .program ∧
      (execute monitored.session.programmer .program).1.device = (0, [1]) ∧
      ¬ Right notingDrivers monitored.session.programmer := by
  have ends : (Runs.exec (Monitored.step notingDrivers) (Monitored.start (1, []))
      (switchRun 3 2)).map
      (fun monitored => (monitored.session.programmer.deviceType,
        monitored.session.programmer.place,
        (execute monitored.session.programmer .program).1.device)) =
          some (0, .execute .program, (0, [1])) := by
    decide +kernel
  obtain ⟨monitored, run, seen⟩ := Option.map_eq_some_iff.mp ends
  simp only [Prod.mk.injEq] at seen
  obtain ⟨type, place, device⟩ := seen
  refine ⟨monitored, run, type, place, device, fun right => ?_⟩
  have assigned : selected notingDrivers monitored.session.programmer.deviceType =
      some notingDrivers.rram := by
    rw [type]
    rfl
  have handlers := right.handled .program notingDrivers.rram place (by decide) assigned rfl
  have stored : (execute monitored.session.programmer .program).1.device =
      (monitored.session.programmer.device.1, monitored.session.programmer.device.2 ++ [0]) := by
    rw [execute, handlers]
    rfl
  rw [stored] at device
  have last := congrArg (fun device : Nat × List Nat => device.2.getLast?) device
  simp at last

end QHal.Nvm
