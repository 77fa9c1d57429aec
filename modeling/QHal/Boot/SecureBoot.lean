/-
Module: QHal.Boot.SecureBoot
Purpose: Boots of a device with authentication: the load loop with the real
  authentication and hash stages, the fuses they read and write, and what a
  boot leaves for the next one.  ELF init and image load may end in any way.
Trusted boundary: the PBL accepts only correctly signed images and reports
  their `sw_id` (`PblAuth.authentic`)
Main exports: PblAuth, StageInputs, BootInput, SecureState, secureIteration,
  Device, Boots
-/
import QHal.Boot.LoaderStart
import QHal.Boot.SblAuth

namespace QHal.Boot

/-- The version in a `sw_id`. -/
def swVersion (swId : UInt64) : UInt32 := (swId >>> 32).toUInt32

/-- The functions of the PBL in one iteration.  `signed` gives the `sw_id` of the
correctly signed image at an address. -/
structure PblAuth (signed : UInt32 → Option UInt64) where
  secimgAuth : Option (ImageInfo → UInt32)
  pblGetImageHashHandle : Option (ImageInfo → UInt32 × HashHandle)
  secimgAuthIsValidSegment : Elf32Phdr → Bool
  authentic : ∀ auth getHandle, secimgAuth = some auth →
    pblGetImageHashHandle = some getHandle → ∀ imageInfo,
      auth imageInfo = blErrNone → (getHandle imageInfo).1 = blErrNone →
        signed imageInfo.loader.elfAddr = some (getHandle imageInfo).2.authState.swId

/-- What one iteration meets: the results of ELF init and image load, the program
headers that were read, the PBL and the memory after the load. -/
structure StageInputs (signed : UInt32 → Option UInt64) where
  loadInit : UInt32
  progHdrs : List Elf32Phdr
  phrNum_le : progHdrs.length ≤ miPbtMaxSegments
  pbl : PblAuth signed
  imageLoad : UInt32
  memory : Mem UInt8

/-- What one boot meets.  Authentication is enabled and the SBL is a regular one. -/
structure BootInput where
  storage : Storage
  sblFde : SblFde
  sbl : AuthState
  signed : UInt32 → Option UInt64
  sha256 : Sha256
  stages : Nat → StageInputs signed
  handle : HashHandle
  sblWrite : BlError
  appWrite : BlError
  enabled : sbl.authEnabled = true
  regular : sbl.imageId = secImgAuthSblImg

/-- The copy of the shared data that the stages of an iteration use. -/
def StageInputs.shared {signed : UInt32 → Option UInt64} (inputs : StageInputs signed)
    (sbl : AuthState) : SharedData where
  authState := sbl
  secimgAuth := inputs.pbl.secimgAuth
  pblGetImageHashHandle := inputs.pbl.pblGetImageHashHandle
  secimgAuthIsValidSegment := inputs.pbl.secimgAuthIsValidSegment

/-- Lines 362-370: the image id follows the rank of the application FDE. -/
def imageIdOf (fde : FdtEntry) : UInt32 :=
  if fde.rank = otaImgRankGolden then secImgAuthAppGoldImg else secImgAuthAppImg

/-- `image_info` of an iteration. -/
def StageInputs.imageInfo {signed : UInt32 → Option UInt64} (inputs : StageInputs signed)
    (state : LoopState) : ImageInfo where
  loader := ⟨state.appLoadAddr, inputs.progHdrs, inputs.phrNum_le⟩
  imageId := imageIdOf state.fde
  imageRank := state.fde.rank

/-- The stages of an iteration after the selection: their results, absent if the
hash stage does not return, the hash handle and the fuses. -/
def runSecureStages (input : BootInput) (inputs : StageInputs input.signed)
    (state : LoopState) (handle : HashHandle) (fuses : Fuses) :
    Option StageErrs × HashHandle × Fuses :=
  if inputs.loadInit ≠ 0 then (some ⟨inputs.loadInit, 0, 0, 0⟩, handle, fuses)
  else
    let shared := inputs.shared input.sbl
    let imageInfo := inputs.imageInfo state
    let (authErr, handle) := sblImageAuth shared imageInfo handle
    if authErr ≠ 0 then (some ⟨0, authErr, 0, 0⟩, handle, fuses)
    else if inputs.imageLoad ≠ 0 then (some ⟨0, 0, inputs.imageLoad, 0⟩, handle, fuses)
    else
      let (hashErr, fuses) := sblComputeVerifyHash input.sha256 input.storage shared imageInfo
        handle inputs.memory fuses
      (hashErr.map fun err => ⟨0, 0, 0, err⟩, handle, fuses)

/-- The loop variables with the hash handle and the fuses.  `source` and `passed`
are read by no branch: the descriptor that the load address was taken from, and
the versions of the images of rank CURRENT that passed all stages. -/
structure SecureState where
  loop : LoopState
  handle : HashHandle
  fuses : Fuses
  source : Option (Fin 3)
  passed : List UInt32

/-- The descriptor behind the load address after a selection. -/
def sourceAfter (source : Option (Fin 3)) (index : UInt8) (info : SblInfo) :
    Option (Fin 3) :=
  if below : index.toNat < 3 then
    if fwdTableIsValid info ⟨index.toNat, below⟩ &&
        (appEntry (info.flashFwdTable ⟨index.toNat, below⟩)).isSome then
      some ⟨index.toNat, below⟩
    else source
  else source

/-- Note the version of an image of rank CURRENT. -/
def notePassed (signed : UInt32 → Option UInt64) (state : LoopState) (passed : List UInt32) :
    List UInt32 :=
  if state.fde.rank = otaImgRankCurrent then
    ((signed state.appLoadAddr).map swVersion).toList ++ passed
  else passed

/-- How the loop ends. -/
inductive SecureEnd where
  | leave (state : SecureState)
  | reset (state : SecureState)
  | hang (state : SecureState)

def SecureEnd.state : SecureEnd → SecureState
  | .leave state => state
  | .reset state => state
  | .hang state => state

/-- One iteration of the loop. -/
def secureIteration (input : BootInput) (inputs : StageInputs input.signed)
    (state : SecureState) : Loop.Status SecureState SecureEnd :=
  let env : LoaderEnv := ⟨input.sblFde.content.rank, true⟩
  match selectStage env state.loop with
  | .reset _ => .done (.reset state)
  | .chosen index chosen _ =>
      let (errs, handle, fuses) :=
        runSecureStages input inputs chosen state.handle state.fuses
      let source := sourceAfter state.source index chosen.info
      match errs with
      | none => .done (.hang { state with handle := handle, fuses := fuses, source := source })
      | some errs =>
          let next : SecureState :=
            { loop := runStages env errs chosen
              handle := handle
              fuses := fuses
              source := source
              passed :=
                if errs = ⟨0, 0, 0, 0⟩ then notePassed input.signed chosen state.passed
                else state.passed }
          if next.loop.info.errCode ≠ 0 then .again next else .done (.leave next)

/-- The loop of a boot. -/
def secureLoop (input : BootInput) : Nat → SecureState → Loop.Status SecureState SecureEnd :=
  fun n => secureIteration input (input.stages n)

/-- What a device keeps between boots.  `passed` is the record of the boots. -/
structure Device where
  fuses : Fuses
  fdt : Fdt
  passed : List UInt32

/-- The state at the entry of the loop. -/
def secureStart (input : BootInput) (device : Device) : SecureState where
  loop := loopStart input.storage (appFde device.fdt)
  handle := input.handle
  fuses := device.fuses
  source := none
  passed := device.passed

/-- The application a boot enters: the version in its signature, and whether the
golden descriptor led to it. -/
structure Entered where
  version : Option UInt32
  golden : Bool
deriving Repr, DecidableEq

/-- The image the loop was left with. -/
def SecureState.entered (input : BootInput) (state : SecureState) : Entered where
  version := (input.signed state.loop.elfAddr).map swVersion
  golden := state.source == some indexGolden

/-- A boot: the device after it and the application that is entered.  The power
may go away at the head of any iteration. -/
inductive Boots (input : BootInput) (device : Device) : Device → Option Entered → Prop where
  | cut {n : Nat} {state : SecureState} (flash : bootsFromFlash device.fdt = true)
      (head : Loop.Heads (secureLoop input) (secureStart input device) n state) :
      Boots input device ⟨state.fuses, device.fdt, state.passed⟩ none
  | stop {n : Nat} {last : SecureEnd} (flash : bootsFromFlash device.fdt = true)
      (done : Loop.status (secureLoop input) (secureStart input device) n = .done last) :
      Boots input device ⟨last.state.fuses, device.fdt, last.state.passed⟩ none
  | enter {n : Nat} {state : SecureState} (flash : bootsFromFlash device.fdt = true)
      (left : Loop.status (secureLoop input) (secureStart input device) n =
        .done (.leave state)) :
      Boots input device
        ⟨state.fuses, finishFdt input.sblWrite input.appWrite device.fdt input.sblFde state.loop,
          state.passed⟩
        (some (state.entered input))
  | jump (other : bootsFromFlash device.fdt = false) :
      Boots input device device (some ⟨none, false⟩)

end QHal.Boot
