/-
Module: QHal.Boot.LoadLoop
Purpose: The image load loop of `loader_start` for flash boot media, with the
  descriptor selector and the software reset it uses: qboot/src/sbl_main.c,
  lines 311-406 and 526-636.
Trusted boundary: the results of the four stages (ELF init, authentication, load, hash) are inputs
  of an iteration, so that a run of the loop is determined by the descriptor table and the sequence
  of results; a software reset does not come back.
Main exports: bootSblSwReset, bootSblSelectValidFwd, LoopState, StageErrs,
  selectStage, loaderIteration, loaderLoop, loopStart
-/
import QHal.Lib.Loop
import QHal.Boot.FlashFwd

namespace QHal.Boot

/-- `boot_sbl_sw_reset`: whether the reset is performed.  For the last image
the function returns without resetting. -/
def bootSblSwReset (info : SblInfo) : Bool :=
  !(info.validFwd == 2 ||
    (info.validFwd == 1 && !fwdTableIsValid info indexGolden) ||
    (info.validFwd == 0 && !fwdTableIsValid info indexCurrent))

/-- How a call of the selector ends.  `update` is the sector handed to
`boot_sbl_update_fwd` on the way, if any. -/
inductive SelectResult where
  | reset (update : Option UInt8)
  | selected (index : UInt8) (info : SblInfo) (update : Option UInt8)

/-- Clear the status of the descriptor with the given number in the table. -/
def clearStatus (info : SblInfo) (index : UInt8) : SblInfo :=
  { info with
    flashFwdTable := fun i =>
      if i.val = index.toNat then { info.flashFwdTable i with status := 0 }
      else info.flashFwdTable i }

/-- The sector of the descriptor with the given number. -/
def bootFwdAt (info : SblInfo) (index : UInt8) : UInt8 :=
  if h : index.toNat < 3 then info.bootFwd ⟨index.toNat, h⟩ else 0

/-- The branch of `boot_sbl_select_validFwd` for a pending error. -/
def selectNext (info : SblInfo) : SelectResult :=
  let sblOrGolden := info.otaSblExist != 30 || info.validFwd == 2
  let info := if sblOrGolden then { info with errCode := errorSblNone } else info
  if sblOrGolden && bootSblSwReset info then .reset none
  else
    -- load and hash errors: the descriptor is invalidated in flash before the reset
    let lateError :=
      (info.errCode >>> errorSblImageLoad) != 0 && decide (info.validFwd < maxFwdNum)
    let update := if lateError then some (bootFwdAt info info.validFwd) else none
    if lateError && bootSblSwReset info then .reset update
    else if info.validFwd < maxFwdNum then
      let info := { clearStatus info info.validFwd with
        errCode := errorSblNone
        validFwd := info.validFwd + 1 }
      .selected info.validFwd info update
    else .selected info.validFwd info update

/-- The first valid descriptor in the order trial, current, golden. -/
def firstValidFwd (info : SblInfo) : Option (Fin 3) :=
  if fwdTableIsValid info indexTrial then some indexTrial
  else if fwdTableIsValid info indexCurrent then some indexCurrent
  else if fwdTableIsValid info indexGolden then some indexGolden
  else none

/-- The branch of `boot_sbl_select_validFwd` without a pending error. -/
def selectFirst (sblFdeRank : UInt32) (info : SblInfo) : SelectResult :=
  match firstValidFwd info with
  | none => .selected maxFwdNum info none
  | some slot =>
      let info := { info with
        validFwd := UInt8.ofNat slot.val
        otaSblExist := bootSblFindFwdImage info slot sblImgId }
      if info.otaSblExist != 30 && sblFdeRank == otaImgRankCurrent &&
          slot == indexTrial then
        -- the trial SBL failed and the PBL went back to the current one
        let info := clearStatus info info.validFwd
        let info :=
          if fwdTableIsValid info indexCurrent then { info with validFwd := 1 }
          else if fwdTableIsValid info indexGolden then { info with validFwd := 2 }
          else info
        .selected info.validFwd info none
      else .selected info.validFwd info none

/-- `boot_sbl_select_validFwd`.  `sblFdeRank` is the rank of the SBL that the
PBL picked (`sbl_fde_content.rank`). -/
def bootSblSelectValidFwd (sblFdeRank : UInt32) (info : SblInfo) : SelectResult :=
  if info.errCode ≠ errorSblNone then selectNext info
  else selectFirst sblFdeRank info

/-- The four stages an image passes. -/
inductive Stage where
  | loadInit
  | imageAuth
  | imageLoad
  | verifyHash
deriving Repr, DecidableEq

/-- The bit that a failed stage sets in `err_code`. -/
def Stage.errorBit : Stage → UInt8
  | .loadInit => 1 <<< errorSblLoadInit
  | .imageAuth => 1 <<< errorSblImageAuth
  | .imageLoad => 1 <<< errorSblImageLoad
  | .verifyHash => 1 <<< errorSblVerifyHash

/-- A stage call as seen from outside: the address of the image it worked on
and its return value. -/
structure StageCall where
  stage : Stage
  elfAddr : UInt32
  err : UInt32
deriving Repr, DecidableEq

/-- What `loader_start` knows before the loop: the rank of the running SBL and
`sbl_auth_enable`. -/
structure LoaderEnv where
  sblFdeRank : UInt32
  authEnable : Bool

/-- The variables of the loop.  `elfAddr` is `app_elf_loader.elf_addr`;
`calls` records the stage calls of the current iteration and is read by no
branch. -/
structure LoopState where
  info : SblInfo
  fde : FdtEntry
  tempfde : FdtEntry
  appLoadAddr : UInt32
  type : BootElfLoadType
  elfAddr : UInt32
  calls : List StageCall

/-- The return values of the stages in one iteration. -/
structure StageErrs where
  loadInit : UInt32
  imageAuth : UInt32
  imageLoad : UInt32
  verifyHash : UInt32
deriving Repr, DecidableEq

/-- The record after the load type was set back for an FDE that names no FWD
sector, as the selector finds it. -/
def selectInfo (state : LoopState) : SblInfo :=
  if state.fde.addr ≥ 3 then { state.info with loadType := .full } else state.info

/-- How the first part of an iteration ends. -/
inductive SelectStage where
  | reset (update : Option UInt8)
  | chosen (index : UInt8) (state : LoopState) (update : Option UInt8)

/-- Take over the descriptor the selector returned. -/
def takeFwd (state : LoopState) (info : SblInfo) (index : UInt8) : LoopState :=
  if h : index.toNat < 3 then
    let (info, fde, appLoadAddr) :=
      bootSblPrepareSetFde info state.fde state.appLoadAddr ⟨index.toNat, h⟩
    { state with
      info := info
      fde := fde
      tempfde := state.fde
      type := info.loadType
      appLoadAddr := appLoadAddr + appImageFlashAddress
      calls := [] }
  else { state with info := info, calls := [] }

/-- Lines 320-344: select a descriptor and prepare the load address. -/
def selectStage (env : LoaderEnv) (state : LoopState) : SelectStage :=
  match bootSblSelectValidFwd env.sblFdeRank (selectInfo state) with
  | .reset update => .reset update
  | .selected index info update => .chosen index (takeFwd state info index) update

/-- Record a stage call and its error bit.  An error leaves the iteration
(`continue`), which is the error case of the result. -/
def runStage (stage : Stage) (err : UInt32) (state : LoopState) :
    Except LoopState LoopState :=
  let state := { state with calls := state.calls ++ [⟨stage, state.elfAddr, err⟩] }
  if err ≠ 0 then
    .error { state with
      info := { state.info with errCode := state.info.errCode ||| stage.errorBit } }
  else .ok state

/-- Lines 345-350: `boot_elf_load_init` points the loader at the load address. -/
def initStage (err : UInt32) (state : LoopState) : Except LoopState LoopState :=
  runStage .loadInit err { state with elfAddr := state.appLoadAddr }

/-- Lines 360-379. -/
def authStage (env : LoaderEnv) (err : UInt32) (state : LoopState) :
    Except LoopState LoopState :=
  if env.authEnable then runStage .imageAuth err state else .ok state

/-- Lines 381-387. -/
def loadStage (err : UInt32) (state : LoopState) : Except LoopState LoopState :=
  runStage .imageLoad err state

/-- Lines 392-405. -/
def hashStage (env : LoaderEnv) (err : UInt32) (state : LoopState) :
    Except LoopState LoopState :=
  if env.authEnable then runStage .verifyHash err state else .ok state

/-- The stages of one iteration, up to the loop condition. -/
def runStages (env : LoaderEnv) (errs : StageErrs) (state : LoopState) : LoopState :=
  let run : Except LoopState LoopState := do
    let state ← initStage errs.loadInit state
    let state ← authStage env errs.imageAuth state
    let state ← loadStage errs.imageLoad state
    hashStage env errs.verifyHash state
  match run with
  | .ok state => state
  | .error state => state

/-- How the loop ends. -/
inductive LoopEnd where
  | leave (state : LoopState)
  | reset (update : Option UInt8)

/-- One iteration of the do-while loop with its condition. -/
def loaderIteration (env : LoaderEnv) (errs : StageErrs) (state : LoopState) :
    Loop.Status LoopState LoopEnd :=
  match selectStage env state with
  | .reset update => .done (.reset update)
  | .chosen _ state _ =>
      let state := runStages env errs state
      if state.info.errCode ≠ 0 then .again state else .done (.leave state)

/-- The loop for a sequence of stage results, one record an iteration. -/
def loaderLoop (env : LoaderEnv) (errs : Nat → StageErrs) :
    Nat → LoopState → Loop.Status LoopState LoopEnd :=
  fun n => loaderIteration env (errs n)

/-- The all-zero FDE of the `memset` calls in `loader_start`. -/
def zeroFde : FdtEntry where
  id := 0
  rank := 0
  format := 0
  addr := 0
  state := 0
  version := 0
  reserve := Vector.replicate 8 0

/-- The variables at the loop's entry: `boot_sbl_get_fwd_info` has read the
flash, `fde` is the application FDE (all zero if there is none). -/
def loopStart (storage : Storage) (fde : FdtEntry) : LoopState where
  info := (bootSblGetFwdInfo storage zeroInfo).2
  fde := fde
  tempfde := zeroFde
  appLoadAddr := appImageFlashAddress
  type := .full
  elfAddr := 0
  calls := []

end QHal.Boot
