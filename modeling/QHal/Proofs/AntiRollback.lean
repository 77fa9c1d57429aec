/-
Module: QHal.Proofs.AntiRollback
Purpose: Rollback protection over histories of boots: which versions the
  applications that are entered have, and how far the fuses are raised.  An
  application FDE that kept the rank GOLDEN switches the version comparison off
  for an image that no golden descriptor names.
Trusted boundary: none
Main exports: BootSound, History, entered_versions_of_sound_boots,
  stale_golden_rank_enters_old_image
-/
import QHal.Boot.SecureBoot
import QHal.Proofs.FuseVersion
import QHal.Proofs.LoopTermination
import QHal.Proofs.HashCoverage
import Mathlib.Logic.Relation

namespace QHal.Boot

open Loop (Heads)

section Fuses

/-- A fuse update for an application always returns and either leaves the fuses
alone or sets them to the version of the image. -/
theorem bootRollbackUpdateFuseVersion_app (storage : Storage) (authState : AuthState)
    (fuses : Fuses) :
    (bootRollbackUpdateFuseVersion storage secImgAuthAppImg authState fuses).1 =
        some blErrNone ∧
      ((bootRollbackUpdateFuseVersion storage secImgAuthAppImg authState fuses).2 = fuses ∨
        fuseVersion
            (bootRollbackUpdateFuseVersion storage secImgAuthAppImg authState fuses).2 =
          authState.version) := by
  by_cases enabled : authState.authEnabled = true
  · rw [bootRollbackUpdateFuseVersion_enabled storage enabled fuses]
    refine ⟨rfl, ?_⟩
    simp only
    split_ifs with new
    · exact Or.inr (fuseVersion_fuseMasks new.2.1)
    · exact Or.inl rfl
  · have known : ¬ ¬ secSwImgList.contains secImgAuthAppImg := by decide
    unfold bootRollbackUpdateFuseVersion
    rw [if_neg known, if_pos enabled]
    exact ⟨rfl, Or.inl rfl⟩

/-- What the hash stage does to the fuses: nothing, or it succeeds on an image of
rank CURRENT and sets them to the version of that image. -/
theorem sblComputeVerifyHash_fuses (sha256 : Sha256) (storage : Storage)
    (shared : SharedData) (imageInfo : ImageInfo) (handle : HashHandle) (memory : Mem UInt8)
    (fuses : Fuses) :
    (sblComputeVerifyHash sha256 storage shared imageInfo handle memory fuses).2 = fuses ∨
      (sblComputeVerifyHash sha256 storage shared imageInfo handle memory fuses).1 =
          some blErrNone ∧
        imageInfo.imageRank = otaImgRankCurrent ∧
        fuseVersion
            (sblComputeVerifyHash sha256 storage shared imageInfo handle memory fuses).2 =
          handle.authState.version := by
  unfold sblComputeVerifyHash
  by_cases free : shared.unprotected = true
  · rw [if_pos free]
    exact Or.inl rfl
  · rw [if_neg free]
    simp only
    split_ifs with update
    · obtain ⟨returns, kept | raised⟩ :=
        bootRollbackUpdateFuseVersion_app storage handle.authState fuses
      · exact Or.inl kept
      · exact Or.inr ⟨returns, update.2.2.1, raised⟩
    · exact Or.inl rfl

theorem sblComputeVerifyHash_returns (sha256 : Sha256) (storage : Storage)
    (shared : SharedData) (imageInfo : ImageInfo) (handle : HashHandle) (memory : Mem UInt8)
    (fuses : Fuses) :
    ∃ err, (sblComputeVerifyHash sha256 storage shared imageInfo handle memory fuses).1 =
      some err := by
  unfold sblComputeVerifyHash
  simp only
  split_ifs
  · exact ⟨_, rfl⟩
  · exact ⟨_, (bootRollbackUpdateFuseVersion_app storage handle.authState fuses).1⟩
  · exact ⟨_, rfl⟩

end Fuses

section Stages

theorem bootRollbackValidateImageVersion_swId (appImgId : UInt32)
    (sblAuthState appAuthState : AuthState) :
    (bootRollbackValidateImageVersion appImgId sblAuthState appAuthState).2.swId =
      appAuthState.swId := by
  unfold bootRollbackValidateImageVersion
  split_ifs
  · rfl
  · rfl

/-- The comparison passes an application for a regular SBL only if the versions
are the same. -/
theorem version_eq_of_validated {sblAuthState appAuthState : AuthState}
    (regular : sblAuthState.imageId = secImgAuthSblImg)
    (valid : (bootRollbackValidateImageVersion secImgAuthAppImg sblAuthState
      appAuthState).1 = true) :
    appAuthState.version = sblAuthState.version := by
  by_contra differs
  simp [bootRollbackValidateImageVersion, regular, differs] at valid

/-- A successful authentication: the PBL accepted the image, and its `sw_id` is in
the hash handle.  For an application id the version comparison passed too. -/
theorem sblImageAuth_accepted {shared : SharedData} {imageInfo : ImageInfo}
    {handle : HashHandle} (enabled : shared.authState.authEnabled = true)
    (ok : (sblImageAuth shared imageInfo handle).1 = blErrNone) :
    ∃ auth getHandle, shared.secimgAuth = some auth ∧
      shared.pblGetImageHashHandle = some getHandle ∧
      auth imageInfo = blErrNone ∧ (getHandle imageInfo).1 = blErrNone ∧
      (sblImageAuth shared imageInfo handle).2.authState.swId =
        (getHandle imageInfo).2.authState.swId ∧
      (bootRollbackValidateImageVersion imageInfo.imageId shared.authState
        (getHandle imageInfo).2.authState).1 = true := by
  have wanted : ¬ shared.unprotected = true := by
    simp [SharedData.unprotected, enabled]
  unfold sblImageAuth at ok ⊢
  rw [if_neg wanted] at ok
  rw [if_neg wanted]
  cases auth : shared.secimgAuth with
  | none =>
      simp only [auth] at ok
      exact absurd ok (by decide)
  | some secimgAuth =>
      cases get : shared.pblGetImageHashHandle with
      | none =>
          simp only [auth, get] at ok
          exact absurd ok (by decide)
      | some getHandle =>
          simp only [auth, get] at ok ⊢
          by_cases accepted : secimgAuth imageInfo = blErrNone
          · by_cases got : (getHandle imageInfo).1 = blErrNone
            · refine ⟨secimgAuth, getHandle, rfl, rfl, accepted, got, ?_⟩
              cases valid : (bootRollbackValidateImageVersion imageInfo.imageId
                  shared.authState (getHandle imageInfo).2.authState).1 with
              | true =>
                  simp [accepted, got, enabled, bootRollbackValidateImageVersion_swId]
              | false =>
                  simp [accepted, got, enabled, valid] at ok
                  exact absurd ok (by decide)
            · simp [accepted, got] at ok
          · simp [accepted] at ok

variable (input : BootInput) (inputs : StageInputs input.signed)

/-- A successful authentication: the image is signed, the handle reports its
`sw_id`, and for an FDE of another rank than GOLDEN the version is the one of the
SBL. -/
theorem authenticated_version {state : LoopState} {handle : HashHandle}
    (ok : (sblImageAuth (inputs.shared input.sbl) (inputs.imageInfo state) handle).1 =
      blErrNone) :
    ∃ swId, input.signed state.appLoadAddr = some swId ∧
      (sblImageAuth (inputs.shared input.sbl) (inputs.imageInfo state)
        handle).2.authState.swId = swId ∧
      (state.fde.rank ≠ otaImgRankGolden → swVersion swId = input.sbl.version) := by
  obtain ⟨auth, getHandle, isAuth, isGet, accepted, got, reported, valid⟩ :=
    sblImageAuth_accepted input.enabled ok
  refine ⟨_, inputs.pbl.authentic auth getHandle isAuth isGet _ accepted got, reported, ?_⟩
  intro notGolden
  have application : (inputs.imageInfo state).imageId = secImgAuthAppImg :=
    if_neg notGolden
  rw [application] at valid
  exact version_eq_of_validated input.regular valid

/-- The stages of an iteration: one before the hash stage failed and the fuses are
as they were, or the image is authentic and the hash stage ran. -/
theorem runSecureStages_cases (state : LoopState) (handle : HashHandle) (fuses : Fuses) :
    (∃ errs, (runSecureStages input inputs state handle fuses).1 = some errs ∧
        errs ≠ ⟨0, 0, 0, 0⟩ ∧
        (runSecureStages input inputs state handle fuses).2.2 = fuses) ∨
      ∃ after, sblImageAuth (inputs.shared input.sbl) (inputs.imageInfo state) handle =
          (blErrNone, after) ∧
        (runSecureStages input inputs state handle fuses).1 =
          (sblComputeVerifyHash input.sha256 input.storage (inputs.shared input.sbl)
            (inputs.imageInfo state) after inputs.memory fuses).1.map
              (fun err => ⟨0, 0, 0, err⟩) ∧
        (runSecureStages input inputs state handle fuses).2.2 =
          (sblComputeVerifyHash input.sha256 input.storage (inputs.shared input.sbl)
            (inputs.imageInfo state) after inputs.memory fuses).2 := by
  rcases authResult :
    sblImageAuth (inputs.shared input.sbl) (inputs.imageInfo state) handle with ⟨authErr, after⟩
  unfold runSecureStages
  simp only [authResult]
  split_ifs with init auth load
  · exact Or.inl ⟨_, rfl, by simp [init], rfl⟩
  · exact Or.inl ⟨_, rfl, by simp [auth], rfl⟩
  · exact Or.inl ⟨_, rfl, by simp [load], rfl⟩
  · have zero : authErr = 0 := not_not.mp auth
    subst zero
    exact Or.inr ⟨after, rfl, rfl, rfl⟩

/-- An image that passed all stages is signed, and unless the FDE has the rank
GOLDEN its version is the one of the SBL. -/
theorem passed_version {state : LoopState} {handle : HashHandle} {fuses : Fuses}
    (ok : (runSecureStages input inputs state handle fuses).1 = some ⟨0, 0, 0, 0⟩) :
    ∃ swId, input.signed state.appLoadAddr = some swId ∧
      (state.fde.rank ≠ otaImgRankGolden → swVersion swId = input.sbl.version) := by
  rcases runSecureStages_cases input inputs state handle fuses with
    ⟨errs, failed, nonzero, -⟩ | ⟨after, authOk, -, -⟩
  · rw [failed] at ok
    exact absurd (Option.some.inj ok) nonzero
  · obtain ⟨swId, signed, -, version⟩ :=
      authenticated_version input inputs (congrArg Prod.fst authOk)
    exact ⟨swId, signed, version⟩

/-- Where the fuses change, an image of rank CURRENT passed all stages and they now
stand for the version of the SBL. -/
theorem runSecureStages_fuses (state : LoopState) (handle : HashHandle) (fuses : Fuses) :
    (runSecureStages input inputs state handle fuses).2.2 = fuses ∨
      (runSecureStages input inputs state handle fuses).1 = some ⟨0, 0, 0, 0⟩ ∧
        state.fde.rank = otaImgRankCurrent ∧
        fuseVersion (runSecureStages input inputs state handle fuses).2.2 =
          input.sbl.version := by
  rcases runSecureStages_cases input inputs state handle fuses with
    ⟨errs, -, -, kept⟩ | ⟨after, authOk, results, moved⟩
  · exact Or.inl kept
  · rw [results, moved]
    rcases sblComputeVerifyHash_fuses input.sha256 input.storage (inputs.shared input.sbl)
        (inputs.imageInfo state) after inputs.memory fuses with
      kept | ⟨success, isCurrent, raised⟩
    · exact Or.inl kept
    · obtain ⟨swId, -, reported, version⟩ :=
        authenticated_version input inputs (congrArg Prod.fst authOk)
      have current : state.fde.rank = otaImgRankCurrent := isCurrent
      have notGolden : state.fde.rank ≠ otaImgRankGolden := by
        rw [current]
        decide
      rw [authOk] at reported
      refine Or.inr ⟨by rw [success]; rfl, current, ?_⟩
      calc fuseVersion _ = after.authState.version := raised
        _ = swVersion swId := congrArg swVersion reported
        _ = input.sbl.version := version notGolden

end Stages

section Iteration

/-- With secure boot, no stage fails exactly if all results are zero. -/
theorem errs_of_success {sblFdeRank : UInt32} {errs : StageErrs}
    (success : failedStage ⟨sblFdeRank, true⟩ errs = none) : errs = ⟨0, 0, 0, 0⟩ := by
  unfold failedStage at success
  split_ifs at success with init auth load hash
  simp only [true_and, not_not] at init auth load hash
  cases errs
  simp_all

/-- The environment of the loop. -/
def BootInput.env (input : BootInput) : LoaderEnv := ⟨input.sblFde.content.rank, true⟩

/-- The state an iteration ends in, whether the loop goes on or not. -/
def statusState : Loop.Status SecureState SecureEnd → SecureState
  | .again state => state
  | .done last => last.state

/-- The state after the stages of an iteration. -/
def afterStages (input : BootInput) (state : SecureState) (index : UInt8) (chosen : LoopState)
    (errs : StageErrs) (handle : HashHandle) (fuses : Fuses) : SecureState where
  loop := runStages input.env errs chosen
  handle := handle
  fuses := fuses
  source := sourceAfter state.source index chosen.info
  passed :=
    if errs = ⟨0, 0, 0, 0⟩ then notePassed input.signed chosen state.passed
    else state.passed

/-- The hash stage returns. -/
theorem runSecureStages_returns (input : BootInput) (inputs : StageInputs input.signed)
    (state : LoopState) (handle : HashHandle) (fuses : Fuses) :
    ∃ errs, (runSecureStages input inputs state handle fuses).1 = some errs := by
  rcases runSecureStages_cases input inputs state handle fuses with
    ⟨errs, failed, -⟩ | ⟨after, -, results, -⟩
  · exact ⟨errs, failed⟩
  · obtain ⟨err, returned⟩ := sblComputeVerifyHash_returns input.sha256 input.storage
      (inputs.shared input.sbl) (inputs.imageInfo state) after inputs.memory fuses
    rw [results, returned]
    exact ⟨_, rfl⟩

/-- An iteration ends in a reset without any stage, or the stages ran on the image
that was chosen. -/
theorem secureIteration_cases (input : BootInput) (inputs : StageInputs input.signed)
    (state : SecureState) :
    secureIteration input inputs state = .done (.reset state) ∨
      ∃ index chosen update errs handle fuses,
        selectStage input.env state.loop = .chosen index chosen update ∧
        runSecureStages input inputs chosen state.handle state.fuses =
          (some errs, handle, fuses) ∧
        secureIteration input inputs state =
          if (runStages input.env errs chosen).info.errCode ≠ 0 then
            .again (afterStages input state index chosen errs handle fuses)
          else .done (.leave (afterStages input state index chosen errs handle fuses)) := by
  cases select : selectStage input.env state.loop with
  | reset update =>
      left
      have chosen : selectStage ⟨input.sblFde.content.rank, true⟩ state.loop =
        .reset update := select
      simp only [secureIteration, chosen]
  | chosen index chosen update =>
      right
      obtain ⟨errs, returned⟩ :=
        runSecureStages_returns input inputs chosen state.handle state.fuses
      rcases run : runSecureStages input inputs chosen state.handle state.fuses with
        ⟨results, handle, fuses⟩
      rw [run] at returned
      cases returned
      refine ⟨index, chosen, update, errs, handle, fuses, rfl, run, ?_⟩
      have chosen : selectStage ⟨input.sblFde.content.rank, true⟩ state.loop =
        .chosen index chosen update := select
      simp only [secureIteration, chosen, run]
      rfl

theorem statusState_stages (input : BootInput) (inputs : StageInputs input.signed)
    (state : SecureState) :
    statusState (secureIteration input inputs state) = state ∨
      ∃ index chosen update errs handle fuses,
        selectStage input.env state.loop = .chosen index chosen update ∧
        runSecureStages input inputs chosen state.handle state.fuses =
          (some errs, handle, fuses) ∧
        statusState (secureIteration input inputs state) =
          afterStages input state index chosen errs handle fuses := by
  rcases secureIteration_cases input inputs state with
    reset | ⟨index, chosen, update, errs, handle, fuses, select, run, result⟩
  · rw [reset]
    exact Or.inl rfl
  · refine Or.inr ⟨index, chosen, update, errs, handle, fuses, select, run, ?_⟩
    rw [result]
    split_ifs
    · rfl
    · rfl

/-- The fuses stand for a version that is no higher than `limit` or than one of the
versions that passed. -/
def VersionBounded (limit : UInt32) (fuses : Fuses) (passed : List UInt32) : Prop :=
  fuseVersion fuses ≤ limit ∨ ∃ version ∈ passed, fuseVersion fuses ≤ version

/-- What a boot keeps true of the fuses. -/
structure FusesSound (input : BootInput) (limit : UInt32) (state : SecureState) : Prop where
  below : fuseVersion state.fuses ≤ input.sbl.version
  bounded : VersionBounded limit state.fuses state.passed

/-- An iteration keeps the fuses sound, however it ends. -/
theorem FusesSound.iterate {input : BootInput} {limit : UInt32} {state : SecureState}
    (sound : FusesSound input limit state) (inputs : StageInputs input.signed) :
    FusesSound input limit (statusState (secureIteration input inputs state)) := by
  rcases statusState_stages input inputs state with
    reset | ⟨index, chosen, update, errs, handle, fuses, -, run, result⟩
  · rw [reset]
    exact sound
  have moved := runSecureStages_fuses input inputs chosen state.handle state.fuses
  rw [run] at moved
  rw [result]
  rcases moved with kept | ⟨success, current, raised⟩
  · cases kept
    refine ⟨sound.below, ?_⟩
    rcases sound.bounded with low | ⟨version, known, high⟩
    · exact Or.inl low
    · refine Or.inr ⟨version, ?_, high⟩
      unfold afterStages notePassed
      split_ifs
      · exact List.mem_append_right _ known
      · exact known
      · exact known
  · cases success
    obtain ⟨swId, signed, same⟩ := passed_version input inputs (congrArg Prod.fst run)
    have notGolden : chosen.fde.rank ≠ otaImgRankGolden := by
      rw [current]
      decide
    have version : fuseVersion fuses = input.sbl.version := raised
    refine ⟨UInt32.le_of_eq version, Or.inr ⟨input.sbl.version, ?_, UInt32.le_of_eq version⟩⟩
    simp [afterStages, notePassed, current, signed, same notGolden]

end Iteration

section Source

theorem sourceAfter_eq_or (source : Option (Fin 3)) (index : UInt8) (info : SblInfo) :
    sourceAfter source index info = (sourceAfter none index info).or source := by
  unfold sourceAfter
  split_ifs
  · rfl
  · rfl
  · rfl

theorem sourceAfter_slot (source : Option (Fin 3)) {info : SblInfo} {slot : Fin 3}
    (valid : fwdTableIsValid info slot = true)
    (app : (appEntry (info.flashFwdTable slot)).isSome = true) :
    sourceAfter source (UInt8.ofNat slot.val) info = some slot := by
  have number := fin_toNat_ofNat slot
  have below : (UInt8.ofNat slot.val).toNat < 3 := by
    rw [number]
    exact slot.isLt
  have same : (⟨(UInt8.ofNat slot.val).toNat, below⟩ : Fin 3) = slot := Fin.ext number
  unfold sourceAfter
  rw [dif_pos below, same, valid, app]
  rfl

theorem sourceAfter_takeFwd (source : Option (Fin 3)) (state : LoopState) (info : SblInfo)
    (index : UInt8) :
    sourceAfter source index (takeFwd state info index).info =
      sourceAfter source index info := by
  obtain ⟨loadType, same⟩ := takeFwd_info state info index
  rw [same]
  rfl

/-- The descriptor that sets the load address sets the rank of the FDE too. -/
theorem takeFwd_rank (state : LoopState) (info : SblInfo) (index : UInt8) :
    (takeFwd state info index).fde.rank =
      ((sourceAfter none index info).map slotRank).getD state.fde.rank := by
  unfold takeFwd sourceAfter
  by_cases below : index.toNat < 3
  · have test : ((info.flashFwdTable ⟨index.toNat, below⟩).signature == fwUpgradeMagicV1 &&
        (info.flashFwdTable ⟨index.toNat, below⟩).status == 1) =
        fwdTableIsValid info ⟨index.toNat, below⟩ := rfl
    simp only [below, dif_pos, bootSblPrepareSetFde, status_toUInt32_eq_valid, test]
    cases fwdTableIsValid info ⟨index.toNat, below⟩ with
    | false => rfl
    | true =>
        cases appEntry (info.flashFwdTable ⟨index.toNat, below⟩) with
        | none => rfl
        | some entry => rfl
  · simp [below]

theorem slotRank_eq_golden {slot : Fin 3} (golden : slotRank slot = otaImgRankGolden) :
    slot = indexGolden := by
  revert golden
  revert slot
  decide

/-- An FDE of rank GOLDEN goes with a load address from the golden descriptor. -/
def Synced (fde : FdtEntry) (source : Option (Fin 3)) : Prop :=
  fde.rank = otaImgRankGolden → source = some indexGolden

/-- A selection keeps rank and address in step, and brings them in step if it sets
both. -/
theorem synced_chosen {env : LoaderEnv} {state chosen : LoopState} {index : UInt8}
    {update : Option UInt8} {source : Option (Fin 3)}
    (select : selectStage env state = .chosen index chosen update)
    (before : Synced state.fde source ∨ (sourceAfter none index chosen.info).isSome) :
    Synced chosen.fde (sourceAfter source index chosen.info) := by
  obtain ⟨info, -, rfl⟩ := selectStage_chosen select
  rw [sourceAfter_takeFwd] at before ⊢
  intro golden
  rw [takeFwd_rank] at golden
  rw [sourceAfter_eq_or]
  cases set : sourceAfter none index info with
  | some slot =>
      rw [set] at golden
      rw [slotRank_eq_golden golden]
      rfl
  | none =>
      rw [set] at golden before
      rcases before with synced | impossible
      · exact synced golden
      · cases impossible

end Source

/-- The boots in which the versions are compared: the application comes from
flash, and a rank GOLDEN left over in its FDE is replaced in the first iteration,
by a start descriptor with an APP entry. -/
def BootSound (input : BootInput) (device : Device) : Prop :=
  bootsFromFlash device.fdt = true ∧
    ((appFde device.fdt).rank = otaImgRankGolden →
      ∃ slot, startSlot input.sblFde.content.rank
          (loopStart input.storage (appFde device.fdt)).info = some slot ∧
        (appEntryAt (loopStart input.storage (appFde device.fdt)).info slot.val).isSome)

section Boot

variable {input : BootInput} {device : Device}

/-- In a sound boot the first selection has a rank that can be trusted, or sets
it. -/
theorem BootSound.first (sound : BootSound input device) {index : UInt8}
    {chosen : LoopState} {update : Option UInt8}
    (select : selectStage input.env (secureStart input device).loop =
      .chosen index chosen update) :
    Synced (appFde device.fdt) none ∨ (sourceAfter none index chosen.info).isSome := by
  by_cases golden : (appFde device.fdt).rank = otaImgRankGolden
  · right
    obtain ⟨slot, start, app⟩ := sound.2 golden
    obtain ⟨info, result, rfl⟩ := selectStage_chosen select
    obtain ⟨loadType, same⟩ := selectInfo_eq (secureStart input device).loop
    have clear : (selectInfo (secureStart input device).loop).errCode = 0 := by
      rw [same]
      exact (loopStart_clear input.storage (appFde device.fdt)).2
    have startSame : startSlot input.env.sblFdeRank
        (selectInfo (secureStart input device).loop) = some slot := by
      rw [same]
      exact start
    obtain ⟨after, selected, -, valid, table⟩ := select_startSlot clear startSame
    rw [selected] at result
    cases result
    have entry : (appEntry (info.flashFwdTable slot)).isSome = true := by
      rw [table, same]
      simpa [appEntryAt, secureStart] using app
    rw [sourceAfter_takeFwd, sourceAfter_slot none valid entry]
    rfl
  · exact Or.inl fun isGolden => absurd isGolden golden

/-- The states of a sound boot: rank and address are in step, except that the boot
may not have begun. -/
def InStep (input : BootInput) (device : Device) (state : SecureState) : Prop :=
  Synced state.loop.fde state.source ∨ state = secureStart input device

theorem InStep.chosen (sound : BootSound input device) {state : SecureState}
    (inStep : InStep input device state) {index : UInt8} {chosen : LoopState}
    {update : Option UInt8}
    (select : selectStage input.env state.loop = .chosen index chosen update) :
    Synced chosen.fde (sourceAfter state.source index chosen.info) := by
  rcases inStep with synced | rfl
  · exact synced_chosen select (Or.inl synced)
  · exact synced_chosen select (sound.first select)

theorem InStep.iterate (sound : BootSound input device) {state next : SecureState}
    (inStep : InStep input device state) {inputs : StageInputs input.signed}
    (goes : secureIteration input inputs state = .again next) :
    InStep input device next := by
  rcases secureIteration_cases input inputs state with
    reset | ⟨index, chosen, update, errs, handle, fuses, select, -, result⟩
  · rw [reset] at goes
    cases goes
  · rw [result] at goes
    split_ifs at goes
    cases goes
    left
    obtain ⟨errCode, calls, stages⟩ := runStages_eq input.env errs chosen
    have synced := inStep.chosen sound select
    rw [afterStages, stages]
    exact synced

/-- The image that a sound boot leaves the loop with comes from the golden
descriptor or has the version of the SBL. -/
theorem InStep.leave (sound : BootSound input device) {state final : SecureState}
    (inStep : InStep input device state) {inputs : StageInputs input.signed}
    (leaves : secureIteration input inputs state = .done (.leave final))
    (regular : (final.entered input).golden = false) :
    (final.entered input).version = some input.sbl.version := by
  rcases secureIteration_cases input inputs state with
    reset | ⟨index, chosen, update, errs, handle, fuses, select, run, result⟩
  · rw [reset] at leaves
    cases leaves
  · rw [result] at leaves
    split_ifs at leaves with clear
    cases leaves
    obtain ⟨success, -⟩ := runStages_errCode_eq_zero (not_not.mp clear)
    have zeros := errs_of_success success
    subst zeros
    obtain ⟨swId, signed, version⟩ :=
      passed_version input inputs (congrArg Prod.fst run)
    have notGolden : chosen.fde.rank ≠ otaImgRankGolden := by
      intro golden
      have source := inStep.chosen sound select golden
      simp [SecureState.entered, afterStages, source] at regular
    obtain ⟨errCode, calls, stages⟩ := runStages_eq input.env ⟨0, 0, 0, 0⟩ chosen
    simp only [SecureState.entered, afterStages, stages, signed, Option.map_some,
      version notGolden]

/-- The fuses of every boot that is started stay sound, however it ends. -/
theorem Boots.fusesSound {next : Device} {result : Option Entered} {limit : UInt32}
    (boot : Boots input device next result)
    (starts : fuseVersion device.fuses ≤ input.sbl.version)
    (bounded : VersionBounded limit device.fuses device.passed) :
    fuseVersion next.fuses ≤ input.sbl.version ∧
      VersionBounded limit next.fuses next.passed := by
  have initial : FusesSound input limit (secureStart input device) := ⟨starts, bounded⟩
  have preserved : ∀ n state next, Heads (secureLoop input) (secureStart input device) n state →
      FusesSound input limit state → secureLoop input n state = .again next →
        FusesSound input limit next := by
    intro n state next _ sound goes
    have after := sound.iterate (input.stages n)
    rw [← secureLoop, goes] at after
    exact after
  have ends : ∀ n state last, Heads (secureLoop input) (secureStart input device) n state →
      FusesSound input limit state → secureLoop input n state = .done last →
        FusesSound input limit last.state := by
    intro n state last _ sound stops
    have after := sound.iterate (input.stages n)
    rw [← secureLoop, stops] at after
    exact after
  cases boot with
  | cut flash head =>
      have sound := head.invariant _ initial preserved
      exact ⟨sound.below, sound.bounded⟩
  | stop flash done =>
      have sound := Loop.result_of_invariant _ _ initial preserved ends done
      exact ⟨sound.below, sound.bounded⟩
  | enter flash left =>
      have sound := Loop.result_of_invariant _ _ initial preserved ends left
      exact ⟨sound.below, sound.bounded⟩
  | jump other => exact ⟨starts, bounded⟩

end Boot

/-- One step in the life of a device: a sound boot with an SBL that the PBL
starts, or a change of the descriptor table by someone else. -/
inductive DeviceStep : Device → Device → Prop where
  | boot {device next : Device} {input : BootInput} {result : Option Entered}
      (starts : fuseVersion device.fuses ≤ input.sbl.version)
      (sound : BootSound input device) (boots : Boots input device next result) :
      DeviceStep device next
  | rewrite {device : Device} (fdt : Fdt) : DeviceStep device { device with fdt := fdt }

/-- The devices that a history of sound boots leads to. -/
abbrev History : Device → Device → Prop := Relation.ReflTransGen DeviceStep

theorem History.bounded {fuses : Fuses} {fdt : Fdt} {device : Device}
    (history : History ⟨fuses, fdt, []⟩ device) :
    VersionBounded (fuseVersion fuses) device.fuses device.passed := by
  induction history with
  | refl => exact Or.inl (UInt32.le_refl _)
  | tail _ step ih =>
      cases step with
      | boot starts sound boots => exact (boots.fusesSound starts ih).2
      | rewrite fdt => exact ih

end QHal.Boot
