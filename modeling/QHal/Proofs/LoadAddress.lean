/-
Module: QHal.Proofs.LoadAddress
Purpose: The address that an iteration of the load loop hands to
  `boot_elf_load_init`.  The address is carried from one iteration to the next
  and only a valid descriptor with an APP entry sets it, so the module says
  from which loop states the next iteration works on the selected image.
Trusted boundary: none
Main exports: appEntryAt, startSlot, AddressSound, init_address_exact_iff_sound
-/
import QHal.Proofs.LoadLoop

namespace QHal.Boot

open Loop (Heads)

/-- The APP entry of a descriptor number; there is none past the table. -/
def appEntryAt (info : SblInfo) (index : Nat) : Option ImageEntry :=
  if h : index < 3 then appEntry (info.flashFwdTable ⟨index, h⟩) else none

/-- The offset in flash of the image of an entry. -/
def entryOffset (entry : ImageEntry) : UInt32 := entry.startBlock * blockSizeInBytes

instance (sblFdeRank : UInt32) (info : SblInfo) : Decidable (TrialSkipped sblFdeRank info) :=
  inferInstanceAs (Decidable (_ ∧ _ ∧ _))

/-- The descriptor a boot starts with: the first valid one, where a skipped
trial descriptor does not count. -/
def startSlot (sblFdeRank : UInt32) (info : SblInfo) : Option (Fin 3) :=
  if TrialSkipped sblFdeRank info then
    if fwdTableIsValid info indexCurrent then some indexCurrent
    else if fwdTableIsValid info indexGolden then some indexGolden
    else none
  else firstValidFwd info

/-- In this iteration, a selected descriptor has an APP entry and the ELF init
is called with the address of that entry. -/
def InitAddressExact (env : LoaderEnv) (errs : StageErrs) (state : LoopState) : Prop :=
  ∀ index after update, selectStage env state = .chosen index after update →
    index < maxFwdNum →
      ∃ entry, appEntryAt after.info index.toNat = some entry ∧
        (runStages env errs after).calls.head? =
          some ⟨.loadInit, appImageFlashAddress + entryOffset entry, errs.loadInit⟩

/-- The address carried into the iteration is by itself the offset of the
image of this descriptor. -/
def CarriedExact (state : LoopState) (index : Nat) : Prop :=
  ∃ entry, appEntryAt state.info index = some entry ∧
    state.appLoadAddr = entryOffset entry

/-- The loop states whose next iteration loads the image it selected.  Without
a pending error the first descriptor has an APP entry; with one, and unless
the selector resets, the next descriptor is valid and has an APP entry.  Where
the address is not set anew, the carried one must happen to be right. -/
def AddressSound (sblFdeRank : UInt32) (state : LoopState) : Prop :=
  (state.info.errCode = 0 → ∀ slot, startSlot sblFdeRank state.info = some slot →
      (appEntryAt state.info slot.val).isSome) ∧
    (state.info.errCode = 0 → TrialDeadEnd sblFdeRank state.info →
      CarriedExact state 0) ∧
    (state.info.errCode ≠ 0 → state.info.validFwd < 2 →
      (ResetForced state.info →
        fwdValidAt state.info (state.info.validFwd.toNat + 1) = false) →
      (fwdValidAt state.info (state.info.validFwd.toNat + 1) = true ∧
          (appEntryAt state.info (state.info.validFwd.toNat + 1)).isSome) ∨
        CarriedExact state (state.info.validFwd.toNat + 1))

/-- The status test of `boot_sbl_prepare_set_fde` is the one of the table. -/
theorem status_toUInt32_eq_valid (status : UInt8) :
    (status.toUInt32 == otaImgStateValid) = (status == 1) := by
  rw [Bool.eq_iff_iff, beq_iff_eq, beq_iff_eq]
  constructor
  · intro same
    have value := congrArg UInt32.toNat same
    exact UInt8.toNat_inj.mp (by simpa [otaImgStateValid] using value)
  · rintro rfl
    rfl

/-- What `boot_sbl_prepare_set_fde` does with the load address. -/
theorem bootSblPrepareSetFde_address (info : SblInfo) (appFde : FdtEntry)
    (appLoadAddr : UInt32) (index : Fin 3) :
    (bootSblPrepareSetFde info appFde appLoadAddr index).2.2 =
      match fwdTableIsValid info index, appEntry (info.flashFwdTable index) with
      | true, some entry => entryOffset entry
      | _, _ => appLoadAddr := by
  have test : ((info.flashFwdTable index).signature == fwUpgradeMagicV1 &&
      (info.flashFwdTable index).status == 1) = fwdTableIsValid info index := rfl
  simp only [bootSblPrepareSetFde, status_toUInt32_eq_valid, test]
  cases valid : fwdTableIsValid info index with
  | true =>
      cases app : appEntry (info.flashFwdTable index) with
      | none => simp
      | some entry => simp [entryOffset]
  | false => simp

/-- Of the record, `boot_sbl_prepare_set_fde` writes the load type only. -/
theorem bootSblPrepareSetFde_info (info : SblInfo) (appFde : FdtEntry)
    (appLoadAddr : UInt32) (index : Fin 3) :
    ∃ loadType, (bootSblPrepareSetFde info appFde appLoadAddr index).1 =
      { info with loadType := loadType } := by
  simp only [bootSblPrepareSetFde]
  cases (info.flashFwdTable index).signature == fwUpgradeMagicV1 &&
      (info.flashFwdTable index).status.toUInt32 == otaImgStateValid with
  | true =>
      cases appEntry (info.flashFwdTable index) with
      | some entry => exact ⟨_, rfl⟩
      | none => exact ⟨info.loadType, rfl⟩
  | false => exact ⟨info.loadType, rfl⟩

/-- Taking over a descriptor keeps the record up to the load type. -/
theorem takeFwd_info (state : LoopState) (info : SblInfo) (index : UInt8) :
    ∃ loadType, (takeFwd state info index).info = { info with loadType := loadType } := by
  unfold takeFwd
  split_ifs with below
  · exact bootSblPrepareSetFde_info info state.fde state.appLoadAddr ⟨index.toNat, below⟩
  · exact ⟨info.loadType, rfl⟩

theorem appEntryAt_takeFwd (state : LoopState) (info : SblInfo) (index : UInt8) (i : Nat) :
    appEntryAt (takeFwd state info index).info i = appEntryAt info i := by
  obtain ⟨loadType, same⟩ := takeFwd_info state info index
  rw [same]
  rfl

theorem takeFwd_appLoadAddr {state : LoopState} {info : SblInfo} {index : UInt8}
    (below : index.toNat < 3) :
    (takeFwd state info index).appLoadAddr =
      (match fwdValidAt info index.toNat, appEntryAt info index.toNat with
        | true, some entry => entryOffset entry
        | _, _ => state.appLoadAddr) + appImageFlashAddress := by
  have address := bootSblPrepareSetFde_address info state.fde state.appLoadAddr
    ⟨index.toNat, below⟩
  simp only [takeFwd, below, dif_pos, fwdValidAt, appEntryAt]
  rw [← address]

/-- The first stage call of an iteration is the ELF init at the load address. -/
theorem runStages_head {env : LoaderEnv} {errs : StageErrs} {state : LoopState}
    (fresh : state.calls = []) :
    (runStages env errs state).calls.head? =
      some ⟨.loadInit, state.appLoadAddr, errs.loadInit⟩ := by
  cases failed : failedStage env errs with
  | none =>
      have ok : errs.loadInit = 0 := by
        by_contra bad
        simp [failedStage, bad] at failed
      rw [runStages_ok state failed, fresh, ok]
      unfold successfulCalls
      split_ifs
      · rfl
      · rfl
  | some stage =>
      obtain ⟨rest, result⟩ := runStages_failed state failed
      rw [result, fresh]
      rfl

/-- For one selected descriptor, the ELF init gets the right address exactly
if the descriptor has an APP entry and is valid or the carried address is
right already. -/
theorem init_address_of_takeFwd (env : LoaderEnv) (errs : StageErrs) (state : LoopState)
    (info : SblInfo) {index : UInt8} (below : index.toNat < 3) :
    (∃ entry, appEntryAt (takeFwd state info index).info index.toNat = some entry ∧
        (runStages env errs (takeFwd state info index)).calls.head? =
          some ⟨.loadInit, appImageFlashAddress + entryOffset entry, errs.loadInit⟩) ↔
      ∃ entry, appEntryAt info index.toNat = some entry ∧
        (fwdValidAt info index.toNat = true ∨ state.appLoadAddr = entryOffset entry) := by
  rw [appEntryAt_takeFwd, runStages_head (takeFwd_calls state info index),
    takeFwd_appLoadAddr below]
  cases app : appEntryAt info index.toNat with
  | none => simp
  | some entry =>
      cases valid : fwdValidAt info index.toNat with
      | true => simp [UInt32.add_comm]
      | false => simp [UInt32.add_comm appImageFlashAddress]

/-- The image entries do not depend on the status of a descriptor. -/
theorem appEntryAt_clearStatus (info : SblInfo) (index : UInt8) (i : Nat) :
    appEntryAt (clearStatus info index) i = appEntryAt info i := by
  unfold appEntryAt
  split_ifs with below
  · unfold appEntry clearStatus
    by_cases same : i = index.toNat
    · simp [same]
    · simp [same]
  · rfl

theorem appEntryAt_advance (info : SblInfo) (i : Nat) :
    appEntryAt (advance info) i = appEntryAt info i :=
  appEntryAt_clearStatus info info.validFwd i

theorem appEntryAt_skipInfo (info : SblInfo) (i : Nat) :
    appEntryAt (skipInfo info) i = appEntryAt info i :=
  appEntryAt_clearStatus (firstInfo info indexTrial) 0 i

/-- The reset of the load type is all that `selectInfo` does. -/
theorem selectInfo_eq (state : LoopState) :
    ∃ loadType, selectInfo state = { state.info with loadType := loadType } := by
  unfold selectInfo
  split_ifs
  · exact ⟨_, rfl⟩
  · exact ⟨state.info.loadType, rfl⟩

theorem startSlot_of_stay {sblFdeRank : UInt32} {info : SblInfo}
    (stay : ¬ TrialSkipped sblFdeRank info) :
    startSlot sblFdeRank info = firstValidFwd info := by
  simp [startSlot, stay]

/-- A boot that has a descriptor to start with selects it, and it is valid. -/
theorem select_startSlot {sblFdeRank : UInt32} {info : SblInfo} {slot : Fin 3}
    (clear : info.errCode = 0) (start : startSlot sblFdeRank info = some slot) :
    ∃ after, bootSblSelectValidFwd sblFdeRank info =
        .selected (UInt8.ofNat slot.val) after none ∧
      after.validFwd = UInt8.ofNat slot.val ∧ fwdTableIsValid after slot = true ∧
      after.flashFwdTable slot = info.flashFwdTable slot := by
  rw [selectValidFwd_of_clear sblFdeRank clear]
  rcases selectFirst_cases sblFdeRank info with ⟨skip, result⟩ | ⟨stay, first, -⟩ |
      ⟨found, stay, first, result⟩
  · have target : UInt8.ofNat slot.val = skipTarget info ∧
        fwdTableIsValid info slot = true ∧ slot.val ≠ 0 := by
      simp only [startSlot, skip, if_true] at start
      split_ifs at start with current golden
      · cases start
        exact ⟨by simp only [skipTarget, current, if_true]; rfl, current, by decide⟩
      · cases start
        exact ⟨by simp only [skipTarget, current, golden, if_true]; rfl, golden,
          by decide⟩
    obtain ⟨number, valid, later⟩ := target
    rw [number]
    refine ⟨skipInfo info, result, rfl, ?_, if_neg later⟩
    rw [fwdTableIsValid_skipInfo, valid]
    simp [later]
  · rw [startSlot_of_stay stay, first] at start
    cases start
  · rw [startSlot_of_stay stay, first] at start
    cases start
    refine ⟨firstInfo info slot, result, rfl, ?_, rfl⟩
    have valid := fwdValidAt_firstInfo first
    rw [fin_toNat_ofNat] at valid
    simpa [fwdValidAt] using valid

/-- What the selector must return for the address to be right. -/
def ReturnsExact (sblFdeRank : UInt32) (appLoadAddr : UInt32) (info : SblInfo) : Prop :=
  ∀ index after update,
    bootSblSelectValidFwd sblFdeRank info = .selected index after update →
      index < maxFwdNum →
        ∃ entry, appEntryAt after index.toNat = some entry ∧
          (fwdValidAt after index.toNat = true ∨ appLoadAddr = entryOffset entry)

theorem initAddressExact_iff_returnsExact (env : LoaderEnv) (errs : StageErrs)
    (state : LoopState) :
    InitAddressExact env errs state ↔
      ReturnsExact env.sblFdeRank state.appLoadAddr (selectInfo state) := by
  constructor
  · intro exact index after update result below
    apply (init_address_of_takeFwd env errs state after below).mp
    refine exact index (takeFwd state after index) update ?_ below
    rw [selectStage, result]
  · intro returns index after update select below
    unfold selectStage at select
    cases result : bootSblSelectValidFwd env.sblFdeRank (selectInfo state) with
    | reset flag =>
        rw [result] at select
        cases select
    | selected number info flag =>
        rw [result] at select
        cases select
        apply (init_address_of_takeFwd env errs state info below).mpr
        exact returns index info update result below

/-- A skipped trial descriptor: the address must be that of its replacement. -/
theorem skipTarget_exact_iff {sblFdeRank appLoadAddr : UInt32} {info : SblInfo}
    (skip : TrialSkipped sblFdeRank info) :
    (∃ entry, appEntryAt info (skipTarget info).toNat = some entry ∧
        ((fwdTableIsValid info indexCurrent || fwdTableIsValid info indexGolden) = true ∨
          appLoadAddr = entryOffset entry)) ↔
      (∀ slot, startSlot sblFdeRank info = some slot →
          (appEntryAt info slot.val).isSome) ∧
        (TrialDeadEnd sblFdeRank info →
          ∃ entry, appEntryAt info 0 = some entry ∧ appLoadAddr = entryOffset entry) := by
  have one : indexCurrent.val = 1 := rfl
  have two : indexGolden.val = 2 := rfl
  cases current : fwdTableIsValid info indexCurrent with
  | true =>
      simp [startSlot, skip, current, skipTarget, TrialDeadEnd, one, Option.isSome_iff_exists]
  | false =>
      cases golden : fwdTableIsValid info indexGolden with
      | true =>
          simp [startSlot, skip, current, golden, skipTarget, TrialDeadEnd, two,
            Option.isSome_iff_exists]
      | false => simp [startSlot, skip, current, golden, skipTarget, TrialDeadEnd]

/-- Without a pending error. -/
theorem returnsExact_first {sblFdeRank appLoadAddr : UInt32} {info : SblInfo}
    (clear : info.errCode = 0) :
    ReturnsExact sblFdeRank appLoadAddr info ↔
      (∀ slot, startSlot sblFdeRank info = some slot →
          (appEntryAt info slot.val).isSome) ∧
        (TrialDeadEnd sblFdeRank info →
          ∃ entry, appEntryAt info 0 = some entry ∧ appLoadAddr = entryOffset entry) := by
  unfold ReturnsExact
  rw [selectValidFwd_of_clear sblFdeRank clear]
  rcases selectFirst_cases sblFdeRank info with ⟨skip, result⟩ | ⟨stay, first, result⟩ |
      ⟨slot, stay, first, result⟩
  · rw [result, ← skipTarget_exact_iff skip, ← fwdValidAt_skipInfo, ← appEntryAt_skipInfo]
    constructor
    · intro returns
      exact returns _ _ _ rfl (skipTarget_lt info)
    · intro target index after update same _
      cases same
      exact target
  · rw [result, startSlot_of_stay stay, first]
    constructor
    · intro _
      refine ⟨?_, fun dead => absurd dead.1 stay⟩
      intro slot absent
      cases absent
    · intro _ index after update same below
      cases same
      exact absurd below (by decide)
  · have entry : appEntryAt (firstInfo info slot) slot.val = appEntryAt info slot.val := rfl
    have valid := fwdValidAt_firstInfo first
    rw [result, startSlot_of_stay stay, first]
    constructor
    · intro returns
      refine ⟨?_, fun dead => absurd dead.1 stay⟩
      intro other same
      cases same
      have inTable : UInt8.ofNat slot.val < maxFwdNum := by
        rw [UInt8.lt_iff_toNat_lt, fin_toNat_ofNat]
        exact slot.isLt
      obtain ⟨found, app, -⟩ := returns _ _ _ rfl inTable
      rw [fin_toNat_ofNat, entry] at app
      simp [app]
    · rintro ⟨has, -⟩ index after update same -
      cases same
      obtain ⟨found, app⟩ := Option.isSome_iff_exists.mp (has slot rfl)
      refine ⟨found, ?_, Or.inl valid⟩
      rw [fin_toNat_ofNat, entry]
      exact app

/-- With a pending error. -/
theorem returnsExact_next {sblFdeRank appLoadAddr : UInt32} {info : SblInfo}
    (pending : info.errCode ≠ 0) :
    ReturnsExact sblFdeRank appLoadAddr info ↔
      (info.validFwd < 2 →
        (ResetForced info → fwdValidAt info (info.validFwd.toNat + 1) = false) →
        (fwdValidAt info (info.validFwd.toNat + 1) = true ∧
            (appEntryAt info (info.validFwd.toNat + 1)).isSome) ∨
          ∃ entry, appEntryAt info (info.validFwd.toNat + 1) = some entry ∧
            appLoadAddr = entryOffset entry) := by
  unfold ReturnsExact
  rw [selectValidFwd_of_pending sblFdeRank pending]
  rcases selectNext_cases info with ⟨below, forced, next, update, result⟩ |
      ⟨below, stays, update, result⟩ | ⟨past, -, update, result⟩ | ⟨past, -, update, result⟩
  · rw [result]
    refine ⟨fun _ _ blocked => ?_, ?_⟩
    · rw [blocked forced] at next
      cases next
    · rintro - index after flag same
      cases same
  · have number := succ_toNat_of_lt_three below
    have next := fwdValidAt_advance below
    rw [number] at next
    rw [result]
    constructor
    · intro returns two _
      have inTable : info.validFwd + 1 < maxFwdNum := by
        rw [UInt8.lt_iff_toNat_lt] at two ⊢
        rw [number]
        exact Nat.succ_lt_succ two
      obtain ⟨entry, app, right⟩ := returns _ _ _ rfl inTable
      rw [number, appEntryAt_advance] at app
      rw [number, next] at right
      rcases right with valid | carried
      · exact Or.inl ⟨valid, by simp [app]⟩
      · exact Or.inr ⟨entry, app, carried⟩
    · rintro sound index after flag same inTable
      cases same
      have two : info.validFwd < 2 := by
        rw [UInt8.lt_iff_toNat_lt, number] at inTable
        rw [UInt8.lt_iff_toNat_lt]
        exact Nat.lt_of_succ_lt_succ inTable
      rw [number, next, appEntryAt_advance]
      rcases sound two stays with ⟨valid, has⟩ | ⟨entry, app, carried⟩
      · obtain ⟨entry, app⟩ := Option.isSome_iff_exists.mp has
        exact ⟨entry, app, Or.inl valid⟩
      · exact ⟨entry, app, Or.inr carried⟩
  · rw [result]
    refine ⟨fun _ two => absurd (UInt8.lt_trans two (by decide)) past, ?_⟩
    rintro - index after flag same
    cases same
  · rw [result]
    refine ⟨fun _ two => absurd (UInt8.lt_trans two (by decide)) past, ?_⟩
    rintro - index after flag same below
    cases same
    exact absurd below past

/-- One iteration hands the right address to the ELF init exactly from the
sound states. -/
theorem initAddressExact_iff (env : LoaderEnv) (errs : StageErrs) (state : LoopState) :
    InitAddressExact env errs state ↔ AddressSound env.sblFdeRank state := by
  rw [initAddressExact_iff_returnsExact]
  obtain ⟨loadType, same⟩ := selectInfo_eq state
  rw [same]
  by_cases clear : state.info.errCode = 0
  · have start : ({ state.info with loadType := loadType } : SblInfo).errCode = 0 := clear
    rw [returnsExact_first start]
    refine ⟨fun exact => ⟨fun _ => exact.1, fun _ => exact.2, fun h => absurd clear h⟩, ?_⟩
    rintro ⟨first, dead, -⟩
    exact ⟨first clear, dead clear⟩
  · have retry : ({ state.info with loadType := loadType } : SblInfo).errCode ≠ 0 := clear
    rw [returnsExact_next retry]
    refine ⟨fun exact => ⟨fun h => absurd h clear, fun h => absurd h clear, fun _ => exact⟩, ?_⟩
    rintro ⟨-, -, next⟩
    exact next clear

/-- Over a whole run of the load loop, every selected image is loaded from the
address of its own APP entry, exactly if every iteration starts in a sound
state. -/
theorem init_address_exact_iff_sound (storage : Storage) (fde : FdtEntry)
    (env : LoaderEnv) (errs : Nat → StageErrs) :
    (∀ n state, Heads (loaderLoop env errs) (loopStart storage fde) n state →
        InitAddressExact env (errs n) state) ↔
      ∀ n state, Heads (loaderLoop env errs) (loopStart storage fde) n state →
        AddressSound env.sblFdeRank state := by
  constructor
  · intro exact n state head
    exact (initAddressExact_iff env (errs n) state).mp (exact n state head)
  · intro sound n state head
    exact (initAddressExact_iff env (errs n) state).mpr (sound n state head)

/-- The ELF header of the trial image cannot be read.  The absent current
descriptor is selected next; it has no APP entry, and the address of the trial
image gets the flash offset a second time. -/
theorem init_address_offset_twice :
    ¬ ∀ n state,
      Heads (loaderLoop ⟨otaImgRankCurrent, true⟩ fun _ => ⟨5, 0, 0, 0⟩)
          (loopStart trialAndGolden zeroFde) n state →
        InitAddressExact ⟨otaImgRankCurrent, true⟩ ⟨5, 0, 0, 0⟩ state := by
  intro exact
  obtain ⟨entry, app, -⟩ := exact 1 _ rfl 1 _ none rfl (by decide)
  have present := Option.isSome_iff_exists.mpr ⟨entry, app⟩
  exact absurd present (by decide)

end QHal.Boot
