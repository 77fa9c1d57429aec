/-
Module: QHal.Proofs.SelectValidFwd
Purpose: What the descriptor selector of the boot loader returns.
Trusted boundary: none
Main exports: fwdValidAt, SelectionSound, selectFirst_cases, selectNext_cases,
  selection_valid_iff_sound
-/
import QHal.Boot.LoadLoop

namespace QHal.Boot

open Loop (Heads)

/-- `FWD_TABLE_IS_VALID` for a descriptor number; numbers past the table are
not valid. -/
def fwdValidAt (info : SblInfo) (index : Nat) : Bool :=
  if h : index < 3 then fwdTableIsValid info ⟨index, h⟩ else false

/-- The trial descriptor is skipped: it brought an SBL that the PBL rolled back
to the current one. -/
def TrialSkipped (sblFdeRank : UInt32) (info : SblInfo) : Prop :=
  fwdTableIsValid info indexTrial = true ∧
    bootSblFindFwdImage info indexTrial sblImgId ≠ 30 ∧
    sblFdeRank = otaImgRankCurrent

/-- The trial descriptor is skipped and no other descriptor is there. -/
def TrialDeadEnd (sblFdeRank : UInt32) (info : SblInfo) : Prop :=
  TrialSkipped sblFdeRank info ∧
    fwdTableIsValid info indexCurrent = false ∧
    fwdTableIsValid info indexGolden = false

/-- The states from which the selector is safe to call: without a pending
error the trial descriptor is no dead end, and with one the descriptor after
the failed one is valid, if there is one. -/
def SelectionSound (sblFdeRank : UInt32) (info : SblInfo) : Prop :=
  (info.errCode = 0 → ¬ TrialDeadEnd sblFdeRank info) ∧
    (info.errCode ≠ 0 → info.validFwd < 2 →
      fwdValidAt info (info.validFwd.toNat + 1) = true)

/-- Every descriptor the selector returns from this record is valid. -/
def ReturnsValid (sblFdeRank : UInt32) (info : SblInfo) : Prop :=
  ∀ index after update,
    bootSblSelectValidFwd sblFdeRank info = .selected index after update →
      index < maxFwdNum → fwdValidAt after index.toNat = true

theorem uint8_lt_three {index : UInt8} (below : index < 3) :
    index = 0 ∨ index = 1 ∨ index = 2 := by
  have bound : index.toNat < 3 := by simpa [UInt8.lt_iff_toNat_lt] using below
  have cases : index.toNat = 0 ∨ index.toNat = 1 ∨ index.toNat = 2 := by omega
  rcases cases with h | h | h
  · exact Or.inl (UInt8.toNat_inj.mp h)
  · exact Or.inr (Or.inl (UInt8.toNat_inj.mp h))
  · exact Or.inr (Or.inr (UInt8.toNat_inj.mp h))

theorem succ_toNat_of_lt_three {index : UInt8} (below : index < 3) :
    (index + 1).toNat = index.toNat + 1 := by
  rcases uint8_lt_three below with h | h | h
  · rw [h]
    rfl
  · rw [h]
    rfl
  · rw [h]
    rfl

theorem fin_toNat_ofNat (slot : Fin 3) : (UInt8.ofNat slot.val).toNat = slot.val := by
  have bound := slot.isLt
  simp
  omega

/-- The two branches of the selector. -/
theorem selectValidFwd_of_clear (sblFdeRank : UInt32) {info : SblInfo}
    (clear : info.errCode = 0) :
    bootSblSelectValidFwd sblFdeRank info = selectFirst sblFdeRank info := by
  simp [bootSblSelectValidFwd, clear, errorSblNone]

theorem selectValidFwd_of_pending (sblFdeRank : UInt32) {info : SblInfo}
    (pending : info.errCode ≠ 0) :
    bootSblSelectValidFwd sblFdeRank info = selectNext info := by
  simp [bootSblSelectValidFwd, pending, errorSblNone]

/-- Clearing a status leaves the other descriptors as they are. -/
theorem fwdTableIsValid_clearStatus (info : SblInfo) (index : UInt8) (slot : Fin 3) :
    fwdTableIsValid (clearStatus info index) slot =
      (fwdTableIsValid info slot && !decide (slot.val = index.toNat)) := by
  by_cases same : slot.val = index.toNat
  · simp [fwdTableIsValid, clearStatus, same]
  · simp [fwdTableIsValid, clearStatus, same]

/-- Below the end of the table the reset is performed exactly when the next
descriptor is valid. -/
theorem bootSblSwReset_of_lt {info : SblInfo} (below : info.validFwd < 3) :
    bootSblSwReset info = fwdValidAt info (info.validFwd.toNat + 1) := by
  rcases uint8_lt_three below with h | h | h
  · simp [bootSblSwReset, fwdValidAt, h, indexCurrent]
  · simp [bootSblSwReset, fwdValidAt, h, indexGolden]
  · simp [bootSblSwReset, fwdValidAt, h]

theorem bootSblSwReset_of_ge {info : SblInfo} (past : ¬ info.validFwd < 3) :
    bootSblSwReset info = true := by
  have zero : info.validFwd ≠ 0 := by rintro h; simp [h] at past
  have one : info.validFwd ≠ 1 := by rintro h; simp [h] at past
  have two : info.validFwd ≠ 2 := by rintro h; simp [h] at past
  simp [bootSblSwReset, zero, one, two]

/-- The pending error calls for a reset: the descriptor brought an SBL, or the
load or the hash stage failed. -/
def ResetForced (info : SblInfo) : Prop :=
  info.otaSblExist ≠ 30 ∨ info.errCode >>> errorSblImageLoad ≠ 0

/-- The record after the selector moved on to the next descriptor. -/
def advance (info : SblInfo) : SblInfo :=
  { clearStatus info info.validFwd with
    errCode := errorSblNone
    validFwd := info.validFwd + 1 }

/-- Everything the selector can do with a pending error. -/
theorem selectNext_cases (info : SblInfo) :
    (info.validFwd < 3 ∧ ResetForced info ∧
        fwdValidAt info (info.validFwd.toNat + 1) = true ∧
        ∃ update, selectNext info = .reset update) ∨
      (info.validFwd < 3 ∧
        (ResetForced info → fwdValidAt info (info.validFwd.toNat + 1) = false) ∧
        ∃ update,
          selectNext info = .selected (info.validFwd + 1) (advance info) update) ∨
      (¬ info.validFwd < 3 ∧ info.otaSblExist ≠ 30 ∧
        ∃ update, selectNext info = .reset update) ∨
      (¬ info.validFwd < 3 ∧ info.otaSblExist = 30 ∧
        ∃ update, selectNext info = .selected info.validFwd info update) := by
  by_cases below : info.validFwd < 3
  · have cleared : bootSblSwReset { info with errCode := errorSblNone } =
        fwdValidAt info (info.validFwd.toNat + 1) :=
      bootSblSwReset_of_lt below
    have kept := bootSblSwReset_of_lt below
    cases next : fwdValidAt info (info.validFwd.toNat + 1) with
    | true =>
        rw [next] at cleared kept
        -- the next descriptor is valid, so the descriptor is not the golden one
        have notGolden : info.validFwd ≠ 2 := by
          intro golden
          simp [fwdValidAt, golden] at next
        by_cases sbl : info.otaSblExist = 30
        · by_cases late : info.errCode >>> errorSblImageLoad = 0
          · refine Or.inr (Or.inl ⟨below, ?_, none, ?_⟩)
            · rintro (h | h)
              · exact absurd sbl h
              · exact absurd late h
            · simp [selectNext, sbl, notGolden, late, below, maxFwdNum, advance]
          · refine Or.inl ⟨below, Or.inr late, rfl,
              some (bootFwdAt info info.validFwd), ?_⟩
            simp [selectNext, sbl, notGolden, late, below, maxFwdNum, kept]
        · refine Or.inl ⟨below, Or.inl sbl, rfl, none, ?_⟩
          simp [selectNext, sbl, cleared]
    | false =>
        rw [next] at cleared kept
        refine Or.inr (Or.inl ⟨below, fun _ => rfl, ?_⟩)
        by_cases first : info.otaSblExist ≠ 30 ∨ info.validFwd = 2
        · have noLate : errorSblNone >>> errorSblImageLoad = 0 := by decide
          refine ⟨none, ?_⟩
          simp [selectNext, first, cleared, noLate, below, maxFwdNum, advance,
            clearStatus]
        · refine ⟨if info.errCode >>> errorSblImageLoad = 0 then none
            else some (bootFwdAt info info.validFwd), ?_⟩
          push Not at first
          by_cases late : info.errCode >>> errorSblImageLoad = 0
          · simp [selectNext, first, late, below, maxFwdNum, advance]
          · simp [selectNext, first, late, below, maxFwdNum, kept, advance]
  · have cleared : bootSblSwReset { info with errCode := errorSblNone } = true :=
      bootSblSwReset_of_ge below
    have notGolden : info.validFwd ≠ 2 := by
      intro golden
      simp [golden] at below
    by_cases sbl : info.otaSblExist = 30
    · refine Or.inr (Or.inr (Or.inr ⟨below, sbl, none, ?_⟩))
      simp [selectNext, sbl, notGolden, below, maxFwdNum]
    · refine Or.inr (Or.inr (Or.inl ⟨below, sbl, none, ?_⟩))
      simp [selectNext, sbl, cleared]

/-- The record after the scan settled on `slot`. -/
def firstInfo (info : SblInfo) (slot : Fin 3) : SblInfo :=
  { info with
    validFwd := UInt8.ofNat slot.val
    otaSblExist := bootSblFindFwdImage info slot sblImgId }

/-- The descriptor that replaces a skipped trial descriptor; the trial
descriptor itself when there is no other. -/
def skipTarget (info : SblInfo) : UInt8 :=
  if fwdTableIsValid info indexCurrent then 1
  else if fwdTableIsValid info indexGolden then 2
  else 0

/-- The record after the trial descriptor was skipped. -/
def skipInfo (info : SblInfo) : SblInfo :=
  { clearStatus (firstInfo info indexTrial) 0 with validFwd := skipTarget info }

theorem selectFirst_none {sblFdeRank : UInt32} {info : SblInfo}
    (absent : firstValidFwd info = none) :
    selectFirst sblFdeRank info = .selected maxFwdNum info none := by
  simp [selectFirst, absent]

theorem selectFirst_some {sblFdeRank : UInt32} {info : SblInfo} {slot : Fin 3}
    (found : firstValidFwd info = some slot) (stay : ¬ TrialSkipped sblFdeRank info) :
    selectFirst sblFdeRank info =
      .selected (UInt8.ofNat slot.val) (firstInfo info slot) none := by
  have branch : ¬ (bootSblFindFwdImage info slot sblImgId ≠ 30 ∧
      sblFdeRank = otaImgRankCurrent ∧ slot = indexTrial) := by
    rintro ⟨sbl, rank, rfl⟩
    refine stay ⟨?_, sbl, rank⟩
    unfold firstValidFwd at found
    split_ifs at found with trial
    · exact trial
    · exact absurd (Option.some.inj found) (by decide)
    · exact absurd (Option.some.inj found) (by decide)
  simp only [selectFirst, found, firstInfo]
  rw [if_neg]
  simpa [and_assoc] using branch

theorem selectFirst_skip {sblFdeRank : UInt32} {info : SblInfo}
    (skip : TrialSkipped sblFdeRank info) :
    selectFirst sblFdeRank info =
      .selected (skipTarget info) (skipInfo info) none := by
  obtain ⟨trial, sbl, rfl⟩ := skip
  have found : firstValidFwd info = some indexTrial := by simp [firstValidFwd, trial]
  have others : ∀ slot : Fin 3, slot ≠ 0 →
      fwdTableIsValid (clearStatus (firstInfo info indexTrial) 0) slot =
        fwdTableIsValid info slot := by
    intro slot other
    rw [fwdTableIsValid_clearStatus]
    simp [fwdTableIsValid, firstInfo, other]
  have current := others indexCurrent (by decide)
  have golden := others indexGolden (by decide)
  have trialNumber : UInt8.ofNat indexTrial.val = 0 := rfl
  simp only [selectFirst, found, trialNumber]
  simp only [firstInfo, trialNumber] at current golden
  rw [if_pos (by simp [sbl]), current, golden]
  cases isCurrent : fwdTableIsValid info indexCurrent with
  | true => simp [skipInfo, skipTarget, firstInfo, isCurrent, trialNumber]
  | false =>
      cases isGolden : fwdTableIsValid info indexGolden with
      | true => simp [skipInfo, skipTarget, firstInfo, isCurrent, isGolden, trialNumber]
      | false =>
          simp [skipInfo, skipTarget, firstInfo, isCurrent, isGolden, trialNumber,
            clearStatus]

/-- Everything the selector can do without a pending error. -/
theorem selectFirst_cases (sblFdeRank : UInt32) (info : SblInfo) :
    (TrialSkipped sblFdeRank info ∧
        selectFirst sblFdeRank info = .selected (skipTarget info) (skipInfo info) none) ∨
      (¬ TrialSkipped sblFdeRank info ∧ firstValidFwd info = none ∧
        selectFirst sblFdeRank info = .selected maxFwdNum info none) ∨
      ∃ slot, ¬ TrialSkipped sblFdeRank info ∧ firstValidFwd info = some slot ∧
        selectFirst sblFdeRank info =
          .selected (UInt8.ofNat slot.val) (firstInfo info slot) none := by
  by_cases skip : TrialSkipped sblFdeRank info
  · exact Or.inl ⟨skip, selectFirst_skip skip⟩
  · cases first : firstValidFwd info with
    | none => exact Or.inr (Or.inl ⟨skip, rfl, selectFirst_none first⟩)
    | some slot => exact Or.inr (Or.inr ⟨slot, skip, rfl, selectFirst_some first skip⟩)

theorem skipTarget_lt (info : SblInfo) : skipTarget info < maxFwdNum := by
  unfold skipTarget
  split_ifs <;> decide

/-- Moving on does not touch the descriptor moved to. -/
theorem fwdValidAt_advance {info : SblInfo} (below : info.validFwd < 3) :
    fwdValidAt (advance info) (info.validFwd + 1).toNat =
      fwdValidAt info (info.validFwd.toNat + 1) := by
  rcases uint8_lt_three below with h | h | h
  · simp [fwdValidAt, fwdTableIsValid, advance, clearStatus, h]
  · simp [fwdValidAt, fwdTableIsValid, advance, clearStatus, h]
  · simp [fwdValidAt, h]

theorem fwdValidAt_firstInfo {info : SblInfo} {slot : Fin 3}
    (found : firstValidFwd info = some slot) :
    fwdValidAt (firstInfo info slot) (UInt8.ofNat slot.val).toNat = true := by
  unfold firstValidFwd at found
  split_ifs at found with trial current golden
  · cases Option.some.inj found
    exact trial
  · cases Option.some.inj found
    exact current
  · cases Option.some.inj found
    exact golden

theorem fwdTableIsValid_skipInfo (info : SblInfo) (slot : Fin 3) :
    fwdTableIsValid (skipInfo info) slot =
      (fwdTableIsValid info slot && !decide (slot.val = 0)) :=
  fwdTableIsValid_clearStatus (firstInfo info indexTrial) 0 slot

theorem fwdValidAt_skipInfo (info : SblInfo) :
    fwdValidAt (skipInfo info) (skipTarget info).toNat =
      (fwdTableIsValid info indexCurrent || fwdTableIsValid info indexGolden) := by
  have others : fwdValidAt (skipInfo info) 0 = false ∧
      fwdValidAt (skipInfo info) 1 = fwdTableIsValid info indexCurrent ∧
      fwdValidAt (skipInfo info) 2 = fwdTableIsValid info indexGolden := by
    simp [fwdValidAt, fwdTableIsValid_skipInfo, indexCurrent, indexGolden]
  cases current : fwdTableIsValid info indexCurrent with
  | true => simp [skipTarget, current, others]
  | false =>
      cases golden : fwdTableIsValid info indexGolden with
      | true => simp [skipTarget, current, golden, others]
      | false => simp [skipTarget, current, golden, others]

/-- Without a pending error. -/
theorem returnsValid_first {sblFdeRank : UInt32} {info : SblInfo} (clear : info.errCode = 0) :
    ReturnsValid sblFdeRank info ↔ ¬ TrialDeadEnd sblFdeRank info := by
  unfold ReturnsValid
  rw [selectValidFwd_of_clear sblFdeRank clear]
  rcases selectFirst_cases sblFdeRank info with ⟨skip, result⟩ | ⟨stay, -, result⟩ |
      ⟨slot, stay, first, result⟩
  · rw [result]
    constructor
    · intro valid dead
      have target := valid _ _ _ rfl (skipTarget_lt info)
      rw [fwdValidAt_skipInfo, dead.2.1, dead.2.2] at target
      cases target
    · intro alive index after update same _
      cases same
      rw [fwdValidAt_skipInfo]
      by_contra dead
      rw [Bool.not_eq_true, Bool.or_eq_false_iff] at dead
      exact alive ⟨skip, dead⟩
  · rw [result]
    refine ⟨fun _ dead => stay dead.1, ?_⟩
    intro _ index after update same below
    cases same
    exact absurd below (by decide)
  · rw [result]
    refine ⟨fun _ dead => stay dead.1, ?_⟩
    intro _ index after update same _
    cases same
    exact fwdValidAt_firstInfo first

/-- With a pending error. -/
theorem returnsValid_next {sblFdeRank : UInt32} {info : SblInfo} (pending : info.errCode ≠ 0) :
    ReturnsValid sblFdeRank info ↔
      (info.validFwd < 2 → fwdValidAt info (info.validFwd.toNat + 1) = true) := by
  unfold ReturnsValid
  rw [selectValidFwd_of_pending sblFdeRank pending]
  rcases selectNext_cases info with ⟨below, -, next, update, result⟩ |
      ⟨below, -, update, result⟩ | ⟨past, -, update, result⟩ | ⟨past, -, update, result⟩
  · rw [result]
    refine ⟨fun _ _ => next, ?_⟩
    intro _ index after update same
    cases same
  · have inTable : info.validFwd + 1 < maxFwdNum ↔ info.validFwd < 2 := by
      rcases uint8_lt_three below with h | h | h
      · simp [h, maxFwdNum]
      · simp [h, maxFwdNum]
      · simp [h, maxFwdNum]
    rw [result, ← fwdValidAt_advance below]
    constructor
    · intro valid two
      exact valid _ _ _ rfl (inTable.mpr two)
    · intro sound index after update same bound
      cases same
      exact sound (inTable.mp bound)
  · rw [result]
    refine ⟨fun _ two => absurd (UInt8.lt_trans two (by decide)) past, ?_⟩
    intro _ index after update same
    cases same
  · rw [result]
    refine ⟨fun _ two => absurd (UInt8.lt_trans two (by decide)) past, ?_⟩
    intro _ index after update same bound
    cases same
    exact absurd bound past

/-- One call of the selector returns valid descriptors only, exactly from the
sound records. -/
theorem returnsValid_iff (sblFdeRank : UInt32) (info : SblInfo) :
    ReturnsValid sblFdeRank info ↔ SelectionSound sblFdeRank info := by
  unfold SelectionSound
  by_cases clear : info.errCode = 0
  · rw [returnsValid_first clear]
    simp [clear]
  · rw [returnsValid_next clear]
    simp [clear]

/-- The reset of the load type before the call does not matter to it. -/
theorem selectionSound_selectInfo (sblFdeRank : UInt32) (state : LoopState) :
    SelectionSound sblFdeRank (selectInfo state) ↔
      SelectionSound sblFdeRank state.info := by
  unfold selectInfo
  split_ifs
  · exact Iff.rfl
  · exact Iff.rfl

/-- Over a whole run of the load loop, the selector returns valid descriptors
only, exactly if it is called from sound records only. -/
theorem selection_valid_iff_sound (storage : Storage) (fde : FdtEntry)
    (env : LoaderEnv) (errs : Nat → StageErrs) :
    (∀ n state, Heads (loaderLoop env errs) (loopStart storage fde) n state →
        ReturnsValid env.sblFdeRank (selectInfo state)) ↔
      ∀ n state, Heads (loaderLoop env errs) (loopStart storage fde) n state →
        SelectionSound env.sblFdeRank state.info := by
  constructor
  · intro valid n state head
    have call := (returnsValid_iff _ _).mp (valid n state head)
    exact (selectionSound_selectInfo _ _).mp call
  · intro sound n state head
    apply (returnsValid_iff _ _).mpr
    exact (selectionSound_selectInfo _ _).mpr (sound n state head)

/-- The bytes of a descriptor with one APP entry.  All four bytes of the rank
are `rank`. -/
def sampleDescriptor (rank status startBlock : UInt8) (offset : Nat) : UInt8 :=
  if offset < 4 then [0x46, 0x57, 0x44, 0x54].getD offset 0
  else if 8 ≤ offset ∧ offset < 12 then rank
  else if offset = 12 then status
  else if offset = 13 then 1
  else if offset = 32 then 10
  else if offset = 36 then startBlock
  else 0

/-- A flash with the given first three sectors whose operations all succeed. -/
def sampleStorage (sectors : Nat → Nat → UInt8) : Storage where
  flash := fun address => sectors (address.toNat / 4096) (address.toNat % 4096)
  flashReadStatus := fun _ _ => 0
  flashWriteStatus := fun _ _ => 0
  flashTorn := fun _ => 0xFF
  rramWriteStatus := fun _ _ => 0
  rramSetStatus := fun _ _ => 0
  rramReadStatus := fun _ _ => 0

/-- A trial and a golden descriptor, and no current one. -/
def trialAndGolden : Storage :=
  sampleStorage fun sector =>
    if sector = 0 then sampleDescriptor 0xFF 1 3
    else if sector = 1 then sampleDescriptor 0 1 19
    else fun _ => 0xFF

/-- The ELF header of the trial image cannot be read; the selector then
returns the current descriptor, which is absent. -/
theorem selection_of_absent_current :
    ¬ ∀ n state,
      Heads (loaderLoop ⟨otaImgRankCurrent, true⟩ fun _ => ⟨5, 0, 0, 0⟩)
          (loopStart trialAndGolden zeroFde) n state →
        ReturnsValid otaImgRankCurrent (selectInfo state) := by
  intro valid
  have result := valid 1 _ rfl 1 _ none rfl (by decide)
  exact absurd result (by decide)

end QHal.Boot
