/-
Module: QHal.Proofs.SelectImage
Purpose: The FWD table as a copy of the FWD sectors, and what a selection takes
  over from it.  A change of status bytes changes neither rank nor images of a
  sector, and the selector only ever invalidates descriptors.
Trusted boundary: none
Main exports: TableOf, Narrows, SelectsImage, SelectsImage.select, takeFwd_slot
-/
import QHal.Proofs.ResidentBoot
import QHal.Proofs.LoopTermination

namespace QHal.Boot

section Table

theorem imageEntryOfBytes_congr {bytes other : Nat → UInt8} {offset : Nat}
    (same : ∀ i < 16, bytes (offset + i) = other (offset + i)) :
    imageEntryOfBytes bytes offset = imageEntryOfBytes other offset := by
  have field : ∀ start, start + 4 ≤ 16 →
      le32 bytes (offset + start) = le32 other (offset + start) := by
    intro start inside
    apply le32_congr
    intro i below
    rw [Nat.add_assoc]
    exact same (start + i) (by omega)
  have first := field 0 (by decide)
  simp only [Nat.add_zero] at first
  simp only [imageEntryOfBytes, first, field 4 (by decide), field 8 (by decide),
    field 12 (by decide)]

/-- Rank and image entries of a descriptor do not depend on its status byte. -/
theorem fwdOfBytes_fixed {bytes other : Nat → UInt8}
    (same : ∀ i < 512, i ≠ fwdStatusOffset → bytes i = other i) :
    (fwdOfBytes bytes).rank = (fwdOfBytes other).rank ∧
      (fwdOfBytes bytes).imageEntries = (fwdOfBytes other).imageEntries := by
  unfold fwdStatusOffset at same
  constructor
  · apply le32_congr
    intro i below
    exact same (8 + i) (by omega) (by omega)
  · apply Vector.ext
    intro k inTable
    simp only [fwdOfBytes, Vector.getElem_ofFn]
    apply imageEntryOfBytes_congr
    intro i below
    exact same (32 + 16 * k + i) (by omega) (by omega)

variable {content : FlashContent} {storage : Storage}

theorem sectorFwd_fixed (blocks : SameBlocks content storage) {sector : UInt8}
    (inTable : sector < 3) :
    (sectorFwd storage.flash sector).rank = (sectorFwd content.blocks sector).rank ∧
      appEntry (sectorFwd storage.flash sector) =
        appEntry (sectorFwd content.blocks sector) := by
  have same : ∀ i < 512, i ≠ fwdStatusOffset →
      storage.flash (sector.toUInt32 * blockSizeInBytes + UInt32.ofNat i) =
        content.blocks (sector.toUInt32 * blockSizeInBytes + UInt32.ofNat i) := by
    intro i below notStatus
    apply blocks
    intro other otherInTable equal
    have sum : ∀ s : UInt8, s < 3 → ∀ k < 512,
        (s.toUInt32 * blockSizeInBytes + UInt32.ofNat k).toNat = s.toNat * 4096 + k := by
      intro s small k inSector
      have bound : s.toNat < 3 := UInt8.lt_iff_toNat_lt.mp small
      have size : blockSizeInBytes.toNat = 4096 := rfl
      simp only [UInt32.toNat_add, UInt32.toNat_mul, UInt8.toNat_toUInt32, size,
        UInt32.toNat_ofNat']
      omega
    have addresses := congrArg UInt32.toNat equal
    have status : fwdStatusOffset = 12 := rfl
    rw [sum sector inTable i below, sum other otherInTable fwdStatusOffset (by decide)]
      at addresses
    omega
  obtain ⟨rank, entries⟩ := fwdOfBytes_fixed same
  exact ⟨rank, by rw [appEntry, appEntry, sectorFwd, sectorFwd, entries]⟩

/-- The slot that the descriptor of a sector belongs to. -/
def sectorSlot (content : FlashContent) (sector : UInt8) : Fin 3 :=
  fwdSlot (sectorFwd content.blocks sector).rank

/-- The valid descriptors of the table come from the FWD sectors. -/
def TableOf (content : FlashContent) (info : SblInfo) : Prop :=
  ∀ slot, fwdTableIsValid info slot = true →
    info.bootFwd slot < 3 ∧ sectorSlot content (info.bootFwd slot) = slot ∧
      appEntry (info.flashFwdTable slot) =
        appEntry (sectorFwd content.blocks (info.bootFwd slot))

theorem TableOf.placeFwd (blocks : SameBlocks content storage) {info : SblInfo}
    (table : TableOf content info) {sector : UInt8} (inTable : sector < 3) :
    TableOf content (placeFwd info sector (sectorFwd storage.flash sector)) := by
  obtain ⟨rank, entry⟩ := sectorFwd_fixed blocks inTable
  intro slot valid
  by_cases same : slot = fwdSlot (sectorFwd storage.flash sector).rank
  · simp only [Boot.placeFwd, same, if_true]
    refine ⟨inTable, ?_, entry⟩
    rw [sectorSlot, rank]
  · have old : fwdTableIsValid info slot = true := by
      simpa [Boot.placeFwd, fwdTableIsValid, same] using valid
    simpa [Boot.placeFwd, same] using table slot old

theorem TableOf.getFwdInfoLoop (blocks : SameBlocks content storage) (sectors : List UInt8)
    (inTable : ∀ sector ∈ sectors, sector < 3) {status : BlError} {info : SblInfo}
    (table : TableOf content info) :
    TableOf content (getFwdInfoLoop storage sectors status info).2 := by
  induction sectors generalizing status info with
  | nil => exact table
  | cons sector sectors ih =>
      have here := inTable sector List.mem_cons_self
      have later := fun s isLater => inTable s (List.mem_cons_of_mem sector isLater)
      unfold Boot.getFwdInfoLoop
      by_cases granted : storage.flashReadStatus (sector.toUInt32 * blockSizeInBytes) sizeofFwd =
          blErrNone
      · simp only [bootSblFlashRead, granted, if_true, ne_eq, not_true_eq_false, if_false]
        split_ifs
        · exact ih later (table.placeFwd blocks here)
        · exact ih later table
      · simp only [bootSblFlashRead, granted, if_false, ne_eq, not_false_eq_true, if_true]
        exact table

theorem tableOf_loopStart (blocks : SameBlocks content storage) (fde : FdtEntry) :
    TableOf content (loopStart storage fde).info := by
  apply TableOf.getFwdInfoLoop blocks
  · intro sector listed
    simp only [List.mem_cons, List.not_mem_nil, or_false] at listed
    rcases listed with rfl | rfl | rfl
    · decide
    · decide
    · decide
  · intro slot valid
    exact absurd valid (by decide +revert)

end Table

section Select

/-- A later record of the same table: descriptors may have become invalid. -/
structure Narrows (info after : SblInfo) : Prop where
  sectors : after.bootFwd = info.bootFwd
  valid : ∀ slot, fwdTableIsValid after slot = true → fwdTableIsValid info slot = true
  entries : ∀ slot, appEntry (after.flashFwdTable slot) = appEntry (info.flashFwdTable slot)

theorem TableOf.narrow {content : FlashContent} {info after : SblInfo}
    (table : TableOf content info) (narrows : Narrows info after) : TableOf content after := by
  intro slot valid
  rw [narrows.sectors, narrows.entries]
  exact table slot (narrows.valid slot valid)

theorem narrows_clearStatus (info : SblInfo) (index : UInt8) :
    Narrows info (clearStatus info index) where
  sectors := rfl
  valid slot isValid := by
    rw [fwdTableIsValid_clearStatus, Bool.and_eq_true] at isValid
    exact isValid.1
  entries slot := by
    have same := appEntryAt_clearStatus info index slot.val
    simpa [appEntryAt] using same

theorem narrows_of_table {info after : SblInfo} (sectors : after.bootFwd = info.bootFwd)
    (table : after.flashFwdTable = info.flashFwdTable) : Narrows info after where
  sectors := sectors
  valid slot isValid := by rwa [fwdTableIsValid, table] at isValid
  entries slot := by rw [table]

/-- The selector keeps the table but for statuses it clears. -/
theorem narrows_select {sblFdeRank : UInt32} {info after : SblInfo} {index : UInt8}
    {update : Option UInt8}
    (result : bootSblSelectValidFwd sblFdeRank info = .selected index after update) :
    Narrows info after := by
  by_cases pending : info.errCode = 0
  · rw [selectValidFwd_of_clear sblFdeRank pending] at result
    rcases selectFirst_cases sblFdeRank info with ⟨-, skips⟩ | ⟨-, -, absent⟩ |
        ⟨slot, -, -, found⟩
    · rw [skips] at result
      cases result
      have cleared := narrows_clearStatus (firstInfo info indexTrial) 0
      exact ⟨cleared.sectors, cleared.valid, cleared.entries⟩
    · rw [absent] at result
      cases result
      exact narrows_of_table rfl rfl
    · rw [found] at result
      cases result
      exact narrows_of_table rfl rfl
  · rw [selectValidFwd_of_pending sblFdeRank pending] at result
    rcases selectNext_cases info with ⟨-, -, -, flag, reset⟩ | ⟨-, -, flag, next⟩ |
        ⟨-, -, flag, reset⟩ | ⟨-, -, flag, next⟩
    · rw [reset] at result
      cases result
    · rw [next] at result
      cases result
      have cleared := narrows_clearStatus info info.validFwd
      exact ⟨cleared.sectors, cleared.valid, cleared.entries⟩
    · rw [reset] at result
      cases result
    · rw [next] at result
      cases result
      exact narrows_of_table rfl rfl

/-- The records from which the selector ends in a reset, goes past the table or
returns a valid descriptor with an APP entry; a boot must have one to start with. -/
def SelectsImage (sblFdeRank : UInt32) (info : SblInfo) : Prop :=
  (info.errCode = 0 → ∃ slot, startSlot sblFdeRank info = some slot ∧
      (appEntryAt info slot.val).isSome) ∧
    (info.errCode ≠ 0 → info.validFwd < 2 →
      (ResetForced info → fwdValidAt info (info.validFwd.toNat + 1) = false) →
      fwdValidAt info (info.validFwd.toNat + 1) = true ∧
        (appEntryAt info (info.validFwd.toNat + 1)).isSome)

/-- What the selector returns from such a record: a valid descriptor with an APP
entry that lies behind the one that failed, or no descriptor after a failure. -/
theorem SelectsImage.select {sblFdeRank : UInt32} {info after : SblInfo} {index : UInt8}
    {update : Option UInt8} (selects : SelectsImage sblFdeRank info)
    (result : bootSblSelectValidFwd sblFdeRank info = .selected index after update) :
    (∃ slot : Fin 3, index = UInt8.ofNat slot.val ∧ after.validFwd = index ∧
        fwdTableIsValid after slot = true ∧ (appEntry (after.flashFwdTable slot)).isSome ∧
        (info.errCode ≠ 0 → info.validFwd.toNat < slot.val)) ∨
      ¬ index.toNat < 3 ∧ info.errCode ≠ 0 ∧
        info.validFwd.toNat ≤ after.validFwd.toNat := by
  by_cases pending : info.errCode = 0
  · left
    obtain ⟨slot, start, app⟩ := selects.1 pending
    obtain ⟨first, selected, number, valid, table⟩ := select_startSlot pending start
    rw [selected] at result
    cases result
    refine ⟨slot, rfl, number, valid, ?_, fun failed => absurd pending failed⟩
    rw [table]
    simpa [appEntryAt] using app
  · rw [selectValidFwd_of_pending sblFdeRank pending] at result
    rcases selectNext_cases info with ⟨-, -, -, flag, reset⟩ | ⟨below, stays, flag, next⟩ |
        ⟨-, -, flag, reset⟩ | ⟨past, -, flag, next⟩
    · rw [reset] at result
      cases result
    · rw [next] at result
      cases result
      have number := succ_toNat_of_lt_three below
      by_cases two : info.validFwd < 2
      · left
        obtain ⟨valid, app⟩ := selects.2 pending two stays
        have inTable : info.validFwd.toNat + 1 < 3 := by
          have small := UInt8.lt_iff_toNat_lt.mp two
          exact Nat.succ_lt_succ small
        have back : UInt8.ofNat (info.validFwd.toNat + 1) = info.validFwd + 1 := by
          rw [← number, UInt8.ofNat_toNat]
        refine ⟨⟨info.validFwd.toNat + 1, inTable⟩, back.symm, rfl, ?_, ?_,
          fun _ => Nat.lt_succ_self _⟩
        · rw [← fwdValidAt_advance below, number] at valid
          simpa [fwdValidAt, inTable] using valid
        · rw [← appEntryAt_advance] at app
          simpa [appEntryAt, inTable] using app
      · right
        have large := Nat.not_lt.mp fun small => two (UInt8.lt_iff_toNat_lt.mpr small)
        have bound : (2 : UInt8).toNat = 2 := rfl
        refine ⟨by omega, pending, ?_⟩
        rw [advance, number]
        exact Nat.le_succ _
    · rw [reset] at result
      cases result
    · rw [next] at result
      cases result
      right
      have large := fun small => past (UInt8.lt_iff_toNat_lt.mpr small)
      exact ⟨large, pending, Nat.le_refl _⟩

/-- Taking over a valid descriptor with an APP entry. -/
theorem takeFwd_slot (state : LoopState) {info : SblInfo} {slot : Fin 3} {entry : ImageEntry}
    (valid : fwdTableIsValid info slot = true)
    (app : appEntry (info.flashFwdTable slot) = some entry) :
    ∃ reserve, takeFwd state info (UInt8.ofNat slot.val) =
      let type : BootElfLoadType :=
        if state.fde.addr ≠ (info.bootFwd slot).toUInt32 then .full else .ram
      { state with
        info := { info with loadType := type }
        fde :=
          { state.fde with
            addr := (info.bootFwd slot).toUInt32
            state := otaImgStateValid
            rank := slotRank slot
            reserve := reserve }
        tempfde := state.fde
        type := type
        appLoadAddr := entry.startBlock * blockSizeInBytes + appImageFlashAddress
        calls := [] } := by
  have number := fin_toNat_ofNat slot
  have below : (UInt8.ofNat slot.val).toNat < 3 := by
    rw [number]
    exact slot.isLt
  have same : (⟨(UInt8.ofNat slot.val).toNat, below⟩ : Fin 3) = slot := Fin.ext number
  have test : ((info.flashFwdTable slot).signature == fwUpgradeMagicV1 &&
      (info.flashFwdTable slot).status == 1) = true := valid
  refine ⟨state.fde.reserve.set 0 info.validFwdMask, ?_⟩
  simp only [takeFwd, below, dif_pos, same, bootSblPrepareSetFde, status_toUInt32_eq_valid,
    test, if_true, app]

theorem takeFwd_past {index : UInt8} (past : ¬ index.toNat < 3) (state : LoopState)
    (info : SblInfo) : takeFwd state info index = { state with info := info, calls := [] } := by
  rw [takeFwd, dif_neg past]

end Select

end QHal.Boot
