/-
Module: QHal.Proofs.UpdateFwd
Purpose: The invalidation of a descriptor in flash after a failed load or hash
  stage.  `boot_sbl_update_fwd` stands between two boots: what it leaves in
  flash decides whether the next boot lists the descriptor again.
Trusted boundary: none
Main exports: Invalidates, bootSblUpdateFwd_eq, update_never_invalidates
-/
import QHal.Proofs.LoopTermination

namespace QHal.Boot

/-- The address of a descriptor sector. -/
def sectorAddress (sector : UInt8) : UInt32 := sector.toUInt32 * blockSizeInBytes

/-- The address of the status byte of a descriptor in flash. -/
def statusAddress (sector : UInt8) : UInt32 :=
  sectorAddress sector + UInt32.ofNat fwdStatusOffset

/-- The record lists the descriptor of this sector as valid. -/
def Lists (info : SblInfo) (sector : UInt8) : Prop :=
  ∃ slot, fwdTableIsValid info slot = true ∧ info.bootFwd slot = sector

/-- The device grants the read and the write of a descriptor sector. -/
def ReadsSector (storage : Storage) (sector : UInt8) : Prop :=
  storage.flashReadStatus (sectorAddress sector) sizeofFwd = blErrNone

def WritesSector (storage : Storage) (sector : UInt8) : Prop :=
  storage.flashWriteStatus (sectorAddress sector) sizeofFwd = blErrNone

instance (storage : Storage) (sector : UInt8) : Decidable (ReadsSector storage sector) :=
  inferInstanceAs (Decidable (_ = _))

instance (storage : Storage) (sector : UInt8) : Decidable (WritesSector storage sector) :=
  inferInstanceAs (Decidable (_ = _))

/-- What `boot_sbl_update_fwd` is for.  With a working flash the status byte
becomes 0, nothing else changes and the next boot does not list the
descriptor; a refused read or write is reported. -/
def Invalidates (storage : Storage) (sector : UInt8) : Prop :=
  (ReadsSector storage sector ∧ WritesSector storage sector →
      (bootSblUpdateFwd storage sector).2.flash (statusAddress sector) = 0 ∧
        (∀ address, address ≠ statusAddress sector →
          (bootSblUpdateFwd storage sector).2.flash address = storage.flash address) ∧
        ¬ Lists (bootSblGetFwdInfo (bootSblUpdateFwd storage sector).2 zeroInfo).2 sector) ∧
    (¬ ReadsSector storage sector ∨ ¬ WritesSector storage sector →
      (bootSblUpdateFwd storage sector).1 ≠ blErrNone)

/-- The update never writes: it leaves the flash as it is, and reports success. -/
theorem bootSblUpdateFwd_eq (storage : Storage) (sector : UInt8) :
    bootSblUpdateFwd storage sector = (blErrNone, storage) := by
  unfold bootSblUpdateFwd bootSblFlashRead
  by_cases granted :
      storage.flashReadStatus (sector.toUInt32 * blockSizeInBytes) sizeofFwd = blErrNone
  · simp [granted]
  · -- The buffer of a refused read is the cleared descriptor, whose status is 0.
    simp [granted]

/-- The descriptor of a failed image is never invalidated, nor a failure to do so reported. -/
theorem update_never_invalidates (storage : Storage) (sector : UInt8)
    (stored : storage.flash (statusAddress sector) ≠ 0) : ¬ Invalidates storage sector := by
  rintro ⟨works, reports⟩
  rw [bootSblUpdateFwd_eq] at works reports
  by_cases read : ReadsSector storage sector
  · by_cases write : WritesSector storage sector
    · exact stored (works ⟨read, write⟩).1
    · exact reports (Or.inr write) rfl
  · exact reports (Or.inl read) rfl

theorem update_never_invalidates_golden : ¬ Invalidates goldenOnly 0 :=
  update_never_invalidates goldenOnly 0 (by decide)

/-- On a working flash the descriptor keeps its status and is listed again. -/
theorem update_leaves_golden_valid :
    ¬ ∀ storage sector, storage.flash (statusAddress sector) ≠ 0 →
      Invalidates storage sector := by
  intro invalidates
  have cleared := (invalidates goldenOnly 0 (by decide)).1 ⟨by decide, by decide⟩
  exact cleared.2.2 ⟨indexGolden, by decide, by decide⟩

end QHal.Boot
