/-
Module: QHal.Boot.SblAuth
Purpose: Authentication and hash verification of the application image and the
  anti-rollback fuses: qboot/sbl_auth/sbl_auth.c,
  qboot/sbl_auth/rollback/boot_rollback_version.c and
  boot_rollback_version_impl.c.
Trusted boundary: the functions shared by the PBL and SHA-256 are parameters
Main exports: AuthState, SharedData, Fuses, bootRollbackCalculateFuseVersion,
  bootRollbackUpdateFuseVersion, sblImageAuth, sblComputeVerifyHash
-/
import QHal.Boot.ElfLoader

namespace QHal.Boot

/-- `sec_img_auth_id_type`; `SECBOOT_IMG_AUTH_…` has the same numbers. -/
def secImgAuthSblImg : UInt32 := 0
def secImgAuthAppImg : UInt32 := 1
def secImgAuthAppGoldImg : UInt32 := 3
def secImgAuthNumSupportedImg : UInt32 := 0x7FFFFFFF

def antiRollbackOtpOffset : UInt32 := 0x1A00B0
def rramWriteAdrByteAlign : UInt32 := 16

/-- `pbl_auth_state_t`. -/
structure AuthState where
  authEnabled : Bool
  hashIntegrityCheckDisabled : Bool
  antiRollbackUnlock : Bool
  swId : UInt64
deriving Repr, DecidableEq

/-- The upper half of `sw_id`. -/
def AuthState.version (state : AuthState) : UInt32 := (state.swId >>> 32).toUInt32

/-- The lower half of `sw_id`. -/
def AuthState.imageId (state : AuthState) : UInt32 := state.swId.toUInt32

/-- A SHA-256 digest. -/
abbrev Digest := Vector UInt8 32

/-- `pbl_hash_handle_t`: the hash table, one digest a program header, and what
the signature says about the image. -/
structure HashHandle where
  hashTable : Nat → Digest
  authState : AuthState

/-- `secboot_auth_image_info_t`. -/
structure ImageInfo where
  loader : BootElfLoader
  imageId : UInt32
  imageRank : UInt32

/-- `boot_apps_shared_data_t`, the state of the SBL and the functions of the
PBL.  A function pointer may be absent. -/
structure SharedData where
  authState : AuthState
  secimgAuth : Option (ImageInfo → UInt32)
  pblGetImageHashHandle : Option (ImageInfo → UInt32 × HashHandle)
  secimgAuthIsValidSegment : Elf32Phdr → Bool

/-- The two anti-rollback words in OTP. -/
structure Fuses where
  lsb : UInt32
  msb : UInt32
deriving Repr, DecidableEq

/-- The loop of `boot_rollback_count_bits_set`.  Each round clears the lowest
bit that is set, so 32 rounds are enough. -/
def countBitsSetLoop : Nat → UInt32 → UInt32 → UInt32
  | 0, _, count => count
  | fuel + 1, inputVal, count =>
      if inputVal ≠ 0 then countBitsSetLoop fuel (inputVal &&& (inputVal - 1)) (count + 1)
      else count

/-- `boot_rollback_count_bits_set`. -/
def bootRollbackCountBitsSet (inputVal : UInt32) : UInt32 :=
  countBitsSetLoop 32 inputVal 0

/-- `boot_rollback_calculate_fuse_version` on the only image set.  Both masks
are full, and there is no row between the two words. -/
def bootRollbackCalculateFuseVersion (fuses : Fuses) : UInt32 :=
  bootRollbackCountBitsSet (fuses.lsb &&& 0xFFFFFFFF) +
    bootRollbackCountBitsSet (fuses.msb &&& 0xFFFFFFFF)

/-- `sec_sw_img_list` of the image set. -/
def secSwImgList : List UInt32 :=
  [secImgAuthSblImg, secImgAuthAppImg, secImgAuthNumSupportedImg]

/-- The masks built by the loop of `boot_rollback_update_fuse_version`. -/
def fuseMasks (swVersion : UInt32) : Fuses :=
  (List.range swVersion.toNat).foldl
    (fun masks i =>
      if i < 32 then { masks with lsb := masks.lsb ||| (1 <<< UInt32.ofNat i) }
      else { masks with msb := masks.msb ||| (1 <<< UInt32.ofNat (i - 32)) })
    ⟨0, 0⟩

/-- `boot_rollback_fuse_version_save`: both words are written as a whole. -/
def bootRollbackFuseVersionSave (storage : Storage) (fuses value : Fuses) :
    BlError × Fuses :=
  let status := storage.rramWriteStatus antiRollbackOtpOffset rramWriteAdrByteAlign
  if status = 0 then (status, value) else (status, fuses)

/-- `boot_rollback_update_fuse_version`.  The search for the image set never
moves on from the first set, so it does not return for an image outside it;
the feature fuse does not exist; the status of the save is dropped. -/
def bootRollbackUpdateFuseVersion (storage : Storage) (imageId : UInt32)
    (authState : AuthState) (fuses : Fuses) : Option BlError × Fuses :=
  if ¬ secSwImgList.contains imageId then (none, fuses)
  else if ¬ authState.authEnabled then (some blErrNone, fuses)
  else if authState.version ≤ bootRollbackCalculateFuseVersion fuses then
    (some blErrNone, fuses)
  else if authState.version > 64 then (some blErrNone, fuses)
  else
    (some blErrNone,
      (bootRollbackFuseVersionSave storage fuses (fuseMasks authState.version)).2)

/-- `boot_rollback_validate_image_version`: the answer, and whether
`anti_rollback_unlock` of the application is cleared. -/
def bootRollbackValidateImageVersion (appImgId : UInt32)
    (sblAuthState appAuthState : AuthState) : Bool × AuthState :=
  if sblAuthState.imageId = secImgAuthSblImg ∧ appImgId = secImgAuthAppImg ∧
      appAuthState.version ≠ sblAuthState.version then
    (false, { appAuthState with antiRollbackUnlock := false })
  else (true, appAuthState)

/-- Neither authentication nor the integrity check is wanted. -/
def SharedData.unprotected (shared : SharedData) : Bool :=
  !shared.authState.authEnabled && shared.authState.hashIntegrityCheckDisabled

/-- `sbl_image_auth`: the status and the global `hash_handle` after the call. -/
def sblImageAuth (shared : SharedData) (imageInfo : ImageInfo) (handle : HashHandle) :
    UInt32 × HashHandle :=
  if shared.unprotected then (blErrNone, handle)
  else
    match shared.secimgAuth, shared.pblGetImageHashHandle with
    | some secimgAuth, some pblGetImageHashHandle =>
        let status := secimgAuth imageInfo
        if status ≠ blErrNone then (status, handle)
        else
          let (status, handle) := pblGetImageHashHandle imageInfo
          if status = blErrNone ∧ shared.authState.authEnabled then
            let (valid, appState) := bootRollbackValidateImageVersion imageInfo.imageId
              shared.authState handle.authState
            let handle := { handle with authState := appState }
            if valid then (blErrNone, handle)
            else (blErrRollbackVersionVerifyFail, handle)
          else (status, handle)
    | _, _ => (blErrImgAuthNullPtr, handle)

/-- The bytes of a memory range. -/
def memoryBytes (memory : Mem UInt8) (base : UInt32) (count : Nat) : List UInt8 :=
  (List.range count).map fun i => memory (base + UInt32.ofNat i)

/-- `mbedtls_sha256`: the status and the digest of a byte string. -/
abbrev Sha256 := List UInt8 → UInt32 × Digest

/-- The loop of `sbl_compute_verify_hash` over the headers from number `i` on.
`p_hash` stands at entry `i` of the hash table. -/
def verifyHashLoop (sha256 : Sha256) (shared : SharedData) (hashTable : Nat → Digest)
    (memory : Mem UInt8) : List Elf32Phdr → Nat → UInt32
  | [], _ => blErrNone
  | header :: headers, i =>
      if shared.secimgAuthIsValidSegment header = true ∧ header.pFilesz ≠ 0 then
        let (status, digest) :=
          sha256 (memoryBytes memory header.pVaddr header.pFilesz.toNat)
        if status ≠ 0 then blErrImgSecurityFail
        else if digest ≠ hashTable i then blErrElfHashMismatch
        else verifyHashLoop sha256 shared hashTable memory headers (i + 1)
      else verifyHashLoop sha256 shared hashTable memory headers (i + 1)

/-- `sbl_compute_verify_hash`: the status, absent if the call does not return,
and the fuses.  The loop starts at header 1. -/
def sblComputeVerifyHash (sha256 : Sha256) (storage : Storage) (shared : SharedData)
    (imageInfo : ImageInfo) (handle : HashHandle) (memory : Mem UInt8) (fuses : Fuses) :
    Option UInt32 × Fuses :=
  if shared.unprotected then (some blErrNone, fuses)
  else
    let status := verifyHashLoop sha256 shared handle.hashTable memory
      (imageInfo.loader.progHdrs.drop 1) 1
    if status = blErrNone ∧ shared.authState.authEnabled = true ∧
        imageInfo.imageRank = otaImgRankCurrent ∧
        shared.authState.antiRollbackUnlock = true then
      bootRollbackUpdateFuseVersion storage secImgAuthAppImg handle.authState fuses
    else (some status, fuses)

end QHal.Boot
