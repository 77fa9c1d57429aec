/-
Module: QHal.Boot.FlashFwd
Purpose: The firmware descriptors (FWD) in flash and the table the boot loader
  builds from them: qboot/include/sbl_flash_fwd.h and
  qboot/system/sbl_flash_fwd.c.
Trusted boundary: the device answers in `Storage`; a descriptor has the layout of a packed
  little-endian structure
Main exports: Fwd, SblInfo, fwdTableIsValid, bootSblGetFwdInfo,
  bootSblPrepareSetFde, bootSblFindFwdImage, bootSblUpdateFwd
-/
import QHal.Boot.Storage

namespace QHal.Boot

def fwUpgradeMagicV1 : UInt32 := 0x54445746
def appImgId : UInt32 := 10
def sblImgId : UInt32 := 1
def blockSizeInBytes : UInt32 := 4096
def sizeofFwd : UInt32 := 512

def indexTrial : Fin 3 := 0
def indexCurrent : Fin 3 := 1
def indexGolden : Fin 3 := 2
def maxFwdNum : UInt8 := 3

/-- `APP_IMAGE_FLASH_ADDRESS`, where the loader sees the flash. -/
def appImageFlashAddress : UInt32 := 0xA00000

/-- Bit numbers of the stages in `err_code`. -/
def errorSblNone : UInt8 := 0
def errorSblLoadInit : UInt8 := 1
def errorSblImageAuth : UInt8 := 2
def errorSblImageLoad : UInt8 := 3
def errorSblVerifyHash : UInt8 := 4

def otaImgStateValid : UInt32 := 1
def otaImgStateVerifyPending : UInt32 := 4

def otaImgRankAged : UInt32 := 0
def otaImgRankGolden : UInt32 := 1
def otaImgRankCurrent : UInt32 := 2
def otaImgRankTrial : UInt32 := 3

/-- `boot_elf_load_type`. -/
inductive BootElfLoadType where
  | full
  | ram
  | copy
  | max
deriving Repr, DecidableEq, Inhabited

/-- `image_entry`. -/
structure ImageEntry where
  imageId : UInt32
  startBlock : UInt32
  totalBlocks : UInt32
  imgVersion : UInt32
deriving Repr, DecidableEq, Inhabited

/-- `fwd`: one firmware descriptor, 512 bytes in flash. -/
structure Fwd where
  signature : UInt32
  version : UInt32
  rank : UInt32
  status : UInt8
  totalImages : UInt8
  reserved : Vector UInt8 18
  imageEntries : Vector ImageEntry 30
deriving Repr, DecidableEq, Inhabited

/-- `fdt_entry`, an entry of the descriptor table in RRAM. -/
structure FdtEntry where
  id : UInt32
  rank : UInt32
  format : UInt32
  addr : UInt32
  state : UInt32
  version : UInt32
  reserve : Vector UInt8 8
deriving Repr, DecidableEq, Inhabited

/-- `sbl_info_s`, the loader's global record. -/
structure SblInfo where
  flashFwdTable : Fin 3 → Fwd
  bootFwd : Fin 3 → UInt8
  validFwd : UInt8
  validFwdMask : UInt8
  loadType : BootElfLoadType
  otaSblExist : UInt8
  errCode : UInt8

/-- `FWD_TABLE_IS_VALID`. -/
def fwdTableIsValid (info : SblInfo) (type : Fin 3) : Bool :=
  (info.flashFwdTable type).signature == fwUpgradeMagicV1 &&
    (info.flashFwdTable type).status == 1

/-- A little-endian 32-bit field of a byte buffer. -/
def le32 (bytes : Nat → UInt8) (offset : Nat) : UInt32 :=
  (bytes offset).toUInt32 ||| ((bytes (offset + 1)).toUInt32 <<< 8) |||
    ((bytes (offset + 2)).toUInt32 <<< 16) ||| ((bytes (offset + 3)).toUInt32 <<< 24)

theorem le32_congr {bytes other : Nat → UInt8} {offset : Nat}
    (same : ∀ i < 4, bytes (offset + i) = other (offset + i)) :
    le32 bytes offset = le32 other offset := by
  have first := same 0 (by decide)
  have second := same 1 (by decide)
  have third := same 2 (by decide)
  have fourth := same 3 (by decide)
  simp only [Nat.add_zero] at first
  simp only [le32, first, second, third, fourth]

/-- The `image_entry` at a byte offset. -/
def imageEntryOfBytes (bytes : Nat → UInt8) (offset : Nat) : ImageEntry where
  imageId := le32 bytes offset
  startBlock := le32 bytes (offset + 4)
  totalBlocks := le32 bytes (offset + 8)
  imgVersion := le32 bytes (offset + 12)

/-- The `fwd` structure laid over its 512 bytes. -/
def fwdOfBytes (bytes : Nat → UInt8) : Fwd where
  signature := le32 bytes 0
  version := le32 bytes 4
  rank := le32 bytes 8
  status := bytes 12
  totalImages := bytes 13
  reserved := Vector.ofFn fun i => bytes (14 + i)
  imageEntries := Vector.ofFn fun i => imageEntryOfBytes bytes (32 + 16 * i)

/-- The slot of a descriptor in the table: 0 is golden, all ones is trial,
anything else is current. -/
def fwdSlot (rank : UInt32) : Fin 3 :=
  if rank = 0 then indexGolden
  else if rank = 0xFFFFFFFF then indexTrial
  else indexCurrent

/-- The bit of a slot in `valid_fwd_mask`. -/
def fwdMaskBit (slot : Fin 3) : UInt8 :=
  if slot = indexGolden then 1 else if slot = indexTrial then 4 else 2

/-- Record the descriptor read from `sector` in its slot. -/
def placeFwd (info : SblInfo) (sector : UInt8) (descriptor : Fwd) : SblInfo :=
  let slot := fwdSlot descriptor.rank
  { info with
    flashFwdTable := fun i => if i = slot then descriptor else info.flashFwdTable i
    bootFwd := fun i => if i = slot then sector else info.bootFwd i
    validFwdMask := info.validFwdMask ||| fwdMaskBit slot }

/-- The sector loop of `boot_sbl_get_fwd_info` over the sectors still to be
read.  A failed read ends the scan and keeps what was found so far; its buffer is
not looked at. -/
def getFwdInfoLoop (storage : Storage) :
    List UInt8 → BlError → SblInfo → BlError × SblInfo
  | [], status, info => (status, info)
  | sector :: sectors, status, info =>
      let (err, buffer) :=
        bootSblFlashRead storage (sector.toUInt32 * blockSizeInBytes) sizeofFwd fun _ => 0
      if err ≠ blErrNone then (status, info)
      else
        let descriptor := fwdOfBytes buffer
        if descriptor.signature == fwUpgradeMagicV1 &&
            descriptor.status.toUInt32 == otaImgStateValid then
          getFwdInfoLoop storage sectors blErrNone (placeFwd info sector descriptor)
        else getFwdInfoLoop storage sectors status info

/-- The all-zero descriptor that `memset` leaves in the table. -/
def zeroFwd : Fwd := fwdOfBytes fun _ => 0

/-- `boot_sbl_get_fwd_info`. -/
def bootSblGetFwdInfo (storage : Storage) (info : SblInfo) : BlError × SblInfo :=
  getFwdInfoLoop storage [0, 1, 2] blErrInvalidParam
    { info with flashFwdTable := fun _ => zeroFwd }

/-- `g_sbl_info` as the C start-up code leaves it. -/
def zeroInfo : SblInfo where
  flashFwdTable := fun _ => zeroFwd
  bootFwd := fun _ => 0
  validFwd := 0
  validFwdMask := 0
  loadType := .full
  otaSblExist := 0
  errCode := 0

/-- The APP entry the scan of `boot_sbl_prepare_set_fde` stops at. -/
def appEntry (descriptor : Fwd) : Option ImageEntry :=
  descriptor.imageEntries.toList.find? fun entry => entry.imageId == appImgId

/-- The rank `boot_sbl_prepare_set_fde` gives the application FDE. -/
def slotRank (index : Fin 3) : UInt32 :=
  if index = indexTrial then otaImgRankTrial
  else if index = indexCurrent then otaImgRankCurrent
  else otaImgRankGolden

/-- `boot_sbl_prepare_set_fde`: the record, the application FDE and the load
address after the call.  Only a valid descriptor with an APP entry sets the
address. -/
def bootSblPrepareSetFde (info : SblInfo) (appFde : FdtEntry)
    (appLoadAddr : UInt32) (index : Fin 3) : SblInfo × FdtEntry × UInt32 :=
  let descriptor := info.flashFwdTable index
  if descriptor.signature == fwUpgradeMagicV1 &&
      descriptor.status.toUInt32 == otaImgStateValid then
    let mark (fde : FdtEntry) : FdtEntry :=
      { fde with reserve := fde.reserve.set 0 info.validFwdMask }
    match appEntry descriptor with
    | some entry =>
        let loadType : BootElfLoadType :=
          if appFde.addr ≠ (info.bootFwd index).toUInt32 then .full else .ram
        ({ info with loadType := loadType },
          mark { appFde with
            addr := (info.bootFwd index).toUInt32
            state := otaImgStateValid
            rank := slotRank index },
          entry.startBlock * blockSizeInBytes)
    | none => (info, mark appFde, appLoadAddr)
  else (info, appFde, appLoadAddr)

/-- `boot_sbl_find_fwd_image`: the number of the first entry with the given
image id, or `MAX_FW_IMAGE_ENTRIES`. -/
def bootSblFindFwdImage (info : SblInfo) (index : Fin 3) (imgId : UInt32) : UInt8 :=
  UInt8.ofNat <| (info.flashFwdTable index).imageEntries.toList.findIdx fun entry =>
    entry.imageId == imgId

/-- Offset of `status` in the `fwd` structure. -/
def fwdStatusOffset : Nat := 12

/-- `boot_sbl_update_fwd`.  The write-back stands under the test that the read
did not succeed. -/
def bootSblUpdateFwd (storage : Storage) (sector : UInt8) : BlError × Storage :=
  let address := sector.toUInt32 * blockSizeInBytes
  let (err, flashFwd) := bootSblFlashRead storage address sizeofFwd fun _ => 0
  if err ≠ blErrNone then
    if flashFwd fwdStatusOffset ≠ 0 then
      let (writeErr, storage) := bootSblFlashWrite storage address sizeofFwd
        (Function.update flashFwd fwdStatusOffset 0)
      if writeErr ≠ blErrNone then (blErrInvalidParam, storage)
      else (blErrNone, storage)
    else (blErrNone, storage)
  else (blErrNone, storage)

end QHal.Boot
