/-
Module: QHal.Boot.LoaderStart
Purpose: `loader_start` around its load loop (qboot/src/sbl_main.c, lines
  250-310 and 408-424): the choice of the boot medium by the application FDE,
  and the FDE updates before the application is entered; with the firmware
  descriptor table in RRAM as far as the application entry goes,
  qboot/system/rram_fdt.c and `boot_sbl_find_appimg`.
Trusted boundary: the table in RRAM is read as it was written; a write of it that fails leaves it
  as it was
Main exports: Fdt, bootSblFindAppimg, fdeGetByIdx, fdeUpdate, appFde, bootsFromFlash,
  updateSblFde, updateAppFde, finishFdt
-/
import QHal.Boot.LoadLoop
import QHal.Boot.FlashFwd

namespace QHal.Boot

/-- The entries of the table; their number is `num_fde`. -/
abbrev Fdt := List FdtEntry

def otaImgIdApp : UInt32 := 2
def otaImgFormatElf : UInt32 := 0
def blErrFdeInvalidIdx : BlError := 29
def blErrFdeUpdateErr : BlError := 30

/-- `fde_get_idx_by_id_rank`: the first entry with the given id and rank. -/
def fdeGetIdxByIdRank (fdt : Fdt) (id rank : UInt32) : Option Nat :=
  fdt.findIdx? fun fde => fde.id == id && fde.rank == rank

/-- `boot_sbl_find_appimg`. -/
def bootSblFindAppimg (fdt : Fdt) : Option Nat :=
  fdeGetIdxByIdRank fdt otaImgIdApp otaImgRankTrial <|>
    fdeGetIdxByIdRank fdt otaImgIdApp otaImgRankCurrent <|>
    fdeGetIdxByIdRank fdt otaImgIdApp otaImgRankGolden <|>
    fdeGetIdxByIdRank fdt otaImgIdApp otaImgRankAged

/-- `fde_get_by_idx`: the entry is copied whatever its check says. -/
def fdeGetByIdx (fdt : Fdt) (idx : Nat) : Option FdtEntry := fdt[idx]?

/-- `fde_update`.  `writeStatus` is the answer of the RRAM to the write of the
entry. -/
def fdeUpdate (writeStatus : BlError) (fdt : Fdt) (fde : FdtEntry) (idx : Nat) :
    BlError × Fdt :=
  if idx ≥ fdt.length then (blErrFdeInvalidIdx, fdt)
  else if writeStatus ≠ 0 then (blErrFdeUpdateErr, fdt)
  else (blErrNone, fdt.set idx fde)

/-- The variable `fde` before the loop: the application FDE, or the all-zero
record if the table has none. -/
def appFde (fdt : Fdt) : FdtEntry :=
  match bootSblFindAppimg fdt with
  | some idx => (fdeGetByIdx fdt idx).getD zeroFde
  | none => zeroFde

/-- Whether the load type is set, so that the loop runs.  An application FDE of
another format than ELF is jumped to without any stage. -/
def bootsFromFlash (fdt : Fdt) : Bool :=
  match bootSblFindAppimg fdt with
  | some _ => (appFde fdt).format == otaImgFormatElf
  | none => true

/-- The FDE of the SBL that the PBL started. -/
structure SblFde where
  idx : Nat
  content : FdtEntry

/-- Lines 409-416: a trial SBL that got this far is marked valid. -/
def updateSblFde (writeStatus : BlError) (fdt : Fdt) (sblFde : SblFde) : Fdt :=
  if sblFde.content.rank = otaImgRankTrial ∧
      sblFde.content.state = otaImgStateVerifyPending then
    (fdeUpdate writeStatus fdt { sblFde.content with state := otaImgStateValid } sblFde.idx).2
  else fdt

/-- Lines 421-424: the application FDE is written back if the last iteration
changed it.  The status of the update is not used. -/
def updateAppFde (writeStatus : BlError) (fdt : Fdt) (idx : Option Nat) (state : LoopState) :
    Fdt :=
  match idx with
  | some idx =>
      if state.tempfde ≠ state.fde then (fdeUpdate writeStatus fdt state.fde idx).2 else fdt
  | none => fdt

/-- The table when the application is entered.  The answers of the RRAM to the
two writes are given. -/
def finishFdt (sblWrite appWrite : BlError) (fdt : Fdt) (sblFde : SblFde)
    (state : LoopState) : Fdt :=
  updateAppFde appWrite (updateSblFde sblWrite fdt sblFde) (bootSblFindAppimg fdt) state

end QHal.Boot
