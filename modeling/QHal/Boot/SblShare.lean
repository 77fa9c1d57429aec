/-
Module: QHal.Boot.SblShare
Purpose: What the loader takes from the descriptor table in RRAM on its way to the
  application (qboot/system/rram_fdt.c and qboot/src/sbl_main.c), with the entries of the
  table and of the shared structure that it touches.
Trusted boundary: the load of the application leaves the header of the table; what stands
  behind the table and the shared structure can be read and written
Main exports: FdtS, Access, fdtVerify, bootSblFindAppimg, getBdfAddr, setSblShare, loaderStart
-/
import Mathlib.Logic.Function.Basic
import QHal.Boot.LoaderStart

namespace QHal.SblShare

open Boot (BlError FdtEntry blErrNone zeroFde otaImgIdApp otaImgRankTrial otaImgRankCurrent
  otaImgRankGolden otaImgRankAged)

def fdtSignature : UInt32 := 0x54445746

/-- `FDT_MAX_ENTRY`, the entries of a table of `FDT_SIZE` bytes behind its header. -/
def fdtMaxEntry : Nat := 1024 / 32 - 1

/-- `FDE_INVAL_IDX`. -/
def fdeInvalIdx : Nat := 1024 / 32

/-- `PART_SIZE`. -/
def partSize : Nat := 10

def otaImgIdBdf : UInt32 := 3
def blErrFdtInvalidSignature : BlError := 24
def blErrFdtInvalidEntryNum : BlError := 25

/-- `fdt_s`.  The entries have no end: the memory goes on behind the table. -/
structure FdtS where
  signature : UInt32
  numFde : UInt32
  fde : Nat → FdtEntry

/-- `IDAddr`. -/
structure IdAddr where
  id : UInt32
  addr : UInt32
deriving Repr, DecidableEq

/-- `boot_sbl_share`, with the memory behind it as further elements of `fdt_part`. -/
structure BootSblShare where
  magicNum : UInt32
  ver : UInt8
  imgType : UInt8
  bdfAddr : UInt32
  fdtPart : Nat → IdAddr

/-- A read of an entry of the table, or a write of an element of `fdt_part`. -/
inductive Access where
  | readFde (index : Nat)
  | writePart (index : Nat)
deriving Repr, DecidableEq

/-- An access to the table or to the shared structure. -/
def Access.Inside : Access → Prop
  | .readFde index => index < fdtMaxEntry
  | .writePart index => index < partSize

instance : DecidablePred Access.Inside
  | .readFde index => inferInstanceAs (Decidable (index < fdtMaxEntry))
  | .writePart index => inferInstanceAs (Decidable (index < partSize))

/-- `fdt_verify`. -/
def fdtVerify (fdt : FdtS) : BlError :=
  if fdt.signature ≠ fdtSignature then blErrFdtInvalidSignature
  else if fdt.numFde = 0 ∨ fdt.numFde.toNat > fdtMaxEntry then blErrFdtInvalidEntryNum
  else blErrNone

/-- The loop of `fde_get_idx_by_id_rank` with so many entries to go. -/
def idRankLoop (fdt : FdtS) (id rank : UInt32) : Nat → Nat → Nat × List Access
  | 0, _ => (fdeInvalIdx, [])
  | left + 1, i =>
      if (fdt.fde i).id = id ∧ (fdt.fde i).rank = rank then (i, [.readFde i])
      else
        let (idx, log) := idRankLoop fdt id rank left (i + 1)
        (idx, .readFde i :: log)

/-- `fde_get_idx_by_id_rank`. -/
def fdeGetIdxByIdRank (fdt : FdtS) (id rank : UInt32) : Nat × List Access :=
  idRankLoop fdt id rank fdt.numFde.toNat 0

/-- The nested searches of `boot_sbl_find_appimg`, one for each rank. -/
def findByRanks (fdt : FdtS) (id : UInt32) : List UInt32 → Nat × List Access
  | [] => (fdeInvalIdx, [])
  | rank :: ranks =>
      let (idx, log) := fdeGetIdxByIdRank fdt id rank
      if idx = fdeInvalIdx then
        let (idx, more) := findByRanks fdt id ranks
        (idx, log ++ more)
      else (idx, log)

/-- `boot_sbl_find_appimg`. -/
def bootSblFindAppimg (fdt : FdtS) : Nat × List Access :=
  findByRanks fdt otaImgIdApp
    [otaImgRankTrial, otaImgRankCurrent, otaImgRankGolden, otaImgRankAged]

/-- `fde_get_by_idx`: what it leaves in an entry that was all zero. -/
def fdeGetByIdx (fdt : FdtS) (idx : Nat) : FdtEntry × List Access :=
  if idx > fdtMaxEntry then (zeroFde, [])
  else if idx ≥ fdt.numFde.toNat then (zeroFde, [])
  else (fdt.fde idx, [.readFde idx])

/-- `get_bdf_addr`. -/
def getBdfAddr (fdt : FdtS) : UInt32 × List Access :=
  let (idx, log) := findByRanks fdt otaImgIdBdf [otaImgRankCurrent]
  if idx ≠ fdeInvalIdx then
    let (fde, more) := fdeGetByIdx fdt idx
    (fde.addr, log ++ more)
  else (0x37A000, log)

/-- The loop of `set_sbl_share` with so many entries to go. -/
def shareLoop (fdt : FdtS) : Nat → Nat → (Nat → IdAddr) → (Nat → IdAddr) × List Access
  | 0, _, fdtPart => (fdtPart, [])
  | left + 1, i, fdtPart =>
      let fde := fdt.fde i
      let (fdtPart, log) :=
        shareLoop fdt left (i + 1) (Function.update fdtPart i ⟨fde.id, fde.addr⟩)
      (fdtPart, .readFde i :: .writePart i :: log)

/-- `set_sbl_share`. -/
def setSblShare (imgType : UInt8) (bdfAddr : UInt32) (fdt : FdtS) (share : BootSblShare) :
    BootSblShare × List Access :=
  let (fdtPart, log) := shareLoop fdt fdt.numFde.toNat 0 share.fdtPart
  ({ magicNum := 0x55AA55AA
     ver := 1
     imgType := imgType
     bdfAddr := bdfAddr
     fdtPart := fdtPart }, log)

/-- `loader_start` for the command `t`.  The status of `fdt_get` is not used.  The entries can
be `updated` before the application is entered, with the image format in `imgType`. -/
def loaderStart (fdt : FdtS) (updated : Nat → FdtEntry) (imgType : UInt8)
    (share : BootSblShare) : BootSblShare × List Access :=
  let (idx, found) := bootSblFindAppimg fdt
  let (_, read) := if idx ≠ fdeInvalIdx then fdeGetByIdx fdt idx else (zeroFde, [])
  let (bdfAddr, bdf) := getBdfAddr { fdt with fde := updated }
  let (share, shared) := setSblShare imgType bdfAddr { fdt with fde := updated } share
  (share, found ++ read ++ bdf ++ shared)

end QHal.SblShare
