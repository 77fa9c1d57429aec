/-
Module: QHal.Boot.RollbackVersion
Purpose: The anti-rollback fuses of an image set,
  qboot/sbl_auth/rollback/boot_rollback_version.c: the search for the set of an image type, the
  version that the fuses stand for, and the next fuse that is open.
Trusted boundary: a pointer to a fuse row is the number of the row, with 0 for NULL; the table
  and the pointers for results are not NULL
Main exports: BootVersionRollbackImgSet, getSetByImgTypeLoop, bootRollbackFindOpenBit,
  calculateFuseVersion, findOpenVersionBit
-/
import QHal.Boot.SblAuth
import QHal.Lib.Loop

namespace QHal.Boot

open Loop (Status)

def blErrNullPtr : BlError := 1
def blErrRollbackImageSetNotFound : BlError := 36
def blErrRollbackOpenVersionFuseNotFound : BlError := 39

/-- `boot_version_rollback_img_set`, without the feature fuse and the shifts. -/
structure BootVersionRollbackImgSet where
  secSwImgList : Fin 3 → UInt32
  versionLsbBaseAddress : Nat
  versionLsbMask : UInt32
  versionMsbBaseAddress : Nat
  versionMsbMask : UInt32

/-! ## The set of an image type -/

/-- The loop over the list of a set. -/
def BootVersionRollbackImgSet.Contains (imageSet : BootVersionRollbackImgSet)
    (imageSwType : UInt32) : Prop :=
  ∃ currentImageIndex, imageSet.secSwImgList currentImageIndex = imageSwType

instance (imageSet : BootVersionRollbackImgSet) (imageSwType : UInt32) :
    Decidable (imageSet.Contains imageSwType) :=
  inferInstanceAs (Decidable (∃ index, imageSet.secSwImgList index = imageSwType))

/-- `image_set_count` and the index of `*image_set`. -/
structure Search where
  imageSetCount : UInt32
  imageSet : Nat
deriving Repr, DecidableEq

/-- A round of `boot_rollback_get_set_by_img_type`.  Neither the count nor the pointer moves on. -/
def getSetByImgTypeLoop (table : Nat → BootVersionRollbackImgSet) (entries imageSwType : UInt32)
    (_ : Nat) (search : Search) : Status Search (BlError × Nat) :=
  if search.imageSetCount < entries then
    if (table search.imageSet).Contains imageSwType then
      .done (blErrNone, search.imageSet)
    else .again search
  else .done (blErrRollbackImageSetNotFound, search.imageSet)

/-! ## The fuses -/

/-- `boot_rollback_find_open_bit`. -/
def bootRollbackFindOpenBit (value mask : UInt32) : UInt32 :=
  let isOpen (count : Nat) : Bool :=
    mask &&& (1 <<< UInt32.ofNat count) ≠ 0 ∧ value &&& (1 <<< UInt32.ofNat count) = 0
  match (List.range 32).find? isOpen with
  | some count => 1 <<< UInt32.ofNat count
  | none => 0

namespace BootVersionRollbackImgSet

variable (imageSet : BootVersionRollbackImgSet) (fuses : Nat → UInt32)

def hasNull : Bool := imageSet.versionLsbBaseAddress = 0 ∨ imageSet.versionMsbBaseAddress = 0

/-- The rows that the loops over the rows in between go through.  The pointers are subtracted as
pointers to rows, and compared with the bytes of a row. -/
def rowsBetween : List Nat :=
  if (imageSet.versionMsbBaseAddress : Int) - imageSet.versionLsbBaseAddress > 4 then
    List.range' (imageSet.versionLsbBaseAddress + 1)
      (imageSet.versionMsbBaseAddress - (imageSet.versionLsbBaseAddress + 1))
  else []

/-- `boot_rollback_calculate_fuse_version`. -/
def calculateFuseVersion : BlError × UInt32 :=
  if imageSet.hasNull then (blErrNullPtr, 0)
  else
    let lsb := bootRollbackCountBitsSet
      (fuses imageSet.versionLsbBaseAddress &&& imageSet.versionLsbMask)
    let between := imageSet.rowsBetween.foldl
      (fun version row => version + bootRollbackCountBitsSet (fuses row &&& 0xFF)) lsb
    (blErrNone, between + bootRollbackCountBitsSet
      (fuses imageSet.versionMsbBaseAddress &&& imageSet.versionMsbMask))

/-- The row and the bit mask of an open fuse of a row, if it has one. -/
def openIn (row : Nat) (mask : UInt32) : Option (Nat × UInt64) :=
  let bitMask := bootRollbackFindOpenBit (fuses row) mask
  if bitMask ≠ 0 then some (row, bitMask.toUInt64) else none

/-- `boot_rollback_find_open_version_bit`: the status, and `*fuse_base_address` and
`*fuse_bit_mask`. -/
def findOpenVersionBit : BlError × Nat × UInt64 :=
  if imageSet.hasNull then (blErrNullPtr, 0, 0)
  else
    match openIn fuses imageSet.versionLsbBaseAddress imageSet.versionLsbMask with
    | some found => (blErrNone, found)
    | none =>
        match imageSet.rowsBetween.findSome? fun row => openIn fuses row 0xFF with
        | some found => (blErrNone, found)
        | none =>
            match openIn fuses imageSet.versionMsbBaseAddress imageSet.versionMsbMask with
            | some found => (blErrNone, found)
            | none =>
                (blErrRollbackOpenVersionFuseNotFound, imageSet.versionMsbBaseAddress, 0)

end BootVersionRollbackImgSet

end QHal.Boot
