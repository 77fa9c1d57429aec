/-
Module: QHal.Proofs.RollbackVersion
Purpose: The anti-rollback fuses of an image set: when the search finds the set of an image type,
  and when the counted version and the open fuse are those of all the rows of the set.
Trusted boundary: none
Main exports: FindsFirst, findsFirst_iff, version, IsOpen, CountsAndOpens, countsAndOpens_iff
-/
import Mathlib.Algebra.BigOperators.Group.Finset.Basic
import Mathlib.Algebra.Order.BigOperators.Group.Finset
import Mathlib.Order.Interval.Finset.Nat
import QHal.Boot.RollbackVersion
import QHal.Lib.BitCount

namespace QHal.Boot

open BitCount (count ones)
open Loop (status)

/-! ## The set of an image type -/

section Search

variable {table : Nat → BootVersionRollbackImgSet} {entries imageSwType : UInt32}

/-- The search ends: with the first set that contains the type, or with the error if no set
does. -/
def FindsFirst (table : Nat → BootVersionRollbackImgSet) (entries imageSwType : UInt32) : Prop :=
  ∃ rounds result, status (getSetByImgTypeLoop table entries imageSwType) ⟨0, 0⟩ rounds =
      .done result ∧
    ((result.1 = blErrNone ∧ result.2 < entries.toNat ∧ (table result.2).Contains imageSwType ∧
        ∀ before < result.2, ¬ (table before).Contains imageSwType) ∨
      (result.1 = blErrRollbackImageSetNotFound ∧
        ∀ index < entries.toNat, ¬ (table index).Contains imageSwType))

/-- Without a match in the first set, the search of a table with sets goes round for ever. -/
theorem search_stays (some : entries ≠ 0) (other : ¬ (table 0).Contains imageSwType)
    (rounds : Nat) :
    status (getSetByImgTypeLoop table entries imageSwType) ⟨0, 0⟩ rounds = .again ⟨0, 0⟩ := by
  induction rounds with
  | zero => rfl
  | succ rounds ih =>
      have more : (0 : UInt32) < entries := UInt32.pos_iff_ne_zero.mpr some
      rw [Loop.status_succ_of_again ih, getSetByImgTypeLoop, if_pos more, if_neg other]

theorem findsFirst_iff (table : Nat → BootVersionRollbackImgSet) (entries imageSwType : UInt32) :
    FindsFirst table entries imageSwType ↔ entries = 0 ∨ (table 0).Contains imageSwType := by
  constructor
  · rintro ⟨rounds, result, ended, -⟩
    by_contra neither
    rw [not_or] at neither
    rw [search_stays neither.1 neither.2] at ended
    cases ended
  · intro either
    by_cases none : entries = 0
    · subst none
      exact ⟨1, (blErrRollbackImageSetNotFound, 0), rfl, .inr ⟨rfl, fun index below => by
        cases below⟩⟩
    · have found := either.resolve_left none
      have more : (0 : UInt32) < entries := UInt32.pos_iff_ne_zero.mpr none
      refine ⟨1, (blErrNone, 0), ?_, .inl ⟨rfl, UInt32.lt_iff_toNat_lt.mp more, found, ?_⟩⟩
      · rw [Loop.status_succ_of_again rfl, getSetByImgTypeLoop, if_pos more, if_pos found]
      · intro before below
        cases below

/-- A table of two sets, the second of which has the image. -/
theorem search_misses_second :
    ¬ ∀ (table : Nat → BootVersionRollbackImgSet) (entries imageSwType : UInt32),
      FindsFirst table entries imageSwType := by
  intro all
  obtain ⟨rounds, result, ended, -⟩ :=
    all (fun set => ⟨fun _ => UInt32.ofNat set, 1, 0xFF, 2, 0xFF⟩) 2 1
  have other : ¬ (BootVersionRollbackImgSet.mk (fun _ => UInt32.ofNat 0) 1 0xFF 2 0xFF).Contains
      1 := by
    rintro ⟨index, same⟩
    cases same
  rw [search_stays (by decide) other] at ended
  cases ended

end Search

/-! ## Bits -/

theorem countBitsSetLoop_eq {fuel : Nat} {value acc : UInt32}
    (enough : count value.toBitVec ≤ fuel) :
    countBitsSetLoop fuel value acc = acc + UInt32.ofNat (count value.toBitVec) := by
  induction fuel generalizing value acc with
  | zero =>
      rw [countBitsSetLoop, Nat.le_zero.mp enough]
      exact (UInt32.add_zero acc).symm
  | succ fuel ih =>
      rw [countBitsSetLoop]
      split
      case isTrue some =>
        have cleared : count (value &&& (value - 1)).toBitVec + 1 = count value.toBitVec :=
          BitCount.count_clear fun zero => some (UInt32.toBitVec_inj.mp zero)
        rw [ih (by omega), ← cleared, UInt32.ofNat_add, UInt32.add_assoc,
          UInt32.add_comm (UInt32.ofNat _)]
        rfl
      case isFalse zero =>
        obtain rfl := Decidable.not_not.mp zero
        rw [show (0 : UInt32).toBitVec = 0 from rfl, BitCount.count_zero]
        exact (UInt32.add_zero acc).symm

/-- The loop counts the ones. -/
theorem bootRollbackCountBitsSet_eq (value : UInt32) :
    bootRollbackCountBitsSet value = UInt32.ofNat (count value.toBitVec) := by
  rw [bootRollbackCountBitsSet, countBitsSetLoop_eq (BitCount.count_le _), UInt32.zero_add]

theorem toBitVec_shiftLeft_one {i : Nat} (inside : i < 32) :
    (1 <<< UInt32.ofNat i : UInt32).toBitVec = BitVec.twoPow 32 i := by
  have each : ∀ i : Fin 32, (1 <<< UInt32.ofNat i.val : UInt32).toBitVec =
      BitVec.twoPow 32 i.val := by decide +kernel
  exact each ⟨i, inside⟩

theorem and_shiftLeft_one_eq_zero {value : UInt32} {i : Nat} (inside : i < 32) :
    value &&& (1 <<< UInt32.ofNat i) = 0 ↔ value.toBitVec.getLsbD i = false := by
  rw [← UInt32.toBitVec_inj, UInt32.toBitVec_and, toBitVec_shiftLeft_one inside,
    BitVec.and_twoPow]
  have some : BitVec.twoPow 32 i ≠ 0 := fun zero => by
    have value := BitVec.toNat_twoPow_of_lt inside
    rw [zero] at value
    exact absurd value.symm (Nat.ne_of_gt (Nat.two_pow_pos i))
  by_cases set : value.toBitVec.getLsbD i = true
  · rw [if_pos set]
    exact iff_of_false some (by simp [set])
  · rw [if_neg set]
    exact iff_of_true rfl (Bool.eq_false_iff.mpr set)

/-- A fuse of a row that counts under a mask and is not blown. -/
def OpenBit (value mask : UInt32) (i : Nat) : Prop :=
  i < 32 ∧ mask.toBitVec.getLsbD i = true ∧ value.toBitVec.getLsbD i = false

/-- The bit that is found is the mask of an open fuse, and 0 if there is none. -/
theorem findOpenBit_cases (value mask : UInt32) :
    (∃ i, OpenBit value mask i ∧ bootRollbackFindOpenBit value mask = 1 <<< UInt32.ofNat i) ∨
      ((∀ i, ¬ OpenBit value mask i) ∧ bootRollbackFindOpenBit value mask = 0) := by
  unfold bootRollbackFindOpenBit
  dsimp only
  split
  case h_1 i found =>
    have inside := List.mem_range.mp (List.mem_of_find?_eq_some found)
    have isOpen := List.find?_some found
    rw [decide_eq_true_eq, ne_eq, and_shiftLeft_one_eq_zero inside,
      and_shiftLeft_one_eq_zero inside, Bool.not_eq_false] at isOpen
    exact .inl ⟨i, ⟨inside, isOpen⟩, rfl⟩
  case h_2 none =>
    refine .inr ⟨fun i ⟨inside, set, clear⟩ => ?_, rfl⟩
    apply List.find?_eq_none.mp none i (List.mem_range.mpr inside)
    rw [decide_eq_true_eq, ne_eq, and_shiftLeft_one_eq_zero inside,
      and_shiftLeft_one_eq_zero inside, Bool.not_eq_false]
    exact ⟨set, clear⟩

theorem shiftLeft_one_ne_zero {i : Nat} (inside : i < 32) :
    (1 <<< UInt32.ofNat i : UInt32) ≠ 0 := by
  have each : ∀ i : Fin 32, (1 <<< UInt32.ofNat i.val : UInt32) ≠ 0 := by decide +kernel
  exact each ⟨i, inside⟩

/-! ## Rows -/

namespace BootVersionRollbackImgSet

variable (imageSet : BootVersionRollbackImgSet) (fuses : Nat → UInt32)

/-- `popcount(LSB & lsb_mask)`, the popcounts of the low bytes of all rows strictly between, and
`popcount(MSB & msb_mask)`. -/
def version : Nat :=
  count (fuses imageSet.versionLsbBaseAddress &&& imageSet.versionLsbMask).toBitVec +
    ∑ row ∈ Finset.Ioo imageSet.versionLsbBaseAddress imageSet.versionMsbBaseAddress,
      count (fuses row &&& 0xFF).toBitVec +
    count (fuses imageSet.versionMsbBaseAddress &&& imageSet.versionMsbMask).toBitVec

/-- One of these fuses is still 0. -/
def IsOpen : Prop :=
  (∃ i, OpenBit (fuses imageSet.versionLsbBaseAddress) imageSet.versionLsbMask i) ∨
    (∃ row ∈ Finset.Ioo imageSet.versionLsbBaseAddress imageSet.versionMsbBaseAddress,
      ∃ i, OpenBit (fuses row) 0xFF i) ∨
    ∃ i, OpenBit (fuses imageSet.versionMsbBaseAddress) imageSet.versionMsbMask i

/-- The mask of a row. -/
def maskOf (row : Nat) : UInt32 :=
  if row = imageSet.versionLsbBaseAddress then imageSet.versionLsbMask
  else if row = imageSet.versionMsbBaseAddress then imageSet.versionMsbMask
  else 0xFF

/-- The two ends and some rows between. -/
def rowsWith (between : Finset Nat) : Finset Nat :=
  insert imageSet.versionLsbBaseAddress (insert imageSet.versionMsbBaseAddress between)

/-- The fuses of some rows that are blown. -/
def blown (rows : Finset Nat) : Nat :=
  ∑ row ∈ rows, count (fuses row &&& imageSet.maskOf row).toBitVec

end BootVersionRollbackImgSet

section Rows

variable {imageSet : BootVersionRollbackImgSet} {fuses : Nat → UInt32} {between : Finset Nat}

/-- The rows of the set that lie strictly between its ends. -/
abbrev BootVersionRollbackImgSet.inner (imageSet : BootVersionRollbackImgSet) : Finset Nat :=
  Finset.Ioo imageSet.versionLsbBaseAddress imageSet.versionMsbBaseAddress

theorem maskOf_lsb : imageSet.maskOf imageSet.versionLsbBaseAddress = imageSet.versionLsbMask :=
  if_pos rfl

theorem maskOf_msb (above : imageSet.versionLsbBaseAddress < imageSet.versionMsbBaseAddress) :
    imageSet.maskOf imageSet.versionMsbBaseAddress = imageSet.versionMsbMask :=
  (if_neg (Nat.ne_of_gt above)).trans (if_pos rfl)

theorem maskOf_inner {row : Nat} (inside : row ∈ imageSet.inner) : imageSet.maskOf row = 0xFF := by
  obtain ⟨low, high⟩ := Finset.mem_Ioo.mp inside
  exact (if_neg (Nat.ne_of_gt low)).trans (if_neg (Nat.ne_of_lt high))

theorem blown_rowsWith (above : imageSet.versionLsbBaseAddress < imageSet.versionMsbBaseAddress)
    (inside : between ⊆ imageSet.inner) :
    imageSet.blown fuses (imageSet.rowsWith between) =
      count (fuses imageSet.versionLsbBaseAddress &&& imageSet.versionLsbMask).toBitVec +
        ∑ row ∈ between, count (fuses row &&& 0xFF).toBitVec +
        count (fuses imageSet.versionMsbBaseAddress &&& imageSet.versionMsbMask).toBitVec := by
  have lsb : imageSet.versionLsbBaseAddress ∉
      insert imageSet.versionMsbBaseAddress between := by
    intro listed
    rcases Finset.mem_insert.mp listed with same | inner
    · exact Nat.ne_of_lt above same
    · exact Nat.lt_irrefl _ (Finset.mem_Ioo.mp (inside inner)).1
  have msb : imageSet.versionMsbBaseAddress ∉ between := fun inner =>
    Nat.lt_irrefl _ (Finset.mem_Ioo.mp (inside inner)).2
  have masks : ∑ row ∈ between, count (fuses row &&& imageSet.maskOf row).toBitVec =
      ∑ row ∈ between, count (fuses row &&& 0xFF).toBitVec :=
    Finset.sum_congr rfl fun row listed => by rw [maskOf_inner (inside listed)]
  rw [BootVersionRollbackImgSet.blown, BootVersionRollbackImgSet.rowsWith,
    Finset.sum_insert lsb, Finset.sum_insert msb, maskOf_lsb, maskOf_msb above, masks,
    Nat.add_assoc, Nat.add_comm (count _) (∑ row ∈ between, _)]

/-- An open fuse is one of the rows under their masks. -/
theorem exists_open_rowsWith
    (above : imageSet.versionLsbBaseAddress < imageSet.versionMsbBaseAddress)
    (inside : between ⊆ imageSet.inner) :
    (∃ row ∈ imageSet.rowsWith between, ∃ i, OpenBit (fuses row) (imageSet.maskOf row) i) ↔
      (∃ i, OpenBit (fuses imageSet.versionLsbBaseAddress) imageSet.versionLsbMask i) ∨
        (∃ row ∈ between, ∃ i, OpenBit (fuses row) 0xFF i) ∨
        ∃ i, OpenBit (fuses imageSet.versionMsbBaseAddress) imageSet.versionMsbMask i := by
  have masks : (∃ row ∈ between, ∃ i, OpenBit (fuses row) (imageSet.maskOf row) i) ↔
      ∃ row ∈ between, ∃ i, OpenBit (fuses row) 0xFF i :=
    exists_congr fun row => and_congr_right fun listed => by rw [maskOf_inner (inside listed)]
  rw [BootVersionRollbackImgSet.rowsWith, Finset.exists_mem_insert, Finset.exists_mem_insert,
    maskOf_lsb, maskOf_msb above, masks, or_comm (a := ∃ i, OpenBit _ imageSet.versionMsbMask i)]

/-- The rows between that the loops go through. -/
def BootVersionRollbackImgSet.walked (imageSet : BootVersionRollbackImgSet) : Finset Nat :=
  imageSet.rowsBetween.toFinset

theorem rowsBetween_nodup (imageSet : BootVersionRollbackImgSet) : imageSet.rowsBetween.Nodup := by
  unfold BootVersionRollbackImgSet.rowsBetween
  split
  · exact List.nodup_range'
  · exact List.nodup_nil

theorem mem_walked {row : Nat} :
    row ∈ imageSet.walked ↔
      imageSet.versionLsbBaseAddress + 4 < imageSet.versionMsbBaseAddress ∧
        row ∈ imageSet.inner := by
  rw [BootVersionRollbackImgSet.walked, List.mem_toFinset, BootVersionRollbackImgSet.rowsBetween,
    Finset.mem_Ioo]
  split
  · rw [List.mem_range'_1]
    omega
  · simp only [List.not_mem_nil, false_iff]
    omega

theorem walked_subset (imageSet : BootVersionRollbackImgSet) : imageSet.walked ⊆ imageSet.inner :=
  fun _ listed => (mem_walked.mp listed).2

/-- On the configured image set, whose rows are adjacent and have full masks, it is the version of
the two words. -/
theorem calculateFuseVersion_adjacent (secSwImgList : Fin 3 → UInt32) {lsb : Nat} (some : lsb ≠ 0)
    (fuses : Nat → UInt32) :
    (⟨secSwImgList, lsb, 0xFFFFFFFF, lsb + 1, 0xFFFFFFFF⟩ :
        BootVersionRollbackImgSet).calculateFuseVersion fuses =
      (blErrNone, bootRollbackCalculateFuseVersion ⟨fuses lsb, fuses (lsb + 1)⟩) := by
  simp [BootVersionRollbackImgSet.calculateFuseVersion, BootVersionRollbackImgSet.hasNull, some,
    BootVersionRollbackImgSet.rowsBetween, bootRollbackCalculateFuseVersion]

/-- The version that is counted, in 32 bits. -/
theorem calculateFuseVersion_eq (nonNull : imageSet.hasNull = false)
    (above : imageSet.versionLsbBaseAddress < imageSet.versionMsbBaseAddress) :
    imageSet.calculateFuseVersion fuses =
      (blErrNone, UInt32.ofNat (imageSet.blown fuses (imageSet.rowsWith imageSet.walked))) := by
  have fold : ∀ (rows : List Nat) (acc : Nat),
      rows.foldl (fun version row => version + bootRollbackCountBitsSet (fuses row &&& 0xFF))
          (UInt32.ofNat acc) =
        UInt32.ofNat (acc + (rows.map fun row => count (fuses row &&& 0xFF).toBitVec).sum) := by
    intro rows
    induction rows with
    | nil => exact fun _ => rfl
    | cons row rows ih =>
        intro acc
        rw [List.foldl_cons, bootRollbackCountBitsSet_eq, ← UInt32.ofNat_add, ih, List.map_cons,
          List.sum_cons, Nat.add_assoc]
  have sum : (imageSet.rowsBetween.map fun row => count (fuses row &&& 0xFF).toBitVec).sum =
      ∑ row ∈ imageSet.walked, count (fuses row &&& 0xFF).toBitVec :=
    (List.sum_toFinset _ (rowsBetween_nodup imageSet)).symm
  rw [BootVersionRollbackImgSet.calculateFuseVersion,
    if_neg (by rw [nonNull]; exact Bool.false_ne_true),
    blown_rowsWith above (walked_subset imageSet), ← sum]
  dsimp only
  rw [bootRollbackCountBitsSet_eq, fold, bootRollbackCountBitsSet_eq, ← UInt32.ofNat_add]

theorem openIn_cases (fuses : Nat → UInt32) (row : Nat) (mask : UInt32) :
    (∃ i, OpenBit (fuses row) mask i ∧ BootVersionRollbackImgSet.openIn fuses row mask =
        some (row, (1 <<< UInt32.ofNat i : UInt32).toUInt64)) ∨
      ((∀ i, ¬ OpenBit (fuses row) mask i) ∧
        BootVersionRollbackImgSet.openIn fuses row mask = none) := by
  unfold BootVersionRollbackImgSet.openIn
  dsimp only
  rcases findOpenBit_cases (fuses row) mask with ⟨i, isOpen, found⟩ | ⟨closed, none⟩
  · rw [found, if_pos (shiftLeft_one_ne_zero isOpen.1)]
    exact .inl ⟨i, isOpen, rfl⟩
  · rw [none, if_neg fun some => some rfl]
    exact .inr ⟨closed, rfl⟩

/-- The open fuse that is found is one of the rows that are walked, and there is none if none is
found. -/
theorem findOpenVersionBit_cases (nonNull : imageSet.hasNull = false)
    (above : imageSet.versionLsbBaseAddress < imageSet.versionMsbBaseAddress) :
    (∃ row ∈ imageSet.rowsWith imageSet.walked, ∃ i,
        OpenBit (fuses row) (imageSet.maskOf row) i ∧ imageSet.findOpenVersionBit fuses =
          (blErrNone, row, (1 <<< UInt32.ofNat i : UInt32).toUInt64)) ∨
      ((∀ row ∈ imageSet.rowsWith imageSet.walked, ∀ i,
          ¬ OpenBit (fuses row) (imageSet.maskOf row) i) ∧
        (imageSet.findOpenVersionBit fuses).1 = blErrRollbackOpenVersionFuseNotFound) := by
  have lsbRow : imageSet.versionLsbBaseAddress ∈ imageSet.rowsWith imageSet.walked :=
    Finset.mem_insert_self _ _
  have msbRow : imageSet.versionMsbBaseAddress ∈ imageSet.rowsWith imageSet.walked :=
    Finset.mem_insert_of_mem (Finset.mem_insert_self _ _)
  have walkedRow : ∀ row ∈ imageSet.walked, row ∈ imageSet.rowsWith imageSet.walked :=
    fun _ listed => Finset.mem_insert_of_mem (Finset.mem_insert_of_mem listed)
  rw [BootVersionRollbackImgSet.findOpenVersionBit,
    if_neg (by rw [nonNull]; exact Bool.false_ne_true)]
  rcases openIn_cases fuses imageSet.versionLsbBaseAddress imageSet.versionLsbMask with
    ⟨i, isOpen, found⟩ | ⟨lsbClosed, none⟩
  · rw [found]
    exact .inl ⟨_, lsbRow, i, maskOf_lsb ▸ isOpen, rfl⟩
  rw [none]
  dsimp only
  cases search : imageSet.rowsBetween.findSome? fun row =>
      BootVersionRollbackImgSet.openIn fuses row 0xFF with
  | some found =>
      obtain ⟨row, listed, here⟩ := List.exists_of_findSome?_eq_some search
      have walked : row ∈ imageSet.walked := List.mem_toFinset.mpr listed
      rcases openIn_cases fuses row 0xFF with ⟨i, isOpen, same⟩ | ⟨-, nothing⟩
      · cases same.symm.trans here
        refine .inl ⟨row, walkedRow row walked, i, ?_, rfl⟩
        rw [maskOf_inner (walked_subset imageSet walked)]
        exact isOpen
      · rw [nothing] at here
        cases here
  | none =>
      rcases openIn_cases fuses imageSet.versionMsbBaseAddress imageSet.versionMsbMask with
        ⟨i, isOpen, found⟩ | ⟨msbClosed, nothing⟩
      · rw [found]
        exact .inl ⟨_, msbRow, i, maskOf_msb above ▸ isOpen, rfl⟩
      · rw [nothing]
        refine .inr ⟨fun row listed i isOpen => ?_, rfl⟩
        rcases Finset.mem_insert.mp listed with rfl | listed
        · exact lsbClosed i (maskOf_lsb ▸ isOpen)
        rcases Finset.mem_insert.mp listed with rfl | listed
        · exact msbClosed i (maskOf_msb above ▸ isOpen)
        · rw [maskOf_inner (walked_subset imageSet listed)] at isOpen
          have closed := List.findSome?_eq_none_iff.mp search row (List.mem_toFinset.mp listed)
          rcases openIn_cases fuses row 0xFF with ⟨_, _, same⟩ | ⟨allClosed, -⟩
          · rw [same] at closed
            cases closed
          · exact allClosed i isOpen

/-- A fuse row with one more bit blown. -/
def blow (fuses : Nat → UInt32) (row : Nat) (bitMask : UInt64) : Nat → UInt32 :=
  Function.update fuses row (fuses row ||| bitMask.toUInt32)

/-- Blowing an open fuse adds one to what counts. -/
theorem blown_blow {rows : Finset Nat} {row : Nat} (listed : row ∈ rows) {i : Nat}
    (isOpen : OpenBit (fuses row) (imageSet.maskOf row) i) :
    imageSet.blown (blow fuses row (1 <<< UInt32.ofNat i : UInt32).toUInt64) rows =
      imageSet.blown fuses rows + 1 := by
  obtain ⟨inside, set, clear⟩ := isOpen
  have here : count (blow fuses row (1 <<< UInt32.ofNat i : UInt32).toUInt64 row &&&
      imageSet.maskOf row).toBitVec = count (fuses row &&& imageSet.maskOf row).toBitVec + 1 := by
    rw [blow, Function.update_self, UInt32.toUInt32_toUInt64, UInt32.toBitVec_and,
      UInt32.toBitVec_or, toBitVec_shiftLeft_one inside]
    exact BitCount.count_set (i := ⟨i, inside⟩) set clear
  have others : ∑ other ∈ rows.erase row, count (blow fuses row
      (1 <<< UInt32.ofNat i : UInt32).toUInt64 other &&& imageSet.maskOf other).toBitVec =
        ∑ other ∈ rows.erase row, count (fuses other &&& imageSet.maskOf other).toBitVec := by
    apply Finset.sum_congr rfl
    intro other inOthers
    rw [blow, Function.update_of_ne (Finset.ne_of_mem_erase inOthers)]
  rw [BootVersionRollbackImgSet.blown, ← Finset.sum_erase_add _ _ listed, others, here,
    ← Nat.add_assoc, Finset.sum_erase_add _ _ listed, BootVersionRollbackImgSet.blown]

/-! ## The two walks -/

/-- The version is that of all rows of the set; an open fuse is found exactly when there is one;
blowing the fuse that is found raises the version by one. -/
structure CountsAndOpens (imageSet : BootVersionRollbackImgSet) (fuses : Nat → UInt32) : Prop where
  counts : ∃ result, imageSet.calculateFuseVersion fuses = (blErrNone, result) ∧
    result.toNat = imageSet.version fuses
  finds : (imageSet.findOpenVersionBit fuses).1 = blErrNone ↔ imageSet.IsOpen fuses
  raises : ∀ row bitMask, imageSet.findOpenVersionBit fuses = (blErrNone, row, bitMask) →
    (imageSet.calculateFuseVersion (blow fuses row bitMask)).2.toNat =
      (imageSet.calculateFuseVersion fuses).2.toNat + 1

/-- The walks pass every row between, and the fuses can be counted in 32 bits; or there are one to
three rows between, which are not passed: none of their fuses is blown, and one at the ends is
open. -/
def Walkable (imageSet : BootVersionRollbackImgSet) (fuses : Nat → UInt32) : Prop :=
  if imageSet.versionMsbBaseAddress = imageSet.versionLsbBaseAddress + 1 ∨
      imageSet.versionLsbBaseAddress + 4 < imageSet.versionMsbBaseAddress then
    imageSet.version fuses < 2 ^ 32 ∧
      (imageSet.IsOpen fuses → imageSet.version fuses + 1 < 2 ^ 32)
  else
    (∀ row ∈ imageSet.inner, fuses row &&& 0xFF = 0) ∧
      ((∃ i, OpenBit (fuses imageSet.versionLsbBaseAddress) imageSet.versionLsbMask i) ∨
        ∃ i, OpenBit (fuses imageSet.versionMsbBaseAddress) imageSet.versionMsbMask i)

/-- There is an open fuse in some rows. -/
def OpenAmong (imageSet : BootVersionRollbackImgSet) (fuses : Nat → UInt32) (rows : Finset Nat) :
    Prop :=
  ∃ row ∈ rows, ∃ i, OpenBit (fuses row) (imageSet.maskOf row) i

/-- The results in terms of the rows that are walked. -/
theorem countsAndOpens_iff_rows (nonNull : imageSet.hasNull = false)
    (above : imageSet.versionLsbBaseAddress < imageSet.versionMsbBaseAddress) :
    CountsAndOpens imageSet fuses ↔
      imageSet.blown fuses (imageSet.rowsWith imageSet.walked) % 2 ^ 32 =
          imageSet.version fuses ∧
        (OpenAmong imageSet fuses (imageSet.rowsWith imageSet.walked) ↔ imageSet.IsOpen fuses) ∧
        (OpenAmong imageSet fuses (imageSet.rowsWith imageSet.walked) →
          (imageSet.blown fuses (imageSet.rowsWith imageSet.walked) + 1) % 2 ^ 32 =
            imageSet.blown fuses (imageSet.rowsWith imageSet.walked) % 2 ^ 32 + 1) := by
  have value : ∀ fuses, (imageSet.calculateFuseVersion fuses).2.toNat =
      imageSet.blown fuses (imageSet.rowsWith imageSet.walked) % 2 ^ 32 := fun fuses => by
    rw [calculateFuseVersion_eq nonNull above, UInt32.toNat_ofNat']
  have found : (imageSet.findOpenVersionBit fuses).1 = blErrNone ↔
      OpenAmong imageSet fuses (imageSet.rowsWith imageSet.walked) := by
    rcases @findOpenVersionBit_cases _ fuses nonNull above with
      ⟨row, listed, i, isOpen, same⟩ | ⟨closed, same⟩
    · rw [same]
      exact iff_of_true rfl ⟨row, listed, i, isOpen⟩
    · rw [same]
      exact iff_of_false (by decide) fun ⟨row, listed, i, isOpen⟩ => closed row listed i isOpen
  constructor
  · rintro ⟨⟨result, calculated, counts⟩, finds, raises⟩
    refine ⟨?_, found.symm.trans finds, fun isOpen => ?_⟩
    · rw [← value, calculated, counts]
    · rcases @findOpenVersionBit_cases _ fuses nonNull above with
        ⟨row, listed, i, openBit, same⟩ | ⟨closed, -⟩
      · have raised := raises row _ same
        rwa [value, value, blown_blow listed openBit] at raised
      · obtain ⟨row, listed, i, openBit⟩ := isOpen
        exact absurd openBit (closed row listed i)
  · rintro ⟨counts, finds, raises⟩
    refine ⟨⟨_, calculateFuseVersion_eq nonNull above, ?_⟩, found.trans finds, ?_⟩
    · rw [UInt32.toNat_ofNat', counts]
    · intro row bitMask same
      rcases @findOpenVersionBit_cases _ fuses nonNull above with
        ⟨place, listed, i, openBit, there⟩ | ⟨-, none⟩
      · obtain ⟨rfl, rfl⟩ := Prod.mk.inj (Prod.mk.inj (there.symm.trans same)).2
        rw [value, value, blown_blow listed openBit, raises ⟨place, listed, i, openBit⟩]
      · rw [same] at none
        cases none

theorem version_eq (above : imageSet.versionLsbBaseAddress < imageSet.versionMsbBaseAddress) :
    imageSet.version fuses = imageSet.blown fuses (imageSet.rowsWith imageSet.inner) :=
  (blown_rowsWith above (Finset.Subset.refl _)).symm

theorem isOpen_iff (above : imageSet.versionLsbBaseAddress < imageSet.versionMsbBaseAddress) :
    imageSet.IsOpen fuses ↔ OpenAmong imageSet fuses (imageSet.rowsWith imageSet.inner) :=
  (exists_open_rowsWith above (Finset.Subset.refl _)).symm

/-- All rows are walked, except when one to three of them lie between. -/
theorem walked_eq (above : imageSet.versionLsbBaseAddress < imageSet.versionMsbBaseAddress) :
    imageSet.walked =
      if imageSet.versionMsbBaseAddress = imageSet.versionLsbBaseAddress + 1 ∨
          imageSet.versionLsbBaseAddress + 4 < imageSet.versionMsbBaseAddress then imageSet.inner
      else ∅ := by
  ext row
  rw [mem_walked]
  split
  case isTrue passed =>
    rw [Finset.mem_Ioo]
    omega
  case isFalse near =>
    rw [not_or] at near
    exact iff_of_false (fun both => near.2 both.1) (Finset.notMem_empty row)

/-- A low byte without a blown fuse has an open one. -/
theorem open_of_zero {value : UInt32} (zero : value &&& 0xFF = 0) : OpenBit value 0xFF 0 := by
  refine ⟨by decide, by decide, ?_⟩
  have bits : (value &&& 0xFF).toBitVec.getLsbD 0 = false := by rw [zero]; rfl
  rw [UInt32.toBitVec_and, BitVec.getLsbD_and] at bits
  exact (Bool.and_eq_false_iff.mp bits).resolve_right (by decide)

/-- The ends of an image set have at most 64 fuses. -/
theorem blown_ends_le (above : imageSet.versionLsbBaseAddress < imageSet.versionMsbBaseAddress) :
    imageSet.blown fuses (imageSet.rowsWith ∅) ≤ 64 := by
  rw [blown_rowsWith above (Finset.empty_subset _), Finset.sum_empty, Nat.add_zero]
  have lsb := BitCount.count_le
    (fuses imageSet.versionLsbBaseAddress &&& imageSet.versionLsbMask).toBitVec
  have msb := BitCount.count_le
    (fuses imageSet.versionMsbBaseAddress &&& imageSet.versionMsbMask).toBitVec
  omega

/-- Counter and finder agree with all the rows of an image set exactly when the walks pass them,
or have nothing to pass. -/
theorem countsAndOpens_iff (nonNull : imageSet.hasNull = false)
    (above : imageSet.versionLsbBaseAddress < imageSet.versionMsbBaseAddress) :
    CountsAndOpens imageSet fuses ↔ Walkable imageSet fuses := by
  rw [countsAndOpens_iff_rows nonNull above, walked_eq above, Walkable]
  split
  case isTrue passed =>
    rw [← version_eq above, ← isOpen_iff above]
    constructor
    · rintro ⟨counts, -, raises⟩
      have small : imageSet.version fuses < 2 ^ 32 := by
        rw [← counts]
        exact Nat.mod_lt _ (Nat.two_pow_pos 32)
      refine ⟨small, fun isOpen => ?_⟩
      rw [counts] at raises
      rw [← raises isOpen]
      exact Nat.mod_lt _ (Nat.two_pow_pos 32)
    · rintro ⟨small, more⟩
      rw [Nat.mod_eq_of_lt small]
      exact ⟨rfl, Iff.rfl, fun isOpen => Nat.mod_eq_of_lt (more isOpen)⟩
  case isFalse near =>
    have ends := @blown_ends_le _ fuses above
    have between : imageSet.version fuses = imageSet.blown fuses (imageSet.rowsWith ∅) +
        ∑ row ∈ imageSet.inner, count (fuses row &&& 0xFF).toBitVec := by
      rw [blown_rowsWith above (Finset.empty_subset _), Finset.sum_empty,
        BootVersionRollbackImgSet.version, BootVersionRollbackImgSet.inner]
      omega
    have openEnds : OpenAmong imageSet fuses (imageSet.rowsWith ∅) ↔
        (∃ i, OpenBit (fuses imageSet.versionLsbBaseAddress) imageSet.versionLsbMask i) ∨
          ∃ i, OpenBit (fuses imageSet.versionMsbBaseAddress) imageSet.versionMsbMask i := by
      rw [OpenAmong, exists_open_rowsWith above (Finset.empty_subset _)]
      simp
    have none : (∑ row ∈ imageSet.inner, count (fuses row &&& 0xFF).toBitVec = 0) ↔
        ∀ row ∈ imageSet.inner, fuses row &&& 0xFF = 0 := by
      rw [Finset.sum_eq_zero_iff]
      refine forall₂_congr fun row _ => ?_
      rw [BitCount.count_eq_zero]
      exact UInt32.toBitVec_inj (b := 0)
    have first : imageSet.versionLsbBaseAddress + 1 ∈ imageSet.inner := by
      rw [Finset.mem_Ioo]
      omega
    rw [Nat.mod_eq_of_lt (by omega), Nat.mod_eq_of_lt (by omega), between, ← openEnds, ← none]
    constructor
    · rintro ⟨counts, finds, -⟩
      have zero : ∑ row ∈ imageSet.inner, count (fuses row &&& 0xFF).toBitVec = 0 := by omega
      exact ⟨zero, finds.mpr (.inr (.inl ⟨_, first, 0, open_of_zero (none.mp zero _ first)⟩))⟩
    · rintro ⟨zero, isOpen⟩
      refine ⟨by omega, iff_of_true isOpen ?_, fun _ => rfl⟩
      rcases openEnds.mp isOpen with lsb | msb
      · exact .inl lsb
      · exact .inr (.inr msb)

end Rows

section Examples

/-- The rows from 1 on to another row. -/
def apartSet (msb : Nat) : BootVersionRollbackImgSet := ⟨fun _ => 0, 1, 0xFF, msb, 0xFF⟩

/-- Adjacent rows, as configured; rows at a distance of six, which are all passed; and rows at a
distance of three with nothing blown between them. -/
theorem countsAndOpens_distances :
    (CountsAndOpens (apartSet 2) (fun row => if row = 1 then 0xFF else 0x7) ∧
      (apartSet 2).version (fun row => if row = 1 then 0xFF else 0x7) = 11) ∧
      (CountsAndOpens (apartSet 7) (fun row => if row < 4 then 0xFF else 0x1) ∧
        (apartSet 7).version (fun row => if row < 4 then 0xFF else 0x1) = 28) ∧
      CountsAndOpens (apartSet 4) (fun row => if row = 1 then 0xFF else 0) := by
  have adjacent : (apartSet 2).version (fun row => if row = 1 then 0xFF else 0x7) = 11 := by
    decide +kernel
  have passed : (apartSet 7).version (fun row => if row < 4 then 0xFF else 0x1) = 28 := by
    decide +kernel
  refine ⟨⟨(countsAndOpens_iff rfl (by decide)).mpr ?_, adjacent⟩,
    ⟨(countsAndOpens_iff rfl (by decide)).mpr ?_, passed⟩,
    (countsAndOpens_iff rfl (by decide)).mpr ?_⟩
  · rw [Walkable, if_pos (.inl rfl), adjacent]
    exact ⟨by decide, fun _ => by decide⟩
  · rw [Walkable, if_pos (.inr (by decide)), passed]
    exact ⟨by decide, fun _ => by decide⟩
  · rw [Walkable, if_neg (by decide)]
    exact ⟨by decide, .inr ⟨0, by decide, by decide, by decide⟩⟩

/-- A row between the ends, with a blown fuse, is not counted. -/
theorem counts_not_between :
    ¬ ∀ (imageSet : BootVersionRollbackImgSet) (fuses : Nat → UInt32), imageSet.hasNull = false →
      imageSet.versionLsbBaseAddress < imageSet.versionMsbBaseAddress →
        CountsAndOpens imageSet fuses := by
  intro all
  obtain ⟨result, calculated, counts⟩ :=
    (all (apartSet 3) (fun row => if row = 2 then 1 else 0) rfl (by decide)).counts
  cases calculated
  exact absurd counts (by decide +kernel)

end Examples

end QHal.Boot
