/-
Module: QHal.Proofs.SblShare
Purpose: The loader stays in the descriptor table and in the structure that it shares with the
  application exactly if the table has at most 10 entries by its header.
Trusted boundary: none
Main exports: Below, shareLoop_fdtPart, mem_shareLoop, loaderStart_inside_iff,
  bootSblFindAppimg_eq
-/
import Mathlib.Tactic.Common
import QHal.Boot.SblShare

namespace QHal.SblShare

open Boot (FdtEntry blErrNone zeroFde)

variable {fdt : FdtS}

/-- Every access is to one of the first entries or elements. -/
def Below (count : Nat) (log : List Access) : Prop :=
  ∀ access ∈ log, ∃ index < count, access = .readFde index ∨ access = .writePart index

theorem Below.nil (count : Nat) : Below count [] := nofun

theorem Below.append {count : Nat} {first second : List Access} (front : Below count first)
    (back : Below count second) : Below count (first ++ second) := by
  intro access member
  rcases List.mem_append.mp member with early | late
  · exact front access early
  · exact back access late

/-! ## The searches -/

theorem idRankLoop_below (id rank : UInt32) (left i : Nat) :
    Below (i + left) (idRankLoop fdt id rank left i).2 := by
  induction left generalizing i with
  | zero => exact Below.nil i
  | succ left ih =>
      have here : Below (i + (left + 1)) [.readFde i] := by
        intro access member
        exact ⟨i, by omega, Or.inl (List.mem_singleton.mp member)⟩
      rw [idRankLoop]
      split
      · exact here
      · have rest := ih (i + 1)
        rw [show i + 1 + left = i + (left + 1) by omega] at rest
        exact here.append rest

theorem findByRanks_below (id : UInt32) (ranks : List UInt32) :
    Below fdt.numFde.toNat (findByRanks fdt id ranks).2 := by
  induction ranks with
  | nil => exact Below.nil _
  | cons rank ranks ih =>
      have first := @idRankLoop_below fdt id rank fdt.numFde.toNat 0
      rw [Nat.zero_add] at first
      rw [findByRanks]
      dsimp only
      split
      · exact Below.append first ih
      · exact first

theorem fdeGetByIdx_below (fdt : FdtS) (idx : Nat) :
    Below fdt.numFde.toNat (fdeGetByIdx fdt idx).2 := by
  unfold fdeGetByIdx
  split
  · exact Below.nil _
  · split
    · exact Below.nil _
    · next inside =>
        intro access member
        exact ⟨idx, Nat.lt_of_not_le inside, Or.inl (List.mem_singleton.mp member)⟩

theorem getBdfAddr_below (fdt : FdtS) : Below fdt.numFde.toNat (getBdfAddr fdt).2 := by
  have found := @findByRanks_below fdt otaImgIdBdf [Boot.otaImgRankCurrent]
  unfold getBdfAddr
  dsimp only
  split
  · exact found.append (fdeGetByIdx_below fdt _)
  · exact found

/-! ## The shared structure -/

/-- What the loop has touched. -/
theorem mem_shareLoop (left i : Nat) (fdtPart : Nat → IdAddr) (access : Access) :
    access ∈ (shareLoop fdt left i fdtPart).2 ↔
      ∃ index, i ≤ index ∧ index < i + left ∧
        (access = .readFde index ∨ access = .writePart index) := by
  induction left generalizing i fdtPart with
  | zero =>
      constructor
      · exact nofun
      · rintro ⟨index, low, high, -⟩
        omega
  | succ left ih =>
      rw [shareLoop]
      simp only [List.mem_cons, ih]
      constructor
      · rintro (read | write | ⟨index, low, high, touched⟩)
        · exact ⟨i, Nat.le_refl i, by omega, Or.inl read⟩
        · exact ⟨i, Nat.le_refl i, by omega, Or.inr write⟩
        · exact ⟨index, by omega, by omega, touched⟩
      · rintro ⟨index, low, high, touched⟩
        by_cases here : index = i
        · subst here
          rcases touched with read | write
          · exact Or.inl read
          · exact Or.inr (Or.inl write)
        · exact Or.inr (Or.inr ⟨index, by omega, by omega, touched⟩)

/-- The elements behind the loop. -/
theorem shareLoop_fdtPart (left i : Nat) (fdtPart : Nat → IdAddr) (index : Nat) :
    (shareLoop fdt left i fdtPart).1 index =
      if i ≤ index ∧ index < i + left then ⟨(fdt.fde index).id, (fdt.fde index).addr⟩
      else fdtPart index := by
  induction left generalizing i fdtPart with
  | zero => rw [shareLoop, if_neg (by omega)]
  | succ left ih =>
      rw [shareLoop]
      dsimp only
      rw [ih]
      by_cases here : index = i
      · subst here
        rw [if_neg (by omega), if_pos (by omega), Function.update_self]
      · rw [Function.update_of_ne here]
        exact if_congr (by omega) rfl rfl

/-! ## The way to the application -/

/-- All accesses are below the count of the header. -/
theorem loaderStart_below (fdt : FdtS) (updated : Nat → FdtEntry) (imgType : UInt8)
    (share : BootSblShare) :
    Below fdt.numFde.toNat (loaderStart fdt updated imgType share).2 := by
  have found : Below fdt.numFde.toNat (bootSblFindAppimg fdt).2 := findByRanks_below _ _
  have read : Below fdt.numFde.toNat
      (if (bootSblFindAppimg fdt).1 ≠ fdeInvalIdx then fdeGetByIdx fdt (bootSblFindAppimg fdt).1
        else (zeroFde, [])).2 := by
    split
    · exact fdeGetByIdx_below fdt _
    · exact Below.nil _
  have bdf := getBdfAddr_below { fdt with fde := updated }
  have shared : Below fdt.numFde.toNat
      (shareLoop { fdt with fde := updated } fdt.numFde.toNat 0 share.fdtPart).2 := by
    intro access member
    obtain ⟨index, -, high, touched⟩ := (mem_shareLoop _ _ _ _).mp member
    exact ⟨index, by omega, touched⟩
  exact ((found.append read).append bdf).append shared

/-- The loader reads entries of the table and writes elements of the shared structure only,
whatever the entries are and whether the table is valid, exactly if the header counts at most
as many entries as the shared structure has room for. -/
theorem loaderStart_inside_iff (fdt : FdtS) (updated : Nat → FdtEntry) (imgType : UInt8)
    (share : BootSblShare) :
    (∀ access ∈ (loaderStart fdt updated imgType share).2, access.Inside) ↔
      fdt.numFde.toNat ≤ partSize := by
  have room : partSize = 10 ∧ fdtMaxEntry = 31 := ⟨rfl, rfl⟩
  constructor
  · intro inside
    by_contra many
    -- The element right behind the structure is written.
    have written : Access.writePart partSize ∈
        (shareLoop { fdt with fde := updated } fdt.numFde.toNat 0 share.fdtPart).2 :=
      (mem_shareLoop _ _ _ _).mpr ⟨partSize, Nat.zero_le _, by omega, Or.inr rfl⟩
    exact Nat.lt_irrefl _ (inside _ (List.mem_append_right _ written))
  · intro few access member
    obtain ⟨index, below, rfl | rfl⟩ := loaderStart_below fdt updated imgType share access member
    · show index < fdtMaxEntry
      omega
    · show index < partSize
      omega

/-- A table of eleven equal entries. -/
def elevenEntries : FdtS where
  signature := fdtSignature
  numFde := 11
  fde := fun _ => { zeroFde with id := 5, addr := 0x36A000 }

/-- A table that is valid, and overwrites the word behind the shared structure. -/
theorem loaderStart_overwrites :
    fdtVerify elevenEntries = blErrNone ∧
      ∀ imgType share,
        ¬ (∀ access ∈ (loaderStart elevenEntries elevenEntries.fde imgType share).2,
            access.Inside) ∧
          (loaderStart elevenEntries elevenEntries.fde imgType share).1.fdtPart 10 =
            ⟨5, 0x36A000⟩ := by
  refine ⟨by decide, fun imgType share => ⟨fun inside => ?_, ?_⟩⟩
  · have written : Access.writePart partSize ∈
        (shareLoop elevenEntries 11 0 share.fdtPart).2 :=
      (mem_shareLoop _ _ _ _).mpr ⟨partSize, Nat.zero_le _, by decide, Or.inr rfl⟩
    exact Nat.lt_irrefl _ (inside _ (List.mem_append_right _ written))
  · exact (shareLoop_fdtPart 11 0 share.fdtPart 10).trans (if_pos (by decide))

/-! ## The table as a list -/

/-- The entries that the header counts. -/
def FdtS.entries (fdt : FdtS) : Boot.Fdt := (List.range fdt.numFde.toNat).map fdt.fde

theorem idRankLoop_eq (id rank : UInt32) (left i : Nat) :
    (idRankLoop fdt id rank left i).1 =
      ((Boot.fdeGetIdxByIdRank ((List.range' i left).map fdt.fde) id rank).map (· + i)).getD
        fdeInvalIdx := by
  unfold Boot.fdeGetIdxByIdRank
  induction left generalizing i with
  | zero => rfl
  | succ left ih =>
      rw [idRankLoop, List.range'_succ, List.map_cons, List.findIdx?_cons]
      by_cases found : (fdt.fde i).id = id ∧ (fdt.fde i).rank = rank
      · rw [if_pos found, if_pos (by simp [found])]
        exact (Nat.zero_add i).symm
      · rw [if_neg found, if_neg (by simpa using found)]
        dsimp only
        rw [ih, Option.map_map]
        congr 2
        funext index
        exact Nat.add_right_comm index i 1

theorem fdeGetIdxByIdRank_eq (fdt : FdtS) (id rank : UInt32) :
    (fdeGetIdxByIdRank fdt id rank).1 =
      (Boot.fdeGetIdxByIdRank fdt.entries id rank).getD fdeInvalIdx := by
  rw [fdeGetIdxByIdRank, idRankLoop_eq, ← List.range_eq_range']
  exact congrArg (Option.getD · fdeInvalIdx) Option.map_id'

/-- A further rank is searched for if there is none of the first. -/
theorem findByRanks_eq (fits : fdt.numFde.toNat ≤ fdeInvalIdx) (id rank : UInt32)
    (ranks : List UInt32) {rest : Option Nat}
    (others : (findByRanks fdt id ranks).1 = rest.getD fdeInvalIdx) :
    (findByRanks fdt id (rank :: ranks)).1 =
      (Boot.fdeGetIdxByIdRank fdt.entries id rank <|> rest).getD fdeInvalIdx := by
  have first := fdeGetIdxByIdRank_eq fdt id rank
  rw [findByRanks]
  dsimp only
  cases search : Boot.fdeGetIdxByIdRank fdt.entries id rank with
  | none =>
      rw [search] at first
      rw [if_pos (show (fdeGetIdxByIdRank fdt id rank).1 = fdeInvalIdx from first)]
      exact others
  | some idx =>
      rw [search] at first
      have inside := (List.findIdx?_eq_some_iff_getElem.mp search).1
      rw [FdtS.entries, List.length_map, List.length_range] at inside
      have valid : idx ≠ fdeInvalIdx := by omega
      rw [if_neg (by rw [first]; exact valid)]
      exact first

/-- With a table of that size, the search is the one over the list of its entries. -/
theorem bootSblFindAppimg_eq (fits : fdt.numFde.toNat ≤ fdeInvalIdx) :
    (bootSblFindAppimg fdt).1 = (Boot.bootSblFindAppimg fdt.entries).getD fdeInvalIdx := by
  refine findByRanks_eq fits _ _ _ (findByRanks_eq fits _ _ _ (findByRanks_eq fits _ _ _ ?_))
  have last := @findByRanks_eq fdt fits Boot.otaImgIdApp Boot.otaImgRankAged [] none rfl
  simpa using last

end QHal.SblShare
