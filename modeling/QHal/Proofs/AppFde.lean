/-
Module: QHal.Proofs.AppFde
Purpose: The application FDE in the descriptor table.  In a table with one
  application FDE, that is the one a boot finds, and the updates at the end of a
  boot change no other application FDE.
Trusted boundary: none
Main exports: IsApp, HasApp, SblListed, HasApp.appFde_eq, HasApp.updateAppFde
-/
import QHal.Boot.LoaderStart

namespace QHal.Boot

/-- An application FDE that `boot_sbl_find_appimg` finds. -/
structure IsApp (fde : FdtEntry) : Prop where
  id : fde.id = otaImgIdApp
  format : fde.format = otaImgFormatElf
  rank : fde.rank = otaImgRankTrial ∨ fde.rank = otaImgRankCurrent ∨
    fde.rank = otaImgRankGolden ∨ fde.rank = otaImgRankAged

/-- The table has one application FDE, at the given index. -/
structure HasApp (fdt : Fdt) (idx : Nat) (fde : FdtEntry) : Prop where
  here : fdt[idx]? = some fde
  app : IsApp fde
  only : ∀ i other, fdt[i]? = some other → other.id = otaImgIdApp → i = idx

namespace HasApp

variable {fdt : Fdt} {idx : Nat} {fde : FdtEntry}

/-- The search for a rank finds the application FDE or nothing. -/
theorem getIdx (has : HasApp fdt idx fde) (rank : UInt32) :
    fdeGetIdxByIdRank fdt otaImgIdApp rank = if fde.rank = rank then some idx else none := by
  cases found : fdeGetIdxByIdRank fdt otaImgIdApp rank with
  | some i =>
      obtain ⟨below, matched, -⟩ := List.findIdx?_eq_some_iff_getElem.mp found
      simp only [Bool.and_eq_true, beq_iff_eq] at matched
      have here : fdt[i]? = some fdt[i] := List.getElem?_eq_getElem below
      have same := has.only i fdt[i] here matched.1
      subst same
      have entry : fde = fdt[i] := Option.some.inj (has.here.symm.trans here)
      rw [entry, if_pos matched.2]
  | none =>
      rw [fdeGetIdxByIdRank, List.findIdx?_eq_none_iff] at found
      have missed := found fde (List.mem_of_getElem? has.here)
      rw [if_neg]
      intro ranked
      simp [has.app.id, ranked] at missed

theorem find (has : HasApp fdt idx fde) : bootSblFindAppimg fdt = some idx := by
  unfold bootSblFindAppimg
  rw [has.getIdx, has.getIdx, has.getIdx, has.getIdx]
  rcases has.app.rank with rank | rank | rank | rank
  · rw [rank]
    rfl
  · rw [rank]
    rfl
  · rw [rank]
    rfl
  · rw [rank]
    rfl

theorem appFde_eq (has : HasApp fdt idx fde) : appFde fdt = fde := by
  simp [appFde, has.find, fdeGetByIdx, has.here]

/-- The application FDE is replaced by another one. -/
theorem set (has : HasApp fdt idx fde) {new : FdtEntry} (app : IsApp new) :
    HasApp (fdt.set idx new) idx new where
  here := by
    have below : idx < fdt.length := (List.getElem?_eq_some_iff.mp has.here).1
    simp [below]
  app := app
  only i other here isApp := by
    rw [List.getElem?_set] at here
    split_ifs at here with same below
    · exact same.symm
    · exact has.only i other here isApp

/-- An entry of another kind is replaced by one of another kind. -/
theorem set_other (has : HasApp fdt idx fde) {i : Nat} {old new : FdtEntry}
    (there : fdt[i]? = some old) (oldKind : old.id ≠ otaImgIdApp)
    (newKind : new.id ≠ otaImgIdApp) : HasApp (fdt.set i new) idx fde where
  here := by
    have apart : i ≠ idx := by
      intro same
      rw [same, has.here] at there
      cases there
      exact oldKind has.app.id
    rw [List.getElem?_set_ne apart]
    exact has.here
  app := has.app
  only j other here isApp := by
    rw [List.getElem?_set] at here
    split_ifs at here with same below
    · cases here
      exact absurd isApp newKind
    · exact has.only j other here isApp

end HasApp

/-- The PBL reports an entry of the table that is no application. -/
structure SblListed (fdt : Fdt) (sblFde : SblFde) : Prop where
  there : fdt[sblFde.idx]? = some sblFde.content
  kind : sblFde.content.id ≠ otaImgIdApp

theorem HasApp.updateSblFde {fdt : Fdt} {idx : Nat} {fde : FdtEntry} {sblFde : SblFde}
    (has : HasApp fdt idx fde) (listed : SblListed fdt sblFde) (writeStatus : BlError) :
    HasApp (updateSblFde writeStatus fdt sblFde) idx fde := by
  unfold Boot.updateSblFde fdeUpdate
  split_ifs
  · exact has
  · exact has
  · exact has.set_other listed.there listed.kind listed.kind
  · exact has

/-- The application FDE after the last update: the one of the loop if it was written,
else the one from before. -/
theorem HasApp.updateAppFde {fdt : Fdt} {idx : Nat} {fde : FdtEntry}
    (has : HasApp fdt idx fde) {state : LoopState} (app : IsApp state.fde)
    (writeStatus : BlError) :
    HasApp (updateAppFde writeStatus fdt (some idx) state) idx
      (if state.tempfde ≠ state.fde ∧ writeStatus = 0 then state.fde else fde) := by
  have below : ¬ idx ≥ fdt.length :=
    Nat.not_le.mpr (List.getElem?_eq_some_iff.mp has.here).1
  unfold Boot.updateAppFde fdeUpdate
  simp only [below, if_false]
  by_cases changed : state.tempfde ≠ state.fde
  · by_cases written : writeStatus = 0
    · rw [if_pos changed, if_neg (not_not.mpr written), if_pos ⟨changed, written⟩]
      exact has.set app
    · rw [if_pos changed, if_pos written, if_neg fun both => written both.2]
      exact has
  · rw [if_neg changed, if_neg fun both => changed both.1]
    exact has

end QHal.Boot
