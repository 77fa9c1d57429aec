/-
Module: QHal.Proofs.FuseVersion
Purpose: The anti-rollback fuses over sequences of fuse updates: the version they
  stand for never decreases, and from blank fuses on no bit is cleared.  A call
  that reports success has raised the version only if the fuse write succeeded,
  since its status is dropped.
Trusted boundary: none
Main exports: fuseVersion, FuseCall, FuseCall.Sound, fuseCall_runs_sound_iff,
  fuseCall_reports_failed_write
-/
import QHal.Boot.SblAuth

namespace QHal.Boot

/-- The version the fuses stand for. -/
abbrev fuseVersion (fuses : Fuses) : UInt32 := bootRollbackCalculateFuseVersion fuses

section Masks

/-- The masks of a version have that many bits. -/
theorem fuseVersion_fuseMasks {version : UInt32} (small : ¬ version > 64) :
    fuseVersion (fuseMasks version) = version := by
  have all : ∀ v : Fin 65,
      fuseVersion (fuseMasks (UInt32.ofNat v.val)) = UInt32.ofNat v.val := by
    decide +kernel
  have below : version.toNat < 65 :=
    Nat.lt_succ_of_le (UInt32.le_iff_toNat_le.mp (UInt32.not_lt.mp small))
  have exact := all ⟨version.toNat, below⟩
  rwa [UInt32.ofNat_toNat] at exact

/-- No bit of the fuses is cleared. -/
structure BitsKept (before after : Fuses) : Prop where
  lsb : ∀ i, before.lsb.toNat.testBit i = true → after.lsb.toNat.testBit i = true
  msb : ∀ i, before.msb.toNat.testBit i = true → after.msb.toNat.testBit i = true

theorem BitsKept.refl (fuses : Fuses) : BitsKept fuses fuses where
  lsb := fun _ set => set
  msb := fun _ set => set

theorem testBit_or_left {word : UInt32} (bit : UInt32) {i : Nat}
    (set : word.toNat.testBit i = true) : (word ||| bit).toNat.testBit i = true := by
  rw [UInt32.toNat_or, Nat.testBit_or, set, Bool.true_or]

/-- The masks grow with the version: each round of the loop sets one more bit. -/
theorem BitsKept.fuseMasks {smaller larger : UInt32} (le : smaller ≤ larger) :
    BitsKept (Boot.fuseMasks smaller) (Boot.fuseMasks larger) := by
  obtain ⟨more, sum⟩ := Nat.exists_eq_add_of_le (UInt32.le_iff_toNat_le.mp le)
  unfold Boot.fuseMasks
  rw [sum, List.range_add, List.foldl_append]
  generalize (List.map (fun x => smaller.toNat + x) (List.range more)) = rounds
  generalize (List.range smaller.toNat).foldl _ _ = masks
  induction rounds generalizing masks with
  | nil => exact BitsKept.refl masks
  | cons i rounds ih =>
      have rest := ih (if i < 32 then { masks with lsb := masks.lsb ||| (1 <<< UInt32.ofNat i) }
        else { masks with msb := masks.msb ||| (1 <<< UInt32.ofNat (i - 32)) })
      constructor
      · intro j set
        apply rest.lsb
        split_ifs
        · exact testBit_or_left _ set
        · exact set
      · intro j set
        apply rest.msb
        split_ifs
        · exact set
        · exact testBit_or_left _ set

end Masks

section Update

/-- Whether the fuse line is written. -/
def fuseWritten (storage : Storage) : Prop :=
  storage.rramWriteStatus antiRollbackOtpOffset rramWriteAdrByteAlign = 0

instance (storage : Storage) : Decidable (fuseWritten storage) :=
  inferInstanceAs (Decidable (storage.rramWriteStatus _ _ = 0))

/-- A fuse update for an application reports success in any case, and sets the
fuses to a version that is new and not too large if the write succeeds. -/
theorem bootRollbackUpdateFuseVersion_enabled (storage : Storage) {authState : AuthState}
    (enabled : authState.authEnabled = true) (fuses : Fuses) :
    bootRollbackUpdateFuseVersion storage secImgAuthAppImg authState fuses =
      (some blErrNone,
        if fuseVersion fuses < authState.version ∧ ¬ authState.version > 64 ∧
            fuseWritten storage then fuseMasks authState.version
        else fuses) := by
  have known : ¬ ¬ secSwImgList.contains secImgAuthAppImg := by decide
  unfold bootRollbackUpdateFuseVersion
  rw [if_neg known, if_neg (not_not.mpr enabled)]
  by_cases reached : authState.version ≤ fuseVersion fuses
  · rw [if_pos reached, if_neg fun new => UInt32.not_lt.mpr reached new.1]
  · rw [if_neg reached]
    by_cases large : authState.version > 64
    · rw [if_pos large, if_neg fun new => new.2.1 large]
    · rw [if_neg large]
      unfold bootRollbackFuseVersionSave
      simp only
      by_cases written : storage.rramWriteStatus antiRollbackOtpOffset rramWriteAdrByteAlign = 0
      · rw [if_pos written, if_pos ⟨UInt32.not_le.mp reached, large, written⟩]
      · rw [if_neg written, if_neg fun new => written new.2.2]

end Update

section Runs

/-- A call of `boot_rollback_update_fuse_version` on the APP image with
authentication enabled, and the hardware it meets. -/
structure FuseCall where
  storage : Storage
  authState : AuthState
  enabled : authState.authEnabled = true

/-- The version of the image. -/
def FuseCall.version (call : FuseCall) : UInt32 := call.authState.version

def FuseCall.run (fuses : Fuses) (call : FuseCall) : Option BlError × Fuses :=
  bootRollbackUpdateFuseVersion call.storage secImgAuthAppImg call.authState fuses

/-- The fuses after some calls. -/
def fusesAfter (fuses : Fuses) (calls : List FuseCall) : Fuses :=
  calls.foldl (fun fuses call => (call.run fuses).2) fuses

/-- What a call is meant to do: the version does not decrease, and a version of at
most 64 is reached if success is reported. -/
structure FuseCall.Sound (fuses : Fuses) (call : FuseCall) : Prop where
  raises : fuseVersion fuses ≤ fuseVersion (call.run fuses).2
  reaches : call.version ≤ 64 → (call.run fuses).1 = some blErrNone →
    call.version ≤ fuseVersion (call.run fuses).2

/-- What a call does: it changes nothing, or the fuses become the masks of a
version above the old one. -/
theorem FuseCall.run_cases (fuses : Fuses) (call : FuseCall) :
    (call.run fuses).2 = fuses ∨
      fuseVersion fuses < call.version ∧ ¬ call.version > 64 ∧ fuseWritten call.storage ∧
        (call.run fuses).2 = fuseMasks call.version := by
  unfold FuseCall.run
  rw [bootRollbackUpdateFuseVersion_enabled call.storage call.enabled fuses]
  by_cases new : fuseVersion fuses < call.authState.version ∧ ¬ call.authState.version > 64 ∧
      fuseWritten call.storage
  · exact Or.inr ⟨new.1, new.2.1, new.2.2, if_pos new⟩
  · exact Or.inl (if_neg new)

/-- The fuses hold the masks of a version. -/
def Stacked (fuses : Fuses) : Prop := ∃ version, ¬ version > 64 ∧ fuses = fuseMasks version

theorem stacked_blank : Stacked ⟨0, 0⟩ := ⟨0, by decide, rfl⟩

theorem Stacked.run {fuses : Fuses} (stacked : Stacked fuses) (call : FuseCall) :
    Stacked (call.run fuses).2 := by
  rcases call.run_cases fuses with unchanged | ⟨_, small, _, raised⟩
  · rw [unchanged]
    exact stacked
  · exact ⟨call.version, small, raised⟩

theorem Stacked.after {fuses : Fuses} (stacked : Stacked fuses) (calls : List FuseCall) :
    Stacked (fusesAfter fuses calls) := by
  induction calls generalizing fuses with
  | nil => exact stacked
  | cons call calls ih => exact ih (stacked.run call)

theorem FuseCall.run_raises (fuses : Fuses) (call : FuseCall) :
    fuseVersion fuses ≤ fuseVersion (call.run fuses).2 := by
  rcases call.run_cases fuses with unchanged | ⟨new, small, _, raised⟩
  · rw [unchanged]
    exact UInt32.le_refl _
  · rw [raised, fuseVersion_fuseMasks small]
    exact UInt32.le_of_lt new

theorem Stacked.keeps {fuses : Fuses} (stacked : Stacked fuses) (call : FuseCall) :
    BitsKept fuses (call.run fuses).2 := by
  rcases call.run_cases fuses with unchanged | ⟨new, _, _, raised⟩
  · rw [unchanged]
    exact BitsKept.refl fuses
  · obtain ⟨version, small, rfl⟩ := stacked
    rw [fuseVersion_fuseMasks small] at new
    rw [raised]
    exact BitsKept.fuseMasks (UInt32.le_of_lt new)

/-- A call reaches its version if and only if it is there already, or the fuse
write succeeds. -/
theorem FuseCall.reaches_iff (fuses : Fuses) {call : FuseCall} (small : call.version ≤ 64) :
    call.version ≤ fuseVersion (call.run fuses).2 ↔
      (fuseVersion fuses < call.version → fuseWritten call.storage) := by
  have notLarge : ¬ call.version > 64 := UInt32.not_lt.mpr small
  constructor
  · intro reached new
    rcases call.run_cases fuses with unchanged | ⟨_, _, written, _⟩
    · rw [unchanged] at reached
      exact absurd new (UInt32.not_lt.mpr reached)
    · exact written
  · intro written
    by_cases new : fuseVersion fuses < call.version
    · unfold FuseCall.run
      rw [bootRollbackUpdateFuseVersion_enabled call.storage call.enabled fuses]
      simp only
      rw [if_pos ⟨new, notLarge, written new⟩]
      exact UInt32.le_of_eq (fuseVersion_fuseMasks notLarge).symm
    · exact UInt32.le_trans (UInt32.not_lt.mp new) (call.run_raises fuses)

/-- In a run of fuse updates from any fuses on, every call does what it is meant
to do, and from blank fuses on clears no bit, if and only if no write of a version
of at most 64 that is due fails. -/
theorem fuseCall_runs_sound_iff (fuses : Fuses) (calls : List FuseCall) :
    (∀ earlier call later, calls = earlier ++ call :: later →
      call.Sound (fusesAfter fuses earlier) ∧
        (fuses = ⟨0, 0⟩ → BitsKept (fusesAfter fuses earlier)
          (fusesAfter fuses (earlier ++ [call])))) ↔
      (∀ earlier call later, calls = earlier ++ call :: later →
        call.version ≤ 64 → fuseVersion (fusesAfter fuses earlier) < call.version →
          fuseWritten call.storage) := by
  have returns : ∀ fuses (call : FuseCall), (call.run fuses).1 = some blErrNone := by
    intro fuses call
    unfold FuseCall.run
    rw [bootRollbackUpdateFuseVersion_enabled call.storage call.enabled fuses]
  constructor
  · intro sound earlier call later split small
    exact (call.reaches_iff _ small).mp
      ((sound earlier call later split).1.reaches small (returns _ call))
  · intro written earlier call later split
    constructor
    · constructor
      · exact call.run_raises _
      · intro small _
        exact (call.reaches_iff _ small).mpr (written earlier call later split small)
    · rintro rfl
      have last : fusesAfter ⟨0, 0⟩ (earlier ++ [call]) =
          (call.run (fusesAfter ⟨0, 0⟩ earlier)).2 := List.foldl_append ..
      rw [last]
      exact (stacked_blank.after earlier).keeps call

/-- On blank fuses an image of version 5 reports success while the fuse write
fails. -/
theorem fuseCall_reports_failed_write :
    ∃ call : FuseCall, call.version = 5 ∧ (call.run ⟨0, 0⟩).1 = some blErrNone ∧
      fuseVersion (call.run ⟨0, 0⟩).2 = 0 ∧ ¬ call.Sound ⟨0, 0⟩ := by
  let storage : Storage :=
    ⟨fun _ => 0, fun _ _ => 0, fun _ _ => 0, fun _ => 0, fun _ _ => 21,
      fun _ _ => 0, fun _ _ => 0⟩
  let call : FuseCall := ⟨storage, ⟨true, false, true, 0x500000001⟩, rfl⟩
  have version : call.version = 5 := by decide
  have returns : (call.run ⟨0, 0⟩).1 = some blErrNone := by decide
  have unchanged : fuseVersion (call.run ⟨0, 0⟩).2 = 0 := by decide
  refine ⟨call, version, returns, unchanged, ?_⟩
  intro sound
  have reached := sound.reaches (by decide) returns
  rw [version, unchanged] at reached
  revert reached
  decide

end Runs

end QHal.Boot
