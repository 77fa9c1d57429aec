/-
Module: QHal.Proofs.RramResidency
Purpose: When the RRAM segments may be skipped.  The application FDE is written
  only when an application is entered, while a full load overwrites RRAM long
  before; so the FDE tells what is in RRAM only as long as every boot that begins
  a full load of another image also finishes it.
Trusted boundary: none
Main exports: NamedResident, Tracked, SafeBoot, ram_only_load_is_full_load,
  stale_fde_after_failed_full_load
-/
import QHal.Proofs.AppFde
import QHal.Proofs.SelectImage
import Mathlib.Logic.Relation

namespace QHal.Boot

open Loop (Heads)

section Boot

variable {content : FlashContent} {named : UInt32}

/-- If the address names a FWD sector with an image, its RRAM segments are in memory. -/
def NamedResident (content : FlashContent) (addr : UInt32) (memory : Mem UInt8) : Prop :=
  ∀ elfAddr, sectorImage content addr = some elfAddr → (content.rram elfAddr).Present memory

/-- The loop after a selection.  The load address is that of the image the FDE names,
no valid descriptor behind `valid_fwd` has the same sector, and the load type is
RAM only if that image is in RRAM from before. -/
structure Tracked (content : FlashContent) (named : UInt32) (state : ResidentState) : Prop where
  table : TableOf content state.loop.info
  image : sectorImage content state.loop.fde.addr = some state.loop.appLoadAddr
  slot : ∃ sector : UInt8, state.loop.fde.addr = sector.toUInt32 ∧
    (sectorSlot content sector).val ≤ state.loop.info.validFwd.toNat
  type : state.loop.type = .ram ∧ state.foreign = false ∧ state.loop.fde.addr = named ∨
    state.loop.type = .full ∧ state.loop.tempfde.addr ≠ state.loop.fde.addr
  app : IsApp state.loop.fde
  resident : state.foreign = false → NamedResident content named state.memory

theorem sectorImage_sector {sector : UInt8} (inTable : sector < 3) :
    sectorImage content sector.toUInt32 =
      (appEntry (sectorFwd content.blocks sector)).map fun entry =>
        entry.startBlock * blockSizeInBytes + appImageFlashAddress := by
  have below : sector.toUInt32 < 3 := by
    have small := UInt8.lt_iff_toNat_lt.mp inTable
    rw [UInt32.lt_iff_toNat_lt, UInt8.toNat_toUInt32]
    exact small
  rw [sectorImage, if_pos below, UInt8.toUInt8_toUInt32]

theorem slotRank_known (slot : Fin 3) :
    slotRank slot = otaImgRankTrial ∨ slotRank slot = otaImgRankCurrent ∨
      slotRank slot = otaImgRankGolden ∨ slotRank slot = otaImgRankAged := by
  revert slot
  decide

/-- Taking over a descriptor whose sector the FDE does not name yet, or for the first
time, puts the loop on track. -/
theorem tracked_takeFwd {state : LoopState} {info : SblInfo} {slot : Fin 3}
    {memory before : Mem UInt8} {foreign : Bool} (table : TableOf content info)
    (valid : fwdTableIsValid info slot = true)
    (hasApp : (appEntry (info.flashFwdTable slot)).isSome)
    (number : info.validFwd = UInt8.ofNat slot.val) (app : IsApp state.fde)
    (resident : foreign = false → NamedResident content named memory)
    (fresh : state.fde.addr = (info.bootFwd slot).toUInt32 →
      foreign = false ∧ state.fde.addr = named) :
    Tracked content named ⟨takeFwd state info (UInt8.ofNat slot.val), memory, before, foreign⟩ := by
  obtain ⟨entry, isEntry⟩ := Option.isSome_iff_exists.mp hasApp
  obtain ⟨inTable, atSlot, entries⟩ := table slot valid
  obtain ⟨reserve, taken⟩ := takeFwd_slot state valid isEntry
  rw [taken]
  constructor
  · exact table.narrow (narrows_of_table rfl rfl)
  · exact (sectorImage_sector inTable).trans (by rw [← entries, isEntry]; rfl)
  · refine ⟨info.bootFwd slot, rfl, ?_⟩
    simp only [atSlot, number, fin_toNat_ofNat]
    exact Nat.le_refl _
  · by_cases same : state.fde.addr = (info.bootFwd slot).toUInt32
    · obtain ⟨untouched, isNamed⟩ := fresh same
      exact Or.inl ⟨if_neg (not_not.mpr same), untouched, same.symm.trans isNamed⟩
    · exact Or.inr ⟨if_pos same, same⟩
  · exact ⟨app.id, app.format, slotRank_known slot⟩
  · exact resident

/-- The first part of an iteration, from a record that selects an image. -/
theorem chosen_cases {env : LoaderEnv} {state chosen : LoopState} {index : UInt8}
    {update : Option UInt8} (table : TableOf content state.info)
    (selects : SelectsImage env.sblFdeRank state.info)
    (select : selectStage env state = .chosen index chosen update) :
    ∃ info, TableOf content info ∧ chosen = takeFwd state info index ∧
      ((∃ slot : Fin 3, index = UInt8.ofNat slot.val ∧ info.validFwd = index ∧
          fwdTableIsValid info slot = true ∧ (appEntry (info.flashFwdTable slot)).isSome ∧
          (state.info.errCode ≠ 0 → state.info.validFwd.toNat < slot.val)) ∨
        ¬ index.toNat < 3 ∧ state.info.errCode ≠ 0 ∧
          state.info.validFwd.toNat ≤ info.validFwd.toNat) := by
  obtain ⟨info, result, taken⟩ := selectStage_chosen select
  obtain ⟨loadType, same⟩ := selectInfo_eq state
  rw [same] at result
  have narrows := narrows_select result
  have kept : Narrows state.info info := ⟨narrows.sectors, narrows.valid, narrows.entries⟩
  have fromHere : SelectsImage env.sblFdeRank { state.info with loadType := loadType } := selects
  exact ⟨info, table.narrow kept, taken, fromHere.select result⟩

/-- The first selection of a boot. -/
theorem tracked_first {env : LoaderEnv} {state chosen : LoopState} {index : UInt8}
    {update : Option UInt8} {memory before : Mem UInt8} (clear : state.info.errCode = 0)
    (table : TableOf content state.info) (app : IsApp state.fde)
    (selects : SelectsImage env.sblFdeRank state.info)
    (resident : NamedResident content state.fde.addr memory)
    (select : selectStage env state = .chosen index chosen update) :
    Tracked content state.fde.addr ⟨chosen, memory, before, false⟩ := by
  obtain ⟨info, later, rfl, ⟨slot, rfl, number, valid, hasApp, -⟩ | ⟨-, pending, -⟩⟩ :=
    chosen_cases table selects select
  · exact tracked_takeFwd later valid hasApp number app (fun _ => resident)
      fun _ => ⟨rfl, rfl⟩
  · exact absurd clear pending

/-- A later selection.  The sector of a descriptor behind the one that failed is
another one, so the load type becomes FULL. -/
theorem Tracked.select {env : LoaderEnv} {state : ResidentState} {chosen : LoopState}
    {index : UInt8} {update : Option UInt8} (tracked : Tracked content named state)
    (pending : state.loop.info.errCode ≠ 0)
    (selects : SelectsImage env.sblFdeRank state.loop.info)
    (select : selectStage env state.loop = .chosen index chosen update) :
    Tracked content named { state with loop := chosen } := by
  obtain ⟨info, later, rfl, ⟨slot, rfl, number, valid, hasApp, behind⟩ | ⟨past, -, number⟩⟩ :=
    chosen_cases tracked.table selects select
  · apply tracked_takeFwd later valid hasApp number tracked.app tracked.resident
    intro sameSector
    obtain ⟨sector, isSector, before⟩ := tracked.slot
    have sector_eq : sector = info.bootFwd slot :=
      UInt8.toUInt32_inj.mp (isSector.symm.trans sameSector)
    rw [sector_eq, (later slot valid).2.1] at before
    exact absurd (behind pending) (Nat.not_lt.mpr before)
  · rw [takeFwd_past past]
    obtain ⟨sector, isSector, before⟩ := tracked.slot
    exact ⟨later, tracked.image, ⟨sector, isSector, Nat.le_trans before number⟩, tracked.type,
      tracked.app, tracked.resident⟩

/-- The state after the stages of an iteration. -/
def afterLoad (content : FlashContent) (env : LoaderEnv) (named : UInt32) (inputs : LoadInputs)
    (state : ResidentState) : ResidentState where
  loop := runStages env inputs.errs state.loop
  memory :=
    if loadBegins env inputs.errs then loadMemory content inputs state.loop state.memory
    else state.memory
  before := state.memory
  foreign := state.foreign ||
    loadBegins env inputs.errs && decide (state.loop.type = .full) &&
      decide (state.loop.fde.addr ≠ named)

/-- Everything an iteration can do. -/
theorem residentIteration_cases (content : FlashContent) (env : LoaderEnv) (named : UInt32)
    (inputs : LoadInputs) (state : ResidentState) :
    residentIteration content env named inputs state = .done (.reset state) ∨
      ∃ index chosen update, selectStage env state.loop = .chosen index chosen update ∧
        residentIteration content env named inputs state =
          if (runStages env inputs.errs chosen).info.errCode ≠ 0 then
            .again (afterLoad content env named inputs { state with loop := chosen })
          else
            .done (.leave
              (afterLoad content env named inputs { state with loop := chosen })) := by
  cases select : selectStage env state.loop with
  | reset update =>
      left
      simp only [residentIteration, select]
  | chosen index chosen update =>
      right
      refine ⟨index, chosen, update, rfl, ?_⟩
      simp only [residentIteration, select]
      rfl

theorem loadMemory_eq (content : FlashContent) (inputs : LoadInputs) (chosen : LoopState)
    (memory : Mem UInt8) :
    ∃ reached, loadMemory content inputs chosen memory =
      (content.load chosen.type chosen.appLoadAddr).applyAt reached memory := by
  unfold loadMemory
  split_ifs
  · exact ⟨_, rfl⟩
  · exact ⟨_, rfl⟩

/-- A load, complete or not, of RAM segments or of the named image itself leaves the
RRAM segments of the named image in place. -/
theorem Tracked.resident_load {state : ResidentState} (tracked : Tracked content named state)
    (inputs : LoadInputs) (untouched : state.foreign = false)
    (own : state.loop.type = .full → state.loop.fde.addr = named) :
    NamedResident content named (loadMemory content inputs state.loop state.memory) := by
  intro elfAddr isImage
  have present := tracked.resident untouched elfAddr isImage
  obtain ⟨reached, laid⟩ := loadMemory_eq content inputs state.loop state.memory
  have isNamed : state.loop.fde.addr = named := by
    rcases tracked.type with ⟨-, -, isNamed⟩ | ⟨full, -⟩
    · exact isNamed
    · exact own full
  have loaded : state.loop.appLoadAddr = elfAddr := by
    have image := tracked.image
    rw [isNamed, isImage] at image
    exact (Option.some.inj image).symm
  rw [laid, loaded]
  rcases tracked.type with ⟨ram, -, -⟩ | ⟨full, -⟩
  · rw [ram]
    exact present.applyAt_apart
      (fun _ _ inside => loadPatch_ram_of_rram _ (content.apart elfAddr) inside) reached
  · rw [full]
    exact present.applyAt_whole
      (fun _ _ inside => rramPatch_le_full _ (content.apart elfAddr) inside) reached

/-- The load stage keeps the loop on track. -/
theorem Tracked.afterLoad {state : ResidentState} (tracked : Tracked content named state)
    (env : LoaderEnv) (inputs : LoadInputs) :
    Tracked content named (afterLoad content env named inputs state) := by
  obtain ⟨errCode, calls, stages⟩ := runStages_eq env inputs.errs state.loop
  unfold Boot.afterLoad
  rw [stages]
  refine ⟨tracked.table.narrow (narrows_of_table rfl rfl), tracked.image, tracked.slot, ?_,
    tracked.app, ?_⟩
  · rcases tracked.type with ⟨ram, untouched, isNamed⟩ | full
    · exact Or.inl ⟨ram, by simp [ram, untouched], isNamed⟩
    · exact Or.inr full
  · intro untouched
    simp only [Bool.or_eq_false_iff] at untouched
    obtain ⟨before, noForeign⟩ := untouched
    cases begins : loadBegins env inputs.errs with
    | false =>
        simp only [Bool.false_eq_true, if_false]
        exact tracked.resident before
    | true =>
        simp only [if_true]
        apply tracked.resident_load inputs before
        intro full
        simpa [begins, full] using noForeign

/-- The memory after an iteration without a failed stage. -/
theorem afterLoad_memory {env : LoaderEnv} {inputs : LoadInputs} (state : ResidentState)
    (ok : failedStage env inputs.errs = none) :
    (afterLoad content env named inputs state).memory =
      (content.load state.loop.type state.loop.appLoadAddr).apply state.memory := by
  have stages : loadBegins env inputs.errs = true ∧ inputs.errs.imageLoad = 0 := by
    unfold failedStage at ok
    split_ifs at ok with init auth load hash
    push Not at init load
    refine ⟨?_, load⟩
    cases enabled : env.authEnable with
    | true =>
        simp only [enabled, true_and, not_not] at auth
        simp [loadBegins, init, enabled, auth]
    | false => simp [loadBegins, init, enabled]
  simp [afterLoad, loadMemory, stages]

/-- Where the load type is RAM, the RRAM segments of the image are in memory. -/
theorem Tracked.present_of_ram {state : ResidentState} (tracked : Tracked content named state)
    (isRam : state.loop.type = .ram) :
    (content.rram state.loop.appLoadAddr).Present state.memory := by
  rcases tracked.type with ⟨-, untouched, isNamed⟩ | ⟨full, -⟩
  · have image := tracked.image
    rw [isNamed] at image
    exact tracked.resident untouched _ image
  · rw [full] at isRam
    cases isRam

/-- An image that passed all stages is in memory as after a full load. -/
theorem Tracked.loaded {env : LoaderEnv} {state : ResidentState}
    (tracked : Tracked content named state) {inputs : LoadInputs}
    (ok : failedStage env inputs.errs = none) :
    (Boot.afterLoad content env named inputs state).memory =
      (content.load .full state.loop.appLoadAddr).apply state.memory := by
  rw [afterLoad_memory state ok]
  rcases tracked.type with ⟨isRam, -, -⟩ | ⟨full, -⟩
  · rw [isRam]
    exact Patch.apply_half
      (loadPatch_full_eq_or content.blocks (content.apart state.loop.appLoadAddr))
      (tracked.present_of_ram isRam)
  · rw [full]

/-- After a load the RRAM segments of the image are in memory. -/
theorem Tracked.entered {env : LoaderEnv} {state : ResidentState}
    (tracked : Tracked content named state) {inputs : LoadInputs}
    (ok : failedStage env inputs.errs = none) :
    NamedResident content (Boot.afterLoad content env named inputs state).loop.fde.addr
      (Boot.afterLoad content env named inputs state).memory := by
  obtain ⟨errCode, calls, stages⟩ := runStages_eq env inputs.errs state.loop
  intro elfAddr isImage
  have image := tracked.image
  rw [Boot.afterLoad, stages] at isImage
  rw [isImage] at image
  cases image
  rw [tracked.loaded ok]
  exact Patch.present_apply
    (fun _ _ inside => rramPatch_le_full _ (content.apart _) inside) state.memory

end Boot

/-- The application FDE names a FWD sector only if the RRAM segments of its image are
in RRAM. -/
structure FdeResident (content : FlashContent) (device : ResidentDevice) : Prop where
  hasApp : ∃ idx, HasApp device.fdt idx (appFde device.fdt)
  named : NamedResident content (appFde device.fdt).addr device.memory

/-- The iteration begins a full load of an image from another sector than the one the
FDE in RRAM names. -/
def LoadsForeign (env : LoaderEnv) (named : UInt32) (inputs : LoadInputs)
    (state : ResidentState) : Prop :=
  ∃ index chosen update, selectStage env state.loop = .chosen index chosen update ∧
    loadBegins env inputs.errs = true ∧ chosen.type = .full ∧ chosen.fde.addr ≠ named

/-- The iteration is the last one: the selector neither resets nor leaves an error
pending, and no stage fails. -/
def Finishes (env : LoaderEnv) (inputs : LoadInputs) (state : ResidentState) : Prop :=
  ∃ index chosen update, selectStage env state.loop = .chosen index chosen update ∧
    chosen.info.errCode = 0 ∧ failedStage env inputs.errs = none

/-- The boots after which the FDE can be trusted: the selector has an image to return
in every iteration, and if a full load of an image from another sector is begun, the
boot finds an image that passes all stages, the power stays on and the FDE is
written. -/
structure SafeBoot (content : FlashContent) (input : ResidentInput)
    (device : ResidentDevice) : Prop where
  blocks : SameBlocks content input.storage
  sbl : SblListed device.fdt input.sblFde
  selects : ∀ memory n state,
    Heads (residentLoop content input (appFde device.fdt).addr)
      (residentStart input device memory) n state →
        SelectsImage input.env.sblFdeRank state.loop.info
  completes : ∀ memory n state,
    Heads (residentLoop content input (appFde device.fdt).addr)
      (residentStart input device memory) n state →
        LoadsForeign input.env (appFde device.fdt).addr (input.loads n) state →
          input.powered = true ∧ input.appWrite = 0 ∧
            ∃ m last, Heads (residentLoop content input (appFde device.fdt).addr)
              (residentStart input device memory) m last ∧
                Finishes input.env (input.loads m) last

section Device

variable {content : FlashContent} {input : ResidentInput} {device : ResidentDevice}
  {memory : Mem UInt8}

/-- What holds at the head of every iteration of a safe boot. -/
def OnTrack (content : FlashContent) (input : ResidentInput) (device : ResidentDevice)
    (memory : Mem UInt8) (state : ResidentState) : Prop :=
  state = residentStart input device memory ∨
    Tracked content (appFde device.fdt).addr state ∧ state.loop.info.errCode ≠ 0

/-- The first boot step finds the RRAM as it was left. -/
theorem NamedResident.lasts {addr : UInt32}
    (resident : NamedResident content addr device.memory) (lasts : Lasts device memory) :
    NamedResident content addr memory := by
  intro elfAddr isImage
  refine (resident elfAddr isImage).congr ?_
  intro address value inside
  obtain ⟨header, inHalf, covers, -⟩ := segmentsPatch_eq_some inside
  obtain ⟨isHeader, left⟩ := List.mem_filter.mp inHalf
  apply lasts
  exact content.outsideRam elfAddr header isHeader (by simpa using left) address covers

theorem OnTrack.chosen (resident : FdeResident content device)
    (lasts : Lasts device memory)
    (blocks : SameBlocks content input.storage) {state : ResidentState}
    (selects : SelectsImage input.env.sblFdeRank state.loop.info)
    (onTrack : OnTrack content input device memory state) {index : UInt8} {chosen : LoopState}
    {update : Option UInt8} (select : selectStage input.env state.loop =
      .chosen index chosen update) :
    Tracked content (appFde device.fdt).addr { state with loop := chosen } := by
  rcases onTrack with rfl | ⟨tracked, pending⟩
  · obtain ⟨idx, hasApp⟩ := resident.hasApp
    exact tracked_first (loopStart_clear input.storage (appFde device.fdt)).2
      (tableOf_loopStart blocks (appFde device.fdt)) hasApp.app selects
      (resident.named.lasts lasts) select
  · exact tracked.select pending selects select

/-- The end of an iteration of a safe boot: a reset, or the state after the stages of a
tracked selection. -/
theorem OnTrack.step (resident : FdeResident content device)
    (lasts : Lasts device memory)
    (blocks : SameBlocks content input.storage) {state : ResidentState}
    (selects : SelectsImage input.env.sblFdeRank state.loop.info)
    (onTrack : OnTrack content input device memory state) (inputs : LoadInputs) :
    residentIteration content input.env (appFde device.fdt).addr inputs state =
        .done (.reset state) ∨
      ∃ selected, Tracked content (appFde device.fdt).addr selected ∧
        residentIteration content input.env (appFde device.fdt).addr inputs state =
          if (runStages input.env inputs.errs selected.loop).info.errCode ≠ 0 then
            .again (afterLoad content input.env (appFde device.fdt).addr inputs selected)
          else
            .done (.leave
              (afterLoad content input.env (appFde device.fdt).addr inputs selected)) := by
  rcases residentIteration_cases content input.env (appFde device.fdt).addr inputs state with
    reset | ⟨index, chosen, update, select, result⟩
  · exact Or.inl reset
  · exact Or.inr ⟨{ state with loop := chosen },
      onTrack.chosen resident lasts blocks selects select, result⟩

/-- A foreign load is noted in the iteration that begins it. -/
theorem foreign_afterLoad {env : LoaderEnv} {named : UInt32} {inputs : LoadInputs}
    {state : ResidentState} {index : UInt8} {chosen : LoopState} {update : Option UInt8}
    (select : selectStage env state.loop = .chosen index chosen update)
    (isForeign : (afterLoad content env named inputs { state with loop := chosen }).foreign =
      true) :
    state.foreign = true ∨ LoadsForeign env named inputs state := by
  simp only [afterLoad, Bool.or_eq_true, Bool.and_eq_true, decide_eq_true_eq] at isForeign
  rcases isForeign with earlier | ⟨⟨begins, full⟩, other⟩
  · exact Or.inl earlier
  · exact Or.inr ⟨index, chosen, update, select, begins, full, other⟩

/-- Some iteration of the boot begins a foreign load. -/
def ForeignBegun (content : FlashContent) (input : ResidentInput) (device : ResidentDevice)
    (memory : Mem UInt8) : Prop :=
  ∃ n state, Heads (residentLoop content input (appFde device.fdt).addr)
      (residentStart input device memory) n state ∧
    LoadsForeign input.env (appFde device.fdt).addr (input.loads n) state

theorem foreignBegun_of_head {n : Nat} {state : ResidentState}
    (head : Heads (residentLoop content input (appFde device.fdt).addr)
      (residentStart input device memory) n state) (isForeign : state.foreign = true) :
    ForeignBegun content input device memory := by
  refine head.invariant
    (fun state => state.foreign = true → ForeignBegun content input device memory) ?_ ?_ isForeign
  · intro never
    cases never
  · intro k before next isHead earlier goes nextForeign
    rcases residentIteration_cases content input.env (appFde device.fdt).addr (input.loads k)
        before with reset | ⟨index, chosen, update, select, result⟩
    · rw [residentLoop, reset] at goes
      cases goes
    · rw [residentLoop, result] at goes
      split_ifs at goes
      cases goes
      rcases foreign_afterLoad select nextForeign with before | here
      · exact earlier before
      · exact ⟨k, _, isHead, here⟩

theorem foreignBegun_of_leave {n : Nat} {final : ResidentState}
    (left : Loop.status (residentLoop content input (appFde device.fdt).addr)
      (residentStart input device memory) n = .done (.leave final))
    (isForeign : final.foreign = true) : ForeignBegun content input device memory := by
  obtain ⟨k, state, -, head, last⟩ := Loop.exists_head_of_done left
  rcases residentIteration_cases content input.env (appFde device.fdt).addr (input.loads k)
      state with reset | ⟨index, chosen, update, select, result⟩
  · rw [residentLoop, reset] at last
    cases last
  · rw [residentLoop, result] at last
    split_ifs at last
    cases last
    rcases foreign_afterLoad select isForeign with before | here
    · exact foreignBegun_of_head head before
    · exact ⟨k, _, head, here⟩

/-- A finishing iteration leaves the loop. -/
theorem Finishes.leaves {m : Nat} {last : ResidentState}
    (head : Heads (residentLoop content input (appFde device.fdt).addr)
      (residentStart input device memory) m last)
    (finishes : Finishes input.env (input.loads m) last) :
    ∃ final, Loop.status (residentLoop content input (appFde device.fdt).addr)
      (residentStart input device memory) (m + 1) = .done (.leave final) := by
  obtain ⟨index, chosen, update, select, clear, ok⟩ := finishes
  have clean : (runStages input.env (input.loads m).errs chosen).info.errCode = 0 := by
    rw [runStages_ok chosen ok]
    exact clear
  rw [Loop.status_succ_of_again head]
  unfold residentLoop residentIteration
  simp only [select, clean, ne_eq, not_true_eq_false, if_false]
  exact ⟨_, rfl⟩

section Safe

variable (safe : SafeBoot content input device) (resident : FdeResident content device)
  (lasts : Lasts device memory)

include safe resident lasts

/-- Every head of a safe boot is on track. -/
theorem SafeBoot.onTrack {n : Nat} {state : ResidentState}
    (head : Heads (residentLoop content input (appFde device.fdt).addr)
      (residentStart input device memory) n state) :
    OnTrack content input device memory state := by
  refine head.invariant (OnTrack content input device memory) (Or.inl rfl) ?_
  intro k before next isHead onTrack goes
  have selects := safe.selects memory k before isHead
  rcases onTrack.step resident lasts safe.blocks selects (input.loads k) with
    reset | ⟨selected, tracked, result⟩
  · rw [residentLoop, reset] at goes
    cases goes
  · rw [residentLoop, result] at goes
    split_ifs at goes with pending
    cases goes
    exact Or.inr ⟨tracked.afterLoad input.env (input.loads k), pending⟩

/-- The state a safe boot leaves the loop with. -/
theorem SafeBoot.leave {n : Nat} {final : ResidentState}
    (left : Loop.status (residentLoop content input (appFde device.fdt).addr)
      (residentStart input device memory) n = .done (.leave final)) :
    ∃ selected inputs, Tracked content (appFde device.fdt).addr selected ∧
      failedStage input.env inputs.errs = none ∧
      final = afterLoad content input.env (appFde device.fdt).addr inputs selected := by
  obtain ⟨k, state, -, head, last⟩ := Loop.exists_head_of_done left
  have selects := safe.selects memory k state head
  rcases (safe.onTrack resident lasts head).step resident lasts safe.blocks selects
      (input.loads k) with reset | ⟨selected, tracked, result⟩
  · rw [residentLoop, reset] at last
    cases last
  · rw [residentLoop, result] at last
    split_ifs at last with pending
    cases last
    exact ⟨selected, input.loads k, tracked,
      (runStages_errCode_eq_zero (not_not.mp pending)).1, rfl⟩

/-- As long as no foreign full load was begun, the named image is in RRAM. -/
theorem SafeBoot.head_resident {n : Nat} {state : ResidentState}
    (head : Heads (residentLoop content input (appFde device.fdt).addr)
      (residentStart input device memory) n state) (untouched : state.foreign = false) :
    NamedResident content (appFde device.fdt).addr state.memory := by
  rcases safe.onTrack resident lasts head with rfl | ⟨tracked, -⟩
  · exact resident.named.lasts lasts
  · exact tracked.resident untouched

theorem SafeBoot.leave_resident {n : Nat} {final : ResidentState}
    (left : Loop.status (residentLoop content input (appFde device.fdt).addr)
      (residentStart input device memory) n = .done (.leave final))
    (untouched : final.foreign = false) :
    NamedResident content (appFde device.fdt).addr final.memory := by
  obtain ⟨selected, inputs, tracked, -, rfl⟩ := safe.leave resident lasts left
  exact (tracked.afterLoad input.env inputs).resident untouched

end Safe

section Untouched

variable (safe : SafeBoot content input device)

include safe

/-- Where the power goes away, no foreign load was begun. -/
theorem SafeBoot.not_begun_of_off (off : input.powered = false) :
    ¬ ForeignBegun content input device memory := by
  rintro ⟨n, state, head, foreign⟩
  obtain ⟨on, -⟩ := safe.completes memory n state head foreign
  rw [off] at on
  cases on

/-- Nor in a boot that ends in a reset, for a boot that begins one finishes. -/
theorem SafeBoot.not_begun_of_reset {n : Nat} {state : ResidentState}
    (done : Loop.status (residentLoop content input (appFde device.fdt).addr)
      (residentStart input device memory) n = .done (.reset state)) :
    ¬ ForeignBegun content input device memory := by
  rintro ⟨k, before, head, foreign⟩
  obtain ⟨-, -, m, last, isHead, finishes⟩ := safe.completes memory k before head foreign
  obtain ⟨final, left⟩ := finishes.leaves isHead
  cases Loop.done_unique done left

end Untouched

/-- The memory of an application that was entered after a RAM-only load: the RRAM
segments of the image the FDE names were there, and loading them as well would have
given the same memory. -/
structure RamLoadIsFull (content : FlashContent) (final : ResidentState) : Prop where
  image : sectorImage content final.loop.fde.addr = some final.loop.elfAddr
  present : (content.rram final.loop.elfAddr).Present final.before
  ram : final.memory = (content.load .ram final.loop.elfAddr).apply final.before
  full : final.memory = (content.load .full final.loop.elfAddr).apply final.before

theorem Tracked.ramLoadIsFull {env : LoaderEnv} {named : UInt32} {state : ResidentState}
    (tracked : Tracked content named state) {inputs : LoadInputs}
    (ok : failedStage env inputs.errs = none) (isRam : state.loop.type = .ram) :
    RamLoadIsFull content (Boot.afterLoad content env named inputs state) := by
  obtain ⟨errCode, calls, stages⟩ := runStages_eq env inputs.errs state.loop
  have fde : (runStages env inputs.errs state.loop).fde = state.loop.fde := by rw [stages]
  have elfAddr : (runStages env inputs.errs state.loop).elfAddr = state.loop.appLoadAddr := by
    rw [stages]
  constructor
  · rw [Boot.afterLoad, fde, elfAddr]
    exact tracked.image
  · rw [Boot.afterLoad, elfAddr]
    exact tracked.present_of_ram isRam
  · rw [afterLoad_memory state ok, isRam]
    simp only [Boot.afterLoad, elfAddr]
  · rw [tracked.loaded ok]
    simp only [Boot.afterLoad, elfAddr]

/-- The loop ended with a load that the FDE does not tell of only if that load left the
named image alone. -/
theorem Tracked.resident_of_unwritten {named : UInt32} {state : ResidentState}
    (tracked : Tracked content named state) {writeStatus : BlError}
    (completes : state.foreign = true → writeStatus = 0)
    (unwritten : ¬ (state.loop.tempfde ≠ state.loop.fde ∧ writeStatus = 0)) :
    NamedResident content named state.memory := by
  cases foreign : state.foreign with
  | false => exact tracked.resident foreign
  | true =>
      have same : state.loop.tempfde = state.loop.fde := by
        by_contra changed
        exact unwritten ⟨changed, completes foreign⟩
      rcases tracked.type with ⟨-, untouched, -⟩ | ⟨-, changed⟩
      · rw [foreign] at untouched
        cases untouched
      · rw [same] at changed
        exact absurd rfl changed

/-- A reset leaves the state at the head it was reached from. -/
theorem head_of_reset {n : Nat} {state : ResidentState}
    (done : Loop.status (residentLoop content input (appFde device.fdt).addr)
      (residentStart input device memory) n = .done (.reset state)) :
    ∃ k, Heads (residentLoop content input (appFde device.fdt).addr)
      (residentStart input device memory) k state := by
  obtain ⟨k, before, -, head, last⟩ := Loop.exists_head_of_done done
  rcases residentIteration_cases content input.env (appFde device.fdt).addr
      (input.loads k) before with reset | ⟨index, chosen, update, -, result⟩
  · rw [residentLoop, reset] at last
    cases last
    exact ⟨k, head⟩
  · rw [residentLoop, result] at last
    split_ifs at last
    cases last

/-- A safe boot keeps the FDE trustworthy. -/
theorem SafeBoot.keeps {outcome : Outcome} (safe : SafeBoot content input device)
    (resident : FdeResident content device) (boot : ResidentBoot content input device outcome) :
    FdeResident content outcome.device := by
  obtain ⟨idx, hasApp⟩ := resident.hasApp
  cases boot with
  | enter flash lasts powered left =>
      obtain ⟨selected, inputs, tracked, ok, rfl⟩ := safe.leave resident lasts left
      have after := tracked.afterLoad input.env inputs
      have later := (hasApp.updateSblFde safe.sbl input.sblWrite).updateAppFde after.app
        input.appWrite
      have same := later.appFde_eq
      rw [← hasApp.find] at later same
      refine ⟨⟨idx, by rw [finishFdt, same]; exact later⟩, ?_⟩
      rw [finishFdt, same]
      split_ifs with written
      · exact tracked.entered ok
      · apply after.resident_of_unwritten ?_ written
        intro isForeign
        obtain ⟨n, state, head, foreign⟩ := foreignBegun_of_leave left isForeign
        exact (safe.completes _ n state head foreign).2.1
  | reset flash lasts done =>
      obtain ⟨k, head⟩ := head_of_reset done
      have untouched := mt (foreignBegun_of_head head) (safe.not_begun_of_reset done)
      exact ⟨⟨idx, hasApp⟩,
        safe.head_resident resident lasts head (Bool.eq_false_iff.mpr untouched)⟩
  | cut flash lasts off head =>
      have untouched := mt (foreignBegun_of_head head) (safe.not_begun_of_off off)
      exact ⟨⟨idx, hasApp⟩,
        safe.head_resident resident lasts head (Bool.eq_false_iff.mpr untouched)⟩
  | before flash lasts off left =>
      have untouched := mt (foreignBegun_of_leave left) (safe.not_begun_of_off off)
      exact ⟨⟨idx, hasApp⟩,
        safe.leave_resident resident lasts left (Bool.eq_false_iff.mpr untouched)⟩
  | between flash lasts off left =>
      have untouched := mt (foreignBegun_of_leave left) (safe.not_begun_of_off off)
      have later := hasApp.updateSblFde safe.sbl input.sblWrite
      have same := later.appFde_eq
      refine ⟨⟨idx, by rw [same]; exact later⟩, ?_⟩
      rw [same]
      exact safe.leave_resident resident lasts left (Bool.eq_false_iff.mpr untouched)

end Device

/-- One safe boot in the life of a device. -/
def SafeStep (content : FlashContent) (device next : ResidentDevice) : Prop :=
  ∃ input outcome, SafeBoot content input device ∧
    ResidentBoot content input device outcome ∧ outcome.device = next

theorem fdeResident_of_run {content : FlashContent} {start device : ResidentDevice}
    (resident : FdeResident content start)
    (run : Relation.ReflTransGen (SafeStep content) start device) :
    FdeResident content device := by
  induction run with
  | refl => exact resident
  | tail _ step ih =>
      obtain ⟨input, outcome, safe, boot, rfl⟩ := step
      exact safe.keeps ih boot

/-- In every run of safe boots, the application FDE names a FWD sector only while the
RRAM segments of its image are in RRAM, and an application that is entered after a
RAM-only load finds the memory that a full load would have given. -/
theorem ram_only_load_is_full_load (content : FlashContent) (start device : ResidentDevice)
    (resident : FdeResident content start)
    (run : Relation.ReflTransGen (SafeStep content) start device) (input : ResidentInput)
    (safe : SafeBoot content input device) (outcome : Outcome)
    (boot : ResidentBoot content input device outcome) :
    FdeResident content outcome.device ∧
      ∀ final, outcome.entered = some final → final.loop.type = .ram →
        RamLoadIsFull content final := by
  have before := fdeResident_of_run resident run
  refine ⟨safe.keeps before boot, ?_⟩
  intro final isFinal isRam
  cases boot with
  | enter flash lasts powered left =>
      cases isFinal
      obtain ⟨selected, inputs, tracked, ok, rfl⟩ := safe.leave before lasts left
      apply tracked.ramLoadIsFull ok
      obtain ⟨errCode, calls, stages⟩ := runStages_eq input.env inputs.errs selected.loop
      rw [Boot.afterLoad, stages] at isRam
      exact isRam
  | reset flash lasts done => cases isFinal
  | cut flash lasts off head => cases isFinal
  | before flash lasts off left => cases isFinal
  | between flash lasts off left => cases isFinal

/-- A flash with a trial descriptor of the given status in sector 0, a current
descriptor in sector 1 and an image for each. -/
def twoImages (trialStatus : UInt8) : Storage :=
  sampleStorage fun sector =>
    if sector = 0 then sampleDescriptor 0xFF trialStatus 3
    else if sector = 1 then sampleDescriptor 1 1 19
    else if sector < 19 then fun _ => 0xAA
    else fun _ => 0xBB

/-- Every image is one segment of four bytes in RRAM. -/
def twoImagesContent : FlashContent where
  blocks := (twoImages 1).flash
  image := fun elfAddr =>
    { elfAddr := elfAddr
      progHdrs := [⟨ptLoad, 0x100, 0x300000, 0x300000, 4, 4, 0, 0⟩]
      phrNum_le := by decide }
  atAddress := fun _ => rfl
  apart := fun _ => List.pairwise_singleton _ _
  outsideRam := by
    intro elfAddr header isHeader _ address covers
    rw [List.mem_singleton] at isHeader
    subst isHeader
    have inside := (segmentCovers_iff.mp covers).2.2
    have last : frnRamEnd.toNat = 0x9FFFF := rfl
    rw [UInt32.lt_iff_toNat_lt, last]
    unfold Mem.InRange at inside
    rw [UInt32.toNat_sub] at inside
    have base : (0x300000 : UInt32).toNat = 0x300000 := rfl
    have size : (4 : UInt32).toNat = 4 := rfl
    simp only [base, size] at inside
    omega

theorem twoImages_blocks (trialStatus : UInt8) :
    SameBlocks twoImagesContent (twoImages trialStatus) := by
  intro address notStatus
  have elsewhere : address.toNat ≠ 12 := by
    intro isStatus
    refine notStatus 0 (by decide) ?_
    exact UInt32.toNat_inj.mp isStatus
  have flash : ∀ status, (twoImages status).flash address =
      if address.toNat / 4096 = 0 then sampleDescriptor 0xFF status 3 (address.toNat % 4096)
      else (twoImages 1).flash address := by
    intro status
    unfold twoImages sampleStorage
    split_ifs with first
    · simp [first]
    · simp [first]
  have same : ∀ offset ≠ 12,
      sampleDescriptor 0xFF trialStatus 3 offset = sampleDescriptor 0xFF 1 3 offset := by
    intro offset other
    simp [sampleDescriptor, other]
  have blocks : twoImagesContent.blocks address = (twoImages 1).flash address := rfl
  rw [blocks, flash trialStatus, flash 1]
  split_ifs with first
  · exact same _ (by omega)
  · rfl

/-- A device whose table has an SBL and, if wanted, an application FDE for sector 1;
the RRAM is filled with the given byte. -/
def sampleResident (app : Option FdtEntry) (byte : UInt8) : ResidentDevice :=
  ⟨fun _ => byte, app.toList ++ [{ zeroFde with rank := otaImgRankCurrent }]⟩

/-- The application FDE for the current image. -/
def currentFde : FdtEntry :=
  { zeroFde with id := otaImgIdApp, rank := otaImgRankCurrent, addr := 1 }

/-- A boot in which every iteration has the same stage results. -/
def residentInput (storage : Storage) (errs : StageErrs) (sblIdx : Nat) : ResidentInput where
  storage := storage
  sblFde := ⟨sblIdx, { zeroFde with rank := otaImgRankCurrent }⟩
  authEnable := true
  loads := fun _ => ⟨errs, fun _ => true⟩
  sblWrite := 0
  appWrite := 0
  powered := true

theorem currentFde_hasApp (byte : UInt8) :
    HasApp (sampleResident (some currentFde) byte).fdt 0 currentFde where
  here := rfl
  app := ⟨rfl, rfl, Or.inr (Or.inl rfl)⟩
  only i other here isApp := by
    match i, here with
    | 0, _ => rfl
    | 1, here =>
        cases here
        exact absurd isApp (by decide)

/-- The RRAM segment of the current image. -/
theorem currentImage_bytes {address : UInt32} {value : UInt8}
    (inside : twoImagesContent.rram 0xA13000 address = some value) : value = 0xBB := by
  obtain ⟨header, inHalf, covers, byte⟩ := segmentsPatch_eq_some inside
  have isHeader := (List.mem_filter.mp inHalf).1
  rw [twoImagesContent, List.mem_singleton] at isHeader
  subst isHeader
  have offset : (address - 0x300000).toNat < 4 := (segmentCovers_iff.mp covers).2.2
  have place : (0xA13000 + 0x100 - appImageFlashAddress + (address - 0x300000)).toNat =
      0x13100 + (address - 0x300000).toNat := by
    rw [UInt32.toNat_add]
    have base : (0xA13000 + 0x100 - appImageFlashAddress).toNat = 0x13100 := by decide
    rw [base]
    omega
  have sector : (0x13100 + (address - 0x300000).toNat) / 4096 = 19 := by omega
  have flash : segmentByte twoImagesContent.blocks 0xA13000 address
      ⟨ptLoad, 0x100, 0x300000, 0x300000, 4, 4, 0, 0⟩ =
        (twoImages 1).flash (0xA13000 + 0x100 - appImageFlashAddress + (address - 0x300000)) :=
    if_pos offset
  have block : ∀ place : UInt32, place.toNat / 4096 = 19 → (twoImages 1).flash place = 0xBB := by
    intro place isBlock
    simp only [twoImages, sampleStorage, isBlock]
    rfl
  refine byte.trans (flash.trans (block _ ?_))
  rw [place]
  exact sector

/-- The current image is in RRAM, and the FDE names its sector. -/
theorem sampleResident_resident :
    FdeResident twoImagesContent (sampleResident (some currentFde) 0xBB) where
  hasApp := ⟨0, currentFde_hasApp 0xBB⟩
  named elfAddr isImage := by
    have known : sectorImage twoImagesContent 1 = some 0xA13000 := by decide
    cases known.symm.trans isImage
    intro address value inside
    exact (currentImage_bytes inside).symm

/-- With the trial status cleared, a device whose FDE names sector 1 boots the current
image and loads its RAM segments only. -/
theorem current_boot (memory : Mem UInt8) :
    ∃ final, Loop.status (residentLoop twoImagesContent
          (residentInput (twoImages 0) ⟨0, 0, 0, 0⟩ 1) 1)
          (residentStart (residentInput (twoImages 0) ⟨0, 0, 0, 0⟩ 1)
            ⟨memory, (sampleResident (some currentFde) 0xBB).fdt⟩ memory) 1 =
        .done (.leave final) ∧
      final.loop.type = .ram ∧ final.foreign = false ∧ final.loop.elfAddr = 0xA13000 ∧
      final.memory 0x300000 = memory 0x300000 :=
  ⟨_, rfl, rfl, rfl, rfl, rfl⟩

/-- A safe boot of the current image, which is in RRAM. -/
theorem current_boot_is_full_load :
    ∃ outcome final,
      ResidentBoot twoImagesContent (residentInput (twoImages 0) ⟨0, 0, 0, 0⟩ 1)
          (sampleResident (some currentFde) 0xBB) outcome ∧
        outcome.entered = some final ∧ final.loop.type = .ram ∧
        RamLoadIsFull twoImagesContent final := by
  obtain ⟨final, left, isRam, untouched, -, -⟩ := current_boot fun _ => 0xBB
  have boot : ResidentBoot twoImagesContent (residentInput (twoImages 0) ⟨0, 0, 0, 0⟩ 1)
      (sampleResident (some currentFde) 0xBB) _ :=
    ResidentBoot.enter rfl (fun _ _ => rfl) rfl left
  refine ⟨_, final, boot, rfl, isRam, ?_⟩
  refine (ram_only_load_is_full_load twoImagesContent _ _ sampleResident_resident
    Relation.ReflTransGen.refl _ ⟨twoImages_blocks 0, ⟨rfl, by decide⟩, ?_, ?_⟩ _ boot).2
    final rfl isRam
  · intro memory n state head
    -- the loop is left after the first iteration, so there is one head only
    cases n with
    | zero =>
        cases head
        exact ⟨fun _ => ⟨indexCurrent, rfl, rfl⟩, fun failed => absurd rfl failed⟩
    | succ k =>
        obtain ⟨last, stopped, -⟩ := current_boot memory
        have stays := Loop.status_done_stable stopped k
        rw [Nat.add_comm] at stays
        cases head.symm.trans stays
  · intro memory n state _ _
    exact ⟨rfl, rfl, 0, _, rfl, _, _, _, rfl, rfl, rfl⟩

/-- The application entered lacks RRAM segments of its image after a RAM-only load. -/
def EntersIncomplete (content : FlashContent) (input : ResidentInput)
    (device : ResidentDevice) : Prop :=
  ∃ outcome final, ResidentBoot content input device outcome ∧
    outcome.entered = some final ∧ final.loop.type = .ram ∧
    ¬ (content.rram final.loop.elfAddr).Present final.memory

/-- The trial image is loaded in full over the current one, fails the hash
verification, and the device resets.  Then the trial status is cleared, and the boot
of the current image skips its RRAM segments, for the FDE still names its sector.
Without any application FDE the zero record stands for sector 0, and already the
first boot skips the RRAM segments. -/
theorem stale_fde_after_failed_full_load :
    FdeResident twoImagesContent (sampleResident (some currentFde) 0xBB) ∧
      SameBlocks twoImagesContent (twoImages 1) ∧ SameBlocks twoImagesContent (twoImages 0) ∧
      (∃ middle, ResidentBoot twoImagesContent (residentInput (twoImages 1) ⟨0, 0, 0, 17⟩ 1)
          (sampleResident (some currentFde) 0xBB) middle ∧
        EntersIncomplete twoImagesContent (residentInput (twoImages 0) ⟨0, 0, 0, 0⟩ 1)
          middle.device) ∧
      EntersIncomplete twoImagesContent (residentInput (twoImages 1) ⟨0, 0, 0, 0⟩ 0)
        (sampleResident none 0xFF) := by
  refine ⟨sampleResident_resident, twoImages_blocks 1, twoImages_blocks 0, ?_, ?_⟩
  · have fails : Loop.status (residentLoop twoImagesContent
        (residentInput (twoImages 1) ⟨0, 0, 0, 17⟩ 1) 1)
        (residentStart (residentInput (twoImages 1) ⟨0, 0, 0, 17⟩ 1)
          (sampleResident (some currentFde) 0xBB) fun _ => 0xBB) 2 =
      .done (.reset _) := rfl
    refine ⟨_, ResidentBoot.reset rfl (fun _ _ => rfl) fails, ?_⟩
    obtain ⟨final, left, isRam, -, isCurrent, kept⟩ := current_boot _
    refine ⟨_, final, ResidentBoot.enter rfl (fun _ _ => rfl) rfl left, rfl, isRam, ?_⟩
    rw [isCurrent]
    intro present
    have byte := present 0x300000 0xBB (by decide)
    rw [kept] at byte
    exact absurd byte (by decide)
  · have left : Loop.status (residentLoop twoImagesContent
        (residentInput (twoImages 1) ⟨0, 0, 0, 0⟩ 0) 0)
        (residentStart (residentInput (twoImages 1) ⟨0, 0, 0, 0⟩ 0)
          (sampleResident none 0xFF) fun _ => 0xFF) 1 = .done (.leave _) := rfl
    refine ⟨_, _, ResidentBoot.enter rfl (fun _ _ => rfl) rfl left, rfl, rfl, ?_⟩
    intro present
    have byte := present 0x300000 0xAA (by decide)
    exact absurd byte (by decide)

end QHal.Boot
