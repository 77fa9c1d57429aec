/-
Module: QHal.Proofs.DxeFrames
Purpose: The frames that are handed to the DXE driver, over whole runs of calls,
  the engine and the configuration of channels.  A valid descriptor is not
  overwritten and every buffer of a channel to the BMU is freed once; buffers of
  transfers between host addresses stay with the caller.  The order of the frames
  needs that the workaround for a stalled engine finds valid descriptors only.
Trusted boundary: none
Main exports: DxeCCB.Owned, DxeCCB.InOrder, frames_owned_and_ordered,
  host_frame_is_not_released, workaround_gives_unfilled_descriptor
-/
import QHal.Proofs.DxeDriver
import QHal.Lib.Runs

namespace QHal.Dxe

section Invariants

variable {channel : Nat} {ccb after : DxeCCB} {action : HalDxe.Action}
  {pc pc' : Option FramePc}

theorem DxeCCB.Staged.moves (staged : ccb.Staged pc)
    (moves : ChannelMoves channel ccb action pc after pc') (configured : ccb.chConfigured = true) :
    after.Staged pc' := by
  cases moves with
  | same => exact staged
  | unconfigured _ _ _ unused _ =>
      rw [configured] at unused
      cases unused
  | configured _ _ _ _ unused _ =>
      rw [configured] at unused
      cases unused
  | counted =>
      refine staged.ctrl rfl rfl rfl rfl rfl (fun _ => rfl) ?_
      intro current pos isCurrent isTarget
      apply staged.target current pos isCurrent
      cases current <;> exact isTarget
  | started => exact staged.goto (by rintro _ _ ⟨⟩ ⟨⟩)
  | access _ _ _ _ _ _ moves => exact staged.exec moves
  | engine _ _ stepped => exact staged.engine stepped
  | deinit =>
      obtain ⟨released, isDeinit⟩ := deinit_eq ccb
      rw [isDeinit]
      exact staged.ctrl rfl rfl rfl rfl rfl (fun _ => rfl) nofun

theorem DxeCCB.Freed.moves (freed : ccb.Freed) (staged : ccb.Staged pc)
    (moves : ChannelMoves channel ccb action pc after pc') (configured : ccb.chConfigured = true)
    (notDeinit : action ≠ .deinit) : after.Freed := by
  cases moves with
  | same => exact freed
  | unconfigured _ _ _ unused _ =>
      rw [configured] at unused
      cases unused
  | configured _ _ _ _ unused _ =>
      rw [configured] at unused
      cases unused
  | counted => exact freed.keep rfl rfl rfl rfl
  | started => exact freed
  | access _ _ _ _ _ accepts moves => exact freed.exec staged accepts moves
  | engine _ _ stepped =>
      obtain ⟨_, rfl⟩ := engine_cases stepped
      exact freed.keep rfl rfl rfl rfl
  | deinit => exact absurd rfl notDeinit

/-- The order of a channel in the lists and descriptors alone. -/
theorem DxeCCB.Ordered.keep {armed : Nat} (ordered : ccb.Ordered pc armed)
    (count : after.nDescs = ccb.nDescs) (enginePos : after.enginePos = ccb.enginePos)
    (desc : after.desc = ccb.desc) (accepted : after.accepted = ccb.accepted)
    (transferred : after.transferred = ccb.transferred) : after.Ordered pc armed where
  count := by rw [accepted]; exact ordered.count
  engine := by rw [enginePos, transferred, count]; exact ordered.engine
  behind := by rw [transferred]; exact ordered.behind
  room := by rw [accepted, transferred, count]; exact ordered.room
  order := by rw [accepted, transferred]; exact ordered.order
  held := by rw [accepted, transferred, count, desc]; exact ordered.held
  empty := by rw [transferred, count, desc]; exact ordered.empty
  fill := by rw [accepted, transferred, count]; exact ordered.fill
  enable := by rw [accepted, count, desc]; exact ordered.enable
  war := ordered.war

theorem DxeCCB.Ordered.moves {armed : Nat} (ordered : ccb.Ordered pc armed)
    (staged : ccb.Staged pc) (moves : ChannelMoves channel ccb action pc after pc')
    (configured : ccb.chConfigured = true)
    (finds : ∀ descl current, action = .exec descl → pc = some current →
      ccb.WarFindsValid current) : ∃ armed', after.Ordered pc' armed' := by
  cases moves with
  | same => exact ⟨armed, ordered⟩
  | unconfigured _ _ _ unused _ =>
      rw [configured] at unused
      cases unused
  | configured _ _ _ _ unused _ =>
      rw [configured] at unused
      cases unused
  | counted => exact ⟨armed, ordered.keep rfl rfl rfl rfl rfl⟩
  | started => exact ⟨armed, ordered.goto rfl nofun nofun nofun⟩
  | access descl _ current _ _ _ moves =>
      exact ordered.exec staged (finds descl current rfl rfl) moves
  | engine _ _ stepped => exact ⟨armed, ordered.engine_step staged stepped⟩
  | deinit =>
      obtain ⟨released, isDeinit⟩ := deinit_eq ccb
      rw [isDeinit]
      exact ⟨armed, ordered.keep rfl rfl rfl rfl rfl⟩

end Invariants

section Runs

variable {hal next last : HalDxe} {action : HalDxe.Action}

/-- The buffers of a channel that went through its descriptors, or are to go. -/
def DxeCCB.buffers (ccb : DxeCCB) : List UInt32 :=
  ccb.initial.filter (· ≠ 0) ++ ccb.accepted.map Transfer.srcMemAddrL

/-- A channel behind the de-initialisation. -/
structure DxeCCB.Emptied (ccb : DxeCCB) : Prop where
  toBmu : ccb.xfrType = .hostToBmu → ccb.released = ccb.buffers
  toHost : ccb.xfrType = .hostToHost → ccb.released = []

theorem DxeCCB.Freed.stages_filter {ccb : DxeCCB} (freed : ccb.Freed) :
    ccb.stages.filter (· ≠ 0) = ccb.buffers := by
  rw [DxeCCB.stages, DxeCCB.buffers, List.filter_append]
  congr 1
  apply List.filter_eq_self.mpr
  intro buffer member
  obtain ⟨transfer, isAccepted, rfl⟩ := List.mem_map.mp member
  exact decide_eq_true (freed.nonnull transfer isAccepted)

theorem DxeCCB.Freed.emptied {ccb : DxeCCB} {pc : Option FramePc} (freed : ccb.Freed)
    (staged : ccb.Staged pc) (configured : ccb.chConfigured = true) : ccb.deinit.Emptied := by
  obtain ⟨released, isDeinit⟩ := deinit_eq ccb
  have same : ccb.deinit.buffers = ccb.buffers := by
    rw [isDeinit]
    rfl
  have sameType : ccb.deinit.xfrType = ccb.xfrType := by rw [isDeinit]
  refine ⟨fun toBmu => ?_, fun toHost => ?_⟩
  · rw [sameType] at toBmu
    rw [freed.deinit staged configured toBmu, same, freed.stages_filter]
  · rw [sameType] at toHost
    have notRx : ¬ (ccb.xfrType = .bmuToHost ∧ ccb.rxBuf ≠ 0 ∧ ccb.bufferType = .heap) := by
      rw [toHost]
      rintro ⟨⟨⟩, _⟩
    have notStaged : ¬ ccb.xfrType ≠ .hostToHost := not_not.mpr toHost
    rw [DxeCCB.deinit, if_pos configured]
    simp only [if_neg notRx, if_neg notStaged, List.append_nil]
    exact freed.toHost toHost

/-- The invariant of the driver, whatever the workaround does. -/
structure HalDxe.Sound (hal : HalDxe) : Prop where
  accepted : hal.CallAccepted
  range : ∀ channel, (hal.channels channel).chConfigured = true → channel < dxeChannelMax
  staged : ∀ channel, (hal.channels channel).chConfigured = true →
    (hal.channels channel).Staged (hal.pcOn channel)
  freed : hal.present = true → ∀ channel, (hal.channels channel).chConfigured = true →
    (hal.channels channel).Freed
  emptied : hal.present = false → ∀ channel, (hal.channels channel).chConfigured = true →
    (hal.channels channel).Emptied

theorem HalDxe.Sound.init (descBase dxeHaltCount : UInt32) :
    (ntNdxeInit descBase dxeHaltCount).Sound where
  accepted := nofun
  range := nofun
  staged := nofun
  freed := nofun
  emptied := nofun

theorem HalDxe.Sound.step (hal : HalDxe) (action : HalDxe.Action) (next : HalDxe)
    (sound : hal.Sound) (stepped : hal.step action = some next) : next.Sound := by
  have moves := fun channel => HalDxe.channel_moves sound.accepted stepped channel
  obtain ⟨present, kind⟩ := HalDxe.step_present stepped
  exact {
    accepted := sound.accepted.step stepped
    range := by
      intro channel configured
      rcases (moves channel).configured_before configured with before | ⟨range, _⟩
      · exact sound.range channel before
      · exact range
    staged := by
      intro channel configured
      rcases (moves channel).configured_before configured with
        before | ⟨_, idle, _, _, _, some, isRing⟩
      · exact (sound.staged channel before).moves (moves channel) before
      · rw [idle, isRing]
        exact takeRing_staged _ _ _ some
    freed := by
      intro presentAfter channel configured
      have notDeinit : action ≠ .deinit := by
        rcases kind with ⟨notDeinit, _⟩ | ⟨_, _, rfl⟩
        · exact notDeinit
        · cases presentAfter
      rcases (moves channel).configured_before configured with
        before | ⟨_, _, _, _, _, _, isRing⟩
      · exact (sound.freed present channel before).moves (sound.staged channel before)
          (moves channel) before notDeinit
      · rw [isRing]
        exact takeRing_freed _ _ _
    emptied := by
      intro gone channel configured
      rcases kind with ⟨_, presentAfter⟩ | ⟨_, _, rfl⟩
      · rw [gone] at presentAfter
        cases presentAfter
      · by_cases inside : channel < dxeChannelMax
        · simp only [HalDxe.ntNdxeDeinit, if_pos inside] at configured ⊢
          obtain ⟨released, isDeinit⟩ := deinit_eq (hal.channels channel)
          have before : (hal.channels channel).chConfigured = true := by
            rw [isDeinit] at configured
            exact configured
          exact (sound.freed present channel before).emptied (sound.staged channel before) before
        · simp only [HalDxe.ntNdxeDeinit, if_neg inside] at configured
          exact absurd (sound.range channel configured) inside }

/-- The order of the frames on every channel that transmits. -/
def HalDxe.AllOrdered (hal : HalDxe) : Prop :=
  ∀ channel, (hal.channels channel).chConfigured = true → (hal.channels channel).Transmits →
    ∃ armed, (hal.channels channel).Ordered (hal.pcOn channel) armed

/-- The workaround finds a valid descriptor at each of its reads. -/
def HalDxe.WarFindsValid (hal : HalDxe) : HalDxe.Action → Prop
  | .exec _ =>
      match hal.call with
      | some call => (hal.channels call.channel).WarFindsValid call.pc
      | none => True
  | _ => True

theorem HalDxe.WarFindsValid.on {descl : UInt32} (finds : hal.WarFindsValid (.exec descl))
    {channel : Nat} {current : FramePc} (isCurrent : hal.pcOn channel = some current) :
    (hal.channels channel).WarFindsValid current := by
  unfold HalDxe.WarFindsValid at finds
  unfold HalDxe.pcOn at isCurrent
  cases isCall : hal.call with
  | none =>
      rw [isCall] at isCurrent
      cases isCurrent
  | some call =>
      simp only [isCall] at finds isCurrent
      split_ifs at isCurrent with here
      cases isCurrent
      subst here
      exact finds

theorem HalDxe.AllOrdered.step (sound : hal.Sound) (ordered : hal.AllOrdered)
    (finds : hal.WarFindsValid action) (stepped : hal.step action = some next) :
    next.AllOrdered := by
  intro channel configured transmits
  have moves := HalDxe.channel_moves sound.accepted stepped channel
  rcases moves.configured_before configured with before | ⟨_, idle, _, _, _, _, isRing⟩
  · obtain ⟨_, sameType⟩ := moves.keeps_type before
    have transmitsBefore : (hal.channels channel).Transmits := by
      rw [DxeCCB.Transmits, sameType] at transmits
      exact transmits
    obtain ⟨armed, wasOrdered⟩ := ordered channel before transmitsBefore
    refine wasOrdered.moves (sound.staged channel before) moves before ?_
    rintro descl current rfl isCurrent
    exact finds.on isCurrent
  · rw [isRing] at transmits
    rw [idle, isRing]
    exact ⟨0, takeRing_ordered _ _ _ transmits⟩

/-- What holds of a channel whatever the workaround does: a call writes its frame
into a descriptor that is not valid; a channel to the BMU frees its buffers once and
in their order, all of them at the de-initialisation; a channel between host
addresses leaves them to the caller. -/
structure DxeCCB.Owned (ccb : DxeCCB) (pc : Option FramePc) (present : Bool) : Prop where
  notOverwritten : ∀ current pos, pc = some current → current.target ccb = some pos →
    (ccb.desc pos).valid = false
  released : ccb.xfrType = .hostToBmu → ccb.released <+: ccb.buffers
  releasedAll : ccb.xfrType = .hostToBmu → present = false → ccb.released = ccb.buffers
  keptByCaller : ccb.xfrType = .hostToHost → ccb.released = []

/-- The frames reach the engine in their order, and a descriptor is valid only with
a frame that the engine has not read. -/
structure DxeCCB.InOrder (ccb : DxeCCB) : Prop where
  order : ccb.transferred <+: ccb.accepted
  given : ∀ pos < ccb.nDescs, (ccb.desc pos).valid = true → ∃ k,
    ccb.transferred.length ≤ k ∧ k % ccb.nDescs = pos ∧
      ccb.accepted[k]? = some (ccb.desc pos).transfer

theorem HalDxe.Sound.owned (sound : hal.Sound) {channel : Nat}
    (configured : (hal.channels channel).chConfigured = true) :
    (hal.channels channel).Owned (hal.pcOn channel) hal.present where
  notOverwritten := (sound.staged channel configured).target
  released := by
    intro toBmu
    cases present : hal.present with
    | true =>
        have freed := sound.freed present channel configured
        rw [freed.toBmu toBmu, ← freed.stages_filter]
        exact (List.take_prefix _ _).filter _
    | false =>
        rw [(sound.emptied present channel configured).toBmu toBmu]
  releasedAll := fun toBmu gone => (sound.emptied gone channel configured).toBmu toBmu
  keptByCaller := by
    intro toHost
    cases present : hal.present with
    | true => exact (sound.freed present channel configured).toHost toHost
    | false => exact (sound.emptied present channel configured).toHost toHost

/-- In every state of every run of calls, engine steps and configurations each
channel owns its buffers as it should, and if the workaround has found valid
descriptors only, the frames are in order. -/
theorem frames_owned_and_ordered (descBase dxeHaltCount : UInt32)
    (actions : List HalDxe.Action)
    (run : Runs.exec HalDxe.step (ntNdxeInit descBase dxeHaltCount) actions = some last)
    (channel : Nat) (configured : (last.channels channel).chConfigured = true)
    (transmits : (last.channels channel).Transmits) :
    (last.channels channel).Owned (last.pcOn channel) last.present ∧
      (Runs.Meets HalDxe.step HalDxe.WarFindsValid (ntNdxeInit descBase dxeHaltCount) actions →
        (last.channels channel).InOrder) := by
  have start := HalDxe.Sound.init descBase dxeHaltCount
  have sound := Runs.invariant_always HalDxe.Sound.step start run
  refine ⟨sound.owned configured, fun finds => ?_⟩
  have keeps : ∀ hal action next, HalDxe.Sound hal ∧ HalDxe.AllOrdered hal →
      HalDxe.WarFindsValid hal action → HalDxe.step hal action = some next →
      next.Sound ∧ next.AllOrdered := by
    rintro hal action next ⟨before, ordered⟩ holds stepped
    exact ⟨HalDxe.Sound.step hal action next before stepped, ordered.step before holds stepped⟩
  have both := Runs.invariant keeps ⟨start, nofun⟩ finds run
  obtain ⟨armed, ordered⟩ := both.2 channel configured transmits
  exact ⟨ordered.order, fun pos below valid => ordered.given below valid⟩

end Runs

section Cases

instance (ccb : DxeCCB) : ∀ pc, Decidable (ccb.WarFindsValid pc)
  | .warRead i pos => inferInstanceAs (Decidable (i < ccb.nDescs → (ccb.desc pos).valid = true))
  | .readCtrl => inferInstanceAs (Decidable True)
  | .fill => inferInstanceAs (Decidable True)
  | .enable _ => inferInstanceAs (Decidable True)
  | .readDescl => inferInstanceAs (Decidable True)
  | .warSet _ _ => inferInstanceAs (Decidable True)
  | .warEnd => inferInstanceAs (Decidable True)

instance (hal : HalDxe) (action : HalDxe.Action) : Decidable (hal.WarFindsValid action) :=
  match action with
  | .exec _ =>
      match isCall : hal.call with
      | some call =>
          decidable_of_iff ((hal.channels call.channel).WarFindsValid call.pc)
            (by simp [HalDxe.WarFindsValid, isCall])
      | none => isTrue (by simp [HalDxe.WarFindsValid, isCall])
  | .config _ _ _ => inferInstanceAs (Decidable True)
  | .submit _ _ => inferInstanceAs (Decidable True)
  | .engine _ => inferInstanceAs (Decidable True)
  | .suspend _ => inferInstanceAs (Decidable True)
  | .deinit => inferInstanceAs (Decidable True)

def noRxAlloc : RxAlloc := ⟨fun _ => 0, 0⟩

/-- A channel to the BMU with two descriptors. -/
def txCfg : DxeChannelCfg := ⟨2, 6, .hostToBmu, 4, 3, .pbuf, true⟩

/-- The channel for writes to the RRAM, as `nt_rram__dxe_config` has it. -/
def rramCfg : DxeChannelCfg := ⟨3, 6, .hostToHost, 4, 3, .heap, false⟩

/-- A frame that finds a free descriptor. -/
def sendFrame (channel : Nat) (args : FrameArgs) : List HalDxe.Action :=
  [.submit channel args, .exec 0, .exec 0, .exec 0]

/-- Three frames on a channel with two descriptors, and the de-initialisation. -/
def threeFrames : List HalDxe.Action :=
  [HalDxe.Action.config 0 txCfg noRxAlloc] ++ sendFrame 0 ⟨0x1000, 64, 0⟩ ++
    sendFrame 0 ⟨0x2000, 64, 0⟩ ++ [HalDxe.Action.engine 0] ++ sendFrame 0 ⟨0x3000, 64, 0⟩ ++
    [HalDxe.Action.engine 0, HalDxe.Action.deinit]

theorem three_frames_owned_and_ordered :
    ∃ last, Runs.exec HalDxe.step (ntNdxeInit 0x20000 0) threeFrames = some last ∧
      (last.channels 0).released = [0x1000, 0x2000, 0x3000] ∧
      (last.channels 0).Owned (last.pcOn 0) last.present ∧ (last.channels 0).InOrder := by
  refine ⟨_, rfl, by decide, ?_⟩
  have holds := frames_owned_and_ordered 0x20000 0 threeFrames rfl 0 (by decide) (Or.inl rfl)
  exact ⟨holds.1, holds.2 (by decide)⟩

/-- A write to the RRAM and the de-initialisation: the driver has accepted the buffer
and does not free it. -/
theorem host_frame_is_not_released :
    ∃ last, Runs.exec HalDxe.step (ntNdxeInit 0x20000 0)
        ([HalDxe.Action.config 7 rramCfg noRxAlloc] ++ sendFrame 7 ⟨0x1000, 16, 0x208000⟩ ++
          [HalDxe.Action.engine 7, HalDxe.Action.deinit]) = some last ∧
      last.present = false ∧ last.results = [.success] ∧
      (last.channels 7).accepted = [⟨0x1000, 16, 0x208000⟩] ∧
      (last.channels 7).released = [] :=
  ⟨_, rfl, by decide, by decide, by decide, by decide⟩

/-- A frame that finds the ring full is counted, and nothing else happens. -/
theorem refused_frame {hal : HalDxe} {channel : Nat} {args : FrameArgs}
    (present : hal.present = true) (idle : hal.call = none)
    (passes : hal.check channel args = none)
    (full : ((hal.channels channel).desc (hal.channels channel).pRingFreeHead).valid = true)
    (few : hal.dxeHaltCount + 1 < dxeHaltLimit) (descl : UInt32) :
    Runs.exec HalDxe.step hal [.submit channel args, .exec descl] =
      some { hal with
        dxeHaltCount := hal.dxeHaltCount + 1
        results := hal.results ++ [.noFreeDesc] } := by
  have started : hal.step (.submit channel args) =
      some { hal with call := some ⟨channel, args, .readCtrl⟩ } := by
    rw [HalDxe.step, if_pos present]
    simp only [idle, Option.isNone_none, if_true, HalDxe.ntNdxeWriteFrameToTransfer, passes]
  have refused : HalDxe.step { hal with call := some ⟨channel, args, .readCtrl⟩ } (.exec descl) =
      some { hal with
        dxeHaltCount := hal.dxeHaltCount + 1
        results := hal.results ++ [.noFreeDesc] } := by
    rw [HalDxe.step, if_pos present]
    simp only [HalDxe.exec, DxeCCB.exec, if_pos full, if_pos few, Function.update_eq_self, ← idle]
  rw [Runs.exec, started, Option.bind_some, Runs.exec, refused]
  rfl

/-- Frames that find the ring full. -/
def refusedFrames (count channel : Nat) (args : FrameArgs) : List HalDxe.Action :=
  (List.replicate count [.submit channel args, .exec 0]).flatten

theorem refused_frames {channel : Nat} {args : FrameArgs} (count : Nat) :
    ∀ {hal : HalDxe}, hal.present = true → hal.call = none → hal.check channel args = none →
      ((hal.channels channel).desc (hal.channels channel).pRingFreeHead).valid = true →
      hal.dxeHaltCount.toNat + count < 100 →
      Runs.exec HalDxe.step hal (refusedFrames count channel args) =
        some { hal with
          dxeHaltCount := hal.dxeHaltCount + UInt32.ofNat count
          results := hal.results ++ List.replicate count .noFreeDesc } := by
  induction count with
  | zero =>
      intro hal _ _ _ _ _
      rw [show UInt32.ofNat 0 = 0 from rfl, UInt32.add_zero, List.replicate_zero, List.append_nil]
      rfl
  | succ count ih =>
      intro hal present idle passes full few
      have one : (1 : UInt32).toNat = 1 := rfl
      have next : (hal.dxeHaltCount + 1).toNat = hal.dxeHaltCount.toNat + 1 := by
        rw [UInt32.toNat_add, one]
        exact Nat.mod_eq_of_lt (by omega)
      have below : hal.dxeHaltCount + 1 < dxeHaltLimit := by
        rw [UInt32.lt_iff_toNat_lt, next]
        exact (by omega : hal.dxeHaltCount.toNat + 1 < 100)
      have split : refusedFrames (count + 1) channel args =
          [HalDxe.Action.submit channel args, .exec 0] ++ refusedFrames count channel args := rfl
      have rest := @ih { hal with
        dxeHaltCount := hal.dxeHaltCount + 1
        results := hal.results ++ [.noFreeDesc] } present idle passes full (by
          show (hal.dxeHaltCount + 1).toNat + count < 100
          omega)
      have sum : hal.dxeHaltCount + 1 + UInt32.ofNat count =
          hal.dxeHaltCount + UInt32.ofNat (count + 1) := by
        rw [UInt32.add_assoc, UInt32.add_comm 1, UInt32.ofNat_add]
        rfl
      rw [split, Runs.exec_append, refused_frame present idle passes full below 0,
        Option.bind_some, rest, sum, List.append_assoc, List.singleton_append,
        List.replicate_succ]

/-- A channel with two descriptors, both with a frame. -/
def fillRing : List HalDxe.Action :=
  [HalDxe.Action.config 0 txCfg noRxAlloc] ++ sendFrame 0 ⟨0x1000, 64, 0⟩ ++
    sendFrame 0 ⟨0x2000, 64, 0⟩

def fullRing : HalDxe :=
  (Runs.exec HalDxe.step (ntNdxeInit 0x20000 0) fillRing).getD (ntNdxeInit 0x20000 0)

/-- The hundredth frame that finds the ring full.  The engine finishes the first
descriptor when the call has found it valid, so that the workaround gives it to the
engine again. -/
def racingWorkaround : List HalDxe.Action :=
  [.submit 0 ⟨0x3000, 64, 0⟩, .exec 0, .engine 0, .exec 0x20020, .exec 0, .exec 0, .exec 0,
    .exec 0, .exec 0, .engine 0, .engine 0]

/-- The first frame is transferred twice. -/
theorem workaround_gives_unfilled_descriptor :
    ∃ last, Runs.exec HalDxe.step (ntNdxeInit 0x20000 0)
        (fillRing ++ (refusedFrames 99 0 ⟨0x3000, 64, 0⟩ ++ racingWorkaround)) = some last ∧
      (last.channels 0).accepted.map Transfer.srcMemAddrL = [0x1000, 0x2000] ∧
      (last.channels 0).transferred.map Transfer.srcMemAddrL = [0x1000, 0x2000, 0x1000] ∧
      ¬ (last.channels 0).InOrder := by
  have filled : Runs.exec HalDxe.step (ntNdxeInit 0x20000 0) fillRing = some fullRing := rfl
  have refused := @refused_frames 0 ⟨0x3000, 64, 0⟩ 99 fullRing rfl rfl (by decide) (by decide)
    (by decide)
  have frames : (Runs.exec HalDxe.step { fullRing with
        dxeHaltCount := fullRing.dxeHaltCount + UInt32.ofNat 99
        results := fullRing.results ++ List.replicate 99 .noFreeDesc } racingWorkaround).map
      (fun last => ((last.channels 0).accepted.map Transfer.srcMemAddrL,
        (last.channels 0).transferred.map Transfer.srcMemAddrL)) =
      some ([0x1000, 0x2000], [0x1000, 0x2000, 0x1000]) := by
    decide +kernel
  obtain ⟨last, run, isLast⟩ := Option.map_eq_some_iff.mp frames
  obtain ⟨accepted, transferred⟩ := Prod.mk.inj isLast
  refine ⟨last, ?_, accepted, transferred, ?_⟩
  · rw [Runs.exec_append, filled, Option.bind_some, Runs.exec_append, refused, Option.bind_some,
      run]
  · intro inOrder
    have le := inOrder.order.length_le
    have three := congrArg List.length transferred
    have two := congrArg List.length accepted
    rw [List.length_map] at three two
    rw [three, two] at le
    exact absurd le (by decide)

end Cases

end QHal.Dxe
