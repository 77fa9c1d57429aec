/-
Module: QHal.Proofs.DxeDriver
Purpose: What a step of the DXE driver or of its engine can do to a channel and to
  the call on it, said once for all actions, and the rings that a configuration
  makes.
Trusted boundary: none
Main exports: HalDxe.pcOn, HalDxe.CallAccepted, ChannelMoves, HalDxe.channel_moves,
  HalDxe.CallAccepted.step, HalDxe.step_present
-/
import QHal.Proofs.DxeOrder

namespace QHal.Dxe

/-- The access that a call is about to make on a channel. -/
def HalDxe.pcOn (hal : HalDxe) (channel : Nat) : Option FramePc :=
  match hal.call with
  | some call => if call.channel = channel then some call.pc else none
  | none => none

/-- The call in progress has passed the checks. -/
def HalDxe.CallAccepted (hal : HalDxe) : Prop :=
  ∀ call, hal.call = some call → (hal.channels call.channel).Accepts call.args

/-- Everything a step can do to a channel and to the call on it. -/
inductive ChannelMoves (channel : Nat) (ccb : DxeCCB) :
    HalDxe.Action → Option FramePc → DxeCCB → Option FramePc → Prop where
  | same (action : HalDxe.Action) (pc : Option FramePc) : ChannelMoves channel ccb action pc ccb pc
  | unconfigured (action : HalDxe.Action) (pc : Option FramePc) (after : DxeCCB)
      (unused : ccb.chConfigured = false) (unusedAfter : after.chConfigured = false) :
      ChannelMoves channel ccb action pc after pc
  | configured (hal : HalDxe) (cfg : DxeChannelCfg) (alloc : RxAlloc)
      (range : channel < dxeChannelMax) (unused : ccb.chConfigured = false)
      (some : cfg.nDescs ≠ 0) :
      ChannelMoves channel ccb (.config channel cfg alloc) none (hal.takeRing ccb cfg alloc) none
  | counted (args : FrameArgs) (pc : Option FramePc) :
      ChannelMoves channel ccb (.submit channel args) pc
        { ccb with pktsAfterSuspend := ccb.pktsAfterSuspend + 1 } pc
  | started (args : FrameArgs) :
      ChannelMoves channel ccb (.submit channel args) none ccb (some .readCtrl)
  | access (descl : UInt32) (args : FrameArgs) (current : FramePc) (after : DxeCCB)
      (pc' : Option FramePc) (accepts : ccb.Accepts args)
      (moves : FrameMoves ccb args current after pc') :
      ChannelMoves channel ccb (.exec descl) (some current) after pc'
  | engine (pc : Option FramePc) (after : DxeCCB) (stepped : ccb.engine = some after) :
      ChannelMoves channel ccb (.engine channel) pc after pc
  | deinit : ChannelMoves channel ccb .deinit none ccb.deinit none

section Moves

variable {hal next : HalDxe}

theorem pcOn_of_ne {channel other : Nat} {args : FrameArgs} {pc : FramePc}
    (isCall : hal.call = some ⟨channel, args, pc⟩) (differ : other ≠ channel) :
    hal.pcOn other = none := by
  rw [HalDxe.pcOn, isCall]
  exact if_neg differ.symm

theorem pcOn_self {channel : Nat} {args : FrameArgs} {pc : FramePc}
    (isCall : hal.call = some ⟨channel, args, pc⟩) : hal.pcOn channel = some pc := by
  rw [HalDxe.pcOn, isCall]
  exact if_pos rfl

theorem pcOn_none (isCall : hal.call = none) (channel : Nat) : hal.pcOn channel = none := by
  rw [HalDxe.pcOn, isCall]

/-- A channel that is not configured has no call on it. -/
theorem HalDxe.CallAccepted.pcOn_unconfigured (accepted : hal.CallAccepted) {channel : Nat}
    (unused : ¬ (hal.channels channel).chConfigured = true) : hal.pcOn channel = none := by
  cases isCall : hal.call with
  | none => exact pcOn_none isCall channel
  | some call =>
      obtain ⟨busy, args, pc⟩ := call
      apply pcOn_of_ne isCall
      rintro rfl
      exact unused (accepted _ isCall).configured

theorem pcOn_congr (call : next.call = hal.call) (channel : Nat) :
    next.pcOn channel = hal.pcOn channel := by
  rw [HalDxe.pcOn, HalDxe.pcOn, call]

/-- A step that replaces one channel. -/
theorem update_moves (hal next : HalDxe) {action : HalDxe.Action} {channel : Nat} {ccb : DxeCCB}
    (channels : next.channels = Function.update hal.channels channel ccb)
    (others : ∀ other ≠ channel, next.pcOn other = hal.pcOn other)
    (moves : ChannelMoves channel (hal.channels channel) action (hal.pcOn channel) ccb
      (next.pcOn channel)) (other : Nat) :
    ChannelMoves other (hal.channels other) action (hal.pcOn other) (next.channels other)
      (next.pcOn other) := by
  rw [channels]
  by_cases same : other = channel
  · subst same
    rw [Function.update_self]
    exact moves
  · rw [Function.update_of_ne same, others other same]
    exact .same _ _

/-- The configuration of a channel refuses, or takes a ring for a channel that is
not in use. -/
theorem config_cases (hal : HalDxe) (channel : Nat) (cfg : DxeChannelCfg) (alloc : RxAlloc) :
    hal.ntNdxeConfigChannel channel cfg alloc = hal ∨
      channel < dxeChannelMax ∧ ¬ (hal.channels channel).chConfigured = true ∧
      ∃ ccb, (ccb.chConfigured = false ∨
          cfg.nDescs ≠ 0 ∧ ccb = hal.takeRing (hal.channels channel) cfg alloc) ∧
        (hal.ntNdxeConfigChannel channel cfg alloc).channels =
          Function.update hal.channels channel ccb ∧
        (hal.ntNdxeConfigChannel channel cfg alloc).call = hal.call ∧
        (hal.ntNdxeConfigChannel channel cfg alloc).present = hal.present := by
  unfold HalDxe.ntNdxeConfigChannel
  simp only
  by_cases range : channel ≥ dxeChannelMax
  · rw [if_pos range]
    exact Or.inl rfl
  rw [if_neg range]
  by_cases used : (hal.channels channel).chConfigured = true
  · rw [if_pos used]
    exact Or.inl rfl
  rw [if_neg used]
  refine Or.inr ⟨Nat.not_le.mp range, used, ?_⟩
  have unused : ((hal.channels channel).applyCfg cfg).chConfigured = false :=
    Bool.eq_false_iff.mpr used
  by_cases short : cfg.nDescs = 0 ∨ hal.pFreeDescPoolCount < cfg.nDescs
  · rw [if_pos short]
    exact ⟨_, Or.inl unused, rfl, rfl, rfl⟩
  · rw [if_neg short]
    cases if cfg.xfrType = .bmuToHost then alloc.failed cfg.nDescs else none with
    | some j => exact ⟨_, Or.inl unused, rfl, rfl, rfl⟩
    | none => exact ⟨_, Or.inr ⟨fun none => short (Or.inl none), rfl⟩, rfl, rfl, rfl⟩

theorem config_moves (accepted : hal.CallAccepted) (channel : Nat) (cfg : DxeChannelCfg)
    (alloc : RxAlloc) (other : Nat) :
    ChannelMoves other (hal.channels other) (.config channel cfg alloc) (hal.pcOn other)
      ((hal.ntNdxeConfigChannel channel cfg alloc).channels other)
      ((hal.ntNdxeConfigChannel channel cfg alloc).pcOn other) := by
  rcases config_cases hal channel cfg alloc with
    refused | ⟨range, unused, ccb, result, channels, call, _⟩
  · rw [refused]
    exact .same _ _
  · refine update_moves hal _ channels (fun other _ => pcOn_congr call other) ?_ other
    rw [pcOn_congr call]
    have before := Bool.eq_false_iff.mpr unused
    rcases result with unusedAfter | ⟨some, rfl⟩
    · exact .unconfigured _ _ _ before unusedAfter
    · rw [accepted.pcOn_unconfigured unused]
      exact .configured hal cfg alloc range before some

/-- A check that was passed. -/
theorem passed_of_ite {failed : Prop} [Decidable failed] {ret : Ret} {rest : Option Ret}
    (passed : (if failed then some ret else rest) = none) : ¬ failed ∧ rest = none := by
  by_cases isFailed : failed
  · rw [if_pos isFailed] at passed
    cases passed
  · rw [if_neg isFailed] at passed
    exact ⟨isFailed, passed⟩

/-- What the checks of a frame have checked. -/
theorem check_none {channel : Nat} {args : FrameArgs} (passed : hal.check channel args = none) :
    (hal.channels channel).Accepts args := by
  unfold HalDxe.check at passed
  obtain ⟨noFrame, passed⟩ := passed_of_ite passed
  obtain ⟨_, passed⟩ := passed_of_ite passed
  obtain ⟨_, passed⟩ := passed_of_ite passed
  obtain ⟨_, passed⟩ := passed_of_ite passed
  obtain ⟨unconfigured, passed⟩ := passed_of_ite passed
  obtain ⟨type, passed⟩ := passed_of_ite passed
  obtain ⟨_, passed⟩ := passed_of_ite passed
  obtain ⟨_, passed⟩ := passed_of_ite passed
  obtain ⟨noDst, _⟩ := passed_of_ite passed
  refine ⟨not_not.mp unconfigured, ?_, noFrame, fun toHost none => noDst ⟨toHost, none⟩⟩
  by_cases toBmu : (hal.channels channel).xfrType = .hostToBmu
  · exact Or.inl toBmu
  · exact Or.inr (not_not.mp fun notHost => type ⟨toBmu, notHost⟩)

/-- A frame passes the checks, or it is refused. -/
theorem submit_cases (hal : HalDxe) (channel : Nat) (args : FrameArgs) :
    (hal.channels channel).Accepts args ∧ hal.ntNdxeWriteFrameToTransfer channel args =
        { hal with call := some ⟨channel, args, .readCtrl⟩ } ∨
      ∃ ccb, (ccb = hal.channels channel ∨
          ccb = { hal.channels channel with
            pktsAfterSuspend := (hal.channels channel).pktsAfterSuspend + 1 }) ∧
        (hal.ntNdxeWriteFrameToTransfer channel args).channels =
          Function.update hal.channels channel ccb ∧
        (hal.ntNdxeWriteFrameToTransfer channel args).call = hal.call ∧
        (hal.ntNdxeWriteFrameToTransfer channel args).present = hal.present := by
  unfold HalDxe.ntNdxeWriteFrameToTransfer
  cases checked : hal.check channel args with
  | none => exact Or.inl ⟨check_none checked, rfl⟩
  | some ret =>
      refine Or.inr ?_
      by_cases suspended : ret = .noFreeDesc
      · exact ⟨_, Or.inr rfl, if_pos suspended, rfl, rfl⟩
      · exact ⟨_, Or.inl rfl, (if_neg suspended).trans (Function.update_eq_self ..).symm, rfl, rfl⟩

theorem submit_moves (idle : hal.call = none) (channel : Nat) (args : FrameArgs) (other : Nat) :
    ChannelMoves other (hal.channels other) (.submit channel args) (hal.pcOn other)
      ((hal.ntNdxeWriteFrameToTransfer channel args).channels other)
      ((hal.ntNdxeWriteFrameToTransfer channel args).pcOn other) := by
  rcases submit_cases hal channel args with ⟨_, passed⟩ | ⟨ccb, result, channels, call, _⟩
  · rw [passed, pcOn_none idle]
    by_cases same : other = channel
    · subst same
      rw [pcOn_self rfl]
      exact .started args
    · rw [pcOn_of_ne rfl same]
      exact .same _ _
  · refine update_moves hal _ channels (fun other _ => pcOn_congr call other) ?_ other
    rw [pcOn_congr call]
    rcases result with rfl | rfl
    · exact .same _ _
    · exact .counted args _

/-- The call on the channel that an access is made on, behind the access. -/
theorem exec_cases {descl : UInt32} (stepped : hal.exec descl = some next) :
    ∃ call, hal.call = some call ∧
      next.channels = Function.update hal.channels call.channel
        ((hal.channels call.channel).exec hal.dxeHaltCount call.args descl call.pc).ccb ∧
      next.call = (((hal.channels call.channel).exec hal.dxeHaltCount call.args descl
        call.pc).pc.map fun pc => ⟨call.channel, call.args, pc⟩) ∧
      next.present = hal.present := by
  unfold HalDxe.exec at stepped
  cases isCall : hal.call with
  | none => simp [isCall] at stepped
  | some call =>
      obtain ⟨channel, args, pc⟩ := call
      refine ⟨⟨channel, args, pc⟩, rfl, ?_⟩
      simp only [isCall] at stepped
      split at stepped
      · rename_i isNext
        cases stepped
        refine ⟨rfl, ?_, rfl⟩
        rw [FrameStep.pc, isNext]
        rfl
      · rename_i isNext
        cases stepped
        refine ⟨rfl, ?_, rfl⟩
        rw [FrameStep.pc, isNext]
        rfl

theorem exec_channel_moves (accepted : hal.CallAccepted) {descl : UInt32}
    (stepped : hal.exec descl = some next) (other : Nat) :
    ChannelMoves other (hal.channels other) (.exec descl) (hal.pcOn other) (next.channels other)
      (next.pcOn other) := by
  obtain ⟨⟨channel, args, pc⟩, isCall, channels, nextCall, _⟩ := exec_cases stepped
  have moves := exec_moves (hal.channels channel) args hal.dxeHaltCount descl pc
  have after : next.pcOn channel =
      ((hal.channels channel).exec hal.dxeHaltCount args descl pc).pc := by
    rw [HalDxe.pcOn, nextCall]
    cases ((hal.channels channel).exec hal.dxeHaltCount args descl pc).pc with
    | none => rfl
    | some pc' => exact if_pos rfl
  refine update_moves hal next channels ?_ ?_ other
  · intro other differ
    rw [pcOn_of_ne isCall differ, HalDxe.pcOn, nextCall]
    cases ((hal.channels channel).exec hal.dxeHaltCount args descl pc).pc with
    | none => rfl
    | some pc' => exact if_neg differ.symm
  · rw [pcOn_self isCall, after]
    exact .access descl args pc _ _ (accepted _ isCall) moves

/-- Every step moves every channel in one of these ways. -/
theorem HalDxe.channel_moves (accepted : hal.CallAccepted) {action : HalDxe.Action}
    (stepped : hal.step action = some next) (channel : Nat) :
    ChannelMoves channel (hal.channels channel) action (hal.pcOn channel) (next.channels channel)
      (next.pcOn channel) := by
  unfold HalDxe.step at stepped
  by_cases present : hal.present = true
  swap
  · rw [if_neg present] at stepped
    cases stepped
  rw [if_pos present] at stepped
  cases action with
  | config target cfg alloc =>
      cases stepped
      exact config_moves accepted target cfg alloc channel
  | submit target args =>
      simp only at stepped
      split_ifs at stepped with idle
      cases stepped
      exact submit_moves (Option.isNone_iff_eq_none.mp idle) target args channel
  | exec descl => exact exec_channel_moves accepted stepped channel
  | engine target =>
      simp only [HalDxe.engine] at stepped
      split_ifs at stepped
      obtain ⟨ccb, engineStep, rfl⟩ := Option.map_eq_some_iff.mp stepped
      exact update_moves hal { hal with channels := Function.update hal.channels target ccb } rfl
        (fun _ _ => rfl) (.engine _ ccb engineStep) channel
  | suspend flag =>
      cases stepped
      exact .same _ _
  | deinit =>
      simp only at stepped
      split_ifs at stepped with idle
      cases stepped
      have free := Option.isNone_iff_eq_none.mp idle
      have freeAfter : hal.ntNdxeDeinit.call = none := free
      rw [pcOn_none free, pcOn_none freeAfter]
      simp only [HalDxe.ntNdxeDeinit]
      split_ifs with inside
      · exact .deinit
      · exact .same _ _

end Moves

section Channel

variable {channel : Nat} {ccb after : DxeCCB} {action : HalDxe.Action}
  {pc pc' : Option FramePc}

/-- The de-initialisation changes the record of the freed buffers only. -/
theorem deinit_eq (ccb : DxeCCB) : ∃ released, ccb.deinit = { ccb with released := released } := by
  unfold DxeCCB.deinit
  by_cases configured : ccb.chConfigured = true
  · rw [if_pos configured]
    exact ⟨_, rfl⟩
  · rw [if_neg configured]
    exact ⟨_, rfl⟩

/-- A configured channel stays configured, with its type. -/
theorem ChannelMoves.keeps_type (moves : ChannelMoves channel ccb action pc after pc')
    (configured : ccb.chConfigured = true) :
    after.chConfigured = true ∧ after.xfrType = ccb.xfrType := by
  cases moves with
  | same => exact ⟨configured, rfl⟩
  | unconfigured _ _ _ unused _ =>
      rw [configured] at unused
      cases unused
  | configured _ _ _ _ unused _ =>
      rw [configured] at unused
      cases unused
  | counted => exact ⟨configured, rfl⟩
  | started => exact ⟨configured, rfl⟩
  | access _ _ _ _ _ _ moves =>
      cases moves with
      | fill => exact ⟨configured, rfl⟩
      | enable pos => exact ⟨configured, rfl⟩
      | set i pos => exact ⟨configured, rfl⟩
      | refused valid => exact ⟨configured, rfl⟩
      | stalled valid => exact ⟨configured, rfl⟩
      | free invalid => exact ⟨configured, rfl⟩
      | skip => exact ⟨configured, rfl⟩
      | walk => exact ⟨configured, rfl⟩
      | kept i pos valid => exact ⟨configured, rfl⟩
      | found i pos below invalid => exact ⟨configured, rfl⟩
      | walked i pos => exact ⟨configured, rfl⟩
      | finish => exact ⟨configured, rfl⟩
  | engine _ _ stepped =>
      obtain ⟨_, rfl⟩ := engine_cases stepped
      exact ⟨configured, rfl⟩
  | deinit =>
      obtain ⟨released, isDeinit⟩ := deinit_eq ccb
      rw [isDeinit]
      exact ⟨configured, rfl⟩

/-- A channel that a step leaves configured was so before, or has a new ring. -/
theorem ChannelMoves.configured_before (moves : ChannelMoves channel ccb action pc after pc')
    (configured : after.chConfigured = true) :
    ccb.chConfigured = true ∨ channel < dxeChannelMax ∧ pc' = none ∧
      ∃ hal cfg alloc, cfg.nDescs ≠ 0 ∧ after = HalDxe.takeRing hal ccb cfg alloc := by
  cases moves with
  | same => exact Or.inl configured
  | unconfigured _ _ _ _ unusedAfter =>
      rw [configured] at unusedAfter
      cases unusedAfter
  | configured hal cfg alloc range _ some =>
      exact Or.inr ⟨range, rfl, hal, cfg, alloc, some, rfl⟩
  | counted => exact Or.inl configured
  | started => exact Or.inl configured
  | access _ _ _ _ _ accepts _ => exact Or.inl accepts.configured
  | engine _ _ stepped =>
      obtain ⟨_, rfl⟩ := engine_cases stepped
      exact Or.inl configured
  | deinit =>
      obtain ⟨released, isDeinit⟩ := deinit_eq ccb
      rw [isDeinit] at configured
      exact Or.inl configured

end Channel

section TakeRing

variable (hal : HalDxe) (ccb : DxeCCB) {cfg : DxeChannelCfg} (alloc : RxAlloc)

theorem takeRing_staged (some : cfg.nDescs ≠ 0) : (hal.takeRing ccb cfg alloc).Staged none where
  count_pos := Nat.pos_of_ne_zero some
  head := (Nat.zero_mod _).symm
  initial := by
    show (List.map _ (List.range cfg.nDescs)).length = cfg.nDescs
    rw [List.length_map, List.length_range]
  cwValid := cwCtrlValid_valid cfg
  staged := by
    intro i below
    have inside : i < cfg.nDescs := below
    have noFrames : (hal.takeRing ccb cfg alloc).accepted.length = 0 := rfl
    have count : (hal.takeRing ccb cfg alloc).nDescs = cfg.nDescs := rfl
    rw [noFrames, Nat.zero_add, count, Nat.mod_eq_of_lt inside, DxeCCB.stages,
      List.getElem?_append_left (by simpa [HalDxe.takeRing] using inside)]
    simp [HalDxe.takeRing, inside]
  target := nofun

theorem takeRing_freed : (hal.takeRing ccb cfg alloc).Freed where
  nonnull := nofun
  toBmu := fun _ => rfl
  toHost := fun _ => rfl

theorem takeRing_ordered (transmits : (hal.takeRing ccb cfg alloc).Transmits) :
    (hal.takeRing ccb cfg alloc).Ordered none 0 where
  count := rfl
  engine := (Nat.zero_mod _).symm
  behind := Nat.le_refl _
  room := Nat.zero_le _
  order := List.prefix_rfl
  held := nofun
  empty := by
    intro k _ _
    have notRx : cfg.xfrType ≠ .bmuToHost := by
      intro isRx
      rcases transmits with toBmu | toHost
      · cases isRx.symm.trans toBmu
      · cases isRx.symm.trans toHost
    simp only [HalDxe.takeRing, if_neg notRx, DxeDesc.valid]
    decide
  fill := nofun
  enable := nofun
  war := nofun

end TakeRing

section Steps

variable {hal next : HalDxe} {action : HalDxe.Action}

/-- The call behind a step is the one before it or has just passed the checks. -/
theorem HalDxe.step_call (accepted : hal.CallAccepted) (stepped : hal.step action = some next)
    {call : FrameCall} (isCall : next.call = some call) :
    (hal.channels call.channel).Accepts call.args := by
  unfold HalDxe.step at stepped
  by_cases present : hal.present = true
  swap
  · rw [if_neg present] at stepped
    cases stepped
  rw [if_pos present] at stepped
  cases action with
  | config channel cfg alloc =>
      cases stepped
      rcases config_cases hal channel cfg alloc with refused | ⟨_, _, _, _, _, same, _⟩
      · rw [refused] at isCall
        exact accepted call isCall
      · rw [same] at isCall
        exact accepted call isCall
  | submit channel args =>
      simp only at stepped
      split_ifs at stepped with idle
      cases stepped
      rcases submit_cases hal channel args with ⟨accepts, passed⟩ | ⟨_, _, _, same, _⟩
      · rw [passed] at isCall
        cases isCall
        exact accepts
      · rw [same, Option.isNone_iff_eq_none.mp idle] at isCall
        cases isCall
  | exec descl =>
      obtain ⟨before, wasCall, _, nextCall, _⟩ := exec_cases stepped
      rw [nextCall] at isCall
      obtain ⟨pc, _, rfl⟩ := Option.map_eq_some_iff.mp isCall
      exact accepted before wasCall
  | engine channel =>
      simp only [HalDxe.engine] at stepped
      split_ifs at stepped
      obtain ⟨ccb, _, rfl⟩ := Option.map_eq_some_iff.mp stepped
      exact accepted call isCall
  | suspend flag =>
      cases stepped
      exact accepted call isCall
  | deinit =>
      simp only at stepped
      split_ifs at stepped
      cases stepped
      exact accepted call isCall

theorem HalDxe.CallAccepted.step (accepted : hal.CallAccepted)
    (stepped : hal.step action = some next) : next.CallAccepted := by
  intro call isCall
  have accepts := HalDxe.step_call accepted stepped isCall
  have moves := HalDxe.channel_moves accepted stepped call.channel
  obtain ⟨configured, sameType⟩ := moves.keeps_type accepts.configured
  refine ⟨configured, ?_, accepts.frame, ?_⟩
  · rw [DxeCCB.Transmits, sameType]
    exact accepts.transmits
  · rw [sameType]
    exact accepts.dst

/-- A step leaves the driver there, or it is the de-initialisation. -/
theorem HalDxe.step_present (stepped : hal.step action = some next) :
    hal.present = true ∧
      (action ≠ .deinit ∧ next.present = true ∨
        action = .deinit ∧ hal.call = none ∧ next = hal.ntNdxeDeinit) := by
  unfold HalDxe.step at stepped
  by_cases present : hal.present = true
  swap
  · rw [if_neg present] at stepped
    cases stepped
  rw [if_pos present] at stepped
  refine ⟨present, ?_⟩
  cases action with
  | config channel cfg alloc =>
      cases stepped
      refine Or.inl ⟨nofun, ?_⟩
      rcases config_cases hal channel cfg alloc with refused | ⟨_, _, _, _, _, _, same⟩
      · rw [refused]
        exact present
      · rw [same]
        exact present
  | submit channel args =>
      simp only at stepped
      split_ifs at stepped with idle
      cases stepped
      refine Or.inl ⟨nofun, ?_⟩
      rcases submit_cases hal channel args with ⟨_, passed⟩ | ⟨_, _, _, _, same⟩
      · rw [passed]
        exact present
      · rw [same]
        exact present
  | exec descl =>
      obtain ⟨_, _, _, _, same⟩ := exec_cases stepped
      exact Or.inl ⟨nofun, same.trans present⟩
  | engine channel =>
      simp only [HalDxe.engine] at stepped
      split_ifs at stepped
      obtain ⟨ccb, _, rfl⟩ := Option.map_eq_some_iff.mp stepped
      exact Or.inl ⟨nofun, present⟩
  | suspend flag =>
      cases stepped
      exact Or.inl ⟨nofun, present⟩
  | deinit =>
      simp only at stepped
      split_ifs at stepped with idle
      cases stepped
      exact Or.inr ⟨rfl, Option.isNone_iff_eq_none.mp idle, rfl⟩

end Steps

end QHal.Dxe
