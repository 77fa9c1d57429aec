/-
Module: QHal.Proofs.DxeRing
Purpose: The ring of a DXE channel.  Which staging buffers its descriptors hold and
  which were freed, whatever the workaround for a stalled engine does; and, as long
  as the workaround finds no descriptor the engine has finished, which descriptors
  the engine owns and with which frames.
Trusted boundary: none
Main exports: FrameMoves, exec_moves, DxeCCB.Staged, DxeCCB.Freed, DxeCCB.Accepts
-/
import QHal.Dxe.HalDxe
import QHal.Lib.Circular

namespace QHal.Dxe

theorem valid_or (ctrl : UInt32) :
    ((ctrl ||| ntDxeDescCtrlValid) &&& ntDxeDescCtrlValid != 0) = true := by
  have bit : (ctrl ||| 1) &&& 1 = 1 := by
    apply UInt32.toNat_inj.mp
    rw [UInt32.toNat_and, UInt32.toNat_or]
    show (ctrl.toNat ||| 1) &&& 1 = 1
    rw [Nat.and_or_distrib_right, Nat.and_one_is_mod]
    rcases Nat.mod_two_eq_zero_or_one ctrl.toNat with even | odd
    · rw [even]
      rfl
    · rw [odd]
      rfl
  rw [ntDxeDescCtrlValid, bit]
  rfl

theorem valid_clear (ctrl : UInt32) :
    ((ctrl &&& ~~~ntDxeDescCtrlValid) &&& ntDxeDescCtrlValid != 0) = false := by
  rw [UInt32.and_assoc, UInt32.not_and_self, UInt32.and_zero]
  rfl

/-- The control word of a filled descriptor has the bit. -/
theorem cwCtrlValid_valid (cfg : DxeChannelCfg) :
    (cfg.cwCtrlValid &&& ntDxeDescCtrlValid != 0) = true :=
  valid_or _

section SetCtrl

variable (ccb : DxeCCB) (pos j : Nat) (ctrl : UInt32)

theorem setCtrl_desc : (ccb.setCtrl pos ctrl).desc j =
    if j = pos then { ccb.desc pos with ctrl := ctrl } else ccb.desc j :=
  Function.update_apply ..

@[simp] theorem setCtrl_stagingBuffer :
    ((ccb.setCtrl pos ctrl).desc j).stagingBuffer = (ccb.desc j).stagingBuffer := by
  rw [setCtrl_desc]
  split_ifs with same
  · rw [same]
  · rfl

@[simp] theorem setCtrl_transfer :
    ((ccb.setCtrl pos ctrl).desc j).transfer = (ccb.desc j).transfer := by
  rw [setCtrl_desc]
  split_ifs with same
  · rw [same]
  · rfl

theorem setCtrl_valid_self : ((ccb.setCtrl pos ctrl).desc pos).valid =
    (ctrl &&& ntDxeDescCtrlValid != 0) := by
  rw [setCtrl_desc, if_pos rfl]
  rfl

theorem setCtrl_valid_other (other : j ≠ pos) :
    ((ccb.setCtrl pos ctrl).desc j).valid = (ccb.desc j).valid := by
  rw [setCtrl_desc, if_neg other]

end SetCtrl

/-- Where the call goes on. -/
def FrameStep.pc (step : FrameStep) : Option FramePc :=
  match step.next with
  | .inl pc => some pc
  | .inr _ => none

/-- Everything an access of the call can do to the channel. -/
inductive FrameMoves (ccb : DxeCCB) (args : FrameArgs) :
    FramePc → DxeCCB → Option FramePc → Prop where
  | refused (valid : (ccb.desc ccb.pRingFreeHead).valid = true) :
      FrameMoves ccb args .readCtrl ccb none
  | stalled (valid : (ccb.desc ccb.pRingFreeHead).valid = true) :
      FrameMoves ccb args .readCtrl ccb (some .readDescl)
  | free (invalid : (ccb.desc ccb.pRingFreeHead).valid = false) :
      FrameMoves ccb args .readCtrl ccb (some .fill)
  | fill : FrameMoves ccb args .fill (ccb.fill args) (some (.enable ccb.pRingFreeHead))
  | enable (pos : Nat) : FrameMoves ccb args (.enable pos) (ccb.ndxeEnableDxeDesc pos) none
  | skip : FrameMoves ccb args .readDescl ccb (some .warEnd)
  | walk : FrameMoves ccb args .readDescl ccb (some (.warRead 0 ccb.pRingFreeHead))
  | kept (i pos : Nat) (valid : (ccb.desc pos).valid = true) :
      FrameMoves ccb args (.warRead i pos) ccb (some (.warRead (i + 1) (ccb.next pos)))
  | found (i pos : Nat) (below : i < ccb.nDescs) (invalid : (ccb.desc pos).valid = false) :
      FrameMoves ccb args (.warRead i pos) ccb (some (.warSet i pos))
  | walked (i pos : Nat) : FrameMoves ccb args (.warRead i pos) ccb (some .warEnd)
  | set (i pos : Nat) :
      FrameMoves ccb args (.warSet i pos)
        (ccb.setCtrl pos ((ccb.desc pos).ctrl ||| ntDxeDescCtrlValid))
        (some (.warRead (i + 1) (ccb.next pos)))
  | finish : FrameMoves ccb args .warEnd ccb none

theorem exec_moves (ccb : DxeCCB) (args : FrameArgs) (dxeHaltCount descl : UInt32)
    (current : FramePc) :
    FrameMoves ccb args current (ccb.exec dxeHaltCount args descl current).ccb
      (ccb.exec dxeHaltCount args descl current).pc := by
  cases current with
  | readCtrl =>
      simp only [DxeCCB.exec]
      split_ifs with valid few
      · exact .refused valid
      · exact .stalled valid
      · exact .free (Bool.eq_false_iff.mpr valid)
  | fill => exact .fill
  | enable pos => exact .enable pos
  | readDescl =>
      simp only [DxeCCB.exec]
      split_ifs
      · exact .skip
      · exact .skip
      · exact .walk
  | warRead i pos =>
      simp only [DxeCCB.exec]
      split_ifs with below valid
      · exact .kept i pos valid
      · exact .found i pos below (Bool.eq_false_iff.mpr valid)
      · exact .walked i pos
  | warSet i pos => exact .set i pos
  | warEnd => exact .finish

/-- The descriptor the call is about to write for its frame. -/
def FramePc.target (ccb : DxeCCB) : FramePc → Option Nat
  | .fill => some ccb.pRingFreeHead
  | .enable pos => some pos
  | _ => none

/-- The buffers in the order in which the descriptors get them. -/
def DxeCCB.stages (ccb : DxeCCB) : List UInt32 :=
  ccb.initial ++ ccb.accepted.map Transfer.srcMemAddrL

/-- The free head counts the accepted frames, the descriptors from it on hold the
last buffers, and a call writes its frame into a descriptor that is not valid. -/
structure DxeCCB.Staged (ccb : DxeCCB) (pc : Option FramePc) : Prop where
  count_pos : 0 < ccb.nDescs
  head : ccb.pRingFreeHead = ccb.accepted.length % ccb.nDescs
  initial : ccb.initial.length = ccb.nDescs
  cwValid : (ccb.cwCtrlValid &&& ntDxeDescCtrlValid != 0) = true
  staged : ∀ i < ccb.nDescs, ccb.stages[ccb.accepted.length + i]? =
    some (ccb.desc ((ccb.accepted.length + i) % ccb.nDescs)).stagingBuffer
  target : ∀ current pos, pc = some current → current.target ccb = some pos →
    (ccb.desc pos).valid = false

/-- A channel to the BMU has freed the buffers that made room for others; a channel
to the host has freed none. -/
structure DxeCCB.Freed (ccb : DxeCCB) : Prop where
  nonnull : ∀ transfer ∈ ccb.accepted, transfer.srcMemAddrL ≠ 0
  toBmu : ccb.xfrType = .hostToBmu →
    ccb.released = (ccb.stages.take ccb.accepted.length).filter (· ≠ 0)
  toHost : ccb.xfrType = .hostToHost → ccb.released = []

/-- A channel that frames can be written to. -/
def DxeCCB.Transmits (ccb : DxeCCB) : Prop :=
  ccb.xfrType = .hostToBmu ∨ ccb.xfrType = .hostToHost

/-- The channel and the arguments of a call that has passed the checks. -/
structure DxeCCB.Accepts (ccb : DxeCCB) (args : FrameArgs) : Prop where
  configured : ccb.chConfigured = true
  transmits : ccb.Transmits
  frame : args.frame ≠ 0
  dst : ccb.xfrType = .hostToHost → args.h2hdst ≠ 0

section Staged

variable {ccb : DxeCCB} {pc : Option FramePc} {args : FrameArgs}

theorem DxeCCB.stages_length (staged : ccb.Staged pc) :
    ccb.stages.length = ccb.nDescs + ccb.accepted.length := by
  rw [DxeCCB.stages, List.length_append, staged.initial, List.length_map]

@[simp] theorem fill_stages (ccb : DxeCCB) (args : FrameArgs) :
    (ccb.fill args).stages = ccb.stages ++ [args.frame] := by
  show ccb.initial ++ (ccb.accepted ++ [ccb.transferOf args]).map Transfer.srcMemAddrL = _
  rw [List.map_append, ← List.append_assoc]
  rfl

theorem fill_desc_head (ccb : DxeCCB) (args : FrameArgs) :
    (ccb.fill args).desc ccb.pRingFreeHead = { ccb.desc ccb.pRingFreeHead with
      transfer := ccb.transferOf args
      stagingBuffer := args.frame } :=
  Function.update_self ..

theorem fill_desc_other (ccb : DxeCCB) (args : FrameArgs) {j : Nat}
    (other : j ≠ ccb.pRingFreeHead) : (ccb.fill args).desc j = ccb.desc j :=
  Function.update_of_ne other ..

@[simp] theorem fill_valid (ccb : DxeCCB) (args : FrameArgs) (j : Nat) :
    ((ccb.fill args).desc j).valid = (ccb.desc j).valid := by
  by_cases same : j = ccb.pRingFreeHead
  · rw [same, fill_desc_head]
    rfl
  · rw [fill_desc_other ccb args same]

@[simp] theorem fill_accepted_length (ccb : DxeCCB) (args : FrameArgs) :
    (ccb.fill args).accepted.length = ccb.accepted.length + 1 :=
  List.length_append ..

/-- The descriptor at the free head takes a frame. -/
theorem DxeCCB.Staged.fill (staged : ccb.Staged (some .fill)) :
    (ccb.fill args).Staged (some (.enable ccb.pRingFreeHead)) where
  count_pos := staged.count_pos
  head := by
    show (ccb.pRingFreeHead + 1) % ccb.nDescs = (ccb.fill args).accepted.length % ccb.nDescs
    rw [fill_accepted_length, staged.head]
    exact Circular.index_next _ _
  initial := staged.initial
  cwValid := staged.cwValid
  staged := by
    intro i below
    have length := DxeCCB.stages_length staged
    have count : (ccb.fill args).nDescs = ccb.nDescs := rfl
    rw [fill_accepted_length, fill_stages, count]
    rw [count] at below
    by_cases last : i + 1 = ccb.nDescs
    · have index : ccb.accepted.length + 1 + i = ccb.accepted.length + ccb.nDescs := by omega
      rw [index, Nat.add_mod_right, ← staged.head, fill_desc_head,
        List.getElem?_append_right (by omega)]
      have zero : ccb.accepted.length + ccb.nDescs - ccb.stages.length = 0 := by omega
      rw [zero]
      rfl
    · have index : ccb.accepted.length + 1 + i = ccb.accepted.length + (i + 1) := by omega
      have other : (ccb.accepted.length + (i + 1)) % ccb.nDescs ≠ ccb.pRingFreeHead := by
        rw [staged.head]
        exact (Circular.index_ne (by omega) (by omega)).symm
      rw [index, fill_desc_other ccb args other, List.getElem?_append_left (by omega)]
      exact staged.staged (i + 1) (by omega)
  target := by
    rintro current pos ⟨⟩ ⟨⟩
    rw [fill_valid]
    exact staged.target .fill ccb.pRingFreeHead rfl rfl

/-- A change of a control word that leaves the target of the call alone. -/
theorem DxeCCB.Staged.ctrl {after : DxeCCB} {pc' : Option FramePc} (staged : ccb.Staged pc)
    (count : after.nDescs = ccb.nDescs) (head : after.pRingFreeHead = ccb.pRingFreeHead)
    (accepted : after.accepted = ccb.accepted) (initial : after.initial = ccb.initial)
    (cw : after.cwCtrlValid = ccb.cwCtrlValid)
    (buffers : ∀ j, (after.desc j).stagingBuffer = (ccb.desc j).stagingBuffer)
    (target : ∀ current pos, pc' = some current → current.target after = some pos →
      (after.desc pos).valid = false) : after.Staged pc' where
  count_pos := by rw [count]; exact staged.count_pos
  head := by rw [head, accepted, count]; exact staged.head
  initial := by rw [initial, count]; exact staged.initial
  cwValid := by rw [cw]; exact staged.cwValid
  staged := by
    intro i below
    rw [count] at below
    rw [DxeCCB.stages, initial, accepted, count, buffers]
    exact staged.staged i below
  target := target

theorem DxeCCB.Staged.goto (staged : ccb.Staged pc) {pc' : Option FramePc}
    (target : ∀ current pos, pc' = some current → current.target ccb = some pos →
      (ccb.desc pos).valid = false) : ccb.Staged pc' :=
  staged.ctrl rfl rfl rfl rfl rfl (fun _ => rfl) target

/-- Every access of the call keeps the ring. -/
theorem DxeCCB.Staged.exec {current : FramePc} {after : DxeCCB} {pc' : Option FramePc}
    (staged : ccb.Staged (some current)) (moves : FrameMoves ccb args current after pc') :
    after.Staged pc' := by
  cases moves with
  | refused valid => exact staged.goto nofun
  | stalled valid => exact staged.goto (by rintro _ _ ⟨⟩ ⟨⟩)
  | free invalid =>
      refine staged.goto ?_
      rintro _ _ ⟨⟩ ⟨⟩
      exact invalid
  | fill => exact staged.fill
  | enable pos =>
      exact staged.ctrl rfl rfl rfl rfl rfl (setCtrl_stagingBuffer ccb pos · _) nofun
  | skip => exact staged.goto (by rintro _ _ ⟨⟩ ⟨⟩)
  | walk => exact staged.goto (by rintro _ _ ⟨⟩ ⟨⟩)
  | kept i pos valid => exact staged.goto (by rintro _ _ ⟨⟩ ⟨⟩)
  | found i pos below invalid => exact staged.goto (by rintro _ _ ⟨⟩ ⟨⟩)
  | walked i pos => exact staged.goto (by rintro _ _ ⟨⟩ ⟨⟩)
  | set i pos =>
      exact staged.ctrl rfl rfl rfl rfl rfl (setCtrl_stagingBuffer ccb pos · _)
        (by rintro _ _ ⟨⟩ ⟨⟩)
  | finish => exact staged.goto nofun

/-- What the engine does to a descriptor. -/
theorem engine_cases {after : DxeCCB} (stepped : ccb.engine = some after) :
    (ccb.desc ccb.enginePos).valid = true ∧
      after = { ccb.setCtrl ccb.enginePos
          ((ccb.desc ccb.enginePos).ctrl &&& ~~~ntDxeDescCtrlValid) with
        enginePos := ccb.next ccb.enginePos
        transferred := ccb.transferred ++ [(ccb.desc ccb.enginePos).transfer] } := by
  unfold DxeCCB.engine at stepped
  simp only at stepped
  split_ifs at stepped with valid
  cases stepped
  exact ⟨valid, rfl⟩

theorem DxeCCB.Staged.engine (staged : ccb.Staged pc) {after : DxeCCB}
    (stepped : ccb.engine = some after) : after.Staged pc := by
  obtain ⟨_, rfl⟩ := engine_cases stepped
  refine staged.ctrl rfl rfl rfl rfl rfl (setCtrl_stagingBuffer ccb _ · _) ?_
  intro current pos isCurrent isTarget
  have before : (ccb.desc pos).valid = false := by
    apply staged.target current pos isCurrent
    cases current <;> exact isTarget
  show ((ccb.setCtrl ccb.enginePos _).desc pos).valid = false
  by_cases same : pos = ccb.enginePos
  · rw [same, setCtrl_valid_self]
    exact valid_clear _
  · rw [setCtrl_valid_other _ _ _ _ same]
    exact before

/-- The lists a step leaves alone. -/
theorem DxeCCB.Freed.keep {after : DxeCCB} (freed : ccb.Freed)
    (xfrType : after.xfrType = ccb.xfrType) (initial : after.initial = ccb.initial)
    (accepted : after.accepted = ccb.accepted) (released : after.released = ccb.released) :
    after.Freed where
  nonnull := by
    rw [accepted]
    exact freed.nonnull
  toBmu := by
    rw [xfrType, released, DxeCCB.stages, initial, accepted]
    exact freed.toBmu
  toHost := by
    rw [xfrType, released]
    exact freed.toHost

/-- The buffer that the frame displaces is freed, unless it was the caller's. -/
theorem DxeCCB.Freed.fill (freed : ccb.Freed) (staged : ccb.Staged pc)
    (accepts : ccb.Accepts args) : (ccb.fill args).Freed where
  nonnull := by
    intro transfer member
    rcases List.mem_append.mp member with old | new
    · exact freed.nonnull transfer old
    · rw [List.mem_singleton.mp new]
      exact accepts.frame
  toBmu := by
    intro toBmu
    have isBmu : ccb.xfrType = .hostToBmu := toBmu
    have noDst : ccb.h2hDstPhysAddr args = 0 := by
      rw [DxeCCB.h2hDstPhysAddr, isBmu]
      rfl
    have displaced := staged.staged 0 staged.count_pos
    rw [Nat.add_zero, ← staged.head] at displaced
    have below : ccb.accepted.length < ccb.stages.length :=
      (List.getElem?_eq_some_iff.mp displaced).1
    have taken : (ccb.stages ++ [args.frame]).take (ccb.accepted.length + 1) =
        ccb.stages.take ccb.accepted.length ++ [(ccb.desc ccb.pRingFreeHead).stagingBuffer] := by
      rw [List.take_append_of_le_length below, List.take_add_one, displaced]
      rfl
    rw [fill_stages, fill_accepted_length, taken, List.filter_append, ← freed.toBmu isBmu]
    simp only [DxeCCB.fill, noDst, if_true]
    by_cases none : (ccb.desc ccb.pRingFreeHead).stagingBuffer = 0
    · simp [none]
    · simp [none]
  toHost := by
    intro toHost
    have isHost : ccb.xfrType = .hostToHost := toHost
    have someDst : ccb.h2hDstPhysAddr args ≠ 0 := by
      rw [DxeCCB.h2hDstPhysAddr, if_pos isHost]
      exact accepts.dst isHost
    have before := freed.toHost isHost
    simp only [DxeCCB.fill, if_neg someDst, ne_eq, not_true_eq_false, if_false]
    exact before

theorem DxeCCB.Freed.exec {current : FramePc} {after : DxeCCB} {pc' : Option FramePc}
    (freed : ccb.Freed) (staged : ccb.Staged pc) (accepts : ccb.Accepts args)
    (moves : FrameMoves ccb args current after pc') : after.Freed := by
  cases moves with
  | fill => exact freed.fill staged accepts
  | enable pos => exact freed.keep rfl rfl rfl rfl
  | set i pos => exact freed.keep rfl rfl rfl rfl
  | refused valid => exact freed
  | stalled valid => exact freed
  | free invalid => exact freed
  | skip => exact freed
  | walk => exact freed
  | kept i pos valid => exact freed
  | found i pos below invalid => exact freed
  | walked i pos => exact freed
  | finish => exact freed

/-- The loop of the de-initialisation frees the buffers that are still staged. -/
theorem DxeCCB.Staged.ringBuffers (staged : ccb.Staged pc) (count i : Nat)
    (whole : i + count = ccb.nDescs) :
    ccb.ringBuffers count ((ccb.accepted.length + i) % ccb.nDescs) =
      (ccb.stages.drop (ccb.accepted.length + i)).filter (· ≠ 0) := by
  have length := DxeCCB.stages_length staged
  induction count generalizing i with
  | zero =>
      rw [List.drop_eq_nil_of_le (by omega)]
      rfl
  | succ count ih =>
      have here := staged.staged i (by omega)
      obtain ⟨below, isBuffer⟩ := List.getElem?_eq_some_iff.mp here
      have next : ccb.next ((ccb.accepted.length + i) % ccb.nDescs) =
          (ccb.accepted.length + (i + 1)) % ccb.nDescs := Circular.index_next _ _
      rw [List.drop_eq_getElem_cons below, isBuffer, DxeCCB.ringBuffers, next,
        ih (i + 1) (by omega)]
      by_cases none : (ccb.desc ((ccb.accepted.length + i) % ccb.nDescs)).stagingBuffer = 0
      · rw [if_neg (not_not.mpr none), List.filter_cons_of_neg (by simpa using none)]
        rfl
      · rw [if_pos none, List.filter_cons_of_pos (by simpa using none)]
        rfl

/-- Behind the de-initialisation every buffer of a channel to the BMU is freed. -/
theorem DxeCCB.Freed.deinit (freed : ccb.Freed) (staged : ccb.Staged pc)
    (configured : ccb.chConfigured = true) (toBmu : ccb.xfrType = .hostToBmu) :
    ccb.deinit.released = ccb.stages.filter (· ≠ 0) := by
  have ring := staged.ringBuffers ccb.nDescs 0 (Nat.zero_add _)
  rw [Nat.add_zero, ← staged.head] at ring
  have notRx : ¬ (ccb.xfrType = .bmuToHost ∧ ccb.rxBuf ≠ 0 ∧ ccb.bufferType = .heap) := by
    rw [toBmu]
    rintro ⟨⟨⟩, _⟩
  have notHost : ccb.xfrType ≠ .hostToHost := by
    rw [toBmu]
    rintro ⟨⟩
  rw [DxeCCB.deinit, if_pos configured]
  simp only [if_neg notRx, if_pos notHost, List.append_nil]
  rw [ring, freed.toBmu toBmu, ← List.filter_append, List.take_append_drop]

end Staged

end QHal.Dxe
