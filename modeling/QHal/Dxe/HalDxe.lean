/-
Module: QHal.Dxe.HalDxe
Purpose: The DXE driver, qhw_support/src/hal_dxe.c: the configuration of a channel
  with its ring of descriptors, nt_ndxe_write_frame_to_transfer with its workaround
  for a stalled engine as a sequence of accesses to the descriptors, the DMA engine,
  and the de-initialisation.
Trusted boundary: the engine takes the valid descriptors of a channel in ring order
  and reads a descriptor only while it is valid; frees and allocations of the
  kernel; the register writes that wake the engine.  The built configuration has
  MEM_CPY_VIA_DXE, CONFIG_QWIFI and DXE_WAR_FOR_DATA_STALL.
Main exports: DxeDesc, DxeCCB, HalDxe, DxeCCB.exec, DxeCCB.engine,
  ntNdxeConfigChannel, ntNdxeDeinit, HalDxe.step
-/
import Mathlib.Logic.Function.Basic

namespace QHal.Dxe

/-- `NT_DXE_TOTAL_DESC_NO`. -/
def ntDxeTotalDescNo : Nat := 60
def ntMaxStagingBufferSizeAmsdu : UInt32 := 3951
def dxeChannelMax : Nat := 12
/-- `NT_DXE_DESC_CTRL_VALID`, which `NT_SA_DXE_DESC_CTRL_VALID` repeats. -/
def ntDxeDescCtrlValid : UInt32 := 1
/-- The refused frames after which the workaround runs. -/
def dxeHaltLimit : UInt32 := 100

/-- The results of `eRet_t` that are returned here. -/
inductive Ret where
  | success | fail | invalidParams | noFreeDesc
deriving Repr, DecidableEq

/-- `NT_DXE_XFR_HOST_TO_HOST` and the others. -/
inductive XfrType where
  | hostToHost | bmuToBmu | hostToBmu | bmuToHost
deriving Repr, DecidableEq

def XfrType.code : XfrType → UInt32
  | .hostToHost => 0
  | .bmuToBmu => 1
  | .hostToBmu => 2
  | .bmuToHost => 3

/-- `e_dxe_buf_type`. -/
inductive BufType where
  | heap | pbuf
deriving Repr, DecidableEq

/-- What the engine is told to transfer. -/
structure Transfer where
  srcMemAddrL : UInt32
  xfrSize : UInt32
  dstMemAddrL : UInt32
deriving Repr, DecidableEq

/-- `DXEDesc_t`, with the staging buffer and the physical address that `DescCB_t`
keeps for it. -/
structure DxeDesc where
  ctrl : UInt32
  transfer : Transfer
  stagingBuffer : UInt32
  physDescAddr : UInt32
deriving Repr, DecidableEq

def DxeDesc.valid (desc : DxeDesc) : Bool := desc.ctrl &&& ntDxeDescCtrlValid != 0

/-- `dxe_channel_cfg_t`. -/
structure DxeChannelCfg where
  nDescs : Nat
  refWQ : UInt32
  xfrType : XfrType
  chPriority : UInt32
  bmuThdSel : UInt32
  bufferType : BufType
  bdPresent : Bool
deriving Repr, DecidableEq

/-- `cw_ctrl_valid`: the control word of a filled descriptor. -/
def DxeChannelCfg.cwCtrlValid (cfg : DxeChannelCfg) : UInt32 :=
  let bdh : UInt32 := if cfg.bdPresent then 0 else 0x10
  let prio := cfg.chPriority <<< 13 &&& 0xE000
  let bmuThdSelMask := cfg.bmuThdSel <<< 9
  let cwCtrlB2h : UInt32 :=
    0x20 ||| 0x6 ||| 0x8 ||| bdh ||| prio ||| bmuThdSelMask ||| 0x100 ||| 0x20000 ||| 0x100000
  let diq : UInt32 := if cfg.xfrType = .hostToHost then 0 else 0x40
  let swap : UInt32 :=
    match cfg.xfrType with
    | .hostToBmu => 0x100000
    | .hostToHost => 0x200000
    | _ => 0
  let cwCtrlH2bh : UInt32 :=
    cfg.xfrType.code <<< 1 ||| diq ||| bdh ||| prio ||| bmuThdSelMask ||| 0x20000 ||| 0x8 ||| swap
  (if cfg.xfrType = .bmuToHost then cwCtrlB2h else cwCtrlH2bh) ||| ntDxeDescCtrlValid

/-- `DxeCCB_t`.  The ring is an array of `nDescs` descriptors, and a pointer into it
a position.  `enginePos` is the engine's place in the ring.  `initial` are the
staging buffers that the descriptors had when the channel was configured,
`accepted` the frames that were taken from the callers, `transferred` those the
engine has read, and `released` the buffers that were freed; no branch reads
these. -/
structure DxeCCB where
  chConfigured : Bool
  chEnabled : Bool
  xfrType : XfrType
  bufferType : BufType
  nDescs : Nat
  refWQ : UInt32
  cwCtrlValid : UInt32
  pRingFreeHead : Nat
  desc : Nat → DxeDesc
  rxBuf : UInt32
  pktCount : UInt32
  pktsAfterSuspend : UInt16
  enginePos : Nat
  initial : List UInt32
  accepted : List Transfer
  transferred : List Transfer
  released : List UInt32

namespace DxeCCB

/-- The position behind `pos`: the last descriptor points back to the first. -/
def next (ccb : DxeCCB) (pos : Nat) : Nat := (pos + 1) % ccb.nDescs

def setCtrl (ccb : DxeCCB) (pos : Nat) (ctrl : UInt32) : DxeCCB :=
  { ccb with desc := Function.update ccb.desc pos { ccb.desc pos with ctrl := ctrl } }

end DxeCCB

/-- The arguments of `nt_ndxe_write_frame_to_transfer` behind the channel. -/
structure FrameArgs where
  frame : UInt32
  length : UInt32
  h2hdst : UInt32
deriving Repr, DecidableEq

/-- Where a call of `nt_ndxe_write_frame_to_transfer` stands: its next access to the
descriptors.  The last four are in the workaround. -/
inductive FramePc where
  | readCtrl
  | fill
  | enable (pos : Nat)
  | readDescl
  | warRead (i pos : Nat)
  | warSet (i pos : Nat)
  | warEnd
deriving Repr, DecidableEq

/-- What an access of the call leaves: the channel, the count of refused frames, and
where the call goes on or what it returns. -/
structure FrameStep where
  ccb : DxeCCB
  dxeHaltCount : UInt32
  next : FramePc ⊕ Ret

namespace DxeCCB

/-- `H2HDstPhysAddr`. -/
def h2hDstPhysAddr (ccb : DxeCCB) (args : FrameArgs) : UInt32 :=
  if ccb.xfrType = .hostToHost then args.h2hdst else 0

/-- What the descriptor is filled with. -/
def transferOf (ccb : DxeCCB) (args : FrameArgs) : Transfer where
  srcMemAddrL := args.frame
  xfrSize := args.length &&& 0x3FFF
  dstMemAddrL := if ccb.h2hDstPhysAddr args ≠ 0 then ccb.h2hDstPhysAddr args else ccb.refWQ

/-- The free descriptor takes the frame, the buffer it held is freed, and the free
head moves on.  The engine does not look at the descriptor meanwhile. -/
def fill (ccb : DxeCCB) (args : FrameArgs) : DxeCCB :=
  let pos := ccb.pRingFreeHead
  let stagingBuf := if ccb.h2hDstPhysAddr args = 0 then (ccb.desc pos).stagingBuffer else 0
  { ccb with
    desc := Function.update ccb.desc pos { ccb.desc pos with
      transfer := ccb.transferOf args
      stagingBuffer := args.frame }
    released := if stagingBuf ≠ 0 then ccb.released ++ [stagingBuf] else ccb.released
    pRingFreeHead := ccb.next pos
    pktCount := ccb.pktCount + 1
    accepted := ccb.accepted ++ [ccb.transferOf args] }

/-- `ndxe_enable_dxe_desc`. -/
def ndxeEnableDxeDesc (ccb : DxeCCB) (pos : Nat) : DxeCCB :=
  { ccb.setCtrl pos ccb.cwCtrlValid with chEnabled := true }

/-- The next access of a call; `descl` is what it reads from the register
`chDXEDesclRegAddr`. -/
def exec (ccb : DxeCCB) (dxeHaltCount : UInt32) (args : FrameArgs) (descl : UInt32) :
    FramePc → FrameStep
  | .readCtrl =>
      if (ccb.desc ccb.pRingFreeHead).valid then
        if dxeHaltCount + 1 < dxeHaltLimit then ⟨ccb, dxeHaltCount + 1, .inr .noFreeDesc⟩
        else ⟨ccb, dxeHaltCount + 1, .inl .readDescl⟩
      else ⟨ccb, 0, .inl .fill⟩
  | .fill => ⟨ccb.fill args, dxeHaltCount, .inl (.enable ccb.pRingFreeHead)⟩
  | .enable pos => ⟨ccb.ndxeEnableDxeDesc pos, dxeHaltCount, .inr .success⟩
  | .readDescl =>
      if ccb.xfrType ≠ .hostToBmu ∧ ccb.xfrType ≠ .bmuToHost then
        ⟨ccb, dxeHaltCount, .inl .warEnd⟩
      else if (ccb.desc ccb.pRingFreeHead).physDescAddr = descl then
        ⟨ccb, dxeHaltCount, .inl .warEnd⟩
      else ⟨ccb, dxeHaltCount, .inl (.warRead 0 ccb.pRingFreeHead)⟩
  | .warRead i pos =>
      if i < ccb.nDescs then
        if (ccb.desc pos).valid then ⟨ccb, dxeHaltCount, .inl (.warRead (i + 1) (ccb.next pos))⟩
        else ⟨ccb, dxeHaltCount, .inl (.warSet i pos)⟩
      else ⟨ccb, dxeHaltCount, .inl .warEnd⟩
  | .warSet i pos =>
      ⟨ccb.setCtrl pos ((ccb.desc pos).ctrl ||| ntDxeDescCtrlValid), dxeHaltCount,
        .inl (.warRead (i + 1) (ccb.next pos))⟩
  | .warEnd => ⟨ccb, 0, .inr .noFreeDesc⟩

/-- The engine reads the next descriptor of the ring, if it is valid, and clears its
bit. -/
def engine (ccb : DxeCCB) : Option DxeCCB :=
  let desc := ccb.desc ccb.enginePos
  if desc.valid then
    some { ccb.setCtrl ccb.enginePos (desc.ctrl &&& ~~~ntDxeDescCtrlValid) with
      enginePos := ccb.next ccb.enginePos
      transferred := ccb.transferred ++ [desc.transfer] }
  else none

/-- The loop of `nt_ndxe_deinit` over the ring: the staging buffers it frees. -/
def ringBuffers (ccb : DxeCCB) : Nat → Nat → List UInt32
  | 0, _ => []
  | count + 1, pos =>
      if (ccb.desc pos).stagingBuffer ≠ 0 then
        (ccb.desc pos).stagingBuffer :: ringBuffers ccb count (ccb.next pos)
      else ringBuffers ccb count (ccb.next pos)

/-- `nt_ndxe_deinit` for one channel. -/
def deinit (ccb : DxeCCB) : DxeCCB :=
  if ccb.chConfigured then
    let spare :=
      if ccb.xfrType = .bmuToHost ∧ ccb.rxBuf ≠ 0 ∧ ccb.bufferType = .heap then [ccb.rxBuf] else []
    let staged :=
      if ccb.xfrType ≠ .hostToHost then ccb.ringBuffers ccb.nDescs ccb.pRingFreeHead else []
    { ccb with released := ccb.released ++ spare ++ staged }
  else ccb

end DxeCCB

/-- A call in progress. -/
structure FrameCall where
  channel : Nat
  args : FrameArgs
  pc : FramePc
deriving Repr, DecidableEq

/-- `HalDxe_t`; `present` is false behind the de-initialisation.  `freeStaging` are
the staging buffers of the descriptors in the free pool, in their order, and
`descBase` is the address of the first descriptor. -/
structure HalDxe where
  present : Bool
  dxeSuspend : Bool
  pFreeDescPoolCount : Nat
  freeStaging : Nat → UInt32
  descBase : UInt32
  channels : Nat → DxeCCB
  dxeHaltCount : UInt32
  call : Option FrameCall
  results : List Ret

/-- What the allocations of a receive channel return, 0 if they fail. -/
structure RxAlloc where
  staging : Nat → UInt32
  rxBuf : UInt32

/-- The first of `count` allocations that fails. -/
def RxAlloc.failed (alloc : RxAlloc) (count : Nat) : Option Nat :=
  (List.range count).find? fun j => alloc.staging j = 0

/-- The fields of a channel that its configuration sets before it takes descriptors. -/
def DxeCCB.applyCfg (ccb : DxeCCB) (cfg : DxeChannelCfg) : DxeCCB :=
  { ccb with
    nDescs := cfg.nDescs
    bufferType := cfg.bufferType
    xfrType := cfg.xfrType
    cwCtrlValid := cfg.cwCtrlValid
    refWQ := cfg.refWQ }

namespace HalDxe

/-- The ring of a channel: the first descriptors of the free pool. -/
def takeRing (hal : HalDxe) (ccb : DxeCCB) (cfg : DxeChannelCfg) (alloc : RxAlloc) : DxeCCB :=
  let first := ntDxeTotalDescNo - hal.pFreeDescPoolCount
  let staging := if cfg.xfrType = .bmuToHost then alloc.staging else hal.freeStaging
  { ccb.applyCfg cfg with
    chConfigured := true
    chEnabled := if cfg.xfrType = .bmuToHost then true else ccb.chEnabled
    pRingFreeHead := 0
    desc := fun pos => {
      ctrl := if cfg.xfrType = .bmuToHost then cfg.cwCtrlValid else 0
      transfer :=
        if cfg.xfrType = .bmuToHost then ⟨cfg.refWQ, 0, alloc.staging pos⟩ else ⟨0, 0, 0⟩
      stagingBuffer := staging pos
      physDescAddr := hal.descBase + 32 * UInt32.ofNat (first + pos) }
    rxBuf :=
      if cfg.xfrType = .bmuToHost ∧ cfg.bufferType = .heap then alloc.rxBuf else ccb.rxBuf
    enginePos := 0
    initial := (List.range cfg.nDescs).map staging
    accepted := []
    transferred := []
    released := [] }

/-- `nt_ndxe_config_channel`. -/
def ntNdxeConfigChannel (hal : HalDxe) (channel : Nat) (cfg : DxeChannelCfg) (alloc : RxAlloc) :
    HalDxe :=
  let ccb := hal.channels channel
  if channel ≥ dxeChannelMax then hal
  else if ccb.chConfigured then hal
  else if cfg.nDescs = 0 ∨ hal.pFreeDescPoolCount < cfg.nDescs then
    { hal with channels := Function.update hal.channels channel (ccb.applyCfg cfg) }
  else
    match if cfg.xfrType = .bmuToHost then alloc.failed cfg.nDescs else none with
    | some j =>
        { hal with
          channels := Function.update hal.channels channel (ccb.applyCfg cfg)
          freeStaging := fun i => if i < j then alloc.staging i else hal.freeStaging i }
    | none =>
        { hal with
          channels := Function.update hal.channels channel (hal.takeRing ccb cfg alloc)
          pFreeDescPoolCount := hal.pFreeDescPoolCount - cfg.nDescs
          freeStaging := fun i => hal.freeStaging (i + cfg.nDescs) }

/-- The checks of `nt_ndxe_write_frame_to_transfer`, in their order. -/
def check (hal : HalDxe) (channel : Nat) (args : FrameArgs) : Option Ret :=
  let ccb := hal.channels channel
  if args.frame = 0 then some .fail
  else if args.length > ntMaxStagingBufferSizeAmsdu then some .fail
  else if args.length = 0 then some .fail
  else if channel ≥ dxeChannelMax then some .fail
  else if ¬ ccb.chConfigured then some .fail
  else if ccb.xfrType ≠ .hostToBmu ∧ ccb.xfrType ≠ .hostToHost then some .fail
  else if ccb.xfrType ≠ .hostToHost ∧ args.frame % 4 ≠ 0 then some .fail
  else if hal.dxeSuspend then some .noFreeDesc
  else if ccb.xfrType = .hostToHost ∧ args.h2hdst = 0 then some .invalidParams
  else none

/-- A call of `nt_ndxe_write_frame_to_transfer` up to its first access.  Only a frame
that comes while the engine is suspended is refused as if no descriptor was free,
and counted. -/
def ntNdxeWriteFrameToTransfer (hal : HalDxe) (channel : Nat) (args : FrameArgs) : HalDxe :=
  match hal.check channel args with
  | none => { hal with call := some ⟨channel, args, .readCtrl⟩ }
  | some ret =>
      let ccb := hal.channels channel
      { hal with
        results := hal.results ++ [ret]
        channels :=
          if ret = .noFreeDesc then
            Function.update hal.channels channel
              { ccb with pktsAfterSuspend := ccb.pktsAfterSuspend + 1 }
          else hal.channels }

/-- The next access of the call in progress. -/
def exec (hal : HalDxe) (descl : UInt32) : Option HalDxe :=
  match hal.call with
  | none => none
  | some ⟨channel, args, pc⟩ =>
      let step := (hal.channels channel).exec hal.dxeHaltCount args descl pc
      let after := { hal with
        channels := Function.update hal.channels channel step.ccb
        dxeHaltCount := step.dxeHaltCount }
      match step.next with
      | .inl pc => some { after with call := some ⟨channel, args, pc⟩ }
      | .inr ret => some { after with call := none, results := hal.results ++ [ret] }

/-- The engine takes a descriptor of a channel. -/
def engine (hal : HalDxe) (channel : Nat) : Option HalDxe :=
  if (hal.channels channel).chConfigured then
    (hal.channels channel).engine.map fun ccb =>
      { hal with channels := Function.update hal.channels channel ccb }
  else none

/-- `nt_ndxe_deinit`. -/
def ntNdxeDeinit (hal : HalDxe) : HalDxe :=
  { hal with
    present := false
    channels := fun channel =>
      if channel < dxeChannelMax then (hal.channels channel).deinit else hal.channels channel }

/-- What can happen next. -/
inductive Action where
  | config (channel : Nat) (cfg : DxeChannelCfg) (alloc : RxAlloc)
  | submit (channel : Nat) (args : FrameArgs)
  | exec (descl : UInt32)
  | engine (channel : Nat)
  | suspend (flag : Bool)
  | deinit

/-- A step of the driver or of the engine.  Calls come one after the other, and the
driver is not de-initialised during a call. -/
def step (hal : HalDxe) (action : Action) : Option HalDxe :=
  if hal.present then
    match action with
    | .config channel cfg alloc => some (hal.ntNdxeConfigChannel channel cfg alloc)
    | .submit channel args =>
        if hal.call.isNone then some (hal.ntNdxeWriteFrameToTransfer channel args) else none
    | .exec descl => hal.exec descl
    | .engine channel => hal.engine channel
    | .suspend flag => some { hal with dxeSuspend := flag }
    | .deinit => if hal.call.isNone then some hal.ntNdxeDeinit else none
  else none

end HalDxe

/-- A cleared `DxeCCB_t`. -/
def clearedCCB : DxeCCB where
  chConfigured := false
  chEnabled := false
  xfrType := .hostToHost
  bufferType := .heap
  nDescs := 0
  refWQ := 0
  cwCtrlValid := 0
  pRingFreeHead := 0
  desc := fun _ => ⟨0, ⟨0, 0, 0⟩, 0, 0⟩
  rxBuf := 0
  pktCount := 0
  pktsAfterSuspend := 0
  enginePos := 0
  initial := []
  accepted := []
  transferred := []
  released := []

/-- The driver behind `nt_ndxe_init`; the count of refused frames is static and
survives a de-initialisation. -/
def ntNdxeInit (descBase dxeHaltCount : UInt32) : HalDxe where
  present := true
  dxeSuspend := false
  pFreeDescPoolCount := ntDxeTotalDescNo
  freeStaging := fun _ => 0
  descBase := descBase
  channels := fun _ => clearedCCB
  dxeHaltCount := dxeHaltCount
  call := none
  results := []

end QHal.Dxe
