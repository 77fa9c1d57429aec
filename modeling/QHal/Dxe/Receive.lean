/-
Module: QHal.Dxe.Receive
Purpose: The receive side of the DXE driver, qhw_support/src/hal_dxe.c:
  nt_ndxe_get_single_received_frame as a sequence of accesses to the descriptors, the engine that
  stores frames meanwhile, the count of pending packets and the reconfiguration before sleep.
Trusted boundary: the engine stores frames in ring order and only in valid descriptors; an
  allocation returns a buffer that nobody has; callers write to a buffer only while they have it.
  The register writes that wake the engine are left out.
Main exports: RxChannel, RxChannel.step, ntDxeGetPendingPktCount, halDxeDescReconfig
-/
import QHal.Dxe.HalDxe

namespace QHal.Dxe

/-! ## Walks over the ring -/

namespace DxeCCB

/-- Whether `nt_dxe_get_pending_pkt_count` counts a descriptor. -/
def counts (ccb : DxeCCB) (desc : DxeDesc) : Bool :=
  match ccb.xfrType with
  | .hostToBmu => desc.ctrl &&& ntDxeDescCtrlValid == 1
  | .bmuToHost => desc.ctrl &&& ntDxeDescCtrlValid == 0
  | _ => false

/-- The loop of `nt_dxe_get_pending_pkt_count`. -/
def pendingLoop (ccb : DxeCCB) : Nat → Nat → Nat → Nat
  | 0, _, count => count
  | more + 1, pos, count =>
      pendingLoop ccb more (ccb.next pos) (if ccb.counts (ccb.desc pos) then count + 1 else count)

/-- `nt_dxe_get_pending_pkt_count`.  `pRingUsedHead` stays where the configuration puts it. -/
def ntDxeGetPendingPktCount (ccb : DxeCCB) : Nat := ccb.pendingLoop ccb.nDescs 0 0

/-- The loop of `hal_dxe_desc_reconfig` over a receive channel: the first descriptor that is not
valid. -/
def finishedFrom (ccb : DxeCCB) : Nat → Nat → Option Nat
  | 0, _ => none
  | more + 1, pos =>
      if (ccb.desc pos).valid then finishedFrom ccb more (ccb.next pos) else some pos

/-- The loop of `hal_dxe_desc_reconfig` over a transmit channel. -/
def clearLoop : Nat → Nat → DxeCCB → DxeCCB
  | 0, _, ccb => ccb
  | more + 1, pos, ccb =>
      let ctrl := (ccb.desc pos).ctrl
      clearLoop more (ccb.next pos)
        (if (ccb.desc pos).valid then ccb.setCtrl pos (ctrl &&& ~~~ntDxeDescCtrlValid) else ccb)

/-- `hal_dxe_desc_reconfig`. -/
def halDxeDescReconfig (ccb : DxeCCB) : DxeCCB :=
  if ¬ ccb.chConfigured then ccb
  else
    match ccb.xfrType with
    | .bmuToHost =>
        match ccb.finishedFrom ccb.nDescs ccb.pRingFreeHead with
        | some pos => { ccb with pRingFreeHead := pos }
        | none => ccb
    | .hostToBmu => clearLoop ccb.nDescs ccb.pRingFreeHead ccb
    | _ => ccb

end DxeCCB

/-! ## A receive channel -/

/-- The results of `nt_ndxe_get_single_received_frame`. -/
inductive RxRet where
  | success | invalidChannel | fail | noPktsAvailable | noMemAvailable
deriving Repr, DecidableEq

/-- Where a call stands: its next access to the descriptors. -/
inductive RxPc where
  | readCtrl
  | take (stagBuff : UInt32)
  | enable (pos : Nat)
deriving Repr, DecidableEq

/-- A channel that receives, with the memory of the buffers.  `frame` is the result parameter of the
call and `held` the network buffers that callers have.  `received` are the frames that the engine
has stored, `delivered` those that calls have returned with, as they were then, and `results` what
the calls returned; no branch reads these. -/
structure RxChannel where
  channel : Nat
  ccb : DxeCCB
  dxeSuspend : Bool
  memory : UInt32 → List UInt8
  held : List UInt32
  call : Option RxPc
  frame : UInt32
  received : List (List UInt8)
  delivered : List (List UInt8)
  results : List RxRet

namespace RxChannel

def staging (rx : RxChannel) (pos : Nat) : UInt32 := (rx.ccb.desc pos).stagingBuffer

/-- The descriptors of the ring have another buffer. -/
def OffRing (rx : RxChannel) (buffer : UInt32) : Prop :=
  ∀ pos < rx.ccb.nDescs, rx.staging pos ≠ buffer

instance (rx : RxChannel) (buffer : UInt32) : Decidable (rx.OffRing buffer) :=
  inferInstanceAs (Decidable (∀ pos < rx.ccb.nDescs, rx.staging pos ≠ buffer))

def ret (rx : RxChannel) (result : RxRet) : RxChannel :=
  { rx with call := none, results := rx.results ++ [result] }

/-- The checks of `nt_ndxe_get_single_received_frame`. -/
def check (rx : RxChannel) : Option RxRet :=
  if rx.channel ≥ dxeChannelMax then some .invalidChannel
  else if ¬ rx.ccb.chConfigured then some .fail
  else if rx.ccb.xfrType ≠ .bmuToHost then some .fail
  else none

/-- A call up to its first access.  A suspended engine is counted, but the call goes on. -/
def ntNdxeGetSingleReceivedFrame (rx : RxChannel) : RxChannel :=
  let rx := { rx with frame := 0 }
  match rx.check with
  | some result => rx.ret result
  | none =>
      { rx with
        ccb :=
          if rx.dxeSuspend then { rx.ccb with pktsAfterSuspend := rx.ccb.pktsAfterSuspend + 1 }
          else rx.ccb
        call := some .readCtrl }

/-- The buffer that takes the place of the frame. -/
def stagBuff (rx : RxChannel) (allocated : UInt32) : UInt32 :=
  match rx.ccb.bufferType with
  | .pbuf => allocated
  | .heap => rx.ccb.rxBuf

/-- The free head moves on, and the descriptor changes its buffer. -/
def takeFrame (rx : RxChannel) (stagBuff : UInt32) : RxChannel :=
  let pos := rx.ccb.pRingFreeHead
  let desc := rx.ccb.desc pos
  let moved := { rx.ccb with pRingFreeHead := rx.ccb.next pos }
  if desc.stagingBuffer = 0 then ret { rx with ccb := moved, frame := 0 } .noMemAvailable
  else
    { rx with
      ccb := { moved with
        desc := Function.update rx.ccb.desc pos { desc with
          stagingBuffer := stagBuff
          transfer := { desc.transfer with
            srcMemAddrL := rx.ccb.refWQ
            dstMemAddrL := stagBuff } }
        rxBuf := if rx.ccb.bufferType = .heap then desc.stagingBuffer else rx.ccb.rxBuf
        pktCount := rx.ccb.pktCount + 1 }
      frame := desc.stagingBuffer
      held := if rx.ccb.bufferType = .heap then rx.held else rx.held ++ [desc.stagingBuffer]
      call := some (.enable pos) }

/-- The next access of a call; `allocated` is what an allocation returns. -/
def exec (rx : RxChannel) (allocated : UInt32) : RxPc → Option RxChannel
  | .readCtrl =>
      if (rx.ccb.desc rx.ccb.pRingFreeHead).valid then some (rx.ret .noPktsAvailable)
      else if rx.ccb.bufferType = .pbuf ∧ allocated ≠ 0 ∧
          ¬ (rx.OffRing allocated ∧ allocated ∉ rx.held) then none
      else if rx.stagBuff allocated = 0 then some (rx.ret .noMemAvailable)
      else some { rx with call := some (.take (rx.stagBuff allocated)) }
  | .take stagBuff => some (rx.takeFrame stagBuff)
  | .enable pos =>
      let done := { rx with
        ccb := rx.ccb.ndxeEnableDxeDesc pos
        delivered := rx.delivered ++ [rx.memory rx.frame] }
      some (done.ret .success)

/-- The engine stores a frame. -/
def engine (rx : RxChannel) (frame : List UInt8) : Option RxChannel :=
  rx.ccb.engine.map fun ccb =>
    { rx with
      ccb
      memory := Function.update rx.memory
        (rx.ccb.desc rx.ccb.enginePos).transfer.dstMemAddrL frame
      received := rx.received ++ [frame] }

/-- A buffer that a call is about to return. -/
def returning (rx : RxChannel) (buffer : UInt32) : Bool :=
  match rx.call with
  | some (.enable _) => buffer == rx.frame
  | _ => false

end RxChannel

/-- What can happen next. -/
inductive RxAction where
  | call
  | exec (allocated : UInt32)
  | engine (frame : List UInt8)
  | free (buffer : UInt32)
  | write (buffer : UInt32) (data : List UInt8)
  | suspend (flag : Bool)
  | reconfig

/-- A step of the driver, of the engine or of a caller.  Calls come one after the other, and the
reconfiguration is not made during one. -/
def RxChannel.step (rx : RxChannel) : RxAction → Option RxChannel
  | .call => if rx.call = none then some rx.ntNdxeGetSingleReceivedFrame else none
  | .exec allocated => rx.call.bind (rx.exec allocated)
  | .engine frame => rx.engine frame
  | .free buffer =>
      if buffer ∈ rx.held ∧ ¬ rx.returning buffer then
        some { rx with held := rx.held.erase buffer }
      else none
  | .write buffer data =>
      if rx.OffRing buffer ∧ ¬ rx.returning buffer then
        some { rx with memory := Function.update rx.memory buffer data }
      else none
  | .suspend flag => some { rx with dxeSuspend := flag }
  | .reconfig =>
      if rx.call = none then some { rx with ccb := rx.ccb.halDxeDescReconfig } else none

/-- A channel behind its configuration. -/
def RxChannel.start (channel : Nat) (ccb : DxeCCB) (memory : UInt32 → List UInt8) : RxChannel where
  channel := channel
  ccb := ccb
  dxeSuspend := false
  memory := memory
  held := []
  call := none
  frame := 0
  received := []
  delivered := []
  results := []

end QHal.Dxe
