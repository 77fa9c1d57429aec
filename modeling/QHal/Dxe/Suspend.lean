/-
Module: QHal.Dxe.Suspend
Purpose: hal_dxe_suspend and hal_dxe_resume of qhw_support/src/hal_dxe.c: the pause request in the
  control register, the polls for its effect with their counter, and the flag of the driver.
Trusted boundary: the DMA engine, which presents a value at each read of the control register, and
  the wait for the channels in front of a suspend, which writes nothing
Main exports: DxeControl, waitLoop, halDxeSuspend, halDxeResume, Call, Call.run
-/
import QHal.Dxe.HalDxe

namespace QHal.Dxe

/-- `DXE_MAX_RETRY`. -/
def dxeMaxRetry : Nat := 10
/-- `QWLAN_DXE_0_DMA_CSR_PAUSE_MASK`. -/
def dmaCsrPauseMask : UInt32 := 0x2
/-- `QWLAN_DXE_0_DMA_CSR_PAUSED_MASK`. -/
def dmaCsrPausedMask : UInt32 := 0x4000

/-- The flag of `halDxe` and what was written to the control register, the last value first. -/
structure DxeControl where
  dxeSuspend : UInt8
  csrWrites : List UInt32
deriving Repr, DecidableEq

def DxeControl.write (dxe : DxeControl) (regVal : UInt32) : DxeControl :=
  { dxe with csrWrites := regVal :: dxe.csrWrites }

/-- The last write asks the engine to pause. -/
def DxeControl.pauseRequested (dxe : DxeControl) : Bool :=
  match dxe.csrWrites with
  | [] => false
  | regVal :: _ => regVal &&& dmaCsrPauseMask != 0

/-- `while (wait_count++ < DXE_MAX_RETRY)` with `rounds` rounds left: the counter behind the loop
and whether the loop was left because of what the poll saw. -/
def waitLoop (seen : Nat → Bool) : Nat → Nat → Nat × Bool
  | 0, waitCount => (waitCount + 1, false)
  | rounds + 1, waitCount =>
      if seen waitCount then (waitCount + 1, true) else waitLoop seen rounds (waitCount + 1)

/-- The poll of each round sees the engine paused.  The first read is the one in front of the
write. -/
def pausedAt (presented : Nat → UInt32) (poll : Nat) : Bool :=
  presented (poll + 1) &&& dmaCsrPausedMask != 0

/-- `hal_dxe_suspend`. -/
def halDxeSuspend (presented : Nat → UInt32) (dxe : DxeControl) : Ret × DxeControl :=
  let dxe := dxe.write (presented 0 ||| dmaCsrPauseMask)
  let (waitCount, paused) := waitLoop (pausedAt presented) dxeMaxRetry 0
  let dxe := if paused then { dxe with dxeSuspend := 1 } else dxe
  (if waitCount = dxeMaxRetry then .fail else .success, dxe)

/-- `hal_dxe_resume`. -/
def halDxeResume (presented : Nat → UInt32) (dxe : DxeControl) : Ret × DxeControl :=
  let regVal := presented 0 &&& ~~~ dmaCsrPauseMask
  if dxe.dxeSuspend ≠ 0 then
    let dxe := dxe.write regVal
    let (_, cleared) :=
      waitLoop (fun poll => presented (poll + 1) &&& dmaCsrPauseMask = 0) dxeMaxRetry 0
    (.success, if cleared then { dxe with dxeSuspend := 0 } else dxe)
  else (.success, dxe)

/-- A call, with the values that the engine presents to it. -/
inductive Call where
  | suspend (presented : Nat → UInt32)
  | resume (presented : Nat → UInt32)

def Call.exec (dxe : DxeControl) : Call → DxeControl
  | .suspend presented => (halDxeSuspend presented dxe).2
  | .resume presented => (halDxeResume presented dxe).2

/-- The state behind some calls. -/
def Call.run (calls : List Call) (dxe : DxeControl) : DxeControl := calls.foldl Call.exec dxe

end QHal.Dxe
