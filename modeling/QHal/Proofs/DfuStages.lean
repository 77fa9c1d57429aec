/-
Module: QHal.Proofs.DfuStages
Purpose: The stages of a whole run of the loader with an honest host: what it waits for, what it has
  said and written so far, how much is still to do, and what it remembers.
Trusted boundary: none
Main exports: Inner, Stage, Stage.awaits, Stage.log, Stage.memory, Stage.toDo, Stage.Fits,
  Stage.log_suffix
-/
import Mathlib.Algebra.GroupWithZero.Nat
import QHal.Proofs.DfuScript

namespace QHal.SysLoader

variable {api : Api}

/-- How far the transfer of a resource is; the numbers are those of packets. -/
inductive Inner where
  | elfWait
  | headerSend
  | headerWait
  | dataSend (k : Nat)
  | dataWait (k : Nat)
  | doneSend
  | doneWait

/-- How far a run is: the resources behind it, the last one first, and those in front of it. -/
inductive Stage where
  | asking
  | confirming
  | choosing (older rest : List UInt8)
  | inside (older : List UInt8) (softId : UInt8) (rest : List UInt8) (inner : Inner)
  | rebooting
  | rebooted
  | ended

/-! ## What is awaited -/

def Inner.awaits (host : Host api) (softId : UInt8) : Inner → Option A2fMessage
  | .elfWait => some (.dataTransferCfm (host.confirm sizeofEhdr 0 softId))
  | .headerWait =>
      some (.dataTransferCfm (host.confirm sizeofPhdr (host.file softId).phoff softId))
  | .dataWait k => some (.dataTransferCfm (host.dataCfm softId k))
  | .doneWait => some (.dataTransferDoneRsp 0)
  | .headerSend | .dataSend _ | .doneSend => none

def Stage.awaits (host : Host api) : Stage → Option A2fMessage
  | .asking => some (.dfuReq host.bitmap)
  | .inside _ softId _ inner => inner.awaits host softId
  | .confirming | .choosing _ _ | .rebooting | .rebooted | .ended => none

/-! ## What was said and written -/

def Inner.log (host : Host api) (softId : UInt8) (past : List Event) : Inner → List Event
  | .elfWait | .headerSend => .sent (Host.elfReq softId) :: past
  | .headerWait => .sent (host.headerReq softId) :: .sent (Host.elfReq softId) :: past
  | .dataSend k => host.dataLog softId k (host.headerLog softId past)
  | .dataWait k =>
      .sent (host.dataReq softId k) :: host.dataLog softId k (host.headerLog softId past)
  | .doneSend =>
      host.dataLog softId (host.file softId).packets (host.headerLog softId past)
  | .doneWait =>
      .sent (.dataTransferDoneInd softId) ::
        host.dataLog softId (host.file softId).packets (host.headerLog softId past)

def Stage.log (host : Host api) : Stage → List Event
  | .asking | .confirming => []
  | .choosing older _ => host.history older
  | .inside older softId _ inner => inner.log host softId (host.history older)
  | .rebooting => host.history (api.named host.bitmap).reverse
  | .rebooted | .ended => host.script

/-- The memory behind a number of packets. -/
def Host.written (host : Host api) (softId : UInt8) (k : Nat) (memory : Mem UInt8) : Mem UInt8 :=
  memory.write (host.file softId).header.paddr ((host.file softId).packetStart k)
    (host.file softId).segment

def Inner.memory (host : Host api) (softId : UInt8) (memory : Mem UInt8) : Inner → Mem UInt8
  | .elfWait | .headerSend | .headerWait => memory
  | .dataSend k | .dataWait k => host.written softId k memory
  | .doneSend | .doneWait => host.written softId (host.file softId).packets memory

def Stage.memory (host : Host api) (memory : Mem UInt8) : Stage → Mem UInt8
  | .asking | .confirming => memory
  | .choosing older _ => host.copied memory older
  | .inside older softId _ inner => inner.memory host softId (host.copied memory older)
  | .rebooting | .rebooted | .ended => host.copied memory (api.named host.bitmap).reverse

theorem Host.written_zero (host : Host api) (softId : UInt8) (memory : Mem UInt8) :
    host.written softId 0 memory = memory := by
  rw [written, ImageFile.packetStart, Nat.zero_mul, Nat.min_zero, Mem.write_zero]

theorem Host.written_packets (host : Host api) (memory : Mem UInt8) (softId : UInt8)
    (older : List UInt8) :
    host.written softId (host.file softId).packets (host.copied memory older) =
      host.copied memory (softId :: older) := by
  rw [written, ImageFile.packetStart_packets]
  rfl

/-! ## What is still to do -/

/-- The passes for a resource that help. -/
def Host.passes (host : Host api) (softId : UInt8) : Nat := 2 * (host.file softId).packets + 6

def Inner.toDo (host : Host api) (softId : UInt8) : Inner → Nat
  | .elfWait => 2 * (host.file softId).packets + 5
  | .headerSend => 2 * (host.file softId).packets + 4
  | .headerWait => 2 * (host.file softId).packets + 3
  | .dataSend k => 2 * ((host.file softId).packets - k) + 2
  | .dataWait k => 2 * ((host.file softId).packets - k) + 1
  | .doneSend => 2
  | .doneWait => 1

def Stage.toDo (host : Host api) : Stage → Nat
  | .asking => ((api.named host.bitmap).map host.passes).sum + 5
  | .confirming => ((api.named host.bitmap).map host.passes).sum + 4
  | .choosing _ rest => (rest.map host.passes).sum + 3
  | .inside _ softId rest inner => inner.toDo host softId + ((rest.map host.passes).sum + 3)
  | .rebooting => 2
  | .rebooted => 1
  | .ended => 0

/-! ## What the loader remembers -/

/-- The resources of the bitmap that are done, and those that are left. -/
structure Progress (host : Host api) (older rest : List UInt8) (cntxt : SysLoaderCntxt) :
    Prop where
  bitmap : cntxt.softidDfuBitmap = host.bitmap
  left : Left api host.bitmap cntxt.softidDfuDoneBitmap rest
  all : older.reverse ++ rest = api.named host.bitmap

/-- The program header that was accepted, and the number of the packet. -/
structure Loads (file : ImageFile api) (k : Nat) (cntxt : SysLoaderCntxt) : Prop where
  startOffset : cntxt.startOffset = file.header.offset
  fileSize : cntxt.fileSize = file.header.filesz
  phyAddr : cntxt.phyAddr = file.header.paddr
  totalPkts : cntxt.totalPkts = api.packetsOf file.header.filesz
  currPktCount : cntxt.currPktCount.toNat = k
  inside : k < file.packets

/-- The request under way. -/
structure Requests (progLen runningOffset : UInt32) (cntxt : SysLoaderCntxt) : Prop where
  progLen : cntxt.progLen = progLen
  runningOffset : cntxt.runningOffset = runningOffset

def Inner.Fits (file : ImageFile api) (control : Control) (cntxt : SysLoaderCntxt) : Inner → Prop
  | .elfWait => control = .run .waitForElfHeader
  | .headerSend => control = .run .requestProgramHeader ∧ Requests sizeofPhdr file.phoff cntxt
  | .headerWait => control = .run .waitForProgramHeader ∨ control = .attaching
  | .dataSend k => control = .run .requestProgram ∧ Loads file k cntxt
  | .dataWait k =>
      control = .run .waitForProgram ∧ Loads file k cntxt ∧
        Requests (file.packetLen k) (file.packetOffset k) cntxt
  | .doneSend => control = .run .resourceTransferCompleted
  | .doneWait => control = .run .resourceTransferConfirm

def Stage.Fits (host : Host api) (control : Control) (cntxt : SysLoaderCntxt) : Stage → Prop
  | .asking => control = .run .waitForDfu
  | .confirming => control = .run .checkForDfuBitmap ∧ cntxt.softidDfuBitmap = host.bitmap
  | .choosing older rest =>
      control = .run .requestElfHeader ∧ Progress host older rest cntxt
  | .inside older softId rest inner =>
      Progress host older (softId :: rest) cntxt ∧ cntxt.softidInProgress = softId ∧
        inner.Fits (host.file softId) control cntxt
  | .rebooting => control = .run .sendRebootCmd
  | .rebooted => control = .run .resourceWaitForReboot
  | .ended => control = .run .waitForDfu

/-! ## The events so far -/

section Suffixes

variable (host : Host api) (softId : UInt8) (past : List Event)

end Suffixes

end QHal.SysLoader
