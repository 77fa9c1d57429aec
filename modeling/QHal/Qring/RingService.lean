/-
Module: QHal.Qring.RingService
Purpose: The ring service of the slave, qring/src/ring_service_qcc730.c: the
  control block and its initialisation, ring_send and ring_recv as sequences of
  single accesses to the shared memory, and the interrupt handler.
Trusted boundary: mutexes and semaphores of the kernel; malloc returns separate
  blocks, so that the address of a buffer is an offset into its pool; a memcpy is
  one access
Main exports: RingDescriptor, Lane, SendSide, RecvSide, SendSide.exec,
  RecvSide.exec, System, ringServiceSlaveInit, ringRxHandler
-/
import QHal.Lib.Memory

namespace QHal.Qring

def maxRings : UInt8 := 8
def ringStatusValid : UInt8 := 1
/-- `RING_DESC_FLAG_VALID`. -/
def ringDescFlagValid : UInt16 := 1

/-- The errors the service returns. -/
inductive Errno where
  | eagain | einval | emsgsize | enodev | ealready | enomem
deriving Repr, DecidableEq

/-- What a call returns: a count or a negated error. -/
inductive Return where
  | ok (value : Nat)
  | error (errno : Errno)
deriving Repr, DecidableEq

/-- `struct ring_descriptor`. -/
structure RingDescriptor where
  bufferAddr : Nat
  length : UInt16
  flags : UInt16
deriving Repr, DecidableEq

/-- Whether `RING_DESC_FLAG_VALID` is set. -/
def RingDescriptor.valid (desc : RingDescriptor) : Bool := desc.flags &&& ringDescFlagValid != 0

/-- One direction of a ring in `struct ring_control_block`: the descriptors, their
number, the two indices, and the pool of buffers. -/
structure Lane where
  desc : Nat → RingDescriptor
  descCount : UInt32
  wrIdx : UInt32
  rdIdx : UInt32
  bufSize : UInt32
  buf : Nat → UInt8

namespace Lane

def setLength (lane : Lane) (idx : UInt32) (length : UInt16) : Lane :=
  { lane with
    desc := Function.update lane.desc idx.toNat { lane.desc idx.toNat with length := length } }

def setFlags (lane : Lane) (idx : UInt32) (flags : UInt16) : Lane :=
  { lane with
    desc := Function.update lane.desc idx.toNat { lane.desc idx.toNat with flags := flags } }

/-- `memcpy` into the buffer of a descriptor. -/
def copyIn (lane : Lane) (idx : UInt32) (data : List UInt8) : Lane :=
  { lane with
    buf := Mem.overlay lane.buf (lane.desc idx.toNat).bufferAddr data.length
      fun i => data.getD i 0 }

/-- `memcpy` out of the buffer of a descriptor. -/
def copyOut (lane : Lane) (idx : UInt32) (count : Nat) : List UInt8 :=
  (List.range count).map fun i => lane.buf ((lane.desc idx.toNat).bufferAddr + i)

/-- The index behind `idx`. -/
def next (lane : Lane) (idx : UInt32) : UInt32 := (idx + 1) % lane.descCount

end Lane

/-- The free descriptors, as `ring_send` and `ring_get_tx_available` count them. -/
def sendAvail (wrIdx rdIdx descCount : UInt32) : UInt32 :=
  if rdIdx > wrIdx then rdIdx - wrIdx - 1 else descCount - (wrIdx - rdIdx) - 1

/-- The filled descriptors, as `ring_recv` and `ring_get_rx_available` count them. -/
def recvAvail (wrIdx rdIdx descCount : UInt32) : UInt32 :=
  if wrIdx ≥ rdIdx then wrIdx - rdIdx else descCount - (rdIdx - wrIdx)

/-- Where the call of `ring_send` that holds `tx_lock` stands: its next access and
the values it has read. -/
inductive SendPc where
  | readWrIdx
  | readRdIdx (wrIdx : UInt32)
  | checkAvail (wrIdx rdIdx : UInt32)
  | copy (wrIdx : UInt32)
  | setLength (wrIdx : UInt32)
  | setFlags (wrIdx : UInt32)
  | advance (wrIdx : UInt32)
  | unlock
deriving Repr, DecidableEq

/-- The call that holds `tx_lock` and the data it sends. -/
structure SendCall where
  data : List UInt8
  pc : SendPc
deriving Repr, DecidableEq

/-- What the host does with the message it has read from a descriptor. -/
inductive HostReader where
  | idle
  | taken (data : List UInt8)
deriving Repr, DecidableEq

/-- The direction from the slave to the host: the `rx` arrays of the control
block, `tx_lock` with the call that holds it, and the host as the reader.
`sent` and `consumed` record the messages that either side has put behind its
index, `results` what the calls returned; no branch reads them. -/
structure SendSide where
  lane : Lane
  txLock : Option SendCall
  txCount : UInt32
  host : HostReader
  sent : List (List UInt8)
  consumed : List (List UInt8)
  results : List Return

/-- The checks of `ring_send` on its arguments, before the lock. -/
def SendSide.accepts (side : SendSide) (data : List UInt8) : Bool :=
  decide (data.length ≠ 0) && decide (data.length ≤ side.lane.bufSize.toNat)

/-- A call of `ring_send` takes the lock. -/
def SendSide.call (side : SendSide) (data : List UInt8) : Option SendSide :=
  match side.txLock with
  | none =>
      if side.accepts data then some { side with txLock := some ⟨data, .readWrIdx⟩ } else none
  | some _ => none

/-- The next access of the call that holds `tx_lock`. -/
def SendSide.exec (side : SendSide) : Option SendSide :=
  match side.txLock with
  | none => none
  | some ⟨data, pc⟩ =>
      match pc with
      | .readWrIdx =>
          some { side with txLock := some ⟨data, .readRdIdx side.lane.wrIdx⟩ }
      | .readRdIdx wrIdx =>
          some { side with txLock := some ⟨data, .checkAvail wrIdx side.lane.rdIdx⟩ }
      | .checkAvail wrIdx rdIdx =>
          if sendAvail wrIdx rdIdx side.lane.descCount = 0 then
            some { side with txLock := none, results := side.results ++ [.error .eagain] }
          else some { side with txLock := some ⟨data, .copy wrIdx⟩ }
      | .copy wrIdx =>
          some { side with
            lane := side.lane.copyIn wrIdx data
            txLock := some ⟨data, .setLength wrIdx⟩ }
      | .setLength wrIdx =>
          some { side with
            lane := side.lane.setLength wrIdx (UInt16.ofNat data.length)
            txLock := some ⟨data, .setFlags wrIdx⟩ }
      | .setFlags wrIdx =>
          some { side with
            lane := side.lane.setFlags wrIdx ringDescFlagValid
            txLock := some ⟨data, .advance wrIdx⟩ }
      | .advance wrIdx =>
          some { side with
            lane := { side.lane with wrIdx := side.lane.next wrIdx }
            sent := side.sent ++ [data]
            txLock := some ⟨data, .unlock⟩ }
      | .unlock =>
          some { side with
            txCount := side.txCount + 1
            results := side.results ++ [.ok 0]
            txLock := none }

/-- The arguments of a call of `ring_recv`: the size of the caller's buffer, and
whether the timeout is `K_NO_WAIT`. -/
structure RecvArgs where
  maxLen : Nat
  noWait : Bool
deriving Repr, DecidableEq

/-- Where the call of `ring_recv` that holds `rx_lock` stands. -/
inductive RecvPc where
  | readWrIdx
  | readRdIdx (wrIdx : UInt32)
  | checkAvail (wrIdx rdIdx : UInt32)
  | rereadWrIdx
  | rereadRdIdx
  | readFlags (rdIdx : UInt32)
  | readLength (rdIdx : UInt32)
  | copy (rdIdx : UInt32) (dataLen : UInt16)
  | clearFlags (rdIdx : UInt32) (data : List UInt8)
  | clearLength (rdIdx : UInt32) (data : List UInt8)
  | advance (rdIdx : UInt32) (data : List UInt8)
  | unlock (data : List UInt8)
deriving Repr, DecidableEq

/-- The call that holds `rx_lock`. -/
structure RecvCall where
  args : RecvArgs
  pc : RecvPc
deriving Repr, DecidableEq

/-- What the host has written of the message it puts into the next descriptor. -/
inductive HostWriter where
  | idle
  | filling (data : List UInt8) (wroteData wroteLength wroteFlags : Bool)
deriving Repr, DecidableEq

/-- The direction from the host to the slave: the `tx` arrays of the control
block, `rx_lock` with the call that holds it, the calls in `k_sem_take` and those
that have their token and wait for the lock, `rx_sem`, and the host as the writer.
`published`, `delivered` and `results` are records. -/
structure RecvSide where
  lane : Lane
  rxLock : Option RecvCall
  waiting : List RecvArgs
  woken : List RecvArgs
  rxSem : Nat
  rxSemLimit : Nat
  rxCount : UInt32
  rxErrors : UInt32
  host : HostWriter
  published : List (List UInt8)
  delivered : List (List UInt8)
  results : List Return

/-- A call of `ring_recv` passes its checks and takes the lock. -/
def RecvSide.call (side : RecvSide) (args : RecvArgs) : Option RecvSide :=
  match side.rxLock with
  | none =>
      if args.maxLen ≠ 0 then some { side with rxLock := some ⟨args, .readWrIdx⟩ } else none
  | some _ => none

/-- The call that holds `rx_lock` returns. -/
def RecvSide.leave (side : RecvSide) (result : Return) : RecvSide :=
  { side with rxLock := none, results := side.results ++ [result] }

/-- It returns an error and counts it in `rx_errors`. -/
def RecvSide.fail (side : RecvSide) (errno : Errno) : RecvSide :=
  { side.leave (.error errno) with rxErrors := side.rxErrors + 1 }

/-- The next access of the call that holds `rx_lock`.  A call that waits gives the
lock back; behind its wait it reads the indices again, but not `avail`. -/
def RecvSide.exec (side : RecvSide) : Option RecvSide :=
  match side.rxLock with
  | none => none
  | some ⟨args, pc⟩ =>
      match pc with
      | .readWrIdx =>
          some { side with rxLock := some ⟨args, .readRdIdx side.lane.wrIdx⟩ }
      | .readRdIdx wrIdx =>
          some { side with rxLock := some ⟨args, .checkAvail wrIdx side.lane.rdIdx⟩ }
      | .checkAvail wrIdx rdIdx =>
          if recvAvail wrIdx rdIdx side.lane.descCount = 0 then
            if args.noWait then some (side.leave (.ok 0))
            else some { side with rxLock := none, waiting := args :: side.waiting }
          else some { side with rxLock := some ⟨args, .readFlags rdIdx⟩ }
      | .rereadWrIdx => some { side with rxLock := some ⟨args, .rereadRdIdx⟩ }
      | .rereadRdIdx =>
          some { side with rxLock := some ⟨args, .readFlags side.lane.rdIdx⟩ }
      | .readFlags rdIdx =>
          if (side.lane.desc rdIdx.toNat).valid then
            some { side with rxLock := some ⟨args, .readLength rdIdx⟩ }
          else some (side.fail .einval)
      | .readLength rdIdx =>
          let dataLen := (side.lane.desc rdIdx.toNat).length
          if dataLen.toNat > args.maxLen then some (side.fail .emsgsize)
          else some { side with rxLock := some ⟨args, .copy rdIdx dataLen⟩ }
      | .copy rdIdx dataLen =>
          let data := side.lane.copyOut rdIdx dataLen.toNat
          some { side with rxLock := some ⟨args, .clearFlags rdIdx data⟩ }
      | .clearFlags rdIdx data =>
          some { side with
            lane := side.lane.setFlags rdIdx 0
            rxLock := some ⟨args, .clearLength rdIdx data⟩ }
      | .clearLength rdIdx data =>
          some { side with
            lane := side.lane.setLength rdIdx 0
            rxLock := some ⟨args, .advance rdIdx data⟩ }
      | .advance rdIdx data =>
          some { side with
            lane := { side.lane with rdIdx := side.lane.next rdIdx }
            delivered := side.delivered ++ [data]
            rxLock := some ⟨args, .unlock data⟩ }
      | .unlock data =>
          some { side.leave (.ok data.length) with rxCount := side.rxCount + 1 }

/-- `k_sem_take` gives a waiting call a token. -/
def RecvSide.take (side : RecvSide) (args : RecvArgs) : Option RecvSide :=
  if args ∈ side.waiting ∧ 0 < side.rxSem then
    some { side with
      rxSem := side.rxSem - 1
      waiting := side.waiting.erase args
      woken := args :: side.woken }
  else none

/-- `k_sem_take` times out, and the call returns 0. -/
def RecvSide.timeout (side : RecvSide) (args : RecvArgs) : Option RecvSide :=
  if args ∈ side.waiting then
    some { side with
      waiting := side.waiting.erase args
      results := side.results ++ [.ok 0] }
  else none

/-- A call with a token takes the lock again. -/
def RecvSide.relock (side : RecvSide) (args : RecvArgs) : Option RecvSide :=
  match side.rxLock with
  | none =>
      if args ∈ side.woken then
        some { side with
          rxLock := some ⟨args, .rereadWrIdx⟩
          woken := side.woken.erase args }
      else none
  | some _ => none

/-- `k_sem_give`. -/
def RecvSide.give (side : RecvSide) : RecvSide :=
  { side with rxSem := min (side.rxSem + 1) side.rxSemLimit }

/-- A ring: `ring_status` and the two directions. -/
structure Ring where
  ringStatus : UInt8
  send : SendSide
  recv : RecvSide

/-- `g_ring_service` and the control block. -/
structure System where
  initialized : Bool
  rings : UInt8 → Ring

/-- A ring that calls and interrupts see. -/
def System.configured (system : System) (ringId : UInt8) : Bool :=
  system.initialized && decide (ringId < maxRings) &&
    decide ((system.rings ringId).ringStatus = ringStatusValid)

/-- `ring_rx_handler`: a token for every configured ring. -/
def ringRxHandler (system : System) : System :=
  { system with
    rings := fun ringId =>
      if system.configured ringId then
        { system.rings ringId with recv := (system.rings ringId).recv.give }
      else system.rings ringId }

/-- `ring_get_tx_available` behind its checks. -/
def ringGetTxAvailable (ring : Ring) : UInt32 :=
  sendAvail ring.send.lane.wrIdx ring.send.lane.rdIdx ring.send.lane.descCount

/-- `ring_get_rx_available` behind its checks. -/
def ringGetRxAvailable (ring : Ring) : UInt32 :=
  recvAvail ring.recv.lane.wrIdx ring.recv.lane.rdIdx ring.recv.lane.descCount

/-- `struct ring_config`. -/
structure RingConfig where
  ringId : UInt8
  descCount : UInt32
  bufSize : UInt32
deriving Repr, DecidableEq

def RingConfig.valid (config : RingConfig) : Bool :=
  decide (config.ringId < maxRings) &&
    !(decide (config.descCount = 0) || decide (config.descCount > 256)) &&
    !(decide (config.bufSize = 0) || decide (config.bufSize > 1500))

/-- The loop that initialises the descriptors of a direction. -/
def Lane.init (config : RingConfig) (pool : Nat → UInt8) : Lane where
  desc := fun j => ⟨j * config.bufSize.toNat, 0, 0⟩
  descCount := config.descCount
  wrIdx := 0
  rdIdx := 0
  bufSize := config.bufSize
  buf := pool

/-- A ring behind its initialisation. -/
def Ring.init (config : RingConfig) (txPool rxPool : Nat → UInt8) : Ring where
  ringStatus := ringStatusValid
  send := ⟨Lane.init config rxPool, none, 0, .idle, [], [], []⟩
  recv := ⟨Lane.init config txPool, none, [], [], 0, config.descCount.toNat, 0, 0, .idle,
    [], [], []⟩

/-- What the initialisation meets: whether the allocations for the ring number `i`
of the configuration succeed, what the pools hold, and whether the GPIO that
interrupts the host is ready. -/
structure InitWorld where
  granted : Nat → Bool
  txPool : Nat → Nat → UInt8
  rxPool : Nat → Nat → UInt8
  gpioReady : Bool

/-- The loop over the configurations from number `i` on. -/
def initRings (world : InitWorld) : List RingConfig → Nat → (UInt8 → Ring) →
    Option (UInt8 → Ring)
  | [], _, rings => some rings
  | config :: configs, i, rings =>
      if world.granted i then
        initRings world configs (i + 1) (Function.update rings config.ringId
          (Ring.init config (world.txPool i) (world.rxPool i)))
      else none

/-- A control block that was cleared. -/
def clearedRing : Ring where
  ringStatus := 0
  send := ⟨⟨fun _ => ⟨0, 0, 0⟩, 0, 0, 0, 0, fun _ => 0⟩, none, 0, .idle, [], [], []⟩
  recv := ⟨⟨fun _ => ⟨0, 0, 0⟩, 0, 0, 0, 0, fun _ => 0⟩, none, [], [], 0, 0, 0, 0, .idle,
    [], [], []⟩

/-- `ring_service_slave_init`. -/
def ringServiceSlaveInit (world : InitWorld) (configs : List RingConfig) (system : System) :
    Return × System :=
  let cleared : System := ⟨false, fun _ => clearedRing⟩
  if system.initialized then (.error .ealready, system)
  else if configs.length = 0 ∨ configs.length > maxRings.toNat then (.error .einval, system)
  else if ¬ configs.all RingConfig.valid then (.error .einval, system)
  else
    match initRings world configs 0 fun _ => clearedRing with
    | none => (.error .enomem, cleared)
    | some rings =>
        if world.gpioReady then (.ok 0, ⟨true, rings⟩) else (.error .enodev, cleared)

/-- `configs`: the rings for configuration, data and loopback. -/
def ringConfigs : List RingConfig := [⟨0, 8, 1500⟩, ⟨1, 8, 1500⟩, ⟨2, 8, 1500⟩]

/-- An initialisation that meets no obstacle. -/
def plainWorld : InitWorld where
  granted := fun _ => true
  txPool := fun _ _ => 0
  rxPool := fun _ _ => 0
  gpioReady := true

end QHal.Qring
