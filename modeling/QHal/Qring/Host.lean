/-
Module: QHal.Qring.Host
Purpose: The system of the slave, its interrupts and a host.  One host obeys the
  ring protocol: it fills a free descriptor in any order before it moves its write
  index over it, and it moves its read index over a descriptor it has read.
  Another host writes what it likes into its own side of the shared memory.
Trusted boundary: accesses to the shared memory take effect one after the other
Main exports: SlaveAction, Action, System.step, HostAction, Ring.obey, HostWrite,
  Ring.scribble
-/
import QHal.Qring.RingService

namespace QHal.Qring

/-- A step of a call of `ring_send`. -/
inductive SendAction where
  | call (data : List UInt8)
  | exec
deriving Repr, DecidableEq

/-- A step of a call of `ring_recv`. -/
inductive RecvAction where
  | call (args : RecvArgs)
  | exec
  | take (args : RecvArgs)
  | timeout (args : RecvArgs)
  | relock (args : RecvArgs)
deriving Repr, DecidableEq

inductive SlaveAction where
  | send (action : SendAction)
  | recv (action : RecvAction)
deriving Repr, DecidableEq

def SendSide.slave (side : SendSide) : SendAction → Option SendSide
  | .call data => side.call data
  | .exec => side.exec

def RecvSide.slave (side : RecvSide) : RecvAction → Option RecvSide
  | .call args => side.call args
  | .exec => side.exec
  | .take args => side.take args
  | .timeout args => side.timeout args
  | .relock args => side.relock args

def Ring.slave (ring : Ring) : SlaveAction → Option Ring
  | .send action => (ring.send.slave action).map fun side => { ring with send := side }
  | .recv action => (ring.recv.slave action).map fun side => { ring with recv := side }

/-- A step of the whole system, with the host's steps as a parameter. -/
inductive Action (η : Type) where
  | slave (ringId : UInt8) (action : SlaveAction)
  | host (ringId : UInt8) (action : η)
  | interrupt
deriving Repr, DecidableEq

/-- A step on one ring. -/
def System.onRing (system : System) (ringId : UInt8) (step : Ring → Option Ring) :
    Option System :=
  if system.configured ringId then
    (step (system.rings ringId)).map fun ring =>
      { system with rings := Function.update system.rings ringId ring }
  else none

def System.step {η : Type} (hostStep : Ring → η → Option Ring) (system : System) :
    Action η → Option System
  | .slave ringId action => system.onRing ringId (Ring.slave · action)
  | .host ringId action => system.onRing ringId (hostStep · action)
  | .interrupt => some (ringRxHandler system)

/-- A step of a host that obeys the protocol.  As a reader it reads the message of
its next descriptor, may clear the descriptor, and moves its index.  As a writer it
begins a message if the ring is not full, writes the data, the length and the flags
in any order, and moves its index. -/
inductive HostAction where
  | read
  | clear
  | release
  | begin (data : List UInt8)
  | writeData
  | writeLength
  | writeFlags
  | publish
deriving Repr, DecidableEq

/-- The host reads what the slave sent. -/
def SendSide.hostRead (side : SendSide) : Option SendSide :=
  match side.host with
  | .idle =>
      if side.lane.rdIdx ≠ side.lane.wrIdx then
        let length := (side.lane.desc side.lane.rdIdx.toNat).length
        some { side with host := .taken (side.lane.copyOut side.lane.rdIdx length.toNat) }
      else none
  | .taken _ => none

def SendSide.hostClear (side : SendSide) : Option SendSide :=
  match side.host with
  | .idle => none
  | .taken _ =>
      some { side with
        lane := (side.lane.setFlags side.lane.rdIdx 0).setLength side.lane.rdIdx 0 }

def SendSide.hostRelease (side : SendSide) : Option SendSide :=
  match side.host with
  | .idle => none
  | .taken data =>
      some { side with
        lane := { side.lane with rdIdx := side.lane.next side.lane.rdIdx }
        consumed := side.consumed ++ [data]
        host := .idle }

/-- The host begins a message: the ring is not full and the data fits. -/
def RecvSide.hostBegin (side : RecvSide) (data : List UInt8) : Option RecvSide :=
  match side.host with
  | .idle =>
      if side.lane.next side.lane.wrIdx ≠ side.lane.rdIdx ∧
          data.length ≤ side.lane.bufSize.toNat then
        some { side with host := .filling data false false false }
      else none
  | .filling _ _ _ _ => none

def RecvSide.hostWriteData (side : RecvSide) : Option RecvSide :=
  match side.host with
  | .filling data false wroteLength wroteFlags =>
      some { side with
        lane := side.lane.copyIn side.lane.wrIdx data
        host := .filling data true wroteLength wroteFlags }
  | _ => none

def RecvSide.hostWriteLength (side : RecvSide) : Option RecvSide :=
  match side.host with
  | .filling data wroteData false wroteFlags =>
      some { side with
        lane := side.lane.setLength side.lane.wrIdx (UInt16.ofNat data.length)
        host := .filling data wroteData true wroteFlags }
  | _ => none

def RecvSide.hostWriteFlags (side : RecvSide) : Option RecvSide :=
  match side.host with
  | .filling data wroteData wroteLength false =>
      some { side with
        lane := side.lane.setFlags side.lane.wrIdx ringDescFlagValid
        host := .filling data wroteData wroteLength true }
  | _ => none

def RecvSide.hostPublish (side : RecvSide) : Option RecvSide :=
  match side.host with
  | .filling data true true true =>
      some { side with
        lane := { side.lane with wrIdx := side.lane.next side.lane.wrIdx }
        published := side.published ++ [data]
        host := .idle }
  | _ => none

/-- A step of the obedient host on a ring. -/
def Ring.obey (ring : Ring) : HostAction → Option Ring
  | .read => ring.send.hostRead.map fun side => { ring with send := side }
  | .clear => ring.send.hostClear.map fun side => { ring with send := side }
  | .release => ring.send.hostRelease.map fun side => { ring with send := side }
  | .begin data => (ring.recv.hostBegin data).map fun side => { ring with recv := side }
  | .writeData => ring.recv.hostWriteData.map fun side => { ring with recv := side }
  | .writeLength => ring.recv.hostWriteLength.map fun side => { ring with recv := side }
  | .writeFlags => ring.recv.hostWriteFlags.map fun side => { ring with recv := side }
  | .publish => ring.recv.hostPublish.map fun side => { ring with recv := side }

/-- A write of any value by a host that obeys nothing, into its indices and into
the length and the flags of a descriptor it fills. -/
inductive HostWrite where
  | txWrIdx (value : UInt32)
  | rxRdIdx (value : UInt32)
  | length (idx : UInt32) (value : UInt16)
  | flags (idx : UInt32) (value : UInt16)
deriving Repr, DecidableEq

def Ring.scribble (ring : Ring) : HostWrite → Option Ring
  | .txWrIdx value =>
      some { ring with recv.lane.wrIdx := value }
  | .rxRdIdx value =>
      some { ring with send.lane.rdIdx := value }
  | .length idx value =>
      some { ring with recv.lane := ring.recv.lane.setLength idx value }
  | .flags idx value =>
      some { ring with recv.lane := ring.recv.lane.setFlags idx value }

end QHal.Qring
