/-
Module: QHal.System.Pairing
Purpose: What the post processing is for: the starts that are outstanding, the pairing of each stop
  with its start and the durations of the pairs, beside the thread that computes the statistics.
Trusted boundary: none
Main exports: FdiNodeIns.isStop, FdiNodeIns.sameEvent, Pairing, Pairing.record, Action, Tracked,
  Tracked.step
-/
import QHal.System.FdiThread

namespace QHal.System

namespace FdiNodeIns

def node (record : FdiNodeIns) : Nat := fdiNodeId record.attr

def isStop (record : FdiNodeIns) : Bool := record.attr &&& 1 <<< fdiInsAttrTickTypeOffset ≠ 0

/-- A start of the node and the identifier of a stop. -/
def sameEvent (stop start : FdiNodeIns) : Bool :=
  start.node = stop.node ∧ start.identifier = stop.identifier

end FdiNodeIns

/-- The outstanding starts with an identifier, oldest first, the pending start without one of each
node, and the durations that were paired for each node since its last clear. -/
structure Pairing where
  outstanding : List FdiNodeIns
  pending : Nat → Option FdiNodeIns
  durations : Nat → List UInt32

namespace Pairing

def empty : Pairing where
  outstanding := []
  pending _ := none
  durations _ := []

/-- The duration of a pair is recorded for the node of the stop. -/
def pair (pairing : Pairing) (start stop : FdiNodeIns) : Pairing :=
  { pairing with
    durations := Function.update pairing.durations stop.node
      (pairing.durations stop.node ++ [stop.ticks - start.ticks]) }

/-- The oldest outstanding start of the node and the identifier of a stop. -/
def oldest (pairing : Pairing) (stop : FdiNodeIns) : Option FdiNodeIns :=
  pairing.outstanding.find? stop.sameEvent

/-- A stop with an identifier takes its oldest start, one without an identifier the pending start
of its node. -/
def stop (pairing : Pairing) (stop : FdiNodeIns) : Pairing :=
  if stop.identifier ≠ 0 then
    match pairing.oldest stop with
    | some start =>
        { pairing with outstanding := pairing.outstanding.eraseP stop.sameEvent }.pair start stop
    | none => pairing
  else
    match pairing.pending stop.node with
    | some start =>
        { pairing with pending := Function.update pairing.pending stop.node none }.pair start stop
    | none => pairing

def start (pairing : Pairing) (start : FdiNodeIns) : Pairing :=
  if start.identifier ≠ 0 then { pairing with outstanding := pairing.outstanding ++ [start] }
  else { pairing with pending := Function.update pairing.pending start.node (some start) }

def record (pairing : Pairing) (record : FdiNodeIns) : Pairing :=
  if record.isStop then pairing.stop record else pairing.start record

/-- Forgets the durations of some nodes. -/
def clear (pairing : Pairing) (cleared : Nat → Bool) : Pairing :=
  { pairing with durations := fun node => if cleared node then [] else pairing.durations node }

end Pairing

/-- A record that the thread processes, and the calls of other threads between two records. -/
inductive Action where
  | record (nodeRet : FdiNodeIns)
  | printLog (clear : UInt8)
  | modEn (bmap : UInt32) (enFlag : UInt8)

/-- The state of the thread and the pairing that it should account for. -/
structure Tracked (Queue : Type) where
  fdi : Fdi Queue
  pairing : Pairing

namespace Tracked

variable {Queue : Type} (fifo : FifoQueue Queue FdiNodeIns) (capacity : Nat)

/-- A start with an identifier is processed while fewer are outstanding than the queue holds. -/
def step (tracked : Tracked Queue) : Action → Option (Tracked Queue)
  | .record nodeRet =>
      if nodeRet.isStop || nodeRet.identifier = 0 || tracked.pairing.outstanding.length < capacity
      then some ⟨tracked.fdi.processRecord fifo nodeRet, tracked.pairing.record nodeRet⟩
      else none
  | .printLog clear =>
      some ⟨tracked.fdi.printLog clear, tracked.pairing.clear fun node =>
        clear ≠ 0 && node < fdiMaxNode && tracked.fdi.enabled node⟩
  | .modEn bmap enFlag => some ⟨tracked.fdi.modEn bmap enFlag, tracked.pairing⟩

end Tracked

end QHal.System
