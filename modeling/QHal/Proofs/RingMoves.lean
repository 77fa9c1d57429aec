/-
Module: QHal.Proofs.RingMoves
Purpose: Everything the steps on a ring can do, one case for each branch: the steps
  of a call of ring_send, those of a call of ring_recv, and those of the obedient
  host.  The invariants of a ring are proved over these cases.
Trusted boundary: none
Main exports: SendMoves, RecvMoves, HostReads, HostWrites, SendSide.moves,
  RecvSide.moves, Ring.slave_sides, Ring.obey_sides
-/
import QHal.Proofs.RingSystem

namespace QHal.Qring

/-- The steps of the calls of `ring_send`. -/
inductive SendMoves (side : SendSide) : SendSide → Prop where
  | call (data : List UInt8) (free : side.txLock = none)
      (fits : data.length ≤ side.lane.bufSize.toNat) :
      SendMoves side { side with txLock := some ⟨data, .readWrIdx⟩ }
  | readWrIdx (data : List UInt8) (held : side.txLock = some ⟨data, .readWrIdx⟩) :
      SendMoves side { side with txLock := some ⟨data, .readRdIdx side.lane.wrIdx⟩ }
  | readRdIdx (data : List UInt8) (wrIdx : UInt32)
      (held : side.txLock = some ⟨data, .readRdIdx wrIdx⟩) :
      SendMoves side { side with txLock := some ⟨data, .checkAvail wrIdx side.lane.rdIdx⟩ }
  | full (data : List UInt8) (wrIdx rdIdx : UInt32)
      (held : side.txLock = some ⟨data, .checkAvail wrIdx rdIdx⟩) :
      SendMoves side
        { side with txLock := none, results := side.results ++ [.error .eagain] }
  | room (data : List UInt8) (wrIdx rdIdx : UInt32)
      (held : side.txLock = some ⟨data, .checkAvail wrIdx rdIdx⟩)
      (nonzero : sendAvail wrIdx rdIdx side.lane.descCount ≠ 0) :
      SendMoves side { side with txLock := some ⟨data, .copy wrIdx⟩ }
  | copy (data : List UInt8) (wrIdx : UInt32) (held : side.txLock = some ⟨data, .copy wrIdx⟩) :
      SendMoves side { side with
        lane := side.lane.copyIn wrIdx data
        txLock := some ⟨data, .setLength wrIdx⟩ }
  | setLength (data : List UInt8) (wrIdx : UInt32)
      (held : side.txLock = some ⟨data, .setLength wrIdx⟩) :
      SendMoves side { side with
        lane := side.lane.setLength wrIdx (UInt16.ofNat data.length)
        txLock := some ⟨data, .setFlags wrIdx⟩ }
  | setFlags (data : List UInt8) (wrIdx : UInt32)
      (held : side.txLock = some ⟨data, .setFlags wrIdx⟩) :
      SendMoves side { side with
        lane := side.lane.setFlags wrIdx ringDescFlagValid
        txLock := some ⟨data, .advance wrIdx⟩ }
  | advance (data : List UInt8) (wrIdx : UInt32)
      (held : side.txLock = some ⟨data, .advance wrIdx⟩) :
      SendMoves side { side with
        lane := { side.lane with wrIdx := side.lane.next wrIdx }
        sent := side.sent ++ [data]
        txLock := some ⟨data, .unlock⟩ }
  | unlock (data : List UInt8) (held : side.txLock = some ⟨data, .unlock⟩) :
      SendMoves side { side with
        txCount := side.txCount + 1
        results := side.results ++ [.ok 0]
        txLock := none }

theorem SendSide.exec_moves {side next : SendSide} (stepped : side.exec = some next) :
    SendMoves side next := by
  cases held : side.txLock with
  | none => simp [SendSide.exec, held] at stepped
  | some call =>
      obtain ⟨data, pc⟩ := call
      simp only [SendSide.exec, held] at stepped
      cases pc with
      | readWrIdx =>
          cases stepped
          exact .readWrIdx data held
      | readRdIdx wrIdx =>
          cases stepped
          exact .readRdIdx data wrIdx held
      | checkAvail wrIdx rdIdx =>
          simp only at stepped
          split_ifs at stepped with none
          · cases stepped
            exact .full data wrIdx rdIdx held
          · cases stepped
            exact .room data wrIdx rdIdx held none
      | copy wrIdx =>
          cases stepped
          exact .copy data wrIdx held
      | setLength wrIdx =>
          cases stepped
          exact .setLength data wrIdx held
      | setFlags wrIdx =>
          cases stepped
          exact .setFlags data wrIdx held
      | advance wrIdx =>
          cases stepped
          exact .advance data wrIdx held
      | unlock =>
          cases stepped
          exact .unlock data held

theorem SendSide.moves {side next : SendSide} {action : SendAction}
    (stepped : side.slave action = some next) : SendMoves side next := by
  cases action with
  | exec => exact SendSide.exec_moves stepped
  | call data =>
      simp only [SendSide.slave, SendSide.call] at stepped
      cases held : side.txLock with
      | some call => simp [held] at stepped
      | none =>
          simp only [held] at stepped
          split_ifs at stepped with accepted
          cases stepped
          simp only [SendSide.accepts, Bool.and_eq_true, decide_eq_true_eq] at accepted
          exact .call data held accepted.2

/-- The steps of the calls of `ring_recv`. -/
inductive RecvMoves (side : RecvSide) : RecvAction → RecvSide → Prop where
  | call (args : RecvArgs) (free : side.rxLock = none) :
      RecvMoves side (.call args) { side with rxLock := some ⟨args, .readWrIdx⟩ }
  | take (args : RecvArgs) (token : 0 < side.rxSem) :
      RecvMoves side (.take args) { side with
        rxSem := side.rxSem - 1
        waiting := side.waiting.erase args
        woken := args :: side.woken }
  | timeout (args : RecvArgs) :
      RecvMoves side (.timeout args) { side with
        waiting := side.waiting.erase args
        results := side.results ++ [.ok 0] }
  | relock (args : RecvArgs) (free : side.rxLock = none) :
      RecvMoves side (.relock args) { side with
        rxLock := some ⟨args, .rereadWrIdx⟩
        woken := side.woken.erase args }
  | readWrIdx (args : RecvArgs) (held : side.rxLock = some ⟨args, .readWrIdx⟩) :
      RecvMoves side .exec { side with rxLock := some ⟨args, .readRdIdx side.lane.wrIdx⟩ }
  | readRdIdx (args : RecvArgs) (wrIdx : UInt32)
      (held : side.rxLock = some ⟨args, .readRdIdx wrIdx⟩) :
      RecvMoves side .exec
        { side with rxLock := some ⟨args, .checkAvail wrIdx side.lane.rdIdx⟩ }
  | empty (args : RecvArgs) (wrIdx rdIdx : UInt32)
      (held : side.rxLock = some ⟨args, .checkAvail wrIdx rdIdx⟩) :
      RecvMoves side .exec (side.leave (.ok 0))
  | wait (args : RecvArgs) (wrIdx rdIdx : UInt32)
      (held : side.rxLock = some ⟨args, .checkAvail wrIdx rdIdx⟩) :
      RecvMoves side .exec { side with rxLock := none, waiting := args :: side.waiting }
  | avail (args : RecvArgs) (wrIdx rdIdx : UInt32)
      (held : side.rxLock = some ⟨args, .checkAvail wrIdx rdIdx⟩)
      (nonzero : recvAvail wrIdx rdIdx side.lane.descCount ≠ 0) :
      RecvMoves side .exec { side with rxLock := some ⟨args, .readFlags rdIdx⟩ }
  | rereadWrIdx (args : RecvArgs) (held : side.rxLock = some ⟨args, .rereadWrIdx⟩) :
      RecvMoves side .exec { side with rxLock := some ⟨args, .rereadRdIdx⟩ }
  | rereadRdIdx (args : RecvArgs) (held : side.rxLock = some ⟨args, .rereadRdIdx⟩) :
      RecvMoves side .exec { side with rxLock := some ⟨args, .readFlags side.lane.rdIdx⟩ }
  | valid (args : RecvArgs) (rdIdx : UInt32)
      (held : side.rxLock = some ⟨args, .readFlags rdIdx⟩)
      (valid : (side.lane.desc rdIdx.toNat).valid = true) :
      RecvMoves side .exec { side with rxLock := some ⟨args, .readLength rdIdx⟩ }
  | invalid (args : RecvArgs) (rdIdx : UInt32)
      (held : side.rxLock = some ⟨args, .readFlags rdIdx⟩)
      (invalid : ¬ (side.lane.desc rdIdx.toNat).valid = true) :
      RecvMoves side .exec (side.fail .einval)
  | tooLong (args : RecvArgs) (rdIdx : UInt32)
      (held : side.rxLock = some ⟨args, .readLength rdIdx⟩) :
      RecvMoves side .exec (side.fail .emsgsize)
  | readLength (args : RecvArgs) (rdIdx : UInt32)
      (held : side.rxLock = some ⟨args, .readLength rdIdx⟩)
      (short : ¬ args.maxLen < (side.lane.desc rdIdx.toNat).length.toNat) :
      RecvMoves side .exec
        { side with rxLock := some ⟨args, .copy rdIdx (side.lane.desc rdIdx.toNat).length⟩ }
  | copy (args : RecvArgs) (rdIdx : UInt32) (dataLen : UInt16)
      (held : side.rxLock = some ⟨args, .copy rdIdx dataLen⟩) :
      RecvMoves side .exec { side with
        rxLock := some ⟨args, .clearFlags rdIdx (side.lane.copyOut rdIdx dataLen.toNat)⟩ }
  | clearFlags (args : RecvArgs) (rdIdx : UInt32) (data : List UInt8)
      (held : side.rxLock = some ⟨args, .clearFlags rdIdx data⟩) :
      RecvMoves side .exec { side with
        lane := side.lane.setFlags rdIdx 0
        rxLock := some ⟨args, .clearLength rdIdx data⟩ }
  | clearLength (args : RecvArgs) (rdIdx : UInt32) (data : List UInt8)
      (held : side.rxLock = some ⟨args, .clearLength rdIdx data⟩) :
      RecvMoves side .exec { side with
        lane := side.lane.setLength rdIdx 0
        rxLock := some ⟨args, .advance rdIdx data⟩ }
  | advance (args : RecvArgs) (rdIdx : UInt32) (data : List UInt8)
      (held : side.rxLock = some ⟨args, .advance rdIdx data⟩) :
      RecvMoves side .exec { side with
        lane := { side.lane with rdIdx := side.lane.next rdIdx }
        delivered := side.delivered ++ [data]
        rxLock := some ⟨args, .unlock data⟩ }
  | unlock (args : RecvArgs) (data : List UInt8)
      (held : side.rxLock = some ⟨args, .unlock data⟩) :
      RecvMoves side .exec { side.leave (.ok data.length) with rxCount := side.rxCount + 1 }

theorem RecvSide.exec_moves {side next : RecvSide} (stepped : side.exec = some next) :
    RecvMoves side .exec next := by
  cases held : side.rxLock with
  | none => simp [RecvSide.exec, held] at stepped
  | some call =>
      obtain ⟨args, pc⟩ := call
      simp only [RecvSide.exec, held] at stepped
      cases pc with
      | readWrIdx =>
          cases stepped
          exact .readWrIdx args held
      | readRdIdx wrIdx =>
          cases stepped
          exact .readRdIdx args wrIdx held
      | checkAvail wrIdx rdIdx =>
          simp only at stepped
          split_ifs at stepped with none
          · cases stepped
            exact .empty args wrIdx rdIdx held
          · cases stepped
            exact .wait args wrIdx rdIdx held
          · cases stepped
            exact .avail args wrIdx rdIdx held none
      | rereadWrIdx =>
          cases stepped
          exact .rereadWrIdx args held
      | rereadRdIdx =>
          cases stepped
          exact .rereadRdIdx args held
      | readFlags rdIdx =>
          simp only at stepped
          split_ifs at stepped with valid
          · cases stepped
            exact .valid args rdIdx held valid
          · cases stepped
            exact .invalid args rdIdx held valid
      | readLength rdIdx =>
          simp only at stepped
          split_ifs at stepped with tooLong
          · cases stepped
            exact .tooLong args rdIdx held
          · cases stepped
            exact .readLength args rdIdx held tooLong
      | copy rdIdx dataLen =>
          cases stepped
          exact .copy args rdIdx dataLen held
      | clearFlags rdIdx data =>
          cases stepped
          exact .clearFlags args rdIdx data held
      | clearLength rdIdx data =>
          cases stepped
          exact .clearLength args rdIdx data held
      | advance rdIdx data =>
          cases stepped
          exact .advance args rdIdx data held
      | unlock data =>
          cases stepped
          exact .unlock args data held

theorem RecvSide.moves {side next : RecvSide} {action : RecvAction}
    (stepped : side.slave action = some next) : RecvMoves side action next := by
  cases action with
  | exec => exact RecvSide.exec_moves stepped
  | call args =>
      simp only [RecvSide.slave, RecvSide.call] at stepped
      cases free : side.rxLock with
      | some call => simp [free] at stepped
      | none =>
          simp only [free] at stepped
          split_ifs at stepped
          cases stepped
          exact .call args free
  | take args =>
      simp only [RecvSide.slave, RecvSide.take] at stepped
      split_ifs at stepped with may
      cases stepped
      exact .take args may.2
  | timeout args =>
      simp only [RecvSide.slave, RecvSide.timeout] at stepped
      split_ifs at stepped
      cases stepped
      exact .timeout args
  | relock args =>
      simp only [RecvSide.slave, RecvSide.relock] at stepped
      cases free : side.rxLock with
      | some call => simp [free] at stepped
      | none =>
          simp only [free] at stepped
          split_ifs at stepped
          cases stepped
          exact .relock args free

/-- The slave does not touch what the host has written of its message. -/
theorem RecvMoves.host {side next : RecvSide} {action : RecvAction}
    (moves : RecvMoves side action next) : next.host = side.host := by
  cases moves
  all_goals rfl

/-- The steps of an obedient host that reads. -/
inductive HostReads (side : SendSide) : SendSide → Prop where
  | read (idle : side.host = .idle) (nonempty : side.lane.rdIdx ≠ side.lane.wrIdx) :
      HostReads side { side with
        host := .taken (side.lane.copyOut side.lane.rdIdx
          (side.lane.desc side.lane.rdIdx.toNat).length.toNat) }
  | clear (data : List UInt8) (taken : side.host = .taken data) :
      HostReads side { side with
        lane := (side.lane.setFlags side.lane.rdIdx 0).setLength side.lane.rdIdx 0 }
  | release (data : List UInt8) (taken : side.host = .taken data) :
      HostReads side { side with
        lane := { side.lane with rdIdx := side.lane.next side.lane.rdIdx }
        consumed := side.consumed ++ [data]
        host := .idle }

/-- The steps of an obedient host that writes. -/
inductive HostWrites (side : RecvSide) : RecvSide → Prop where
  | begin (data : List UInt8) (idle : side.host = .idle)
      (room : side.lane.next side.lane.wrIdx ≠ side.lane.rdIdx)
      (fits : data.length ≤ side.lane.bufSize.toNat) :
      HostWrites side { side with host := .filling data false false false }
  | writeData (data : List UInt8) (wroteLength wroteFlags : Bool)
      (filling : side.host = .filling data false wroteLength wroteFlags) :
      HostWrites side { side with
        lane := side.lane.copyIn side.lane.wrIdx data
        host := .filling data true wroteLength wroteFlags }
  | writeLength (data : List UInt8) (wroteData wroteFlags : Bool)
      (filling : side.host = .filling data wroteData false wroteFlags) :
      HostWrites side { side with
        lane := side.lane.setLength side.lane.wrIdx (UInt16.ofNat data.length)
        host := .filling data wroteData true wroteFlags }
  | writeFlags (data : List UInt8) (wroteData wroteLength : Bool)
      (filling : side.host = .filling data wroteData wroteLength false) :
      HostWrites side { side with
        lane := side.lane.setFlags side.lane.wrIdx ringDescFlagValid
        host := .filling data wroteData wroteLength true }
  | publish (data : List UInt8) (filling : side.host = .filling data true true true) :
      HostWrites side { side with
        lane := { side.lane with wrIdx := side.lane.next side.lane.wrIdx }
        published := side.published ++ [data]
        host := .idle }

section Rings

variable {ring next : Ring}

/-- A step of the slave is a step of one direction, and what the steps of each
direction keep of it is kept. -/
theorem Ring.slave_sides {sendInv : SendSide → Prop} {recvInv cond : RecvSide → Prop}
    (send : sendInv ring.send) (recv : recvInv ring.recv)
    (sendStep : ∀ {side}, SendMoves ring.send side → sendInv side)
    (recvStep : ∀ {action side}, (action = .exec → cond ring.recv) →
      RecvMoves ring.recv action side → recvInv side)
    {action : SlaveAction} (meets : OnRecv cond ring action)
    (stepped : ring.slave action = some next) : sendInv next.send ∧ recvInv next.recv := by
  cases action with
  | send action =>
      obtain ⟨side, sideStep, rfl⟩ := Option.map_eq_some_iff.mp stepped
      exact ⟨sendStep (SendSide.moves sideStep), recv⟩
  | recv action =>
      obtain ⟨side, sideStep, rfl⟩ := Option.map_eq_some_iff.mp stepped
      refine ⟨send, recvStep ?_ (RecvSide.moves sideStep)⟩
      rintro rfl
      exact meets

/-- A step of the obedient host is a step of one direction. -/
theorem Ring.obey_sides {action : HostAction} (stepped : ring.obey action = some next) :
    HostReads ring.send next.send ∧ next.recv = ring.recv ∨
      next.send = ring.send ∧ HostWrites ring.recv next.recv := by
  cases action with
  | read =>
      obtain ⟨side, sideStep, rfl⟩ := Option.map_eq_some_iff.mp stepped
      unfold SendSide.hostRead at sideStep
      split at sideStep
      · rename_i idle
        split_ifs at sideStep with nonempty
        cases sideStep
        exact .inl ⟨.read idle nonempty, rfl⟩
      · cases sideStep
  | clear =>
      obtain ⟨side, sideStep, rfl⟩ := Option.map_eq_some_iff.mp stepped
      unfold SendSide.hostClear at sideStep
      split at sideStep
      · cases sideStep
      · rename_i data taken
        cases sideStep
        exact .inl ⟨.clear data taken, rfl⟩
  | release =>
      obtain ⟨side, sideStep, rfl⟩ := Option.map_eq_some_iff.mp stepped
      unfold SendSide.hostRelease at sideStep
      split at sideStep
      · cases sideStep
      · rename_i data taken
        cases sideStep
        exact .inl ⟨.release data taken, rfl⟩
  | begin data =>
      obtain ⟨side, sideStep, rfl⟩ := Option.map_eq_some_iff.mp stepped
      unfold RecvSide.hostBegin at sideStep
      split at sideStep
      · rename_i idle
        split_ifs at sideStep with may
        cases sideStep
        exact .inr ⟨rfl, .begin data idle may.1 may.2⟩
      · cases sideStep
  | writeData =>
      obtain ⟨side, sideStep, rfl⟩ := Option.map_eq_some_iff.mp stepped
      unfold RecvSide.hostWriteData at sideStep
      split at sideStep
      · rename_i data wroteLength wroteFlags filling
        cases sideStep
        exact .inr ⟨rfl, .writeData data wroteLength wroteFlags filling⟩
      · cases sideStep
  | writeLength =>
      obtain ⟨side, sideStep, rfl⟩ := Option.map_eq_some_iff.mp stepped
      unfold RecvSide.hostWriteLength at sideStep
      split at sideStep
      · rename_i data wroteData wroteFlags filling
        cases sideStep
        exact .inr ⟨rfl, .writeLength data wroteData wroteFlags filling⟩
      · cases sideStep
  | writeFlags =>
      obtain ⟨side, sideStep, rfl⟩ := Option.map_eq_some_iff.mp stepped
      unfold RecvSide.hostWriteFlags at sideStep
      split at sideStep
      · rename_i data wroteData wroteLength filling
        cases sideStep
        exact .inr ⟨rfl, .writeFlags data wroteData wroteLength filling⟩
      · cases sideStep
  | publish =>
      obtain ⟨side, sideStep, rfl⟩ := Option.map_eq_some_iff.mp stepped
      unfold RecvSide.hostPublish at sideStep
      split at sideStep
      · rename_i data filling
        cases sideStep
        exact .inr ⟨rfl, .publish data filling⟩
      · cases sideStep

end Rings

end QHal.Qring
