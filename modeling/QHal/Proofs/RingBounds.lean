/-
Module: QHal.Proofs.RingBounds
Purpose: The slave stays inside its buffers next to a host that writes any value
  into its own side of the shared memory.  The indices the slave uses are its own,
  ring_send checks its length; ring_recv compares the length it reads with the
  caller's buffer only.
Trusted boundary: none
Main exports: InBuffer, Ring.AccessesInside, RecvSide.LengthFits, accesses_inside,
  recv_copies_behind_buffer
-/
import QHal.Proofs.RingMoves

namespace QHal.Qring

/-- `count` bytes from the start of the buffer of a descriptor lie in it. -/
structure InBuffer (lane : Lane) (idx : UInt32) (count : Nat) : Prop where
  idx_lt : idx < lane.descCount
  start : (lane.desc idx.toNat).bufferAddr = idx.toNat * lane.bufSize.toNat
  fits : count ≤ lane.bufSize.toNat

theorem Lane.Formed.inBuffer {lane : Lane} {idx : UInt32} {count : Nat} (formed : lane.Formed)
    (below : idx < lane.descCount) (fits : count ≤ lane.bufSize.toNat) :
    InBuffer lane idx count :=
  ⟨below, formed.addr _ (UInt32.lt_iff_toNat_lt.mp below), fits⟩

/-- The write index a call of `ring_send` has read. -/
def SendPc.wrIdx : SendPc → Option UInt32
  | .readWrIdx | .unlock => none
  | .readRdIdx wrIdx | .checkAvail wrIdx _ | .copy wrIdx | .setLength wrIdx
  | .setFlags wrIdx | .advance wrIdx => some wrIdx

/-- The read index a call of `ring_recv` has read. -/
def RecvPc.rdIdx : RecvPc → Option UInt32
  | .readWrIdx | .readRdIdx _ | .rereadWrIdx | .rereadRdIdx | .unlock _ => none
  | .checkAvail _ rdIdx | .readFlags rdIdx | .readLength rdIdx | .copy rdIdx _
  | .clearFlags rdIdx _ | .clearLength rdIdx _ | .advance rdIdx _ => some rdIdx

/-- Every index the slave has read and uses is below the number of descriptors,
and every copy lies in the buffer of its descriptor. -/
structure Ring.AccessesInside (ring : Ring) : Prop where
  sendIdx : ∀ data pc wrIdx, ring.send.txLock = some ⟨data, pc⟩ → pc.wrIdx = some wrIdx →
    wrIdx < ring.send.lane.descCount
  recvIdx : ∀ args pc rdIdx, ring.recv.rxLock = some ⟨args, pc⟩ → pc.rdIdx = some rdIdx →
    rdIdx < ring.recv.lane.descCount
  sendCopy : ∀ data wrIdx, ring.send.txLock = some ⟨data, .copy wrIdx⟩ →
    InBuffer ring.send.lane wrIdx data.length
  recvCopy : ∀ args rdIdx dataLen, ring.recv.rxLock = some ⟨args, .copy rdIdx dataLen⟩ →
    InBuffer ring.recv.lane rdIdx dataLen.toNat

section Send

/-- The bounds of the direction to the host. -/
structure SendSide.Bounded (side : SendSide) : Prop where
  formed : side.lane.Formed
  wrIdx : side.lane.wrIdx < side.lane.descCount
  local_lt : ∀ data pc wrIdx, side.txLock = some ⟨data, pc⟩ → pc.wrIdx = some wrIdx →
    wrIdx < side.lane.descCount
  fits : ∀ data pc, side.txLock = some ⟨data, pc⟩ → data.length ≤ side.lane.bufSize.toNat

/-- A step of the call that holds the lock: the lane keeps its form, and the call
knows the index it has known or reads the lane's. -/
theorem SendSide.Bounded.move {side next : SendSide} {data : List UInt8} {pc pc' : SendPc}
    (bounded : side.Bounded) (held : side.txLock = some ⟨data, pc⟩)
    (lock : next.txLock = some ⟨data, pc'⟩) (formed : next.lane.Formed)
    (size : next.lane.bufSize = side.lane.bufSize)
    (count : next.lane.descCount = side.lane.descCount)
    (wrIdx : next.lane.wrIdx < side.lane.descCount)
    (known : ∀ idx, pc'.wrIdx = some idx → pc.wrIdx = some idx ∨ idx = side.lane.wrIdx) :
    next.Bounded where
  formed := formed
  wrIdx := count ▸ wrIdx
  local_lt := by
    intro other otherPc idx holds isIdx
    rw [lock] at holds
    cases holds
    rw [count]
    rcases known idx isIdx with before | rfl
    · exact bounded.local_lt data pc idx held before
    · exact bounded.wrIdx
  fits := by
    intro other otherPc holds
    rw [lock] at holds
    cases holds
    rw [size]
    exact bounded.fits data pc held

theorem SendSide.Bounded.release {side next : SendSide} (bounded : side.Bounded)
    (lane : next.lane = side.lane) (free : next.txLock = none) : next.Bounded where
  formed := lane ▸ bounded.formed
  wrIdx := lane ▸ bounded.wrIdx
  local_lt := by
    intro data pc wrIdx holds
    rw [free] at holds
    cases holds
  fits := by
    intro data pc holds
    rw [free] at holds
    cases holds

theorem SendSide.Bounded.slave {side next : SendSide} (bounded : side.Bounded)
    (moves : SendMoves side next) : next.Bounded := by
  cases moves with
  | call data free fits =>
      exact {
        formed := bounded.formed
        wrIdx := bounded.wrIdx
        local_lt := by
          rintro _ _ _ ⟨⟩ ⟨⟩
        fits := by
          rintro _ _ ⟨⟩
          exact fits }
  | readWrIdx data held =>
      refine bounded.move held rfl bounded.formed rfl rfl bounded.wrIdx ?_
      rintro idx ⟨⟩
      exact .inr rfl
  | readRdIdx data wrIdx held =>
      exact bounded.move held rfl bounded.formed rfl rfl bounded.wrIdx fun _ => .inl
  | full data wrIdx rdIdx held => exact bounded.release rfl rfl
  | room data wrIdx rdIdx held nonzero =>
      exact bounded.move held rfl bounded.formed rfl rfl bounded.wrIdx fun _ => .inl
  | copy data wrIdx held =>
      exact bounded.move held rfl (bounded.formed.copyIn wrIdx data) rfl rfl bounded.wrIdx
        fun _ => .inl
  | setLength data wrIdx held =>
      exact bounded.move held rfl (bounded.formed.setLength wrIdx _) rfl rfl bounded.wrIdx
        fun _ => .inl
  | setFlags data wrIdx held =>
      exact bounded.move held rfl (bounded.formed.setFlags wrIdx _) rfl rfl bounded.wrIdx
        fun _ => .inl
  | advance data wrIdx held =>
      exact bounded.move held rfl (bounded.formed.setWrIdx _) rfl rfl
        (bounded.formed.next_lt wrIdx) nofun
  | unlock data held => exact bounded.release rfl rfl

end Send

section Recv

/-- The bounds of the direction from the host. -/
structure RecvSide.Bounded (side : RecvSide) : Prop where
  formed : side.lane.Formed
  rdIdx : side.lane.rdIdx < side.lane.descCount
  local_lt : ∀ args pc rdIdx, side.rxLock = some ⟨args, pc⟩ → pc.rdIdx = some rdIdx →
    rdIdx < side.lane.descCount
  fits : ∀ args rdIdx dataLen, side.rxLock = some ⟨args, .copy rdIdx dataLen⟩ →
    dataLen.toNat ≤ side.lane.bufSize.toNat

/-- The length that `ring_recv` reads, and the size of the caller's buffer. -/
def RecvSide.lengthRead (side : RecvSide) : Option (Nat × Nat) :=
  match side.rxLock with
  | some ⟨args, .readLength rdIdx⟩ =>
      some ((side.lane.desc rdIdx.toNat).length.toNat, args.maxLen)
  | _ => none

/-- The length that `ring_recv` reads fits into the buffer of the descriptor, or the
caller's buffer is too small for it as well. -/
def RecvSide.LengthFits (side : RecvSide) : Prop :=
  ∀ read ∈ side.lengthRead, side.lane.bufSize.toNat < read.1 → read.2 < read.1

instance (side : RecvSide) : Decidable side.LengthFits :=
  match readIs : side.lengthRead with
  | some read =>
      decidable_of_iff (side.lane.bufSize.toNat < read.1 → read.2 < read.1)
        (by simp [RecvSide.LengthFits, readIs])
  | none => isTrue (by simp [RecvSide.LengthFits, readIs])

/-- A step of the call that holds the lock: the lane keeps its form, and the call
knows the index it has known or reads the lane's. -/
theorem RecvSide.Bounded.move {side next : RecvSide} {args : RecvArgs} {pc pc' : RecvPc}
    (bounded : side.Bounded) (held : side.rxLock = some ⟨args, pc⟩)
    (lock : next.rxLock = some ⟨args, pc'⟩) (formed : next.lane.Formed)
    (count : next.lane.descCount = side.lane.descCount)
    (rdIdx : next.lane.rdIdx < side.lane.descCount)
    (known : ∀ idx, pc'.rdIdx = some idx → pc.rdIdx = some idx ∨ idx = side.lane.rdIdx)
    (fits : ∀ idx dataLen, pc' = .copy idx dataLen →
      dataLen.toNat ≤ next.lane.bufSize.toNat) : next.Bounded where
  formed := formed
  rdIdx := count ▸ rdIdx
  local_lt := by
    intro other otherPc idx holds isIdx
    rw [lock] at holds
    cases holds
    rw [count]
    rcases known idx isIdx with before | rfl
    · exact bounded.local_lt args pc idx held before
    · exact bounded.rdIdx
  fits := by
    intro other idx dataLen holds
    rw [lock] at holds
    cases holds
    exact fits idx dataLen rfl

/-- A call takes the lock and has not read an index. -/
theorem RecvSide.Bounded.acquire {side next : RecvSide} {args : RecvArgs} {pc : RecvPc}
    (bounded : side.Bounded) (lane : next.lane = side.lane)
    (lock : next.rxLock = some ⟨args, pc⟩) (fresh : pc.rdIdx = none) : next.Bounded where
  formed := lane ▸ bounded.formed
  rdIdx := lane ▸ bounded.rdIdx
  local_lt := by
    intro other otherPc idx holds isIdx
    rw [lock] at holds
    cases holds
    rw [fresh] at isIdx
    cases isIdx
  fits := by
    intro other idx dataLen holds
    rw [lock] at holds
    cases holds
    cases fresh

/-- A step that leaves the lane and the lock alone, or gives the lock back. -/
theorem RecvSide.Bounded.release {side next : RecvSide} (bounded : side.Bounded)
    (lane : next.lane = side.lane) (lock : next.rxLock = none ∨ next.rxLock = side.rxLock) :
    next.Bounded where
  formed := lane ▸ bounded.formed
  rdIdx := lane ▸ bounded.rdIdx
  local_lt := by
    intro args pc idx holds isIdx
    rcases lock with free | same
    · rw [free] at holds
      cases holds
    · rw [lane]
      exact bounded.local_lt args pc idx (same ▸ holds) isIdx
  fits := by
    intro args idx dataLen holds
    rcases lock with free | same
    · rw [free] at holds
      cases holds
    · rw [lane]
      exact bounded.fits args idx dataLen (same ▸ holds)

theorem RecvSide.Bounded.slave {side next : RecvSide} (bounded : side.Bounded)
    {action : RecvAction} (lengthFits : action = .exec → side.LengthFits)
    (moves : RecvMoves side action next) : next.Bounded := by
  have formed := bounded.formed
  have below := bounded.rdIdx
  cases moves with
  | call args free => exact bounded.acquire rfl rfl rfl
  | take args token => exact bounded.release rfl (Or.inr rfl)
  | timeout args => exact bounded.release rfl (Or.inr rfl)
  | relock args free => exact bounded.acquire rfl rfl rfl
  | readWrIdx args held => exact bounded.move held rfl formed rfl below nofun nofun
  | readRdIdx args wrIdx held =>
      refine bounded.move held rfl formed rfl below ?_ nofun
      rintro idx ⟨⟩
      exact .inr rfl
  | empty args wrIdx rdIdx held => exact bounded.release rfl (Or.inl rfl)
  | wait args wrIdx rdIdx held => exact bounded.release rfl (Or.inl rfl)
  | avail args wrIdx rdIdx held nonzero =>
      exact bounded.move held rfl formed rfl below (fun _ => .inl) nofun
  | rereadWrIdx args held => exact bounded.move held rfl formed rfl below nofun nofun
  | rereadRdIdx args held =>
      refine bounded.move held rfl formed rfl below ?_ nofun
      rintro idx ⟨⟩
      exact .inr rfl
  | valid args rdIdx held valid =>
      exact bounded.move held rfl formed rfl below (fun _ => .inl) nofun
  | invalid args rdIdx held invalid => exact bounded.release rfl (Or.inl rfl)
  | tooLong args rdIdx held => exact bounded.release rfl (Or.inl rfl)
  | readLength args rdIdx held short =>
      refine bounded.move held rfl formed rfl below (fun _ => .inl) ?_
      rintro idx dataLen ⟨⟩
      by_contra outside
      have read : side.lengthRead =
          some ((side.lane.desc rdIdx.toNat).length.toNat, args.maxLen) := by
        rw [RecvSide.lengthRead, held]
      exact short (lengthFits rfl _ read (Nat.not_le.mp outside))
  | copy args rdIdx dataLen held =>
      exact bounded.move held rfl formed rfl below (fun _ => .inl) nofun
  | clearFlags args rdIdx data held =>
      exact bounded.move held rfl (formed.setFlags rdIdx _) rfl below (fun _ => .inl) nofun
  | clearLength args rdIdx data held =>
      exact bounded.move held rfl (formed.setLength rdIdx _) rfl below (fun _ => .inl) nofun
  | advance args rdIdx data held =>
      exact bounded.move held rfl (formed.setRdIdx _) rfl (formed.next_lt rdIdx) nofun nofun
  | unlock args data held => exact bounded.release rfl (Or.inl rfl)

end Recv

section Bounds

/-- The bounds of a ring. -/
structure Ring.Bounded (ring : Ring) : Prop where
  send : ring.send.Bounded
  recv : ring.recv.Bounded

theorem Ring.Bounded.init {config : RingConfig} (valid : config.valid = true)
    (txPool rxPool : Nat → UInt8) : (Ring.init config txPool rxPool).Bounded := by
  have txFormed := Lane.Formed.init valid txPool
  have rxFormed := Lane.Formed.init valid rxPool
  have some : 0 < config.descCount := UInt32.lt_iff_toNat_lt.mpr txFormed.count_pos
  exact ⟨⟨rxFormed, some, nofun, nofun⟩, ⟨txFormed, some, nofun, nofun⟩⟩

theorem Ring.Bounded.slave (ring : Ring) (action : SlaveAction) (next : Ring)
    (bounded : ring.Bounded) (fits : OnRecv RecvSide.LengthFits ring action)
    (stepped : ring.slave action = some next) : next.Bounded := by
  obtain ⟨send, recv⟩ := Ring.slave_sides bounded.send bounded.recv bounded.send.slave
    bounded.recv.slave fits stepped
  exact ⟨send, recv⟩

/-- No write of the host touches the bounds: it does not own the indices the slave
uses, and lengths and flags are not among them. -/
theorem Ring.Bounded.scribble (ring : Ring) (write : HostWrite) (next : Ring)
    (bounded : ring.Bounded) (stepped : ring.scribble write = some next) : next.Bounded := by
  obtain ⟨send, recv⟩ := bounded
  cases write with
  | txWrIdx value =>
      cases stepped
      exact ⟨send, ⟨recv.formed.setWrIdx value, recv.rdIdx, recv.local_lt, recv.fits⟩⟩
  | rxRdIdx value =>
      cases stepped
      exact ⟨⟨send.formed.setRdIdx value, send.wrIdx, send.local_lt, send.fits⟩, recv⟩
  | length idx value =>
      cases stepped
      exact ⟨send, ⟨recv.formed.setLength idx value, recv.rdIdx, recv.local_lt, recv.fits⟩⟩
  | flags idx value =>
      cases stepped
      exact ⟨send, ⟨recv.formed.setFlags idx value, recv.rdIdx, recv.local_lt, recv.fits⟩⟩

theorem Ring.Bounded.give (ring : Ring) (bounded : ring.Bounded) :
    Ring.Bounded { ring with recv := ring.recv.give } :=
  ⟨bounded.send, bounded.recv.release rfl (Or.inr rfl)⟩

theorem Ring.Bounded.accessesInside {ring : Ring} (bounded : ring.Bounded) :
    ring.AccessesInside where
  sendIdx := bounded.send.local_lt
  recvIdx := bounded.recv.local_lt
  sendCopy := by
    intro data wrIdx held
    exact bounded.send.formed.inBuffer (bounded.send.local_lt data _ wrIdx held rfl)
      (bounded.send.fits data _ held)
  recvCopy := by
    intro args rdIdx dataLen held
    exact bounded.recv.formed.inBuffer (bounded.recv.local_lt args _ rdIdx held rfl)
      (bounded.recv.fits args rdIdx dataLen held)

/-- Next to a host that writes what it likes, in every state of every run whose
received lengths fit, the slave uses indices below the number of descriptors and
copies inside the buffers of its descriptors. -/
theorem accesses_inside {world : InitWorld} {configs : List RingConfig}
    {start system last : System}
    (started : ringServiceSlaveInit world configs start = (.ok 0, system))
    (actions : List (Action HostWrite))
    (fits : Runs.Meets (System.step Ring.scribble) (OnSlave (OnRecv RecvSide.LengthFits)) system
      actions)
    (run : Runs.exec (System.step Ring.scribble) system actions = some last)
    (ringId : UInt8) (configured : last.configured ringId = true) :
    (last.rings ringId).AccessesInside :=
  (every_run (fun _ txPool rxPool valid => Ring.Bounded.init valid txPool rxPool)
    Ring.Bounded.slave Ring.Bounded.scribble Ring.Bounded.give started fits run ringId
    configured).accessesInside

/-- The host writes a length into the first descriptor and publishes it, and a call
of `ring_recv` goes on until it is about to copy. -/
def receiveLength (length : UInt16) : List (Action HostWrite) :=
  [.host 0 (.flags 0 1), .host 0 (.length 0 length), .host 0 (.txWrIdx 1),
    .slave 0 (.recv (.call ⟨2048, true⟩)), .slave 0 (.recv .exec), .slave 0 (.recv .exec),
    .slave 0 (.recv .exec), .slave 0 (.recv .exec), .slave 0 (.recv .exec)]

/-- A message of 100 bytes. -/
theorem accesses_inside_short_message :
    ∃ last, Runs.exec (System.step Ring.scribble) plainSystem (receiveLength 100) = some last ∧
      (last.rings 0).AccessesInside :=
  ⟨_, rfl, accesses_inside plainSystem_started (receiveLength 100) (by decide) rfl 0 (by decide)⟩

/-- A length of 2000: the slave is about to copy 2000 bytes out of a buffer of
1500. -/
theorem recv_copies_behind_buffer :
    ∃ last, Runs.exec (System.step Ring.scribble) plainSystem (receiveLength 2000) = some last ∧
      (last.rings 0).recv.rxLock = some ⟨⟨2048, true⟩, .copy 0 2000⟩ ∧
      (last.rings 0).recv.lane.bufSize = 1500 ∧ ¬ (last.rings 0).AccessesInside := by
  refine ⟨_, rfl, by decide, by decide, ?_⟩
  intro inside
  have fits := (inside.recvCopy ⟨2048, true⟩ 0 2000 (by decide)).fits
  revert fits
  decide

end Bounds

end QHal.Qring
