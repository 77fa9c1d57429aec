/-
Module: QHal.Proofs.RingWakeups
Purpose: ring_recv on an empty ring.  A call that has counted the messages itself
  takes a published one; a call that was woken relies on its token.  As long as
  each woken call finds a message, an empty ring makes a call wait or return
  nothing, and no error is counted for it.
Trusted boundary: none
Main exports: RecvSide.WaitsWhenEmpty, RecvSide.WokenFindsMessage,
  recv_waits_when_empty, woken_recv_fails_on_empty_ring
-/
import QHal.Proofs.RingDelivery

namespace QHal.Qring

/-- What the call that holds `rx_lock` knows of the published messages. -/
def RecvPc.Published (lane : Lane) (published delivered : Nat) : RecvPc → Prop
  | .readWrIdx | .rereadWrIdx | .rereadRdIdx | .unlock _ => True
  | .readRdIdx wrIdx | .checkAvail wrIdx _ => ∃ seen ≤ published, delivered ≤ seen ∧
      wrIdx.toNat = seen % lane.descCount.toNat
  | .readFlags _ | .readLength _ | .copy _ _ | .clearFlags _ _ | .clearLength _ _
  | .advance _ _ => delivered < published

/-- The errors that were returned: none for an invalid descriptor, and `rx_errors`
counts those for a buffer that is too small. -/
structure ErrorsCounted (results : List Return) (rxErrors : UInt32) : Prop where
  noEinval : .error .einval ∉ results
  count : rxErrors = UInt32.ofNat (results.count (.error .emsgsize))

/-- The invariant of a direction whose woken calls find their messages. -/
structure RecvSide.Patient (side : RecvSide) : Prop where
  sound : side.Sound
  behind : side.delivered.length ≤ side.published.length
  call : ∀ call, side.rxLock = some call →
    call.pc.Published side.lane side.published.length side.delivered.length
  errors : ErrorsCounted side.results side.rxErrors

/-- What `ring_recv` does on a ring whose indices are equal: a call that counts the
messages returns nothing or waits, and no step takes a message or counts an error.
On any ring it takes published messages only. -/
structure RecvSide.WaitsWhenEmpty (side : RecvSide) : Prop where
  published : side.delivered <+: side.published
  errors : ErrorsCounted side.results side.rxErrors
  waits : side.lane.wrIdx = side.lane.rdIdx → ∀ args wrIdx rdIdx,
    side.rxLock = some ⟨args, .checkAvail wrIdx rdIdx⟩ →
    side.exec = some (if args.noWait then side.leave (.ok 0)
      else { side with rxLock := none, waiting := args :: side.waiting })
  keeps : side.lane.wrIdx = side.lane.rdIdx → ∀ next, side.exec = some next →
    next.rxErrors = side.rxErrors ∧ next.delivered = side.delivered

/-- A woken call is about to read its index again. -/
def RecvSide.rereads (side : RecvSide) : Bool :=
  match side.rxLock with
  | some ⟨_, .rereadRdIdx⟩ => true
  | _ => false

/-- A woken call that reads the indices again finds the ring filled. -/
def RecvSide.WokenFindsMessage (side : RecvSide) : Prop :=
  side.rereads = true → side.lane.wrIdx ≠ side.lane.rdIdx

instance (side : RecvSide) : Decidable side.WokenFindsMessage :=
  inferInstanceAs (Decidable (_ → _))

section Errors

variable {results : List Return} {rxErrors : UInt32}

theorem ErrorsCounted.ok (counted : ErrorsCounted results rxErrors) (value : Nat) :
    ErrorsCounted (results ++ [.ok value]) rxErrors where
  noEinval := by
    intro member
    rcases List.mem_append.mp member with old | new
    · exact counted.noEinval old
    · cases List.mem_singleton.mp new
  count := by
    have other : List.count (Return.error .emsgsize) [.ok value] = 0 :=
      List.count_eq_zero.mpr (by simp)
    rw [List.count_append, other, Nat.add_zero]
    exact counted.count

theorem ErrorsCounted.emsgsize (counted : ErrorsCounted results rxErrors) :
    ErrorsCounted (results ++ [.error .emsgsize]) (rxErrors + 1) where
  noEinval := by
    intro member
    rcases List.mem_append.mp member with old | new
    · exact counted.noEinval old
    · cases List.mem_singleton.mp new
  count := by
    rw [List.count_append, List.count_singleton_self, UInt32.ofNat_add, ← counted.count]
    rfl

end Errors

section Lane

variable {lane : Lane} {host : HostWriter} {published : List (List UInt8)}
  {delivered taken : Nat}

/-- Of a ring that holds a message the indices differ. -/
theorem RecvLane.indices_ne (sound : RecvLane lane host published delivered taken)
    (some : delivered < published.length) : lane.wrIdx ≠ lane.rdIdx := by
  intro same
  have room := sound.room
  have indices := congrArg UInt32.toNat same
  rw [sound.wrIdx, sound.rdIdx] at indices
  exact Circular.index_ne some (by omega) indices.symm

/-- A ring whose indices differ holds a message. -/
theorem RecvLane.lt_of_indices_ne (sound : RecvLane lane host published delivered taken)
    (behind : delivered ≤ published.length) (differ : lane.wrIdx ≠ lane.rdIdx) :
    delivered < published.length := by
  apply Nat.lt_of_le_of_ne behind
  intro same
  apply differ
  apply UInt32.toNat_inj.mp
  rw [sound.wrIdx, sound.rdIdx, same]

/-- The next published message is in a valid descriptor. -/
theorem RecvLane.valid_of_lt (sound : RecvLane lane host published delivered delivered)
    (some : delivered < published.length) : (lane.desc lane.rdIdx.toNat).valid = true := by
  rw [sound.rdIdx]
  exact (sound.held delivered _ (Nat.le_refl _) (List.getElem?_eq_getElem some)).1

/-- The messages a call counts below a write index it has read. -/
theorem RecvLane.avail_toNat (sound : RecvLane lane host published delivered taken)
    {wrIdx : UInt32} {seen : Nat} (le : seen ≤ published.length) (from_ : delivered ≤ seen)
    (wrIs : wrIdx.toNat = seen % lane.descCount.toNat) :
    (recvAvail wrIdx lane.rdIdx lane.descCount).toNat = seen - delivered := by
  have room := sound.room
  exact recvAvail_toNat sound.formed wrIs sound.rdIdx from_ (by omega)

end Lane

section Steps

variable {side next : RecvSide}

theorem RecvSide.Patient.init {config : RingConfig} (valid : config.valid = true)
    (pool : Nat → UInt8) :
    RecvSide.Patient ⟨Lane.init config pool, none, [], [], 0, config.descCount.toNat, 0, 0, .idle,
      [], [], []⟩ where
  sound := .init valid pool
  behind := Nat.le_refl _
  call := nofun
  errors := ⟨nofun, rfl⟩

/-- A patient call reads the flags of a published descriptor only. -/
theorem RecvSide.Patient.notExposed (patient : side.Patient) : side.NotExposed := by
  intro unpublished
  unfold RecvSide.readsUnpublished at unpublished
  split at unpublished
  · rename_i args rdIdx held
    have some := patient.call _ held
    exact absurd (beq_iff_eq.mp unpublished) (patient.sound.lane.indices_ne some)
  · cases unpublished

/-- A step that takes no message and returns nothing. -/
theorem RecvSide.Patient.move (patient : side.Patient) (sound : next.Sound)
    (published : next.published = side.published) (delivered : next.delivered = side.delivered)
    (errors : ErrorsCounted next.results next.rxErrors)
    (call : ∀ call, next.rxLock = some call →
      call.pc.Published next.lane side.published.length side.delivered.length) :
    next.Patient where
  sound := sound
  behind := by
    rw [published, delivered]
    exact patient.behind
  call := by
    rw [published, delivered]
    exact call
  errors := errors

/-- The call that holds the lock goes on and knows no less. -/
theorem RecvSide.Patient.goOn (patient : side.Patient) {args : RecvArgs} {pc pc' : RecvPc}
    (held : side.rxLock = some ⟨args, pc⟩) (sound : next.Sound)
    (lock : next.rxLock = some ⟨args, pc'⟩) (published : next.published = side.published)
    (delivered : next.delivered = side.delivered)
    (errors : ErrorsCounted next.results next.rxErrors)
    (knows : pc.Published side.lane side.published.length side.delivered.length →
      pc'.Published next.lane side.published.length side.delivered.length) : next.Patient := by
  refine patient.move sound published delivered errors ?_
  intro call holds
  rw [lock] at holds
  cases holds
  exact knows (patient.call _ held)

theorem RecvSide.Patient.slave (patient : side.Patient) {action : RecvAction}
    (finds : action = .exec → side.WokenFindsMessage) (moves : RecvMoves side action next) :
    next.Patient := by
  have sound := patient.sound.slave (fun _ => patient.notExposed) moves
  have lane := patient.sound.lane
  have errors := patient.errors
  cases moves with
  | call args free =>
      refine patient.move sound rfl rfl errors ?_
      rintro _ ⟨⟩
      trivial
  | take args token => exact patient.move sound rfl rfl errors patient.call
  | timeout args => exact patient.move sound rfl rfl (errors.ok 0) patient.call
  | relock args free =>
      refine patient.move sound rfl rfl errors ?_
      rintro _ ⟨⟩
      trivial
  | readWrIdx args held =>
      refine patient.move sound rfl rfl errors ?_
      rintro _ ⟨⟩
      exact ⟨side.published.length, Nat.le_refl _, patient.behind, lane.wrIdx⟩
  | readRdIdx args wrIdx held => exact patient.goOn held sound rfl rfl rfl errors id
  | empty args wrIdx rdIdx held => exact patient.move sound rfl rfl (errors.ok 0) nofun
  | wait args wrIdx rdIdx held => exact patient.move sound rfl rfl errors nofun
  | avail args wrIdx rdIdx held nonzero =>
      obtain rfl := patient.sound.call _ held
      obtain ⟨seen, le, from_, wrIs⟩ := patient.call _ held
      have avail := lane.avail_toNat le from_ wrIs
      refine patient.move sound rfl rfl errors ?_
      rintro _ ⟨⟩
      have some : (recvAvail wrIdx side.lane.rdIdx side.lane.descCount).toNat ≠ 0 :=
        fun zero => nonzero (UInt32.toNat_inj.mp zero)
      show side.delivered.length < side.published.length
      omega
  | rereadWrIdx args held =>
      refine patient.move sound rfl rfl errors ?_
      rintro _ ⟨⟩
      trivial
  | rereadRdIdx args held =>
      refine patient.move sound rfl rfl errors ?_
      rintro _ ⟨⟩
      apply lane.lt_of_indices_ne patient.behind
      apply finds rfl
      rw [RecvSide.rereads, held]
  | valid args rdIdx held valid => exact patient.goOn held sound rfl rfl rfl errors id
  | invalid args rdIdx held invalid =>
      -- The next message is published, so that its descriptor is valid.
      obtain rfl := patient.sound.call _ held
      rw [RecvSide.gone_of_held held] at lane
      exact absurd (RecvLane.valid_of_lt lane (patient.call _ held)) invalid
  | tooLong args rdIdx held => exact patient.move sound rfl rfl errors.emsgsize nofun
  | readLength args rdIdx held short => exact patient.goOn held sound rfl rfl rfl errors id
  | copy args rdIdx dataLen held => exact patient.goOn held sound rfl rfl rfl errors id
  | clearFlags args rdIdx data held => exact patient.goOn held sound rfl rfl rfl errors id
  | clearLength args rdIdx data held => exact patient.goOn held sound rfl rfl rfl errors id
  | advance args rdIdx data held =>
      refine ⟨sound, ?_, ?_, errors⟩
      · rw [List.length_append, List.length_singleton]
        exact patient.call _ held
      · rintro _ ⟨⟩
        trivial
  | unlock args data held =>
      exact patient.move sound rfl rfl (errors.ok data.length) nofun

/-- What the calls know of the published messages stays true when there are more. -/
theorem RecvPc.Published.mono {lane after : Lane} {published published' delivered : Nat}
    {pc : RecvPc} (known : pc.Published lane published delivered)
    (count : after.descCount = lane.descCount) (le : published ≤ published') :
    pc.Published after published' delivered := by
  cases pc with
  | readWrIdx => trivial
  | readRdIdx wrIdx =>
      obtain ⟨seen, seenLe, from_, wrIs⟩ := known
      exact ⟨seen, Nat.le_trans seenLe le, from_, count ▸ wrIs⟩
  | checkAvail wrIdx rdIdx =>
      obtain ⟨seen, seenLe, from_, wrIs⟩ := known
      exact ⟨seen, Nat.le_trans seenLe le, from_, count ▸ wrIs⟩
  | rereadWrIdx => trivial
  | rereadRdIdx => trivial
  | readFlags rdIdx => exact Nat.lt_of_lt_of_le known le
  | readLength rdIdx => exact Nat.lt_of_lt_of_le known le
  | copy rdIdx dataLen => exact Nat.lt_of_lt_of_le known le
  | clearFlags rdIdx data => exact Nat.lt_of_lt_of_le known le
  | clearLength rdIdx data => exact Nat.lt_of_lt_of_le known le
  | advance rdIdx data => exact Nat.lt_of_lt_of_le known le
  | unlock data => trivial

/-- What the host leaves alone. -/
structure RecvSide.HostKeeps (side next : RecvSide) : Prop where
  lock : next.rxLock = side.rxLock
  count : next.lane.descCount = side.lane.descCount
  delivered : next.delivered = side.delivered
  results : next.results = side.results
  rxErrors : next.rxErrors = side.rxErrors
  published : side.published.length ≤ next.published.length

theorem HostWrites.keeps (moves : HostWrites side next) : side.HostKeeps next := by
  cases moves with
  | begin data idle room fits => exact ⟨rfl, rfl, rfl, rfl, rfl, Nat.le_refl _⟩
  | writeData data wroteLength wroteFlags filling =>
      exact ⟨rfl, rfl, rfl, rfl, rfl, Nat.le_refl _⟩
  | writeLength data wroteData wroteFlags filling =>
      exact ⟨rfl, rfl, rfl, rfl, rfl, Nat.le_refl _⟩
  | writeFlags data wroteData wroteLength filling =>
      exact ⟨rfl, rfl, rfl, rfl, rfl, Nat.le_refl _⟩
  | publish data filling =>
      refine ⟨rfl, rfl, rfl, rfl, rfl, ?_⟩
      rw [List.length_append]
      exact Nat.le_add_right _ _

theorem RecvSide.Patient.host (patient : side.Patient) (sound : next.Sound)
    (keeps : side.HostKeeps next) : next.Patient where
  sound := sound
  behind := by
    rw [keeps.delivered]
    exact Nat.le_trans patient.behind keeps.published
  call := by
    intro call held
    rw [keeps.delivered]
    exact (patient.call call (keeps.lock ▸ held)).mono keeps.count keeps.published
  errors := by
    rw [keeps.results, keeps.rxErrors]
    exact patient.errors

/-- On an empty ring the call has not counted a message. -/
theorem RecvSide.Patient.waits (patient : side.Patient)
    (empty : side.lane.wrIdx = side.lane.rdIdx) {args : RecvArgs} {wrIdx rdIdx : UInt32}
    (held : side.rxLock = some ⟨args, .checkAvail wrIdx rdIdx⟩) :
    side.exec = some (if args.noWait then side.leave (.ok 0)
      else { side with rxLock := none, waiting := args :: side.waiting }) := by
  have lane := patient.sound.lane
  obtain rfl := patient.sound.call _ held
  obtain ⟨seen, le, from_, wrIs⟩ := patient.call _ held
  have none : ¬ side.delivered.length < side.published.length :=
    fun some => lane.indices_ne some empty
  have avail := lane.avail_toNat le from_ wrIs
  have zero : recvAvail wrIdx side.lane.rdIdx side.lane.descCount = 0 := by
    apply UInt32.toNat_inj.mp
    rw [avail]
    show seen - side.delivered.length = 0
    omega
  simp only [RecvSide.exec, held, zero, if_true]
  split_ifs
  · rfl
  · rfl

/-- On an empty ring no step takes a message or counts an error. -/
theorem RecvSide.Patient.keeps (patient : side.Patient)
    (empty : side.lane.wrIdx = side.lane.rdIdx) (moves : RecvMoves side .exec next) :
    next.rxErrors = side.rxErrors ∧ next.delivered = side.delivered := by
  have none : ¬ side.delivered.length < side.published.length :=
    fun some => patient.sound.lane.indices_ne some empty
  cases moves with
  | readWrIdx args held => exact ⟨rfl, rfl⟩
  | readRdIdx args wrIdx held => exact ⟨rfl, rfl⟩
  | empty args wrIdx rdIdx held => exact ⟨rfl, rfl⟩
  | wait args wrIdx rdIdx held => exact ⟨rfl, rfl⟩
  | avail args wrIdx rdIdx held nonzero => exact ⟨rfl, rfl⟩
  | rereadWrIdx args held => exact ⟨rfl, rfl⟩
  | rereadRdIdx args held => exact ⟨rfl, rfl⟩
  | unlock args data held => exact ⟨rfl, rfl⟩
  | valid args rdIdx held valid => exact absurd (patient.call _ held) none
  | invalid args rdIdx held invalid => exact absurd (patient.call _ held) none
  | tooLong args rdIdx held => exact absurd (patient.call _ held) none
  | readLength args rdIdx held short => exact absurd (patient.call _ held) none
  | copy args rdIdx dataLen held => exact absurd (patient.call _ held) none
  | clearFlags args rdIdx data held => exact absurd (patient.call _ held) none
  | clearLength args rdIdx data held => exact absurd (patient.call _ held) none
  | advance args rdIdx data held => exact absurd (patient.call _ held) none

theorem RecvSide.Patient.waitsWhenEmpty (patient : side.Patient) : side.WaitsWhenEmpty where
  published := List.prefix_of_prefix_length_le patient.sound.order (List.prefix_append _ _)
    patient.behind
  errors := patient.errors
  waits := fun empty _ _ _ held => patient.waits empty held
  keeps := fun empty _ stepped => patient.keeps empty (RecvSide.exec_moves stepped)

end Steps

section Rings

/-- The invariants of a ring whose woken calls find their messages. -/
structure Ring.Patient (ring : Ring) : Prop where
  send : ring.send.Sound
  recv : ring.recv.Patient

theorem Ring.Patient.init (config : RingConfig) (txPool rxPool : Nat → UInt8)
    (valid : config.valid = true) : (Ring.init config txPool rxPool).Patient :=
  ⟨.init valid rxPool, .init valid txPool⟩

theorem Ring.Patient.slave (ring : Ring) (action : SlaveAction) (next : Ring)
    (patient : ring.Patient) (finds : OnRecv RecvSide.WokenFindsMessage ring action)
    (stepped : ring.slave action = some next) : next.Patient := by
  obtain ⟨send, recv⟩ := Ring.slave_sides patient.send patient.recv patient.send.slave
    patient.recv.slave finds stepped
  exact ⟨send, recv⟩

theorem Ring.Patient.obey (ring : Ring) (action : HostAction) (next : Ring)
    (patient : ring.Patient) (stepped : ring.obey action = some next) : next.Patient := by
  rcases Ring.obey_sides stepped with ⟨reads, same⟩ | ⟨same, writes⟩
  · exact ⟨patient.send.hostReads reads, same ▸ patient.recv⟩
  · exact ⟨same ▸ patient.send,
      patient.recv.host (patient.recv.sound.hostWrites writes) writes.keeps⟩

theorem Ring.Patient.give (ring : Ring) (patient : ring.Patient) :
    Ring.Patient { ring with recv := ring.recv.give } :=
  ⟨patient.send, patient.recv.move patient.recv.sound.give rfl rfl patient.recv.errors
    patient.recv.call⟩

/-- In every state of every run whose woken calls find a message, `ring_recv` on an
empty ring returns nothing or waits. -/
theorem recv_waits_when_empty {world : InitWorld} {configs : List RingConfig}
    {start system last : System}
    (started : ringServiceSlaveInit world configs start = (.ok 0, system))
    (actions : List (Action HostAction))
    (finds : Runs.Meets (System.step Ring.obey) (OnSlave (OnRecv RecvSide.WokenFindsMessage))
      system actions)
    (run : Runs.exec (System.step Ring.obey) system actions = some last)
    (ringId : UInt8) (configured : last.configured ringId = true) :
    (last.rings ringId).recv.WaitsWhenEmpty :=
  (every_run Ring.Patient.init Ring.Patient.slave Ring.Patient.obey Ring.Patient.give started finds
    run ringId configured).recv.waitsWhenEmpty

/-- The call waits on the first ring and is woken by the interrupt for a message on
this ring. -/
def wakeByOwnRing : List (Action HostAction) :=
  waitOnRing ++ hostMessage 0 [7] ++ [Action.interrupt] ++ wakeOnRing ++ takeMessage

theorem recv_waits_for_own_message :
    ∃ last, Runs.exec (System.step Ring.obey) plainSystem wakeByOwnRing = some last ∧
      (last.rings 0).recv.delivered = [[7]] ∧ (last.rings 0).recv.WaitsWhenEmpty :=
  ⟨_, rfl, by decide,
    recv_waits_when_empty plainSystem_started wakeByOwnRing (by decide) rfl 0 (by decide)⟩

/-- A message on the second ring wakes the call on the first one, which is empty: it
returns an error and counts it. -/
theorem woken_recv_fails_on_empty_ring :
    ∃ last, Runs.exec (System.step Ring.obey) plainSystem
        (wakeByOtherRing ++ [.slave 0 (.recv .exec)]) = some last ∧
      (last.rings 0).recv.published = [] ∧
      (last.rings 0).recv.results = [.error .einval] ∧ (last.rings 0).recv.rxErrors = 1 ∧
      ¬ (last.rings 0).recv.WaitsWhenEmpty := by
  refine ⟨_, rfl, by decide, by decide, by decide, ?_⟩
  intro waits
  have noEinval := waits.errors.noEinval
  revert noEinval
  decide

end Rings

end QHal.Qring
