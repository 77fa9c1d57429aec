/-
Module: QHal.Proofs.RingDelivery
Purpose: A ring between the slave and an obedient host.  Over every interleaving
  the indices stay in range, at most all but one descriptors are in use, and both
  directions deliver their messages in order and once, as long as ring_recv does
  not look at a descriptor whose flags the host has set too early.
Trusted boundary: none
Main exports: Ring.Delivers, messages_delivered, messages_delivered_flags_last,
  recv_takes_unwritten_message
-/
import QHal.Proofs.RingSend
import QHal.Proofs.RingRecv
import QHal.Proofs.RingBounds

namespace QHal.Qring

/-- What a ring promises in every state. -/
structure Ring.Delivers (ring : Ring) : Prop where
  sendIndices : ring.send.lane.wrIdx < ring.send.lane.descCount ∧
    ring.send.lane.rdIdx < ring.send.lane.descCount
  recvIndices : ring.recv.lane.wrIdx < ring.recv.lane.descCount ∧
    ring.recv.lane.rdIdx < ring.recv.lane.descCount
  sendOutstanding : ring.send.sent.length - ring.send.consumed.length ≤
    ring.send.lane.descCount.toNat - 1
  recvOutstanding : ring.recv.published.length - ring.recv.delivered.length ≤
    ring.recv.lane.descCount.toNat - 1
  sendOrder : ring.send.consumed <+: ring.send.sent
  recvOrder : ring.recv.delivered <+: ring.recv.queue
  /-- A message the host has not read is in its descriptor. -/
  unread : ∀ k message, ring.send.consumed.length + ring.send.host.taken?.length ≤ k →
    ring.send.sent[k]? = some message →
    ring.send.lane.Holds (k % ring.send.lane.descCount.toNat) message
  /-- `ring_send` is not about to write into a descriptor the host has not released. -/
  unreleased : ∀ data pc wrIdx, ring.send.txLock = some ⟨data, pc⟩ → pc.wrIdx = some wrIdx →
    ∀ k, ring.send.consumed.length ≤ k → k < ring.send.sent.length →
    k % ring.send.lane.descCount.toNat ≠ wrIdx.toNat

/-- The invariants of both directions. -/
structure Ring.Sound (ring : Ring) : Prop where
  send : ring.send.Sound
  recv : ring.recv.Sound

theorem Ring.Sound.init (config : RingConfig) (txPool rxPool : Nat → UInt8)
    (valid : config.valid = true) : (Ring.init config txPool rxPool).Sound :=
  ⟨.init valid rxPool, .init valid txPool⟩

theorem Ring.Sound.slave (ring : Ring) (action : SlaveAction) (next : Ring) (sound : ring.Sound)
    (notExposed : OnRecv RecvSide.NotExposed ring action)
    (stepped : ring.slave action = some next) : next.Sound := by
  obtain ⟨send, recv⟩ := Ring.slave_sides sound.send sound.recv sound.send.slave
    sound.recv.slave notExposed stepped
  exact ⟨send, recv⟩

theorem Ring.Sound.obey (ring : Ring) (action : HostAction) (next : Ring) (sound : ring.Sound)
    (stepped : ring.obey action = some next) : next.Sound := by
  rcases Ring.obey_sides stepped with ⟨reads, same⟩ | ⟨same, writes⟩
  · exact ⟨sound.send.hostReads reads, same ▸ sound.recv⟩
  · exact ⟨same ▸ sound.send, sound.recv.hostWrites writes⟩

theorem Ring.Sound.give (ring : Ring) (sound : ring.Sound) :
    Ring.Sound { ring with recv := ring.recv.give } :=
  ⟨sound.send, sound.recv.give⟩

/-- A call that has read the write index has read the current one. -/
theorem SendPc.Sound.wrIdx_eq {lane : Lane} {sent consumed : Nat} {data : List UInt8}
    {pc : SendPc} (sound : pc.Sound lane sent consumed data) {wrIdx : UInt32}
    (isIdx : pc.wrIdx = some wrIdx) : wrIdx = lane.wrIdx := by
  cases pc with
  | readWrIdx => cases isIdx
  | unlock => cases isIdx
  | readRdIdx idx =>
      cases isIdx
      exact sound
  | checkAvail idx rdIdx =>
      cases isIdx
      exact sound.1
  | copy idx =>
      cases isIdx
      exact sound.1
  | setLength idx =>
      cases isIdx
      exact sound.1
  | setFlags idx =>
      cases isIdx
      exact sound.1
  | advance idx =>
      cases isIdx
      exact sound.1

theorem Ring.Sound.delivers {ring : Ring} (sound : ring.Sound) : ring.Delivers where
  sendIndices := by
    have lane := sound.send.lane
    constructor
    · rw [UInt32.lt_iff_toNat_lt, lane.wrIdx]
      exact lane.formed.index_lt _
    · rw [UInt32.lt_iff_toNat_lt, lane.rdIdx]
      exact lane.formed.index_lt _
  recvIndices := by
    have lane := sound.recv.lane
    constructor
    · exact UInt32.lt_iff_toNat_lt.mpr lane.wrIdx_lt
    · rw [UInt32.lt_iff_toNat_lt, lane.rdIdx]
      exact lane.formed.index_lt _
  sendOutstanding := by
    have room := sound.send.lane.room
    omega
  recvOutstanding := by
    have room := sound.recv.lane.room
    omega
  sendOrder := (List.prefix_append _ _).trans sound.send.lane.order
  recvOrder := sound.recv.order
  unread := sound.send.lane.held
  unreleased := by
    intro data pc wrIdx held isIdx k from_ below
    obtain ⟨_, pcSound⟩ := sound.send.call _ held
    rw [pcSound.wrIdx_eq isIdx]
    exact sound.send.lane.ne_wrIdx from_ below

/-- `ring_get_tx_available` counts the descriptors that `ring_send` may still fill. -/
theorem Ring.Sound.ringGetTxAvailable_toNat {ring : Ring} (sound : ring.Sound) :
    (ringGetTxAvailable ring).toNat =
      ring.send.lane.descCount.toNat - 1 - (ring.send.sent.length - ring.send.consumed.length) := by
  have lane := sound.send.lane
  have le := lane.le
  have room := lane.room
  exact sendAvail_toNat lane.formed lane.wrIdx lane.rdIdx (by omega) (by omega)

/-- `ring_get_rx_available` counts the published messages that wait for `ring_recv`,
unless the slave has taken one of which the host has not moved its index. -/
theorem Ring.Sound.ringGetRxAvailable_toNat {ring : Ring} (sound : ring.Sound)
    (counted : ring.recv.delivered.length ≤ ring.recv.published.length) :
    (ringGetRxAvailable ring).toNat =
      ring.recv.published.length - ring.recv.delivered.length := by
  have lane := sound.recv.lane
  have room := lane.room
  exact recvAvail_toNat lane.formed lane.wrIdx lane.rdIdx counted (by omega)

/-- In every state of every run in which `ring_recv` does not read flags that the
host has set too early, every ring keeps its promises. -/
theorem messages_delivered {world : InitWorld} {configs : List RingConfig}
    {start system last : System}
    (started : ringServiceSlaveInit world configs start = (.ok 0, system))
    (actions : List (Action HostAction))
    (notExposed : Runs.Meets (System.step Ring.obey) (OnSlave (OnRecv RecvSide.NotExposed))
      system actions)
    (run : Runs.exec (System.step Ring.obey) system actions = some last)
    (ringId : UInt8) (configured : last.configured ringId = true) :
    (last.rings ringId).Delivers :=
  (every_run Ring.Sound.init Ring.Sound.slave Ring.Sound.obey Ring.Sound.give started notExposed
    run ringId configured).delivers

section FlagsLast

/-- A step of an obedient host that never sets the flags before the data and the
length. -/
def Ring.obeyFlagsLast (ring : Ring) (action : HostAction) : Option Ring :=
  (ring.obey action).filter fun next => !next.recv.host.exposed

theorem Ring.slave_host {ring after : Ring} {action : SlaveAction}
    (stepped : ring.slave action = some after) : after.recv.host = ring.recv.host := by
  cases action with
  | send action =>
      obtain ⟨side, sideStep, rfl⟩ := Option.map_eq_some_iff.mp stepped
      rfl
  | recv action =>
      obtain ⟨side, sideStep, rfl⟩ := Option.map_eq_some_iff.mp stepped
      exact (RecvSide.moves sideStep).host

/-- The invariant of a ring whose host is careful. -/
structure Ring.SoundFlagsLast (ring : Ring) : Prop where
  sound : ring.Sound
  hidden : ring.recv.host.exposed = false

/-- Next to a host that sets the flags last every ring keeps its promises in every
state of every run. -/
theorem messages_delivered_flags_last {world : InitWorld} {configs : List RingConfig}
    {start system last : System}
    (started : ringServiceSlaveInit world configs start = (.ok 0, system))
    (actions : List (Action HostAction))
    (run : Runs.exec (System.step Ring.obeyFlagsLast) system actions = some last)
    (ringId : UInt8) (configured : last.configured ringId = true) :
    (last.rings ringId).Delivers := by
  have always : Runs.Meets (System.step Ring.obeyFlagsLast) (OnSlave fun _ _ => True) system
      actions := by
    apply Runs.meets_of_invariant (fun _ _ _ _ _ => trivial) _ actions trivial
    intro state action _
    cases action with
    | slave _ _ => trivial
    | host _ _ => trivial
    | interrupt => trivial
  suffices every : last.Every Ring.SoundFlagsLast from (every ringId configured).sound.delivers
  refine every_run ?_ ?_ ?_ ?_ started always run
  · intro config txPool rxPool valid
    exact ⟨Ring.Sound.init config txPool rxPool valid, rfl⟩
  · intro ring action next careful _ stepped
    have hidden := (congrArg HostWriter.exposed (Ring.slave_host stepped)).trans careful.hidden
    refine ⟨Ring.Sound.slave ring action next careful.sound ?_ stepped, hidden⟩
    cases action with
    | send action => trivial
    | recv action =>
        cases action with
        | exec => exact fun _ => careful.hidden
        | call args => trivial
        | take args => trivial
        | timeout args => trivial
        | relock args => trivial
  · intro ring action next careful stepped
    obtain ⟨obeyed, hidden⟩ := Option.filter_eq_some_iff.mp stepped
    exact ⟨Ring.Sound.obey ring action next careful.sound obeyed,
      (Bool.not_eq_true' _).mp hidden⟩
  · intro ring careful
    exact ⟨Ring.Sound.give ring careful.sound, careful.hidden⟩

end FlagsLast

/-- The host writes a message and moves its index. -/
def hostMessage (ringId : UInt8) (data : List UInt8) : List (Action HostAction) :=
  [.host ringId (.begin data), .host ringId .writeData, .host ringId .writeLength,
    .host ringId .writeFlags, .host ringId .publish]

/-- A call of `ring_recv` finds the first ring empty and waits. -/
def waitOnRing : List (Action HostAction) :=
  [.slave 0 (.recv (.call ⟨64, false⟩)), .slave 0 (.recv .exec), .slave 0 (.recv .exec),
    .slave 0 (.recv .exec)]

/-- It gets a token and goes on until it is about to read the flags. -/
def wakeOnRing : List (Action HostAction) :=
  [.slave 0 (.recv (.take ⟨64, false⟩)), .slave 0 (.recv (.relock ⟨64, false⟩)),
    .slave 0 (.recv .exec), .slave 0 (.recv .exec)]

/-- The call waits on the first ring and is woken by the interrupt for a message on
the second one. -/
def wakeByOtherRing : List (Action HostAction) :=
  waitOnRing ++ hostMessage 1 [1] ++ [Action.interrupt] ++ wakeOnRing

/-- From the flags to the end of the call. -/
def takeMessage : List (Action HostAction) :=
  List.replicate 7 (.slave 0 (.recv .exec))

/-- The host has written a message in the order data, length, flags, and the woken
call takes it before the host moves its index. -/
def takeBeforePublish : List (Action HostAction) :=
  [Action.host 0 (.begin [7]), .host 0 .writeData, .host 0 .writeLength, .host 0 .writeFlags] ++
    wakeByOtherRing ++ takeMessage ++ [Action.host 0 .publish]

theorem messages_delivered_before_publish :
    ∃ last, Runs.exec (System.step Ring.obey) plainSystem takeBeforePublish = some last ∧
      (last.rings 0).recv.delivered = [[7]] ∧ (last.rings 0).Delivers :=
  ⟨_, rfl, by decide,
    messages_delivered plainSystem_started takeBeforePublish (by decide) rfl 0 (by decide)⟩

/-- The same with the flags first: the call takes what was in the buffer. -/
def takeBeforeData : List (Action HostAction) :=
  [Action.host 0 (.begin [7]), .host 0 .writeFlags, .host 0 .writeLength] ++
    wakeByOtherRing ++ takeMessage ++ [Action.host 0 .writeData, .host 0 .publish]

/-- The host publishes the message 7, and `ring_recv` has delivered the message 0. -/
theorem recv_takes_unwritten_message :
    ∃ last, Runs.exec (System.step Ring.obey) plainSystem takeBeforeData = some last ∧
      (last.rings 0).recv.published = [[7]] ∧ (last.rings 0).recv.delivered = [[0]] ∧
      ¬ (last.rings 0).Delivers := by
  refine ⟨_, rfl, by decide, by decide, ?_⟩
  intro delivers
  have order := delivers.recvOrder
  revert order
  decide

end QHal.Qring
