/-
Module: QHal.Proofs.RingSend
Purpose: The direction from the slave to an obedient host.  The messages between
  the two indices lie in their descriptors, the call of ring_send that holds the
  lock fills a free descriptor, and the host reads the messages in order.
Trusted boundary: none
Main exports: SendLane, SendPc.Sound, SendSide.Sound, SendSide.Sound.slave,
  SendSide.Sound.hostReads
-/
import QHal.Proofs.RingLanes
import QHal.Proofs.RingMoves
import Mathlib.Data.List.Infix

namespace QHal.Qring

/-- The messages the host has read but not released. -/
def HostReader.taken? : HostReader → List (List UInt8)
  | .idle => []
  | .taken data => [data]

/-- What the call that holds `tx_lock` has done for the descriptor behind the
outstanding messages; `sent` and `consumed` count the messages. -/
def SendPc.Sound (lane : Lane) (sent consumed : Nat) (data : List UInt8) : SendPc → Prop
  | .readWrIdx => True
  | .readRdIdx wrIdx => wrIdx = lane.wrIdx
  | .checkAvail wrIdx rdIdx => wrIdx = lane.wrIdx ∧ ∃ seen ≤ consumed,
      sent + 1 ≤ seen + lane.descCount.toNat ∧ rdIdx.toNat = seen % lane.descCount.toNat
  | .copy wrIdx => wrIdx = lane.wrIdx ∧ sent + 2 ≤ consumed + lane.descCount.toNat
  | .setLength wrIdx => wrIdx = lane.wrIdx ∧ sent + 2 ≤ consumed + lane.descCount.toNat ∧
      lane.bytes wrIdx.toNat data.length = data
  | .setFlags wrIdx => wrIdx = lane.wrIdx ∧ sent + 2 ≤ consumed + lane.descCount.toNat ∧
      lane.Holds wrIdx.toNat data
  | .advance wrIdx => wrIdx = lane.wrIdx ∧ sent + 2 ≤ consumed + lane.descCount.toNat ∧
      lane.Holds wrIdx.toNat data
  | .unlock => True

/-- The lane between the slave and the host: the indices count the messages, and
the descriptors between them hold the messages that the host has not read. -/
structure SendLane (lane : Lane) (host : HostReader) (sent consumed : List (List UInt8)) :
    Prop where
  formed : lane.Formed
  small : ∀ message ∈ sent, message.length ≤ lane.bufSize.toNat
  wrIdx : lane.wrIdx.toNat = sent.length % lane.descCount.toNat
  rdIdx : lane.rdIdx.toNat = consumed.length % lane.descCount.toNat
  room : sent.length + 1 ≤ consumed.length + lane.descCount.toNat
  order : consumed ++ host.taken? <+: sent
  held : ∀ k message, consumed.length + host.taken?.length ≤ k → sent[k]? = some message →
    lane.Holds (k % lane.descCount.toNat) message

/-- The direction to the host with the call that holds its lock. -/
structure SendSide.Sound (side : SendSide) : Prop where
  lane : SendLane side.lane side.host side.sent side.consumed
  call : ∀ call, side.txLock = some call → call.data.length ≤ side.lane.bufSize.toNat ∧
    call.pc.Sound side.lane side.sent.length side.consumed.length call.data

section Lane

variable {lane : Lane} {host : HostReader} {sent consumed : List (List UInt8)}

/-- The host is not ahead of the slave. -/
theorem SendLane.le (sound : SendLane lane host sent consumed) :
    consumed.length + host.taken?.length ≤ sent.length := by
  have le := sound.order.length_le
  rwa [List.length_append] at le

/-- A message between the indices is not in the descriptor that is filled next. -/
theorem SendLane.ne_wrIdx (sound : SendLane lane host sent consumed) {k : Nat}
    (from_ : consumed.length ≤ k) (below : k < sent.length) :
    k % lane.descCount.toNat ≠ lane.wrIdx.toNat := by
  have room := sound.room
  rw [sound.wrIdx]
  exact Circular.index_ne below (by omega)

/-- The slave fills the next descriptor. -/
theorem SendLane.fill (sound : SendLane lane host sent consumed) {next : Lane}
    (formed : next.Formed) (count : next.descCount = lane.descCount)
    (size : next.bufSize = lane.bufSize) (wrIdx : next.wrIdx = lane.wrIdx)
    (rdIdx : next.rdIdx = lane.rdIdx)
    (others : ∀ j message, j ≠ lane.wrIdx.toNat → j < lane.descCount.toNat →
      message.length ≤ lane.bufSize.toNat → lane.Holds j message → next.Holds j message) :
    SendLane next host sent consumed where
  formed := formed
  small := size ▸ sound.small
  wrIdx := by rw [wrIdx, count]; exact sound.wrIdx
  rdIdx := by rw [rdIdx, count]; exact sound.rdIdx
  room := count ▸ sound.room
  order := sound.order
  held := by
    intro k message from_ isMessage
    have below : k < sent.length := (List.getElem?_eq_some_iff.mp isMessage).1
    rw [count]
    exact others _ message (sound.ne_wrIdx (by omega) below) (sound.formed.index_lt k)
      (sound.small message (List.mem_of_getElem? isMessage))
      (sound.held k message from_ isMessage)

/-- The slave moves its index over the message it has filled in. -/
theorem SendLane.push (sound : SendLane lane host sent consumed) {data : List UInt8}
    (fits : data.length ≤ lane.bufSize.toNat)
    (space : sent.length + 2 ≤ consumed.length + lane.descCount.toNat)
    (holds : lane.Holds lane.wrIdx.toNat data) :
    SendLane { lane with wrIdx := lane.next lane.wrIdx } host (sent ++ [data]) consumed where
  formed := sound.formed.setWrIdx _
  small := by
    intro message member
    rcases List.mem_append.mp member with old | new
    · exact sound.small message old
    · rw [List.mem_singleton.mp new]
      exact fits
  wrIdx := by
    rw [List.length_append, List.length_singleton]
    exact sound.formed.next_toNat sound.wrIdx
  rdIdx := sound.rdIdx
  room := by
    rw [List.length_append, List.length_singleton]
    exact space
  order := sound.order.trans (List.prefix_append sent [data])
  held := by
    intro k message from_ isMessage
    by_cases old : k < sent.length
    · rw [List.getElem?_append_left old] at isMessage
      have held := sound.held k message from_ isMessage
      exact ⟨held.length, held.bytes⟩
    · rw [List.getElem?_append_right (Nat.not_lt.mp old)] at isMessage
      have last : k = sent.length := by
        have below := (List.getElem?_eq_some_iff.mp isMessage).1
        rw [List.length_singleton] at below
        omega
      subst last
      rw [Nat.sub_self] at isMessage
      cases isMessage
      rw [sound.wrIdx] at holds
      exact ⟨holds.length, holds.bytes⟩

/-- The host reads the oldest message. -/
theorem SendLane.read (sound : SendLane lane .idle sent consumed)
    (nonempty : lane.rdIdx ≠ lane.wrIdx) :
    SendLane lane (.taken (lane.copyOut lane.rdIdx
      (lane.desc lane.rdIdx.toNat).length.toNat)) sent consumed := by
  have le : consumed.length ≤ sent.length := sound.le
  have below : consumed.length < sent.length := by
    apply Nat.lt_of_le_of_ne le
    intro same
    apply nonempty
    apply UInt32.toNat_inj.mp
    rw [sound.rdIdx, sound.wrIdx, same]
  have oldest : sent[consumed.length]? = some sent[consumed.length] :=
    List.getElem?_eq_getElem below
  have holds := sound.held consumed.length _ (Nat.le_refl _) oldest
  rw [← sound.rdIdx] at holds
  have message : lane.copyOut lane.rdIdx (lane.desc lane.rdIdx.toNat).length.toNat =
      sent[consumed.length] := by
    rw [holds.length]
    exact holds.bytes
  rw [message]
  exact { sound with
    order := by
      have before := sound.order
      rw [HostReader.taken?, List.append_nil] at before
      exact List.concat_get_prefix before below
    held := fun k message from_ => sound.held k message (Nat.le_of_succ_le from_) }

/-- The host clears the descriptor it has read. -/
theorem SendLane.clear {data : List UInt8} (sound : SendLane lane (.taken data) sent consumed) :
    SendLane ((lane.setFlags lane.rdIdx 0).setLength lane.rdIdx 0) (.taken data) sent consumed
    where
  formed := (sound.formed.setFlags _ _).setLength _ _
  small := sound.small
  wrIdx := sound.wrIdx
  rdIdx := sound.rdIdx
  room := sound.room
  order := sound.order
  held := by
    intro k message from_ isMessage
    have below : k < sent.length := (List.getElem?_eq_some_iff.mp isMessage).1
    have room := sound.room
    have later : consumed.length < k := from_
    have other : k % lane.descCount.toNat ≠ lane.rdIdx.toNat := by
      rw [sound.rdIdx]
      exact (Circular.index_ne later (by omega)).symm
    exact ((sound.held k message from_ isMessage).setFlags _ _).setLength other _

/-- The host releases the descriptor it has read. -/
theorem SendLane.release {data : List UInt8}
    (sound : SendLane lane (.taken data) sent consumed) :
    SendLane { lane with rdIdx := lane.next lane.rdIdx } .idle sent (consumed ++ [data]) where
  formed := sound.formed.setRdIdx _
  small := sound.small
  wrIdx := sound.wrIdx
  rdIdx := by
    rw [List.length_append, List.length_singleton]
    exact sound.formed.next_toNat sound.rdIdx
  room := by
    have room := sound.room
    rw [List.length_append, List.length_singleton]
    show sent.length + 1 ≤ consumed.length + 1 + lane.descCount.toNat
    omega
  order := by
    rw [HostReader.taken?, List.append_nil]
    exact sound.order
  held := by
    intro k message from_ isMessage
    rw [List.length_append, List.length_singleton] at from_
    have held := sound.held k message from_ isMessage
    exact ⟨held.length, held.bytes⟩

end Lane

section Steps

variable {side next : SendSide}

theorem SendSide.Sound.init {config : RingConfig} (valid : config.valid = true)
    (pool : Nat → UInt8) :
    SendSide.Sound ⟨Lane.init config pool, none, 0, .idle, [], [], []⟩ where
  lane := {
    formed := Lane.Formed.init valid pool
    small := nofun
    wrIdx := (Nat.zero_mod _).symm
    rdIdx := (Nat.zero_mod _).symm
    room := by
      have positive := (Lane.Formed.init valid pool).count_pos
      rw [List.length_nil, Nat.zero_add, Nat.zero_add]
      exact positive
    order := List.prefix_rfl
    held := nofun }
  call := nofun

/-- The call that holds the lock goes on; the lane may have changed. -/
theorem SendSide.Sound.move {data : List UInt8} {pc : SendPc}
    (lane : SendLane next.lane next.host next.sent next.consumed)
    (lock : next.txLock = some ⟨data, pc⟩) (fits : data.length ≤ next.lane.bufSize.toNat)
    (sound : pc.Sound next.lane next.sent.length next.consumed.length data) : next.Sound where
  lane := lane
  call := by
    intro call held
    rw [lock] at held
    cases held
    exact ⟨fits, sound⟩

theorem SendSide.Sound.unlocked
    (lane : SendLane next.lane next.host next.sent next.consumed) (free : next.txLock = none) :
    next.Sound where
  lane := lane
  call := by
    intro call held
    rw [free] at held
    cases held

/-- A call that finds a free descriptor has found one that is free for good. -/
theorem SendLane.space {lane : Lane} {host : HostReader} {sent consumed : List (List UInt8)}
    (sound : SendLane lane host sent consumed) {rdIdx : UInt32} {seen : Nat}
    (le : seen ≤ consumed.length) (room : sent.length + 1 ≤ seen + lane.descCount.toNat)
    (rdIs : rdIdx.toNat = seen % lane.descCount.toNat)
    (some : sendAvail lane.wrIdx rdIdx lane.descCount ≠ 0) :
    sent.length + 2 ≤ consumed.length + lane.descCount.toNat := by
  have ahead := sound.le
  have free := sendAvail_toNat sound.formed sound.wrIdx rdIs (by omega) (by omega)
  have nonzero : (sendAvail lane.wrIdx rdIdx lane.descCount).toNat ≠ 0 :=
    fun zero => some (UInt32.toNat_inj.mp zero)
  omega

theorem SendSide.Sound.slave (sound : side.Sound) (moves : SendMoves side next) : next.Sound := by
  have lane := sound.lane
  have formed := lane.formed
  cases moves with
  | call data free fits => exact .move lane rfl fits trivial
  | readWrIdx data held =>
      obtain ⟨fits, _⟩ := sound.call _ held
      exact .move lane rfl fits rfl
  | readRdIdx data wrIdx held =>
      obtain ⟨fits, isIdx⟩ := sound.call _ held
      exact .move lane rfl fits
        ⟨isIdx, side.consumed.length, Nat.le_refl _, lane.room, lane.rdIdx⟩
  | full data wrIdx rdIdx held => exact .unlocked lane rfl
  | room data wrIdx rdIdx held nonzero =>
      obtain ⟨fits, rfl, seen, le, room, rdIs⟩ := sound.call _ held
      exact .move lane rfl fits ⟨rfl, lane.space le room rdIs nonzero⟩
  | copy data wrIdx held =>
      obtain ⟨fits, rfl, space⟩ := sound.call _ held
      have wrBelow : side.lane.wrIdx.toNat < side.lane.descCount.toNat := by
        rw [lane.wrIdx]
        exact formed.index_lt _
      refine .move (lane.fill (formed.copyIn _ data) rfl rfl rfl rfl ?_) rfl fits
        ⟨rfl, space, Lane.bytes_copyIn_self ..⟩
      intro j message other below small holds
      exact holds.copyIn formed other below wrBelow fits small
  | setLength data wrIdx held =>
      obtain ⟨fits, rfl, space, copied⟩ := sound.call _ held
      refine .move (lane.fill (formed.setLength _ _) rfl rfl rfl rfl ?_) rfl fits
        ⟨rfl, space, formed.holds_setLength fits copied⟩
      intro j message other _ _ holds
      exact holds.setLength other _
  | setFlags data wrIdx held =>
      obtain ⟨fits, rfl, space, filled⟩ := sound.call _ held
      refine .move (lane.fill (formed.setFlags _ _) rfl rfl rfl rfl ?_) rfl fits
        ⟨rfl, space, filled.setFlags _ _⟩
      intro j message _ _ _ holds
      exact holds.setFlags _ _
  | advance data wrIdx held =>
      obtain ⟨fits, rfl, space, filled⟩ := sound.call _ held
      exact .move (lane.push fits space filled) rfl fits trivial
  | unlock data held => exact .unlocked lane rfl

/-- What the call knows survives the steps of the host: it touches another
descriptor, and more descriptors become free. -/
theorem SendPc.Sound.host {lane after : Lane} {sent consumed released : Nat}
    {data : List UInt8} {pc : SendPc} (sound : pc.Sound lane sent consumed data)
    (count : after.descCount = lane.descCount) (wrIdx : after.wrIdx = lane.wrIdx)
    (le : consumed ≤ released)
    (holds : lane.Holds lane.wrIdx.toNat data → after.Holds lane.wrIdx.toNat data)
    (bytes : lane.bytes lane.wrIdx.toNat data.length = data →
      after.bytes lane.wrIdx.toNat data.length = data) :
    pc.Sound after sent released data := by
  cases pc with
  | readWrIdx => trivial
  | readRdIdx idx => exact sound.trans wrIdx.symm
  | checkAvail idx rdIdx =>
      obtain ⟨rfl, seen, seenLe, room, rdIs⟩ := sound
      exact ⟨wrIdx.symm, seen, Nat.le_trans seenLe le, count ▸ room, count ▸ rdIs⟩
  | copy idx =>
      obtain ⟨rfl, space⟩ := sound
      exact ⟨wrIdx.symm, by rw [count]; omega⟩
  | setLength idx =>
      obtain ⟨rfl, space, copied⟩ := sound
      exact ⟨wrIdx.symm, by rw [count]; omega, bytes copied⟩
  | setFlags idx =>
      obtain ⟨rfl, space, filled⟩ := sound
      exact ⟨wrIdx.symm, by rw [count]; omega, holds filled⟩
  | advance idx =>
      obtain ⟨rfl, space, filled⟩ := sound
      exact ⟨wrIdx.symm, by rw [count]; omega, holds filled⟩
  | unlock => trivial

theorem SendSide.Sound.hostReads (sound : side.Sound) (moves : HostReads side next) :
    next.Sound := by
  have lane := sound.lane
  cases moves with
  | read idle nonempty =>
      rw [idle] at lane
      exact ⟨lane.read nonempty, sound.call⟩
  | clear data taken =>
      rw [taken] at lane
      have other : side.lane.wrIdx.toNat ≠ side.lane.rdIdx.toNat := by
        have ahead : side.consumed.length + 1 ≤ side.sent.length := lane.le
        have room := lane.room
        rw [lane.wrIdx, lane.rdIdx]
        exact (Circular.index_ne (by omega) (by omega)).symm
      refine ⟨taken ▸ lane.clear, fun call held => ?_⟩
      obtain ⟨fits, pcSound⟩ := sound.call call held
      refine ⟨fits, pcSound.host rfl rfl (Nat.le_refl _) ?_ ?_⟩
      · intro holds
        exact (holds.setFlags _ _).setLength other _
      · intro copied
        rw [Lane.bytes_setLength, Lane.bytes_setFlags]
        exact copied
  | release data taken =>
      rw [taken] at lane
      refine ⟨lane.release, fun call held => ?_⟩
      obtain ⟨fits, pcSound⟩ := sound.call call held
      refine ⟨fits, pcSound.host rfl rfl ?_ (fun holds => ⟨holds.length, holds.bytes⟩) id⟩
      rw [List.length_append]
      exact Nat.le_add_right _ _

end Steps

end QHal.Qring
