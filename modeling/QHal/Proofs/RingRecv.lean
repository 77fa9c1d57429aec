/-
Module: QHal.Proofs.RingRecv
Purpose: The direction from an obedient host to the slave.  The published messages
  between the indices lie in valid descriptors, all other descriptors but the one
  the host fills are invalid, and ring_recv takes the messages in order.  A call
  that was woken may take the message the host is about to publish, but only if
  the host has written all of it.
Trusted boundary: none
Main exports: HostWriter.ready, RecvLane, RecvPc.Sound, RecvSide.Sound,
  RecvSide.NotExposed, RecvSide.Sound.slave, RecvSide.Sound.hostWrites
-/
import QHal.Proofs.RingLanes
import QHal.Proofs.RingMoves
import Mathlib.Data.List.Infix

namespace QHal.Qring

/-- The message the host is writing. -/
def HostWriter.pending : HostWriter → List (List UInt8)
  | .idle => []
  | .filling data _ _ _ => [data]

/-- The message the host has written as a whole but not published. -/
def HostWriter.ready : HostWriter → List (List UInt8)
  | .filling data true true true => [data]
  | _ => []

/-- The host has set the flags before the data and the length. -/
def HostWriter.exposed : HostWriter → Bool
  | .filling _ wroteData wroteLength true => !(wroteData && wroteLength)
  | _ => false

/-- What the host has written of a message into a descriptor. -/
structure Lane.Part (lane : Lane) (j : Nat) (data : List UInt8)
    (wroteData wroteLength wroteFlags : Bool) : Prop where
  flags : (lane.desc j).valid = wroteFlags
  length : wroteLength = true → (lane.desc j).length.toNat = data.length
  bytes : wroteData = true → lane.bytes j data.length = data

/-- The lane between the host and the slave, of which the slave has moved its index
over `delivered` messages and taken `taken`. -/
structure RecvLane (lane : Lane) (host : HostWriter) (published : List (List UInt8))
    (delivered taken : Nat) : Prop where
  formed : lane.Formed
  small : ∀ message ∈ published ++ host.pending, message.length ≤ lane.bufSize.toNat
  wrIdx : lane.wrIdx.toNat = published.length % lane.descCount.toNat
  rdIdx : lane.rdIdx.toNat = delivered % lane.descCount.toNat
  room : published.length + host.pending.length + 1 ≤ delivered + lane.descCount.toNat
  from_ : delivered ≤ taken
  upTo : taken ≤ published.length + host.ready.length
  held : ∀ k message, taken ≤ k → published[k]? = some message →
    (lane.desc (k % lane.descCount.toNat)).valid = true ∧
      lane.Holds (k % lane.descCount.toNat) message
  part : taken ≤ published.length → ∀ data wroteData wroteLength wroteFlags,
    host = .filling data wroteData wroteLength wroteFlags →
    lane.Part (published.length % lane.descCount.toNat) data wroteData wroteLength wroteFlags
  empty : ∀ k, published.length + host.pending.length ≤ k →
    k < taken + lane.descCount.toNat → (lane.desc (k % lane.descCount.toNat)).valid = false

/-- What the call that holds `rx_lock` knows of the message it takes; `queue` are
the messages the host has written. -/
def RecvPc.Sound (lane : Lane) (queue : List (List UInt8)) (delivered : Nat) : RecvPc → Prop
  | .readWrIdx | .readRdIdx _ | .rereadWrIdx | .rereadRdIdx | .unlock _ => True
  | .checkAvail _ rdIdx => rdIdx = lane.rdIdx
  | .readFlags rdIdx => rdIdx = lane.rdIdx
  | .readLength rdIdx => rdIdx = lane.rdIdx ∧ delivered < queue.length
  | .copy rdIdx dataLen => rdIdx = lane.rdIdx ∧
      ∃ message, queue[delivered]? = some message ∧ dataLen.toNat = message.length
  | .clearFlags rdIdx data => rdIdx = lane.rdIdx ∧ queue[delivered]? = some data
  | .clearLength rdIdx data => rdIdx = lane.rdIdx ∧ queue[delivered]? = some data
  | .advance rdIdx data => rdIdx = lane.rdIdx ∧ queue[delivered]? = some data

/-- The messages that are taken but not counted by the index. -/
def RecvPc.gone : RecvPc → Nat
  | .clearLength _ _ | .advance _ _ => 1
  | _ => 0

def RecvSide.gone (side : RecvSide) : Nat :=
  match side.rxLock with
  | some call => call.pc.gone
  | none => 0

/-- The messages the host has written, published or not. -/
def RecvSide.queue (side : RecvSide) : List (List UInt8) := side.published ++ side.host.ready

/-- The direction from the host with the call that holds its lock. -/
structure RecvSide.Sound (side : RecvSide) : Prop where
  lane : RecvLane side.lane side.host side.published side.delivered.length
    (side.delivered.length + side.gone)
  order : side.delivered <+: side.queue
  call : ∀ call, side.rxLock = some call →
    call.pc.Sound side.lane side.queue side.delivered.length

section Taking

variable {lane : Lane} {host : HostWriter} {published : List (List UInt8)}
  {delivered taken : Nat}

theorem invalid_zero {addr : Nat} {length : UInt16} :
    RingDescriptor.valid ⟨addr, length, 0⟩ = false :=
  (by decide : ((0 : UInt16) &&& ringDescFlagValid != 0) = false)

theorem valid_setFlags_zero (lane : Lane) (idx : UInt32) :
    ((lane.setFlags idx 0).desc idx.toNat).valid = false := by
  rw [setFlags_desc, if_pos rfl]
  exact invalid_zero

theorem valid_setFlags_other {idx : UInt32} {j : Nat} (other : j ≠ idx.toNat) (flags : UInt16) :
    ((lane.setFlags idx flags).desc j).valid = (lane.desc j).valid := by
  rw [setFlags_desc, if_neg other]

@[simp] theorem valid_setLength (lane : Lane) (idx : UInt32) (length : UInt16) (j : Nat) :
    ((lane.setLength idx length).desc j).valid = (lane.desc j).valid := by
  rw [setLength_desc]
  split_ifs with same
  · rw [same]
    rfl
  · rfl

theorem Lane.Part.setFlags_other {j : Nat} {data : List UInt8} {c l f : Bool}
    (part : lane.Part j data c l f) {idx : UInt32} (other : j ≠ idx.toNat) (flags : UInt16) :
    (lane.setFlags idx flags).Part j data c l f where
  flags := (valid_setFlags_other other flags).trans part.flags
  length := by
    intro wrote
    rw [setFlags_desc, if_neg other]
    exact part.length wrote
  bytes := by
    intro wrote
    rw [Lane.bytes_setFlags]
    exact part.bytes wrote

theorem Lane.Part.setLength_other {j : Nat} {data : List UInt8} {c l f : Bool}
    (part : lane.Part j data c l f) {idx : UInt32} (other : j ≠ idx.toNat) (length : UInt16) :
    (lane.setLength idx length).Part j data c l f where
  flags := (valid_setLength ..).trans part.flags
  length := by
    intro wrote
    rw [setLength_desc, if_neg other]
    exact part.length wrote
  bytes := by
    intro wrote
    rw [Lane.bytes_setLength]
    exact part.bytes wrote

/-- A message between the slave's index and the end of the ring is not in the
descriptor the slave takes. -/
theorem RecvLane.ne_rdIdx (sound : RecvLane lane host published delivered taken) {k : Nat}
    (later : delivered < k) (below : k < delivered + lane.descCount.toNat) :
    k % lane.descCount.toNat ≠ lane.rdIdx.toNat := by
  rw [sound.rdIdx]
  exact (Circular.index_ne later below).symm

theorem published_lt {k : Nat} {message : List UInt8} (isMessage : published[k]? = some message) :
    k < published.length :=
  (List.getElem?_eq_some_iff.mp isMessage).1

/-- The slave clears the flags of the message it takes. -/
theorem RecvLane.take (sound : RecvLane lane host published delivered delivered)
    (some : delivered < published.length + host.ready.length) :
    RecvLane (lane.setFlags lane.rdIdx 0) host published delivered (delivered + 1) where
  formed := sound.formed.setFlags _ _
  small := sound.small
  wrIdx := sound.wrIdx
  rdIdx := sound.rdIdx
  room := sound.room
  from_ := Nat.le_succ delivered
  upTo := some
  held := by
    intro k message from_ isMessage
    have below := published_lt isMessage
    have room := sound.room
    obtain ⟨valid, holds⟩ := sound.held k message (Nat.le_of_succ_le from_) isMessage
    have other := sound.ne_rdIdx from_ (by omega)
    exact ⟨(valid_setFlags_other other 0).trans valid, holds.setFlags _ _⟩
  part := by
    intro notTaken data c l f hostIs
    have room := sound.room
    have other : published.length % lane.descCount.toNat ≠ lane.rdIdx.toNat :=
      sound.ne_rdIdx notTaken (by omega)
    exact (sound.part (by omega) data c l f hostIs).setFlags_other other 0
  empty := by
    intro k from_ below
    have countIs : (lane.setFlags lane.rdIdx 0).descCount = lane.descCount := rfl
    rw [countIs] at below ⊢
    by_cases same : k % lane.descCount.toNat = lane.rdIdx.toNat
    · rw [same]
      exact valid_setFlags_zero lane _
    · rw [valid_setFlags_other same]
      apply sound.empty k from_
      have notLast : k ≠ delivered + lane.descCount.toNat := by
        rintro rfl
        apply same
        rw [Nat.add_mod_right, sound.rdIdx]
      omega

/-- The slave clears the length of the message it has taken. -/
theorem RecvLane.clearLength (sound : RecvLane lane host published delivered (delivered + 1)) :
    RecvLane (lane.setLength lane.rdIdx 0) host published delivered (delivered + 1) where
  formed := sound.formed.setLength _ _
  small := sound.small
  wrIdx := sound.wrIdx
  rdIdx := sound.rdIdx
  room := sound.room
  from_ := sound.from_
  upTo := sound.upTo
  held := by
    intro k message from_ isMessage
    have below := published_lt isMessage
    have room := sound.room
    obtain ⟨valid, holds⟩ := sound.held k message from_ isMessage
    exact ⟨(valid_setLength ..).trans valid,
      holds.setLength (sound.ne_rdIdx from_ (by omega)) 0⟩
  part := by
    intro notTaken data c l f hostIs
    have room := sound.room
    exact (sound.part notTaken data c l f hostIs).setLength_other
      (sound.ne_rdIdx notTaken (by omega)) 0
  empty := by
    intro k from_ below
    rw [valid_setLength]
    exact sound.empty k from_ below

/-- The slave moves its index over the message it has taken. -/
theorem RecvLane.advance (sound : RecvLane lane host published delivered (delivered + 1)) :
    RecvLane { lane with rdIdx := lane.next lane.rdIdx } host published (delivered + 1)
      (delivered + 1) where
  formed := sound.formed.setRdIdx _
  small := sound.small
  wrIdx := sound.wrIdx
  rdIdx := sound.formed.next_toNat sound.rdIdx
  room := by
    have room := sound.room
    show published.length + host.pending.length + 1 ≤ delivered + 1 + lane.descCount.toNat
    omega
  from_ := Nat.le_refl _
  upTo := sound.upTo
  held := by
    intro k message from_ isMessage
    obtain ⟨valid, holds⟩ := sound.held k message from_ isMessage
    exact ⟨valid, holds.length, holds.bytes⟩
  part := by
    intro notTaken data c l f hostIs
    have part := sound.part notTaken data c l f hostIs
    exact ⟨part.flags, part.length, part.bytes⟩
  empty := sound.empty

end Taking

section Filling

variable {lane : Lane} {published : List (List UInt8)} {delivered taken : Nat}
  {data : List UInt8} {c l f : Bool}

/-- The message that is written is not a taken one, unless it is complete. -/
theorem RecvLane.notTaken (sound : RecvLane lane (.filling data c l f) published delivered taken)
    (incomplete : HostWriter.ready (.filling data c l f) = []) : taken ≤ published.length := by
  have upTo := sound.upTo
  rwa [incomplete] at upTo

/-- The host begins a message in a ring that is not full. -/
theorem RecvLane.begin (sound : RecvLane lane .idle published delivered taken)
    (notFull : lane.next lane.wrIdx ≠ lane.rdIdx) (fits : data.length ≤ lane.bufSize.toNat) :
    RecvLane lane (.filling data false false false) published delivered taken where
  formed := sound.formed
  small := by
    intro message member
    rcases List.mem_append.mp member with old | new
    · exact sound.small message (List.mem_append_left _ old)
    · rw [List.mem_singleton.mp new]
      exact fits
  wrIdx := sound.wrIdx
  rdIdx := sound.rdIdx
  room := by
    have room : published.length + 1 ≤ delivered + lane.descCount.toNat := sound.room
    have notEqual : published.length + 1 ≠ delivered + lane.descCount.toNat := by
      intro full
      apply notFull
      apply UInt32.toNat_inj.mp
      rw [sound.formed.next_toNat sound.wrIdx, sound.rdIdx, full, Nat.add_mod_right]
    show published.length + 1 + 1 ≤ delivered + lane.descCount.toNat
    omega
  from_ := sound.from_
  upTo := sound.upTo
  held := sound.held
  part := by
    intro notTaken other otherC otherL otherF hostIs
    cases hostIs
    have positive := sound.formed.count_pos
    have room : published.length + 1 ≤ delivered + lane.descCount.toNat := sound.room
    have from_ := sound.from_
    exact ⟨sound.empty published.length (Nat.le_refl _) (by omega), nofun, nofun⟩
  empty := by
    intro k from_ below
    exact sound.empty k (Nat.le_of_succ_le from_) below

/-- The host writes into the descriptor behind the published messages. -/
theorem RecvLane.write {next : Lane} {c' l' f' : Bool}
    (sound : RecvLane lane (.filling data c l f) published delivered taken)
    (incomplete : HostWriter.ready (.filling data c l f) = [])
    (formed : next.Formed) (count : next.descCount = lane.descCount)
    (size : next.bufSize = lane.bufSize) (wrIdx : next.wrIdx = lane.wrIdx)
    (rdIdx : next.rdIdx = lane.rdIdx)
    (others : ∀ j, j ≠ lane.wrIdx.toNat → j < lane.descCount.toNat →
      (next.desc j).valid = (lane.desc j).valid ∧
        ∀ message, message.length ≤ lane.bufSize.toNat → lane.Holds j message →
          next.Holds j message)
    (part : lane.Part lane.wrIdx.toNat data c l f → next.Part lane.wrIdx.toNat data c' l' f') :
    RecvLane next (.filling data c' l' f') published delivered taken := by
  have notTaken := sound.notTaken incomplete
  have room : published.length + 1 + 1 ≤ delivered + lane.descCount.toNat := sound.room
  have from_ := sound.from_
  exact {
    formed := formed
    small := size ▸ sound.small
    wrIdx := by rw [wrIdx, count]; exact sound.wrIdx
    rdIdx := by rw [rdIdx, count]; exact sound.rdIdx
    room := count ▸ sound.room
    from_ := from_
    upTo := Nat.le_trans notTaken (Nat.le_add_right _ _)
    held := by
      intro k message later isMessage
      have below := published_lt isMessage
      have other : k % lane.descCount.toNat ≠ lane.wrIdx.toNat := by
        rw [sound.wrIdx]
        exact Circular.index_ne below (by omega)
      obtain ⟨valid, holds⟩ := sound.held k message later isMessage
      obtain ⟨sameValid, keeps⟩ := others _ other (sound.formed.index_lt k)
      rw [count]
      exact ⟨sameValid.trans valid, keeps message
        (sound.small message (List.mem_append_left _ (List.mem_of_getElem? isMessage))) holds⟩
    part := by
      intro _ other otherC otherL otherF hostIs
      cases hostIs
      have written := sound.part notTaken data c l f rfl
      rw [← sound.wrIdx] at written
      rw [count, ← sound.wrIdx]
      exact part written
    empty := by
      intro k later below
      rw [count] at below ⊢
      have behind : published.length < k := later
      have other : k % lane.descCount.toNat ≠ lane.wrIdx.toNat := by
        rw [sound.wrIdx]
        exact (Circular.index_ne behind (by omega)).symm
      rw [(others _ other (sound.formed.index_lt k)).1]
      exact sound.empty k later below }

/-- The host publishes the message it has written. -/
theorem RecvLane.publish
    (sound : RecvLane lane (.filling data true true true) published delivered taken) :
    RecvLane { lane with wrIdx := lane.next lane.wrIdx } .idle (published ++ [data]) delivered
      taken where
  formed := sound.formed.setWrIdx _
  small := by
    rw [HostWriter.pending, List.append_nil]
    exact sound.small
  wrIdx := by
    rw [List.length_append, List.length_singleton]
    exact sound.formed.next_toNat sound.wrIdx
  rdIdx := sound.rdIdx
  room := by
    rw [List.length_append, List.length_singleton]
    exact sound.room
  from_ := sound.from_
  upTo := by
    rw [List.length_append, List.length_singleton]
    exact sound.upTo
  held := by
    intro k message later isMessage
    by_cases old : k < published.length
    · rw [List.getElem?_append_left old] at isMessage
      obtain ⟨valid, holds⟩ := sound.held k message later isMessage
      exact ⟨valid, holds.length, holds.bytes⟩
    · have below := published_lt isMessage
      rw [List.length_append, List.length_singleton] at below
      have last : k = published.length := by omega
      subst last
      rw [List.getElem?_append_right (Nat.le_refl _), Nat.sub_self] at isMessage
      cases isMessage
      have part := sound.part later data true true true rfl
      exact ⟨part.flags, part.length rfl, part.bytes rfl⟩
  part := nofun
  empty := by
    intro k later below
    rw [List.length_append, List.length_singleton] at later
    exact sound.empty k later below

/-- What the slave finds in the descriptor behind its index: a valid descriptor
holds the next message, unless the host has exposed it too early. -/
theorem RecvLane.next_of_valid {host : HostWriter}
    (sound : RecvLane lane host published delivered delivered)
    (valid : (lane.desc lane.rdIdx.toNat).valid = true)
    (notExposed : lane.wrIdx = lane.rdIdx → host.exposed = false) :
    delivered < published.length + host.ready.length := by
  have positive := sound.formed.count_pos
  by_contra behind
  rw [sound.rdIdx] at valid
  have upTo := sound.upTo
  by_cases begun : published.length + host.pending.length ≤ delivered
  · have invalid := sound.empty delivered begun (by omega)
    rw [valid] at invalid
    cases invalid
  · -- The host writes the message, and not all of it is there.
    cases host with
    | idle => exact begun (Nat.not_lt.mp behind)
    | filling data c l f =>
        have pending : (HostWriter.filling data c l f).pending.length = 1 := rfl
        have same : delivered = published.length := by omega
        subst same
        have part := sound.part (Nat.le_refl _) data c l f rfl
        have flags : f = true := part.flags.symm.trans valid
        have indices : lane.wrIdx = lane.rdIdx := by
          apply UInt32.toNat_inj.mp
          rw [sound.wrIdx, sound.rdIdx]
        have complete := notExposed indices
        subst flags
        cases c <;> cases l
        · cases complete
        · cases complete
        · cases complete
        · exact behind (Nat.lt_succ_self _)

/-- The next message is in the descriptor behind the slave's index. -/
theorem RecvLane.next_holds {host : HostWriter} {message : List UInt8}
    (sound : RecvLane lane host published delivered delivered)
    (isNext : (published ++ host.ready)[delivered]? = some message) :
    lane.Holds lane.rdIdx.toNat message := by
  rw [sound.rdIdx]
  by_cases old : delivered < published.length
  · rw [List.getElem?_append_left old] at isNext
    exact (sound.held delivered message (Nat.le_refl _) isNext).2
  · have below := published_lt isNext
    rw [List.length_append] at below
    cases host with
    | idle => exact absurd below old
    | filling data c l f =>
        cases c <;> cases l <;> cases f
        all_goals try exact absurd below old
        have upTo : delivered ≤ published.length := by
          have one : (HostWriter.filling data true true true).ready.length = 1 := rfl
          omega
        have same : delivered = published.length := by omega
        subst same
        rw [List.getElem?_append_right (Nat.le_refl _), Nat.sub_self] at isNext
        cases isNext
        have part := sound.part (Nat.le_refl _) message true true true rfl
        exact ⟨part.length rfl, part.bytes rfl⟩

end Filling

section Calls

variable {side next : RecvSide}

/-- The call that holds the lock is about to read the flags of the descriptor which
the host has not published. -/
def RecvSide.readsUnpublished (side : RecvSide) : Bool :=
  match side.rxLock with
  | some ⟨_, .readFlags _⟩ => side.lane.wrIdx == side.lane.rdIdx
  | _ => false

/-- If the flags of that descriptor are read, the host has not set them before the
data and the length. -/
def RecvSide.NotExposed (side : RecvSide) : Prop :=
  side.readsUnpublished = true → side.host.exposed = false

instance (side : RecvSide) : Decidable side.NotExposed :=
  inferInstanceAs (Decidable (_ → _))

theorem RecvSide.Sound.init {config : RingConfig} (valid : config.valid = true)
    (pool : Nat → UInt8) :
    RecvSide.Sound ⟨Lane.init config pool, none, [], [], 0, config.descCount.toNat, 0, 0, .idle,
      [], [], []⟩ where
  lane := {
    formed := Lane.Formed.init valid pool
    small := nofun
    wrIdx := (Nat.zero_mod _).symm
    rdIdx := (Nat.zero_mod _).symm
    room := by
      have positive := (Lane.Formed.init valid pool).count_pos
      show 0 + 0 + 1 ≤ 0 + (Lane.init config pool).descCount.toNat
      omega
    from_ := Nat.le_refl _
    upTo := Nat.le_refl _
    held := nofun
    part := nofun
    empty := fun _ _ _ => invalid_zero }
  order := List.prefix_rfl
  call := nofun

/-- The call that holds the lock goes on; the lane may have changed. -/
theorem RecvSide.Sound.move {args : RecvArgs} {pc : RecvPc}
    (lock : next.rxLock = some ⟨args, pc⟩)
    (lane : RecvLane next.lane next.host next.published next.delivered.length
      (next.delivered.length + pc.gone))
    (order : next.delivered <+: next.queue)
    (sound : pc.Sound next.lane next.queue next.delivered.length) : next.Sound where
  lane := by
    rw [RecvSide.gone, lock]
    exact lane
  order := order
  call := by
    intro call held
    rw [lock] at held
    cases held
    exact sound

theorem RecvSide.Sound.unlocked
    (lane : RecvLane next.lane next.host next.published next.delivered.length
      next.delivered.length)
    (order : next.delivered <+: next.queue) (free : next.rxLock = none) : next.Sound where
  lane := by
    rw [RecvSide.gone, free]
    exact lane
  order := order
  call := by
    intro call held
    rw [free] at held
    cases held

theorem RecvSide.gone_of_held {args : RecvArgs} {pc : RecvPc}
    (held : side.rxLock = some ⟨args, pc⟩) : side.gone = pc.gone := by
  rw [RecvSide.gone, held]

theorem RecvSide.gone_of_free (free : side.rxLock = none) : side.gone = 0 := by
  rw [RecvSide.gone, free]

/-- The call that holds the lock reads, and nothing else changes. -/
theorem RecvSide.Sound.reads (sound : side.Sound) {args : RecvArgs} {pc pc' : RecvPc}
    (held : side.rxLock = some ⟨args, pc⟩) (gone : pc'.gone = pc.gone)
    (known : pc'.Sound side.lane side.queue side.delivered.length) :
    RecvSide.Sound { side with rxLock := some ⟨args, pc'⟩ } := by
  have lane := sound.lane
  rw [RecvSide.gone_of_held held, ← gone] at lane
  exact .move rfl lane sound.order known

theorem RecvSide.Sound.slave (sound : side.Sound) {action : RecvAction}
    (notExposed : action = .exec → side.NotExposed) (moves : RecvMoves side action next) :
    next.Sound := by
  have order := sound.order
  have lane := sound.lane
  cases moves with
  | call args free =>
      rw [RecvSide.gone_of_free free] at lane
      exact .move rfl lane order trivial
  | take args token => exact ⟨lane, order, sound.call⟩
  | timeout args => exact ⟨lane, order, sound.call⟩
  | relock args free =>
      rw [RecvSide.gone_of_free free] at lane
      exact .move rfl lane order trivial
  | readWrIdx args held => exact sound.reads held rfl trivial
  | readRdIdx args wrIdx held => exact sound.reads held rfl rfl
  | empty args wrIdx rdIdx held =>
      rw [RecvSide.gone_of_held held] at lane
      exact .unlocked lane order rfl
  | wait args wrIdx rdIdx held =>
      rw [RecvSide.gone_of_held held] at lane
      exact .unlocked lane order rfl
  | avail args wrIdx rdIdx held nonzero => exact sound.reads held rfl (sound.call _ held)
  | rereadWrIdx args held => exact sound.reads held rfl trivial
  | rereadRdIdx args held => exact sound.reads held rfl rfl
  | valid args rdIdx held valid =>
      obtain rfl := sound.call _ held
      rw [RecvSide.gone_of_held held] at lane
      refine sound.reads held rfl ⟨rfl, ?_⟩
      rw [RecvSide.queue, List.length_append]
      apply lane.next_of_valid valid
      intro same
      apply notExposed rfl
      rw [RecvSide.readsUnpublished, held]
      exact beq_iff_eq.mpr same
  | invalid args rdIdx held invalid =>
      rw [RecvSide.gone_of_held held] at lane
      exact .unlocked lane order rfl
  | tooLong args rdIdx held =>
      rw [RecvSide.gone_of_held held] at lane
      exact .unlocked lane order rfl
  | readLength args rdIdx held short =>
      obtain ⟨rfl, some⟩ := sound.call _ held
      rw [RecvSide.gone_of_held held] at lane
      have isNext := List.getElem?_eq_getElem some
      have holds := lane.next_holds isNext
      exact sound.reads held rfl ⟨rfl, _, isNext, holds.length⟩
  | copy args rdIdx dataLen held =>
      obtain ⟨rfl, message, isNext, length⟩ := sound.call _ held
      rw [RecvSide.gone_of_held held] at lane
      have copied : side.lane.copyOut side.lane.rdIdx dataLen.toNat = message := by
        rw [length]
        exact (lane.next_holds isNext).bytes
      rw [copied]
      exact sound.reads held rfl ⟨rfl, isNext⟩
  | clearFlags args rdIdx data held =>
      obtain ⟨rfl, isNext⟩ := sound.call _ held
      rw [RecvSide.gone_of_held held] at lane
      have some := published_lt isNext
      rw [RecvSide.queue, List.length_append] at some
      exact .move rfl (lane.take some) order ⟨rfl, isNext⟩
  | clearLength args rdIdx data held =>
      obtain ⟨rfl, isNext⟩ := sound.call _ held
      rw [RecvSide.gone_of_held held] at lane
      exact .move rfl lane.clearLength order ⟨rfl, isNext⟩
  | advance args rdIdx data held =>
      obtain ⟨rfl, isNext⟩ := sound.call _ held
      rw [RecvSide.gone_of_held held] at lane
      obtain ⟨below, rfl⟩ := List.getElem?_eq_some_iff.mp isNext
      refine .move rfl ?_ (List.concat_get_prefix order below) trivial
      rw [List.length_append, List.length_singleton]
      exact lane.advance
  | unlock args data held =>
      rw [RecvSide.gone_of_held held] at lane
      exact .unlocked lane order rfl

theorem RecvSide.Sound.give (sound : side.Sound) : side.give.Sound :=
  ⟨sound.lane, sound.order, sound.call⟩

end Calls

section Host

variable {side next : RecvSide}

/-- What the call knows survives the steps of the host: they leave the slave's index
alone, and the queue only grows. -/
theorem RecvPc.Sound.host {lane after : Lane} {queue queue' : List (List UInt8)}
    {delivered : Nat} {pc : RecvPc} (sound : pc.Sound lane queue delivered)
    (rdIdx : after.rdIdx = lane.rdIdx) (grows : queue <+: queue') :
    pc.Sound after queue' delivered := by
  have keeps : ∀ {data}, queue[delivered]? = some data → queue'[delivered]? = some data := by
    intro data isNext
    obtain ⟨rest, rfl⟩ := grows
    rw [List.getElem?_append_left (published_lt isNext)]
    exact isNext
  cases pc with
  | readWrIdx => trivial
  | readRdIdx wrIdx => trivial
  | checkAvail wrIdx idx => exact sound.trans rdIdx.symm
  | rereadWrIdx => trivial
  | rereadRdIdx => trivial
  | readFlags idx => exact sound.trans rdIdx.symm
  | readLength idx =>
      exact ⟨sound.1.trans rdIdx.symm, Nat.lt_of_lt_of_le sound.2 grows.length_le⟩
  | copy idx dataLen =>
      obtain ⟨isIdx, message, isNext, length⟩ := sound
      exact ⟨isIdx.trans rdIdx.symm, message, keeps isNext, length⟩
  | clearFlags idx data => exact ⟨sound.1.trans rdIdx.symm, keeps sound.2⟩
  | clearLength idx data => exact ⟨sound.1.trans rdIdx.symm, keeps sound.2⟩
  | advance idx data => exact ⟨sound.1.trans rdIdx.symm, keeps sound.2⟩
  | unlock data => trivial

/-- A step of the host: the lane changes as it may, and the queue grows. -/
theorem RecvSide.Sound.host (sound : side.Sound) (lock : next.rxLock = side.rxLock)
    (delivered : next.delivered = side.delivered) (rdIdx : next.lane.rdIdx = side.lane.rdIdx)
    (grows : side.queue <+: next.queue)
    (lane : ∀ taken, RecvLane side.lane side.host side.published side.delivered.length taken →
      RecvLane next.lane next.host next.published side.delivered.length taken) :
    next.Sound where
  lane := by
    rw [RecvSide.gone, lock, delivered]
    exact lane _ sound.lane
  order := by
    rw [delivered]
    exact sound.order.trans grows
  call := by
    intro call held
    rw [delivered]
    exact (sound.call call (lock ▸ held)).host rdIdx grows

/-- The queue of a host that has not written the whole message is published. -/
theorem RecvSide.queue_grows {host : HostWriter} (hostIs : side.host = host)
    (incomplete : host.ready = []) (published : next.published = side.published) :
    side.queue <+: next.queue := by
  rw [RecvSide.queue, hostIs, incomplete, List.append_nil, RecvSide.queue, published]
  exact List.prefix_append _ _

theorem ready_of_length {data : List UInt8} {c f : Bool} :
    HostWriter.ready (.filling data c false f) = [] := by
  cases c
  · rfl
  · rfl

theorem ready_of_flags {data : List UInt8} {c l : Bool} :
    HostWriter.ready (.filling data c l false) = [] := by
  cases c
  · rfl
  · cases l
    · rfl
    · rfl

theorem RecvLane.wrIdx_lt {lane : Lane} {host : HostWriter} {published : List (List UInt8)}
    {delivered taken : Nat} (sound : RecvLane lane host published delivered taken) :
    lane.wrIdx.toNat < lane.descCount.toNat := by
  rw [sound.wrIdx]
  exact sound.formed.index_lt _

theorem RecvLane.fits {lane : Lane} {published : List (List UInt8)} {delivered taken : Nat}
    {data : List UInt8} {c l f : Bool}
    (sound : RecvLane lane (.filling data c l f) published delivered taken) :
    data.length ≤ lane.bufSize.toNat :=
  sound.small data (List.mem_append_right _ (List.mem_singleton.mpr rfl))

theorem RecvSide.Sound.hostWrites (sound : side.Sound) (moves : HostWrites side next) :
    next.Sound := by
  cases moves with
  | begin data idle room fits =>
      refine sound.host rfl rfl rfl ?_ ?_
      · rw [RecvSide.queue, idle]
        exact List.prefix_rfl
      · intro taken lane
        rw [idle] at lane
        exact lane.begin room fits
  | writeData data wroteLength wroteFlags filling =>
      refine sound.host rfl rfl rfl (RecvSide.queue_grows filling rfl rfl) ?_
      intro taken lane
      rw [filling] at lane
      refine lane.write rfl (lane.formed.copyIn _ data) rfl rfl rfl rfl ?_ ?_
      · intro j other below
        exact ⟨rfl, fun message small holds =>
          holds.copyIn lane.formed other below lane.wrIdx_lt lane.fits small⟩
      · intro part
        exact ⟨part.flags, part.length, fun _ => Lane.bytes_copyIn_self ..⟩
  | writeLength data wroteData wroteFlags filling =>
      refine sound.host rfl rfl rfl (RecvSide.queue_grows filling ready_of_length rfl) ?_
      intro taken lane
      rw [filling] at lane
      refine lane.write ready_of_length (lane.formed.setLength _ _) rfl rfl rfl rfl ?_ ?_
      · intro j other _
        exact ⟨valid_setLength .., fun message _ holds => holds.setLength other _⟩
      · intro part
        refine ⟨(valid_setLength ..).trans part.flags,
          fun _ => lane.formed.length_setLength _ lane.fits, ?_⟩
        rw [Lane.bytes_setLength]
        exact part.bytes
  | writeFlags data wroteData wroteLength filling =>
      refine sound.host rfl rfl rfl (RecvSide.queue_grows filling ready_of_flags rfl) ?_
      intro taken lane
      rw [filling] at lane
      refine lane.write ready_of_flags (lane.formed.setFlags _ _) rfl rfl rfl rfl ?_ ?_
      · intro j other _
        exact ⟨valid_setFlags_other other _, fun message _ holds => holds.setFlags _ _⟩
      · intro part
        refine ⟨?_, ?_, ?_⟩
        · rw [setFlags_desc, if_pos rfl]
          exact (by decide : (ringDescFlagValid &&& ringDescFlagValid != 0) = true)
        · rw [setFlags_desc, if_pos rfl]
          exact part.length
        · rw [Lane.bytes_setFlags]
          exact part.bytes
  | publish data filling =>
      refine sound.host rfl rfl rfl ?_ ?_
      · rw [RecvSide.queue, filling]
        show side.published ++ [data] <+: side.published ++ [data] ++ []
        rw [List.append_nil]
      · intro taken lane
        rw [filling] at lane
        exact lane.publish

end Host

end QHal.Qring
