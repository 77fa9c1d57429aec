/-
Module: QHal.Proofs.DxeReceive
Purpose: The frames of a receive channel over whole runs of calls, the engine and the callers: each
  frame is delivered once and in order, no buffer is in the ring and with a caller at once, and the
  walks before sleep see what is pending, there and on a transmit channel.
Trusted boundary: none
Main exports: Receiving, Receiving.step, received_frames_delivered, Cleared, pending_frames_counted
-/
import Mathlib.Data.List.Infix
import Mathlib.Data.List.Nodup
import QHal.Dxe.Receive
import QHal.Lib.Circular
import QHal.Lib.Runs
import QHal.Proofs.DxeRing
import QHal.Proofs.DxeFrames

namespace QHal.Dxe

/-- The frame that has left its descriptor but was not returned. -/
def RxPc.taken : Option RxPc → Nat
  | some (.enable _) => 1
  | _ => 0

/-- The descriptors between the free head and the engine hold the frames that were stored and not
taken, the others are valid and have the buffers for the next frames.  `spare` is the buffer beside
the ring that the configuration of a heap channel has allocated. -/
structure Receiving (spare : UInt32) (rx : RxChannel) : Prop where
  count_pos : 0 < rx.ccb.nDescs
  configured : rx.ccb.chConfigured = true
  receives : rx.ccb.xfrType = .bmuToHost
  cwValid : (rx.ccb.cwCtrlValid &&& ntDxeDescCtrlValid != 0) = true
  head : rx.ccb.pRingFreeHead = (rx.delivered.length + RxPc.taken rx.call) % rx.ccb.nDescs
  engine : rx.ccb.enginePos = rx.received.length % rx.ccb.nDescs
  behind : rx.delivered.length + RxPc.taken rx.call ≤ rx.received.length
  room : rx.received.length ≤ rx.delivered.length + rx.ccb.nDescs
  armed : ∀ k, rx.received.length ≤ k → k < rx.delivered.length + rx.ccb.nDescs →
    (rx.ccb.desc (k % rx.ccb.nDescs)).valid = true
  finished : ∀ k, rx.delivered.length ≤ k → k < rx.received.length →
    (rx.ccb.desc (k % rx.ccb.nDescs)).valid = false
  stored : ∀ k frame, rx.delivered.length + RxPc.taken rx.call ≤ k →
    rx.received[k]? = some frame → rx.memory (rx.staging (k % rx.ccb.nDescs)) = frame
  dst : ∀ pos < rx.ccb.nDescs, (rx.ccb.desc pos).transfer.dstMemAddrL = rx.staging pos
  order : rx.delivered <+: rx.received
  nonzero : rx.OffRing 0
  distinct : ∀ i < rx.ccb.nDescs, ∀ j < rx.ccb.nDescs, rx.staging i = rx.staging j → i = j
  heldApart : ∀ buffer ∈ rx.held, rx.OffRing buffer
  heldOnce : rx.held.Nodup
  heapHeld : rx.ccb.bufferType = .heap → rx.held = []
  heapSpare : rx.ccb.bufferType = .heap → rx.OffRing rx.ccb.rxBuf
  spareKept : rx.ccb.bufferType = .heap → (rx.ccb.rxBuf = 0 ↔ spare = 0)
  starved : rx.ccb.bufferType = .heap → spare = 0 → rx.delivered.length + RxPc.taken rx.call = 0
  take : ∀ buffer, rx.call = some (.take buffer) → rx.delivered.length < rx.received.length ∧
    buffer ≠ 0 ∧ rx.OffRing buffer ∧ buffer ∉ rx.held ∧
      (rx.ccb.bufferType = .heap → buffer = rx.ccb.rxBuf)
  enable : ∀ pos, rx.call = some (.enable pos) → pos = rx.delivered.length % rx.ccb.nDescs ∧
    rx.OffRing rx.frame ∧ rx.received[rx.delivered.length]? = some (rx.memory rx.frame)
  succeeded : rx.results.count .success = rx.delivered.length
  outOfMemory : rx.ccb.bufferType = .heap → RxRet.noMemAvailable ∈ rx.results → spare = 0

section Steps

variable {spare : UInt32} {rx : RxChannel} (rec : Receiving spare rx)

include rec

/-- A free head that is not valid has a frame. -/
theorem Receiving.pending_of_invalid (idle : RxPc.taken rx.call = 0)
    (invalid : (rx.ccb.desc rx.ccb.pRingFreeHead).valid = false) :
    rx.delivered.length < rx.received.length := by
  have behind := rec.behind
  have positive := rec.count_pos
  rw [idle, Nat.add_zero] at behind
  apply Nat.lt_of_le_of_ne behind
  intro none
  have valid := rec.armed rx.delivered.length (Nat.le_of_eq none.symm) (by omega)
  rw [rec.head, idle, Nat.add_zero, valid] at invalid
  cases invalid

/-- A descriptor that is valid is free for the engine. -/
theorem Receiving.room_of_valid (valid : (rx.ccb.desc rx.ccb.enginePos).valid = true) :
    rx.received.length < rx.delivered.length + rx.ccb.nDescs := by
  apply Nat.lt_of_le_of_ne rec.room
  intro full
  have positive := rec.count_pos
  have oldest := rec.finished rx.delivered.length (Nat.le_refl _) (by omega)
  rw [rec.engine, full, Nat.add_mod_right, oldest] at valid
  cases valid

/-- A call that has no frame yet may go on anywhere else without one. -/
theorem Receiving.goto (idle : RxPc.taken rx.call = 0) (call : Option RxPc)
    (still : RxPc.taken call = 0) (pkts : UInt16) (frame : UInt32)
    (take : ∀ buffer, call = some (.take buffer) → rx.delivered.length < rx.received.length ∧
      buffer ≠ 0 ∧ rx.OffRing buffer ∧ buffer ∉ rx.held ∧
        (rx.ccb.bufferType = .heap → buffer = rx.ccb.rxBuf)) :
    Receiving spare { rx with
      ccb := { rx.ccb with pktsAfterSuspend := pkts }
      call := call
      frame := frame } := by
  have same : RxPc.taken call = RxPc.taken rx.call := still.trans idle.symm
  exact {
    rec with
    head := by
      show _ = (_ + RxPc.taken call) % _
      rw [same]
      exact rec.head
    behind := by
      show _ + RxPc.taken call ≤ _
      rw [same]
      exact rec.behind
    stored := by
      intro k stored from_ here
      have from' : rx.delivered.length + RxPc.taken call ≤ k := from_
      rw [same] at from'
      exact rec.stored k stored from' here
    starved := by
      show _ → _ → _ + RxPc.taken call = 0
      rw [same]
      exact rec.starved
    take := take
    enable := by
      intro pos isEnable
      have isEnable : call = some (.enable pos) := isEnable
      rw [isEnable] at still
      cases still }

/-- A result other than success. -/
theorem Receiving.refuse {result : RxRet} (refused : result ≠ .success)
    (memory : rx.ccb.bufferType = .heap → result = .noMemAvailable → spare = 0) :
    Receiving spare { rx with results := rx.results ++ [result] } := by
  exact {
    rec with
    succeeded := by
      have count := rec.succeeded
      rw [List.count_append, List.count_singleton, if_neg (by simpa using refused)]
      exact count
    outOfMemory := by
      intro heap mem
      rcases List.mem_append.mp mem with earlier | here
      · exact rec.outOfMemory heap earlier
      · exact memory heap (List.mem_singleton.mp here).symm }

theorem Receiving.ret (idle : RxPc.taken rx.call = 0) {result : RxRet}
    (refused : result ≠ .success)
    (memory : rx.ccb.bufferType = .heap → result = .noMemAvailable → spare = 0) :
    Receiving spare (rx.ret result) :=
  (rec.goto idle none rfl rx.ccb.pktsAfterSuspend rx.frame nofun).refuse refused memory

theorem Receiving.call_step (idle : rx.call = none) :
    Receiving spare rx.ntNdxeGetSingleReceivedFrame := by
  have still : RxPc.taken rx.call = 0 := by rw [idle]; rfl
  unfold RxChannel.ntNdxeGetSingleReceivedFrame
  have cleared := rec.goto still none rfl rx.ccb.pktsAfterSuspend 0 nofun
  dsimp only
  split
  · rename_i result found
    have other : result ≠ .success ∧ result ≠ .noMemAvailable := by
      unfold RxChannel.check at found
      split_ifs at found <;> cases found <;> exact ⟨nofun, nofun⟩
    exact cleared.ret rfl other.1 fun _ memory => absurd memory other.2
  · split_ifs
    · exact rec.goto still (some .readCtrl) rfl _ 0 nofun
    · exact rec.goto still (some .readCtrl) rfl rx.ccb.pktsAfterSuspend 0 nofun

end Steps

section Take

variable (rx : RxChannel) (buffer : UInt32)

/-- The descriptor whose frame was taken. -/
def RxChannel.refilled : DxeDesc :=
  { rx.ccb.desc rx.ccb.pRingFreeHead with
    stagingBuffer := buffer
    transfer := { (rx.ccb.desc rx.ccb.pRingFreeHead).transfer with
      srcMemAddrL := rx.ccb.refWQ
      dstMemAddrL := buffer } }

/-- The channel behind a frame that was taken. -/
def RxChannel.taken : RxChannel :=
  { rx with
    ccb := { rx.ccb with
      pRingFreeHead := rx.ccb.next rx.ccb.pRingFreeHead
      desc := Function.update rx.ccb.desc rx.ccb.pRingFreeHead (rx.refilled buffer)
      rxBuf :=
        if rx.ccb.bufferType = .heap then rx.staging rx.ccb.pRingFreeHead else rx.ccb.rxBuf
      pktCount := rx.ccb.pktCount + 1 }
    frame := rx.staging rx.ccb.pRingFreeHead
    held :=
      if rx.ccb.bufferType = .heap then rx.held
      else rx.held ++ [rx.staging rx.ccb.pRingFreeHead]
    call := some (.enable rx.ccb.pRingFreeHead) }

theorem takeFrame_eq (staged : rx.staging rx.ccb.pRingFreeHead ≠ 0) :
    rx.takeFrame buffer = rx.taken buffer := by
  unfold RxChannel.takeFrame
  exact if_neg staged

theorem taken_staging (pos : Nat) : (rx.taken buffer).staging pos =
    if pos = rx.ccb.pRingFreeHead then buffer else rx.staging pos := by
  simp only [RxChannel.staging, RxChannel.taken, Function.update_apply]
  split_ifs
  · rfl
  · rfl

theorem taken_valid (pos : Nat) :
    ((rx.taken buffer).ccb.desc pos).valid = (rx.ccb.desc pos).valid := by
  simp only [RxChannel.taken, Function.update_apply]
  split_ifs with same
  · rw [same]
    rfl
  · rfl

theorem taken_dst (pos : Nat) : ((rx.taken buffer).ccb.desc pos).transfer.dstMemAddrL =
    if pos = rx.ccb.pRingFreeHead then buffer else (rx.ccb.desc pos).transfer.dstMemAddrL := by
  simp only [RxChannel.taken, Function.update_apply]
  split_ifs
  · rfl
  · rfl

end Take

section Steps

variable {spare : UInt32} {rx : RxChannel} (rec : Receiving spare rx)

include rec

/-- The buffer of a frame that is taken comes off the ring. -/
theorem Receiving.take_step {buffer : UInt32} (isTake : rx.call = some (.take buffer)) :
    Receiving spare (rx.takeFrame buffer) := by
  have still : RxPc.taken rx.call = 0 := by rw [isTake]; rfl
  obtain ⟨pending, nonnull, offRing, notHeld, fromSpare⟩ := rec.take buffer isTake
  have positive := rec.count_pos
  have place : rx.ccb.pRingFreeHead = rx.delivered.length % rx.ccb.nDescs := by
    rw [rec.head, still, Nat.add_zero]
  have below : rx.ccb.pRingFreeHead < rx.ccb.nDescs := place ▸ Nat.mod_lt _ positive
  have offFrame : ∀ pos < rx.ccb.nDescs,
      (rx.taken buffer).staging pos ≠ rx.staging rx.ccb.pRingFreeHead := by
    intro pos inside
    rw [taken_staging]
    split_ifs with same
    · exact (offRing _ below).symm
    · exact fun equal => same (rec.distinct pos inside _ below equal)
  have other : ∀ k, rx.delivered.length + 1 ≤ k → k < rx.received.length →
      k % rx.ccb.nDescs ≠ rx.ccb.pRingFreeHead := by
    intro k low high
    have room := rec.room
    rw [place]
    exact (Circular.index_ne (by omega) (by omega)).symm
  rw [takeFrame_eq rx buffer (rec.nonzero _ below)]
  exact {
    count_pos := positive
    configured := rec.configured
    receives := rec.receives
    cwValid := rec.cwValid
    head := by
      show (rx.ccb.pRingFreeHead + 1) % rx.ccb.nDescs = (rx.delivered.length + 1) % rx.ccb.nDescs
      rw [place, Circular.index_next]
    engine := rec.engine
    behind := pending
    room := rec.room
    armed := by
      intro k low high
      rw [taken_valid]
      exact rec.armed k low high
    finished := by
      intro k low high
      rw [taken_valid]
      exact rec.finished k low high
    stored := by
      intro k frame from_ here
      have inside := (List.getElem?_eq_some_iff.mp here).1
      show rx.memory ((rx.taken buffer).staging (k % rx.ccb.nDescs)) = frame
      rw [taken_staging, if_neg (other k from_ inside)]
      exact rec.stored k frame (by rw [still]; exact Nat.le_of_succ_le from_) here
    dst := by
      intro pos inside
      rw [taken_dst, taken_staging, rec.dst pos inside]
    order := rec.order
    nonzero := by
      intro pos inside
      rw [taken_staging]
      split_ifs
      · exact nonnull
      · exact rec.nonzero pos inside
    distinct := by
      intro i first j second equal
      rw [taken_staging, taken_staging] at equal
      split_ifs at equal with isHead alsoHead alsoHead
      · rw [isHead, alsoHead]
      · exact absurd equal.symm (offRing j second)
      · exact absurd equal (offRing i first)
      · exact rec.distinct i first j second equal
    heldApart := by
      have heldOff : ∀ other ∈ rx.held, (rx.taken buffer).OffRing other := by
        intro other isHeld pos inside
        rw [taken_staging]
        split_ifs
        · exact fun equal => notHeld (equal ▸ isHeld)
        · exact rec.heldApart other isHeld pos inside
      simp only [RxChannel.taken]
      split_ifs
      · exact heldOff
      · intro other isHeld
        rcases List.mem_append.mp isHeld with old | new
        · exact heldOff other old
        · rw [List.mem_singleton.mp new]
          exact offFrame
    heldOnce := by
      simp only [RxChannel.taken]
      split_ifs
      · exact rec.heldOnce
      · refine List.nodup_append.mpr ⟨rec.heldOnce, List.nodup_singleton _, ?_⟩
        intro one isHeld other isFrame equal
        rw [List.mem_singleton.mp isFrame] at equal
        exact rec.heldApart one isHeld _ below equal.symm
    heapHeld := by
      intro heap
      have heap : rx.ccb.bufferType = .heap := heap
      simp only [RxChannel.taken, if_pos heap]
      exact rec.heapHeld heap
    heapSpare := by
      intro heap pos inside
      have heap : rx.ccb.bufferType = .heap := heap
      have spareIs : (rx.taken buffer).ccb.rxBuf = rx.staging rx.ccb.pRingFreeHead := if_pos heap
      rw [spareIs]
      exact offFrame pos inside
    spareKept := by
      intro heap
      have heap : rx.ccb.bufferType = .heap := heap
      have spareIs : (rx.taken buffer).ccb.rxBuf = rx.staging rx.ccb.pRingFreeHead := if_pos heap
      rw [spareIs, ← rec.spareKept heap, ← fromSpare heap]
      exact iff_of_false (rec.nonzero _ below) nonnull
    starved := by
      intro heap none
      have heap : rx.ccb.bufferType = .heap := heap
      rw [← rec.spareKept heap, ← fromSpare heap] at none
      exact absurd none nonnull
    take := nofun
    enable := by
      intro pos isEnable
      cases isEnable
      refine ⟨place, offFrame, ?_⟩
      have inside : rx.delivered.length < rx.received.length := pending
      have here := List.getElem?_eq_getElem inside
      have held := rec.stored _ _ (by rw [still]; exact Nat.le_refl _) here
      rw [← place] at held
      show rx.received[rx.delivered.length]? = some (rx.memory (rx.staging rx.ccb.pRingFreeHead))
      rw [held]
      exact here
    succeeded := rec.succeeded
    outOfMemory := rec.outOfMemory }

theorem Receiving.enable_step {pos : Nat} (isEnable : rx.call = some (.enable pos))
    {next : RxChannel} (stepped : rx.exec 0 (.enable pos) = some next) : Receiving spare next := by
  have taken : RxPc.taken rx.call = 1 := by rw [isEnable]; rfl
  obtain ⟨place, offFrame, here⟩ := rec.enable pos isEnable
  have behind := rec.behind
  have room := rec.room
  rw [taken] at behind
  have staging : ∀ j, ((rx.ccb.ndxeEnableDxeDesc pos).desc j).stagingBuffer = rx.staging j :=
    fun j => setCtrl_stagingBuffer rx.ccb pos j _
  have other : ∀ k, rx.delivered.length < k → k < rx.delivered.length + rx.ccb.nDescs →
      ((rx.ccb.ndxeEnableDxeDesc pos).desc (k % rx.ccb.nDescs)).valid =
        (rx.ccb.desc (k % rx.ccb.nDescs)).valid := by
    intro k low high
    refine setCtrl_valid_other rx.ccb pos _ _ ?_
    rw [place]
    exact (Circular.index_ne low high).symm
  have count : (rx.delivered ++ [rx.memory rx.frame]).length = rx.delivered.length + 1 :=
    List.length_append
  cases stepped
  exact {
    rec with
    head := by
      show rx.ccb.pRingFreeHead = ((rx.delivered ++ [rx.memory rx.frame]).length + 0) % _
      rw [count, rec.head, taken]
      rfl
    behind := by
      show (rx.delivered ++ [rx.memory rx.frame]).length + 0 ≤ _
      rw [count]
      exact behind
    room := by
      show _ ≤ (rx.delivered ++ [rx.memory rx.frame]).length + rx.ccb.nDescs
      rw [count]
      exact Nat.le_trans room (Nat.add_le_add_right (Nat.le_succ _) _)
    armed := by
      intro k low high
      have low : rx.received.length ≤ k := low
      have high : k < (rx.delivered ++ [rx.memory rx.frame]).length + rx.ccb.nDescs := high
      rw [count] at high
      show ((rx.ccb.ndxeEnableDxeDesc pos).desc (k % rx.ccb.nDescs)).valid = true
      by_cases last : k = rx.delivered.length + rx.ccb.nDescs
      · rw [last, Nat.add_mod_right, ← place]
        exact (setCtrl_valid_self rx.ccb pos _).trans rec.cwValid
      · rw [other k (by omega) (by omega)]
        exact rec.armed k low (by omega)
    finished := by
      intro k low high
      have low : (rx.delivered ++ [rx.memory rx.frame]).length ≤ k := low
      have high : k < rx.received.length := high
      rw [count] at low
      show ((rx.ccb.ndxeEnableDxeDesc pos).desc (k % rx.ccb.nDescs)).valid = false
      rw [other k low (by omega)]
      exact rec.finished k (by omega) high
    stored := by
      intro k frame low isFrame
      have low : (rx.delivered ++ [rx.memory rx.frame]).length + 0 ≤ k := low
      rw [count] at low
      have isStaged := staging (k % rx.ccb.nDescs)
      show rx.memory ((rx.ccb.ndxeEnableDxeDesc pos).desc (k % rx.ccb.nDescs)).stagingBuffer = frame
      rw [isStaged]
      exact rec.stored k frame (by rw [taken]; exact low) isFrame
    dst := by
      intro j inside
      have isStaged := staging j
      have transfer : ((rx.ccb.ndxeEnableDxeDesc pos).desc j).transfer = (rx.ccb.desc j).transfer :=
        setCtrl_transfer rx.ccb pos j _
      show ((rx.ccb.ndxeEnableDxeDesc pos).desc j).transfer.dstMemAddrL =
        ((rx.ccb.ndxeEnableDxeDesc pos).desc j).stagingBuffer
      rw [transfer, isStaged]
      exact rec.dst j inside
    order := by
      have inside : rx.delivered.length < rx.received.length := behind
      have frame := Option.some.inj ((List.getElem?_eq_getElem inside).symm.trans here)
      show rx.delivered ++ [rx.memory rx.frame] <+: rx.received
      rw [← frame]
      exact List.concat_get_prefix rec.order inside
    nonzero := by
      intro j inside
      exact (staging j).trans_ne (rec.nonzero j inside)
    distinct := by
      intro i first j second equal
      exact rec.distinct i first j second ((staging i).symm.trans (equal.trans (staging j)))
    heldApart := by
      intro buffer isHeld j inside
      exact (staging j).trans_ne (rec.heldApart buffer isHeld j inside)
    heapSpare := by
      intro heap j inside
      exact (staging j).trans_ne (rec.heapSpare heap j inside)
    starved := by
      intro heap none
      have never := rec.starved heap none
      omega
    take := nofun
    enable := nofun
    succeeded := by
      show (rx.results ++ [RxRet.success]).count .success =
        (rx.delivered ++ [rx.memory rx.frame]).length
      rw [List.count_append, rec.succeeded, count]
      rfl
    outOfMemory := by
      intro heap mem
      rcases List.mem_append.mp mem with earlier | last
      · exact rec.outOfMemory heap earlier
      · cases List.mem_singleton.mp last }

theorem Receiving.exec_step {pc : RxPc} (isCall : rx.call = some pc) {allocated : UInt32}
    {next : RxChannel} (stepped : rx.exec allocated pc = some next) : Receiving spare next := by
  cases pc with
  | readCtrl =>
      have still : RxPc.taken rx.call = 0 := by rw [isCall]; rfl
      simp only [RxChannel.exec] at stepped
      split_ifs at stepped with valid inUse none
      · cases stepped
        exact rec.ret still nofun (fun _ memory => by cases memory)
      · cases stepped
        refine rec.ret still nofun fun heap _ => ?_
        rw [RxChannel.stagBuff, heap] at none
        exact (rec.spareKept heap).mp none
      · cases stepped
        refine rec.goto still (some (.take (rx.stagBuff allocated))) rfl rx.ccb.pktsAfterSuspend
          rx.frame ?_
        intro buffer isTake
        cases isTake
        refine ⟨rec.pending_of_invalid still (Bool.eq_false_iff.mpr valid), none, ?_⟩
        cases type : rx.ccb.bufferType with
        | heap =>
            have isSpare : rx.stagBuff allocated = rx.ccb.rxBuf := by
              rw [RxChannel.stagBuff, type]
            rw [isSpare, rec.heapHeld type]
            exact ⟨rec.heapSpare type, List.not_mem_nil, fun _ => rfl⟩
        | pbuf =>
            have isFresh : rx.stagBuff allocated = allocated := by
              rw [RxChannel.stagBuff, type]
            rw [isFresh] at none ⊢
            have fresh := not_not.mp fun used => inUse ⟨type, none, used⟩
            exact ⟨fresh.1, fresh.2, nofun⟩
  | take buffer =>
      cases stepped
      exact rec.take_step isCall
  | enable pos => exact rec.enable_step isCall stepped

theorem Receiving.engine_step {frame : List UInt8} {next : RxChannel}
    (stepped : rx.engine frame = some next) : Receiving spare next := by
  obtain ⟨ccb, moved, rfl⟩ := Option.map_eq_some_iff.mp stepped
  obtain ⟨valid, rfl⟩ := engine_cases moved
  have free := rec.room_of_valid valid
  have behind := rec.behind
  have positive := rec.count_pos
  have inRing : rx.ccb.enginePos < rx.ccb.nDescs := rec.engine ▸ Nat.mod_lt _ positive
  generalize ctrlIs : (rx.ccb.desc rx.ccb.enginePos).ctrl &&& ~~~ntDxeDescCtrlValid = ctrl
  have staging : ∀ j, ((rx.ccb.setCtrl rx.ccb.enginePos ctrl).desc j).stagingBuffer =
      rx.staging j := fun j => setCtrl_stagingBuffer rx.ccb _ j _
  have other : ∀ {k}, k % rx.ccb.nDescs ≠ rx.ccb.enginePos →
      ((rx.ccb.setCtrl rx.ccb.enginePos ctrl).desc (k % rx.ccb.nDescs)).valid =
        (rx.ccb.desc (k % rx.ccb.nDescs)).valid := fun away => setCtrl_valid_other _ _ _ _ away
  have earlier : ∀ k, rx.delivered.length ≤ k → k < rx.received.length →
      k % rx.ccb.nDescs ≠ rx.ccb.enginePos := by
    intro k low high
    rw [rec.engine]
    exact Circular.index_ne high (by omega)
  have dst : (rx.ccb.desc rx.ccb.enginePos).transfer.dstMemAddrL = rx.staging rx.ccb.enginePos :=
    rec.dst _ inRing
  have count : (rx.received ++ [frame]).length = rx.received.length + 1 := List.length_append
  have off : ∀ {buffer}, rx.OffRing buffer →
      Function.update rx.memory (rx.ccb.desc rx.ccb.enginePos).transfer.dstMemAddrL frame buffer =
        rx.memory buffer := by
    intro buffer offRing
    rw [dst, Function.update_of_ne (offRing _ inRing).symm]
  exact {
    rec with
    engine := by
      show (rx.ccb.enginePos + 1) % rx.ccb.nDescs = (rx.received ++ [frame]).length % _
      rw [count, rec.engine, Circular.index_next]
      rfl
    behind := by
      show _ ≤ (rx.received ++ [frame]).length
      rw [count]
      exact Nat.le_succ_of_le behind
    room := by
      show (rx.received ++ [frame]).length ≤ _
      rw [count]
      exact free
    armed := by
      intro k low high
      have low : (rx.received ++ [frame]).length ≤ k := low
      have high : k < rx.delivered.length + rx.ccb.nDescs := high
      rw [count] at low
      refine (other ?_).trans (rec.armed k (Nat.le_of_succ_le low) high)
      rw [rec.engine]
      exact (Circular.index_ne low (by omega)).symm
    finished := by
      intro k low high
      have high : k < (rx.received ++ [frame]).length := high
      rw [count] at high
      by_cases last : k = rx.received.length
      · show ((rx.ccb.setCtrl rx.ccb.enginePos ctrl).desc (k % rx.ccb.nDescs)).valid = false
        rw [last, ← rec.engine, setCtrl_valid_self, ← ctrlIs]
        exact valid_clear _
      · exact (other (earlier k low (by omega))).trans (rec.finished k low (by omega))
    stored := by
      intro k stored low here
      have here : (rx.received ++ [frame])[k]? = some stored := here
      have isStaged := staging (k % rx.ccb.nDescs)
      show Function.update rx.memory (rx.ccb.desc rx.ccb.enginePos).transfer.dstMemAddrL frame
        ((rx.ccb.setCtrl rx.ccb.enginePos ctrl).desc (k % rx.ccb.nDescs)).stagingBuffer = stored
      rw [isStaged, dst]
      by_cases last : k = rx.received.length
      · rw [last, ← rec.engine, Function.update_self]
        rw [last, List.getElem?_concat_length] at here
        exact Option.some.inj here
      · have inside := (List.getElem?_eq_some_iff.mp here).1
        rw [count] at inside
        have old : k < rx.received.length := by omega
        have away : rx.staging (k % rx.ccb.nDescs) ≠ rx.staging rx.ccb.enginePos := fun equal =>
          earlier k (Nat.le_of_add_right_le low) old
            (rec.distinct _ (Nat.mod_lt _ positive) _ inRing equal)
        rw [List.getElem?_append_left old] at here
        rw [Function.update_of_ne away]
        exact rec.stored k stored low here
    dst := by
      intro j inside
      have transfer : ((rx.ccb.setCtrl rx.ccb.enginePos ctrl).desc j).transfer =
          (rx.ccb.desc j).transfer := setCtrl_transfer rx.ccb _ j _
      exact (congrArg Transfer.dstMemAddrL transfer).trans
        ((rec.dst j inside).trans (staging j).symm)
    order := rec.order.trans (List.prefix_append _ _)
    nonzero := fun j inside => (staging j).trans_ne (rec.nonzero j inside)
    distinct := by
      intro i first j second equal
      exact rec.distinct i first j second ((staging i).symm.trans (equal.trans (staging j)))
    heldApart := fun buffer isHeld j inside =>
      (staging j).trans_ne (rec.heldApart buffer isHeld j inside)
    heapSpare := fun heap j inside => (staging j).trans_ne (rec.heapSpare heap j inside)
    take := by
      intro buffer isTake
      obtain ⟨pending, nonnull, offRing, rest⟩ := rec.take buffer isTake
      refine ⟨?_, nonnull, fun j inside => (staging j).trans_ne (offRing j inside), rest⟩
      show _ < (rx.received ++ [frame]).length
      rw [count]
      exact Nat.lt_succ_of_lt pending
    enable := by
      intro pos isEnable
      obtain ⟨place, offFrame, here⟩ := rec.enable pos isEnable
      refine ⟨place, fun j inside => (staging j).trans_ne (offFrame j inside), ?_⟩
      have inside := (List.getElem?_eq_some_iff.mp here).1
      show (rx.received ++ [frame])[rx.delivered.length]? = some (Function.update rx.memory
        (rx.ccb.desc rx.ccb.enginePos).transfer.dstMemAddrL frame rx.frame)
      rw [List.getElem?_append_left inside, off offFrame]
      exact here }

theorem Receiving.free_step (buffer : UInt32) :
    Receiving spare { rx with held := rx.held.erase buffer } := by
  exact {
    rec with
    heldApart := fun other isHeld => rec.heldApart other (List.mem_of_mem_erase isHeld)
    heldOnce := rec.heldOnce.erase buffer
    heapHeld := by
      intro heap
      rw [rec.heapHeld heap]
      rfl
    take := by
      intro other isTake
      obtain ⟨pending, nonnull, offRing, notHeld, rest⟩ := rec.take other isTake
      exact ⟨pending, nonnull, offRing,
        fun isHeld => notHeld (List.mem_of_mem_erase isHeld), rest⟩ }

/-- Nobody writes to a frame that is in the ring or that a call is about to return. -/
theorem Receiving.write_step {buffer : UInt32} (offRing : rx.OffRing buffer)
    (notReturning : ¬ rx.returning buffer) (data : List UInt8) :
    Receiving spare { rx with memory := Function.update rx.memory buffer data } := by
  exact {
    rec with
    stored := by
      intro k frame low here
      have below := Nat.mod_lt k rec.count_pos
      show Function.update rx.memory buffer data (rx.staging (k % rx.ccb.nDescs)) = frame
      rw [Function.update_of_ne (offRing _ below)]
      exact rec.stored k frame low here
    enable := by
      intro pos isEnable
      have isCall : rx.call = some (.enable pos) := isEnable
      obtain ⟨place, offFrame, here⟩ := rec.enable pos isEnable
      have away : rx.frame ≠ buffer := by
        intro same
        apply notReturning
        rw [RxChannel.returning, isCall]
        exact beq_iff_eq.mpr same.symm
      refine ⟨place, offFrame, ?_⟩
      show _ = some (Function.update rx.memory buffer data rx.frame)
      rw [Function.update_of_ne away]
      exact here }

end Steps

/-! ## Walks over the ring -/

theorem pendingLoop_eq (ccb : DxeCCB) (more first count : Nat) :
    ccb.pendingLoop more (first % ccb.nDescs) count =
      count + (List.range' first more).countP fun k => ccb.counts (ccb.desc (k % ccb.nDescs)) := by
  induction more generalizing first count with
  | zero => rfl
  | succ more ih =>
      have next : ccb.next (first % ccb.nDescs) = (first + 1) % ccb.nDescs :=
        Circular.index_next _ _
      rw [DxeCCB.pendingLoop, next, ih, List.range'_succ, List.countP_cons]
      split_ifs
      · omega
      · omega

/-- The count of a channel whose counted descriptors lie between two counters. -/
theorem pendingCount_window {ccb : DxeCCB} {first last : Nat} (le : first ≤ last)
    (near : last ≤ first + ccb.nDescs)
    (inside : ∀ k, first ≤ k → k < last → ccb.counts (ccb.desc (k % ccb.nDescs)) = true)
    (outside : ∀ k, last ≤ k → k < first + ccb.nDescs →
      ccb.counts (ccb.desc (k % ccb.nDescs)) = false) :
    ccb.ntDxeGetPendingPktCount = last - first := by
  have walk := pendingLoop_eq ccb ccb.nDescs 0 0
  rw [Nat.zero_mod, Nat.zero_add, ← List.range_eq_range'] at walk
  rw [DxeCCB.ntDxeGetPendingPktCount, walk,
    ← @Circular.count_window _ _ _ (fun pos => ccb.counts (ccb.desc pos)) le near inside outside]
  refine List.countP_congr fun k mem => ?_
  rw [Nat.mod_eq_of_lt (List.mem_range.mp mem)]

theorem finishedFrom_none {ccb : DxeCCB} {more first : Nat}
    (all : ∀ k, first ≤ k → k < first + more → (ccb.desc (k % ccb.nDescs)).valid = true) :
    ccb.finishedFrom more (first % ccb.nDescs) = none := by
  induction more generalizing first with
  | zero => rfl
  | succ more ih =>
      have next : ccb.next (first % ccb.nDescs) = (first + 1) % ccb.nDescs :=
        Circular.index_next _ _
      rw [DxeCCB.finishedFrom, if_pos (all first (Nat.le_refl _) (by omega)), next]
      exact ih fun k low high => all k (by omega) (by omega)

section Steps

variable {spare : UInt32} {rx : RxChannel} (rec : Receiving spare rx)

include rec

/-- Behind a call the pending packets are the frames that were not delivered. -/
theorem Receiving.pending (idle : rx.call = none) :
    rx.ccb.ntDxeGetPendingPktCount = rx.received.length - rx.delivered.length := by
  have behind := rec.behind
  rw [idle] at behind
  have counts : ∀ desc : DxeDesc, rx.ccb.counts desc = !desc.valid := by
    intro desc
    rw [DxeCCB.counts, rec.receives, DxeDesc.valid, bne, Bool.not_not]
  refine pendingCount_window behind rec.room ?_ ?_
  · intro k low high
    rw [counts, rec.finished k low high]
    rfl
  · intro k low high
    rw [counts, rec.armed k low high]
    rfl

/-- The reconfiguration before sleep finds the free head where it is. -/
theorem Receiving.reconfig (idle : rx.call = none) : rx.ccb.halDxeDescReconfig = rx.ccb := by
  have head := rec.head
  have behind := rec.behind
  rw [idle] at head behind
  rw [DxeCCB.halDxeDescReconfig, if_neg (not_not.mpr rec.configured), rec.receives]
  dsimp only
  by_cases some : rx.delivered.length < rx.received.length
  · have finished := rec.finished rx.delivered.length (Nat.le_refl _) some
    obtain ⟨more, count⟩ := Nat.exists_eq_succ_of_ne_zero (Nat.pos_iff_ne_zero.mp rec.count_pos)
    have here : rx.ccb.finishedFrom rx.ccb.nDescs rx.ccb.pRingFreeHead =
        Option.some rx.ccb.pRingFreeHead := by
      rw [count, DxeCCB.finishedFrom, head, if_neg]
      rw [Bool.not_eq_true]
      exact finished
    rw [here, ← rec.receives]
  · have all : rx.received.length = rx.delivered.length := Nat.le_antisymm (by omega) behind
    have nothing := finishedFrom_none fun k low high => rec.armed k (all ▸ low) high
    rw [head]
    rw [show rx.delivered.length + RxPc.taken none = rx.delivered.length from rfl, nothing]

/-- Every step keeps the frames and the buffers where they belong. -/
theorem Receiving.step {action : RxAction} {next : RxChannel}
    (stepped : rx.step action = some next) : Receiving spare next := by
  cases action with
  | call =>
      simp only [RxChannel.step] at stepped
      split_ifs at stepped with idle
      cases stepped
      exact rec.call_step idle
  | exec allocated =>
      obtain ⟨pc, isCall, stepped⟩ := Option.bind_eq_some_iff.mp stepped
      exact rec.exec_step isCall stepped
  | engine frame => exact rec.engine_step stepped
  | free buffer =>
      simp only [RxChannel.step] at stepped
      split_ifs at stepped
      cases stepped
      exact rec.free_step buffer
  | write buffer data =>
      simp only [RxChannel.step] at stepped
      split_ifs at stepped with allowed
      cases stepped
      exact rec.write_step allowed.1 allowed.2 data
  | suspend flag =>
      cases stepped
      exact { rec with }
  | reconfig =>
      simp only [RxChannel.step] at stepped
      split_ifs at stepped with idle
      cases stepped
      rw [rec.reconfig idle]
      exact rec

end Steps

/-! ## Whole runs -/

/-- The ring of a receive channel whose configuration succeeds. -/
theorem config_receives {hal : HalDxe} {channel : Nat} {cfg : DxeChannelCfg} {alloc : RxAlloc}
    (receives : cfg.xfrType = .bmuToHost) (unused : (hal.channels channel).chConfigured = false)
    (configured :
      ((hal.ntNdxeConfigChannel channel cfg alloc).channels channel).chConfigured = true) :
    (hal.ntNdxeConfigChannel channel cfg alloc).channels channel =
        hal.takeRing (hal.channels channel) cfg alloc ∧
      0 < cfg.nDescs ∧ ∀ i < cfg.nDescs, alloc.staging i ≠ 0 := by
  have unusedCfg : ((hal.channels channel).applyCfg cfg).chConfigured = false := unused
  unfold HalDxe.ntNdxeConfigChannel at configured ⊢
  dsimp only at configured ⊢
  rw [if_pos receives] at configured ⊢
  split_ifs at configured ⊢ with range used short
  · rw [unused] at configured
    cases configured
  · rw [unused] at used
    cases used
  · dsimp only at configured
    rw [Function.update_self, unusedCfg] at configured
    cases configured
  · cases failed : alloc.failed cfg.nDescs with
    | some j =>
        rw [failed] at configured
        dsimp only at configured
        rw [Function.update_self, unusedCfg] at configured
        cases configured
    | none =>
        refine ⟨Function.update_self .., Nat.pos_of_ne_zero fun none => short (Or.inl none), ?_⟩
        intro i inside null
        have fine := List.find?_eq_none.mp failed i (List.mem_range.mpr inside)
        exact fine (decide_eq_true null)

theorem Receiving.start {hal : HalDxe} {channel : Nat} {cfg : DxeChannelCfg} {alloc : RxAlloc}
    (ccb : DxeCCB) (memory : UInt32 → List UInt8) (receives : cfg.xfrType = .bmuToHost)
    (positive : 0 < cfg.nDescs) (allocated : ∀ i < cfg.nDescs, alloc.staging i ≠ 0)
    (distinct : ∀ i < cfg.nDescs, ∀ j < cfg.nDescs, alloc.staging i = alloc.staging j → i = j)
    (apart : ∀ i < cfg.nDescs, alloc.staging i ≠ alloc.rxBuf) :
    Receiving alloc.rxBuf (RxChannel.start channel (hal.takeRing ccb cfg alloc) memory) := by
  have staging : ∀ pos, (RxChannel.start channel (hal.takeRing ccb cfg alloc) memory).staging pos =
      alloc.staging pos := by
    intro pos
    simp [RxChannel.staging, RxChannel.start, HalDxe.takeRing, receives]
  exact {
    count_pos := positive
    configured := rfl
    receives := receives
    cwValid := cwCtrlValid_valid cfg
    head := (Nat.zero_mod _).symm
    engine := (Nat.zero_mod _).symm
    behind := Nat.le_refl _
    room := Nat.zero_le _
    armed := by
      intro k _ _
      have word : ((hal.takeRing ccb cfg alloc).desc (k % cfg.nDescs)).ctrl = cfg.cwCtrlValid :=
        if_pos receives
      show ((hal.takeRing ccb cfg alloc).desc (k % cfg.nDescs)).valid = true
      rw [DxeDesc.valid, word]
      exact cwCtrlValid_valid cfg
    finished := fun k _ high => absurd high (Nat.not_lt_zero k)
    stored := fun _ _ _ here => absurd here (by simp [RxChannel.start])
    dst := by
      intro pos _
      rw [staging]
      simp [RxChannel.start, HalDxe.takeRing, receives]
    order := List.prefix_rfl
    nonzero := by
      intro pos inside
      rw [staging]
      exact allocated pos inside
    distinct := by
      intro i first j second equal
      rw [staging, staging] at equal
      exact distinct i first j second equal
    heldApart := fun _ isHeld => absurd isHeld List.not_mem_nil
    heldOnce := List.nodup_nil
    heapHeld := fun _ => rfl
    heapSpare := by
      intro heap pos inside
      have spareIs : (RxChannel.start channel (hal.takeRing ccb cfg alloc) memory).ccb.rxBuf =
          alloc.rxBuf := if_pos ⟨receives, heap⟩
      rw [staging, spareIs]
      exact apart pos inside
    spareKept := by
      intro heap
      have spareIs : (RxChannel.start channel (hal.takeRing ccb cfg alloc) memory).ccb.rxBuf =
          alloc.rxBuf := if_pos ⟨receives, heap⟩
      rw [spareIs]
    starved := fun _ _ => rfl
    take := by
      intro buffer isTake
      cases isTake
    enable := by
      intro pos isEnable
      cases isEnable
    succeeded := rfl
    outOfMemory := fun _ mem => absurd mem List.not_mem_nil }

/-- How a call goes on, whatever the engine and the callers do meanwhile: one that finds a stored
frame and has a buffer takes the frame and returns it. -/
structure Returns (rx : RxChannel) : Prop where
  begins : rx.call = none → rx.channel < dxeChannelMax →
    ∃ next, rx.step .call = some next ∧ next.call = some .readCtrl
  finds : ∀ allocated, rx.call = some .readCtrl → rx.delivered.length < rx.received.length →
    rx.stagBuff allocated ≠ 0 →
      (rx.ccb.bufferType = .pbuf → rx.OffRing allocated ∧ allocated ∉ rx.held) →
        ∃ next, rx.step (.exec allocated) = some next ∧
          next.call = some (.take (rx.stagBuff allocated))
  takes : ∀ buffer allocated, rx.call = some (.take buffer) →
    ∃ next pos, rx.step (.exec allocated) = some next ∧ next.call = some (.enable pos)
  returns : ∀ pos allocated, rx.call = some (.enable pos) →
    ∃ next frame, rx.step (.exec allocated) = some next ∧ next.call = none ∧
      next.results = rx.results ++ [.success] ∧ next.delivered = rx.delivered ++ [frame] ∧
      rx.received[rx.delivered.length]? = some frame

theorem Receiving.returns {spare : UInt32} {rx : RxChannel} (rec : Receiving spare rx) :
    Returns rx where
  begins idle inside := by
    have check : rx.check = none := by
      have receives : ¬ rx.ccb.xfrType ≠ .bmuToHost := not_not.mpr rec.receives
      rw [RxChannel.check, if_neg (Nat.not_le.mpr inside),
        if_neg (not_not.mpr rec.configured), if_neg receives]
    have cleared : RxChannel.check { rx with frame := 0 } = none := check
    refine ⟨_, if_pos idle, ?_⟩
    rw [RxChannel.ntNdxeGetSingleReceivedFrame, cleared]
  finds allocated reads pending present free := by
    have idle : RxPc.taken rx.call = 0 := by
      rw [reads]
      rfl
    have head : rx.ccb.pRingFreeHead = rx.delivered.length % rx.ccb.nDescs := by
      rw [rec.head, idle, Nat.add_zero]
    have invalid : ¬ (rx.ccb.desc rx.ccb.pRingFreeHead).valid = true := by
      rw [head, rec.finished _ (Nat.le_refl _) pending]
      exact Bool.false_ne_true
    have fresh : ¬ (rx.ccb.bufferType = .pbuf ∧ allocated ≠ 0 ∧
        ¬ (rx.OffRing allocated ∧ allocated ∉ rx.held)) :=
      fun taken => taken.2.2 (free taken.1)
    refine ⟨{ rx with call := some (.take (rx.stagBuff allocated)) }, ?_, rfl⟩
    rw [RxChannel.step, reads, Option.bind_some, RxChannel.exec, if_neg invalid, if_neg fresh,
      if_neg present]
  takes buffer allocated takes := by
    have below : rx.ccb.pRingFreeHead < rx.ccb.nDescs := rec.head ▸ Nat.mod_lt _ rec.count_pos
    refine ⟨rx.taken buffer, rx.ccb.pRingFreeHead, ?_, rfl⟩
    rw [RxChannel.step, takes, Option.bind_some, RxChannel.exec,
      takeFrame_eq rx buffer (rec.nonzero _ below)]
  returns pos allocated enables := by
    have stepped : rx.step (.exec allocated) = rx.exec allocated (.enable pos) := by
      rw [RxChannel.step, enables, Option.bind_some]
    exact ⟨_, rx.memory rx.frame, stepped, rfl, rfl, rfl, (rec.enable pos enables).2.2⟩

/-- What holds of a receive channel at any time. -/
structure Delivers (spare : UInt32) (rx : RxChannel) : Prop where
  order : rx.delivered <+: rx.received
  succeeded : rx.results.count .success = rx.delivered.length
  room : rx.received.length ≤ rx.delivered.length + rx.ccb.nDescs
  pending : rx.call = none →
    rx.ccb.ntDxeGetPendingPktCount = rx.received.length - rx.delivered.length
  asleep : rx.call = none → rx.ccb.halDxeDescReconfig = rx.ccb
  distinct : ∀ i < rx.ccb.nDescs, ∀ j < rx.ccb.nDescs, rx.staging i = rx.staging j → i = j
  heldOnce : rx.held.Nodup
  apart : ∀ buffer ∈ if rx.ccb.bufferType = .heap then [rx.ccb.rxBuf] else rx.held,
    rx.OffRing buffer
  intact : ∀ frame next, rx.engine frame = some next → ∀ buffer, rx.OffRing buffer →
    next.memory buffer = rx.memory buffer
  starved : rx.ccb.bufferType = .heap → spare = 0 → rx.delivered = []
  outOfMemory : rx.ccb.bufferType = .heap → RxRet.noMemAvailable ∈ rx.results → spare = 0
  progress : Returns rx

theorem Receiving.delivers {spare : UInt32} {rx : RxChannel} (rec : Receiving spare rx) :
    Delivers spare rx where
  order := rec.order
  succeeded := rec.succeeded
  room := rec.room
  pending := rec.pending
  asleep := rec.reconfig
  distinct := rec.distinct
  heldOnce := rec.heldOnce
  apart := by
    split_ifs with heap
    · intro buffer isSpare
      rw [List.mem_singleton.mp isSpare]
      exact rec.heapSpare heap
    · exact rec.heldApart
  intact := by
    intro frame next stepped buffer offRing
    obtain ⟨ccb, -, rfl⟩ := Option.map_eq_some_iff.mp stepped
    have inRing : rx.ccb.enginePos < rx.ccb.nDescs := rec.engine ▸ Nat.mod_lt _ rec.count_pos
    have dst := rec.dst _ inRing
    exact Function.update_of_ne (dst ▸ (offRing _ inRing).symm) _ _
  starved heap none := List.eq_nil_of_length_eq_zero (Nat.eq_zero_of_add_eq_zero_right
    (rec.starved heap none))
  outOfMemory := rec.outOfMemory
  progress := rec.returns

/-- In every order of calls, frames that the engine stores, and what callers do with their buffers,
each frame is delivered once, in order and with its bytes, by the next call that has a buffer; the
ring never has a buffer that a caller has, nor one buffer twice; and only a heap channel without a
spare buffer delivers nothing. -/
theorem received_frames_delivered {hal : HalDxe} {channel : Nat} {cfg : DxeChannelCfg}
    {alloc : RxAlloc} {memory : UInt32 → List UInt8} {actions : List RxAction} {last : RxChannel}
    (receives : cfg.xfrType = .bmuToHost) (unused : (hal.channels channel).chConfigured = false)
    (configured :
      ((hal.ntNdxeConfigChannel channel cfg alloc).channels channel).chConfigured = true)
    (distinct : ∀ i < cfg.nDescs, ∀ j < cfg.nDescs, alloc.staging i = alloc.staging j → i = j)
    (apart : ∀ i < cfg.nDescs, alloc.staging i ≠ alloc.rxBuf)
    (run : Runs.exec RxChannel.step
      (RxChannel.start channel
        ((hal.ntNdxeConfigChannel channel cfg alloc).channels channel) memory)
      actions = some last) :
    Delivers alloc.rxBuf last := by
  obtain ⟨ring, positive, allocated⟩ := config_receives receives unused configured
  rw [ring] at run
  have start := @Receiving.start hal channel cfg alloc (hal.channels channel) memory receives
    positive allocated distinct apart
  have kept : Receiving alloc.rxBuf last := by
    refine Runs.invariant (fun rx action next rec _ stepped => Receiving.step rec stepped) start
      (Runs.meets_of_invariant (fun rx action next rec stepped => Receiving.step rec stepped)
        (fun _ _ _ => trivial) actions start) run
  exact kept.delivers

/-- A channel of two descriptors for network buffers. -/
def rxCfg : DxeChannelCfg := ⟨2, 6, .bmuToHost, 4, 3, .pbuf, true⟩

def rxAlloc : RxAlloc := ⟨fun i => 0x100 + 0x10 * UInt32.ofNat i, 0x200⟩

/-- Three frames, the second and the third stored during the calls for the frames before them. -/
def threeReceived : List RxAction :=
  [.engine [1], .call, .exec 0x300, .engine [2], .exec 0, .exec 0, .call, .exec 0x310, .exec 0,
    .engine [3], .exec 0]

theorem three_frames_delivered :
    ∃ last, Runs.exec RxChannel.step (RxChannel.start 6
        (((ntNdxeInit 0x1000 0).ntNdxeConfigChannel 6 rxCfg rxAlloc).channels 6) fun _ => [])
          threeReceived = some last ∧
      last.delivered = [[1], [2]] ∧ last.received = [[1], [2], [3]] ∧
      Delivers rxAlloc.rxBuf last := by
  have distinct : ∀ i < rxCfg.nDescs, ∀ j < rxCfg.nDescs,
      rxAlloc.staging i = rxAlloc.staging j → i = j := by decide
  have apart : ∀ i < rxCfg.nDescs, rxAlloc.staging i ≠ rxAlloc.rxBuf := by decide
  exact ⟨_, rfl, rfl, rfl, @received_frames_delivered (ntNdxeInit 0x1000 0) 6 rxCfg rxAlloc
    (fun _ => []) threeReceived _ rfl rfl rfl distinct apart rfl⟩

theorem and_one_cases (ctrl : UInt32) : ctrl &&& 1 = 0 ∨ ctrl &&& 1 = 1 := by
  have bit : (ctrl &&& 1).toNat = ctrl.toNat % 2 := by
    rw [UInt32.toNat_and]
    exact Nat.and_one_is_mod _
  rcases Nat.mod_two_eq_zero_or_one ctrl.toNat with even | odd
  · exact Or.inl (UInt32.toNat_inj.mp (bit.trans even))
  · exact Or.inr (UInt32.toNat_inj.mp (bit.trans odd))

/-- A transmit channel counts its valid descriptors. -/
theorem counts_transmit {ccb : DxeCCB} (toBmu : ccb.xfrType = .hostToBmu) (desc : DxeDesc) :
    ccb.counts desc = desc.valid := by
  rw [DxeCCB.counts, toBmu, DxeDesc.valid, ntDxeDescCtrlValid]
  rcases and_one_cases desc.ctrl with clear | set
  · rw [clear]
    rfl
  · rw [set]
    rfl

/-- No descriptor of the ring is valid, and nothing else has changed. -/
structure Cleared (ccb after : DxeCCB) : Prop where
  invalid : ∀ pos < ccb.nDescs, (after.desc pos).valid = false
  kept : ∀ pos, (after.desc pos).stagingBuffer = (ccb.desc pos).stagingBuffer ∧
    (after.desc pos).transfer = (ccb.desc pos).transfer
  others : after = { ccb with desc := after.desc }

theorem clearLoop_spec (more first : Nat) (ccb : DxeCCB) :
    let after := DxeCCB.clearLoop more (first % ccb.nDescs) ccb
    (∀ k, first ≤ k → k < first + more → (after.desc (k % ccb.nDescs)).valid = false) ∧
      (∀ pos, (ccb.desc pos).valid = false → (after.desc pos).valid = false) ∧
      (∀ pos, (after.desc pos).stagingBuffer = (ccb.desc pos).stagingBuffer ∧
        (after.desc pos).transfer = (ccb.desc pos).transfer) ∧
      after = { ccb with desc := after.desc } := by
  induction more generalizing first ccb with
  | zero => exact ⟨fun k low high => by omega, fun _ invalid => invalid, fun _ => ⟨rfl, rfl⟩, rfl⟩
  | succ more ih =>
      have next : ccb.next (first % ccb.nDescs) = (first + 1) % ccb.nDescs :=
        Circular.index_next _ _
      dsimp only
      rw [DxeCCB.clearLoop, next]
      split_ifs with valid
      · have self := (setCtrl_valid_self ccb (first % ccb.nDescs)
          ((ccb.desc (first % ccb.nDescs)).ctrl &&& ~~~ntDxeDescCtrlValid)).trans (valid_clear _)
        obtain ⟨cleared, still, kept, others⟩ := ih (first + 1) (ccb.setCtrl (first % ccb.nDescs)
          ((ccb.desc (first % ccb.nDescs)).ctrl &&& ~~~ntDxeDescCtrlValid))
        refine ⟨fun k low high => ?_, fun pos invalid => ?_, fun pos => ?_, others⟩
        · by_cases here : k = first
          · rw [here]
            exact still _ self
          · exact cleared k (by omega) (by omega)
        · apply still
          by_cases here : pos = first % ccb.nDescs
          · rw [here]
            exact self
          · rw [setCtrl_valid_other ccb _ pos _ here]
            exact invalid
        · have same := kept pos
          rw [setCtrl_stagingBuffer, setCtrl_transfer] at same
          exact same
      · obtain ⟨cleared, still, kept, others⟩ := ih (first + 1) ccb
        refine ⟨fun k low high => ?_, still, kept, others⟩
        by_cases here : k = first
        · rw [here]
          exact still _ (Bool.eq_false_iff.mpr valid)
        · exact cleared k (by omega) (by omega)

/-- The reconfiguration of a transmit channel takes its descriptors from the engine. -/
theorem reconfig_cleared {ccb : DxeCCB} (configured : ccb.chConfigured = true)
    (toBmu : ccb.xfrType = .hostToBmu) (head : ccb.pRingFreeHead < ccb.nDescs) :
    Cleared ccb ccb.halDxeDescReconfig := by
  obtain ⟨cleared, -, kept, others⟩ := clearLoop_spec ccb.nDescs ccb.pRingFreeHead ccb
  rw [Nat.mod_eq_of_lt head] at cleared kept others
  have isLoop : ccb.halDxeDescReconfig = ccb.clearLoop ccb.nDescs ccb.pRingFreeHead := by
    rw [DxeCCB.halDxeDescReconfig, if_neg (not_not.mpr configured), toBmu]
  rw [isLoop]
  refine ⟨fun pos below => ?_, kept, others⟩
  obtain ⟨k, low, high, isPos⟩ := Circular.exists_index ccb.pRingFreeHead below
  rw [← isPos]
  exact cleared k low high

section Ordered

variable {ccb : DxeCCB} {pc : Option FramePc} {armed : Nat}

/-- The valid descriptors are those of the frames that were given to the engine and not read. -/
theorem DxeCCB.Ordered.pending (ordered : ccb.Ordered pc armed) (toBmu : ccb.xfrType = .hostToBmu) :
    ccb.ntDxeGetPendingPktCount = armed - ccb.transferred.length := by
  have count := ordered.count
  have room := ordered.room
  refine pendingCount_window ordered.behind (by omega) ?_ ?_
  · intro k low high
    rw [counts_transmit toBmu]
    exact (ordered.held k _ low high (List.getElem?_eq_getElem (by omega))).1
  · intro k low high
    rw [counts_transmit toBmu]
    exact ordered.empty k low high

/-- A channel without a valid descriptor has nothing pending, and the engine waits. -/
theorem Cleared.idle {after : DxeCCB} (cleared : Cleared ccb after)
    (toBmu : ccb.xfrType = .hostToBmu) (inside : ccb.enginePos < ccb.nDescs) :
    after.ntDxeGetPendingPktCount = 0 ∧ after.engine = none := by
  have count : after.nDescs = ccb.nDescs := by rw [cleared.others]
  have sameType : after.xfrType = ccb.xfrType := by rw [cleared.others]
  have samePos : after.enginePos = ccb.enginePos := by rw [cleared.others]
  constructor
  · have positive : 0 < ccb.nDescs := by omega
    have none := @pendingCount_window after 0 0 (Nat.le_refl 0) (Nat.zero_le _)
      (fun k _ high => absurd high (Nat.not_lt_zero k)) (by
        intro k _ _
        rw [counts_transmit (sameType.trans toBmu), count]
        exact cleared.invalid _ (Nat.mod_lt _ positive))
    exact none
  · rw [DxeCCB.engine, samePos, if_neg]
    rw [Bool.not_eq_true]
    exact cleared.invalid _ inside

end Ordered

/-- The frames that the driver has accepted on a transmit channel and the engine has not read are
the pending ones, but for a frame whose descriptor is filled and not enabled; and the
reconfiguration before sleep leaves none for the engine, all with the buffers they had. -/
structure DxeCCB.Pending (ccb : DxeCCB) (pc : Option FramePc) : Prop where
  count : ccb.ntDxeGetPendingPktCount + FramePc.pending pc + ccb.transferred.length =
    ccb.accepted.length
  cleared : Cleared ccb ccb.halDxeDescReconfig
  idle : ccb.halDxeDescReconfig.ntDxeGetPendingPktCount = 0
  waits : ccb.halDxeDescReconfig.engine = none

/-- In every state of every run in which the workaround has found valid descriptors only. -/
theorem pending_frames_counted (descBase dxeHaltCount : UInt32) (actions : List HalDxe.Action)
    {last : HalDxe}
    (run : Runs.exec HalDxe.step (ntNdxeInit descBase dxeHaltCount) actions = some last)
    (finds : Runs.Meets HalDxe.step HalDxe.WarFindsValid (ntNdxeInit descBase dxeHaltCount) actions)
    (channel : Nat) (configured : (last.channels channel).chConfigured = true)
    (toBmu : (last.channels channel).xfrType = .hostToBmu) :
    (last.channels channel).Pending (last.pcOn channel) := by
  have keeps : ∀ hal action next, HalDxe.Sound hal ∧ HalDxe.AllOrdered hal →
      HalDxe.WarFindsValid hal action → HalDxe.step hal action = some next →
      next.Sound ∧ next.AllOrdered := by
    rintro hal action next ⟨before, ordered⟩ holds stepped
    exact ⟨HalDxe.Sound.step hal action next before stepped, ordered.step before holds stepped⟩
  obtain ⟨sound, allOrdered⟩ :=
    Runs.invariant keeps ⟨HalDxe.Sound.init descBase dxeHaltCount, nofun⟩ finds run
  obtain ⟨armed, ordered⟩ := allOrdered channel configured (Or.inl toBmu)
  have staged := sound.staged channel configured
  have head : (last.channels channel).pRingFreeHead < (last.channels channel).nDescs := by
    rw [staged.head]
    exact Nat.mod_lt _ staged.count_pos
  have engine : (last.channels channel).enginePos < (last.channels channel).nDescs := by
    rw [ordered.engine]
    exact Nat.mod_lt _ staged.count_pos
  have cleared := reconfig_cleared configured toBmu head
  obtain ⟨idle, waits⟩ := cleared.idle toBmu engine
  refine ⟨?_, cleared, idle, waits⟩
  have count := ordered.count
  have behind := ordered.behind
  rw [ordered.pending toBmu]
  omega

/-- Three frames: one that the engine has read, one that it has not, and one on its way into its
descriptor. -/
def framesOnTheWay : List HalDxe.Action :=
  fillRing ++ [HalDxe.Action.engine 0] ++ [.submit 0 ⟨0x3000, 64, 0⟩, .exec 0, .exec 0]

theorem frames_on_the_way_counted :
    ∃ last, Runs.exec HalDxe.step (ntNdxeInit 0x20000 0) framesOnTheWay = some last ∧
      (last.channels 0).ntDxeGetPendingPktCount = 1 ∧
      (last.channels 0).Pending (last.pcOn 0) :=
  ⟨_, rfl, by decide, pending_frames_counted 0x20000 0 framesOnTheWay rfl (by decide) 0
    (by decide) (by decide)⟩

end QHal.Dxe
