/-
Module: QHal.Proofs.QspiFifo
Purpose: Reads whose bytes come through a FIFO that is polled for a limited time: when the
  buffer of the caller of a flash read has all bytes that were asked for.
Trusted boundary: none
Main exports: taken, fifoTransfer_delivers, Receiving, queueData_receives, Receives,
  drvFlashRead_receives_iff
-/
import QHal.Proofs.QspiCommand
import QHal.Qspi.FlashRead

namespace QHal.Qspi

open Flash (FlashStatus)

/-! ## The polls of a read -/

section Polls

/-- The bytes that the polls from one on take of those that are still to be read. -/
def taken (bytesInFifo : Nat → UInt8) : Nat → Nat → Nat → Nat
  | 0, _, _ => 0
  | polls + 1, poll, bytesLeft =>
      let bytesRead := serviceRxfifo (bytesInFifo poll) bytesLeft
      bytesRead + taken bytesInFifo polls (poll + 1) (bytesLeft - bytesRead)

theorem serviceRxfifo_le (bytesInFifo : UInt8) (numBytes : Nat) :
    serviceRxfifo bytesInFifo numBytes ≤ numBytes := by
  unfold serviceRxfifo
  dsimp only
  split <;> split <;> omega

theorem serviceRxfifo_empty (numBytes : Nat) : serviceRxfifo 0 numBytes = 0 := by
  unfold serviceRxfifo
  have none : UInt8.toNat 0 = 0 := rfl
  dsimp only
  rw [none]
  split <;> split <;> omega

theorem taken_le (bytesInFifo : Nat → UInt8) (polls poll bytesLeft : Nat) :
    taken bytesInFifo polls poll bytesLeft ≤ bytesLeft := by
  induction polls generalizing poll bytesLeft with
  | zero => exact Nat.zero_le _
  | succ polls ih =>
      have first := serviceRxfifo_le (bytesInFifo poll) bytesLeft
      have rest := ih (poll + 1) (bytesLeft - serviceRxfifo (bytesInFifo poll) bytesLeft)
      rw [taken]
      omega

/-- Nothing is taken of a FIFO that stays empty. -/
theorem taken_empty (polls poll bytesLeft : Nat) :
    taken (fun _ => 0) polls poll bytesLeft = 0 := by
  induction polls generalizing poll with
  | zero => rfl
  | succ polls ih =>
      rw [taken, serviceRxfifo_empty, Nat.sub_zero]
      exact Nat.add_eq_zero_iff.mpr ⟨rfl, ih (poll + 1)⟩

theorem taken_none (bytesInFifo : Nat → UInt8) (polls poll : Nat) :
    taken bytesInFifo polls poll 0 = 0 :=
  Nat.le_zero.mp (taken_le bytesInFifo polls poll 0)

theorem taken_at_once {bytesInFifo : Nat → UInt8} {poll bytesLeft : Nat} (polls : Nat)
    (all : serviceRxfifo (bytesInFifo poll) bytesLeft = bytesLeft) :
    taken bytesInFifo (polls + 1) poll bytesLeft = bytesLeft := by
  rw [taken, all, Nat.sub_self, taken_none, Nat.add_zero]

/-- Bytes and the bytes behind them are put at their places one after the other. -/
theorem overlay_overlay (memory : Nat → UInt8) (ptr first second received : Nat)
    (device : Nat → UInt8) :
    Mem.overlay (Mem.overlay memory ptr first fun i => device (received + i)) (ptr + first) second
        (fun i => device (received + first + i)) =
      Mem.overlay memory ptr (first + second) fun i => device (received + i) := by
  simp only [Nat.add_assoc received]
  exact Mem.overlay_append memory ptr first second fun i => device (received + i)

/-- The loop puts the bytes that it takes at their places. -/
theorem pioReadLoop_eq (device : Nat → UInt8) (bytesInFifo : Nat → UInt8)
    (polls poll ptr bytesLeft : Nat) (memory : Nat → UInt8) (received : Nat) :
    pioReadLoop device bytesInFifo polls poll ptr bytesLeft memory received =
      (Mem.overlay memory ptr (taken bytesInFifo polls poll bytesLeft)
        fun i => device (received + i), received + taken bytesInFifo polls poll bytesLeft) := by
  induction polls generalizing poll ptr bytesLeft memory received with
  | zero =>
      rw [pioReadLoop, taken, Mem.overlay_zero]
      rfl
  | succ polls ih =>
      rw [pioReadLoop]
      by_cases done : bytesLeft = 0
      · rw [if_pos done, done, taken_none, Mem.overlay_zero]
        rfl
      · rw [if_neg done]
        dsimp only
        rw [ih, overlay_overlay, taken, Nat.add_assoc]

/-- The controller delivers of each read what its polls take. -/
theorem fifoTransfer_delivers (device : Nat → UInt8) (bytesInFifo : Nat → Nat → UInt8) :
    Controller.Delivers (fifoTransfer device bytesInFifo) device
      fun reads length => taken (bytesInFifo reads) maxReadWait 0 length where
  within := fun reads length => taken_le (bytesInFifo reads) maxReadWait 0 length
  write := by
    intro state desc writes
    unfold fifoTransfer
    rw [writes]
    exact (pioTransfer_delivers device).write state desc writes
  read := by
    intro state desc reads
    unfold fifoTransfer
    rw [reads]
    dsimp only
    rw [pioReadLoop_eq]
    dsimp only
    rw [Nat.add_sub_cancel_left]

end Polls

/-! ## The phases in front of the data -/

section Phases

variable {buffers : Buffers} {state : State} {before : Nat → UInt8} {count used : Nat}
  {beats : List Beat} {cmd : Cmd} {addr : UInt32}

/-- Nothing is flushed, so that a phase is the same whatever the controller does. -/
theorem Staged.setDescriptor_any (staged : Staged buffers before count used beats state)
    (transfer other : Controller) (data : Data) {dataBytes : Nat} (mode : Mode)
    (direction : Direction) (some : dataBytes ≠ 0) (few : count < maxDescriptors)
    (fits : used + 3 + dataBytes ≤ bufferSize) :
    QHal.Qspi.setDescriptor buffers.transferBuffer transfer data dataBytes mode direction .pio
        state =
      QHal.Qspi.setDescriptor buffers.transferBuffer other data dataBytes mode direction .pio
        state := by
  unfold QHal.Qspi.setDescriptor
  split
  · rfl
  · rw [staged.alloc some few fits, staged.alloc some few fits]

theorem Staged.queueDummy_any (staged : Staged buffers before count used beats state)
    (transfer other : Controller) {dummyClocks : Nat} (even : dummyClocks % 2 = 0)
    (few : count < maxDescriptors) (fits : used + 3 + dummyClocks ≤ bufferSize) :
    QHal.Qspi.queueDummy buffers.transferBuffer transfer dummyClocks .pio state =
      QHal.Qspi.queueDummy buffers.transferBuffer other dummyClocks .pio state := by
  unfold QHal.Qspi.queueDummy
  by_cases none : dummyClocks = 0
  · rw [if_pos none, if_pos none]
  rw [if_neg none, if_neg none]
  cases dummyMerge buffers.transferBuffer dummyClocks state with
  | some found => rfl
  | none =>
      dsimp only
      rw [staged.alloc (by omega) few (by omega), staged.alloc (by omega) few (by omega)]

/-- The state in front of the data, for a controller that is never asked. -/
def dataStage (buffers : Buffers) (cmd : Cmd) (addr : UInt32) (before : Nat → UInt8) : State :=
  dummied buffers (fun state _ => state) cmd addr before

theorem dummied_eq (transfer : Controller) (few : cmd.addrBytes ≤ 4) (clocks : cmd.dummyClocks ≤ 16)
    (even : cmd.dummyClocks % 2 = 0) :
    dummied buffers transfer cmd addr before = dataStage buffers cmd addr before := by
  have size : bufferSize = 128 := rfl
  have most : maxDescriptors = 8 := rfl
  have begun := idle_staged buffers before
  have opcode : queueOpcode buffers.transferBuffer transfer cmd.opcode cmd.cmdMode .pio
      (idle buffers.transferBuffer before) =
        queueOpcode buffers.transferBuffer (fun state _ => state) cmd.opcode cmd.cmdMode .pio
          (idle buffers.transferBuffer before) :=
    begun.setDescriptor_any transfer _ _ _ _ (by decide) (by omega) (by omega)
  have first : Staged buffers before 1 4 (inMode .write cmd.cmdMode [cmd.opcode])
      (queueOpcode buffers.transferBuffer (fun state _ => state) cmd.opcode cmd.cmdMode .pio
        (idle buffers.transferBuffer before)) :=
    begun.setDescriptor _ (.array [cmd.opcode]) cmd.cmdMode (show (1 : Nat) ≠ 0 by decide) rfl
      (by omega) (by omega) nofun
  have address : addressed buffers transfer cmd addr before =
      addressed buffers (fun state _ => state) cmd addr before := by
    unfold addressed queueAddr
    rw [opcode]
    split
    · rfl
    · rename_i some
      exact first.setDescriptor_any transfer _ _ _ _ some (by omega) (by omega)
  unfold dataStage dummied
  rw [address]
  exact (addressed_staged buffers _ addr before few).queueDummy_any transfer _ even (by omega)
    (by omega)

/-- The data follows phases that are only queued. -/
theorem dataStage_staged (buffers : Buffers) (addr : UInt32) (before : Nat → UInt8)
    (few : cmd.addrBytes ≤ 4) (clocks : cmd.dummyClocks ≤ 16) (even : cmd.dummyClocks % 2 = 0) :
    (∃ beats, Staged buffers before 3 30 beats (dataStage buffers cmd addr before)) ∧
      (dataStage buffers cmd addr before).chain ≠ [] := by
  have size : bufferSize = 128 := rfl
  have most : maxDescriptors = 8 := rfl
  obtain ⟨front, desc, split, writes, same⟩ :=
    addressed_last buffers (fun state _ => state) cmd addr before
  have staged : Staged buffers before 3 (11 + 3 + cmd.dummyClocks) _
      (dataStage buffers cmd addr before) :=
    (addressed_staged buffers (fun state _ => state) addr before few).queueDummy
      (fun state _ => state) split writes same (by omega) (by omega) (Or.inl (by omega))
  have room : 11 + 3 + cmd.dummyClocks ≤ 30 := by omega
  refine ⟨⟨_, staged.mono (Nat.le_refl 3) room⟩, queueDummy_linked _ _ _ _ ?_⟩
  rw [split]
  exact List.append_ne_nil_of_right_ne_nil front (List.cons_ne_nil desc [])

end Phases

/-! ## The pieces of the data -/

section Pieces

/-- The chunks of data that is queued directly. -/
def chunks (dataBytes : Nat) : List Nat :=
  if _ : dataBytes = 0 then []
  else chunkSize dataBytes :: chunks (dataBytes - chunkSize dataBytes)
termination_by dataBytes
decreasing_by exact Nat.sub_lt (Nat.pos_of_ne_zero ‹_›) (chunkSize_pos ‹_›)

/-- The lengths of the reads that data is divided into: the bytes in front of an aligned address,
and the chunks. -/
def readPieces (data dataBytes : Nat) : List Nat :=
  let prologBytes := prologOf data dataBytes
  (if prologBytes = 0 then [] else [prologBytes]) ++ chunks (dataBytes - prologBytes)

/-- All bytes of all pieces are delivered. -/
def InFull (got : Nat → Nat → Nat) (pieces : List Nat) : Prop :=
  ∀ (reads length : Nat), pieces[reads]? = some length → got reads length = length

variable {got : Nat → Nat → Nat} {pieces : List Nat} {length : Nat}

theorem inFull_nil : InFull got [] := by
  intro reads length found
  cases found

theorem inFull_append :
    InFull got (pieces ++ [length]) ↔ InFull got pieces ∧ got pieces.length length = length := by
  refine ⟨fun full => ⟨fun reads found inside => ?_, ?_⟩, fun ⟨full, last⟩ reads found inside => ?_⟩
  · apply full
    rw [List.getElem?_append_left (List.getElem?_eq_some_iff.mp inside).1, inside]
  · apply full
    rw [List.getElem?_append_right (Nat.le_refl _), Nat.sub_self]
    rfl
  · rcases Nat.lt_or_ge reads pieces.length with earlier | behind
    · rw [List.getElem?_append_left earlier] at inside
      exact full reads found inside
    · rw [List.getElem?_append_right behind] at inside
      obtain ⟨here, same⟩ := List.getElem?_eq_some_iff.mp inside
      have zero : reads - pieces.length = 0 := by
        rw [List.length_singleton] at here
        omega
      have place : reads = pieces.length := by omega
      rw [zero] at inside
      cases inside
      rw [place]
      exact last

end Pieces

/-! ## The data phase -/

section Receiving

variable {buffers : Buffers} {transfer : Controller} {device : Nat → UInt8}
  {got : Nat → Nat → Nat} {stale : Nat → UInt8} {pieces : List Nat} {pos : Nat} {mode : Mode}
  {state : State} {before : Nat → UInt8} {count used : Nat} {beats : List Beat}

/-- With a flush these pieces of the data, `pos` bytes, have been read: all bytes are in the buffer
of the caller if all were delivered, and else one has a stale value.  The bytes behind are stale. -/
structure Receiving (buffers : Buffers) (transfer : Controller) (device : Nat → UInt8)
    (got : Nat → Nat → Nat) (stale : Nat → UInt8) (pieces : List Nat) (pos : Nat)
    (state : State) : Prop where
  linked : state.chain ≠ []
  bounces : ∀ desc ∈ state.chain, desc.bounceLength = 0 ∨
    (buffers.transferBuffer ≤ desc.bounceSrc ∧
      desc.bounceSrc + desc.bounceLength ≤ buffers.transferBuffer + bufferSize) ∧
      desc.bounceDst = buffers.data ∧ desc.bounceLength ≤ pos
  reads : readCount (flushChain buffers.transferBuffer transfer .pio state).bus = pieces.length
  received : InFull got pieces →
    (flushChain buffers.transferBuffer transfer .pio state).received = pos
  delivered : InFull got pieces → ∀ i < pos,
    (flushChain buffers.transferBuffer transfer .pio state).memory (buffers.data + i) = device i
  missing : ¬ InFull got pieces → ∃ i < pos,
    (flushChain buffers.transferBuffer transfer .pio state).memory (buffers.data + i) = stale i
  behind : ∀ i, pos ≤ i → i < buffers.dataBytes →
    (flushChain buffers.transferBuffer transfer .pio state).memory (buffers.data + i) = stale i

/-- A transfer of a chunk puts what is delivered at the place of the chunk. -/
theorem transfer_chunk (delivers : transfer.Delivers device got) (state : State)
    (data chunkSize : Nat) (mode : Mode) :
    transfer state (chunkDescriptor data chunkSize mode false) =
      { state with
        memory := Mem.overlay state.memory data (got (readCount state.bus) chunkSize)
          fun i => device (state.received + i)
        received := state.received + got (readCount state.bus) chunkSize
        bus := state.bus ++
          [{ direction := .read
             multiIoMode := some mode
             fragment := true
             bytes := bytesAt device state.received (got (readCount state.bus) chunkSize) }] } :=
  delivers.read state _ rfl

theorem readCount_append (bus : List Transfer) (transfer : Transfer)
    (reads : transfer.direction = .read) :
    readCount (bus ++ [transfer]) = readCount bus + 1 := by
  unfold readCount
  rw [List.countP_append, List.countP_singleton, reads]
  rfl

/-- The next chunk. -/
theorem Receiving.queueChunk (delivers : transfer.Delivers device got)
    (receiving : Receiving buffers transfer device got stale pieces pos state) (mode : Mode)
    {chunkSize : Nat} (inside : pos + chunkSize ≤ buffers.dataBytes) :
    Receiving buffers transfer device got stale (pieces ++ [chunkSize]) (pos + chunkSize)
      (queueChunk buffers.transferBuffer transfer (buffers.data + pos) chunkSize mode false .pio
        state) := by
  have apart : BouncesApart false (buffers.data + pos) chunkSize state.chain := by
    intro desc member
    have places := buffers.apart
    rcases receiving.bounces desc member with none | ⟨source, place, below⟩
    · exact Or.inl none
    · exact Or.inr ⟨rfl, by omega, Or.inl (by omega)⟩
  have flushed := flushChain_queueChunk delivers buffers.transferBuffer mode apart
  have shape := queueChunk_eq transfer buffers.transferBuffer (buffers.data + pos) chunkSize mode
    false state
  have within := delivers.within pieces.length chunkSize
  rw [transfer_chunk delivers, receiving.reads] at flushed
  -- Outside of what is delivered of the chunk the memory is the one in front of it.
  have same : ∀ i, i < pos ∨ pos + got pieces.length chunkSize ≤ i →
      (flushChain buffers.transferBuffer transfer .pio (QHal.Qspi.queueChunk
        buffers.transferBuffer transfer (buffers.data + pos) chunkSize mode false .pio
          state)).memory (buffers.data + i) =
        (flushChain buffers.transferBuffer transfer .pio state).memory (buffers.data + i) := by
    intro i outside
    rw [flushed]
    exact if_neg (by omega)
  refine
    { linked := ?_
      bounces := ?_
      reads := ?_
      received := ?_
      delivered := ?_
      missing := ?_
      behind := ?_ }
  · rw [shape]
    split <;> simp
  · rw [shape]
    intro desc member
    split at member
    · rw [List.mem_singleton.mp member]
      exact Or.inl rfl
    · rcases List.mem_append.mp member with earlier | last
      · refine (receiving.bounces desc earlier).imp_right ?_
        rintro ⟨source, place, below⟩
        exact ⟨source, place, Nat.le_trans below (Nat.le_add_right _ _)⟩
      · rw [List.mem_singleton.mp last]
        exact Or.inl rfl
  · rw [flushed, readCount_append _ _ rfl, receiving.reads, List.length_append,
      List.length_singleton]
  · intro full
    obtain ⟨earlier, last⟩ := inFull_append.mp full
    rw [flushed]
    dsimp only
    rw [receiving.received earlier, last]
  · intro full i below
    obtain ⟨earlier, last⟩ := inFull_append.mp full
    by_cases new : pos ≤ i
    · rw [flushed]
      dsimp only [Mem.overlay]
      rw [if_pos (by omega), receiving.received earlier]
      congr 1
      omega
    · rw [same i (by omega)]
      exact receiving.delivered earlier i (by omega)
  · intro short
    by_cases earlier : InFull got pieces
    · have less : got pieces.length chunkSize ≠ chunkSize := fun last =>
        short (inFull_append.mpr ⟨earlier, last⟩)
      refine ⟨pos + got pieces.length chunkSize, by omega, ?_⟩
      rw [same _ (by omega)]
      exact receiving.behind _ (by omega) (by omega)
    · obtain ⟨i, below, old⟩ := receiving.missing earlier
      refine ⟨i, by omega, ?_⟩
      rw [same i (by omega), old]
  · intro i above here
    rw [same i (by omega)]
    exact receiving.behind i (by omega) here

/-- The chunks of the rest of the data. -/
theorem queueDataDirect_receives (delivers : transfer.Delivers device got) (mode : Mode)
    (rest : Nat) (receiving : Receiving buffers transfer device got stale pieces pos state)
    (inside : pos + rest ≤ buffers.dataBytes) :
    Receiving buffers transfer device got stale (pieces ++ chunks rest) (pos + rest)
      (queueDataDirect buffers.transferBuffer transfer (buffers.data + pos) rest mode false .pio
        state) := by
  induction rest using Nat.strongRecOn generalizing pos pieces state with
  | ind rest ih =>
      unfold queueDataDirect chunks
      by_cases done : rest = 0
      · rw [dif_pos done, dif_pos done, done, List.append_nil]
        exact receiving
      · have positive := chunkSize_pos done
        have fewer := chunkSize_le rest
        have next := ih (rest - chunkSize rest) (by omega)
          (receiving.queueChunk delivers mode
            (show pos + chunkSize rest ≤ buffers.dataBytes by omega))
          (by omega)
        rw [dif_neg done, dif_neg done, Nat.add_assoc buffers.data]
        rwa [show pos + chunkSize rest + (rest - chunkSize rest) = pos + rest by omega,
          List.append_assoc] at next

/-- What the bytes of a read are where they are not delivered: what was in the transfer buffer for
those in front of an aligned address, and what was in the buffer of the caller for the others. -/
def staleOf (buffers : Buffers) (state : State) (i : Nat) : UInt8 :=
  if i < prologOf buffers.data buffers.dataBytes then
    state.memory (alignUp 4 state.freePtr + i)
  else state.memory (buffers.data + i)

/-- Nothing is read yet. -/
theorem Staged.receiving (staged : Staged buffers before count used beats state)
    (delivers : transfer.Delivers device got) (linked : state.chain ≠ [])
    (aligned : prologOf buffers.data buffers.dataBytes = 0) :
    Receiving buffers transfer device got (staleOf buffers state) [] 0 state where
  linked := linked
  bounces := fun desc member => Or.inl (staged.written desc member).2.2
  reads := by
    rw [staged.flush delivers]
    exact staged.readCount
  received := by
    intro _
    rw [staged.flush delivers]
    exact staged.received
  delivered := by
    intro _ i below
    exact absurd below (Nat.not_lt_zero i)
  missing := fun short => absurd inFull_nil short
  behind := by
    intro i _ _
    rw [staged.flush delivers, staleOf, aligned, if_neg (Nat.not_lt_zero i)]

/-- The bytes in front of an aligned address are read. -/
theorem readProlog_receives (staged : Staged buffers before count used beats state)
    (delivers : transfer.Delivers device got)
    (some : prologOf buffers.data buffers.dataBytes ≠ 0) (nonNull : buffers.data ≠ 0)
    (few : count < maxDescriptors)
    (fits : used + 3 + prologOf buffers.data buffers.dataBytes ≤ bufferSize) :
    Receiving buffers transfer device got (staleOf buffers state)
      [prologOf buffers.data buffers.dataBytes] (prologOf buffers.data buffers.dataBytes)
      (setDescriptor buffers.transferBuffer transfer (.buffer buffers.data)
        (prologOf buffers.data buffers.dataBytes) mode .read .pio state) := by
  have free := staged.free
  have space := buffers.inSpace
  have places := buffers.apart
  have size : bufferSize = 128 := rfl
  have near := alignUp_near (show state.freePtr + 4 ≤ 2 ^ 32 by omega)
  have small : prologOf buffers.data buffers.dataBytes ≤ buffers.dataBytes := prologOf_le _ _
  have stale : ∀ i, staleOf buffers state i =
      if i < prologOf buffers.data buffers.dataBytes then
        state.memory (alignUp 4 state.freePtr + i)
      else state.memory (buffers.data + i) := fun _ => rfl
  generalize prologOf buffers.data buffers.dataBytes = prologBytes at *
  have flushed := fun freePtr => flushChain_bounce delivers mode freePtr staged small
    (show buffers.transferBuffer ≤ alignUp 4 state.freePtr by omega) (by omega)
  have within := delivers.within 0 prologBytes
  have full : InFull got [prologBytes] ↔ got 0 prologBytes = prologBytes :=
    (@inFull_append got [] prologBytes).trans (and_iff_right inFull_nil)
  rw [setDescriptor_read staged some nonNull few fits]
  refine
    { linked := by simp
      bounces := ?_
      reads := ?_
      received := ?_
      delivered := ?_
      missing := ?_
      behind := ?_ }
  · intro desc member
    rcases List.mem_append.mp member with earlier | last
    · exact Or.inl (staged.written desc earlier).2.2
    · rw [List.mem_singleton.mp last]
      exact Or.inr ⟨⟨by dsimp only [bounceDescriptor]; omega,
        by dsimp only [bounceDescriptor]; omega⟩, rfl, Nat.le_refl _⟩
  · rw [flushed, readCount_append _ _ rfl, staged.readCount]
    rfl
  · intro whole
    rw [flushed]
    exact full.mp whole
  · intro whole i below
    rw [flushed]
    dsimp only [Mem.overlay]
    rw [if_pos (by omega), Nat.add_sub_cancel_left, full.mp whole, if_pos below]
  · intro short
    have less : got 0 prologBytes ≠ prologBytes := fun whole => short (full.mpr whole)
    refine ⟨got 0 prologBytes, by omega, ?_⟩
    rw [flushed, stale, if_pos (by omega)]
    dsimp only [Mem.overlay]
    rw [if_pos (by omega), Nat.add_sub_cancel_left, if_neg (Nat.lt_irrefl _)]
  · intro i above inside
    rw [flushed, stale, if_neg (by omega)]
    dsimp only [Mem.overlay]
    rw [if_neg (by omega), if_neg (by omega)]

/-- The data phase of a read. -/
theorem queueData_receives (staged : Staged buffers before count used beats state)
    (delivers : transfer.Delivers device got) (linked : state.chain ≠ []) (mode : Mode)
    (some : buffers.dataBytes ≠ 0) (few : count < maxDescriptors)
    (fits : used + 6 ≤ bufferSize) :
    Receiving buffers transfer device got (staleOf buffers state)
      (readPieces buffers.data buffers.dataBytes) buffers.dataBytes
      (queueData buffers.transferBuffer transfer buffers.data buffers.dataBytes mode false .pio
        state) := by
  obtain ⟨small, nonNull, aligned⟩ := prolog_spec buffers.dataInSpace some
  rw [queueData_pio buffers.transferBuffer buffers.data mode false state some rfl]
  have inside := prologOf_le buffers.data buffers.dataBytes
  have pieces : readPieces buffers.data buffers.dataBytes =
      (if prologOf buffers.data buffers.dataBytes = 0 then []
        else [prologOf buffers.data buffers.dataBytes]) ++
        chunks (buffers.dataBytes - prologOf buffers.data buffers.dataBytes) := rfl
  have begun : Receiving buffers transfer device got (staleOf buffers state)
      (if prologOf buffers.data buffers.dataBytes = 0 then []
        else [prologOf buffers.data buffers.dataBytes])
      (prologOf buffers.data buffers.dataBytes)
      (queueProlog buffers.transferBuffer transfer buffers.data
        (prologOf buffers.data buffers.dataBytes) mode false state) := by
    unfold queueProlog
    by_cases skip : prologOf buffers.data buffers.dataBytes = 0
    · rw [if_pos skip, if_pos skip, skip]
      exact staged.receiving delivers linked skip
    · rw [if_neg skip, if_neg skip]
      exact readProlog_receives staged delivers skip (nonNull skip) few (by omega)
  rw [pieces]
  by_cases whole : buffers.dataBytes - prologOf buffers.data buffers.dataBytes = 0
  · have all : buffers.dataBytes = prologOf buffers.data buffers.dataBytes := by omega
    have none : chunks 0 = [] := by
      unfold chunks
      exact dif_pos rfl
    rw [if_pos whole, whole, none, List.append_nil]
    rwa [← all] at begun ⊢
  · rw [if_neg whole, aligned (by omega)]
    have streams := queueDataDirect_receives delivers mode
      (buffers.dataBytes - prologOf buffers.data buffers.dataBytes) begun (by omega)
    rwa [Nat.add_sub_cancel' inside] at streams

end Receiving

/-! ## Reading the flash -/

section FlashRead

variable {buffers : Buffers} {transfer : Controller} {device before : Nat → UInt8}
  {got : Nat → Nat → Nat} {state : State} {ctx : ReadContext} {address byteCnt : UInt32}
  {readCb : Bool}

theorem Direction.read_or_write (direction : Direction) :
    direction = .read ∨ direction = .write := by
  cases direction with
  | read => exact Or.inl rfl
  | write => exact Or.inr rfl

/-- The last transfer does not depend on its fragment flag. -/
theorem flushChain_clearFragment_memory (delivers : transfer.Delivers device got)
    (transferBuffer : Nat) (linked : state.chain ≠ []) :
    (flushChain transferBuffer transfer .pio (clearFragment state)).memory =
      (flushChain transferBuffer transfer .pio state).memory := by
  have split := List.dropLast_append_getLast linked
  generalize state.chain.dropLast = front at split
  generalize state.chain.getLast linked = last at split
  have cleared : clearFragment state =
      { state with chain := front ++ [{ last with fragment := false }] } := by
    simp [clearFragment, ← split]
  have same : ∀ state : State, (transfer state { last with fragment := false }).memory =
      (transfer state last).memory := by
    intro state
    rcases Direction.read_or_write last.direction with reads | writes
    · rw [delivers.read state last reads, delivers.read state { last with fragment := false } reads]
    · rw [delivers.write state last writes,
        delivers.write state { last with fragment := false } writes]
  rw [cleared, flushChain_pio, flushChain_pio]
  dsimp only
  rw [pioTransferChain_relink delivers, ← split]
  unfold pioTransferChain copyBounces
  simp only [List.foldl_append, List.foldl_cons, List.foldl_nil]
  rw [same]

/-- The driver is ready and accepts the parameters. -/
structure Starts (ctx : ReadContext) (address byteCnt : UInt32) (buffer : Nat) : Prop where
  initDone : ctx.flashInitDone = true
  idle : ctx.state = 0
  accepts : ctx.config.refuses address byteCnt buffer = false

/-- The QSPI driver accepts the command. -/
def ReadConfig.Runs (config : ReadConfig) : Prop :=
  config.addrBytes ≤ 4 ∧ config.readWaitState ≤ 16

theorem starts_of_done {transferBuffer buffer : Nat} {memory : Nat → UInt8}
    (done : drvFlashRead transferBuffer transfer ctx address byteCnt buffer readCb before =
      (.done, memory)) : Starts ctx address byteCnt buffer := by
  unfold drvFlashRead at done
  split at done
  · cases done
  rename_i initDone
  split at done
  · cases done
  rename_i idle
  split at done
  · cases done
  rename_i accepts
  exact ⟨Bool.not_eq_false _ ▸ initDone, not_not.mp idle, Bool.not_eq_true _ ▸ accepts⟩

theorem Starts.read {buffer : Nat} (starts : Starts ctx address byteCnt buffer)
    (transferBuffer : Nat) (transfer : Controller) (readCb : Bool) (before : Nat → UInt8) :
    drvFlashRead transferBuffer transfer ctx address byteCnt buffer readCb before =
      if readCb then (.done, before)
      else
        match runCmd transferBuffer transfer ctx.config.cmd address buffer byteCnt.toNat .pio
          before with
        | none => (.fail, before)
        | some state => (.done, state.memory) := by
  unfold drvFlashRead
  exact (if_neg (by simp [starts.initDone])).trans
    ((if_neg (not_not.mpr starts.idle)).trans (if_neg (by simp [starts.accepts])))

theorem Starts.some {buffer : Nat} (starts : Starts ctx address byteCnt buffer) :
    byteCnt.toNat ≠ 0 := by
  intro none
  have accepts := starts.accepts
  rw [UInt32.toNat_inj.mp (show byteCnt.toNat = (0 : UInt32).toNat from none)] at accepts
  simp [ReadConfig.refuses] at accepts

/-- A read that runs is done, with the bytes of the flash if all were delivered, and else with a
stale byte. -/
theorem Starts.receives (starts : Starts ctx address byteCnt buffers.data)
    (size : buffers.dataBytes = byteCnt.toNat) (runs : ctx.config.Runs)
    (delivers : transfer.Delivers device got) (before : Nat → UInt8) :
    ∃ memory, drvFlashRead buffers.transferBuffer transfer ctx address byteCnt buffers.data false
        before = (.done, memory) ∧
      (InFull got (readPieces buffers.data byteCnt.toNat) →
        ∀ i < byteCnt.toNat, memory (buffers.data + i) = device i) ∧
      (¬ InFull got (readPieces buffers.data byteCnt.toNat) →
        ∃ i < byteCnt.toNat, memory (buffers.data + i) =
          staleOf buffers (dataStage buffers ctx.config.cmd address before) i) := by
  obtain ⟨few, clocks⟩ := runs
  have even : ctx.config.cmd.dummyClocks % 2 = 0 := ctx.config.evenWaits
  obtain ⟨⟨beats, staged⟩, linked⟩ :=
    dataStage_staged buffers address before (show ctx.config.cmd.addrBytes ≤ 4 from few) clocks even
  have some := starts.some
  rw [← size] at some ⊢
  have receiving := queueData_receives staged delivers linked ctx.config.cmd.dataMode some
    (by decide) (by decide)
  rw [← dummied_eq transfer few clocks even] at receiving
  have ran : runCmd buffers.transferBuffer transfer ctx.config.cmd address buffers.data
      byteCnt.toNat .pio before =
        .some (flushChain buffers.transferBuffer transfer .pio
          (clearFragment (queued buffers transfer ctx.config.cmd address before))) := by
    rw [← size]
    exact if_neg (by rw [not_or]; exact ⟨Nat.not_lt.mpr few, Nat.not_lt.mpr clocks⟩)
  have last := flushChain_clearFragment_memory delivers buffers.transferBuffer receiving.linked
  refine ⟨(flushChain buffers.transferBuffer transfer .pio
    (queued buffers transfer ctx.config.cmd address before)).memory, ?_, receiving.delivered, ?_⟩
  · rw [starts.read, ran]
    dsimp only
    rw [if_neg Bool.false_ne_true]
    exact congrArg (Prod.mk FlashStatus.done) last
  · rw [← dummied_eq transfer few clocks even]
    exact receiving.missing

/-- Whatever the flash holds and whatever the memory has held, a read that is reported as done has
put the bytes of the flash into the whole buffer. -/
def Receives (buffers : Buffers) (bytesInFifo : Nat → Nat → UInt8) (ctx : ReadContext)
    (address byteCnt : UInt32) (readCb : Bool) : Prop :=
  ∀ device before memory : Nat → UInt8,
    drvFlashRead buffers.transferBuffer (fifoTransfer device bytesInFifo) ctx address byteCnt
      buffers.data readCb before = (.done, memory) →
    ∀ i < byteCnt.toNat, memory (buffers.data + i) = device i

/-- The polls of each piece take all its bytes. -/
def InTime (bytesInFifo : Nat → Nat → UInt8) (pieces : List Nat) : Prop :=
  InFull (fun reads length => taken (bytesInFifo reads) maxReadWait 0 length) pieces

/-- A flash that differs from everything that the memory holds shows what is missing. -/
theorem Starts.late (starts : Starts ctx address byteCnt buffers.data)
    (size : buffers.dataBytes = byteCnt.toNat) (runs : ctx.config.Runs)
    {bytesInFifo : Nat → Nat → UInt8}
    (short : ¬ InTime bytesInFifo (readPieces buffers.data byteCnt.toNat)) :
    ¬ Receives buffers bytesInFifo ctx address byteCnt false := by
  intro receives
  obtain ⟨memory, done, -, missing⟩ := starts.receives size runs (fifoTransfer_delivers
    (fun i => staleOf buffers (dataStage buffers ctx.config.cmd address fun _ => 0) i + 1)
    bytesInFifo) fun _ => 0
  obtain ⟨i, inside, same⟩ := missing short
  rw [receives _ _ _ done i inside] at same
  simp at same

/-- What is reported as done has been received exactly when a read that is accepted has no
callback and the FIFO shows all bytes of each piece in time. -/
theorem drvFlashRead_receives_iff (bytesInFifo : Nat → Nat → UInt8)
    (size : buffers.dataBytes = byteCnt.toNat) :
    Receives buffers bytesInFifo ctx address byteCnt readCb ↔
      (Starts ctx address byteCnt buffers.data →
        readCb = false ∧
          (ctx.config.Runs → InTime bytesInFifo (readPieces buffers.data byteCnt.toNat))) := by
  constructor
  · intro receives starts
    have some := Nat.pos_of_ne_zero starts.some
    cases readCb with
    | true =>
        have read := receives (fun _ => 1) (fun _ => 0) _ (starts.read _ _ true _) 0 some
        cases read
    | false =>
        refine ⟨rfl, fun runs => ?_⟩
        by_contra short
        exact starts.late size runs short receives
  · intro condition device before memory done i inside
    have starts := starts_of_done done
    obtain ⟨blocking, inTime⟩ := condition starts
    rw [blocking] at done
    by_cases runs : ctx.config.Runs
    · obtain ⟨received, again, delivered, -⟩ :=
        starts.receives size runs (fifoTransfer_delivers device bytesInFifo) before
      rw [done] at again
      cases again
      exact delivered (inTime runs) i inside
    · have refused : ctx.config.cmd.addrBytes > 4 ∨ ctx.config.cmd.dummyClocks > 16 := by
        by_contra fits
        obtain ⟨few, clocks⟩ := not_or.mp fits
        exact runs ⟨Nat.le_of_not_gt few, Nat.le_of_not_gt clocks⟩
      rw [starts.read, if_neg Bool.false_ne_true, runCmd, if_pos refused] at done
      cases done

/-- A flash that is read two bits at a time. -/
def dualContext : ReadContext where
  flashInitDone := true
  state := 0
  config :=
    { readOpcode := 0xBB
      addrBytes := 3
      readWaitState := 4
      readCmdMode := .sdr1Bit
      readAddrMode := .sdr2Bit
      readDataMode := .sdr2Bit
      densityInBlocks := 2048
      evenWaits := rfl }

theorem readPieces_odd : readPieces oddBuffers.data 6 = [3, 3] := by
  have prolog : prologOf oddBuffers.data 6 = 3 := by decide
  unfold readPieces
  rw [prolog]
  unfold chunks
  unfold chunks
  rfl

theorem drvFlashRead_receives_dual :
    Receives oddBuffers (fun _ _ => 32) dualContext 0x1000 6 false := by
  apply (drvFlashRead_receives_iff (fun _ _ => 32) rfl).mpr
  refine fun _ => ⟨rfl, fun _ reads length found => ?_⟩
  rw [show (6 : UInt32).toNat = 6 from rfl, readPieces_odd] at found
  have three : length = 3 := by
    have member := List.mem_of_getElem? found
    simpa using member
  rw [three]
  exact taken_at_once 0x1FFFF (show serviceRxfifo 32 3 = 3 by decide)

/-- A read through a FIFO that stays empty is reported as done. -/
theorem drvFlashRead_hides_timeout :
    ¬ Receives oddBuffers (fun _ _ => 0) dualContext 0x1000 6 false := by
  have starts : Starts dualContext 0x1000 6 oddBuffers.data := ⟨rfl, rfl, by decide⟩
  apply starts.late rfl ⟨by decide, by decide⟩
  intro inTime
  have first : (readPieces oddBuffers.data (6 : UInt32).toNat)[0]? = .some 3 := by
    rw [show (6 : UInt32).toNat = 6 from rfl, readPieces_odd]
    rfl
  have none := taken_empty maxReadWait 0 3
  have all := inTime 0 3 first
  dsimp only at all
  rw [none] at all
  cases all

end FlashRead

end QHal.Qspi
