/-
Module: QHal.Proofs.QspiStream
Purpose: The data of a QSPI command: with every chunk that is queued, a flush would put the
  data so far on the bus, and into the buffer of the caller for a read, however often the
  chain has been flushed in between.
Trusted boundary: none
Main exports: flushChain_queueChunk, Streaming, queueDataDirect_streams, queueData_streams
-/
import QHal.Proofs.QspiStage

namespace QHal.Qspi

variable {buffers : Buffers} {device : Nat → UInt8} {state : State} {before : Nat → UInt8}
  {count used : Nat} {beats : List Beat} {write : Bool}

/-! ## Flushing -/

theorem beatsOf_append (front back : List Transfer) :
    beatsOf (front ++ back) = beatsOf front ++ beatsOf back := by
  simp [beatsOf]

@[simp] theorem pioTransfer_chain (state : State) (desc : Descriptor) :
    (pioTransfer device state desc).chain = state.chain := by
  unfold pioTransfer
  split <;> rfl

@[simp] theorem pioTransfer_freePtr (state : State) (desc : Descriptor) :
    (pioTransfer device state desc).freePtr = state.freePtr := by
  unfold pioTransfer
  split <;> rfl

/-- A controller that delivers of each read as many bytes as a function of the number of reads
before it and of its length says, and leaves everything else alone. -/
structure Controller.Delivers (transfer : Controller) (device : Nat → UInt8)
    (got : Nat → Nat → Nat) : Prop where
  within : ∀ reads length, got reads length ≤ length
  write : ∀ (state : State) (desc : Descriptor), desc.direction = .write →
    transfer state desc = { state with bus := state.bus ++ [desc.transfer state.memory] }
  read : ∀ (state : State) (desc : Descriptor), desc.direction = .read →
    transfer state desc =
      { state with
        memory := Mem.overlay state.memory desc.dataAddress
          (got (readCount state.bus) desc.length) fun i => device (state.received + i)
        received := state.received + got (readCount state.bus) desc.length
        bus := state.bus ++
          [{ direction := .read
             multiIoMode := desc.multiIoMode
             fragment := desc.fragment
             bytes := bytesAt device state.received (got (readCount state.bus) desc.length) }] }

theorem pioTransfer_delivers (device : Nat → UInt8) :
    Controller.Delivers (pioTransfer device) device fun _ length => length where
  within := fun _ _ => Nat.le_refl _
  write := by
    intro state desc writes
    unfold pioTransfer Descriptor.transfer
    rw [writes]
  read := by
    intro state desc reads
    unfold pioTransfer
    rw [reads]

variable {transfer : Controller} {got : Nat → Nat → Nat}

/-- A flush in PIO mode. -/
theorem flushChain_pio (transferBuffer : Nat) (state : State) :
    flushChain transferBuffer transfer .pio state =
      { pioTransferChain transfer state.chain state with
        memory := copyBounces state.chain (pioTransferChain transfer state.chain state).memory
        freePtr := transferBuffer
        chain := [] } := rfl

/-- The transfers do not depend on the chain that is linked. -/
theorem pioTransferChain_relink (delivers : transfer.Delivers device got)
    (chain linked : List Descriptor) (state : State) :
    pioTransferChain transfer chain { state with chain := linked } =
      { pioTransferChain transfer chain state with chain := linked } := by
  induction chain generalizing state with
  | nil => rfl
  | cons desc chain ih =>
      have first : transfer { state with chain := linked } desc =
          { transfer state desc with chain := linked } := by
        cases direction : desc.direction with
        | write => rw [delivers.write _ _ direction, delivers.write _ _ direction]
        | read => rw [delivers.read _ _ direction, delivers.read _ _ direction]
      unfold pioTransferChain at ih ⊢
      rw [List.foldl_cons, List.foldl_cons, first]
      exact ih _

/-- A chain that writes leaves the memory. -/
theorem pioTransferChain_writes (delivers : transfer.Delivers device got) {chain : List Descriptor}
    (writes : ∀ desc ∈ chain, desc.direction = .write) (state : State) :
    pioTransferChain transfer chain state =
      { state with bus := state.bus ++ chain.map (Descriptor.transfer state.memory) } := by
  induction chain generalizing state with
  | nil => simp [pioTransferChain]
  | cons desc chain ih =>
      have first := delivers.write state desc (writes desc List.mem_cons_self)
      have rest := ih (fun other member => writes other (List.mem_cons_of_mem desc member))
        (transfer state desc)
      unfold pioTransferChain at rest ⊢
      rw [List.foldl_cons, rest, first]
      simp

/-- Without bounces nothing is copied. -/
theorem copyBounces_none {chain : List Descriptor}
    (none : ∀ desc ∈ chain, desc.bounceLength = 0) (memory : Nat → UInt8) :
    copyBounces chain memory = memory := by
  induction chain generalizing memory with
  | nil => rfl
  | cons desc chain ih =>
      unfold copyBounces
      rw [List.foldl_cons, none desc List.mem_cons_self]
      exact ih (fun other member => none other (List.mem_cons_of_mem desc member)) memory

/-- What is written apart from a copy can be written before it. -/
theorem copyBytes_overlay {source ptr length address count : Nat} {bytes : Nat → UInt8}
    (memory : Nat → UInt8)
    (fromApart : source + count ≤ address ∨ address + length ≤ source)
    (toApart : ptr + count ≤ address ∨ address + length ≤ ptr) :
    copyBytes (.buffer source) ptr (Mem.overlay memory address length bytes) count =
      Mem.overlay (copyBytes (.buffer source) ptr memory count) address length bytes := by
  induction count with
  | zero => rfl
  | succ count ih =>
      have earlier := ih (by omega) (by omega)
      funext place
      simp only [copyBytes, earlier, Data.byte, Mem.overlay, Function.update_apply]
      by_cases written : place = ptr + count
      · rw [if_pos written, if_neg (by omega), if_neg (by omega), if_pos written]
      · rw [if_neg written]
        by_cases inside : address ≤ place ∧ place < address + length
        · rw [if_pos inside, if_pos inside]
        · rw [if_neg inside, if_neg inside, if_neg written]

theorem copyBounces_overlay {chain : List Descriptor} {address length : Nat} {bytes : Nat → UInt8}
    (memory : Nat → UInt8)
    (apart : ∀ desc ∈ chain, desc.bounceLength = 0 ∨
      (desc.bounceSrc + desc.bounceLength ≤ address ∨ address + length ≤ desc.bounceSrc) ∧
        (desc.bounceDst + desc.bounceLength ≤ address ∨ address + length ≤ desc.bounceDst)) :
    copyBounces chain (Mem.overlay memory address length bytes) =
      Mem.overlay (copyBounces chain memory) address length bytes := by
  induction chain generalizing memory with
  | nil => rfl
  | cons desc chain ih =>
      have rest := fun memory => ih memory fun other member =>
        apart other (List.mem_cons_of_mem desc member)
      unfold copyBounces at rest ⊢
      rw [List.foldl_cons, List.foldl_cons]
      rcases apart desc List.mem_cons_self with none | ⟨fromApart, toApart⟩
      · rw [none]
        exact rest memory
      · rw [copyBytes_overlay memory fromApart toApart]
        exact rest _

/-! ## One chunk -/

/-- The descriptor of a chunk. -/
def chunkDescriptor (data chunkSize : Nat) (dataMode : Mode) (write : Bool) : Descriptor where
  dataAddress := data
  direction := .ofWrite write
  multiIoMode := some dataMode
  fragment := true
  length := chunkSize
  bounceSrc := 0
  bounceDst := 0
  bounceLength := 0

theorem pioTransfer_chunk_write (state : State) (data chunkSize : Nat) (dataMode : Mode) :
    pioTransfer device state (chunkDescriptor data chunkSize dataMode true) =
      { state with
        bus := state.bus ++
          [{ direction := .write
             multiIoMode := some dataMode
             fragment := true
             bytes := bytesAt state.memory data chunkSize }] } := rfl

theorem pioTransfer_chunk_read (state : State) (data chunkSize : Nat) (dataMode : Mode) :
    pioTransfer device state (chunkDescriptor data chunkSize dataMode false) =
      { state with
        memory := Mem.overlay state.memory data chunkSize fun i => device (state.received + i)
        received := state.received + chunkSize
        bus := state.bus ++
          [{ direction := .read
             multiIoMode := some dataMode
             fragment := true
             bytes := bytesAt device state.received chunkSize }] } := rfl

/-- What the copies of a chain touch is apart from some bytes; a chain of a write has none. -/
def BouncesApart (write : Bool) (address length : Nat) (chain : List Descriptor) : Prop :=
  ∀ desc ∈ chain, desc.bounceLength = 0 ∨ write = false ∧
    (desc.bounceSrc + desc.bounceLength ≤ address ∨ address + length ≤ desc.bounceSrc) ∧
      (desc.bounceDst + desc.bounceLength ≤ address ∨ address + length ≤ desc.bounceDst)

theorem queueChunk_eq (transfer : Controller) (transferBuffer data chunkSize : Nat)
    (dataMode : Mode) (write : Bool) (state : State) :
    queueChunk transferBuffer transfer data chunkSize dataMode write .pio state =
      if state.chain.length = maxDescriptors then
        { flushChain transferBuffer transfer .pio state with
          chain := [chunkDescriptor data chunkSize dataMode write] }
      else
        { state with chain := state.chain ++ [chunkDescriptor data chunkSize dataMode write] } := by
  unfold queueChunk allocDescriptor
  by_cases full : state.chain.length = maxDescriptors
  · rw [if_pos full, if_pos (Or.inr full)]
    rfl
  · rw [if_neg full, if_neg (by simp [full])]
    rfl

theorem BouncesApart.shorter {address length shorter : Nat} {chain : List Descriptor}
    (apart : BouncesApart write address length chain) (less : shorter ≤ length) :
    BouncesApart write address shorter chain := by
  intro desc member
  rcases apart desc member with none | ⟨read, source, place⟩
  · exact Or.inl none
  · exact Or.inr ⟨read, by omega, by omega⟩

/-- Flushing behind a chunk is flushing in front of it and then making its transfer. -/
theorem flushChain_queueChunk (delivers : transfer.Delivers device got) (transferBuffer : Nat)
    {data chunkSize : Nat} (dataMode : Mode)
    (apart : BouncesApart write data chunkSize state.chain) :
    flushChain transferBuffer transfer .pio
        (queueChunk transferBuffer transfer data chunkSize dataMode write .pio state) =
      transfer (flushChain transferBuffer transfer .pio state)
        (chunkDescriptor data chunkSize dataMode write) := by
  rw [queueChunk_eq]
  by_cases full : state.chain.length = maxDescriptors
  · rw [if_pos full, flushChain_pio, flushChain_pio transferBuffer state]
    dsimp only [pioTransferChain, List.foldl_cons, List.foldl_nil]
    cases write with
    | true =>
        rw [delivers.write _ _ rfl, delivers.write _ _ rfl]
        rfl
    | false =>
        rw [delivers.read _ _ rfl, delivers.read _ _ rfl]
        rfl
  · rw [if_neg full, flushChain_pio, flushChain_pio transferBuffer state]
    dsimp only
    rw [pioTransferChain_relink delivers]
    have transfers : pioTransferChain transfer
        (state.chain ++ [chunkDescriptor data chunkSize dataMode write]) state =
          transfer (pioTransferChain transfer state.chain state)
            (chunkDescriptor data chunkSize dataMode write) := by
      simp [pioTransferChain]
    have copies : ∀ memory, copyBounces
        (state.chain ++ [chunkDescriptor data chunkSize dataMode write]) memory =
          copyBounces state.chain memory := by
      intro memory
      unfold copyBounces
      rw [List.foldl_append]
      rfl
    rw [transfers, copies]
    cases write with
    | true =>
        have none : ∀ desc ∈ state.chain, desc.bounceLength = 0 := fun desc member =>
          (apart desc member).resolve_right (by simp)
        rw [copyBounces_none none, copyBounces_none none]
        rw [delivers.write _ _ rfl, delivers.write _ _ rfl]
    | false =>
        have shorter := apart.shorter (delivers.within
          (readCount (pioTransferChain transfer state.chain state).bus) chunkSize)
        rw [delivers.read _ _ rfl, delivers.read _ _ rfl]
        dsimp only [chunkDescriptor]
        rw [copyBounces_overlay _ fun desc member => (shorter desc member).imp_right And.right]

/-! ## The stream of the data -/

/-- The first bytes of the data: what the buffer of the caller holds for a write, what the
device gives for a read. -/
def payload (buffers : Buffers) (device before : Nat → UInt8) (write : Bool) (count : Nat) :
    List UInt8 :=
  if write then bytesAt before buffers.data count else bytesAt device 0 count

variable {head : List Beat} {mode : Mode} {pos : Nat}

/-- With a flush the beats `head` and the first `pos` bytes of the data are on the bus, and
the bytes of a read are in the buffer of the caller. -/
structure Streaming (buffers : Buffers) (device before : Nat → UInt8) (head : List Beat)
    (mode : Mode) (write : Bool) (pos : Nat) (state : State) : Prop where
  linked : state.chain ≠ []
  short : state.chain.length ≤ maxDescriptors
  queued : ∀ desc ∈ state.chain, desc.fragment = true
  made : ∀ transfer ∈ state.bus, transfer.fragment = true
  bounces : ∀ desc ∈ state.chain, desc.bounceLength = 0 ∨ write = false ∧
    (buffers.transferBuffer ≤ desc.bounceSrc ∧
      desc.bounceSrc + desc.bounceLength ≤ buffers.transferBuffer + bufferSize) ∧
      desc.bounceDst = buffers.data ∧ desc.bounceLength ≤ pos
  sent : beatsOf (flushChain buffers.transferBuffer device .pio state).bus =
    head ++ inMode (.ofWrite write) mode (payload buffers device before write pos)
  received : write = false →
    (flushChain buffers.transferBuffer device .pio state).received = pos
  kept : write = true → ∀ i < buffers.dataBytes,
    (flushChain buffers.transferBuffer device .pio state).memory (buffers.data + i) =
      before (buffers.data + i)
  delivered : write = false → ∀ i < pos,
    (flushChain buffers.transferBuffer device .pio state).memory (buffers.data + i) = device i

theorem pioTransfer_fragments {desc : Descriptor} (more : desc.fragment = true)
    (made : ∀ transfer ∈ state.bus, transfer.fragment = true) :
    ∀ transfer ∈ (pioTransfer device state desc).bus, transfer.fragment = true := by
  unfold pioTransfer
  intro transfer member
  split at member <;>
    · rcases List.mem_append.mp member with earlier | last
      · exact made transfer earlier
      · rw [List.mem_singleton.mp last]
        exact more

theorem pioTransferChain_fragments {chain : List Descriptor}
    (queued : ∀ desc ∈ chain, desc.fragment = true)
    (made : ∀ transfer ∈ state.bus, transfer.fragment = true) :
    ∀ transfer ∈ (pioTransferChain device chain state).bus, transfer.fragment = true := by
  induction chain generalizing state with
  | nil => exact made
  | cons desc chain ih =>
      exact ih (fun other member => queued other (List.mem_cons_of_mem desc member))
        (pioTransfer_fragments (queued desc List.mem_cons_self) made)

/-- The next chunk of the data. -/
theorem Streaming.queueChunk (streaming : Streaming buffers device before head mode write pos state)
    {chunkSize : Nat} (inside : pos + chunkSize ≤ buffers.dataBytes) :
    Streaming buffers device before head mode write (pos + chunkSize)
      (queueChunk buffers.transferBuffer device (buffers.data + pos) chunkSize mode write .pio
        state) := by
  have apart : BouncesApart write (buffers.data + pos) chunkSize state.chain := by
    intro desc member
    have places := buffers.apart
    rcases streaming.bounces desc member with none | ⟨read, source, place, below⟩
    · exact Or.inl none
    · exact Or.inr ⟨read, by omega, Or.inl (by omega)⟩
  have flushed := flushChain_queueChunk (pioTransfer_delivers device) buffers.transferBuffer mode
    apart
  have shape := queueChunk_eq device buffers.transferBuffer (buffers.data + pos)
    chunkSize mode write state
  have queued := streaming.queued
  have sent := streaming.sent
  have received := streaming.received
  have kept := streaming.kept
  have delivered := streaming.delivered
  refine
    { linked := ?_
      short := ?_
      queued := ?_
      made := ?_
      bounces := ?_
      sent := ?_
      received := ?_
      kept := ?_
      delivered := ?_ }
  · rw [shape]
    split <;> simp
  · rw [shape]
    have short := streaming.short
    split
    · simp [maxDescriptors]
    · simp only [List.length_append, List.length_singleton]
      omega
  · rw [shape]
    intro desc member
    split at member
    · rw [List.mem_singleton.mp member]
      rfl
    · rcases List.mem_append.mp member with earlier | last
      · exact queued desc earlier
      · rw [List.mem_singleton.mp last]
        rfl
  · rw [shape]
    split
    · exact pioTransferChain_fragments queued streaming.made
    · exact streaming.made
  · rw [shape]
    intro desc member
    split at member
    · rw [List.mem_singleton.mp member]
      exact Or.inl rfl
    · rcases List.mem_append.mp member with earlier | last
      · refine (streaming.bounces desc earlier).imp_right ?_
        rintro ⟨read, source, place, below⟩
        exact ⟨read, source, place, Nat.le_trans below (Nat.le_add_right _ _)⟩
      · rw [List.mem_singleton.mp last]
        exact Or.inl rfl
  · rw [flushed]
    cases write with
    | true =>
        have same : bytesAt (flushChain buffers.transferBuffer device .pio state).memory
            (buffers.data + pos) chunkSize = bytesAt before (buffers.data + pos) chunkSize := by
          refine List.map_congr_left fun i below => ?_
          have less := List.mem_range.mp below
          rw [Nat.add_assoc]
          exact kept rfl (pos + i) (by omega)
        rw [pioTransfer_chunk_write, beatsOf_append, sent, same]
        simp [payload, bytesAt_add, inMode, beatsOf, Transfer.beats, Direction.ofWrite]
    | false =>
        rw [pioTransfer_chunk_read, beatsOf_append, sent, received rfl]
        simp [payload, bytesAt_add, inMode, beatsOf, Transfer.beats, Direction.ofWrite]
  · intro read
    rw [flushed, read, pioTransfer_chunk_read, received read]
  · intro writes i below
    rw [flushed, writes, pioTransfer_chunk_write]
    exact kept writes i below
  · intro read i below
    rw [flushed, read, pioTransfer_chunk_read]
    dsimp only [Mem.overlay]
    by_cases new : pos ≤ i
    · rw [if_pos (by omega), received read]
      congr 1
      omega
    · rw [if_neg (by omega)]
      exact delivered read i (by omega)

/-- The chunks of the rest of the data. -/
theorem queueDataDirect_streams (rest : Nat)
    (streaming : Streaming buffers device before head mode write pos state)
    (inside : pos + rest ≤ buffers.dataBytes) :
    Streaming buffers device before head mode write (pos + rest)
      (queueDataDirect buffers.transferBuffer device (buffers.data + pos) rest mode write .pio
        state) := by
  induction rest using Nat.strongRecOn generalizing pos state with
  | ind rest ih =>
      unfold queueDataDirect
      by_cases done : rest = 0
      · rw [dif_pos done, done]
        exact streaming
      · have positive := chunkSize_pos done
        have fewer := chunkSize_le rest
        have next := ih (rest - chunkSize rest) (by omega)
          (streaming.queueChunk (show pos + chunkSize rest ≤ buffers.dataBytes by omega))
          (by omega)
        rw [dif_neg done, Nat.add_assoc buffers.data]
        rwa [show pos + chunkSize rest + (rest - chunkSize rest) = pos + rest by omega] at next

/-! ## From the phases to the data -/

/-- Flushing a chain over the transfer buffer that only writes. -/
theorem Staged.flush (staged : Staged buffers before count used beats state)
    (delivers : transfer.Delivers device got) :
    flushChain buffers.transferBuffer transfer .pio state =
      { state with
        bus := state.chain.map (Descriptor.transfer state.memory)
        freePtr := buffers.transferBuffer
        chain := [] } := by
  rw [flushChain_pio, pioTransferChain_writes delivers fun desc member =>
      (staged.written desc member).1,
    copyBounces_none fun desc member => (staged.written desc member).2.2, staged.bus]
  rfl

/-- Data in the chain that only writes: nothing yet, or bytes to write. -/
theorem Staged.streaming
    (staged : Staged buffers before count used
      (head ++ inMode (.ofWrite write) mode (payload buffers device before write pos)) state)
    (linked : state.chain ≠ []) (few : count ≤ maxDescriptors) (only : write = false → pos = 0) :
    Streaming buffers device before head mode write pos state where
  linked := linked
  short := Nat.le_trans staged.short few
  queued := fun desc member => (staged.written desc member).2.1
  made := by
    rw [staged.bus]
    nofun
  bounces := fun desc member => Or.inl (staged.written desc member).2.2
  sent := by
    rw [staged.flush (pioTransfer_delivers device)]
    exact staged.sent
  received := by
    intro read
    rw [staged.flush (pioTransfer_delivers device), only read]
    exact staged.received
  kept := by
    intro _ i below
    rw [staged.flush (pioTransfer_delivers device)]
    have places := buffers.apart
    exact staged.outside _ (by omega)
  delivered := by
    intro read i below
    rw [only read] at below
    exact absurd below (Nat.not_lt_zero i)

theorem overlay_congr {memory : Nat → UInt8} {address length : Nat} {bytes bytes' : Nat → UInt8}
    (same : ∀ i < length, bytes i = bytes' i) :
    Mem.overlay memory address length bytes = Mem.overlay memory address length bytes' := by
  funext place
  unfold Mem.overlay
  by_cases inside : address ≤ place ∧ place < address + length
  · rw [if_pos inside, if_pos inside]
    exact same _ (by omega)
  · rw [if_neg inside, if_neg inside]

/-- The descriptor of bytes that are read through the transfer buffer. -/
def bounceDescriptor (address data prologBytes : Nat) (mode : Mode) : Descriptor where
  dataAddress := address
  direction := .read
  multiIoMode := some mode
  fragment := true
  length := prologBytes
  bounceSrc := address
  bounceDst := data
  bounceLength := prologBytes

/-- A read through the transfer buffer takes a descriptor of its own. -/
theorem setDescriptor_read (staged : Staged buffers before count used head state)
    {prologBytes : Nat} (some : prologBytes ≠ 0) (nonNull : buffers.data ≠ 0)
    (few : count < maxDescriptors) (fits : used + 3 + prologBytes ≤ bufferSize) :
    setDescriptor buffers.transferBuffer transfer (.buffer buffers.data) prologBytes mode .read
        .pio state =
      { state with
        chain := state.chain ++
          [bounceDescriptor (alignUp 4 state.freePtr) buffers.data prologBytes mode]
        freePtr := alignUp 4 state.freePtr + prologBytes } := by
  unfold setDescriptor
  rw [if_neg (by simp [some, nonNull, Data.isNull])]
  cases found : mergeable buffers.transferBuffer prologBytes mode .read state with
  | none =>
      dsimp only
      rw [staged.alloc some few fits]
      simp only [putData, Data.address, bounceDescriptor, Nat.add_zero, Nat.zero_add]
  | some desc =>
      obtain ⟨-, last, reads, -⟩ := mergeable_some found
      have writes := (staged.written desc (List.mem_of_getLast? last)).1
      rw [writes] at reads
      cases reads

/-- The transfers of a chain that writes are no reads. -/
theorem Staged.readCount (staged : Staged buffers before count used beats state) :
    readCount (state.chain.map (Descriptor.transfer state.memory)) = 0 := by
  unfold QHal.Qspi.readCount
  apply List.countP_eq_zero.mpr
  intro made member
  obtain ⟨desc, linked, rfl⟩ := List.mem_map.mp member
  unfold Descriptor.transfer
  simp [(staged.written desc linked).1]

/-- A flush of a chain that writes with one read through the transfer buffer behind it. -/
theorem flushChain_bounce (delivers : transfer.Delivers device got) (mode : Mode) (freePtr : Nat)
    (staged : Staged buffers before count used head state) {address prologBytes : Nat}
    (small : prologBytes ≤ buffers.dataBytes) (above : buffers.transferBuffer ≤ address)
    (inside : address + prologBytes ≤ buffers.transferBuffer + bufferSize) :
    flushChain buffers.transferBuffer transfer .pio
        { state with
          chain := state.chain ++ [bounceDescriptor address buffers.data prologBytes mode]
          freePtr := freePtr } =
      { memory :=
          Mem.overlay (Mem.overlay state.memory address (got 0 prologBytes) device) buffers.data
            prologBytes fun i =>
              if i < got 0 prologBytes then device i else state.memory (address + i)
        chain := []
        freePtr := buffers.transferBuffer
        received := got 0 prologBytes
        bus := state.chain.map (Descriptor.transfer state.memory) ++
          [{ direction := .read
             multiIoMode := some mode
             fragment := true
             bytes := bytesAt device 0 (got 0 prologBytes) }] } := by
  have places := buffers.apart
  have writes : ∀ desc ∈ state.chain, desc.direction = .write :=
    fun desc member => (staged.written desc member).1
  have reads := staged.readCount
  have transfers : ∀ state' : State, state'.memory = state.memory → state'.bus = [] →
      state'.received = 0 →
      pioTransferChain transfer
          (state.chain ++ [bounceDescriptor address buffers.data prologBytes mode]) state' =
        { state' with
          memory := Mem.overlay state.memory address (got 0 prologBytes) device
          received := got 0 prologBytes
          bus := state.chain.map (Descriptor.transfer state.memory) ++
            [{ direction := .read
               multiIoMode := some mode
               fragment := true
               bytes := bytesAt device 0 (got 0 prologBytes) }] } := by
    intro state' memory bus received
    have front := pioTransferChain_writes delivers writes state'
    unfold pioTransferChain at front ⊢
    rw [List.foldl_append, front, List.foldl_cons, List.foldl_nil, delivers.read _ _ rfl]
    dsimp only [bounceDescriptor]
    rw [bus, memory, received, List.nil_append, reads]
    simp only [Nat.zero_add]
  have copies : ∀ memory, copyBounces
      (state.chain ++ [bounceDescriptor address buffers.data prologBytes mode]) memory =
        copyBytes (.buffer address) buffers.data memory prologBytes := by
    intro memory
    have front := copyBounces_none (fun desc member => (staged.written desc member).2.2) memory
    unfold copyBounces at front ⊢
    rw [List.foldl_append, front]
    rfl
  rw [flushChain_pio]
  dsimp only
  rw [transfers]
  · rw [copies, copyBytes_eq fun source same => by
      injection same with same
      omega]
    congr 1
    refine overlay_congr fun i below => ?_
    simp only [Data.byte, Mem.overlay]
    have within := delivers.within 0 prologBytes
    by_cases here : i < got 0 prologBytes
    · rw [if_pos (by omega), if_pos here, Nat.add_sub_cancel_left]
    · rw [if_neg (by omega), if_neg here]
  · rfl
  · exact staged.bus
  · exact staged.received

/-- The first bytes of a read. -/
theorem readProlog_streams (staged : Staged buffers before count used head state)
    {prologBytes : Nat} (some : prologBytes ≠ 0) (small : prologBytes ≤ buffers.dataBytes)
    (nonNull : buffers.data ≠ 0) (few : count < maxDescriptors)
    (fits : used + 3 + prologBytes ≤ bufferSize) :
    Streaming buffers device before head mode false prologBytes
      (setDescriptor buffers.transferBuffer device (.buffer buffers.data) prologBytes mode .read
        .pio state) := by
  have free := staged.free
  have space := buffers.inSpace
  have size : bufferSize = 128 := rfl
  have near := alignUp_near (show state.freePtr + 4 ≤ 2 ^ 32 by omega)
  have flushed := fun freePtr => flushChain_bounce (pioTransfer_delivers device) mode freePtr staged
    small (show buffers.transferBuffer ≤ alignUp 4 state.freePtr by omega) (by omega)
  rw [setDescriptor_read staged some nonNull few fits]
  refine
    { linked := by simp
      short := ?_
      queued := ?_
      made := ?_
      bounces := ?_
      sent := ?_
      received := ?_
      kept := nofun
      delivered := ?_ }
  · have short := staged.short
    simp only [List.length_append, List.length_singleton]
    omega
  · intro desc member
    rcases List.mem_append.mp member with earlier | last
    · exact (staged.written desc earlier).2.1
    · rw [List.mem_singleton.mp last]
      rfl
  · rw [staged.bus]
    nofun
  · intro desc member
    rcases List.mem_append.mp member with earlier | last
    · exact Or.inl (staged.written desc earlier).2.2
    · rw [List.mem_singleton.mp last]
      exact Or.inr ⟨rfl, ⟨by dsimp only [bounceDescriptor]; omega,
        by dsimp only [bounceDescriptor]; omega⟩, rfl, Nat.le_refl _⟩
  · rw [flushed, beatsOf_append, ← staged.sent]
    simp [chainBeats, payload, inMode, beatsOf, Transfer.beats, Direction.ofWrite]
  · intro _
    rw [flushed]
  · intro _ i below
    rw [flushed]
    dsimp only [Mem.overlay]
    rw [if_pos (by omega), Nat.add_sub_cancel_left, if_pos below]

/-- `prolog_bytes` in PIO mode, the bytes in front of an aligned address. -/
def prologOf (data dataBytes : Nat) : Nat := min (distance (alignUp 4 data) data) dataBytes

theorem prologOf_le (data dataBytes : Nat) : prologOf data dataBytes ≤ dataBytes :=
  Nat.min_le_right _ _

theorem prolog_spec {data dataBytes : Nat} (inSpace : data + dataBytes ≤ 2 ^ 32)
    (_ : dataBytes ≠ 0) :
    prologOf data dataBytes ≤ 3 ∧ (prologOf data dataBytes ≠ 0 → data ≠ 0) ∧
      (prologOf data dataBytes ≠ dataBytes →
        alignUp 4 data = data + prologOf data dataBytes) := by
  unfold prologOf distance alignUp
  by_cases wraps : data + 4 - 1 < 2 ^ 32
  · rw [Nat.mod_eq_of_lt wraps, if_pos (by omega)]
    omega
  · rw [show (data + 4 - 1) % 2 ^ 32 / 4 * 4 = 0 by omega, if_neg (by omega)]
    omega

/-- The prolog of the data. -/
def queueProlog (transferBuffer : Nat) (transfer : Controller) (data prologBytes : Nat)
    (dataMode : Mode) (write : Bool) (state : State) : State :=
  if prologBytes = 0 then state
  else
    setDescriptor transferBuffer transfer (.buffer data) prologBytes dataMode (.ofWrite write) .pio
      state

/-- In PIO mode there is no epilog. -/
theorem queueData_pio (transferBuffer data : Nat) {dataBytes prologBytes : Nat} (dataMode : Mode)
    (write : Bool) (state : State) (some : dataBytes ≠ 0)
    (prolog : prologOf data dataBytes = prologBytes) :
    queueData transferBuffer transfer data dataBytes dataMode write .pio state =
      if dataBytes - prologBytes = 0 then
        queueProlog transferBuffer transfer data prologBytes dataMode write state
      else
        queueDataDirect transferBuffer transfer (alignUp 4 data) (dataBytes - prologBytes) dataMode
          write .pio (queueProlog transferBuffer transfer data prologBytes dataMode write
            state) := by
  subst prolog
  unfold queueData queueProlog prologOf
  rw [if_neg some]
  have noEpilog : ∀ bytes, (if TransferMode.pio ≠ .pio ∧ write = false then bytes else 0) = 0 :=
    fun bytes => if_neg (by simp)
  simp only [noEpilog, alignmentOf, Nat.sub_zero, Nat.add_zero, ite_self, if_true]

/-- The data phase behind the other phases. -/
theorem queueData_streams (staged : Staged buffers before count used head state)
    (linked : state.chain ≠ []) (few : count < maxDescriptors) (fits : used + 6 ≤ bufferSize) :
    Streaming buffers device before head mode write buffers.dataBytes
      (queueData buffers.transferBuffer device buffers.data buffers.dataBytes mode write .pio
        state) := by
  have idle : Streaming buffers device before head mode write 0 state := by
    have nothing : head ++ inMode (.ofWrite write) mode (payload buffers device before write 0) =
        head := by
      cases write <;> simp [payload, bytesAt, inMode]
    rw [← nothing] at staged
    exact staged.streaming linked (Nat.le_of_lt few) fun _ => rfl
  by_cases none : buffers.dataBytes = 0
  · unfold queueData
    rw [if_pos none, none]
    exact idle
  obtain ⟨small, nonNull, aligned⟩ := prolog_spec buffers.dataInSpace none
  rw [queueData_pio buffers.transferBuffer buffers.data mode write state none rfl]
  have inside := prologOf_le buffers.data buffers.dataBytes
  generalize prologOf buffers.data buffers.dataBytes = prologBytes at small nonNull aligned inside ⊢
  have begun : Streaming buffers device before head mode write prologBytes
      (queueProlog buffers.transferBuffer device buffers.data prologBytes mode write state) := by
    unfold queueProlog
    by_cases skip : prologBytes = 0
    · rw [if_pos skip, skip]
      exact idle
    rw [if_neg skip]
    cases write with
    | false =>
        exact readProlog_streams staged skip inside (nonNull skip) few (by omega)
    | true =>
        have places := buffers.apart
        have apart : Data.Apart buffers (.buffer buffers.data) prologBytes := by
          intro address same
          injection same with same
          omega
        have isBuffer : (Data.buffer buffers.data).isNull = false := by
          simp [Data.isNull, nonNull skip]
        have written := staged.setDescriptor device (.buffer buffers.data) mode skip isBuffer few
          (by omega) apart
        have bytes : (List.range prologBytes).map ((Data.buffer buffers.data).byte state.memory) =
            payload buffers device before true prologBytes := by
          refine List.map_congr_left fun i below => ?_
          have less := List.mem_range.mp below
          exact staged.outside _ (by omega)
        rw [bytes] at written
        obtain ⟨front, desc, split, -⟩ := setDescriptor_last buffers.transferBuffer device skip
          isBuffer mode .write .pio state
        exact written.streaming (by rw [Direction.ofWrite, if_pos rfl, split]; simp) few
          fun wrong => absurd wrong.symm Bool.false_ne_true
  by_cases whole : buffers.dataBytes - prologBytes = 0
  · rw [if_pos whole]
    rwa [show buffers.dataBytes = prologBytes by omega]
  · rw [if_neg whole, aligned (by omega)]
    have streams := queueDataDirect_streams (buffers.dataBytes - prologBytes) begun (by omega)
    rwa [Nat.add_sub_cancel' inside] at streams

end QHal.Qspi
