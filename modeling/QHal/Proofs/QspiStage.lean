/-
Module: QHal.Proofs.QspiStage
Purpose: The phases of a QSPI command in front of the data: they stay in one chain of
  descriptors over the transfer buffer.
Trusted boundary: none
Main exports: Beat, Buffers, Staged, Staged.setDescriptor, Staged.queueDummy
-/
import Mathlib.Data.List.Basic
import QHal.Qspi.FermQspi

namespace QHal.Qspi

/-! ## Bytes in the memory -/

/-- The byte behind replaced bytes is replaced as well. -/
theorem update_overlay (memory : Nat → UInt8) (ptr count : Nat) (bytes : Nat → UInt8) :
    Function.update (Mem.overlay memory ptr count bytes) (ptr + count) (bytes count) =
      Mem.overlay memory ptr (count + 1) bytes := by
  funext address
  rw [Function.update_apply]
  unfold Mem.overlay
  by_cases last : address = ptr + count
  · rw [if_pos last, if_pos (by omega), last, Nat.add_sub_cancel_left]
  · rw [if_neg last]
    exact if_congr (by omega) rfl rfl

/-- The loop that copies reads nothing that it has written, if the two places are apart. -/
theorem copyBytes_eq {data : Data} {ptr : Nat} {memory : Nat → UInt8} {count : Nat}
    (apart : ∀ address, data = .buffer address → address + count ≤ ptr ∨ ptr + count ≤ address) :
    copyBytes data ptr memory count = Mem.overlay memory ptr count (data.byte memory) := by
  induction count with
  | zero =>
      funext address
      simp [copyBytes]
  | succ count ih =>
      have before := ih fun address same => (apart address same).imp (by omega) (by omega)
      have source : data.byte (copyBytes data ptr memory count) count = data.byte memory count := by
        cases data with
        | array bytes => rfl
        | buffer address =>
            have places := apart address rfl
            simp only [before, Data.byte, Mem.overlay]
            rw [if_neg (by omega)]
      simp only [copyBytes, source]
      rw [before, update_overlay]

theorem bytesAt_overlay_apart {memory : Nat → UInt8} {address count ptr length : Nat}
    {bytes : Nat → UInt8} (apart : address + count ≤ ptr ∨ ptr + length ≤ address) :
    bytesAt (Mem.overlay memory ptr length bytes) address count = bytesAt memory address count := by
  refine List.map_congr_left fun i below => ?_
  have inside := List.mem_range.mp below
  exact if_neg (by omega)

theorem bytesAt_overlay {memory : Nat → UInt8} {ptr length : Nat} {bytes : Nat → UInt8} :
    bytesAt (Mem.overlay memory ptr length bytes) ptr length = (List.range length).map bytes := by
  refine List.map_congr_left fun i below => ?_
  have inside := List.mem_range.mp below
  unfold Mem.overlay
  rw [if_pos (by omega), Nat.add_sub_cancel_left]

theorem bytesAt_add (memory : Nat → UInt8) (address first second : Nat) :
    bytesAt memory address (first + second) =
      bytesAt memory address first ++ bytesAt memory (address + first) second := by
  simp [bytesAt, List.range_add, Nat.add_assoc]

@[simp] theorem length_bytesAt (memory : Nat → UInt8) (address count : Nat) :
    (bytesAt memory address count).length = count := by
  simp [bytesAt]

/-! ## Bytes on the bus -/

/-- A byte on the bus, with the direction and the mode in which it goes. -/
structure Beat where
  direction : Direction
  mode : Option Mode
  byte : UInt8
deriving Repr, DecidableEq

/-- The beats of a transfer. -/
def Transfer.beats (transfer : Transfer) : List Beat :=
  transfer.bytes.map fun byte =>
    { direction := transfer.direction
      mode := transfer.multiIoMode
      byte := byte }

/-- The beats of some transfers, one after the other. -/
def beatsOf (bus : List Transfer) : List Beat := bus.flatMap Transfer.beats

/-- Bytes in one direction and one mode. -/
def inMode (direction : Direction) (mode : Mode) (bytes : List UInt8) : List Beat :=
  bytes.map fun byte =>
    { direction := direction
      mode := some mode
      byte := byte }

/-- The transfer of a descriptor that writes. -/
def Descriptor.transfer (memory : Nat → UInt8) (desc : Descriptor) : Transfer where
  direction := desc.direction
  multiIoMode := desc.multiIoMode
  fragment := desc.fragment
  bytes := bytesAt memory desc.dataAddress desc.length

/-- The beats of a chain that writes. -/
def chainBeats (memory : Nat → UInt8) (chain : List Descriptor) : List Beat :=
  beatsOf (chain.map (Descriptor.transfer memory))

theorem chainBeats_append (memory : Nat → UInt8) (front back : List Descriptor) :
    chainBeats memory (front ++ back) = chainBeats memory front ++ chainBeats memory back := by
  simp [chainBeats, beatsOf]

/-- What is written above a chain does not reach it. -/
theorem chainBeats_overlay {memory : Nat → UInt8} {chain : List Descriptor} {ptr length : Nat}
    {bytes : Nat → UInt8} (below : ∀ desc ∈ chain, desc.dataAddress + desc.length ≤ ptr) :
    chainBeats (Mem.overlay memory ptr length bytes) chain = chainBeats memory chain := by
  unfold chainBeats beatsOf
  congr 1
  refine List.map_congr_left fun desc member => ?_
  unfold Descriptor.transfer
  rw [bytesAt_overlay_apart (Or.inl (below desc member))]

/-! ## The chain over the transfer buffer -/

/-- The transfer buffer and the buffer of the caller, two objects in the address space. -/
structure Buffers where
  transferBuffer : Nat
  data : Nat
  dataBytes : Nat
  aligned : transferBuffer % 32 = 0
  nonNull : 0 < transferBuffer
  inSpace : transferBuffer + bufferSize ≤ 2 ^ 32
  dataInSpace : data + dataBytes ≤ 2 ^ 32
  apart : data + dataBytes ≤ transferBuffer ∨ transferBuffer + bufferSize ≤ data

variable {buffers : Buffers} {transfer : Controller} {state : State} {before : Nat → UInt8}
  {count used : Nat} {beats : List Beat}

/-- Nothing is flushed yet: a chain of at most `count` descriptors that write, in the first
`used` bytes of the transfer buffer, with these beats. -/
structure Staged (buffers : Buffers) (before : Nat → UInt8) (count used : Nat)
    (beats : List Beat) (state : State) : Prop where
  bus : state.bus = []
  received : state.received = 0
  short : state.chain.length ≤ count
  written : ∀ desc ∈ state.chain,
    desc.direction = .write ∧ desc.fragment = true ∧ desc.bounceLength = 0
  inside : ∀ desc ∈ state.chain, buffers.transferBuffer ≤ desc.dataAddress ∧
    desc.dataAddress + desc.length ≤ state.freePtr
  last : ∀ desc, state.chain.getLast? = some desc →
    desc.dataAddress + desc.length = state.freePtr
  free : buffers.transferBuffer ≤ state.freePtr ∧ state.freePtr ≤ buffers.transferBuffer + used
  sent : chainBeats state.memory state.chain = beats
  outside : ∀ address, address < buffers.transferBuffer ∨
    buffers.transferBuffer + bufferSize ≤ address → state.memory address = before address

theorem Staged.mono {count' used' : Nat} (staged : Staged buffers before count used beats state)
    (more : count ≤ count') (room : used ≤ used') :
    Staged buffers before count' used' beats state :=
  { staged with
    short := Nat.le_trans staged.short more
    free := ⟨staged.free.1, Nat.le_trans staged.free.2 (Nat.add_le_add_left room _)⟩ }

/-- Bytes are added to the last descriptor. -/
theorem Staged.extend (staged : Staged buffers before count used beats state)
    {front : List Descriptor} {desc : Descriptor} (split : state.chain = front ++ [desc])
    (length : Nat) (bytes : Nat → UInt8) (fits : used + length ≤ bufferSize) :
    Staged buffers before count (used + length)
      (beats ++ (List.range length).map fun i =>
        { direction := .write
          mode := desc.multiIoMode
          byte := bytes i })
      { state with
        memory := Mem.overlay state.memory state.freePtr length bytes
        chain := front ++ [{ desc with length := desc.length + length }]
        freePtr := state.freePtr + length } := by
  have member : desc ∈ state.chain := by simp [split]
  have ends := staged.last desc (by simp [split])
  have inFront : ∀ other ∈ front, other ∈ state.chain := by
    intro other inside
    simp [split, inside]
  refine
    { bus := staged.bus
      received := staged.received
      short := ?_
      written := ?_
      inside := ?_
      last := ?_
      free := ⟨Nat.le_trans staged.free.1 (Nat.le_add_right _ _), ?_⟩
      sent := ?_
      outside := ?_ }
  · have short := staged.short
    simpa [split] using short
  · intro other inside
    rcases List.mem_append.mp inside with earlier | own
    · exact staged.written other (inFront other earlier)
    · rw [List.mem_singleton.mp own]
      exact staged.written desc member
  · intro other inside
    rcases List.mem_append.mp inside with earlier | own
    · exact (staged.inside other (inFront other earlier)).imp_right fun bound =>
        Nat.le_trans bound (Nat.le_add_right _ _)
    · rw [List.mem_singleton.mp own]
      exact ⟨(staged.inside desc member).1, by dsimp only; omega⟩
  · intro other final
    simp only [List.getLast?_append, List.getLast?_singleton, Option.some_or,
      Option.some.injEq] at final
    rw [← final]
    dsimp only
    omega
  · have free := staged.free.2
    dsimp only
    omega
  · have sent := staged.sent
    rw [split, chainBeats_append] at sent
    rw [chainBeats_append, chainBeats_overlay fun other earlier =>
      (staged.inside other (inFront other earlier)).2, ← sent, List.append_assoc]
    congr 1
    simp only [chainBeats, beatsOf, Descriptor.transfer, Transfer.beats, List.map_cons,
      List.map_nil, List.flatMap_cons, List.flatMap_nil, List.append_nil, bytesAt_add, ends,
      List.map_append]
    rw [bytesAt_overlay_apart (Or.inl (Nat.le_of_eq ends)), bytesAt_overlay, List.map_map,
      (staged.written desc member).1]
    rfl
  · intro address apart
    rw [← staged.outside address apart]
    have free := staged.free
    exact if_neg (by omega)

/-- Bytes go to a new descriptor behind the free pointer. -/
theorem Staged.push (staged : Staged buffers before count used beats state) {address : Nat}
    (above : state.freePtr ≤ address) (near : address ≤ state.freePtr + 3) (mode : Option Mode)
    (length : Nat) (bytes : Nat → UInt8) (fits : used + 3 + length ≤ bufferSize) :
    Staged buffers before (count + 1) (used + 3 + length)
      (beats ++ (List.range length).map fun i =>
        { direction := .write
          mode := mode
          byte := bytes i })
      { state with
        memory := Mem.overlay state.memory address length bytes
        chain := state.chain ++
          [{ dataAddress := address
             direction := .write
             multiIoMode := mode
             fragment := true
             length := length
             bounceSrc := 0
             bounceDst := 0
             bounceLength := 0 }]
        freePtr := address + length } := by
  have free := staged.free
  refine
    { bus := staged.bus
      received := staged.received
      short := ?_
      written := ?_
      inside := ?_
      last := ?_
      free := ⟨by dsimp only; omega, by dsimp only; omega⟩
      sent := ?_
      outside := ?_ }
  · have short := staged.short
    simpa using short
  · intro other inside
    rcases List.mem_append.mp inside with earlier | own
    · exact staged.written other earlier
    · rw [List.mem_singleton.mp own]
      exact ⟨rfl, rfl, rfl⟩
  · intro other inside
    rcases List.mem_append.mp inside with earlier | own
    · have bounds := staged.inside other earlier
      exact ⟨bounds.1, by dsimp only; omega⟩
    · rw [List.mem_singleton.mp own]
      exact ⟨by dsimp only; omega, Nat.le_refl _⟩
  · intro other final
    simp only [List.getLast?_append, List.getLast?_singleton, Option.some_or,
      Option.some.injEq] at final
    rw [← final]
  · rw [chainBeats_append, chainBeats_overlay fun other earlier =>
      Nat.le_trans (staged.inside other earlier).2 above, staged.sent]
    congr 1
    simp only [chainBeats, beatsOf, Descriptor.transfer, Transfer.beats, List.map_cons,
      List.map_nil, List.flatMap_cons, List.flatMap_nil, List.append_nil]
    rw [bytesAt_overlay, List.map_map]
    rfl
  · intro other apart
    rw [← staged.outside other apart]
    exact if_neg (by omega)

/-! ## Descriptors -/

theorem distance_eq {above below : Nat} (ordered : below ≤ above) :
    distance above below = above - below :=
  if_pos ordered

theorem alignUp_near {address : Nat} (small : address + 4 ≤ 2 ^ 32) :
    address ≤ alignUp 4 address ∧ alignUp 4 address ≤ address + 3 := by
  unfold alignUp
  rw [Nat.mod_eq_of_lt (by omega)]
  omega

/-- There is room in the chain and in the transfer buffer: nothing is flushed. -/
theorem Staged.alloc (staged : Staged buffers before count used beats state) {bytesNeeded : Nat}
    (some : bytesNeeded ≠ 0) (few : count < maxDescriptors)
    (fits : used + 3 + bytesNeeded ≤ bufferSize) :
    allocDescriptor buffers.transferBuffer transfer bytesNeeded .pio state =
      (state,
        { dataAddress := alignUp 4 state.freePtr
          direction := .read
          multiIoMode := none
          fragment := true
          length := 0
          bounceSrc := 0
          bounceDst := 0
          bounceLength := 0 }) := by
  have free := staged.free
  have space := buffers.inSpace
  have size : bufferSize = 128 := rfl
  have near := alignUp_near (show state.freePtr + 4 ≤ 2 ^ 32 by omega)
  have room : distance (buffers.transferBuffer + bufferSize) (alignUp 4 state.freePtr) =
      buffers.transferBuffer + bufferSize - alignUp 4 state.freePtr :=
    distance_eq (by omega)
  unfold allocDescriptor
  simp only [if_neg some]
  refine if_neg ?_
  rintro (full | all)
  · simp only [alignmentOf, room] at full
    omega
  · have short := staged.short
    omega

/-- The bytes that `drv_qspi_set_descriptor` reads are not in the transfer buffer. -/
def Data.Apart (buffers : Buffers) (data : Data) (count : Nat) : Prop :=
  ∀ address, data = .buffer address → address + count ≤ buffers.transferBuffer ∨
    buffers.transferBuffer + bufferSize ≤ address

/-- Copying into the transfer buffer. -/
theorem Data.Apart.copy {data : Data} {ptr length : Nat} (apart : data.Apart buffers length)
    (above : buffers.transferBuffer ≤ ptr)
    (inside : ptr + length ≤ buffers.transferBuffer + bufferSize) (memory : Nat → UInt8) :
    copyBytes data ptr memory length = Mem.overlay memory ptr length (data.byte memory) := by
  refine copyBytes_eq fun address same => ?_
  have places := apart address same
  omega

/-- The last descriptor takes more bytes only if it is one for the same transfer. -/
theorem mergeable_some {dataBytes : Nat} {mode : Mode} {direction : Direction} {desc : Descriptor}
    {transferBuffer : Nat}
    (found : mergeable transferBuffer dataBytes mode direction state = some desc) :
    state.chain = state.chain.dropLast ++ [desc] ∧ state.chain.getLast? = some desc ∧
      desc.direction = direction ∧ desc.multiIoMode = some mode := by
  unfold mergeable at found
  obtain ⟨last, same⟩ := Option.filter_eq_some_iff.mp found
  simp only [Bool.and_eq_true, decide_eq_true_eq] at same
  exact ⟨(List.dropLast_append_getLast? desc last).symm, last, same.1⟩

/-- Bytes of a phase that are written. -/
theorem Staged.setDescriptor (staged : Staged buffers before count used beats state)
    (transfer : Controller) (data : Data) {dataBytes : Nat} (mode : Mode) (some : dataBytes ≠ 0)
    (nonNull : data.isNull = false) (few : count < maxDescriptors)
    (fits : used + 3 + dataBytes ≤ bufferSize)
    (apart : data.Apart buffers dataBytes) :
    Staged buffers before (count + 1) (used + 3 + dataBytes)
      (beats ++ inMode .write mode ((List.range dataBytes).map (data.byte state.memory)))
      (setDescriptor buffers.transferBuffer transfer data dataBytes mode .write .pio state) := by
  have free := staged.free
  have space := buffers.inSpace
  unfold QHal.Qspi.setDescriptor
  rw [if_neg (by simp [some, nonNull])]
  unfold inMode
  rw [List.map_map]
  cases found : mergeable buffers.transferBuffer dataBytes mode .write state with
  | some desc =>
      obtain ⟨split, last, -, same⟩ := mergeable_some found
      have ends := staged.last desc last
      have copied := apart.copy free.1 (by omega) state.memory
      have extended := staged.extend split dataBytes (data.byte state.memory) (by omega)
      simp only [putData, ends, copied]
      rw [← same]
      exact extended.mono (Nat.le_succ count)
        (show used + dataBytes ≤ used + 3 + dataBytes by omega)
  | none =>
      rw [staged.alloc some few fits]
      unfold bufferSize at fits space
      have near := alignUp_near (show state.freePtr + 4 ≤ 2 ^ 32 by omega)
      have copied := apart.copy (Nat.le_trans free.1 near.1) (by unfold bufferSize; omega)
        state.memory
      simp only [putData, Nat.add_zero, Nat.zero_add, copied]
      exact staged.push near.1 near.2 (.some mode) dataBytes (data.byte state.memory) fits

/-- After a phase the last descriptor is one for it. -/
theorem setDescriptor_last (transferBuffer : Nat) (transfer : Controller) {data : Data}
    {dataBytes : Nat} (some : dataBytes ≠ 0) (nonNull : data.isNull = false) (mode : Mode)
    (direction : Direction) (transferMode : TransferMode) (state : State) :
    ∃ (front : List Descriptor) (desc : Descriptor), (setDescriptor transferBuffer transfer data
        dataBytes mode direction transferMode state).chain = front ++ [desc] ∧
      desc.direction = direction ∧ desc.multiIoMode = .some mode := by
  unfold setDescriptor
  rw [if_neg (by simp [some, nonNull])]
  cases found : mergeable transferBuffer dataBytes mode direction state with
  | some desc =>
      obtain ⟨-, -, same⟩ := mergeable_some found
      cases direction <;> exact ⟨_, _, rfl, same⟩
  | none =>
      obtain ⟨next, fresh⟩ :=
        allocDescriptor transferBuffer transfer dataBytes transferMode state
      cases direction <;> exact ⟨_, _, rfl, rfl, rfl⟩

/-! ## Dummy clocks -/

/-- The modes of the dummy bytes behind a phase in one mode. -/
def dummyModes (mode : Mode) (dummyClocks : Nat) : List Mode :=
  if dummyClocks % clocksPerBytes mode = 0 then
    List.replicate (dummyClocks / clocksPerBytes mode) mode
  else List.replicate (dummyClocks / 2) .sdr4Bit

/-- A dummy byte in a mode. -/
def dummyBeat (mode : Mode) : Beat where
  direction := .write
  mode := some mode
  byte := 0xFF

theorem clocksPerBytes_pos (mode : Mode) : 0 < clocksPerBytes mode := by
  cases mode <;> decide

/-- The room behind the last descriptor. -/
theorem Staged.room (staged : Staged buffers before count used beats state) {desc : Descriptor}
    (last : state.chain.getLast? = some desc) {length : Nat}
    (fits : used + length < bufferSize) :
    length ≤ getAvailableRoom buffers.transferBuffer desc := by
  have ends := staged.last desc last
  have bounds := staged.inside desc (List.mem_of_getLast? last)
  have free := staged.free
  have space := buffers.inSpace
  have above : ¬ (desc.dataAddress < buffers.transferBuffer ∨
      buffers.transferBuffer + bufferSize ≤ desc.dataAddress) := by omega
  unfold getAvailableRoom
  rw [if_neg above, ends, distance_eq (by omega)]
  omega

/-- Dummy bytes that are added to the last descriptor or go to a new one; a single clock can
only be added. -/
theorem Staged.queueDummy (staged : Staged buffers before count used beats state)
    (transfer : Controller) {front : List Descriptor} {desc : Descriptor} {mode : Mode}
    {dummyClocks : Nat} (split : state.chain = front ++ [desc]) (writes : desc.direction = .write)
    (same : desc.multiIoMode = some mode) (few : count < maxDescriptors)
    (fits : used + 3 + dummyClocks < bufferSize)
    (enough : dummyClocks ≠ 1 ∨ clocksPerBytes mode = 1) :
    Staged buffers before (count + 1) (used + 3 + dummyClocks)
      (beats ++ (dummyModes mode dummyClocks).map dummyBeat)
      (queueDummy buffers.transferBuffer transfer dummyClocks .pio state) := by
  have last : state.chain.getLast? = some desc := by simp [split]
  have ends := staged.last desc last
  have free := staged.free
  have space := buffers.inSpace
  have fewer : dummyClocks / clocksPerBytes mode ≤ dummyClocks := Nat.div_le_self _ _
  unfold QHal.Qspi.queueDummy dummyModes
  by_cases none : dummyClocks = 0
  · rw [if_pos none, none, Nat.zero_mod, if_pos rfl, Nat.zero_div]
    simpa using staged.mono (Nat.le_succ count) (show used ≤ used + 3 by omega)
  rw [if_neg none]
  by_cases whole : dummyClocks % clocksPerBytes mode = 0
  · have room : dummyClocks / clocksPerBytes mode ≤
        getAvailableRoom buffers.transferBuffer desc := staged.room last (by omega)
    have merge : dummyMerge buffers.transferBuffer dummyClocks state =
        some (desc, dummyClocks / clocksPerBytes mode) := by
      simp only [dummyMerge, last, writes, same, whole, room, and_self, if_true]
    have extended := staged.extend split (dummyClocks / clocksPerBytes mode) (fun _ => 0xFF)
      (by omega)
    rw [if_pos whole, merge]
    simp only [putDummy, ends, split, List.dropLast_concat]
    simpa [dummyBeat, same] using extended.mono (Nat.le_succ count)
      (show used + dummyClocks / clocksPerBytes mode ≤ used + 3 + dummyClocks by omega)
  · have merge : dummyMerge buffers.transferBuffer dummyClocks state = Option.none := by
      simp [dummyMerge, last, writes, same, whole]
    have several : dummyClocks / 2 ≠ 0 := by
      rcases enough with several | one
      · omega
      · rw [one, Nat.mod_one] at whole
        exact absurd rfl whole
    rw [if_neg whole, merge]
    dsimp only
    rw [staged.alloc several few (by omega)]
    unfold bufferSize at fits space
    have near := alignUp_near (show state.freePtr + 4 ≤ 2 ^ 32 by omega)
    have pushed := staged.push near.1 near.2 (some .sdr4Bit) (dummyClocks / 2) (fun _ => 0xFF)
      (by unfold bufferSize; omega)
    simp only [putDummy, Nat.add_zero]
    simpa [dummyBeat] using pushed.mono (Nat.le_refl _)
      (show used + 3 + dummyClocks / 2 ≤ used + 3 + dummyClocks by omega)

end QHal.Qspi
