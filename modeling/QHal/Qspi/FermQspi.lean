/-
Module: QHal.Qspi.FermQspi
Purpose: The command queue of the QSPI driver, hal/hal/src/ferm_qspi.c: the phases of a
  command are put into a chain of descriptors over one transfer buffer, and a chain that
  is full is flushed.
Trusted boundary: the controller moves the bytes of one transfer between the bus and the
  memory in order, all of them or as many as its FIFO shows in time; DMA transfers have no
  code in the source.  The chain is the list of the descriptors that are linked, since
  they are taken from the array in its order.
Main exports: Mode, TransferMode, Descriptor, Transfer, State, fifoTransfer, flushChain,
  allocDescriptor, setDescriptor, queueDummy, queueDataDirect, queueData, runCmd
-/
import Mathlib.Logic.Function.Basic
import QHal.Lib.Memory

namespace QHal.Qspi

/-- `qspi_mode_t`. -/
inductive Mode where
  | sdr1Bit
  | sdr2Bit
  | sdr4Bit
  | ddr1Bit
  | ddr2Bit
  | ddr4Bit
deriving Repr, DecidableEq

/-- `qspi_transfer_mode_t`. -/
inductive TransferMode where
  | pio
  | dmaPoll
  | dmaInt
  | xip
deriving Repr, DecidableEq

/-- `qspi_transfer_dir_t`. -/
inductive Direction where
  | read
  | write
deriving Repr, DecidableEq

/-- The direction that a flag stands for. -/
def Direction.ofWrite (write : Bool) : Direction := if write then .write else .read

/-- `qspi_cmd_t`. -/
structure Cmd where
  opcode : UInt8
  addrBytes : Nat
  dummyClocks : Nat
  cmdMode : Mode
  addrMode : Mode
  dataMode : Mode
  write : Bool
deriving Repr, DecidableEq

/-- `qspi_descriptor_t`; the mode of a cleared descriptor is none. -/
structure Descriptor where
  dataAddress : Nat
  direction : Direction
  multiIoMode : Option Mode
  fragment : Bool
  length : Nat
  bounceSrc : Nat
  bounceDst : Nat
  bounceLength : Nat
deriving Repr, DecidableEq

/-- One transfer on the bus. -/
structure Transfer where
  direction : Direction
  multiIoMode : Option Mode
  fragment : Bool
  bytes : List UInt8
deriving Repr, DecidableEq

/-- The memory, `qspi_transfer_chain` and `qspi_context.free_ptr`; the bytes that were
received and the transfers that were made. -/
structure State where
  memory : Nat → UInt8
  chain : List Descriptor
  freePtr : Nat
  received : Nat
  bus : List Transfer

/-- What the data pointer of `drv_qspi_set_descriptor` points to: a local array, or the
buffer of the caller at its address. -/
inductive Data where
  | array (bytes : List UInt8)
  | buffer (address : Nat)

/-- The byte at an offset. -/
def Data.byte (memory : Nat → UInt8) : Data → Nat → UInt8
  | .array bytes, i => bytes.getD i 0
  | .buffer address, i => memory (address + i)

/-- The address for a read, for which no local array is passed. -/
def Data.address : Data → Nat
  | .array _ => 0
  | .buffer address => address

/-- `data == NULL`. -/
def Data.isNull : Data → Bool
  | .array _ => false
  | .buffer address => address = 0

/-- The loop that copies to `ptr`, byte by byte. -/
def copyBytes (data : Data) (ptr : Nat) (memory : Nat → UInt8) : Nat → Nat → UInt8
  | 0 => memory
  | count + 1 =>
      let memory := copyBytes data ptr memory count
      Function.update memory (ptr + count) (data.byte memory count)

/-- The bytes from an address on. -/
def bytesAt (memory : Nat → UInt8) (address count : Nat) : List UInt8 :=
  (List.range count).map fun i => memory (address + i)

/-- The alignment of the buffers. -/
def alignmentOf : TransferMode → Nat
  | .pio => 4
  | _ => 32

/-- A pointer rounded up to an alignment. -/
def alignUp (alignment address : Nat) : Nat :=
  (address + alignment - 1) % 2 ^ 32 / alignment * alignment

/-- A difference of pointers as a `uint32_t`. -/
def distance (above below : Nat) : Nat :=
  if below ≤ above then above - below else above + 2 ^ 32 - below

/-- The size of `qspi_transfer_buffer`. -/
def bufferSize : Nat := 32 * 4

/-- The number of `qspi_descriptors`. -/
def maxDescriptors : Nat := 8

/-- `clocks_per_bytes`. -/
def clocksPerBytes : Mode → Nat
  | .sdr1Bit => 8
  | .sdr2Bit => 4
  | .sdr4Bit => 2
  | .ddr1Bit => 4
  | .ddr2Bit => 2
  | .ddr4Bit => 1

/-! ## Transfers -/

/-- What the transfer of a descriptor does. -/
abbrev Controller := State → Descriptor → State

/-- `drv_qspi_pio_write` or `drv_qspi_pio_read` for a descriptor, when the FIFO keeps up. -/
def pioTransfer (device : Nat → UInt8) (state : State) (desc : Descriptor) : State :=
  match desc.direction with
  | .write =>
      { state with
        bus := state.bus ++
          [{ direction := .write
             multiIoMode := desc.multiIoMode
             fragment := desc.fragment
             bytes := bytesAt state.memory desc.dataAddress desc.length }] }
  | .read =>
      { state with
        memory := Mem.overlay state.memory desc.dataAddress desc.length fun i =>
          device (state.received + i)
        received := state.received + desc.length
        bus := state.bus ++
          [{ direction := .read
             multiIoMode := desc.multiIoMode
             fragment := desc.fragment
             bytes := bytesAt device state.received desc.length }] }

/-- The bytes that the device gives to a command stand for a controller that passes them all
on. -/
instance : Coe (Nat → UInt8) Controller := ⟨pioTransfer⟩

/-- `MAX_READ_WAIT`. -/
def maxReadWait : Nat := 0x20000

/-- The number of bytes that `drv_qspi_service_rxfifo` takes: whole words as long as there are
more, and the last bytes only when all bytes are there. -/
def serviceRxfifo (bytesInFifo : UInt8) (numBytes : Nat) : Nat :=
  let fullWords := numBytes / 4
  let wordsInFifo := bytesInFifo.toNat / 4
  let wordsToRead := if wordsInFifo < fullWords then wordsInFifo else fullWords
  let bytesToRead := if bytesInFifo.toNat < numBytes then 0 else numBytes % 4
  wordsToRead * 4 + bytesToRead

/-- The loop of `drv_qspi_pio_read` from a poll on, with the polls that it has left: the memory
and the number of received bytes.  The FIFO shows a number of bytes at each poll. -/
def pioReadLoop (device : Nat → UInt8) (bytesInFifo : Nat → UInt8) (polls poll ptr bytesLeft : Nat)
    (memory : Nat → UInt8) (received : Nat) : (Nat → UInt8) × Nat :=
  match polls with
  | 0 => (memory, received)
  | polls + 1 =>
      if bytesLeft = 0 then (memory, received)
      else
        let bytesRead := serviceRxfifo (bytesInFifo poll) bytesLeft
        pioReadLoop device bytesInFifo polls (poll + 1) (ptr + bytesRead) (bytesLeft - bytesRead)
          (Mem.overlay memory ptr bytesRead fun i => device (received + i)) (received + bytesRead)

/-- The number of reads on the bus. -/
def readCount (bus : List Transfer) : Nat :=
  bus.countP fun transfer => transfer.direction = .read

/-- `drv_qspi_pio_write` or `drv_qspi_pio_read` for a descriptor; the FIFO shows a number of bytes
for each read of a command at each poll.  A write waits until there is room for all its bytes, and
the wait for its completion changes nothing. -/
def fifoTransfer (device : Nat → UInt8) (bytesInFifo : Nat → Nat → UInt8) (state : State)
    (desc : Descriptor) : State :=
  match desc.direction with
  | .write => pioTransfer device state desc
  | .read =>
      let (memory, received) := pioReadLoop device (bytesInFifo (readCount state.bus)) maxReadWait 0
        desc.dataAddress desc.length state.memory state.received
      { state with
        memory := memory
        received := received
        bus := state.bus ++
          [{ direction := .read
             multiIoMode := desc.multiIoMode
             fragment := desc.fragment
             bytes := bytesAt device state.received (received - state.received) }] }

section

-- The address of the transfer buffer, and the controller.
variable (transferBuffer : Nat) (transfer : Controller)

/-! ## Flushing -/

/-- `drv_qspi_pio_transfer_chain`. -/
def pioTransferChain (chain : List Descriptor) (state : State) : State :=
  chain.foldl transfer state

/-- The copies of `drv_qspi_flush_chain` from the transfer buffer. -/
def copyBounces (chain : List Descriptor) (memory : Nat → UInt8) : Nat → UInt8 :=
  chain.foldl (fun memory desc =>
    copyBytes (.buffer desc.bounceSrc) desc.bounceDst memory desc.bounceLength) memory

/-- `drv_qspi_flush_chain`. -/
def flushChain (transferMode : TransferMode) (state : State) : State :=
  let chain := state.chain
  let state := if transferMode = .pio then pioTransferChain transfer chain state else state
  if transferMode ≠ .dmaInt then
    { state with
      memory := copyBounces chain state.memory
      freePtr := transferBuffer
      chain := [] }
  else state

/-! ## Descriptors -/

/-- `drv_qspi_alloc_descriptor`: the state with room for the descriptor, and the descriptor,
which the caller fills in and which goes to the end of the chain. -/
def allocDescriptor (bytesNeeded : Nat) (transferMode : TransferMode) (state : State) :
    State × Descriptor :=
  let freePtr := alignUp (alignmentOf transferMode) state.freePtr
  let room := distance (transferBuffer + bufferSize) freePtr
  let populate (freePtr : Nat) : Descriptor :=
    { dataAddress := if bytesNeeded = 0 then 0 else freePtr
      direction := .read
      multiIoMode := none
      fragment := true
      length := 0
      bounceSrc := 0
      bounceDst := 0
      bounceLength := 0 }
  if room < bytesNeeded ∨ state.chain.length = maxDescriptors then
    let flushMode := if transferMode = .dmaInt then .dmaPoll else transferMode
    (flushChain transferBuffer transfer flushMode state, populate transferBuffer)
  else (state, populate freePtr)

/-- `drv_qspi_get_available_room`. -/
def getAvailableRoom (last : Descriptor) : Nat :=
  let endOfBuffer := transferBuffer + bufferSize
  if last.dataAddress < transferBuffer ∨ endOfBuffer ≤ last.dataAddress then 0
  else distance endOfBuffer (last.dataAddress + last.length)

/-- The last descriptor, if bytes for a direction and a mode can be added to it. -/
def mergeable (dataBytes : Nat) (mode : Mode) (direction : Direction) (state : State) :
    Option Descriptor :=
  state.chain.getLast?.filter fun desc =>
    desc.direction = direction && desc.multiIoMode = some mode &&
      dataBytes ≤ getAvailableRoom transferBuffer desc

/-- The end of `drv_qspi_set_descriptor`, for the descriptor that takes the bytes and those
in front of it. -/
def putData (data : Data) (dataBytes : Nat) (direction : Direction) (front : List Descriptor)
    (desc : Descriptor) (state : State) : State :=
  let ptr := desc.dataAddress + desc.length
  match direction with
  | .write =>
      { state with
        memory := copyBytes data ptr state.memory dataBytes
        chain := front ++ [{ desc with length := desc.length + dataBytes }]
        freePtr := ptr + dataBytes }
  | .read =>
      { state with
        chain := front ++
          [{ desc with
             bounceSrc := ptr
             bounceDst := data.address
             bounceLength := dataBytes
             length := desc.length + dataBytes }]
        freePtr := ptr + dataBytes }

/-- `drv_qspi_set_descriptor`. -/
def setDescriptor (data : Data) (dataBytes : Nat) (mode : Mode) (direction : Direction)
    (transferMode : TransferMode) (state : State) : State :=
  if dataBytes = 0 ∨ data.isNull then state
  else
    match mergeable transferBuffer dataBytes mode direction state with
    | some desc => putData data dataBytes direction state.chain.dropLast desc state
    | none =>
        let (state, desc) := allocDescriptor transferBuffer transfer dataBytes transferMode state
        putData data dataBytes direction state.chain
          { desc with
            direction := direction
            multiIoMode := some mode } state

/-! ## The phases of a command -/

/-- `drv_qspi_queue_opcode`. -/
def queueOpcode (opcode : UInt8) (cmdMode : Mode) (transferMode : TransferMode)
    (state : State) : State :=
  setDescriptor transferBuffer transfer (.array [opcode]) 1 cmdMode .write transferMode state

/-- `write_addr`, for `i` from `addr_bytes` down to one. -/
def writeAddr (addr : UInt32) : Nat → List UInt8
  | 0 => []
  | i + 1 => (addr >>> UInt32.ofNat (i * 8)).toUInt8 :: writeAddr addr i

/-- `drv_qspi_queue_addr`. -/
def queueAddr (addr : UInt32) (addrBytes : Nat) (addrMode : Mode) (transferMode : TransferMode)
    (state : State) : State :=
  if addrBytes = 0 then state
  else
    setDescriptor transferBuffer transfer (.array (writeAddr addr addrBytes)) addrBytes addrMode
      .write transferMode state

/-- The dummy bytes at the end of a descriptor. -/
def putDummy (dummyBytes : Nat) (front : List Descriptor) (desc : Descriptor) (state : State) :
    State :=
  let ptr := desc.dataAddress + desc.length
  { state with
    memory := Mem.overlay state.memory ptr dummyBytes fun _ => 0xFF
    chain := front ++ [{ desc with length := desc.length + dummyBytes }]
    freePtr := ptr + dummyBytes }

/-- The last descriptor with the number of dummy bytes that can be added to it, if the clocks
are whole bytes in its mode. -/
def dummyMerge (dummyClocks : Nat) (state : State) : Option (Descriptor × Nat) :=
  match state.chain.getLast? with
  | none => none
  | some desc =>
      match desc.direction, desc.multiIoMode with
      | .write, some mode =>
          let dummyBytes := dummyClocks / clocksPerBytes mode
          if dummyClocks % clocksPerBytes mode = 0 ∧
              dummyBytes ≤ getAvailableRoom transferBuffer desc then
            some (desc, dummyBytes)
          else none
      | _, _ => none

/-- `drv_qspi_queue_dummy`. -/
def queueDummy (dummyClocks : Nat) (transferMode : TransferMode) (state : State) : State :=
  if dummyClocks = 0 then state
  else
    match dummyMerge transferBuffer dummyClocks state with
    | some (desc, dummyBytes) => putDummy dummyBytes state.chain.dropLast desc state
    | none =>
        let dummyBytes := dummyClocks / 2
        let (state, desc) := allocDescriptor transferBuffer transfer dummyBytes transferMode state
        putDummy dummyBytes state.chain
          { desc with
            direction := .write
            multiIoMode := some .sdr4Bit } state

/-- The largest size of a direct transfer. -/
def maxChunk : Nat := 0xFFE0

/-- The size of the next chunk. -/
def chunkSize (dataBytes : Nat) : Nat := if dataBytes > maxChunk then maxChunk else dataBytes

theorem chunkSize_pos {dataBytes : Nat} (left : dataBytes ≠ 0) : 0 < chunkSize dataBytes := by
  unfold chunkSize maxChunk
  split <;> omega

theorem chunkSize_le (dataBytes : Nat) : chunkSize dataBytes ≤ dataBytes := by
  unfold chunkSize
  split <;> omega

/-- The round of `drv_qspi_queue_data_direct` for one chunk. -/
def queueChunk (data chunkSize : Nat) (dataMode : Mode) (write : Bool)
    (transferMode : TransferMode) (state : State) : State :=
  let (state, desc) := allocDescriptor transferBuffer transfer 0 transferMode state
  { state with
    chain := state.chain ++
      [{ desc with
         direction := .ofWrite write
         multiIoMode := some dataMode
         dataAddress := data
         length := chunkSize }] }

/-- `drv_qspi_queue_data_direct`. -/
def queueDataDirect (data dataBytes : Nat) (dataMode : Mode) (write : Bool)
    (transferMode : TransferMode) (state : State) : State :=
  if _ : dataBytes = 0 then state
  else
    queueDataDirect (data + chunkSize dataBytes) (dataBytes - chunkSize dataBytes) dataMode write
      transferMode
      (queueChunk transferBuffer transfer data (chunkSize dataBytes) dataMode write transferMode
        state)
termination_by dataBytes
decreasing_by exact Nat.sub_lt (Nat.pos_of_ne_zero ‹_›) (chunkSize_pos ‹_›)

/-- `drv_qspi_queue_data`. -/
def queueData (data dataBytes : Nat) (dataMode : Mode) (write : Bool)
    (transferMode : TransferMode) (state : State) : State :=
  if dataBytes = 0 then state
  else
    let alignedPtr := alignUp (alignmentOf transferMode) data
    let prologBytes := min (distance alignedPtr data) dataBytes
    let epilogBytes :=
      if transferMode ≠ .pio ∧ write = false then (dataBytes - prologBytes) % 4 else 0
    let alignedBytes := dataBytes - prologBytes - epilogBytes
    let epilogPtr := data + prologBytes + alignedBytes
    let (prologBytes, epilogBytes) :=
      if alignedBytes = 0 then (prologBytes + epilogBytes, 0) else (prologBytes, epilogBytes)
    let state :=
      if prologBytes = 0 then state
      else
        setDescriptor transferBuffer transfer (.buffer data) prologBytes dataMode
          (.ofWrite write) transferMode state
    let state :=
      if alignedBytes = 0 then state
      else
        queueDataDirect transferBuffer transfer alignedPtr alignedBytes dataMode write transferMode
          state
    if epilogBytes = 0 then state
    else
      setDescriptor transferBuffer transfer (.buffer epilogPtr) epilogBytes dataMode
        (.ofWrite write) transferMode state

/-- `last->fragment = 0`. -/
def clearFragment (state : State) : State :=
  match state.chain.getLast? with
  | none => state
  | some last =>
      { state with chain := state.chain.dropLast ++ [{ last with fragment := false }] }

/-- The driver between two commands. -/
def idle (memory : Nat → UInt8) : State where
  memory := memory
  chain := []
  freePtr := transferBuffer
  received := 0
  bus := []

/-- `drv_qspi_run_cmd` on an idle driver, or nothing if it returns false. -/
def runCmd (cmd : Cmd) (addr : UInt32) (data dataBytes : Nat) (transferMode : TransferMode)
    (memory : Nat → UInt8) : Option State :=
  if cmd.addrBytes > 4 ∨ cmd.dummyClocks > 16 then none
  else
    let state := queueOpcode transferBuffer transfer cmd.opcode cmd.cmdMode transferMode
      (idle transferBuffer memory)
    let state := queueAddr transferBuffer transfer addr cmd.addrBytes cmd.addrMode transferMode
      state
    let state := queueDummy transferBuffer transfer cmd.dummyClocks transferMode state
    let state := queueData transferBuffer transfer data dataBytes cmd.dataMode cmd.write
      transferMode state
    some (flushChain transferBuffer transfer transferMode (clearFragment state))

end

end QHal.Qspi
