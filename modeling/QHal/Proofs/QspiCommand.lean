/-
Module: QHal.Proofs.QspiCommand
Purpose: What a QSPI command does on the bus and to the buffer of the caller, and when its
  dummy bytes take as many clocks as the command asks for.
Trusted boundary: none
Main exports: bigEndian, Performed, Cmd.lastMode, runCmd_streams, runCmd_performs_iff
-/
import Mathlib.Algebra.GroupWithZero.Nat
import QHal.Proofs.QspiStream

namespace QHal.Qspi

/-- The last bytes of a number, most significant first. -/
def bigEndian : Nat → Nat → List UInt8
  | 0, _ => []
  | count + 1, value => UInt8.ofNat (value / 256 ^ count) :: bigEndian count value

/-- The mode of the phase in front of the dummy clocks. -/
def Cmd.lastMode (cmd : Cmd) : Mode := if cmd.addrBytes = 0 then cmd.cmdMode else cmd.addrMode

/-- The bus has the opcode, the address, dummy bytes that take the clocks of the command, and
the data, each in its mode; the fragment flag is clear for the last transfer only; and the
bytes of a read are at their places. -/
structure Performed (buffers : Buffers) (device : Nat → UInt8) (cmd : Cmd) (addr : UInt32)
    (before : Nat → UInt8) (after : State) : Prop where
  sent : ∃ modes : List Mode, (modes.map clocksPerBytes).sum = cmd.dummyClocks ∧
    beatsOf after.bus =
      inMode .write cmd.cmdMode [cmd.opcode] ++
        inMode .write cmd.addrMode (bigEndian cmd.addrBytes addr.toNat) ++
        modes.map dummyBeat ++
        inMode (.ofWrite cmd.write) cmd.dataMode
          (payload buffers device before cmd.write buffers.dataBytes)
  fragments : ∃ (front : List Transfer) (last : Transfer), after.bus = front ++ [last] ∧
    (∀ transfer ∈ front, transfer.fragment = true) ∧ last.fragment = false
  received : cmd.write = false →
    ∀ i < buffers.dataBytes, after.memory (buffers.data + i) = device i

variable {buffers : Buffers} {device : Nat → UInt8} {transfer : Controller} {state : State}
  {before : Nat → UInt8} {cmd : Cmd} {addr : UInt32}

/-! ## The phases in front of the data -/

theorem writeAddr_eq (addr : UInt32) {count : Nat} (few : count ≤ 4) :
    writeAddr addr count = bigEndian count addr.toNat := by
  induction count with
  | zero => rfl
  | succ count ih =>
      have byte : (addr >>> UInt32.ofNat (count * 8)).toUInt8 =
          UInt8.ofNat (addr.toNat / 256 ^ count) := by
        rw [← UInt8.toNat_inj, UInt32.toNat_toUInt8, UInt32.toNat_shiftRight, UInt8.toNat_ofNat',
          UInt32.toNat_ofNat_of_lt' (by simp only [UInt32.size]; omega),
          Nat.mod_eq_of_lt (show count * 8 < 32 by omega), Nat.shiftRight_eq_div_pow,
          Nat.mul_comm count 8, Nat.pow_mul]
      rw [writeAddr, bigEndian, byte, ih (by omega)]

@[simp] theorem length_bigEndian (count value : Nat) : (bigEndian count value).length = count := by
  induction count with
  | zero => rfl
  | succ count ih => simp [bigEndian, ih]

theorem length_writeAddr (addr : UInt32) (count : Nat) : (writeAddr addr count).length = count := by
  induction count with
  | zero => rfl
  | succ count ih => simp [writeAddr, ih]

/-- A local array as it is read. -/
theorem map_array (memory : Nat → UInt8) {bytes : List UInt8} {count : Nat}
    (length : bytes.length = count) :
    (List.range count).map ((Data.array bytes).byte memory) = bytes := by
  subst length
  refine List.ext_getElem (by simp) fun i _ inside => ?_
  simp [Data.byte, inside]

theorem idle_staged (buffers : Buffers) (before : Nat → UInt8) :
    Staged buffers before 0 0 [] (idle buffers.transferBuffer before) where
  bus := rfl
  received := rfl
  short := Nat.le_refl 0
  written := nofun
  inside := nofun
  last := nofun
  free := ⟨Nat.le_refl _, Nat.le_refl _⟩
  sent := rfl
  outside := fun _ _ => rfl

theorem queueDummy_linked (transferBuffer : Nat) (transfer : Controller) (dummyClocks : Nat)
    (transferMode : TransferMode) (linked : state.chain ≠ []) :
    (queueDummy transferBuffer transfer dummyClocks transferMode state).chain ≠ [] := by
  unfold queueDummy
  by_cases none : dummyClocks = 0
  · rwa [if_pos none]
  · rw [if_neg none]
    split <;> simp [putDummy]

/-- The chain of an idle driver after the opcode and the address. -/
def addressed (buffers : Buffers) (transfer : Controller) (cmd : Cmd) (addr : UInt32)
    (before : Nat → UInt8) : State :=
  queueAddr buffers.transferBuffer transfer addr cmd.addrBytes cmd.addrMode .pio
    (queueOpcode buffers.transferBuffer transfer cmd.opcode cmd.cmdMode .pio
      (idle buffers.transferBuffer before))

/-- The chain in front of the data. -/
def dummied (buffers : Buffers) (transfer : Controller) (cmd : Cmd) (addr : UInt32)
    (before : Nat → UInt8) : State :=
  queueDummy buffers.transferBuffer transfer cmd.dummyClocks .pio
    (addressed buffers transfer cmd addr before)

/-- The chain that is flushed at last. -/
def queued (buffers : Buffers) (transfer : Controller) (cmd : Cmd) (addr : UInt32)
    (before : Nat → UInt8) : State :=
  queueData buffers.transferBuffer transfer buffers.data buffers.dataBytes cmd.dataMode cmd.write
    .pio (dummied buffers transfer cmd addr before)

/-- The phases of an accepted command. -/
theorem runCmd_some {after : State}
    (accepted : runCmd buffers.transferBuffer transfer cmd addr buffers.data buffers.dataBytes .pio
      before = some after) :
    cmd.addrBytes ≤ 4 ∧ cmd.dummyClocks ≤ 16 ∧
      after = flushChain buffers.transferBuffer transfer .pio
        (clearFragment (queued buffers transfer cmd addr before)) := by
  unfold runCmd at accepted
  by_cases refused : cmd.addrBytes > 4 ∨ cmd.dummyClocks > 16
  · rw [if_pos refused] at accepted
    cases accepted
  · rw [if_neg refused] at accepted
    exact ⟨by omega, by omega, (Option.some.inj accepted).symm⟩

theorem addressed_staged (buffers : Buffers) (transfer : Controller) (addr : UInt32)
    (before : Nat → UInt8) (few : cmd.addrBytes ≤ 4) :
    Staged buffers before 2 11
      (inMode .write cmd.cmdMode [cmd.opcode] ++
        inMode .write cmd.addrMode (bigEndian cmd.addrBytes addr.toNat))
      (addressed buffers transfer cmd addr before) := by
  have first : Staged buffers before 1 4 (inMode .write cmd.cmdMode [cmd.opcode])
      (queueOpcode buffers.transferBuffer transfer cmd.opcode cmd.cmdMode .pio
        (idle buffers.transferBuffer before)) :=
    (idle_staged buffers before).setDescriptor transfer (.array [cmd.opcode]) cmd.cmdMode
      (show (1 : Nat) ≠ 0 by decide) rfl (by decide) (by decide) (by intro address same; cases same)
  unfold addressed queueAddr
  by_cases none : cmd.addrBytes = 0
  · rw [if_pos none, none]
    simpa [bigEndian, inMode] using first.mono (show 1 ≤ 2 by decide) (show 4 ≤ 11 by decide)
  · have second := first.setDescriptor transfer (.array (writeAddr addr cmd.addrBytes))
      cmd.addrMode none rfl (by decide) (by unfold bufferSize; omega)
      (by intro address same; cases same)
    rw [if_neg none, ← writeAddr_eq addr few]
    rw [map_array _ (length_writeAddr addr cmd.addrBytes)] at second
    exact second.mono (Nat.le_refl 2) (show 4 + 3 + cmd.addrBytes ≤ 11 by omega)

/-- The last descriptor in front of the dummy clocks. -/
theorem addressed_last (buffers : Buffers) (transfer : Controller) (cmd : Cmd) (addr : UInt32)
    (before : Nat → UInt8) :
    ∃ (front : List Descriptor) (desc : Descriptor),
      (addressed buffers transfer cmd addr before).chain = front ++ [desc] ∧
        desc.direction = .write ∧ desc.multiIoMode = some cmd.lastMode := by
  unfold addressed queueAddr Cmd.lastMode
  by_cases none : cmd.addrBytes = 0
  · rw [if_pos none, if_pos none]
    exact setDescriptor_last buffers.transferBuffer transfer (by decide) rfl cmd.cmdMode .write
      .pio _
  · rw [if_neg none, if_neg none]
    exact setDescriptor_last buffers.transferBuffer transfer none rfl cmd.addrMode .write .pio _

/-- The whole command is in the chain, unless a single dummy clock has no byte. -/
theorem queued_streams (buffers : Buffers) (device : Nat → UInt8) (addr : UInt32)
    (before : Nat → UInt8) (few : cmd.addrBytes ≤ 4) (clocks : cmd.dummyClocks ≤ 16)
    (enough : cmd.dummyClocks ≠ 1 ∨ clocksPerBytes cmd.lastMode = 1) :
    Streaming buffers device before
      (inMode .write cmd.cmdMode [cmd.opcode] ++
        inMode .write cmd.addrMode (bigEndian cmd.addrBytes addr.toNat) ++
        (dummyModes cmd.lastMode cmd.dummyClocks).map dummyBeat)
      cmd.dataMode cmd.write buffers.dataBytes (queued buffers device cmd addr before) := by
  obtain ⟨front, desc, split, writes, same⟩ := addressed_last buffers device cmd addr before
  have staged := (addressed_staged buffers device addr before few).queueDummy device split writes
    same (by decide) (by unfold bufferSize; omega) enough
  refine queueData_streams staged ?_ (by decide) (by unfold bufferSize; omega)
  refine queueDummy_linked _ _ _ _ ?_
  rw [split]
  simp

/-! ## The last flush -/

/-- Clearing the fragment flag changes the flag of the last transfer only. -/
theorem flushChain_clearFragment (transferBuffer : Nat) (device : Nat → UInt8)
    {front : List Descriptor} {last : Descriptor} (split : state.chain = front ++ [last]) :
    ∃ transfer, (flushChain transferBuffer device .pio (clearFragment state)).bus =
        (pioTransferChain device front state).bus ++ [transfer] ∧
      transfer.fragment = false ∧
      beatsOf (flushChain transferBuffer device .pio (clearFragment state)).bus =
        beatsOf (flushChain transferBuffer device .pio state).bus ∧
      (flushChain transferBuffer device .pio (clearFragment state)).memory =
        (flushChain transferBuffer device .pio state).memory := by
  have cleared : clearFragment state =
      { state with chain := front ++ [{ last with fragment := false }] } := by
    simp [clearFragment, split]
  rw [cleared, flushChain_pio, flushChain_pio]
  dsimp only
  rw [pioTransferChain_relink (pioTransfer_delivers device), split]
  unfold pioTransferChain copyBounces
  simp only [List.foldl_append, List.foldl_cons, List.foldl_nil]
  unfold pioTransfer
  cases last.direction with
  | read => exact ⟨_, rfl, rfl, by simp [beatsOf, Transfer.beats], rfl⟩
  | write => exact ⟨_, rfl, rfl, by simp [beatsOf, Transfer.beats], rfl⟩

/-! ## The number of bytes -/

/-- The bytes on the bus and in the chain. -/
def size (state : State) : Nat :=
  (beatsOf state.bus).length + (state.chain.map Descriptor.length).sum

theorem length_pioTransfer (device : Nat → UInt8) (state : State) (desc : Descriptor) :
    (beatsOf (pioTransfer device state desc).bus).length =
      (beatsOf state.bus).length + desc.length := by
  unfold pioTransfer
  split <;> simp [beatsOf, Transfer.beats]

theorem length_pioTransferChain (device : Nat → UInt8) (chain : List Descriptor) (state : State) :
    (beatsOf (pioTransferChain device chain state).bus).length =
      (beatsOf state.bus).length + (chain.map Descriptor.length).sum := by
  induction chain generalizing state with
  | nil => rfl
  | cons desc chain ih =>
      have rest := ih (pioTransfer device state desc)
      rw [length_pioTransfer] at rest
      rw [List.map_cons, List.sum_cons, ← Nat.add_assoc]
      exact rest

@[simp] theorem size_flushChain (transferBuffer : Nat) (device : Nat → UInt8) (state : State) :
    size (flushChain transferBuffer device .pio state) = size state := by
  rw [flushChain_pio]
  simp [size, length_pioTransferChain]

theorem size_clearFragment (state : State) : size (clearFragment state) = size state := by
  unfold clearFragment
  cases last : state.chain.getLast? with
  | none => rfl
  | some desc =>
      have split := List.dropLast_append_getLast? desc last
      have sum := congrArg (fun chain => (chain.map Descriptor.length).sum) split
      simp only [List.map_append, List.map_cons, List.map_nil, List.sum_append, List.sum_cons,
        List.sum_nil, Nat.add_zero] at sum
      simp [size, ← sum]

/-- Taking a new descriptor flushes at most. -/
theorem size_allocDescriptor (transferBuffer : Nat) (device : Nat → UInt8) (bytesNeeded : Nat)
    (state : State) :
    size (allocDescriptor transferBuffer device bytesNeeded .pio state).1 = size state ∧
      (allocDescriptor transferBuffer device bytesNeeded .pio state).2.length = 0 := by
  unfold allocDescriptor
  dsimp only
  split
  · exact ⟨size_flushChain transferBuffer device state, rfl⟩
  · exact ⟨rfl, rfl⟩

theorem size_putData (data : Data) (dataBytes : Nat) (direction : Direction)
    (front : List Descriptor) (desc : Descriptor) (state : State) :
    size (putData data dataBytes direction front desc state) =
      (beatsOf state.bus).length + ((front ++ [desc]).map Descriptor.length).sum + dataBytes := by
  unfold putData
  cases direction <;> simp [size] <;> omega

theorem size_setDescriptor (transferBuffer : Nat) (device : Nat → UInt8) {data : Data}
    {dataBytes : Nat} (nonNull : dataBytes ≠ 0 → data.isNull = false) (mode : Mode)
    (direction : Direction) (state : State) :
    size (setDescriptor transferBuffer device data dataBytes mode direction .pio state) =
      size state + dataBytes := by
  unfold setDescriptor
  by_cases none : dataBytes = 0
  · rw [if_pos (Or.inl none), none]
    rfl
  rw [if_neg (by simp [none, nonNull none])]
  cases found : mergeable transferBuffer dataBytes mode direction state with
  | some desc =>
      obtain ⟨split, -⟩ := mergeable_some found
      dsimp only
      rw [size_putData, ← split]
      rfl
  | none =>
      obtain ⟨same, empty⟩ := size_allocDescriptor transferBuffer device dataBytes state
      generalize allocDescriptor transferBuffer device dataBytes .pio state = next at same empty
      dsimp only
      rw [size_putData, ← same, List.map_append, List.sum_append]
      simp [size, empty]

theorem size_queueChunk (transferBuffer : Nat) (device : Nat → UInt8) (data chunkSize : Nat)
    (dataMode : Mode) (write : Bool) (state : State) :
    size (queueChunk transferBuffer device data chunkSize dataMode write .pio state) =
      size state + chunkSize := by
  rw [queueChunk_eq]
  split
  · have flushed := size_flushChain transferBuffer device state
    rw [← flushed]
    simp [size, flushChain_pio, chunkDescriptor]
  · simp [size, chunkDescriptor]
    omega

theorem size_queueDataDirect (transferBuffer : Nat) (device : Nat → UInt8) (data dataBytes : Nat)
    (dataMode : Mode) (write : Bool) (state : State) :
    size (queueDataDirect transferBuffer device data dataBytes dataMode write .pio state) =
      size state + dataBytes := by
  induction dataBytes using Nat.strongRecOn generalizing data state with
  | ind dataBytes ih =>
      unfold queueDataDirect
      by_cases done : dataBytes = 0
      · rw [dif_pos done, done]
        rfl
      · have positive := chunkSize_pos done
        have fewer := chunkSize_le dataBytes
        rw [dif_neg done, ih _ (by omega), size_queueChunk]
        omega

theorem size_queueData (buffers : Buffers) (device : Nat → UInt8) (dataMode : Mode) (write : Bool)
    (state : State) :
    size (queueData buffers.transferBuffer device buffers.data buffers.dataBytes dataMode write .pio
      state) = size state + buffers.dataBytes := by
  by_cases none : buffers.dataBytes = 0
  · unfold queueData
    rw [if_pos none, none]
    rfl
  obtain ⟨-, nonNull, -⟩ := prolog_spec buffers.dataInSpace none
  rw [queueData_pio buffers.transferBuffer buffers.data dataMode write state none rfl]
  have inside := prologOf_le buffers.data buffers.dataBytes
  generalize prologOf buffers.data buffers.dataBytes = prologBytes at nonNull inside ⊢
  have prolog : size (queueProlog buffers.transferBuffer device buffers.data prologBytes dataMode
      write state) = size state + prologBytes := by
    unfold queueProlog
    split
    · next skip => rw [skip, Nat.add_zero]
    · exact size_setDescriptor _ _ (fun some => by simp [Data.isNull, nonNull some]) _ _ _
  split
  · rw [prolog]
    omega
  · rw [size_queueDataDirect, prolog]
    omega

/-- A single dummy clock has no byte in a mode with several clocks for a byte. -/
theorem size_queueDummy_one (transferBuffer : Nat) (device : Nat → UInt8)
    {front : List Descriptor} {desc : Descriptor} {mode : Mode}
    (split : state.chain = front ++ [desc]) (writes : desc.direction = .write)
    (same : desc.multiIoMode = some mode) (several : clocksPerBytes mode ≠ 1) :
    size (queueDummy transferBuffer device 1 .pio state) = size state := by
  have positive := clocksPerBytes_pos mode
  have merge : dummyMerge transferBuffer 1 state = none := by
    have remainder : 1 % clocksPerBytes mode = 1 := Nat.mod_eq_of_lt (by omega)
    simp [dummyMerge, split, writes, same, remainder]
  obtain ⟨flushed, empty⟩ := size_allocDescriptor transferBuffer device 0 state
  unfold queueDummy
  rw [if_neg (by decide), merge, ← flushed]
  simp [putDummy, size, empty]

/-! ## The command -/

theorem clocksPerBytes_one {mode : Mode} : clocksPerBytes mode = 1 ↔ mode = .ddr4Bit := by
  cases mode <;> decide

/-- The dummy bytes take the clocks of the command if these are even, or a byte takes one. -/
theorem dummyModes_clocks (mode : Mode) (dummyClocks : Nat) :
    ((dummyModes mode dummyClocks).map clocksPerBytes).sum = dummyClocks ↔
      dummyClocks % 2 = 0 ∨ mode = .ddr4Bit := by
  have even : mode = .ddr4Bit ∨ clocksPerBytes mode % 2 = 0 := by
    cases mode <;> decide
  unfold dummyModes
  by_cases whole : dummyClocks % clocksPerBytes mode = 0
  · rw [if_pos whole, List.map_replicate, List.sum_replicate_nat,
      Nat.div_mul_cancel (Nat.dvd_of_mod_eq_zero whole)]
    refine iff_of_true rfl ?_
    rcases even with double | even
    · exact Or.inr double
    · exact Or.inl (Nat.mod_eq_zero_of_dvd
        (Nat.dvd_trans (Nat.dvd_of_mod_eq_zero even) (Nat.dvd_of_mod_eq_zero whole)))
  · have several : mode ≠ .ddr4Bit := by
      rintro rfl
      exact whole (Nat.mod_one _)
    rw [if_neg whole, List.map_replicate, List.sum_replicate_nat]
    simp only [clocksPerBytes, several, or_false]
    omega

theorem dummyBeat_injective : Function.Injective dummyBeat := by
  intro first second same
  injection same with _ mode
  exact Option.some.inj mode

@[simp] theorem length_payload (buffers : Buffers) (device before : Nat → UInt8) (write : Bool)
    (count : Nat) : (payload buffers device before write count).length = count := by
  unfold payload
  split <;> simp

/-- With a single dummy clock the bytes of the other phases are queued. -/
theorem size_queued (buffers : Buffers) (device : Nat → UInt8) (addr : UInt32)
    (before : Nat → UInt8) (one : cmd.dummyClocks = 1)
    (several : clocksPerBytes cmd.lastMode ≠ 1) :
    size (queued buffers device cmd addr before) = 1 + cmd.addrBytes + buffers.dataBytes := by
  obtain ⟨front, desc, split, writes, same⟩ := addressed_last buffers device cmd addr before
  have opcode : size (queueOpcode buffers.transferBuffer device cmd.opcode cmd.cmdMode .pio
      (idle buffers.transferBuffer before)) = 1 :=
    size_setDescriptor _ _ (fun _ => rfl) _ _ _
  have address : size (addressed buffers device cmd addr before) = 1 + cmd.addrBytes := by
    unfold addressed queueAddr
    split
    · next none => rw [opcode, none]
    · rw [size_setDescriptor _ _ (fun _ => rfl), opcode]
  unfold queued dummied
  rw [size_queueData, one, size_queueDummy_one _ _ split writes same several, address]

/-- A command is performed exactly when its dummy clocks are even or follow a phase in the
mode in which a byte takes one clock. -/
theorem runCmd_performs_iff {after : State}
    (accepted : runCmd buffers.transferBuffer device cmd addr buffers.data buffers.dataBytes .pio
      before = some after) :
    Performed buffers device cmd addr before after ↔
      cmd.dummyClocks % 2 = 0 ∨ cmd.lastMode = .ddr4Bit := by
  obtain ⟨few, clocks, rfl⟩ := runCmd_some accepted
  by_cases enough : cmd.dummyClocks ≠ 1 ∨ clocksPerBytes cmd.lastMode = 1
  · have streaming := queued_streams buffers device addr before few clocks enough
    have split := List.dropLast_append_getLast streaming.linked
    obtain ⟨transfer, bus, flag, sent, memory⟩ :=
      flushChain_clearFragment buffers.transferBuffer device split.symm
    rw [← dummyModes_clocks]
    constructor
    · rintro ⟨⟨modes, exact, beats⟩, -, -⟩
      rw [sent, streaming.sent] at beats
      have dummies := List.append_cancel_left (List.append_cancel_right beats)
      rwa [dummyBeat_injective.list_map dummies]
    · intro exact
      refine ⟨⟨_, exact, sent.trans streaming.sent⟩, ⟨_, transfer, bus, ?_, flag⟩, ?_⟩
      · exact pioTransferChain_fragments
          (fun desc member => streaming.queued desc (List.dropLast_subset _ member))
          streaming.made
      · intro read i below
        rw [memory]
        exact streaming.delivered read i below
  · -- A single clock has no byte at all, so that the bus has too few bytes.
    obtain ⟨single, several⟩ := not_or.mp enough
    have one := not_not.mp single
    refine iff_of_false ?_ (by rw [one, ← clocksPerBytes_one]; simpa using several)
    rintro ⟨⟨modes, exact, beats⟩, -, -⟩
    have count := congrArg List.length beats
    have total := size_queued buffers device addr before one several
    rw [← size_clearFragment, ← size_flushChain buffers.transferBuffer device] at total
    have flushed : size (flushChain buffers.transferBuffer device .pio
        (clearFragment (queued buffers device cmd addr before))) = (beatsOf _).length := rfl
    rw [flushed, count] at total
    simp only [inMode, List.length_append, List.length_map, List.length_singleton,
      length_bigEndian, length_payload] at total
    have none : modes = [] := List.length_eq_zero_iff.mp (by omega)
    rw [none, one] at exact
    cases exact

/-- A transfer buffer and six bytes of a caller at an odd address. -/
def oddBuffers : Buffers where
  transferBuffer := 0x1000
  data := 0x2001
  dataBytes := 6
  aligned := rfl
  nonNull := by decide
  inSpace := by decide
  dataInSpace := by decide
  apart := by decide

/-- A read of four bits at a time behind some dummy clocks. -/
def quadRead (dummyClocks : Nat) : Cmd where
  opcode := 0x6B
  addrBytes := 3
  dummyClocks := dummyClocks
  cmdMode := .sdr1Bit
  addrMode := .sdr1Bit
  dataMode := .sdr4Bit
  write := false

theorem runCmd_performs_quadRead :
    ∃ after, runCmd oddBuffers.transferBuffer UInt8.ofNat (quadRead 8) 0x123456 oddBuffers.data
        oddBuffers.dataBytes .pio (fun _ => 0) = some after ∧
      Performed oddBuffers UInt8.ofNat (quadRead 8) 0x123456 (fun _ => 0) after :=
  ⟨_, if_neg (by decide), (runCmd_performs_iff (if_neg (by decide))).mpr (Or.inl rfl)⟩

/-- Five dummy clocks behind a phase of one bit at a time give two bytes of two clocks. -/
theorem runCmd_loses_clock :
    ∃ after, runCmd oddBuffers.transferBuffer UInt8.ofNat (quadRead 5) 0x123456 oddBuffers.data
        oddBuffers.dataBytes .pio (fun _ => 0) = some after ∧
      after.bus.map (fun transfer => (transfer.multiIoMode, transfer.bytes)) =
        [(some .sdr1Bit, [0x6B, 0x12, 0x34, 0x56]), (some .sdr4Bit, [0xFF, 0xFF]),
          (some .sdr4Bit, [0, 1, 2]), (some .sdr4Bit, [3, 4, 5])] ∧
      ¬ Performed oddBuffers UInt8.ofNat (quadRead 5) 0x123456 (fun _ => 0) after := by
  refine ⟨_, if_neg (by decide), by decide +kernel, ?_⟩
  rintro ⟨⟨modes, clocks, beats⟩, -, -⟩
  have bytes : beatsOf (flushChain oddBuffers.transferBuffer UInt8.ofNat .pio (clearFragment
      (queued oddBuffers UInt8.ofNat (quadRead 5) 0x123456 fun _ => 0))).bus =
        inMode .write .sdr1Bit [0x6B] ++
          inMode .write .sdr1Bit (bigEndian 3 0x123456) ++
          [Mode.sdr4Bit, Mode.sdr4Bit].map dummyBeat ++
          inMode .read .sdr4Bit (payload oddBuffers UInt8.ofNat (fun _ => 0) false 6) := by
    decide +kernel
  have dummies := List.append_cancel_left (List.append_cancel_right (beats.symm.trans bytes))
  rw [dummyBeat_injective.list_map dummies] at clocks
  exact absurd clocks (by decide)

end QHal.Qspi
