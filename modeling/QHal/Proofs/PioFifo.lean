/-
Module: QHal.Proofs.PioFifo
Purpose: The QSPI driver reads and writes through its FIFOs in order: after any number of rounds, of
  whatever sizes, the front part of the buffer that they count has been moved, and the rest starts
  at a whole word.  A write ends when the FIFO has room for a word again and again.
Trusted boundary: none
Main exports: streamByte, drvQspiServiceRxfifo_eq, drvQspiServiceTxfifo_eq, Received, Sent, given,
  pio_transfers_in_order, drvQspiPioRead_memory
-/
import QHal.Proofs.QspiFifo
import QHal.Qspi.PioFifo

namespace QHal.Qspi

/-! ## Words -/

/-- The stream of bytes of which the words consist. -/
def streamByte (words : Nat → UInt32) (i : Nat) : UInt8 := wordByte (words (i / 4)) (i % 4)

theorem streamByte_word (words : Nat → UInt32) (number : Nat) {i : Nat} (inside : i < 4) :
    streamByte words (number * 4 + i) = wordByte (words number) i := by
  have word : (number * 4 + i) / 4 = number := by omega
  have byte : (number * 4 + i) % 4 = i := by omega
  rw [streamByte, word, byte]

/-- The bytes of a loaded word are those of the memory. -/
theorem wordByte_loadWord (memory : Nat → UInt8) (ptr : Nat) {i : Nat} (inside : i < 4) :
    wordByte (loadWord memory ptr) i = memory (ptr + i) := by
  have shift : (UInt32.ofNat (i * 8)).toNat = i * 8 :=
    UInt32.toNat_ofNat_of_lt' (Nat.lt_trans (by omega : i * 8 < 32) (by decide))
  have small : ∀ place, (memory place).toNat < 256 := fun place => (memory place).toNat_lt
  have first := small ptr
  have second := small (ptr + 1)
  have third := small (ptr + 2)
  have fourth := small (ptr + 3)
  have value : (loadWord memory ptr).toNat = (memory ptr).toNat + 256 * ((memory (ptr + 1)).toNat +
      256 * ((memory (ptr + 2)).toNat + 256 * (memory (ptr + 3)).toNat)) := by
    rw [loadWord, UInt32.toNat_ofNat']
    simp only [bytesAt, List.range, List.range.loop, List.map_cons, List.map_nil, Bytes.toNat,
      Nat.add_zero, Nat.mul_zero]
    omega
  apply UInt8.toNat_inj.mp
  rw [wordByte, UInt32.toNat_toUInt8, UInt32.toNat_shiftRight, shift, value,
    Nat.mod_eq_of_lt (by omega : i * 8 < 32), Nat.shiftRight_eq_div_pow]
  obtain rfl | rfl | rfl | rfl : i = 0 ∨ i = 1 ∨ i = 2 ∨ i = 3 := by omega
  · change _ = (memory ptr).toNat
    omega
  · omega
  · omega
  · omega

/-! ## One round of a read -/

section

variable (words : Nat → UInt32)

theorem rxWords_eq (count ptr : Nat) (rx : RxFifo) :
    rxWords words count ptr rx =
      ⟨Mem.overlay rx.memory ptr (count * 4) fun i => streamByte words (rx.popped * 4 + i),
        rx.popped + count⟩ := by
  induction count generalizing ptr rx with
  | zero => rw [rxWords, Nat.zero_mul, Mem.overlay_zero, Nat.add_zero]
  | succ count ih =>
      have word : storeWord rx.memory ptr (words rx.popped) =
          Mem.overlay rx.memory ptr 4 fun i => streamByte words (rx.popped * 4 + i) :=
        Mem.overlay_congr _ _ fun i inside => (streamByte_word words rx.popped inside).symm
      have behind : (fun i => streamByte words ((rx.popped + 1) * 4 + i)) =
          fun i => streamByte words (rx.popped * 4 + (4 + i)) := by
        funext i
        rw [Nat.succ_mul, Nat.add_assoc]
      have size : (count + 1) * 4 = 4 + count * 4 := by omega
      have number : rx.popped + 1 + count = rx.popped + (count + 1) := by omega
      rw [rxWords, ih, word, behind, size, number, Mem.overlay_append rx.memory ptr 4 (count * 4)
        fun i => streamByte words (rx.popped * 4 + i)]

theorem rxBytes_eq {count : Nat} (few : count < 4) (ptr : Nat) (rx : RxFifo) :
    rxBytes words count ptr rx =
      ⟨Mem.overlay rx.memory ptr count fun i => streamByte words (rx.popped * 4 + i),
        rx.popped + (count + 3) / 4⟩ := by
  by_cases none : count = 0
  · rw [rxBytes, if_pos none, none, Mem.overlay_zero]
    rfl
  have stored : (List.range count).foldl
      (fun memory i => Function.update memory (ptr + i) (wordByte (words rx.popped) i)) rx.memory =
        Mem.overlay rx.memory ptr count (wordByte (words rx.popped)) := by
    clear few none
    induction count with
    | zero => exact (Mem.overlay_zero _ _ _).symm
    | succ count ih =>
        rw [List.range_succ, List.foldl_append, ih, List.foldl_cons, List.foldl_nil,
          update_overlay]
  have one : (count + 3) / 4 = 1 := by omega
  rw [rxBytes, if_neg none, stored, one]
  congr 1
  exact Mem.overlay_congr _ _ fun i inside =>
    (streamByte_word words rx.popped (Nat.lt_trans inside few)).symm

/-- A service of the RX FIFO stores the next bytes of the stream, as many as it counts. -/
theorem drvQspiServiceRxfifo_eq (bytesInFifo : UInt8) (ptr numBytes : Nat) (rx : RxFifo) :
    drvQspiServiceRxfifo words bytesInFifo ptr numBytes rx =
      (serviceRxfifo bytesInFifo numBytes,
        ⟨Mem.overlay rx.memory ptr (serviceRxfifo bytesInFifo numBytes)
            fun i => streamByte words (rx.popped * 4 + i),
          rx.popped + (serviceRxfifo bytesInFifo numBytes + 3) / 4⟩) := by
  unfold drvQspiServiceRxfifo serviceRxfifo
  dsimp only
  generalize (if bytesInFifo.toNat / 4 < numBytes / 4 then bytesInFifo.toNat / 4 else numBytes / 4)
    = full
  have few : (if bytesInFifo.toNat < numBytes then 0 else numBytes % 4) < 4 := by
    split
    · decide
    · exact Nat.mod_lt _ (by decide)
  generalize (if bytesInFifo.toNat < numBytes then 0 else numBytes % 4) = rest at few
  have behind : (fun i => streamByte words ((rx.popped + full) * 4 + i)) =
      fun i => streamByte words (rx.popped * 4 + (full * 4 + i)) := by
    funext i
    rw [Nat.add_mul, Nat.add_assoc]
  have number : rx.popped + full + (rest + 3) / 4 = rx.popped + (full * 4 + rest + 3) / 4 := by
    omega
  rw [rxWords_eq, rxBytes_eq words few, behind, number, Mem.overlay_append]

end

/-- What a service of a FIFO moves: a part of what is left and of what the FIFO holds or has room
for, in whole words unless it is all that is left. -/
structure Moves (available numBytes moved : Nat) : Prop where
  left : moved ≤ numBytes
  held : moved ≤ available
  whole : moved % 4 ≠ 0 → moved = numBytes

theorem serviceRxfifo_moves (bytesInFifo : UInt8) (numBytes : Nat) :
    Moves bytesInFifo.toNat numBytes (serviceRxfifo bytesInFifo numBytes) := by
  unfold serviceRxfifo
  dsimp only
  constructor
  · split <;> split <;> omega
  · split <;> split <;> omega
  · split <;> split <;> omega

/-! ## One round of a write -/

section

variable (memory : Nat → UInt8)

theorem txWords_eq (count ptr : Nat) (sent : List UInt8) :
    txWords memory count ptr sent = sent ++ bytesAt memory ptr (count * 4) := by
  induction count generalizing ptr sent with
  | zero => simp [txWords, bytesAt]
  | succ count ih =>
      have word : (List.range 4).map (wordByte (loadWord memory ptr)) = bytesAt memory ptr 4 :=
        List.map_congr_left fun i inside =>
          wordByte_loadWord memory ptr (List.mem_range.mp inside)
      have size : (count + 1) * 4 = 4 + count * 4 := by omega
      rw [txWords, ih, word, size, bytesAt_add, List.append_assoc]

theorem txBytes_eq (count ptr : Nat) (sent : List UInt8) :
    txBytes memory count ptr sent = sent ++ bytesAt memory ptr count := by
  induction count generalizing ptr sent with
  | zero => simp [txBytes, bytesAt]
  | succ count ih =>
      have one : [memory ptr] = bytesAt memory ptr 1 := rfl
      rw [txBytes, ih, one, Nat.add_comm count 1, bytesAt_add, List.append_assoc]

/-- The number of bytes that `drv_qspi_service_txfifo` sends. -/
def serviceTxfifo (roomInBytes : UInt32) (numBytes : Nat) : Nat :=
  (if numBytes / 4 > roomInBytes.toNat / 4 then roomInBytes.toNat / 4 else numBytes / 4) * 4 +
    if numBytes > roomInBytes.toNat then 0 else numBytes % 4

theorem serviceTxfifo_moves (roomInBytes : UInt32) (numBytes : Nat) :
    Moves roomInBytes.toNat numBytes (serviceTxfifo roomInBytes numBytes) := by
  unfold serviceTxfifo
  constructor
  · split <;> split <;> omega
  · split <;> split <;> omega
  · split <;> split <;> omega

/-- With room for a word a service sends something, if anything is left. -/
theorem serviceTxfifo_pos {roomInBytes : UInt32} {numBytes : Nat} (room : 4 ≤ roomInBytes.toNat)
    (more : numBytes ≠ 0) : 0 < serviceTxfifo roomInBytes numBytes := by
  unfold serviceTxfifo
  split <;> split <;> omega

/-- A service of the TX FIFO sends the next bytes of the memory, as many as it counts. -/
theorem drvQspiServiceTxfifo_eq (roomInBytes : UInt32) (ptr numBytes : Nat) (sent : List UInt8) :
    drvQspiServiceTxfifo memory roomInBytes ptr numBytes sent =
      (serviceTxfifo roomInBytes numBytes,
        sent ++ bytesAt memory ptr (serviceTxfifo roomInBytes numBytes)) := by
  unfold drvQspiServiceTxfifo serviceTxfifo
  dsimp only
  rw [txWords_eq, txBytes_eq, List.append_assoc, ← bytesAt_add]

end

/-! ## Any number of rounds -/

/-- The front part of a buffer has been moved, and in whole words unless it is the whole buffer. -/
structure Front (buffer numBytes ptr bytesLeft moved : Nat) : Prop where
  total : moved + bytesLeft = numBytes
  place : ptr = buffer + moved
  whole : bytesLeft ≠ 0 → moved % 4 = 0

/-- With a buffer at a word the pointer stays at a word as long as bytes are left. -/
theorem Front.aligned {buffer numBytes ptr bytesLeft moved : Nat}
    (front : Front buffer numBytes ptr bytesLeft moved) (start : buffer % 4 = 0)
    (more : bytesLeft ≠ 0) : ptr % 4 = 0 := by
  have place := front.place
  have whole := front.whole more
  omega

theorem Front.left {buffer numBytes ptr bytesLeft moved : Nat}
    (front : Front buffer numBytes ptr bytesLeft moved) : bytesLeft = numBytes - moved := by
  rw [← front.total, Nat.add_sub_cancel_left]

theorem Front.start (buffer numBytes : Nat) : Front buffer numBytes buffer numBytes 0 where
  total := Nat.zero_add numBytes
  place := rfl
  whole := fun _ => rfl

/-- A round moves the bytes behind those that have been moved. -/
theorem Front.round {buffer numBytes ptr bytesLeft moved available count : Nat}
    (front : Front buffer numBytes ptr bytesLeft moved) (moves : Moves available bytesLeft count) :
    Front buffer numBytes (ptr + count) (bytesLeft - count) (moved + count) := by
  have total := front.total
  have place := front.place
  have whole := front.whole
  have left := moves.left
  have tail := moves.whole
  constructor
  · omega
  · omega
  · intro rest
    have front := whole (by omega)
    by_contra part
    exact rest (by omega)

/-- Nothing is moved when nothing is left. -/
theorem Moves.none {available moved : Nat} (moves : Moves available 0 moved) : moved = 0 :=
  Nat.le_zero.mp moves.left

/-- The rounds of a read so far: the front part of the buffer has the bytes of the stream, nothing
else has changed, and the words of these bytes have been taken out of the FIFO. -/
structure Received (words : Nat → UInt32) (buffer numBytes : Nat) (start : RxFifo)
    (state : RxState) (moved : Nat) : Prop where
  front : Front buffer numBytes state.ptr state.bytesLeft moved
  memory : state.rx.memory =
    Mem.overlay start.memory buffer moved fun i => streamByte words (start.popped * 4 + i)
  popped : state.rx.popped = start.popped + (moved + 3) / 4

/-- A round of a read stores the next bytes of the stream. -/
theorem Received.round {words : Nat → UInt32} {buffer numBytes : Nat} {start : RxFifo}
    {state : RxState} {moved : Nat} (received : Received words buffer numBytes start state moved)
    (bytesInFifo : UInt8) :
    Received words buffer numBytes start (rxRound words bytesInFifo state)
      (moved + serviceRxfifo bytesInFifo state.bytesLeft) := by
  have moves := serviceRxfifo_moves bytesInFifo state.bytesLeft
  unfold rxRound
  by_cases done : state.bytesLeft = 0
  · rw [done] at moves
    rw [if_pos done, done, moves.none]
    exact received
  have whole := received.front.whole done
  have behind : (fun i => streamByte words (state.rx.popped * 4 + i)) =
      fun i => streamByte words (start.popped * 4 + (moved + i)) := by
    funext i
    rw [received.popped]
    congr 1
    omega
  rw [if_neg done, drvQspiServiceRxfifo_eq]
  refine ⟨received.front.round moves, ?_, ?_⟩
  · dsimp only
    rw [behind, received.memory, received.front.place, Mem.overlay_append start.memory buffer moved
      _ fun i => streamByte words (start.popped * 4 + i)]
  · dsimp only
    rw [received.popped]
    omega

/-- One more poll takes a part of what the polls before it have left. -/
theorem taken_succ (bytesInFifo : Nat → UInt8) (polls poll bytesLeft : Nat) :
    taken bytesInFifo (polls + 1) poll bytesLeft =
      taken bytesInFifo polls poll bytesLeft +
        serviceRxfifo (bytesInFifo (poll + polls))
          (bytesLeft - taken bytesInFifo polls poll bytesLeft) := by
  induction polls generalizing poll bytesLeft with
  | zero => rw [taken, taken, taken, Nat.add_zero, Nat.zero_add, Nat.sub_zero, Nat.add_zero]
  | succ polls ih =>
      have next : poll + 1 + polls = poll + (polls + 1) := by omega
      rw [taken, ih, taken, next, Nat.add_assoc, Nat.sub_sub]

/-- The rounds of a read have received what their polls have taken. -/
theorem rxRounds_received (words : Nat → UInt32) (bytesInFifo : Nat → UInt8)
    (buffer numBytes : Nat) (start : RxFifo) (rounds : Nat) :
    Received words buffer numBytes start
      (rxRounds words bytesInFifo ⟨buffer, numBytes, start⟩ rounds)
      (taken bytesInFifo rounds 0 numBytes) := by
  induction rounds with
  | zero =>
      rw [taken]
      refine ⟨Front.start buffer numBytes, ?_, rfl⟩
      rw [Mem.overlay_zero]
      rfl
  | succ rounds ih =>
      have next := ih.round (bytesInFifo rounds)
      rw [ih.front.left] at next
      rw [taken_succ, Nat.zero_add]
      exact next

/-- The polling loop word by word stores what the loop over blocks of bytes stores. -/
theorem drvQspiPioRead_memory (words : Nat → UInt32) (bytesInFifo : Nat → UInt8)
    (buffer numBytes : Nat) (start : RxFifo) :
    (drvQspiPioRead words bytesInFifo buffer numBytes start).rx.memory =
      (pioReadLoop (streamByte words) bytesInFifo maxReadWait 0 buffer numBytes start.memory
        (start.popped * 4)).1 := by
  unfold drvQspiPioRead
  generalize maxReadWait = polls
  rw [pioReadLoop_eq]
  exact (rxRounds_received words bytesInFifo buffer numBytes start polls).memory

/-- The rounds of a write so far: the bytes of the front part of the buffer have been sent. -/
structure Sent (memory : Nat → UInt8) (buffer numBytes : Nat) (before : List UInt8)
    (state : TxState) (moved : Nat) : Prop where
  front : Front buffer numBytes state.ptr state.bytesLeft moved
  sent : state.sent = before ++ bytesAt memory buffer moved

/-- A round of a write sends the next bytes of the buffer. -/
theorem Sent.round {memory : Nat → UInt8} {buffer numBytes : Nat} {before : List UInt8}
    {state : TxState} {moved : Nat} (sent : Sent memory buffer numBytes before state moved)
    (roomInBytes : UInt32) :
    Sent memory buffer numBytes before (txRound memory roomInBytes state)
      (moved + serviceTxfifo roomInBytes state.bytesLeft) := by
  have moves := serviceTxfifo_moves roomInBytes state.bytesLeft
  unfold txRound
  by_cases done : state.bytesLeft = 0
  · rw [done] at moves
    rw [if_pos done, done, moves.none]
    exact sent
  rw [if_neg done, drvQspiServiceTxfifo_eq]
  refine ⟨sent.front.round moves, ?_⟩
  dsimp only
  rw [sent.sent, sent.front.place, List.append_assoc, ← bytesAt_add]

/-- The number of bytes that some rounds of a write give to the TX FIFO. -/
def given (roomInBytes : Nat → UInt32) (numBytes : Nat) : Nat → Nat
  | 0 => 0
  | round + 1 =>
      let before := given roomInBytes numBytes round
      before + serviceTxfifo (roomInBytes round) (numBytes - before)

/-- The rounds of a write have sent what they have given to the FIFO. -/
theorem txRounds_sent (memory : Nat → UInt8) (roomInBytes : Nat → UInt32) (buffer numBytes : Nat)
    (before : List UInt8) (rounds : Nat) :
    Sent memory buffer numBytes before
      (txRounds memory roomInBytes ⟨buffer, numBytes, before⟩ rounds)
      (given roomInBytes numBytes rounds) := by
  induction rounds with
  | zero =>
      refine ⟨Front.start buffer numBytes, ?_⟩
      simp [txRounds, given, bytesAt]
  | succ rounds ih =>
      have next := ih.round (roomInBytes rounds)
      rw [ih.front.left] at next
      exact next

/-- A write ends with the buffer sent as soon as its rounds have given all bytes to the FIFO. -/
theorem drvQspiPioWrite_eq (memory : Nat → UInt8) (roomInBytes : Nat → UInt32)
    (buffer numBytes rounds : Nat) (before : List UInt8) :
    drvQspiPioWrite memory roomInBytes buffer numBytes rounds before =
      if given roomInBytes numBytes rounds = numBytes then
        some (before ++ bytesAt memory buffer numBytes)
      else none := by
  have sent := txRounds_sent memory roomInBytes buffer numBytes before rounds
  have total := sent.front.total
  unfold drvQspiPioWrite
  dsimp only
  by_cases all : given roomInBytes numBytes rounds = numBytes
  · have done : (txRounds memory roomInBytes ⟨buffer, numBytes, before⟩ rounds).bytesLeft = 0 := by
      omega
    rw [if_pos done, if_pos all, sent.sent, all]
  · have more : (txRounds memory roomInBytes ⟨buffer, numBytes, before⟩ rounds).bytesLeft ≠ 0 := by
      omega
    rw [if_neg more, if_neg all]

theorem given_le (roomInBytes : Nat → UInt32) (numBytes rounds : Nat) :
    given roomInBytes numBytes rounds ≤ numBytes := by
  induction rounds with
  | zero => exact Nat.zero_le _
  | succ rounds ih =>
      have left := (serviceTxfifo_moves (roomInBytes rounds)
        (numBytes - given roomInBytes numBytes rounds)).left
      rw [given]
      omega

theorem given_mono (roomInBytes : Nat → UInt32) (numBytes : Nat) :
    Monotone (given roomInBytes numBytes) :=
  monotone_nat_of_le_succ fun _ => Nat.le_add_right _ _

/-- Again and again there comes a round with room for a word. -/
def RoomKeepsComing (roomInBytes : Nat → UInt32) : Prop :=
  ∀ round, ∃ later, round ≤ later ∧ 4 ≤ (roomInBytes later).toNat

/-- When room keeps coming, any number of bytes up to all of them is given at some time: the next
round with room gives the FIFO at least one more. -/
theorem given_reaches {roomInBytes : Nat → UInt32} (coming : RoomKeepsComing roomInBytes)
    {numBytes count : Nat} (part : count ≤ numBytes) :
    ∃ rounds, count ≤ given roomInBytes numBytes rounds := by
  induction count with
  | zero => exact ⟨0, Nat.zero_le _⟩
  | succ count ih =>
      obtain ⟨rounds, reached⟩ := ih (Nat.le_of_succ_le part)
      obtain ⟨later, after, room⟩ := coming rounds
      have kept := given_mono roomInBytes numBytes after
      refine ⟨later + 1, ?_⟩
      rw [given]
      by_cases all : numBytes - given roomInBytes numBytes later = 0
      · omega
      · have more := serviceTxfifo_pos room all
        omega

/-- When room keeps coming, a write ends, with the buffer sent. -/
theorem drvQspiPioWrite_ends {roomInBytes : Nat → UInt32} (coming : RoomKeepsComing roomInBytes)
    (memory : Nat → UInt8) (buffer numBytes : Nat) (before : List UInt8) :
    ∃ rounds, drvQspiPioWrite memory roomInBytes buffer numBytes rounds before =
      some (before ++ bytesAt memory buffer numBytes) := by
  obtain ⟨rounds, reached⟩ := given_reaches coming (Nat.le_refl numBytes)
  have all := Nat.le_antisymm (given_le roomInBytes numBytes rounds) reached
  exact ⟨rounds, by rw [drvQspiPioWrite_eq, if_pos all]⟩

/-- After any rounds of a read or a write, whatever the FIFO shows in each, the front part of the
buffer that these rounds count holds the bytes of the stream or has been sent, byte for byte and
with no other effect; the pointer is at a word if the buffer is and bytes are left; and the next
round moves a part of a word only with all bytes that are left.  So it is where the loops end: that
of a read with what its polls have taken, that of a write at the end of the buffer, which it reaches
when room keeps coming. -/
theorem pio_transfers_in_order (buffer numBytes rounds : Nat) :
    (∀ words bytesInFifo start,
      let moved := taken bytesInFifo rounds 0 numBytes
      let state := rxRounds words bytesInFifo ⟨buffer, numBytes, start⟩ rounds
      let count := serviceRxfifo (bytesInFifo rounds) state.bytesLeft
      Received words buffer numBytes start state moved ∧
        (buffer % 4 = 0 → state.bytesLeft ≠ 0 → state.ptr % 4 = 0) ∧
        Moves (bytesInFifo rounds).toNat state.bytesLeft count ∧
        Received words buffer numBytes start (rxRound words (bytesInFifo rounds) state)
          (moved + count)) ∧
      (∀ memory roomInBytes before,
        let moved := given roomInBytes numBytes rounds
        let state := txRounds memory roomInBytes ⟨buffer, numBytes, before⟩ rounds
        let count := serviceTxfifo (roomInBytes rounds) state.bytesLeft
        Sent memory buffer numBytes before state moved ∧
          (buffer % 4 = 0 → state.bytesLeft ≠ 0 → state.ptr % 4 = 0) ∧
          Moves (roomInBytes rounds).toNat state.bytesLeft count ∧
          Sent memory buffer numBytes before (txRound memory (roomInBytes rounds) state)
            (moved + count)) ∧
      (∀ words bytesInFifo start, Received words buffer numBytes start
        (drvQspiPioRead words bytesInFifo buffer numBytes start)
        (taken bytesInFifo maxReadWait 0 numBytes)) ∧
      (∀ memory roomInBytes before,
        drvQspiPioWrite memory roomInBytes buffer numBytes rounds before =
          if given roomInBytes numBytes rounds = numBytes then
            some (before ++ bytesAt memory buffer numBytes)
          else none) ∧
      ∀ memory roomInBytes before, RoomKeepsComing roomInBytes →
        ∃ last, drvQspiPioWrite memory roomInBytes buffer numBytes last before =
          some (before ++ bytesAt memory buffer numBytes) := by
  refine ⟨?_, ?_, ?_, ?_, ?_⟩
  · intro words bytesInFifo start
    have received := rxRounds_received words bytesInFifo buffer numBytes start rounds
    exact ⟨received, received.front.aligned, serviceRxfifo_moves _ _,
      received.round (bytesInFifo rounds)⟩
  · intro memory roomInBytes before
    have sent := txRounds_sent memory roomInBytes buffer numBytes before rounds
    exact ⟨sent, sent.front.aligned, serviceTxfifo_moves _ _, sent.round (roomInBytes rounds)⟩
  · intro words bytesInFifo start
    exact rxRounds_received words bytesInFifo buffer numBytes start maxReadWait
  · intro memory roomInBytes before
    exact drvQspiPioWrite_eq memory roomInBytes buffer numBytes rounds before
  · intro memory roomInBytes before coming
    exact drvQspiPioWrite_ends coming memory buffer numBytes before

/-- FIFO levels, or room, of 0, 5, 2 and 3 bytes, over and over. -/
def levels (round : Nat) : Nat := [0, 5, 2, 3].getD (round % 4) 0

/-- Seven bytes are moved by nothing, a word, nothing, and then the three bytes that are left. -/
theorem pio_transfers_in_order_levels :
    (let words := fun number => UInt32.ofNat (0x04030201 + 0x04040404 * number)
      let held := fun round => UInt8.ofNat (levels round)
      let start := ⟨fun _ => 0xFF, 0⟩
      let state := rxRounds words held ⟨0x100, 7, start⟩ 2
      state.bytesLeft = 3 ∧ state.ptr % 4 = 0 ∧
        Received words 0x100 7 start (drvQspiPioRead words held 0x100 7 start) 7) ∧
      let room := fun round => UInt32.ofNat (levels round)
      drvQspiPioWrite UInt8.ofNat room 0x101 7 3 [] = none ∧
        drvQspiPioWrite UInt8.ofNat room 0x101 7 4 [] = some [1, 2, 3, 4, 5, 6, 7] ∧
        ∃ last, drvQspiPioWrite UInt8.ofNat room 0x101 70 last [] =
          some (bytesAt UInt8.ofNat 0x101 70) := by
  have three := (pio_transfers_in_order 0x101 7 3).2.2.2.1 UInt8.ofNat
    (fun round => UInt32.ofNat (levels round)) []
  have four := (pio_transfers_in_order 0x101 7 4).2.2.2.1 UInt8.ofNat
    (fun round => UInt32.ofNat (levels round)) []
  have coming : RoomKeepsComing fun round => UInt32.ofNat (levels round) := by
    intro round
    refine ⟨4 * round + 1, by omega, ?_⟩
    have place : (4 * round + 1) % 4 = 1 := by omega
    have room : levels (4 * round + 1) = 5 := by
      unfold levels
      rw [place]
      rfl
    beta_reduce
    rw [room]
    decide
  have polled (polls : Nat) :
      taken (fun round => UInt8.ofNat (levels round)) (polls + 4) 0 7 = 7 := by
    rw [taken, taken, taken, taken_at_once polls (by decide)]
    decide
  refine ⟨⟨by decide, ?_, ?_⟩, three.trans (by decide), four.trans (by decide), ?_⟩
  · exact ((pio_transfers_in_order 0x100 7 2).1 _ _ _).2.1 (by decide) (by decide)
  · have received := (pio_transfers_in_order 0x100 7 0).2.2.1
      (fun number => UInt32.ofNat (0x04030201 + 0x04040404 * number))
      (fun round => UInt8.ofNat (levels round)) ⟨fun _ => 0xFF, 0⟩
    have all : taken (fun round => UInt8.ofNat (levels round)) maxReadWait 0 7 = 7 :=
      polled (maxReadWait - 4)
    rwa [all] at received
  · exact (pio_transfers_in_order 0x101 70 0).2.2.2.2 _ _ [] coming

end QHal.Qspi
