/-
Module: QHal.Qspi.PioFifo
Purpose: The transfers of the QSPI driver over its FIFOs, word by word: the two service functions
  and the polling loops of drv_qspi_pio_read and drv_qspi_pio_write, hal/hal/src/ferm_qspi.c.
Trusted boundary: a read of any register of the RX FIFO takes the next word out of it; memory is
  little endian.  The configuration registers and the wait for the end of a write move no byte.
Main exports: RxState, drvQspiServiceRxfifo, drvQspiPioRead, TxState, drvQspiServiceTxfifo,
  drvQspiPioWrite
-/
import QHal.Lib.Bytes
import QHal.Qspi.FermQspi

namespace QHal.Qspi

/-- A byte of a word, the lowest first. -/
def wordByte (word : UInt32) (i : Nat) : UInt8 := (word >>> UInt32.ofNat (i * 8)).toUInt8

/-- `*(uint32_t *)ptr = word_value`. -/
def storeWord (memory : Nat → UInt8) (ptr : Nat) (word : UInt32) : Nat → UInt8 :=
  Mem.overlay memory ptr 4 (wordByte word)

/-- `*(uint32_t *)ptr`. -/
def loadWord (memory : Nat → UInt8) (ptr : Nat) : UInt32 :=
  UInt32.ofNat (Bytes.toNat (bytesAt memory ptr 4))

/-! ## Reading -/

/-- The memory, and how many words have been taken out of the RX FIFO. -/
structure RxFifo where
  memory : Nat → UInt8
  popped : Nat

section

-- The words that come out of the RX FIFO, one after the other.
variable (words : Nat → UInt32)

/-- The loop over the full words. -/
def rxWords : Nat → Nat → RxFifo → RxFifo
  | 0, _, rx => rx
  | count + 1, ptr, rx =>
      rxWords count (ptr + 4) ⟨storeWord rx.memory ptr (words rx.popped), rx.popped + 1⟩

/-- The last word, of which only some bytes are stored. -/
def rxBytes (count ptr : Nat) (rx : RxFifo) : RxFifo :=
  if count = 0 then rx
  else
    ⟨(List.range count).foldl
      (fun memory i => Function.update memory (ptr + i) (wordByte (words rx.popped) i)) rx.memory,
      rx.popped + 1⟩

/-- `drv_qspi_service_rxfifo`: the number of bytes read, and what is read. -/
def drvQspiServiceRxfifo (bytesInFifo : UInt8) (ptr numBytes : Nat) (rx : RxFifo) :
    Nat × RxFifo :=
  let fullWords := numBytes / 4
  let partialBytes := numBytes % 4
  let wordsInFifo := bytesInFifo.toNat / 4
  let wordsToRead := if wordsInFifo < fullWords then wordsInFifo else fullWords
  let bytesToRead := if bytesInFifo.toNat < numBytes then 0 else partialBytes
  let rx := rxWords words wordsToRead ptr rx
  (wordsToRead * 4 + bytesToRead, rxBytes words bytesToRead (ptr + wordsToRead * 4) rx)

/-- The variables of `drv_qspi_pio_read`. -/
structure RxState where
  ptr : Nat
  bytesLeft : Nat
  rx : RxFifo

/-- A round of the loop of `drv_qspi_pio_read`, in which the FIFO shows a number of bytes. -/
def rxRound (bytesInFifo : UInt8) (state : RxState) : RxState :=
  if state.bytesLeft = 0 then state
  else
    let (bytesRead, rx) :=
      drvQspiServiceRxfifo words bytesInFifo state.ptr state.bytesLeft state.rx
    ⟨state.ptr + bytesRead, state.bytesLeft - bytesRead, rx⟩

/-- The first rounds of the loop; without bytes left there are no more. -/
def rxRounds (bytesInFifo : Nat → UInt8) (start : RxState) : Nat → RxState
  | 0 => start
  | round + 1 => rxRound words (bytesInFifo round) (rxRounds bytesInFifo start round)

/-- `drv_qspi_pio_read`. -/
def drvQspiPioRead (bytesInFifo : Nat → UInt8) (buffer numBytes : Nat) (rx : RxFifo) : RxState :=
  rxRounds words bytesInFifo ⟨buffer, numBytes, rx⟩ maxReadWait

end

/-! ## Writing -/

section

-- The memory, which a write only reads.
variable (memory : Nat → UInt8)

/-- The loop over the full words, `hal_qspi_pio_write_4bytes`. -/
def txWords : Nat → Nat → List UInt8 → List UInt8
  | 0, _, sent => sent
  | count + 1, ptr, sent =>
      txWords count (ptr + 4) (sent ++ (List.range 4).map (wordByte (loadWord memory ptr)))

/-- The loop over the last bytes, `hal_qspi_pio_write_1bytes`. -/
def txBytes : Nat → Nat → List UInt8 → List UInt8
  | 0, _, sent => sent
  | count + 1, ptr, sent => txBytes count (ptr + 1) (sent ++ [memory ptr])

/-- `drv_qspi_service_txfifo`: the number of bytes written, and the bytes sent so far. -/
def drvQspiServiceTxfifo (roomInBytes : UInt32) (ptr numBytes : Nat) (sent : List UInt8) :
    Nat × List UInt8 :=
  let fullWords := numBytes / 4
  let partialBytes := numBytes % 4
  let roomInWords := roomInBytes.toNat / 4
  let wordsToSend := if fullWords > roomInWords then roomInWords else fullWords
  let bytesToSend := if numBytes > roomInBytes.toNat then 0 else partialBytes
  let sent := txWords memory wordsToSend ptr sent
  (wordsToSend * 4 + bytesToSend, txBytes memory bytesToSend (ptr + wordsToSend * 4) sent)

/-- The variables of `drv_qspi_pio_write`, and the bytes sent so far. -/
structure TxState where
  ptr : Nat
  bytesLeft : Nat
  sent : List UInt8

/-- A round of the loop of `drv_qspi_pio_write`, in which the FIFO has some room. -/
def txRound (roomInBytes : UInt32) (state : TxState) : TxState :=
  if state.bytesLeft = 0 then state
  else
    let (bytesWritten, sent) :=
      drvQspiServiceTxfifo memory roomInBytes state.ptr state.bytesLeft state.sent
    ⟨state.ptr + bytesWritten, state.bytesLeft - bytesWritten, sent⟩

/-- The first rounds of the loop, which goes on as long as bytes are left. -/
def txRounds (roomInBytes : Nat → UInt32) (start : TxState) : Nat → TxState
  | 0 => start
  | round + 1 => txRound memory (roomInBytes round) (txRounds roomInBytes start round)

/-- `drv_qspi_pio_write`, if the loop has ended within some rounds. -/
def drvQspiPioWrite (roomInBytes : Nat → UInt32) (buffer numBytes rounds : Nat)
    (sent : List UInt8) : Option (List UInt8) :=
  let state := txRounds memory roomInBytes ⟨buffer, numBytes, sent⟩ rounds
  if state.bytesLeft = 0 then some state.sent else none

end

end QHal.Qspi
