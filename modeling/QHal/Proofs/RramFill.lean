/-
Module: QHal.Proofs.RramFill
Purpose: The fill of the boot loader and the erase of the NVM programmer set just the bytes of
  their range, and the erase leaves the area of the boot ROM patches.
Trusted boundary: none
Main exports: InRram, PageBuffer, setLoop_wrote, rramMemsetDxe_wrote, rramErase_agrees,
  rram_fills_exactly
-/
import QHal.Proofs.RramWriters

namespace QHal.RramDriver

open Boot (BlError DxeMachine blErrNone rramLine rramStart rramEnd pieceLength rramSetBufferSize
  setLoop Wrote and_line and_line_eq_zero)

/-- The addresses of the RRAM. -/
def InRram (address : UInt32) : Prop := rramStart ≤ address ∧ address ≤ rramEnd

instance (address : UInt32) : Decidable (InRram address) :=
  inferInstanceAs (Decidable (_ ∧ _))

/-- Where the linker has put `set_buffer` or `erase_buffer`: not into the RRAM. -/
structure PageBuffer where
  address : UInt32
  outside : ∀ i < 4096, ¬ InRram (address + UInt32.ofNat i)

/-- The buffer is full of one byte. -/
def PageBuffer.Full (buffer : PageBuffer) (machine : DxeMachine) (byte : UInt8) : Prop :=
  ∀ i < 4096, machine.memory.cells buffer.address i = byte

variable {machine : DxeMachine} {buffer : PageBuffer} {byte : UInt8} {dst length : UInt32}

/-! ## The buffer -/

/-- A range of the RRAM in numbers. -/
theorem inRram_of_inRange {count : Nat} {address : UInt32} (above : rramStart ≤ dst)
    (below : dst.toNat + count ≤ 0x380000) (inside : Mem.InRange dst count address) :
    InRram address := by
  have low := UInt32.le_iff_toNat_le.mp above
  have last : rramEnd.toNat = 0x37FFFF := rfl
  rw [Mem.inRange_iff (by omega)] at inside
  exact ⟨UInt32.le_iff_toNat_le.mpr (by omega), UInt32.le_iff_toNat_le.mpr (by omega)⟩

theorem PageBuffer.apart (buffer : PageBuffer) {count : Nat} (above : rramStart ≤ dst)
    (below : dst.toNat + count ≤ 0x380000) (short : count ≤ 4096) :
    Mem.Apart dst buffer.address count := fun i inside reached =>
  buffer.outside i (by omega) (inRram_of_inRange above below reached)

/-- A write to the RRAM leaves the buffer. -/
theorem PageBuffer.Full.wrote {after : DxeMachine} {count : Nat} {data : Nat → UInt8}
    (full : buffer.Full machine byte) (above : rramStart ≤ dst)
    (below : dst.toNat + count ≤ 0x380000)
    (wrote : Wrote machine dst count data (blErrNone, after)) : buffer.Full after byte := by
  obtain ⟨blocks, -, result⟩ := wrote
  obtain rfl := (Prod.mk.inj result).2
  intro i inside
  refine (Mem.write_miss ?_).trans (full i inside)
  exact fun reached => buffer.outside i inside (inRram_of_inRange above below reached)

/-- Filling the buffer leaves the RRAM. -/
theorem PageBuffer.fill_rram (buffer : PageBuffer) (memory : Mem UInt8) {cell : UInt32}
    (inside : InRram cell) :
    memory.write buffer.address 4096 (fun _ => byte) cell = memory cell := by
  refine Mem.write_miss fun reached => ?_
  refine buffer.outside (cell - buffer.address).toNat reached ?_
  rwa [UInt32.ofNat_toNat, UInt32.add_comm, UInt32.sub_add_cancel]

theorem PageBuffer.fill_full (buffer : PageBuffer) (machine : DxeMachine) (byte : UInt8) :
    buffer.Full { machine with
      memory := machine.memory.write buffer.address 4096 fun _ => byte } byte := by
  intro i inside
  show machine.memory.write buffer.address 4096 (fun _ => byte)
    (buffer.address + UInt32.ofNat i) = _
  rw [Mem.write_hit (Mem.inRange_add inside (by omega))]

/-! ## The loop -/

theorem pieceLength_toNat (limit length : UInt32) :
    (pieceLength limit length).toNat = min limit.toNat length.toNat := by
  unfold pieceLength
  split
  case isTrue fits =>
    have bound := UInt32.le_iff_toNat_le.mp fits
    omega
  case isFalse short =>
    have bound := UInt32.lt_iff_toNat_lt.mp (UInt32.not_le.mp short)
    omega

theorem mod_four_eq_zero (start : dst.toNat % 4 = 0) : dst % 4 = 0 := by
  apply UInt32.toNat_inj.mp
  rw [UInt32.toNat_mod]
  exact start

/-- A piece of the buffer is written by the general writer. -/
theorem piece_wrote (full : buffer.Full machine byte) (count : UInt32)
    (start : dst.toNat % 16 = 0) (above : rramStart ≤ dst)
    (below : dst.toNat + count.toNat ≤ 0x380000) (nonempty : count ≠ 0)
    (short : count.toNat ≤ 4096) :
    Boot.rramVerifyAddress dst count = blErrNone ∧
      Wrote machine dst count.toNat (fun _ => byte)
        (Boot.rramWriteDxe machine dst buffer.address count) := by
  have last : rramEnd.toNat = 0x37FFFF := rfl
  have positive := Boot.toNat_pos nonempty
  have accepted : Boot.rramVerifyAddress dst count = blErrNone :=
    Boot.rramVerifyAddress_accepts.mpr
      ⟨above, UInt32.le_iff_toNat_le.mpr (by omega), mod_four_eq_zero (by omega), by omega⟩
  refine ⟨accepted, ?_⟩
  apply (Boot.rramWriteDxe_wrote accepted (buffer.apart above below short)).congr
  intro i inside
  exact full i (by omega)

/-- The loop of the fill sets what is left of the range, and the loop of the erase does the
same. -/
theorem setLoop_wrote (full : buffer.Full machine byte) (start : dst.toNat % 16 = 0)
    (above : rramStart ≤ dst) (below : dst.toNat + length.toNat ≤ 0x380000) :
    Wrote machine dst length.toNat (fun _ => byte)
        (setLoop buffer.address (blErrNone, machine) dst length) ∧
      Agrees (eraseLoop buffer.address (0, machine) dst length)
        (setLoop buffer.address (blErrNone, machine) dst length) := by
  induction count : length.toNat using Nat.strongRecOn generalizing machine dst length with
  | ind total ih =>
  subst count
  by_cases none : length = 0
  · rw [setLoop, dif_neg (fun more => more.2 none), eraseLoop, dif_neg (fun more => more.2 none),
      none]
    exact ⟨Wrote.nothing, machine, rfl, rfl⟩
  · rw [setLoop, dif_pos ⟨rfl, none⟩, eraseLoop, dif_pos ⟨rfl, none⟩]
    have size := pieceLength_toNat rramSetBufferSize length
    have page : rramSetBufferSize.toNat = 4096 := rfl
    have shorter := Boot.pieceLength_rest (show rramSetBufferSize ≠ 0 by decide) none
    have rest : (length - pieceLength rramSetBufferSize length).toNat =
        length.toNat - (pieceLength rramSetBufferSize length).toNat :=
      UInt32.toNat_sub_of_le _ _ (UInt32.le_iff_toNat_le.mpr (by omega))
    have positive := Boot.toNat_pos none
    rw [show pieceLength rramEraseBufferSize length = pieceLength rramSetBufferSize length from rfl]
    dsimp only
    generalize pieceLength rramSetBufferSize length = piece at *
    obtain ⟨accepted, front⟩ := piece_wrote full piece start above (by omega)
      (fun zero => by rw [zero, UInt32.toNat_zero] at size; omega) (by omega)
    obtain ⟨middle, nvm, dxe⟩ := @rramWrite_agrees machine dst buffer.address piece accepted
    rw [dxe] at front ⊢
    rw [nvm]
    dsimp only
    rw [if_neg (not_not.mpr rfl), if_neg (not_not.mpr (show blErrNone = 0 from rfl))]
    have next := @Boot.toNat_add_of_lt dst piece.toNat (by omega)
    rw [UInt32.ofNat_toNat] at next
    by_cases last : length.toNat ≤ piece.toNat
    · -- The piece is the whole rest, whatever its end.
      have empty : length - piece = 0 :=
        UInt32.toNat_inj.mp (by rw [rest, UInt32.toNat_zero]; omega)
      rw [empty, setLoop, dif_neg (fun more => more.2 rfl), eraseLoop,
        dif_neg (fun more => more.2 rfl), show length.toNat = piece.toNat by omega]
      exact ⟨front, middle, rfl, rfl⟩
    · obtain ⟨back, agrees⟩ := ih _ shorter (full.wrote above (by omega) front)
        (show (dst + piece).toNat % 16 = 0 by omega)
        (UInt32.le_iff_toNat_le.mpr (by have low := UInt32.le_iff_toNat_le.mp above; omega))
        (by omega) rfl
      refine ⟨?_, agrees⟩
      have whole : length.toNat = piece.toNat + (length - piece).toNat := by omega
      rw [whole]
      refine front.append ?_ (by omega)
      rwa [UInt32.ofNat_toNat]

/-! ## The fill and the erase -/

/-- The machine with the buffer full. -/
def PageBuffer.fill (buffer : PageBuffer) (machine : DxeMachine) (byte : UInt8) : DxeMachine :=
  { machine with memory := machine.memory.write buffer.address 4096 fun _ => byte }

/-- The first line of a fill is written up to its end, or to that of the range. -/
theorem first_line (full : buffer.Full machine byte) (above : rramStart ≤ dst)
    (below : dst.toNat < 0x380000) :
    (Boot.rramWriteUnalignedDxe machine dst (machine.memory.cells buffer.address)
        (pieceLength rramLine length)).2.toNat = min (16 - dst.toNat % 16) length.toNat ∧
      Wrote machine dst (min (16 - dst.toNat % 16) length.toNat) (fun _ => byte)
        (Boot.rramWriteUnalignedDxe machine dst (machine.memory.cells buffer.address)
          (pieceLength rramLine length)).1 := by
  have line : rramLine.toNat = 16 := rfl
  obtain ⟨count, wrote⟩ := @Boot.rramWriteUnalignedDxe_wrote machine dst
    (pieceLength rramLine length) (machine.memory.cells buffer.address) above below
  rw [pieceLength_toNat, line, show min (16 - dst.toNat % 16) (min 16 length.toNat) =
    min (16 - dst.toNat % 16) length.toNat by omega] at count wrote
  refine ⟨count, wrote.congr fun i inside => ?_⟩
  exact full i (by omega)

/-- Behind the first line the two go on alike, unless the range ends in it. -/
theorem unaligned_wrote (full : buffer.Full machine byte) (above : rramStart ≤ dst)
    (low : dst.toNat < 0x380000) (below : dst.toNat + length.toNat ≤ 0x380000) :
    ∃ after count,
      Boot.rramWriteUnalignedDxe machine dst (machine.memory.cells buffer.address)
          (pieceLength rramLine length) = ((blErrNone, after), count) ∧
        rramWriteUnaligned machine dst (machine.memory.cells buffer.address)
          (pieceLength rramLine length) = some ((0, after), count) ∧
        Wrote machine dst length.toNat (fun _ => byte)
          (if length ≤ count then (blErrNone, after)
          else setLoop buffer.address (blErrNone, after) (dst + count) (length - count)) ∧
        Agrees (eraseLoop buffer.address (0, after) (dst + count) (length - count))
          (if length ≤ count then (blErrNone, after)
          else setLoop buffer.address (blErrNone, after) (dst + count) (length - count)) := by
  obtain ⟨size, wrote⟩ := @first_line machine buffer byte dst length full above low
  obtain ⟨after, nvm, dxe⟩ := rramWriteUnaligned_agrees machine dst
    (machine.memory.cells buffer.address) (pieceLength rramLine length)
  generalize Boot.rramWriteUnalignedDxe machine dst (machine.memory.cells buffer.address)
    (pieceLength rramLine length) = first at *
  obtain ⟨result, count⟩ := first
  obtain rfl : result = (blErrNone, after) := dxe
  dsimp only at size wrote nvm
  rw [← size] at wrote
  refine ⟨after, count, rfl, nvm, ?_⟩
  by_cases last : length ≤ count
  · have lastNat := UInt32.le_iff_toNat_le.mp last
    have same : length = count := UInt32.toNat_inj.mp (by omega)
    rw [if_pos last, same, UInt32.sub_self, eraseLoop, dif_neg (fun more => more.2 rfl)]
    exact ⟨wrote, after, rfl, rfl⟩
  · have more := UInt32.lt_iff_toNat_lt.mp (UInt32.not_le.mp last)
    have rest : (length - count).toNat = length.toNat - count.toNat :=
      UInt32.toNat_sub_of_le _ _ (UInt32.le_of_lt (UInt32.not_le.mp last))
    have next := @Boot.toNat_add_of_lt dst count.toNat (by omega)
    have aboveNat := UInt32.le_iff_toNat_le.mp above
    rw [UInt32.ofNat_toNat] at next
    rw [if_neg last]
    obtain ⟨back, agrees⟩ := setLoop_wrote (full.wrote above (by omega) wrote)
      (show (dst + count).toNat % 16 = 0 by omega) (UInt32.le_iff_toNat_le.mpr (by omega))
      (show (dst + count).toNat + (length - count).toNat ≤ 0x380000 by omega)
    refine ⟨?_, agrees⟩
    rw [show length.toNat = count.toNat + (length - count).toNat by omega]
    refine wrote.append ?_ (by omega)
    rwa [UInt32.ofNat_toNat]

/-- An accepted fill sets its range. -/
theorem rramMemsetDxe_wrote (buffer : PageBuffer) (machine : DxeMachine) (value : Int32)
    {address length : UInt32} (accepted : Boot.rramVerifyAddress address length = blErrNone) :
    Wrote (buffer.fill machine value.toUInt32.toUInt8) address length.toNat
      (fun _ => value.toUInt32.toUInt8)
      (machine.rramMemsetDxe buffer.address address value length) := by
  obtain ⟨above, below, -, fits⟩ := Boot.rramVerifyAddress_accepts.mp accepted
  have last : rramEnd.toNat = 0x37FFFF := rfl
  have belowNat := UInt32.le_iff_toNat_le.mp below
  have full := buffer.fill_full machine value.toUInt32.toUInt8
  rw [DxeMachine.rramMemsetDxe, if_neg (not_not.mpr accepted)]
  by_cases aligned : address &&& (rramLine - 1) = 0
  · rw [if_neg (not_not.mpr aligned), accepted]
    exact (setLoop_wrote full (and_line_eq_zero.mp aligned) above (by omega)).1
  · obtain ⟨after, count, dxe, -, wrote, -⟩ := unaligned_wrote full above (by omega)
      (show address.toNat + length.toNat ≤ 0x380000 by omega)
    rw [if_pos aligned]
    dsimp only
    rw [show rramSetBufferSize.toNat = 4096 from rfl, dxe]
    simp only [ne_eq, not_true_eq_false, false_or]
    exact wrote

/-- The erase of an accepted range is a fill with 0xFF. -/
theorem rramErase_agrees (buffer : PageBuffer) (machine : DxeMachine) {address length : UInt32}
    (accepted : rramVerifyEraseAddress address length = true) :
    Boot.rramVerifyAddress address length = blErrNone ∧
      Agrees (rramErase buffer.address machine address length)
        (machine.rramMemsetDxe buffer.address address 0xFF length) := by
  have first : rramEraseStart.toNat = 0x208000 := rfl
  have last : rramEnd.toNat = 0x37FFFF := rfl
  have verified : Boot.rramVerifyAddress address length = blErrNone := by
    refine (verifyAddress_iff address length).mp ?_
    unfold rramVerifyEraseAddress Nvm.verifyAddress at accepted
    unfold Nvm.nvmRramVerifyAddress Nvm.verifyAddress
    simp only [Bool.and_eq_true, decide_eq_true_eq] at accepted ⊢
    refine ⟨⟨⟨?_, accepted.1.1.2⟩, accepted.1.2⟩, accepted.2⟩
    exact UInt32.le_trans (by decide) accepted.1.1.1
  obtain ⟨above, below, -, fits⟩ := Boot.rramVerifyAddress_accepts.mp verified
  have belowNat := UInt32.le_iff_toNat_le.mp below
  have full := buffer.fill_full machine 0xFF
  refine ⟨verified, ?_⟩
  rw [rramErase, if_pos accepted, DxeMachine.rramMemsetDxe, if_neg (not_not.mpr verified)]
  by_cases aligned : address &&& (rramLine - 1) = 0
  · rw [if_neg (not_not.mpr aligned), if_neg (not_not.mpr aligned), verified]
    exact (setLoop_wrote full (and_line_eq_zero.mp aligned) above (by omega)).2
  · obtain ⟨after, count, dxe, nvm, -, agrees⟩ := unaligned_wrote full above (by omega)
      (show address.toNat + length.toNat ≤ 0x380000 by omega)
    rw [if_pos aligned, if_pos aligned]
    dsimp only
    rw [show rramSetBufferSize.toNat = 4096 from rfl,
      show rramEraseBufferSize.toNat = 4096 from rfl,
      show (0xFF : Int32).toUInt32.toUInt8 = 0xFF by decide, dxe, nvm]
    simp only [Option.bind_eq_bind, Option.bind_some, ne_eq, not_true_eq_false, false_or]
    exact agrees

/-- A write behind the fill of the buffer, as the RRAM sees it. -/
theorem wrote_rram {count : Nat} {status : BlError} {after : DxeMachine}
    (wrote : Wrote (buffer.fill machine byte) dst count (fun _ => byte) (status, after)) :
    status = blErrNone ∧ ∀ cell, InRram cell → after.memory cell =
      if Mem.InRange dst count cell then byte else machine.memory cell := by
  obtain ⟨blocks, -, result⟩ := wrote
  obtain ⟨rfl, rfl⟩ := Prod.mk.inj result
  refine ⟨rfl, fun cell inside => ?_⟩
  refine if_congr Iff.rfl rfl ?_
  exact buffer.fill_rram machine.memory inside

/-- Wherever the buffers are linked: a fill of an accepted range succeeds and sets just its
bytes to the low byte of the value; an erase of an accepted range succeeds and sets just its
bytes to 0xFF; and no erase changes a byte of the RRAM below 0x208000. -/
theorem rram_fills_exactly (buffer : PageBuffer) (machine : DxeMachine) (value : Int32)
    (address length : UInt32) :
    (Boot.rramVerifyAddress address length = blErrNone →
      (machine.rramMemsetDxe buffer.address address value length).1 = blErrNone ∧
        ∀ cell, InRram cell →
          (machine.rramMemsetDxe buffer.address address value length).2.memory cell =
            if Mem.InRange address length.toNat cell then value.toUInt32.toUInt8
            else machine.memory cell) ∧
    (rramVerifyEraseAddress address length = true →
      ∃ after, rramErase buffer.address machine address length = some (0, after) ∧
        ∀ cell, InRram cell →
          after.memory cell =
            if Mem.InRange address length.toNat cell then 0xFF else machine.memory cell) ∧
    ∃ status after, rramErase buffer.address machine address length = some (status, after) ∧
      ∀ cell, InRram cell → cell < 0x208000 → after.memory cell = machine.memory cell := by
  have erases : rramVerifyEraseAddress address length = true →
      ∃ after, rramErase buffer.address machine address length = some (0, after) ∧
        ∀ cell, InRram cell →
          after.memory cell =
            if Mem.InRange address length.toNat cell then 0xFF else machine.memory cell := by
    intro accepted
    obtain ⟨verified, after, nvm, dxe⟩ := rramErase_agrees buffer machine accepted
    have wrote := rramMemsetDxe_wrote buffer machine 0xFF verified
    rw [dxe, show (0xFF : Int32).toUInt32.toUInt8 = 0xFF by decide] at wrote
    exact ⟨after, nvm, (wrote_rram wrote).2⟩
  refine ⟨fun accepted => ?_, erases, ?_⟩
  · exact wrote_rram (rramMemsetDxe_wrote buffer machine value accepted)
  · cases accepted : rramVerifyEraseAddress address length with
    | false =>
        refine ⟨qapiErrBounds, machine, ?_, fun _ _ _ => rfl⟩
        rw [rramErase, if_neg (by rw [accepted]; exact nofun)]
    | true =>
        obtain ⟨after, erased, cells⟩ := erases accepted
        refine ⟨0, after, erased, fun cell inside low => ?_⟩
        have lowNat : cell.toNat < 0x208000 := UInt32.lt_iff_toNat_lt.mp low
        obtain ⟨verified, -⟩ := rramErase_agrees buffer machine accepted
        obtain ⟨-, -, -, fits⟩ := Boot.rramVerifyAddress_accepts.mp verified
        simp only [rramVerifyEraseAddress, Nvm.verifyAddress, Bool.and_eq_true,
          decide_eq_true_eq] at accepted
        have above := UInt32.le_iff_toNat_le.mp accepted.1.1.1
        have first : rramEraseStart.toNat = 0x208000 := rfl
        have last : rramEnd.toNat = 0x37FFFF := rfl
        rw [cells cell inside, if_neg]
        rw [Mem.inRange_iff (by omega)]
        omega

theorem page_below_rram (i : Nat) (inside : i < 4096) : ¬ InRram (0x80000 + UInt32.ofNat i) := by
  intro reached
  have low := UInt32.le_iff_toNat_le.mp reached.1
  have start : rramStart.toNat = 0x200000 := rfl
  have page : (0x80000 : UInt32).toNat = 0x80000 := rfl
  rw [UInt32.toNat_add, UInt32.toNat_ofNat_of_lt' (by rw [UInt32.size]; omega), start, page]
    at low
  omega

/-- A page of the RAM. -/
def ramPage : PageBuffer := ⟨0x80000, page_below_rram⟩

/-- A memory of one byte all over. -/
def plainRram : DxeMachine := ⟨fun _ => 0x33, []⟩

/-- With the buffers in that page, five bytes in the middle of a line are filled, and 20 over the
end of a line erased. -/
theorem rram_fills_exactly_ramPage :
    (∃ after, plainRram.rramMemsetDxe ramPage.address 0x208004 0x1A5 5 = (blErrNone, after) ∧
        after.memory 0x208003 = 0x33 ∧ after.memory 0x208004 = 0xA5 ∧
        after.memory 0x208008 = 0xA5 ∧ after.memory 0x208009 = 0x33) ∧
      ∃ after, rramErase ramPage.address plainRram 0x20800C 20 = some (0, after) ∧
        after.memory 0x20800B = 0x33 ∧ after.memory 0x20801F = 0xFF ∧
        after.memory 0x208020 = 0x33 := by
  obtain ⟨filled, fill⟩ := (rram_fills_exactly ramPage plainRram 0x1A5 0x208004 5).1
    (by decide)
  obtain ⟨after, erased, erase⟩ := (rram_fills_exactly ramPage plainRram 0x1A5 0x20800C 20).2.1
    (by decide)
  refine ⟨⟨_, Prod.ext filled rfl, ?_, ?_, ?_, ?_⟩, after, erased, ?_, ?_, ?_⟩
  · exact (fill _ (by decide)).trans (if_neg (by decide))
  · exact (fill _ (by decide)).trans (if_pos (by decide))
  · exact (fill _ (by decide)).trans (if_pos (by decide))
  · exact (fill _ (by decide)).trans (if_neg (by decide))
  · exact (erase _ (by decide)).trans (if_neg (by decide))
  · exact (erase _ (by decide)).trans (if_pos (by decide))
  · exact (erase _ (by decide)).trans (if_neg (by decide))

end QHal.RramDriver
