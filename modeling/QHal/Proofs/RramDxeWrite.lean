/-
Module: QHal.Proofs.RramDxeWrite
Purpose: The RRAM write of the boot loader is one byte-exact block write.  A
  write is an unaligned first line, a run of full blocks and an unaligned last
  line; each piece writes what it should and hands only sound blocks to the
  engine, and adjacent pieces add up.
Trusted boundary: none
Main exports: DxeBlock.Sound, Wrote, rramWriteDxe_exact
-/
import QHal.Boot.RramDxe
import Mathlib.Tactic.Common
import Mathlib.Tactic.SplitIfs

namespace QHal.Boot

open Mem (Apart InRange overlay)

/-- What the engine accepts and what keeps a transfer inside the RRAM. -/
structure DxeBlock.Sound (block : DxeBlock) : Prop where
  lineStart : block.destination.toNat % 16 = 0
  lines : block.length.toNat % 16 = 0
  short : block.length ≤ rramWriteBlockMaxSize
  above : rramStart ≤ block.destination
  below : block.destination.toNat + block.length.toNat ≤ rramEnd.toNat + 1

/-- `result` is a successful write of `count` bytes to `dst` that handed only
sound blocks to the engine. -/
def Wrote (machine : DxeMachine) (dst : UInt32) (count : Nat) (data : Nat → UInt8)
    (result : BlError × DxeMachine) : Prop :=
  ∃ blocks, (∀ block ∈ blocks, DxeBlock.Sound block) ∧
    result = (blErrNone,
      { memory := machine.memory.write dst count data
        blocks := machine.blocks ++ blocks })

section Words

theorem and_line (x : UInt32) : (x &&& (rramLine - 1)).toNat = x.toNat % 16 := by
  have mask : (rramLine - 1).toNat = 2 ^ 4 - 1 := by decide
  rw [UInt32.toNat_and, mask, Nat.and_two_pow_sub_one_eq_mod]

theorem and_line_eq_zero {x : UInt32} : x &&& (rramLine - 1) = 0 ↔ x.toNat % 16 = 0 := by
  rw [← and_line, ← UInt32.toNat_inj, UInt32.toNat_zero]

theorem toNat_add_of_lt {x : UInt32} {k : Nat} (bound : x.toNat + k < 2 ^ 32) :
    (x + UInt32.ofNat k).toNat = x.toNat + k := by
  have small : k < 2 ^ 32 := Nat.lt_of_le_of_lt (Nat.le_add_left k x.toNat) bound
  rw [UInt32.toNat_add, UInt32.toNat_ofNat', Nat.mod_eq_of_lt small, Nat.mod_eq_of_lt bound]

theorem toNat_pos {x : UInt32} (nonzero : x ≠ 0) : 0 < x.toNat :=
  Nat.pos_of_ne_zero fun zero => nonzero (UInt32.toNat_inj.mp zero)

end Words

section Blocks

variable {machine : DxeMachine} {dst : UInt32} {data : Nat → UInt8}

/-- Nothing was written. -/
theorem Wrote.nothing : Wrote machine dst 0 data (blErrNone, machine) := by
  refine ⟨[], by simp, ?_⟩
  simp

/-- A write followed by one of the bytes right behind it. -/
theorem Wrote.append {first second : Nat} {middle : DxeMachine} {result : BlError × DxeMachine}
    (front : Wrote machine dst first data (blErrNone, middle))
    (back : Wrote middle (dst + UInt32.ofNat first) second (fun i => data (first + i)) result)
    (bound : first + second < 2 ^ 32) : Wrote machine dst (first + second) data result := by
  obtain ⟨frontBlocks, frontSound, frontResult⟩ := front
  obtain ⟨backBlocks, backSound, rfl⟩ := back
  cases frontResult
  refine ⟨frontBlocks ++ backBlocks, ?_, ?_⟩
  · intro block member
    rcases List.mem_append.mp member with early | late
    · exact frontSound block early
    · exact backSound block late
  · have small : first < 2 ^ 32 := Nat.lt_of_le_of_lt (Nat.le_add_right first second) bound
    rw [Mem.write_append _ _ _ _ _ (Nat.le_of_lt bound) small, List.append_assoc]

/-- A write does what its data says inside the range only. -/
theorem Wrote.congr {count : Nat} {data' : Nat → UInt8} {result : BlError × DxeMachine}
    (wrote : Wrote machine dst count data result) (same : ∀ i < count, data i = data' i) :
    Wrote machine dst count data' result := by
  obtain ⟨blocks, sound, rfl⟩ := wrote
  exact ⟨blocks, sound, by rw [Mem.write_congr machine.memory dst same]⟩

theorem Wrote.succeeds {count : Nat} {result : BlError × DxeMachine}
    (wrote : Wrote machine dst count data result) :
    ∃ after, result = (blErrNone, after) := by
  obtain ⟨blocks, _, rfl⟩ := wrote
  exact ⟨_, rfl⟩

/-- Two adjacent pieces of a copy whose source is outside the copied range: the
second piece still finds the source as it was. -/
theorem Wrote.copy_append {pSrc : UInt32} {first second : Nat} {middle : DxeMachine}
    {result : BlError × DxeMachine}
    (front : Wrote machine dst first (machine.memory.cells pSrc) (blErrNone, middle))
    (back : Wrote middle (dst + UInt32.ofNat first) second
      (middle.memory.cells (pSrc + UInt32.ofNat first)) result)
    (apart : Apart dst pSrc (first + second)) (bound : first + second < 2 ^ 32) :
    Wrote machine dst (first + second) (machine.memory.cells pSrc) result := by
  apply front.append _ bound
  apply back.congr
  intro i below
  obtain ⟨blocks, _, frontResult⟩ := front
  cases frontResult
  exact apart.cells_write machine.memory _ below

/-- The block write on whole lines inside the RRAM. -/
theorem rramBlockWriteDxe_wrote {length : UInt32} (source : Nat → UInt8)
    (sound : DxeBlock.Sound ⟨dst, length⟩) :
    Wrote machine dst length.toNat source (rramBlockWriteDxe machine dst source length) := by
  have startOk : ¬ dst &&& (rramLine - 1) ≠ 0 := not_not.mpr (and_line_eq_zero.mpr sound.lineStart)
  have lengthOk : ¬ length &&& (rramLine - 1) ≠ 0 := not_not.mpr (and_line_eq_zero.mpr sound.lines)
  refine ⟨[⟨dst, length⟩], ?_, ?_⟩
  · intro block member
    rwa [List.mem_singleton.mp member]
  · rw [rramBlockWriteDxe, if_neg startOk, if_neg lengthOk]

/-- One line inside the RRAM is a sound block. -/
theorem line_sound {line : UInt32} (start : line.toNat % 16 = 0) (above : rramStart ≤ line)
    (below : line.toNat < rramEnd.toNat + 1) : DxeBlock.Sound ⟨line, rramLine⟩ := by
  have ends : rramEnd.toNat + 1 = 16 * 229376 := by decide
  have width : rramLine.toNat = 16 := by decide
  exact {
    lineStart := start
    lines := congrArg (· % 16) width
    short := show rramLine ≤ rramWriteBlockMaxSize by decide
    above := above
    below := by
      simp only [width]
      omega }

/-- Writing back a line of the RRAM with a part of it replaced. -/
theorem line_wrote {line : UInt32} {offset count : Nat} (sound : DxeBlock.Sound ⟨line, rramLine⟩)
    (inside : offset + count ≤ 16) {buffer : Nat → UInt8}
    (patched : ∀ i < 16, buffer i = overlay (machine.memory.cells line) offset count data i) :
    Wrote machine (line + UInt32.ofNat offset) count data
      (rramBlockWriteDxe machine line buffer rramLine) := by
  have wrote : Wrote machine line 16 buffer (rramBlockWriteDxe machine line buffer rramLine) :=
    rramBlockWriteDxe_wrote buffer sound
  obtain ⟨blocks, blocksSound, result⟩ := wrote.congr patched
  have wide : 16 ≤ 2 ^ 32 := by decide
  have small : offset < 2 ^ 32 := by omega
  refine ⟨blocks, blocksSound, ?_⟩
  rw [result, Mem.write_overlay _ _ _ inside wide small]

end Blocks

section Pieces

variable {machine : DxeMachine}

/-- The copy loop replaces the bytes from `offset` to the end of the line or of
the data, whichever comes first. -/
theorem unalignedLoop_spec (source : Nat → UInt8) :
    ∀ fuel offset bytesWritten length (buffer : Nat → UInt8), 16 ≤ fuel + offset →
      unalignedLoop source fuel offset bytesWritten length buffer =
        (overlay buffer offset (min (16 - offset) length) (fun j => source (bytesWritten + j)),
          bytesWritten + min (16 - offset) length) := by
  intro fuel
  induction fuel with
  | zero =>
      intro offset bytesWritten length buffer enough
      have none : min (16 - offset) length = 0 := by omega
      rw [none, Mem.overlay_zero]
      rfl
  | succ fuel ih =>
      intro offset bytesWritten length buffer enough
      rw [unalignedLoop]
      split_ifs with more
      · have count : min (16 - offset) length =
            min (16 - (offset + 1)) (length - 1) + 1 := by omega
        rw [ih _ _ _ _ (by omega), count, ← Mem.overlay_cons, Nat.add_assoc bytesWritten 1,
          Nat.add_comm 1]
        simp only [Nat.add_assoc, Nat.add_comm 1, Nat.add_zero]
      · have none : min (16 - offset) length = 0 := by omega
        rw [none, Mem.overlay_zero]
        rfl

/-- The unaligned first line. -/
theorem rramWriteUnalignedDxe_wrote {dst length : UInt32} (source : Nat → UInt8)
    (above : rramStart ≤ dst) (below : dst.toNat < rramEnd.toNat + 1) :
    (rramWriteUnalignedDxe machine dst source length).2.toNat =
        min (16 - dst.toNat % 16) length.toNat ∧
      Wrote machine dst (min (16 - dst.toNat % 16) length.toNat) source
        (rramWriteUnalignedDxe machine dst source length).1 := by
  unfold rramWriteUnalignedDxe
  rw [← and_line dst]
  have offset := and_line dst
  generalize dst &&& (rramLine - 1) = low at offset ⊢
  have lineNat : (dst - low).toNat = dst.toNat - low.toNat :=
    UInt32.toNat_sub_of_le dst low (UInt32.le_iff_toNat_le.mpr (by omega))
  have startNat : rramStart.toNat = 16 * 131072 := by decide
  have aboveNat := UInt32.le_iff_toNat_le.mp above
  have sound : DxeBlock.Sound ⟨dst - low, rramLine⟩ := by
    apply line_sound
    · omega
    · rw [UInt32.le_iff_toNat_le]
      omega
    · omega
  have loop := unalignedLoop_spec source 16 low.toNat 0 length.toNat
    (machine.memory.cells (dst - low)) (by omega)
  simp only [loop, Nat.zero_add]
  constructor
  · apply UInt32.toNat_ofNat_of_lt'
    exact Nat.lt_of_le_of_lt (Nat.min_le_right _ _) length.toNat_lt
  · have wrote := @line_wrote machine source (dst - low) low.toNat
      (min (16 - low.toNat) length.toNat) sound (by omega) _ fun i _ => rfl
    rwa [UInt32.ofNat_toNat, UInt32.sub_add_cancel] at wrote

/-- The run of full blocks. -/
theorem fullBlocksLoop_wrote :
    ∀ (blocks : Nat) (machine : DxeMachine) (dst pSrc : UInt32), dst.toNat % 16 = 0 →
      rramStart ≤ dst → dst.toNat + blocks * 0x3FF0 ≤ rramEnd.toNat + 1 →
      Apart dst pSrc (blocks * 0x3FF0) →
      Wrote machine dst (blocks * 0x3FF0) (machine.memory.cells pSrc)
        (fullBlocksLoop blocks machine dst pSrc) := by
  intro blocks
  induction blocks with
  | zero =>
      intro machine dst pSrc _ _ _ _
      rw [Nat.zero_mul]
      exact Wrote.nothing
  | succ blocks ih =>
      intro machine dst pSrc start above below apart
      have ends : rramEnd.toNat + 1 = 0x380000 := by decide
      have blockNat : rramWriteBlockMaxSize.toNat = 0x3FF0 := by decide
      have aboveNat := UInt32.le_iff_toNat_le.mp above
      have next : dst + rramWriteBlockMaxSize = dst + UInt32.ofNat 0x3FF0 := rfl
      have nextNat : (dst + UInt32.ofNat 0x3FF0).toNat = dst.toNat + 0x3FF0 :=
        toNat_add_of_lt (by omega)
      have split : (blocks + 1) * 0x3FF0 = 0x3FF0 + blocks * 0x3FF0 := by omega
      rw [split] at apart ⊢
      have sound : DxeBlock.Sound ⟨dst, rramWriteBlockMaxSize⟩ :=
        { lineStart := start
          lines := by simp only [blockNat]
          short := UInt32.le_refl _
          above := above
          below := by
            simp only [blockNat]
            omega }
      have front : Wrote machine dst 0x3FF0 (machine.memory.cells pSrc)
          (rramBlockWriteDxe machine dst (machine.memory.cells pSrc) rramWriteBlockMaxSize) :=
        rramBlockWriteDxe_wrote _ sound
      obtain ⟨middle, result⟩ := front.succeeds
      rw [result] at front
      have back := ih middle (dst + UInt32.ofNat 0x3FF0) (pSrc + UInt32.ofNat 0x3FF0)
        (by omega) (UInt32.le_iff_toNat_le.mpr (by omega)) (by omega)
        (apart.drop (by omega) (by decide))
      rw [fullBlocksLoop, result]
      exact front.copy_append back apart (by omega)

/-- A last line: its first bytes come from the data, the others from the RRAM behind
them. -/
theorem lastLine_wrote {line unaligned : UInt32} (data : Nat → UInt8)
    (sound : DxeBlock.Sound ⟨line, rramLine⟩) (inside : unaligned.toNat ≤ 16) :
    Wrote machine line unaligned.toNat data
      (rramBlockWriteDxe machine line (fun i =>
        if i < unaligned.toNat then data i
        else machine.memory.cells (line + unaligned) (i - unaligned.toNat)) rramLine) := by
  have here : line + UInt32.ofNat 0 = line := UInt32.add_zero _
  have wrote := @line_wrote machine data line 0 unaligned.toNat sound (by omega)
  rw [here] at wrote
  apply wrote
  intro i _
  simp only [overlay, Nat.zero_le, true_and, Nat.zero_add, Nat.sub_zero]
  by_cases front : i < unaligned.toNat
  · rw [if_pos front, if_pos front]
  · rw [if_neg front, if_neg front]
    have behind : unaligned + UInt32.ofNat (i - unaligned.toNat) = UInt32.ofNat i := by
      rw [← UInt32.ofNat_toNat (x := unaligned), ← UInt32.ofNat_add, UInt32.ofNat_toNat]
      congr 1
      omega
    unfold Mem.cells
    rw [UInt32.add_assoc line, behind]

/-- The lines and the last line of the partial block. -/
theorem partialBlock_wrote {dst pSrc length : UInt32} (start : dst.toNat % 16 = 0)
    (above : rramStart ≤ dst) (below : dst.toNat + length.toNat ≤ rramEnd.toNat + 1)
    (nonempty : length ≠ 0) (short : length ≤ rramWriteBlockMaxSize)
    (apart : Apart dst pSrc length.toNat) :
    Wrote machine dst length.toNat (machine.memory.cells pSrc)
      (partialBlock machine dst pSrc length) := by
  have ends : rramEnd.toNat + 1 = 0x380000 := by decide
  have aboveNat := UInt32.le_iff_toNat_le.mp above
  have shortNat := UInt32.le_iff_toNat_le.mp short
  have positive : 0 < length.toNat := toNat_pos nonempty
  simp only [partialBlock]
  have low := and_line length
  generalize length &&& (rramLine - 1) = unaligned at low ⊢
  have alignedNat : (length - unaligned).toNat = length.toNat - unaligned.toNat :=
    UInt32.toNat_sub_of_le length unaligned (UInt32.le_iff_toNat_le.mpr (by omega))
  generalize length - unaligned = aligned at alignedNat ⊢
  have whole : length.toNat = aligned.toNat + unaligned.toNat := by omega
  rw [whole] at apart ⊢
  have sound : DxeBlock.Sound ⟨dst, aligned⟩ :=
    { lineStart := start
      lines := by simp only; omega
      short := UInt32.le_iff_toNat_le.mpr (by simp only; omega)
      above := above
      below := by simp only; omega }
  have front := @rramBlockWriteDxe_wrote machine dst aligned (machine.memory.cells pSrc) sound
  obtain ⟨middle, result⟩ := front.succeeds
  rw [result] at front ⊢
  simp only [ne_eq, not_true_eq_false, if_false]
  have nextNat : (dst + aligned).toNat = dst.toNat + aligned.toNat := by
    have lift := @toNat_add_of_lt dst aligned.toNat (by omega)
    rwa [UInt32.ofNat_toNat] at lift
  by_cases rest : unaligned = 0
  · rw [if_neg (not_not.mpr rest), rest]
    exact front
  · have positive := toNat_pos rest
    rw [if_pos rest]
    apply front.copy_append _ apart (by omega)
    have lineSound : DxeBlock.Sound ⟨dst + aligned, rramLine⟩ :=
      line_sound (by omega) (UInt32.le_iff_toNat_le.mpr (by omega)) (by omega)
    rw [UInt32.ofNat_toNat]
    exact lastLine_wrote _ lineSound (by omega)

/-- Everything behind the first line. -/
theorem alignedWrite_wrote {dst pSrc length : UInt32} (start : dst.toNat % 16 = 0)
    (above : rramStart ≤ dst) (below : dst.toNat + length.toNat ≤ rramEnd.toNat + 1)
    (apart : Apart dst pSrc length.toNat) :
    Wrote machine dst length.toNat (machine.memory.cells pSrc)
      (alignedWrite machine dst pSrc length) := by
  have ends : rramEnd.toNat + 1 = 0x380000 := by decide
  have aboveNat := UInt32.le_iff_toNat_le.mp above
  have blockNat : rramWriteBlockMaxSize.toNat = 0x3FF0 := by decide
  have fullNat : (length / rramWriteBlockMaxSize).toNat = length.toNat / 0x3FF0 := by
    rw [UInt32.toNat_div, blockNat]
  have restNat : (length % rramWriteBlockMaxSize).toNat = length.toNat % 0x3FF0 := by
    rw [UInt32.toNat_mod, blockNat]
  simp only [alignedWrite]
  generalize length / rramWriteBlockMaxSize = full at fullNat ⊢
  generalize length % rramWriteBlockMaxSize = rest at restNat ⊢
  have whole : length.toNat = full.toNat * 0x3FF0 + rest.toNat := by omega
  rw [whole] at apart ⊢
  have front := fullBlocksLoop_wrote full.toNat machine dst pSrc start above (by omega) apart.take
  obtain ⟨middle, result⟩ := front.succeeds
  rw [result] at front ⊢
  simp only [ne_eq, not_true_eq_false, if_false]
  have advance : full * rramWriteBlockMaxSize = UInt32.ofNat (full.toNat * 0x3FF0) := by
    rw [← blockNat, UInt32.ofNat_mul, UInt32.ofNat_toNat, UInt32.ofNat_toNat]
  have nextNat := @toNat_add_of_lt dst (full.toNat * 0x3FF0) (by omega)
  rw [advance]
  by_cases none : rest = 0
  · rw [if_neg (not_not.mpr none), none, UInt32.toNat_zero, Nat.add_zero]
    exact front
  · rw [if_pos none]
    apply front.copy_append _ apart (by omega)
    apply partialBlock_wrote
    · omega
    · exact UInt32.le_iff_toNat_le.mpr (by omega)
    · omega
    · exact none
    · exact UInt32.le_iff_toNat_le.mpr (by omega)
    · exact apart.drop (by omega) (by omega)

end Pieces

/-- The address check, in numbers. -/
theorem rramVerifyAddress_accepts {address length : UInt32} :
    rramVerifyAddress address length = blErrNone ↔
      rramStart ≤ address ∧ address ≤ rramEnd ∧ address % 4 = 0 ∧
        address.toNat + length.toNat ≤ rramEnd.toNat + 1 := by
  have room : address ≤ rramEnd →
      (length ≤ rramEnd - address + 1 ↔ address.toNat + length.toNat ≤ rramEnd.toNat + 1) := by
    intro below
    have belowNat := UInt32.le_iff_toNat_le.mp below
    have endNat : rramEnd.toNat = 0x37FFFF := by decide
    have left := UInt32.toNat_sub_of_le rramEnd address below
    rw [UInt32.le_iff_toNat_le, UInt32.toNat_add, left, UInt32.toNat_one, endNat]
    omega
  unfold rramVerifyAddress
  split_ifs with valid
  · obtain ⟨above, below, word, fits⟩ := valid
    exact iff_of_true rfl ⟨above, below, word, (room below).mp fits⟩
  · apply iff_of_false (by decide)
    intro ⟨above, below, word, fits⟩
    exact valid ⟨above, below, word, (room below).mpr fits⟩

/-- A write that passes the address check: the first line, then the rest. -/
theorem rramWriteDxe_wrote {machine : DxeMachine} {destination source length : UInt32}
    (accepted : rramVerifyAddress destination length = blErrNone)
    (outside : Apart destination source length.toNat) :
    Wrote machine destination length.toNat (machine.memory.cells source)
      (rramWriteDxe machine destination source length) := by
  obtain ⟨above, below, _, fits⟩ := rramVerifyAddress_accepts.mp accepted
  have ends : rramEnd.toNat + 1 = 0x380000 := by decide
  have belowNat := UInt32.le_iff_toNat_le.mp below
  rw [rramWriteDxe, if_neg (not_not.mpr accepted)]
  by_cases aligned : destination &&& (rramLine - 1) = 0
  · rw [if_neg (not_not.mpr aligned)]
    exact alignedWrite_wrote (and_line_eq_zero.mp aligned) above fits outside
  · rw [if_pos aligned]
    obtain ⟨written, wrote⟩ := @rramWriteUnalignedDxe_wrote machine destination length
      (machine.memory.cells source) above (by omega)
    generalize rramWriteUnalignedDxe machine destination (machine.memory.cells source) length =
      unaligned at written wrote ⊢
    obtain ⟨result, count⟩ := unaligned
    obtain ⟨middle, rfl⟩ := wrote.succeeds
    simp only [ne_eq, not_true_eq_false, false_or] at written wrote ⊢
    rw [← written] at wrote
    by_cases all : length ≤ count
    · have same : length.toNat = count.toNat := by
        have allNat := UInt32.le_iff_toNat_le.mp all
        omega
      rw [if_pos all, same]
      exact wrote
    · rw [if_neg all]
      have more := UInt32.lt_iff_toNat_lt.mp (UInt32.not_le.mp all)
      have restNat : (length - count).toNat = length.toNat - count.toNat :=
        UInt32.toNat_sub_of_le length count (UInt32.le_of_lt (UInt32.not_le.mp all))
      generalize length - count = rest at restNat ⊢
      have whole : length.toNat = count.toNat + rest.toNat := by omega
      have nextNat := @toNat_add_of_lt destination count.toNat (by omega)
      rw [UInt32.ofNat_toNat] at nextNat
      rw [whole] at outside ⊢
      apply wrote.copy_append _ outside (by omega)
      rw [UInt32.ofNat_toNat]
      have startNat := UInt32.le_iff_toNat_le.mp above
      apply alignedWrite_wrote
      · omega
      · exact UInt32.le_iff_toNat_le.mpr (by omega)
      · omega
      · have behind := outside.drop (by omega) (by omega)
        rwa [UInt32.ofNat_toNat] at behind

/-- The RRAM write is the byte update of exactly `[destination, destination +
length)`, it succeeds, and every block it hands to the engine is sound. -/
theorem rramWriteDxe_exact (machine : DxeMachine) {destination source length : UInt32}
    (accepted : rramVerifyAddress destination length = blErrNone)
    (outside : Apart destination source length.toNat) :
    ∃ blocks, (∀ block ∈ blocks, DxeBlock.Sound block) ∧
      rramWriteDxe machine destination source length = (blErrNone,
        { memory := machine.memory.write destination length.toNat (machine.memory.cells source)
          blocks := machine.blocks ++ blocks }) :=
  rramWriteDxe_wrote accepted outside

/-- Eight bytes into the middle of the first line, from a buffer in RAM. -/
theorem rramWriteDxe_exact_in_line :
    (rramVerifyAddress 0x200004 8 = blErrNone ∧ Apart 0x200004 0x80000 (8 : UInt32).toNat) ∧
      ∃ blocks, (∀ block ∈ blocks, DxeBlock.Sound block) ∧
        rramWriteDxe ⟨fun address => address.toUInt8, []⟩ 0x200004 0x80000 8 = (blErrNone,
          { memory := Mem.write (fun address => address.toUInt8) 0x200004 (8 : UInt32).toNat
              (Mem.cells (fun address => address.toUInt8) 0x80000)
            blocks := [] ++ blocks }) := by
  have accepted : rramVerifyAddress 0x200004 8 = blErrNone := by decide
  have outside : Apart 0x200004 0x80000 (8 : UInt32).toNat := by
    unfold Apart
    decide
  exact ⟨⟨accepted, outside⟩,
    rramWriteDxe_exact ⟨fun address => address.toUInt8, []⟩ accepted outside⟩

/-- The copy that the loader's storage layer assumes is what the driver does,
if the status of the layer is the answer of the address check. -/
theorem rramWriteDxe_refines_bootSblRramWrite (storage : Storage) (machine : DxeMachine)
    (checked : storage.rramWriteStatus = rramVerifyAddress) {destination source length : UInt32}
    (outside : Apart destination source length.toNat) :
    ((rramWriteDxe machine destination source length).1,
        (rramWriteDxe machine destination source length).2.memory) =
      bootSblRramWrite storage machine.memory destination length
        (machine.memory.cells source) := by
  unfold bootSblRramWrite
  rw [checked]
  by_cases accepted : rramVerifyAddress destination length = blErrNone
  · obtain ⟨blocks, _, result⟩ := @rramWriteDxe_wrote machine _ _ _ accepted outside
    rw [result, accepted]
    rfl
  · rw [rramWriteDxe, if_pos accepted, if_neg accepted]

end QHal.Boot
