/-
Module: QHal.Proofs.RramWriters
Purpose: The RRAM writes of the NVM programmer and of the boot loader are one: they accept the
  same requests, give the same blocks to the DXE engine and leave the same memory.
Trusted boundary: none
Main exports: Agrees, rramWriteUnaligned_agrees, alignedWrite_agrees, rramWrite_agrees,
  rram_writers_agree
-/
import QHal.Nvm.RramDriver
import QHal.Proofs.NvmBoard
import QHal.Proofs.RramDxeWrite

namespace QHal.RramDriver

open Boot (BlError DxeMachine DxeBlock blErrNone rramLine rramWriteBlockMaxSize and_line
  and_line_eq_zero)

variable {machine : DxeMachine}

/-- The two drivers succeed alike. -/
def Agrees (nvm : Option (Int × DxeMachine)) (dxe : BlError × DxeMachine) : Prop :=
  ∃ after, nvm = some (0, after) ∧ dxe = (blErrNone, after)

/-! ## The pieces -/

theorem rramBlockWrite_agrees {destination length : UInt32} (source : Nat → UInt8)
    (start : destination.toNat % 16 = 0) (whole : length.toNat % 16 = 0) :
    Agrees (rramBlockWrite machine destination source length)
      (Boot.rramBlockWriteDxe machine destination source length) := by
  have startOk := and_line_eq_zero.mpr start
  have wholeOk := and_line_eq_zero.mpr whole
  refine ⟨_, if_pos ⟨startOk, wholeOk⟩, ?_⟩
  rw [Boot.rramBlockWriteDxe, if_neg (not_not.mpr startOk), if_neg (not_not.mpr wholeOk)]

/-- The unaligned first line. -/
theorem rramWriteUnaligned_agrees (machine : DxeMachine) (destination : UInt32)
    (source : Nat → UInt8) (length : UInt32) :
    ∃ after, rramWriteUnaligned machine destination source length =
        some ((0, after), (Boot.rramWriteUnalignedDxe machine destination source length).2) ∧
      (Boot.rramWriteUnalignedDxe machine destination source length).1 = (blErrNone, after) := by
  have low := and_line destination
  have line : (destination - (destination &&& (rramLine - 1))).toNat % 16 = 0 := by
    rw [UInt32.toNat_sub_of_le _ _ (UInt32.le_iff_toNat_le.mpr (by omega)), low]
    omega
  unfold rramWriteUnaligned Boot.rramWriteUnalignedDxe
  dsimp only
  generalize Boot.unalignedLoop source 16 (destination &&& (rramLine - 1)).toNat 0 length.toNat
    (machine.memory.cells (destination - (destination &&& (rramLine - 1)))) = loop
  obtain ⟨buffer, bytesWritten⟩ := loop
  obtain ⟨after, nvm, dxe⟩ := @rramBlockWrite_agrees machine _ rramLine buffer line rfl
  refine ⟨after, ?_, dxe⟩
  dsimp only
  rw [nvm]
  rfl

theorem fullBlocksLoop_agrees (blocks : Nat) (machine : DxeMachine) {dst : UInt32}
    (pSrc : UInt32) (start : dst.toNat % 16 = 0) :
    Agrees (fullBlocksLoop blocks (0, machine) dst pSrc)
      (Boot.fullBlocksLoop blocks machine dst pSrc) := by
  induction blocks generalizing machine dst pSrc with
  | zero => exact ⟨machine, rfl, rfl⟩
  | succ blocks ih =>
      have size : rramWriteBlockMaxSize.toNat = 0x3FF0 := rfl
      obtain ⟨after, nvm, dxe⟩ := @rramBlockWrite_agrees machine dst rramWriteBlockMaxSize
        (machine.memory.cells pSrc) start rfl
      have next : (dst + rramWriteBlockMaxSize).toNat % 16 = 0 := by
        rw [UInt32.toNat_add, size]
        omega
      rw [fullBlocksLoop, nvm, Boot.fullBlocksLoop, dxe]
      exact ih after (pSrc + rramWriteBlockMaxSize) next

theorem partialBlock_agrees (machine : DxeMachine) {dst : UInt32} (pSrc length : UInt32)
    (start : dst.toNat % 16 = 0) :
    Agrees (partialBlock machine dst pSrc length) (Boot.partialBlock machine dst pSrc length) := by
  have low := and_line length
  have lines : (length - (length &&& (rramLine - 1))).toNat % 16 = 0 := by
    rw [UInt32.toNat_sub_of_le _ _ (UInt32.le_iff_toNat_le.mpr (by omega)), low]
    omega
  unfold partialBlock Boot.partialBlock
  dsimp only
  generalize length &&& (rramLine - 1) = unaligned at lines ⊢
  obtain ⟨after, nvm, dxe⟩ := @rramBlockWrite_agrees machine dst _ (machine.memory.cells pSrc)
    start lines
  have next : (dst + (length - unaligned)).toNat % 16 = 0 := by
    rw [UInt32.toNat_add]
    omega
  rw [nvm, dxe, Option.bind_eq_bind, Option.bind_some]
  simp only [ne_eq, not_true_eq_false, if_false]
  by_cases none : unaligned = 0
  · rw [if_neg (not_not.mpr none), if_neg (not_not.mpr none)]
    exact ⟨after, rfl, rfl⟩
  · rw [if_pos none, if_pos none]
    exact rramBlockWrite_agrees _ next rfl

/-- Everything behind the first line. -/
theorem alignedWrite_agrees (machine : DxeMachine) {dst : UInt32} (pSrc length : UInt32)
    (start : dst.toNat % 16 = 0) :
    Agrees (alignedWrite (0, machine) dst pSrc length)
      (Boot.alignedWrite machine dst pSrc length) := by
  have size : rramWriteBlockMaxSize.toNat = 0x3FF0 := rfl
  unfold alignedWrite Boot.alignedWrite
  dsimp only
  obtain ⟨after, nvm, dxe⟩ :=
    fullBlocksLoop_agrees (length / rramWriteBlockMaxSize).toNat machine pSrc start
  rw [nvm, dxe, Option.bind_eq_bind, Option.bind_some]
  simp only [ne_eq, not_true_eq_false, and_false, if_false]
  by_cases none : length % rramWriteBlockMaxSize = 0
  · rw [if_neg (not_not.mpr none), if_neg (not_not.mpr none)]
    exact ⟨after, rfl, rfl⟩
  · rw [if_pos none, if_pos none]
    refine partialBlock_agrees after _ _ ?_
    -- A full block is a number of lines.
    rw [UInt32.toNat_add, UInt32.toNat_mul, size]
    omega

/-! ## The first line -/

/-- How many bytes the first line takes. -/
theorem unaligned_count (machine : DxeMachine) (destination : UInt32) (source : Nat → UInt8)
    (length : UInt32) :
    (Boot.rramWriteUnalignedDxe machine destination source length).2.toNat =
      min (16 - destination.toNat % 16) length.toNat := by
  have low := and_line destination
  have bound := length.toNat_lt
  have loop := Boot.unalignedLoop_spec source 16 (destination &&& (rramLine - 1)).toNat 0
    length.toNat (machine.memory.cells (destination - (destination &&& (rramLine - 1)))) (by omega)
  unfold Boot.rramWriteUnalignedDxe
  dsimp only
  rw [loop, Nat.zero_add, low]
  exact UInt32.toNat_ofNat_of_lt' (by rw [UInt32.size]; omega)

/-- The first line is one block. -/
theorem unaligned_blocks (machine : DxeMachine) (destination : UInt32) (source : Nat → UInt8)
    (length : UInt32) :
    (Boot.rramWriteUnalignedDxe machine destination source length).1.2.blocks =
      machine.blocks ++ [⟨destination - (destination &&& (rramLine - 1)), rramLine⟩] := by
  have low := and_line destination
  have line : (destination - (destination &&& (rramLine - 1))).toNat % 16 = 0 := by
    rw [UInt32.toNat_sub_of_le _ _ (UInt32.le_iff_toNat_le.mpr (by omega)), low]
    omega
  unfold Boot.rramWriteUnalignedDxe
  dsimp only
  generalize destination - (destination &&& (rramLine - 1)) = start at line ⊢
  rw [Boot.rramBlockWriteDxe, if_neg (not_not.mpr (and_line_eq_zero.mpr line)),
    if_neg (not_not.mpr (by decide))]

/-- Nothing is left behind the first line. -/
theorem alignedWrite_nothing (machine : DxeMachine) (dst pSrc : UInt32) :
    alignedWrite (0, machine) dst pSrc 0 = some (0, machine) := by
  have none : (0 : UInt32) / rramWriteBlockMaxSize = 0 := by decide
  have rest : (0 : UInt32) % rramWriteBlockMaxSize = 0 := by decide
  simp [alignedWrite, none, rest, fullBlocksLoop]

/-! ## The writes -/

/-- The address checks accept the same requests. -/
theorem verifyAddress_iff (destination length : UInt32) :
    Nvm.nvmRramVerifyAddress destination length = true ↔
      Boot.rramVerifyAddress destination length = blErrNone := by
  unfold Nvm.nvmRramVerifyAddress Nvm.verifyAddress Boot.rramVerifyAddress
  simp only [Bool.and_eq_true, decide_eq_true_eq, ge_iff_le, and_assoc]
  constructor
  · intro accepted
    exact if_pos accepted
  · intro accepted
    split at accepted
    case isTrue inside => exact inside
    case isFalse => exact absurd accepted (by decide)

/-- A write that the boot loader accepts. -/
theorem rramWrite_agrees (machine : DxeMachine) {destination source length : UInt32}
    (accepted : Boot.rramVerifyAddress destination length = blErrNone) :
    Agrees (rramWrite machine destination source length)
      (Boot.rramWriteDxe machine destination source length) := by
  rw [rramWrite, Boot.rramWriteDxe, if_neg (not_not.mpr accepted)]
  by_cases aligned : destination &&& (rramLine - 1) = 0
  · rw [if_neg (not_not.mpr aligned), if_neg (not_not.mpr aligned)]
    exact alignedWrite_agrees machine source length (and_line_eq_zero.mp aligned)
  · rw [if_pos aligned, if_pos aligned]
    have count := unaligned_count machine destination (machine.memory.cells source) length
    obtain ⟨after, nvm, dxe⟩ :=
      rramWriteUnaligned_agrees machine destination (machine.memory.cells source) length
    rw [nvm]
    generalize Boot.rramWriteUnalignedDxe machine destination (machine.memory.cells source) length =
      first at count dxe ⊢
    obtain ⟨result, written⟩ := first
    obtain rfl : result = (blErrNone, after) := dxe
    simp only [Option.bind_eq_bind, Option.bind_some, ne_eq, not_true_eq_false, false_or] at count ⊢
    by_cases all : length ≤ written
    · -- The programmer goes on, but nothing is left to write.
      have allNat := UInt32.le_iff_toNat_le.mp all
      have same : written = length := UInt32.toNat_inj.mp (by omega)
      rw [if_pos all, same, UInt32.sub_self, alignedWrite_nothing]
      exact ⟨after, rfl, rfl⟩
    · have more := UInt32.lt_iff_toNat_lt.mp (UInt32.not_le.mp all)
      rw [if_neg all]
      refine alignedWrite_agrees after _ _ ?_
      rw [UInt32.toNat_add]
      omega

/-- A write that ends in the unaligned first line gives the engine this line only. -/
theorem rramWriteDxe_in_line (machine : DxeMachine) {destination source length : UInt32}
    (accepted : Boot.rramVerifyAddress destination length = blErrNone)
    (unaligned : destination.toNat % 16 ≠ 0)
    (inside : destination.toNat % 16 + length.toNat ≤ 16) :
    (Boot.rramWriteDxe machine destination source length).2.blocks =
      machine.blocks ++ [⟨destination - (destination &&& (rramLine - 1)), rramLine⟩] := by
  have count := unaligned_count machine destination (machine.memory.cells source) length
  have blocks := unaligned_blocks machine destination (machine.memory.cells source) length
  rw [Boot.rramWriteDxe, if_neg (not_not.mpr accepted),
    if_pos fun aligned => unaligned (and_line_eq_zero.mp aligned)]
  generalize Boot.rramWriteUnalignedDxe machine destination (machine.memory.cells source) length =
    first at count blocks ⊢
  obtain ⟨⟨status, after⟩, written⟩ := first
  dsimp only at count blocks ⊢
  rw [if_pos (Or.inr (UInt32.le_iff_toNat_le.mpr (by omega)))]
  exact blocks

/-- The two writes accept the same requests, leave the same memory and give the engine the
same blocks.  A refused request changes nothing; an accepted one copies the requested bytes,
and if it ends in the unaligned first line, this line is the only block. -/
theorem rram_writers_agree (machine : DxeMachine) (destination source length : UInt32)
    (outside : Mem.Apart destination source length.toNat) :
    ∃ status after, nvmRramWrite machine destination source length = some (status, after) ∧
      Boot.rramWriteDxe machine destination source length =
        (Boot.rramVerifyAddress destination length, after) ∧
      (status = 0 ↔ Boot.rramVerifyAddress destination length = blErrNone) ∧
      (status ≠ 0 → after = machine) ∧
      (status = 0 →
        after.memory =
          machine.memory.write destination length.toNat (machine.memory.cells source)) ∧
      (status = 0 → destination.toNat % 16 ≠ 0 →
        destination.toNat % 16 + length.toNat ≤ 16 →
        after.blocks =
          machine.blocks ++ [⟨destination - (destination &&& (rramLine - 1)), rramLine⟩]) := by
  by_cases accepted : Boot.rramVerifyAddress destination length = blErrNone
  · have verified := (verifyAddress_iff destination length).mpr accepted
    obtain ⟨after, nvm, dxe⟩ := @rramWrite_agrees machine destination source length accepted
    obtain ⟨blocks, -, copied⟩ :=
      @Boot.rramWriteDxe_wrote machine destination source length accepted outside
    refine ⟨0, after, ?_, by rw [dxe, accepted], iff_of_true rfl accepted, nofun, fun _ => ?_,
      fun _ unaligned inside => ?_⟩
    · rw [nvmRramWrite, if_neg (by rw [verified]; exact nofun)]
      exact nvm
    · rw [dxe] at copied
      rw [(Prod.mk.inj copied).2]
    · rw [← @rramWriteDxe_in_line machine destination source length accepted unaligned inside, dxe]
  · have refused : Nvm.nvmRramVerifyAddress destination length = false := by
      cases answer : Nvm.nvmRramVerifyAddress destination length with
      | false => rfl
      | true => exact absurd ((verifyAddress_iff destination length).mp answer) accepted
    refine ⟨qapiErrBounds, machine, by rw [nvmRramWrite, if_pos refused], ?_,
      iff_of_false (by decide) accepted, fun _ => rfl, nofun, nofun⟩
    rw [Boot.rramWriteDxe, if_pos accepted]

/-- Eight bytes into the middle of a line, from a buffer in RAM. -/
theorem rram_writers_agree_in_line :
    ∃ after, nvmRramWrite ⟨fun address => address.toUInt8, []⟩ 0x200004 0x80000 8 =
        some (0, after) ∧
      after.blocks = [⟨0x200000, 16⟩] ∧ after.memory 0x200005 = 1 ∧ after.memory 0x20000C = 12 := by
  have outside : Mem.Apart 0x200004 0x80000 (8 : UInt32).toNat := by
    unfold Mem.Apart
    decide
  obtain ⟨status, after, nvm, -, accepts, -, copied, line⟩ :=
    rram_writers_agree ⟨fun address => address.toUInt8, []⟩ 0x200004 0x80000 8 outside
  obtain rfl := accepts.mpr (by decide)
  refine ⟨after, nvm, line rfl (by decide) (by decide), ?_, ?_⟩
  · rw [copied rfl]
    decide
  · rw [copied rfl]
    decide

end QHal.RramDriver
