/-
Module: QHal.Proofs.NvmFlash
Purpose: Writes of the NVM programmer: what a write that succeeds leaves is read back, the
  other blocks keep their content, and a range behind the end is refused.
Trusted boundary: none
Main exports: writeLoop_cells, readLoop_spec, readLoop_done, drvFlashErase_block,
  checkErase_inside, checkErase_past, flash_write_reads_back
-/
import Mathlib.Algebra.Group.Nat.Defs
import QHal.Flash.NvmFlash

namespace QHal.Flash

variable {config : FlashConfig} {device : Nor.Device}

/-! ## Ranges -/

/-- The size in the driver is a number of blocks, and not above the size of the flash. -/
theorem density_spec (config : FlashConfig) :
    config.density.toNat % 4096 = 0 ∧ config.density.toNat ≤ 2 ^ 32 - 4096 ∧
      config.density.toNat ≤ config.densityInBlocks.toNat * 4096 := by
  have size : config.density.toNat = config.densityInBlocks.toNat * 4096 % 2 ^ 32 := by
    unfold FlashConfig.density
    rw [UInt32.toNat_mul]
    rfl
  omega

/-- The ranges that the driver reads and writes. -/
theorem refuses_eq_false_iff (config : FlashConfig) (address byteCnt : UInt32) :
    config.refuses address byteCnt = false ↔
      byteCnt.toNat ≠ 0 ∧ address.toNat + byteCnt.toNat ≤ config.density.toNat := by
  have zero : byteCnt = 0 ↔ byteCnt.toNat = 0 := UInt32.toNat_inj.symm
  have sum := UInt32.toNat_add address byteCnt
  have left := address.toNat_lt
  have right := byteCnt.toNat_lt
  have bound := (density_spec config).2.1
  simp only [FlashConfig.refuses, Bool.or_eq_false_iff, decide_eq_false_iff_not, zero,
    UInt32.lt_iff_toNat_lt, gt_iff_lt, sum]
  omega

/-- The start of the range behind a slice. -/
theorem slice_next {unit address byteCnt : UInt32} (positive : 0 < unit.toNat)
    (nonempty : byteCnt ≠ 0) (fits : address.toNat + byteCnt.toNat < 2 ^ 32) :
    (address + sliceSize unit address byteCnt).toNat =
        address.toNat + (sliceSize unit address byteCnt).toNat ∧
      (byteCnt - sliceSize unit address byteCnt).toNat =
        byteCnt.toNat - (sliceSize unit address byteCnt).toNat := by
  obtain ⟨-, le, -⟩ := sliceSize_spec positive address nonempty
  refine ⟨?_, UInt32.toNat_sub_of_le _ _ (UInt32.le_iff_toNat_le.mpr le)⟩
  rw [UInt32.toNat_add, Nat.mod_eq_of_lt (by omega)]

/-- The cells of a number of blocks. -/
def InBlocks (start count cell : Nat) : Prop := start ≤ cell / 4096 ∧ cell / 4096 < start + count

instance (start count cell : Nat) : Decidable (InBlocks start count cell) :=
  inferInstanceAs (Decidable (_ ∧ _))

/-- The driver is ready behind `flash_init`. -/
theorem flashInit_ready (config : FlashConfig) (device : Nor.Device) :
    ¬ (flashInit config device).ctx.flashInitDone = false ∧
      ¬ (flashInit config device).ctx.state ≠ 0 :=
  ⟨nofun, fun busy => busy rfl⟩

/-! ## The loops of the driver -/

/-- The loop over the pages clears bits in the range only. -/
theorem writeLoop_cells (device : Nor.Device) (address byteCnt : UInt32) (buffer : Nat → UInt8)
    (fits : address.toNat + byteCnt.toNat < 2 ^ 32) (cell : Nat) :
    (writeLoop device address byteCnt buffer).cells cell =
      if address.toNat ≤ cell ∧ cell < address.toNat + byteCnt.toNat then
        device.cells cell &&& buffer (cell - address.toNat)
      else device.cells cell := by
  induction device, address, byteCnt, buffer using writeLoop.induct with
  | case1 device address buffer =>
      rw [writeLoop, dif_pos rfl, if_neg (by rw [UInt32.toNat_zero]; omega)]
  | case2 device address byteCnt buffer nonempty size ih =>
      have page : 0 < pageSizeInBytes.toNat := by decide
      obtain ⟨positive, le, unit⟩ := sliceSize_spec page address nonempty
      obtain ⟨next, rest⟩ := slice_next page nonempty fits
      have enabled : device.writeEnable.writeEnabled = true := rfl
      have cells : device.writeEnable.cells cell = device.cells cell := rfl
      rw [writeLoop, dif_neg nonempty]
      dsimp only
      rw [ih (by rw [next, rest]; omega), next, rest, Nor.Device.program_cells enabled unit cell,
        cells]
      by_cases first : cell < address.toNat + (sliceSize pageSizeInBytes address byteCnt).toNat
      · rw [if_neg (by omega)]
        by_cases inside : address.toNat ≤ cell
        · rw [if_pos ⟨inside, first⟩, if_pos ⟨inside, by omega⟩]
        · rw [if_neg (by omega), if_neg (by omega)]
      · by_cases inside : cell < address.toNat + byteCnt.toNat
        · have place : cell - (address.toNat + (sliceSize pageSizeInBytes address byteCnt).toNat) +
              (sliceSize pageSizeInBytes address byteCnt).toNat = cell - address.toNat := by omega
          rw [if_pos (by omega), if_neg (by omega), if_pos (by omega)]
          exact congrArg (fun i => device.cells cell &&& buffer i) place
        · rw [if_neg (by omega), if_neg (by omega), if_neg (by omega)]

/-- The loop that erases blocks. -/
theorem eraseLoop_cells (cnt : Nat) (address : UInt32) (device : Nor.Device)
    (aligned : address.toNat % 4096 = 0) (fits : address.toNat + cnt * 4096 < 2 ^ 32)
    (cell : Nat) :
    (eraseLoop (fun address device => device.erase blockSizeInBytes.toNat address)
        blockSizeInBytes cnt address device).cells cell =
      if address.toNat / 4096 ≤ cell / 4096 ∧ cell / 4096 < address.toNat / 4096 + cnt then 0xFF
      else device.cells cell := by
  induction cnt generalizing address device with
  | zero =>
      rw [if_neg (by omega)]
      rfl
  | succ cnt ih =>
      have next : (address + blockSizeInBytes).toNat = address.toNat + 4096 := by
        rw [UInt32.toNat_add, show blockSizeInBytes.toNat = 4096 from rfl,
          Nat.mod_eq_of_lt (by omega)]
      have enabled : device.writeEnable.writeEnabled = true := rfl
      rw [eraseLoop, ih _ _ (by omega) (by omega), next, Nor.Device.erase_cells enabled,
        show blockSizeInBytes.toNat = 4096 from rfl]
      by_cases first : cell / 4096 = address.toNat / 4096
      · rw [if_neg (by omega), if_pos first, if_pos (by omega)]
      · rw [if_neg first]
        by_cases inside : address.toNat / 4096 ≤ cell / 4096 ∧
            cell / 4096 < address.toNat / 4096 + (cnt + 1)
        · rw [if_pos (by omega), if_pos inside]
        · rw [if_neg (by omega), if_neg inside]
          rfl

/-- The blocks that `drv_flash_erase` erases; behind the end, or without an opcode, it
erases nothing. -/
theorem drvFlashErase_block (config : FlashConfig) (device : Nor.Device) {start cnt : UInt32}
    (nonempty : cnt.toNat ≠ 0) (high : start.toNat + cnt.toNat < 2 ^ 20) :
    ((start.toNat + cnt.toNat) * 4096 ≤ config.density.toNat ∧
      ∃ erased, drvFlashErase (flashInit config device).ctx .block start cnt =
          (.done, (flashInit config erased).ctx) ∧
        ∀ cell, erased.cells cell =
          if InBlocks start.toNat cnt.toNat cell then 0xFF else device.cells cell) ∨
    ((config.erase4kbOpcode = 0 ∨ config.density.toNat < (start.toNat + cnt.toNat) * 4096) ∧
      drvFlashErase (flashInit config device).ctx .block start cnt =
        (.invalidParameter, (flashInit config device).ctx)) := by
  have size : blockSizeInBytes.toNat = 4096 := rfl
  have address : (start * blockSizeInBytes).toNat = start.toNat * 4096 := by
    rw [UInt32.toNat_mul, size, Nat.mod_eq_of_lt (by omega)]
  have finish : ((start + cnt) * blockSizeInBytes).toNat = (start.toNat + cnt.toNat) * 4096 := by
    rw [UInt32.toNat_mul, UInt32.toNat_add, size, Nat.mod_eq_of_lt (by omega),
      Nat.mod_eq_of_lt (by omega)]
  unfold drvFlashErase
  rw [if_neg (flashInit_ready config device).1, if_neg (flashInit_ready config device).2]
  by_cases opcode : config.erase4kbOpcode = 0
  · right
    have command : config.eraseCommand .block = none := if_pos opcode
    rw [show (flashInit config device).ctx.config.eraseCommand .block = none from command]
    exact ⟨Or.inl opcode, rfl⟩
  · have command : (flashInit config device).ctx.config.eraseCommand .block =
        some (blockSizeInBytes, fun address device =>
          device.erase blockSizeInBytes.toNat address) := if_neg opcode
    rw [command]
    dsimp only
    split
    case isTrue rejected =>
      refine Or.inr ⟨Or.inr ?_, rfl⟩
      rcases rejected with none | wrapped | above
      · exact absurd (congrArg UInt32.toNat none) nonempty
      · rw [UInt32.lt_iff_toNat_lt, finish, address] at wrapped
        omega
      · rw [gt_iff_lt, UInt32.lt_iff_toNat_lt, finish] at above
        exact above
    case isFalse accepted =>
      left
      have inside : ¬ config.density < (start + cnt) * blockSizeInBytes :=
        fun above => accepted (Or.inr (Or.inr above))
      rw [UInt32.lt_iff_toNat_lt, finish] at inside
      refine ⟨by omega, _, rfl, fun cell => ?_⟩
      have bound := (density_spec config).2.1
      have erased := eraseLoop_cells cnt.toNat (start * blockSizeInBytes) device
        (by rw [address]; omega) (by rw [address]; omega) cell
      rw [address, Nat.mul_div_cancel _ (by decide)] at erased
      exact erased

/-! ## Reading -/

/-- What the driver reads at once. -/
theorem drvFlashRead_ready (config : FlashConfig) (device : Nor.Device) (address byteCnt : UInt32)
    (buffer : Nat → UInt8) :
    drvFlashRead (flashInit config device).ctx address byteCnt (some buffer) =
      if config.refuses address byteCnt then (.invalidParameter, some buffer)
      else
        (.done, some fun i =>
          if i < byteCnt.toNat then device.cells (address.toNat + i) else buffer i) := by
  unfold drvFlashRead
  rw [if_neg (flashInit_ready config device).1, if_neg (flashInit_ready config device).2]
  rfl

/-- A range of the flash is read to the buffer. -/
theorem readLoop_spec (config : FlashConfig) (device : Nor.Device) (address byteCnt : UInt32)
    (offset : Nat) (buffer : Nat → UInt8)
    (fits : address.toNat + byteCnt.toNat ≤ config.density.toNat) :
    ∃ filled, readLoop (flashInit config device).ctx address byteCnt offset buffer =
        (.done, filled) ∧
      ∀ i, filled i =
        if offset ≤ i ∧ i < offset + byteCnt.toNat then device.cells (address.toNat + (i - offset))
        else buffer i := by
  have bound := (density_spec config).2.1
  induction count : byteCnt.toNat using Nat.strongRecOn
    generalizing address byteCnt offset buffer with
  | ind total ih =>
  subst count
  rw [readLoop]
  by_cases empty : byteCnt = 0
  · rw [dif_pos empty]
    refine ⟨buffer, rfl, fun i => ?_⟩
    rw [empty, if_neg (by rw [UInt32.toNat_zero]; omega)]
  · have block : 0 < blockSizeInBytes.toNat := by decide
    obtain ⟨positive, le, -⟩ := sliceSize_spec block address empty
    have limit : address.toNat + byteCnt.toNat < 2 ^ 32 := by omega
    obtain ⟨next, rest⟩ := slice_next block empty limit
    have accepted : config.refuses address (sliceSize blockSizeInBytes address byteCnt) = false :=
      (refuses_eq_false_iff ..).mpr ⟨by omega, by omega⟩
    rw [dif_neg empty]
    dsimp only
    rw [drvFlashRead_ready, accepted]
    obtain ⟨filled, loop, cells⟩ := ih _ (rest_lt block address empty) _ _
      (offset + (sliceSize blockSizeInBytes address byteCnt).toNat) (fun i =>
        if offset ≤ i then
          if i - offset < (sliceSize blockSizeInBytes address byteCnt).toNat then
            device.cells (address.toNat + (i - offset))
          else buffer (offset + (i - offset))
        else buffer i) (by rw [next, rest]; omega) rfl
    refine ⟨filled, loop, fun i => ?_⟩
    rw [cells, next, rest]
    by_cases before : offset ≤ i
    · by_cases first : i - offset < (sliceSize blockSizeInBytes address byteCnt).toNat
      · rw [if_neg (by omega), if_pos before, if_pos first, if_pos (by omega)]
      · rw [if_pos before, if_neg first, show offset + (i - offset) = i by omega]
        by_cases inside : i < offset + byteCnt.toNat
        · rw [if_pos (by omega), if_pos (by omega)]
          congr 1
          omega
        · rw [if_neg (by omega), if_neg (by omega)]
    · rw [if_neg (by omega), if_neg before, if_neg (by omega)]

/-- A range of the flash that is read lies in it. -/
theorem readLoop_done {address byteCnt : UInt32} {offset : Nat} {buffer filled : Nat → UInt8}
    (nonempty : byteCnt ≠ 0)
    (read : readLoop (flashInit config device).ctx address byteCnt offset buffer =
      (.done, filled)) :
    address.toNat + byteCnt.toNat ≤ config.density.toNat := by
  have bound := (density_spec config).2.1
  induction count : byteCnt.toNat using Nat.strongRecOn
    generalizing address byteCnt offset buffer with
  | ind total ih =>
  subst count
  rw [readLoop, dif_neg nonempty] at read
  dsimp only at read
  rw [drvFlashRead_ready] at read
  have block : 0 < blockSizeInBytes.toNat := by decide
  obtain ⟨positive, le, -⟩ := sliceSize_spec block address nonempty
  have shorter := rest_lt block address nonempty
  have rest := UInt32.toNat_sub_of_le _ _ (UInt32.le_iff_toNat_le.mpr le)
  generalize sliceSize blockSizeInBytes address byteCnt = size at *
  cases refused : config.refuses address size with
  | true =>
      rw [refused] at read
      cases read
  | false =>
      have inside := ((refuses_eq_false_iff ..).mp refused).2
      have next : (address + size).toNat = address.toNat + size.toNat := by
        rw [UInt32.toNat_add, Nat.mod_eq_of_lt (by omega)]
      rw [refused] at read
      by_cases last : byteCnt - size = 0
      · have none : (byteCnt - size).toNat = 0 := UInt32.toNat_inj.mpr last
        omega
      · have further := ih _ shorter last read rfl
        omega

/-- A block of the flash as the check reads it. -/
theorem flashRead_block (config : FlashConfig) (device : Nor.Device) (offset : UInt32)
    (fits : offset.toNat + 4096 ≤ config.density.toNat) :
    ∃ block, flashRead (flashInit config device) offset (fun _ => 0) blockSizeInBytes =
        (.done, block) ∧
      (isBlank block = true ↔ ∀ i < 4096, device.cells (offset.toNat + i) = 0xFF) := by
  obtain ⟨block, read, cells⟩ := readLoop_spec config device offset blockSizeInBytes 0 (fun _ => 0)
    fits
  refine ⟨block, read, ?_⟩
  have inside : ∀ i < 4096, block i = device.cells (offset.toNat + i) := by
    intro i bound
    rw [cells, if_pos ⟨Nat.zero_le i, by rw [Nat.zero_add]; exact bound⟩, Nat.sub_zero]
  unfold isBlank
  rw [List.all_eq_true]
  constructor
  · intro all i bound
    rw [← inside i bound]
    simpa using all i (List.mem_range.mpr bound)
  · intro all i member
    rw [inside i (List.mem_range.mp member), all i (List.mem_range.mp member)]
    decide

/-- The block behind the end is not read. -/
theorem flashRead_past (config : FlashConfig) (device : Nor.Device) (offset : UInt32)
    (past : config.density.toNat < offset.toNat + 4096) (aligned : offset.toNat % 4096 = 0) :
    (flashRead (flashInit config device) offset (fun _ => 0) blockSizeInBytes).1 =
      .invalidParameter := by
  have size : sliceSize blockSizeInBytes offset blockSizeInBytes = blockSizeInBytes := by
    have zero : offset % blockSizeInBytes = 0 := by
      apply UInt32.toNat_inj.mp
      rw [UInt32.toNat_mod]
      exact aligned
    unfold sliceSize
    rw [zero]
    rfl
  have refused : config.refuses offset blockSizeInBytes = true := by
    cases answer : config.refuses offset blockSizeInBytes with
    | true => rfl
    | false =>
        have fits := ((refuses_eq_false_iff ..).mp answer).2
        have block : blockSizeInBytes.toNat = 4096 := rfl
        omega
  unfold flashRead
  rw [readLoop, dif_neg (by decide)]
  dsimp only
  rw [size, drvFlashRead_ready, refused]
  rfl

/-! ## The check before a write -/

/-- The check of blocks inside the flash: other blocks stay as they are, and when it
succeeds the blocks are erased. -/
theorem checkErase_inside (config : FlashConfig) {startBlock blockNum endOffset : UInt32}
    (nonempty : blockNum.toNat ≠ 0)
    (fits : (startBlock.toNat + blockNum.toNat) * 4096 ≤ config.density.toNat)
    (ends : endOffset.toNat = (startBlock.toNat + blockNum.toNat) * 4096) (rounds : Nat)
    (offset : UInt32) (device : Nor.Device) (aligned : offset.toNat % 4096 = 0)
    (place : offset.toNat + rounds * 4096 = endOffset.toNat)
    (erased : ∀ cell, startBlock.toNat ≤ cell / 4096 → cell < offset.toNat →
      device.cells cell = 0xFF) :
    ∃ status checked, checkEraseLoop startBlock blockNum endOffset (rounds + 1) offset
        (flashInit config device) = some (status, flashInit config checked) ∧
      (∀ cell, ¬ InBlocks startBlock.toNat blockNum.toNat cell →
        checked.cells cell = device.cells cell) ∧
      (status = .done → ∀ cell, InBlocks startBlock.toNat blockNum.toNat cell →
        checked.cells cell = 0xFF) ∧
      (config.erase4kbOpcode ≠ 0 → status = .done) := by
  have bound := (density_spec config).2.1
  induction rounds generalizing offset device with
  | zero =>
      refine ⟨.done, device, ?_, fun _ _ => rfl, fun _ cell inside => ?_, fun _ => rfl⟩
      · rw [checkEraseLoop, if_neg]
        rw [UInt32.lt_iff_toNat_lt]
        omega
      · obtain ⟨low, high⟩ := inside
        exact erased cell low (by omega)
  | succ rounds ih =>
      have block : blockSizeInBytes.toNat = 4096 := rfl
      have next : (offset + blockSizeInBytes).toNat = offset.toNat + 4096 := by
        rw [UInt32.toNat_add, block, Nat.mod_eq_of_lt (by omega)]
      obtain ⟨buffer, read, blank⟩ := flashRead_block config device offset (by omega)
      rw [checkEraseLoop, if_pos (UInt32.lt_iff_toNat_lt.mpr (by omega)), read]
      dsimp only
      by_cases clean : isBlank buffer = true
      · rw [if_pos clean]
        refine ih (offset + blockSizeInBytes) device (by omega) (by omega) ?_
        intro cell low high
        by_cases before : cell < offset.toNat
        · exact erased cell low before
        · have found := blank.mp clean (cell - offset.toNat) (by omega)
          rwa [Nat.add_sub_cancel' (by omega)] at found
      · rw [if_neg clean]
        rcases drvFlashErase_block config device nonempty
          (show startBlock.toNat + blockNum.toNat < 2 ^ 20 by omega) with
          ⟨-, after, erase, cells⟩ | ⟨reason, refused⟩
        · rw [erase]
          have empty : ∀ cell, InBlocks startBlock.toNat blockNum.toNat cell →
              after.cells cell = 0xFF := by
            intro cell inside
            rw [cells, if_pos inside]
          obtain ⟨status, checked, loop, outside, done⟩ :=
            ih (offset + blockSizeInBytes) after (by omega) (by omega) fun cell low high =>
              empty cell ⟨low, by omega⟩
          refine ⟨status, checked, loop, fun cell other => ?_, done⟩
          rw [outside cell other, cells, if_neg other]
        · rw [refused]
          refine ⟨.invalidParameter, device, rfl, fun _ _ => rfl, nofun, fun opcode => ?_⟩
          rcases reason with none | past
          · exact absurd none opcode
          · omega

/-- The check of blocks of which the last lies behind the end fails, and leaves the flash
as it is. -/
theorem checkErase_past (config : FlashConfig) (device : Nor.Device)
    {startBlock blockNum endOffset : UInt32} (nonempty : blockNum.toNat ≠ 0)
    (past : (startBlock.toNat + blockNum.toNat) * 4096 = config.density.toNat + 4096)
    (fits : config.density.toNat + 4096 < 2 ^ 32)
    (ends : endOffset.toNat = config.density.toNat + 4096) (rounds : Nat) (offset : UInt32)
    (aligned : offset.toNat % 4096 = 0)
    (place : offset.toNat + (rounds + 1) * 4096 = endOffset.toNat) :
    checkEraseLoop startBlock blockNum endOffset (rounds + 2) offset (flashInit config device) =
      some (.invalidParameter, flashInit config device) := by
  have block : blockSizeInBytes.toNat = 4096 := rfl
  have failed : ∀ buffer,
      flashRead (flashInit config device) offset (fun _ => 0) blockSizeInBytes =
        (.invalidParameter, buffer) →
      checkEraseLoop startBlock blockNum endOffset (rounds + 2) offset (flashInit config device) =
        some (.invalidParameter, flashInit config device) := by
    intro buffer read
    rw [checkEraseLoop, if_pos (UInt32.lt_iff_toNat_lt.mpr (by omega)), read]
  induction rounds generalizing offset with
  | zero =>
      have refused := flashRead_past config device offset (by omega) aligned
      exact failed _ (Prod.ext refused rfl)
  | succ rounds ih =>
      have next : (offset + blockSizeInBytes).toNat = offset.toNat + 4096 := by
        rw [UInt32.toNat_add, block, Nat.mod_eq_of_lt (by omega)]
      obtain ⟨buffer, read, -⟩ := flashRead_block config device offset (by omega)
      rw [checkEraseLoop, if_pos (UInt32.lt_iff_toNat_lt.mpr (by omega)), read]
      dsimp only
      by_cases clean : isBlank buffer = true
      · rw [if_pos clean]
        refine ih (offset + blockSizeInBytes) (by omega) (by omega) ?_
        intro buffer read
        rw [checkEraseLoop, if_pos (UInt32.lt_iff_toNat_lt.mpr (by omega)), read]
      · rw [if_neg clean]
        rcases drvFlashErase_block config device nonempty
          (show startBlock.toNat + blockNum.toNat < 2 ^ 20 by omega) with ⟨inside, -⟩ | ⟨-, refused⟩
        · omega
        · rw [refused]

/-! ## Writes -/

/-- A range that the driver writes. -/
theorem drvFlashWrite_spec (config : FlashConfig) (device : Nor.Device)
    (address byteCnt : UInt32) (source : Option (Nat → UInt8)) :
    (∃ buffer written, source = some buffer ∧ byteCnt.toNat ≠ 0 ∧
        address.toNat + byteCnt.toNat ≤ config.density.toNat ∧
        drvFlashWrite (flashInit config device).ctx address byteCnt source =
          (.done, (flashInit config written).ctx) ∧
        ∀ cell, written.cells cell =
          if address.toNat ≤ cell ∧ cell < address.toNat + byteCnt.toNat then
            device.cells cell &&& buffer (cell - address.toNat)
          else device.cells cell) ∨
      ((source = none ∨ byteCnt.toNat = 0 ∨
          config.density.toNat < address.toNat + byteCnt.toNat) ∧
        drvFlashWrite (flashInit config device).ctx address byteCnt source =
          (.invalidParameter, (flashInit config device).ctx)) := by
  have bound := (density_spec config).2.1
  unfold drvFlashWrite
  rw [if_neg (flashInit_ready config device).1, if_neg (flashInit_ready config device).2]
  cases source with
  | none => exact Or.inr ⟨Or.inl rfl, rfl⟩
  | some buffer =>
      dsimp only
      cases answer : config.refuses address byteCnt with
      | true =>
          right
          have outside : ¬ (byteCnt.toNat ≠ 0 ∧
              address.toNat + byteCnt.toNat ≤ config.density.toNat) := by
            rw [← refuses_eq_false_iff, answer]
            exact nofun
          refine ⟨Or.inr (by omega), ?_⟩
          rw [show (flashInit config device).ctx.config.refuses address byteCnt = true from answer]
          rfl
      | false =>
          left
          obtain ⟨nonempty, fits⟩ := (refuses_eq_false_iff ..).mp answer
          refine ⟨buffer, writeLoop device address byteCnt buffer, rfl, nonempty, fits, ?_, ?_⟩
          · rw [show (flashInit config device).ctx.config.refuses address byteCnt = false from
              answer]
            rfl
          · exact writeLoop_cells device address byteCnt buffer (by omega)

/-- The ranges that the check accepts. -/
theorem flashVerifyAddress_iff (config : FlashConfig) (address length : UInt32) :
    flashVerifyAddress config.densityInBlocks address length = true ↔
      address.toNat ≤ config.density.toNat ∧ address.toNat % 4096 = 0 ∧
        length.toNat ≤ config.density.toNat - address.toNat + 1 := by
  have bound := (density_spec config).2.1
  have zero : address % blockSizeInBytes = 0 ↔ address.toNat % 4096 = 0 := by
    rw [← UInt32.toNat_inj, UInt32.toNat_mod]
    rfl
  have size : config.densityInBlocks * blockSizeInBytes = config.density := rfl
  unfold flashVerifyAddress
  simp only [Bool.and_eq_true, decide_eq_true_eq, ge_iff_le, zero, size, and_assoc]
  rw [UInt32.le_iff_toNat_le]
  refine and_congr_right fun low => and_congr_right fun _ => ?_
  rw [UInt32.le_iff_toNat_le, UInt32.toNat_add,
    UInt32.toNat_sub_of_le _ _ (UInt32.le_iff_toNat_le.mpr low)]
  rw [show (1 : UInt32).toNat = 1 from rfl, Nat.mod_eq_of_lt (by omega)]

/-- The numbers of the check for a range that is not empty. -/
theorem checkErase_numbers {address length : UInt32} (nonempty : length.toNat ≠ 0)
    (fits : address.toNat + length.toNat < 2 ^ 32) (aligned : address.toNat % 4096 = 0) :
    (address / blockSizeInBytes).toNat = address.toNat / 4096 ∧
      ((address + length - 1) / blockSizeInBytes - address / blockSizeInBytes + 1).toNat =
        (address.toNat + length.toNat - 1) / 4096 - address.toNat / 4096 + 1 ∧
      (address / blockSizeInBytes * blockSizeInBytes).toNat = address.toNat ∧
      (address / blockSizeInBytes * blockSizeInBytes +
          ((address + length - 1) / blockSizeInBytes - address / blockSizeInBytes + 1) *
            blockSizeInBytes).toNat =
        ((address.toNat + length.toNat - 1) / 4096 + 1) * 4096 % 2 ^ 32 := by
  have block : blockSizeInBytes.toNat = 4096 := rfl
  have start : (address / blockSizeInBytes).toNat = address.toNat / 4096 := by
    rw [UInt32.toNat_div, block]
  have last : (address + length - 1).toNat = address.toNat + length.toNat - 1 := by
    have sum : (address + length).toNat = address.toNat + length.toNat := by
      rw [UInt32.toNat_add, Nat.mod_eq_of_lt fits]
    rw [UInt32.toNat_sub_of_le _ _ (UInt32.le_iff_toNat_le.mpr (by
      rw [sum, show (1 : UInt32).toNat = 1 from rfl]; omega)), sum]
    rfl
  have finish : ((address + length - 1) / blockSizeInBytes).toNat =
      (address.toNat + length.toNat - 1) / 4096 := by
    rw [UInt32.toNat_div, block, last]
  have count : ((address + length - 1) / blockSizeInBytes - address / blockSizeInBytes + 1).toNat =
      (address.toNat + length.toNat - 1) / 4096 - address.toNat / 4096 + 1 := by
    rw [UInt32.toNat_add, UInt32.toNat_sub_of_le _ _ (UInt32.le_iff_toNat_le.mpr (by
      rw [finish, start]; omega)), finish, start, show (1 : UInt32).toNat = 1 from rfl,
      Nat.mod_eq_of_lt (by omega)]
  have offset : (address / blockSizeInBytes * blockSizeInBytes).toNat = address.toNat := by
    rw [UInt32.toNat_mul, start, block, Nat.mod_eq_of_lt (by omega)]
    omega
  refine ⟨start, count, offset, ?_⟩
  rw [UInt32.toNat_add, offset, UInt32.toNat_mul, count, block]
  omega

/-- No block is checked for an empty range: their number is 0, or the end of the range wraps
round to its start. -/
theorem checkErase_empty {address length : UInt32} (nvm : NvmFlash) (empty : length.toNat = 0)
    (aligned : address.toNat % 4096 = 0) :
    (if (address + length - 1) / blockSizeInBytes - address / blockSizeInBytes + 1 = 0 then
        some (.done, nvm)
      else
        checkEraseLoop (address / blockSizeInBytes)
          ((address + length - 1) / blockSizeInBytes - address / blockSizeInBytes + 1)
          (address / blockSizeInBytes * blockSizeInBytes +
            ((address + length - 1) / blockSizeInBytes - address / blockSizeInBytes + 1) *
              blockSizeInBytes)
          (((address + length - 1) / blockSizeInBytes - address / blockSizeInBytes + 1).toNat + 1)
          (address / blockSizeInBytes * blockSizeInBytes) nvm) = some (FlashStatus.done, nvm) := by
  have none : length = 0 := UInt32.toNat_inj.mp empty
  subst none
  by_cases first : address.toNat = 0
  · have start : address = 0 := UInt32.toNat_inj.mp first
    subst start
    rw [if_neg (by decide), checkEraseLoop, if_neg (by decide)]
  · have block : blockSizeInBytes.toNat = 4096 := rfl
    have one : (1 : UInt32).toNat = 1 := rfl
    have bound := address.toNat_lt
    rw [if_pos]
    apply UInt32.toNat_inj.mp
    rw [UInt32.add_zero, UInt32.toNat_add, UInt32.toNat_sub, UInt32.toNat_div, UInt32.toNat_div,
      UInt32.toNat_sub, block, one, UInt32.toNat_zero]
    omega

/-- The check before a write: it ends; it leaves the blocks that the range does not touch,
and all blocks when the range reaches behind the end; when it succeeds for a range in the
flash, the range is erased. -/
theorem checkErase_spec (config : FlashConfig) (device : Nor.Device) (address length : UInt32) :
    ∃ status checked, flashPartialCheckErase (flashInit config device) address length =
        some (status, flashInit config checked) ∧
      (address.toNat + length.toNat ≤ config.density.toNat →
        (∀ cell, (∀ i < length.toNat, cell / 4096 ≠ (address.toNat + i) / 4096) →
          checked.cells cell = device.cells cell) ∧
        (status = .done → ∀ i < length.toNat, checked.cells (address.toNat + i) = 0xFF) ∧
        (address.toNat % 4096 = 0 → config.erase4kbOpcode ≠ 0 → status = .done)) ∧
      (config.density.toNat < address.toNat + length.toNat → checked = device) := by
  obtain ⟨blocks, bound, -⟩ := density_spec config
  cases verified : flashVerifyAddress (flashInit config device).densityInBlocks address length with
  | false =>
      refine ⟨.errBounds, device, ?_, fun inside => ⟨fun _ _ => rfl, nofun, fun aligned => ?_⟩,
        fun _ => rfl⟩
      · rw [flashPartialCheckErase, if_pos verified]
      · have accepted := (flashVerifyAddress_iff config address length).mpr
          ⟨by omega, aligned, by omega⟩
        exact absurd (accepted.symm.trans verified) nofun
  | true =>
      obtain ⟨low, aligned, short⟩ := (flashVerifyAddress_iff ..).mp verified
      rw [flashPartialCheckErase, if_neg (by rw [verified]; exact nofun)]
      dsimp only
      by_cases empty : length.toNat = 0
      · refine ⟨.done, device, checkErase_empty _ empty aligned,
          fun _ => ⟨fun _ _ => rfl, ?_, fun _ _ => rfl⟩, fun _ => rfl⟩
        intro _ i below
        omega
      · obtain ⟨start, count, offset, ends⟩ :=
          checkErase_numbers empty (show address.toNat + length.toNat < 2 ^ 32 by omega) aligned
        generalize (address + length - 1) / blockSizeInBytes - address / blockSizeInBytes + 1 =
          blockNum at count ends ⊢
        generalize address / blockSizeInBytes * blockSizeInBytes + blockNum * blockSizeInBytes =
          endOffset at ends ⊢
        generalize address / blockSizeInBytes * blockSizeInBytes = first at offset ⊢
        generalize address / blockSizeInBytes = startBlock at start ⊢
        rw [if_neg (fun zero => absurd (congrArg UInt32.toNat zero) (by
          rw [count]
          exact Nat.succ_ne_zero _))]
        have total : startBlock.toNat + blockNum.toNat =
            (address.toNat + length.toNat - 1) / 4096 + 1 := by
          rw [start, count]
          omega
        rw [← total] at ends
        by_cases inside : address.toNat + length.toNat ≤ config.density.toNat
        · have fits : (startBlock.toNat + blockNum.toNat) * 4096 ≤ config.density.toNat := by
            rw [total]
            omega
          rw [Nat.mod_eq_of_lt (by omega)] at ends
          obtain ⟨status, checked, loop, outside, done, able⟩ := checkErase_inside config
            (by omega) fits ends
            blockNum.toNat first device (by omega) (by omega) (by omega)
          refine ⟨status, checked, loop, fun _ => ⟨fun cell apart => outside cell ?_,
            fun success i below => done success _ ⟨by omega, by omega⟩, fun _ => able⟩,
            fun past => absurd inside (by omega)⟩
          rintro ⟨low, high⟩
          -- The first byte of the range in the block of the cell.
          refine apart (max address.toNat (cell / 4096 * 4096) - address.toNat) (by omega)
            (by omega)
        · refine ⟨if endOffset.toNat = 0 then .done else .invalidParameter, device, ?_,
            fun inner => absurd inner inside, fun _ => rfl⟩
          by_cases wrapped : endOffset.toNat = 0
          · rw [if_pos wrapped, checkEraseLoop, if_neg]
            rw [UInt32.lt_iff_toNat_lt]
            omega
          · rw [if_neg wrapped]
            obtain ⟨rounds, number⟩ : ∃ rounds, blockNum.toNat = rounds + 1 :=
              ⟨blockNum.toNat - 1, by omega⟩
            rw [number]
            exact checkErase_past config device (by omega)
              (show (startBlock.toNat + blockNum.toNat) * 4096 = config.density.toNat + 4096 by
                omega)
              (by omega) (by omega) rounds first (by omega) (by omega)

/-- The check of blank blocks leaves them. -/
theorem checkErase_blank (config : FlashConfig) (device : Nor.Device)
    {startBlock blockNum endOffset : UInt32} (fits : endOffset.toNat ≤ config.density.toNat)
    (rounds : Nat) (offset : UInt32) (place : offset.toNat + rounds * 4096 = endOffset.toNat)
    (blank : ∀ cell, offset.toNat ≤ cell → device.cells cell = 0xFF) :
    checkEraseLoop startBlock blockNum endOffset (rounds + 1) offset (flashInit config device) =
      some (.done, flashInit config device) := by
  have bound := (density_spec config).2.1
  induction rounds generalizing offset with
  | zero =>
      rw [checkEraseLoop, if_neg]
      rw [UInt32.lt_iff_toNat_lt]
      omega
  | succ rounds ih =>
      have block : blockSizeInBytes.toNat = 4096 := rfl
      have next : (offset + blockSizeInBytes).toNat = offset.toNat + 4096 := by
        rw [UInt32.toNat_add, block, Nat.mod_eq_of_lt (by omega)]
      obtain ⟨buffer, read, clean⟩ := flashRead_block config device offset (by omega)
      rw [checkEraseLoop, if_pos (UInt32.lt_iff_toNat_lt.mpr (by omega)), read]
      dsimp only
      rw [if_pos (clean.mpr fun i _ => blank _ (Nat.le_add_right _ _))]
      exact ih (offset + blockSizeInBytes) (by omega) fun cell above => blank cell (by omega)

/-- What a write leaves that succeeds. -/
theorem flashWrite_done (config : FlashConfig) (device : Nor.Device) {destination length : UInt32}
    {data : Nat → UInt8} {nvm : NvmFlash}
    (wrote : flashWrite (flashInit config device) destination (some data) length =
      some (.done, nvm)) :
    destination.toNat % 4096 = 0 ∧ length.toNat ≠ 0 ∧
      destination.toNat + length.toNat ≤ config.density.toNat ∧
      ∃ written, nvm = flashInit config written ∧
        (∀ i < length.toNat, written.cells (destination.toNat + i) = data i) ∧
        ∀ cell, (∀ i < length.toNat, cell / 4096 ≠ (destination.toNat + i) / 4096) →
          written.cells cell = device.cells cell := by
  obtain ⟨status, checked, check, inside, -⟩ := checkErase_spec config device destination length
  rw [flashWrite, check, Option.map_some] at wrote
  have success : status = .done := by
    cases status with
    | done => rfl
    | _ => cases wrote
  subst success
  have aligned : destination.toNat % 4096 = 0 := by
    cases verified : flashVerifyAddress (flashInit config device).densityInBlocks destination
      length with
    | true => exact ((flashVerifyAddress_iff config destination length).mp verified).2.1
    | false =>
        rw [flashPartialCheckErase, if_pos verified] at check
        cases check
  rcases drvFlashWrite_spec config checked destination length (some data) with
    ⟨buffer, written, given, nonempty, fits, write, cells⟩ | ⟨-, refused⟩
  · cases given
    obtain ⟨kept, erased, -⟩ := inside fits
    dsimp only at wrote
    rw [write] at wrote
    refine ⟨aligned, nonempty, fits, written, ?_, fun i below => ?_, fun cell apart => ?_⟩
    · cases wrote
      rfl
    · -- The cell was erased by the check, so that the bits of the data are left.
      rw [cells, if_pos ⟨by omega, by omega⟩, erased rfl i below, Nat.add_sub_cancel_left]
      exact UInt8.neg_one_and
    · rw [cells, if_neg, kept cell apart]
      rintro ⟨low, high⟩
      exact apart (cell - destination.toNat) (by omega) (by rw [Nat.add_sub_cancel' low])
  · dsimp only at wrote
    rw [refused] at wrote
    cases wrote

/-- A write of blocks that are blank, or that can be erased, succeeds. -/
theorem flashWrite_accepts (config : FlashConfig) (device : Nor.Device)
    {destination length : UInt32} (data : Nat → UInt8) (aligned : destination.toNat % 4096 = 0)
    (nonempty : length.toNat ≠ 0)
    (fits : destination.toNat + length.toNat ≤ config.density.toNat)
    (able : config.erase4kbOpcode ≠ 0 ∨
      ∀ cell, destination.toNat ≤ cell → device.cells cell = 0xFF) :
    ∃ nvm, flashWrite (flashInit config device) destination (some data) length =
      some (.done, nvm) := by
  obtain ⟨blocks, bound, -⟩ := density_spec config
  have check : ∃ checked, flashPartialCheckErase (flashInit config device) destination length =
      some (.done, flashInit config checked) := by
    rcases able with opcode | blank
    · obtain ⟨status, checked, check, inside, -⟩ := checkErase_spec config device destination length
      rw [(inside fits).2.2 aligned opcode] at check
      exact ⟨checked, check⟩
    · have verified := (flashVerifyAddress_iff config destination length).mpr
        ⟨by omega, aligned, by omega⟩
      obtain ⟨start, count, offset, ends⟩ := checkErase_numbers nonempty (by omega) aligned
      refine ⟨device, ?_⟩
      rw [flashPartialCheckErase, if_neg (by
        rw [show flashVerifyAddress (flashInit config device).densityInBlocks destination length =
          true from verified]
        exact nofun)]
      dsimp only
      rw [if_neg (fun zero => absurd (congrArg UInt32.toNat zero) (by
        rw [count]
        exact Nat.succ_ne_zero _))]
      rw [Nat.mod_eq_of_lt (by omega)] at ends
      exact checkErase_blank config device (by omega) _ _ (by omega) fun cell above =>
        blank cell (by omega)
  obtain ⟨checked, check⟩ := check
  rw [flashWrite, check, Option.map_some]
  rcases drvFlashWrite_spec config checked destination length (some data) with
    ⟨-, written, -, -, -, write, -⟩ | ⟨reason, -⟩
  · dsimp only
    rw [write]
    exact ⟨_, rfl⟩
  · rcases reason with none | zero | behind
    · cases none
    · exact absurd zero nonempty
    · omega

/-- A write of the NVM programmer ends.  When it succeeds, the range reads back as it was
written; the blocks that the range does not touch keep their content; a range that reaches
behind the last block is refused, and the flash stays as it is; and it does succeed for
blocks in the flash that can be erased. -/
theorem flash_write_reads_back (config : FlashConfig) (device : Nor.Device)
    (destination : UInt32) (source : Option (Nat → UInt8)) (length : UInt32) :
    ∃ status written, flashWrite (flashInit config device) destination source length =
        some (status, flashInit config written) ∧
      (status = .done → ∃ data, source = some data ∧
        ∀ buffer, ∃ filled, flashRead (flashInit config written) destination buffer length =
          (.done, filled) ∧ ∀ i < length.toNat, filled i = data i) ∧
      (∀ cell, (∀ i < length.toNat, cell / 4096 ≠ (destination.toNat + i) / 4096) →
        written.cells cell = device.cells cell) ∧
      (config.densityInBlocks.toNat * 4096 < destination.toNat + length.toNat →
        status ≠ .done ∧ written = device) ∧
      (destination.toNat % 4096 = 0 → length ≠ 0 → source.isSome →
        destination.toNat + length.toNat ≤ config.density.toNat →
        config.erase4kbOpcode ≠ 0 → status = .done) := by
  obtain ⟨-, -, real⟩ := density_spec config
  obtain ⟨status, checked, check, inside, past⟩ := checkErase_spec config device destination length
  have kept : ∀ cell, (∀ i < length.toNat, cell / 4096 ≠ (destination.toNat + i) / 4096) →
      checked.cells cell = device.cells cell := by
    intro cell apart
    by_cases fits : destination.toNat + length.toNat ≤ config.density.toNat
    · exact (inside fits).1 cell apart
    · rw [past (by omega)]
  have unchanged : config.densityInBlocks.toNat * 4096 < destination.toNat + length.toNat →
      checked = device := fun behind => past (by omega)
  by_cases success : status = .done
  · subst success
    rcases drvFlashWrite_spec config checked destination length source with
      ⟨data, written, given, nonempty, fits, write, cells⟩ | ⟨reason, refused⟩
    · refine ⟨.done, written, ?_, fun _ => ⟨data, given, fun buffer => ?_⟩, ?_,
        fun behind => absurd fits (by omega), fun _ _ _ _ _ => rfl⟩
      · rw [flashWrite, check]
        show some _ = _
        dsimp only
        rw [write]
        rfl
      · obtain ⟨filled, read, bytes⟩ :=
          readLoop_spec config written destination length 0 buffer fits
        refine ⟨filled, read, fun i below => ?_⟩
        -- The cell was erased by the check, so that the bits of the data are left.
        have erased := (inside fits).2.1 rfl i below
        rw [bytes, if_pos ⟨Nat.zero_le i, by omega⟩, Nat.sub_zero, cells,
          if_pos ⟨by omega, by omega⟩, erased, Nat.add_sub_cancel_left]
        exact UInt8.neg_one_and
      · intro cell apart
        rw [cells, if_neg, kept cell apart]
        rintro ⟨low, high⟩
        exact apart (cell - destination.toNat) (by omega) (by rw [Nat.add_sub_cancel' low])
    · refine ⟨.invalidParameter, checked, ?_, nofun, kept,
        fun behind => ⟨nofun, unchanged behind⟩, ?_⟩
      · rw [flashWrite, check]
        show some _ = _
        dsimp only
        rw [refused]
      · intro _ nonempty given fits _
        rcases reason with none | zero | behind
        · rw [none] at given
          exact absurd given nofun
        · exact absurd (UInt32.toNat_inj.mp zero) nonempty
        · omega
  · refine ⟨status, checked, ?_, fun done => absurd done success, kept,
      fun behind => ⟨success, unchanged behind⟩, ?_⟩
    · rw [flashWrite, check]
      cases status with
      | done => exact absurd rfl success
      | fail => rfl
      | invalidParameter => rfl
      | busy => rfl
      | errBounds => rfl
    · intro aligned _ _ fits opcode
      exact (inside fits).2.2 aligned opcode

end QHal.Flash
