/-
Module: QHal.Proofs.NtMemXip
Purpose: When the RRAM write of the application keeps the bit SW_CACHE_TEST_MODE clear during its
  block writes and set at its end.  With the bit left out the write is the one of the build without
  FLASH_XIP_SUPPORT.
Trusted boundary: none
Main exports: rangeCheckXip_eq, patchTempXip_eq, Piece, Plan, Undisturbed, KeepsTestMode,
  keepsTestMode_iff
-/
import QHal.Proofs.NtRramWrite
import QHal.Rram.NtMemXip

namespace QHal.Rram

/-! ## The reads -/

section Reads

variable {readByDxe : Bool} {memory : Mem UInt8}

/-- The read of a lock byte reads no lock. -/
theorem rangeCheckXipDepth_lockAddr (depth : Nat) {regionNum : UInt32} (small : regionNum < 24)
    (rdWrLock : UInt32) (swCacheTestMode : Bool) :
    rangeCheckXipDepth readByDxe memory (depth + 1) (lockAddr regionNum rdWrLock) 1 readLocked
      swCacheTestMode = (errNone, swCacheTestMode) := by
  have inRegion := lockAddr_of_bytes (P := fun address =>
      (RramDriver.app.otpAddrCheck address = true ∧
        RramDriver.app.otpAddrCheck (address + 1) = true) ∧
        addressToRegionNumMap address = rwPermissionRegion ∧
        addressToRegionNumMap (address + 1) = rwPermissionRegion) small rdWrLock (by decide)
  obtain ⟨inOtp, first, second⟩ := inRegion
  have cut : (1 : UInt32).toUInt16.toUInt32 = 1 := by decide
  have known : ¬ (otpRegionLockMap.length ≤ rwPermissionRegion ∨
      otpRegionLockMap.length ≤ rwPermissionRegion) := by decide
  have granted : ∀ regionLocked, checkOtpRegionRwPermissionXip regionLocked
      (lockAddr regionNum rdWrLock) (1 : UInt32).toUInt16 readLocked swCacheTestMode =
        (true, swCacheTestMode) := by
    intro regionLocked
    simp only [checkOtpRegionRwPermissionXip]
    rw [cut, first, second, if_neg known]
    exact if_pos ⟨rfl, rfl, trivial⟩
  rw [rangeCheckXipDepth]
  dsimp only
  rw [if_pos inOtp, granted]
  rfl

/-- A lock test reads its lock byte, and so leaves the bit as reads do. -/
theorem ntOtpRegionLockedXipWith_eq (depth : Nat) {regionNum rdWrLock : UInt32}
    (known : regionNum < RramDriver.app.maxRegion) (kind : rdWrLock < maxLocked)
    (swCacheTestMode : Bool) :
    ntOtpRegionLockedXipWith readByDxe (rangeCheckXipDepth readByDxe memory (depth + 1)) memory
        regionNum rdWrLock swCacheTestMode =
      (ntOtpRegionLockedWith .app (rangeCheckDepth .app memory (depth + 1)) memory regionNum
        rdWrLock, !readByDxe) := by
  have valid : ¬ (RramDriver.app.maxRegion ≤ regionNum ∨ maxLocked ≤ rdWrLock) := by
    rintro (noBit | noKind)
    · exact UInt32.not_le.mpr known noBit
    · exact UInt32.not_le.mpr kind noKind
  have granted := @rangeCheckDepth_lockAddr .app memory depth regionNum (maxRegion_lt known)
    rdWrLock
  rw [ntOtpRegionLockedXipWith, if_neg valid, ntOtpRegionLockedWith, if_neg valid,
    rramReadWith_granted _ (by decide) granted, rramReadXipWith, if_neg (by decide),
    rangeCheckXipDepth_lockAddr depth (maxRegion_lt known)]
  cases readByDxe <;> rfl

/-- Whether a range check reads lock bytes. -/
def LocksRead (rramAdd dataLen rdWrLock : UInt32) : Prop :=
  (RramDriver.app.otpAddrCheck rramAdd = true ∧
    RramDriver.app.otpAddrCheck (rramAdd + dataLen) = true) ∧
  ¬ (otpRegionLockMap.length ≤ addressToRegionNumMap rramAdd ∨
    otpRegionLockMap.length ≤
      addressToRegionNumMap (rramAdd + dataLen.toUInt16.toUInt32)) ∧
  ¬ (addressToRegionNumMap rramAdd =
      addressToRegionNumMap (rramAdd + dataLen.toUInt16.toUInt32) ∧
    addressToRegionNumMap rramAdd = rwPermissionRegion ∧ rdWrLock = readLocked)

instance (rramAdd dataLen rdWrLock : UInt32) : Decidable (LocksRead rramAdd dataLen rdWrLock) :=
  inferInstanceAs (Decidable (_ ∧ _ ∧ _))

/-- The loop over the regions of a range. -/
theorem regionsLoop_eq (depth : Nat) {rdWrLock : UInt32} (kind : rdWrLock < maxLocked)
    (regions : List Nat) (known : ∀ region ∈ regions, region < otpRegionLockMap.length)
    (retValue swCacheTestMode : Bool) :
    regions.foldl
      (fun (retValue, swCacheTestMode) region =>
        let (locked, swCacheTestMode) :=
          ntOtpRegionLockedXipWith readByDxe
            (rangeCheckXipDepth readByDxe memory (depth + 1)) memory
            (lockNumOf region) rdWrLock swCacheTestMode
        (if locked ≠ 0 then false else retValue, swCacheTestMode))
      (retValue, swCacheTestMode) =
    (retValue && regions.all fun region =>
        ntOtpRegionLockedWith .app (rangeCheckDepth .app memory (depth + 1)) memory
          (lockNumOf region) rdWrLock == 0,
      if regions = [] then swCacheTestMode else !readByDxe) := by
  induction regions generalizing retValue swCacheTestMode with
  | nil => simp
  | cons region regions ih =>
      have first : region < otpRegionLockMap.length := known region List.mem_cons_self
      rw [List.foldl_cons]
      dsimp only
      rw [ntOtpRegionLockedXipWith_eq depth (lockNumOf_lt first) kind]
      dsimp only
      rw [ih (fun other listed => known other (List.mem_cons_of_mem _ listed)), List.all_cons,
        if_neg (List.cons_ne_nil _ _), ite_self]
      congr 1
      split_ifs with locked
      · rw [beq_eq_false_iff_ne.mpr locked, Bool.false_and, Bool.and_false]
      · rw [not_not.mp locked]
        rfl

/-- The regions of a range in the OTP area are in order. -/
theorem regions_ordered {rramAdd dataLen : UInt32}
    (inOtp : RramDriver.app.otpAddrCheck rramAdd = true)
    (known : addressToRegionNumMap (rramAdd + dataLen.toUInt16.toUInt32) <
      otpRegionLockMap.length) :
    addressToRegionNumMap rramAdd ≤
      addressToRegionNumMap (rramAdd + dataLen.toUInt16.toUInt32) := by
  have start : otpRegionStAddr.toNat = 0x1A0000 := rfl
  have cut : dataLen.toUInt16.toUInt32.toNat < 2 ^ 16 := by
    rw [UInt16.toNat_toUInt32]
    exact dataLen.toUInt16.toNat_lt
  have first := otpAddrCheck_iff.mp inOtp
  have slack := @slack_le .app
  have last := addressToRegionNumMap_lt.mp known
  have sum : (rramAdd + dataLen.toUInt16.toUInt32).toNat =
      rramAdd.toNat + dataLen.toUInt16.toUInt32.toNat := by
    rw [UInt32.toNat_add]
    exact Nat.mod_eq_of_lt (by omega)
  rw [addressToRegionNumMap_from (UInt32.le_iff_toNat_le.mpr (start ▸ first.1)),
    addressToRegionNumMap_from last.1]
  exact Regions.regionOf_mono (by omega)

/-- The range check answers as in the other build. -/
theorem rangeCheckXipDepth_eq (depth : Nat) {rdWrLock : UInt32} (kind : rdWrLock < maxLocked)
    (rramAdd dataLen : UInt32) (swCacheTestMode : Bool) :
    rangeCheckXipDepth readByDxe memory (depth + 2) rramAdd dataLen rdWrLock swCacheTestMode =
      (rangeCheckDepth .app memory (depth + 2) rramAdd dataLen rdWrLock,
        if LocksRead rramAdd dataLen rdWrLock then !readByDxe else swCacheTestMode) := by
  rw [rangeCheckXipDepth, rangeCheckDepth]
  dsimp only
  by_cases inOtp : RramDriver.app.otpAddrCheck rramAdd = true ∧
      RramDriver.app.otpAddrCheck (rramAdd + dataLen) = true
  · rw [if_pos inOtp, if_pos inOtp, checkOtpRegionRwPermissionXip, checkOtpRegionRwPermission]
    dsimp only
    by_cases unknown : otpRegionLockMap.length ≤ addressToRegionNumMap rramAdd ∨
        otpRegionLockMap.length ≤ addressToRegionNumMap (rramAdd + dataLen.toUInt16.toUInt32)
    · have none : ¬ LocksRead rramAdd dataLen rdWrLock := fun reads => reads.2.1 unknown
      rw [if_pos unknown, if_pos unknown, if_neg none]
      rfl
    rw [if_neg unknown, if_neg unknown]
    by_cases control : addressToRegionNumMap rramAdd =
        addressToRegionNumMap (rramAdd + dataLen.toUInt16.toUInt32) ∧
      addressToRegionNumMap rramAdd = rwPermissionRegion ∧ rdWrLock = readLocked
    · have none : ¬ LocksRead rramAdd dataLen rdWrLock := fun reads => reads.2.2 control
      rw [if_pos control, if_pos control, if_neg none]
      rfl
    rw [not_or] at unknown
    have ordered := regions_ordered inOtp.1 (Nat.not_le.mp unknown.2)
    have some : List.range' (addressToRegionNumMap rramAdd)
        (addressToRegionNumMap (rramAdd + dataLen.toUInt16.toUInt32) + 1 -
          addressToRegionNumMap rramAdd) ≠ [] := by
      rw [ne_eq, List.range'_eq_nil_iff]
      omega
    have reads : LocksRead rramAdd dataLen rdWrLock := ⟨inOtp, not_or.mpr unknown, control⟩
    rw [if_neg control, if_neg control, regionsLoop_eq depth kind, if_neg some, Bool.true_and,
      if_pos reads]
    · dsimp only
      split_ifs <;> rfl
    · intro region listed
      have bounds := List.mem_range'_1.mp listed
      omega
  · have none : ¬ LocksRead rramAdd dataLen rdWrLock := fun reads => inOtp reads.1
    rw [if_neg inOtp, if_neg inOtp, if_neg none]
    split_ifs <;> rfl

theorem rangeCheckXip_eq {rdWrLock : UInt32} (kind : rdWrLock < maxLocked)
    (rramAdd dataLen : UInt32) (swCacheTestMode : Bool) :
    rangeCheckXip readByDxe memory rramAdd dataLen rdWrLock swCacheTestMode =
      (rramAddressRangeCheck .app memory rramAdd dataLen rdWrLock,
        if LocksRead rramAdd dataLen rdWrLock then !readByDxe else swCacheTestMode) :=
  rangeCheckXipDepth_eq 0 kind rramAdd dataLen swCacheTestMode

/-- A read that leaves the bit clear. -/
def QuietRead (readByDxe : Bool) (memory : Mem UInt8) (address width : UInt32) : Prop :=
  readByDxe = true ∧ Readable memory address width

instance (readByDxe : Bool) (memory : Mem UInt8) (address width : UInt32) :
    Decidable (QuietRead readByDxe memory address width) :=
  inferInstanceAs (Decidable (_ = true ∧ _ = (0 : Int)))

theorem rramReadXipWith_eq (readByDxe : Bool) (memory : Mem UInt8) (address : UInt32)
    (rdata : Nat → UInt8) {width : UInt32} (some : width ≠ 0) (swCacheTestMode : Bool) :
    rramReadXipWith readByDxe (rangeCheckXip readByDxe memory) memory address rdata width
        swCacheTestMode =
      (rramRead .app memory address rdata width,
        decide (¬ QuietRead readByDxe memory address width)) := by
  rw [rramReadXipWith, if_neg some, rangeCheckXip_eq (by decide), rramRead, rramReadWith,
    if_neg some]
  dsimp only
  by_cases refused : rramAddressRangeCheck .app memory address width readLocked ≠ 0
  · have loud : ¬ QuietRead readByDxe memory address width := fun quiet => refused quiet.2
    rw [if_pos refused, if_pos refused, decide_eq_true loud]
  · rw [if_neg refused, if_neg refused]
    cases readByDxe with
    | false => rfl
    | true =>
        have quiet : QuietRead true memory address width := ⟨rfl, not_not.mp refused⟩
        rw [if_pos rfl, Bool.not_true, ite_self, decide_eq_false (not_not.mpr quiet)]

theorem patchTempXip_eq (readByDxe : Bool) (state : XipRram) (desAdr : UInt32) {width : UInt32}
    (some : width ≠ 0) (offset count : Nat) (srcAdr : Nat → UInt8) :
    patchTempXip readByDxe state desAdr width offset count srcAdr =
      { state with
        rram := patchTemp state.rram desAdr width offset count srcAdr
        swCacheTestMode := decide (¬ QuietRead readByDxe state.rram.memory desAdr width) } := by
  rw [patchTempXip, rramReadXipWith_eq readByDxe _ _ _ some]
  rfl

end Reads

/-! ## The other build -/

section Erase

/-- The result with the bit left out. -/
def erase (result : Int × XipRram) : Int × NtRram := (result.1, result.2.rram)

/-- Two parts, the second of which runs if the first one succeeds. -/
theorem erase_andThen (status : Int) (middle : XipRram) (next : Int × XipRram) :
    erase (if status ≠ 0 then (status, middle) else next) =
      if (erase (status, middle)).1 ≠ 0 then erase (status, middle) else erase next :=
  apply_ite erase _ _ _

variable {readByDxe : Bool} {dma : UInt32 → BlockAnswer} {state : XipRram}

theorem erase_patchWrite (desAdr : UInt32) {width : UInt32} (some : width ≠ 0)
    (offset count bytes : Nat) (srcAdr : Nat → UInt8) :
    erase (writeTempXip dma (patchTempXip readByDxe state desAdr width offset count srcAdr) desAdr
        bytes) =
      writeTemp dma (patchTemp state.rram desAdr width offset count srcAdr) desAdr bytes := by
  rw [patchTempXip_eq readByDxe state desAdr some]
  rfl

theorem erase_headLine (dst : UInt32) (srcAdr : Nat → UInt8) (length : UInt32) :
    erase (headLineXip readByDxe dma state dst srcAdr length) =
      headLine dma state.rram dst srcAdr length :=
  erase_patchWrite _ (by decide) _ _ _ _

theorem erase_blocksLoop {write : XipRram → UInt32 → Nat → Int × XipRram}
    {plain : NtRram → UInt32 → Nat → Int × NtRram}
    (step : ∀ state desAdr src, erase (write state desAdr src) = plain state.rram desAdr src)
    (width blocks : Nat) (desAdr : UInt32) (src : Nat) (state : XipRram) :
    erase (blocksLoopXip write width blocks desAdr src state) =
      blocksLoopWith plain width blocks desAdr src state.rram := by
  induction blocks generalizing desAdr src state with
  | zero => rfl
  | succ blocks ih =>
      have first := step state desAdr src
      rw [blocksLoopXip, blocksLoopWith]
      generalize write state desAdr src = outcome at first ⊢
      obtain ⟨status, middle⟩ := outcome
      rw [← first]
      exact (erase_andThen status middle _).trans (if_congr Iff.rfl rfl (ih _ _ middle))

theorem erase_tempBlocks (srcAdr : Nat → UInt8) (blocks : Nat) (desAdr : UInt32) (src : Nat)
    (state : XipRram) :
    erase (blocksLoopXip (writeThroughTempXip dma srcAdr) 256 blocks desAdr src state) =
      tempBlocksLoop dma srcAdr blocks desAdr src state.rram :=
  erase_blocksLoop (fun _ _ _ => rfl) 256 blocks desAdr src state

theorem erase_fullBlocks (srcAdr : Nat → UInt8) (blocks : Nat) (desAdr : UInt32) (src : Nat)
    (state : XipRram) :
    erase (blocksLoopXip (fun state desAdr src =>
        writeSourceXip dma state desAdr (fun i => srcAdr (src + i)) 16368) 16368 blocks desAdr src
          state) =
      fullBlocksLoop dma srcAdr blocks desAdr src state.rram :=
  erase_blocksLoop (fun _ _ _ => rfl) 16368 blocks desAdr src state

theorem erase_tempCopy (desAdr : UInt32) (srcAdr : Nat → UInt8) (remaining : Nat) :
    erase (tempCopyXip readByDxe dma state desAdr srcAdr remaining) =
      tempCopy dma state.rram desAdr srcAdr remaining := by
  have front := @erase_tempBlocks dma srcAdr (remaining / 256 % 2 ^ 16) desAdr 0 state
  rw [tempCopyXip, tempCopy, ← front]
  generalize blocksLoopXip (writeThroughTempXip dma srcAdr) 256 (remaining / 256 % 2 ^ 16) desAdr 0
    state = outcome
  obtain ⟨status, middle⟩ := outcome
  refine (erase_andThen status middle _).trans (if_congr Iff.rfl rfl ?_)
  dsimp only
  split_ifs
  · exact erase_patchWrite _ (by decide) _ _ _ _
  · rfl

theorem erase_partialBlock (desAdr : UInt32) (srcAdr : Nat → UInt8) (size : Nat) :
    erase (partialBlockXip readByDxe dma state desAdr srcAdr size) =
      partialBlock dma state.rram desAdr srcAdr size := by
  rw [partialBlockXip, partialBlock]
  by_cases lines : size % 16 = 0
  · rw [if_pos lines, if_pos lines]
    rfl
  rw [if_neg lines, if_neg lines]
  have front : erase (if size / 16 * 16 ≠ 0 then
        writeSourceXip dma state desAdr srcAdr (size / 16 * 16) else (errNone, state)) =
      if size / 16 * 16 ≠ 0 then writeSource dma state.rram desAdr srcAdr (size / 16 * 16)
      else (errNone, state.rram) := by
    split_ifs <;> rfl
  dsimp only
  rw [← front]
  generalize (if size / 16 * 16 ≠ 0 then writeSourceXip dma state desAdr srcAdr (size / 16 * 16)
    else (errNone, state)) = outcome
  obtain ⟨status, middle⟩ := outcome
  exact (erase_andThen status middle _).trans
    (if_congr Iff.rfl rfl (erase_patchWrite _ (by decide) _ _ _ _))

theorem erase_blockCopy (desAdr : UInt32) (srcAdr : Nat → UInt8) (remaining : Nat) :
    erase (blockCopyXip readByDxe dma state desAdr srcAdr remaining) =
      blockCopy dma state.rram desAdr srcAdr remaining := by
  have front := @erase_fullBlocks dma srcAdr (remaining / 16368 % 2 ^ 16) desAdr 0 state
  rw [blockCopyXip, blockCopy, ← front]
  dsimp only
  generalize blocksLoopXip (fun state desAdr src =>
    writeSourceXip dma state desAdr (fun i => srcAdr (src + i)) 16368) 16368
    (remaining / 16368 % 2 ^ 16) desAdr 0 state = outcome
  obtain ⟨status, middle⟩ := outcome
  refine (erase_andThen status middle _).trans (if_congr Iff.rfl rfl ?_)
  split_ifs
  · exact erase_partialBlock _ _ _
  · rfl

theorem erase_setTestMode (result : Int × XipRram) : erase (setTestMode result) = erase result := by
  unfold setTestMode
  split_ifs <;> rfl

/-- With the bit left out the write is that of the other build. -/
theorem erase_ntRramWriteXip (readByDxe : Bool) (dma : UInt32 → BlockAnswer) (state : XipRram)
    (dst srcAdr : UInt32) (wdata : Nat → UInt8) (length : UInt32) :
    erase (ntRramWriteXip readByDxe dma state dst srcAdr wdata length) =
      ntRramWrite dma state.rram dst srcAdr wdata length := by
  rw [ntRramWriteXip, ntRramWrite, rangeCheckXip_eq (by decide)]
  dsimp only
  by_cases invalid : srcAdr = 0 ∨ length = 0
  · rw [if_pos invalid, if_pos invalid]
    rfl
  by_cases refused : rramAddressRangeCheck .app state.rram.memory dst length writeLocked ≠ 0
  · rw [if_neg invalid, if_neg invalid, if_pos refused, if_pos refused]
    rfl
  rw [if_neg invalid, if_neg invalid, if_neg refused, if_neg refused]
  by_cases unaligned : dst % 16 ≠ 0 ∨ srcAdr % 4 ≠ 0
  · rw [if_pos unaligned, if_pos unaligned]
    have head := @erase_headLine readByDxe dma { state with swCacheTestMode := false } dst wdata
      length
    dsimp only at head
    rw [← head]
    generalize headLineXip readByDxe dma { state with swCacheTestMode := false } dst wdata length =
      outcome
    obtain ⟨status, middle⟩ := outcome
    refine (erase_andThen status middle _).trans (if_congr Iff.rfl rfl ?_)
    dsimp only
    split_ifs
    · rfl
    · exact erase_tempCopy _ _ _
    · exact (erase_setTestMode _).trans (erase_blockCopy _ _ _)
  · rw [if_neg unaligned, if_neg unaligned]
    exact (erase_setTestMode _).trans (erase_blockCopy _ _ _)

end Erase

/-! ## Pieces of a write -/

section Pieces

variable {readByDxe : Bool} {dma : UInt32 → BlockAnswer} {state : XipRram}

/-- The bit was clear at each block write. -/
def Quiet (during : List Bool) : Prop := ∀ bit ∈ during, bit = false

theorem quiet_append {during : List Bool} {bit : Bool} :
    Quiet (during ++ [bit]) ↔ Quiet during ∧ bit = false := by
  unfold Quiet
  simp only [List.mem_append, List.mem_singleton, or_imp, forall_and, forall_eq]

/-- A part of a write that starts with the bit clear: it writes with the bit clear if `clear`
holds, and then it leaves the bit clear and fails if `fails` holds. -/
structure Piece (state : XipRram) (clear fails : Prop) (result : Int × XipRram) : Prop where
  grows : Quiet result.2.during → Quiet state.during
  quiet : state.swCacheTestMode = false → Quiet state.during →
    (Quiet result.2.during ↔ clear)
  bit : state.swCacheTestMode = false → clear → result.2.swCacheTestMode = false
  status : clear → (result.1 = 0 ↔ ¬ fails)

theorem Piece.congr {clear clear' fails fails' : Prop} {result : Int × XipRram}
    (piece : Piece state clear fails result) (sameClear : clear ↔ clear')
    (sameFails : fails ↔ fails') : Piece state clear' fails' result := by
  rw [← sameClear, ← sameFails]
  exact piece

theorem Piece.nothing : Piece state True False (errNone, state) where
  grows := id
  quiet := fun _ quiet => iff_true_intro quiet
  bit := fun clear _ => clear
  status := fun _ => ⟨fun _ => id, fun _ => rfl⟩

theorem wrote_piece {outcome : Int × NtRram} {fails : Prop}
    (status : outcome.1 = 0 ↔ ¬ fails) : Piece state True fails (state.wrote outcome) where
  grows := fun quiet => (quiet_append.mp quiet).1
  quiet := fun clear quiet => iff_true_intro (quiet_append.mpr ⟨quiet, clear⟩)
  bit := fun clear _ => clear
  status := fun _ => status

theorem ntRramWriteWithRetry_status (memory : Mem UInt8) (desAdr : UInt32) (wdata : Nat → UInt8)
    (length : Nat) :
    (ntRramWriteWithRetry dma memory desAdr wdata length).1 = 0 ↔ ¬ dma desAdr ≠ none := by
  unfold ntRramWriteWithRetry
  cases dma desAdr <;> simp [errNone, ebade]

theorem writeSourceXip_piece (desAdr : UInt32) (srcAdr : Nat → UInt8) (length : Nat) :
    Piece state True (dma desAdr ≠ none) (writeSourceXip dma state desAdr srcAdr length) :=
  wrote_piece (ntRramWriteWithRetry_status _ _ _ _)

theorem writeThroughTempXip_piece (srcAdr : Nat → UInt8) (desAdr : UInt32) (src : Nat) :
    Piece state True (dma desAdr ≠ none) (writeThroughTempXip dma srcAdr state desAdr src) :=
  @wrote_piece state (writeTemp dma { state.rram with
    tempRWBuff := Mem.overlay state.rram.tempRWBuff 0 256 fun i => srcAdr (src + i) } desAdr 256) _
    (ntRramWriteWithRetry_status _ _ _ _)

/-- A line or block that is read, patched and written back. -/
theorem patchWrite_piece (readByDxe : Bool) (desAdr : UInt32) {width : UInt32} (some : width ≠ 0)
    (offset count bytes : Nat) (srcAdr : Nat → UInt8) :
    Piece state (QuietRead readByDxe state.rram.memory desAdr width) (dma desAdr ≠ none)
      (writeTempXip dma (patchTempXip readByDxe state desAdr width offset count srcAdr) desAdr
        bytes) := by
  rw [patchTempXip_eq readByDxe state desAdr some]
  refine ⟨fun quiet => (quiet_append.mp quiet).1, fun _ quiet => ?_, fun _ clear => ?_,
    fun _ => ntRramWriteWithRetry_status _ _ _ _⟩
  · refine quiet_append.trans ?_
    rw [decide_eq_false_iff_not, not_not]
    exact and_iff_right quiet
  · exact decide_eq_false (not_not.mpr clear)

/-- Two parts, the second of which runs if the first one succeeds. -/
theorem Piece.andThen {clear fails clear' clear'' fails'' : Prop} {status : Int}
    {middle : XipRram} {next : Int × XipRram} (first : Piece state clear fails (status, middle))
    (second : status = 0 → Piece middle clear' fails'' next)
    (same : status = 0 → clear → (clear' ↔ clear'')) :
    Piece state (clear ∧ (¬ fails → clear'')) (fails ∨ fails'')
      (if status ≠ 0 then (status, middle) else next) := by
  have ok : clear → (status = 0 ↔ ¬ fails) := first.status
  split_ifs with failed
  · have stopped : clear → fails := fun here => by
      by_contra runs
      exact failed ((ok here).mpr runs)
    refine ⟨first.grows, fun bit quiet => ?_, fun bit clear => first.bit bit clear.1, ?_⟩
    · rw [first.quiet bit quiet]
      exact ⟨fun here => ⟨here, fun runs => absurd (stopped here) runs⟩, And.left⟩
    · rintro ⟨here, -⟩
      exact iff_of_false failed fun neither => neither (.inl (stopped here))
  · have done := not_not.mp failed
    replace second := second done
    refine ⟨fun quiet => first.grows (second.grows quiet), fun bit quiet => ?_, ?_, ?_⟩
    · constructor
      · intro last
        have here := (first.quiet bit quiet).mp (second.grows last)
        have later := (second.quiet (first.bit bit here)
          ((first.quiet bit quiet).mpr here)).mp last
        exact ⟨here, fun _ => (same done here).mp later⟩
      · rintro ⟨here, later⟩
        exact (second.quiet (first.bit bit here) ((first.quiet bit quiet).mpr here)).mpr
          ((same done here).mpr (later ((ok here).mp done)))
    · rintro bit ⟨here, later⟩
      exact second.bit (first.bit bit here) ((same done here).mpr (later ((ok here).mp done)))
    · rintro ⟨here, later⟩
      have runs := (ok here).mp done
      rw [second.status ((same done here).mpr (later runs)), not_or]
      exact (and_iff_right runs).symm

theorem blocksLoop_piece {write : XipRram → UInt32 → Nat → Int × XipRram}
    (step : ∀ state desAdr src, Piece state True (dma desAdr ≠ none) (write state desAdr src))
    (width blocks : Nat) (desAdr : UInt32) (src : Nat) (state : XipRram) :
    Piece state True (∃ k < blocks, dma (desAdr + UInt32.ofNat (k * width)) ≠ none)
      (blocksLoopXip write width blocks desAdr src state) := by
  induction blocks generalizing desAdr src state with
  | zero => exact Piece.nothing.congr Iff.rfl (iff_of_false id fun ⟨_, below, _⟩ => by cases below)
  | succ blocks ih =>
      have first := step state desAdr src
      rw [blocksLoopXip]
      generalize write state desAdr src = outcome at first ⊢
      obtain ⟨status, middle⟩ := outcome
      have next : ∀ k, desAdr + UInt32.ofNat width + UInt32.ofNat (k * width) =
          desAdr + UInt32.ofNat ((k + 1) * width) := by
        intro k
        rw [UInt32.add_assoc, ← UInt32.ofNat_add, Nat.succ_mul, Nat.add_comm width]
      refine (first.andThen (fun _ => ih _ _ middle) fun _ _ => Iff.rfl).congr (by simp) ?_
      simp only [next]
      rw [Nat.exists_lt_succ_left, Nat.zero_mul, add_ofNat_zero]

end Pieces

/-! ## The writes and reads of a copy -/

section Plans

variable {readByDxe : Bool} {dma : UInt32 → BlockAnswer} {state : XipRram}

/-- Where the blocks of a copy go, and the last line or block, which is read back first. -/
structure Plan where
  starts : List UInt32
  back : Option RmwRead

/-- The addresses of full blocks. -/
def fullStarts (desAdr : UInt32) (width blocks : Nat) : List UInt32 :=
  (List.range blocks).map fun k => desAdr + UInt32.ofNat (k * width)

/-- A copy that starts `done` bytes behind the start of the write. -/
def Plan.behind (plan : Plan) (done : Nat) : Plan :=
  { plan with back := plan.back.map fun back => { back with done := done + back.done } }

/-- The copy through the temporary buffer. -/
def tempPlan (desAdr : UInt32) (remaining : Nat) : Plan :=
  let blocks := remaining / 256 % 2 ^ 16
  { starts := fullStarts desAdr 256 blocks
    back := if remaining % 256 ≠ 0 then
      some ⟨blocks * 256, desAdr + UInt32.ofNat (blocks * 256), 256⟩ else none }

/-- The partial block of a copy by large blocks. -/
def partialPlan (desAdr : UInt32) (size : Nat) : Plan :=
  { starts := if size / 16 * 16 ≠ 0 then [desAdr] else []
    back := if size % 16 ≠ 0 then
      some ⟨size / 16 * 16, desAdr + UInt32.ofNat (size / 16 * 16), 16⟩ else none }

/-- The copy by large blocks. -/
def blockPlan (desAdr : UInt32) (remaining : Nat) : Plan :=
  let blocks := remaining / 16368 % 2 ^ 16
  let last := partialPlan (desAdr + UInt32.ofNat (blocks * 16368)) (remaining % 16368)
  { starts := fullStarts desAdr 16368 blocks ++ last.starts
    back := (last.behind (blocks * 16368)).back }

/-- If the blocks before it succeed, the read back leaves the bit clear. -/
def Plan.Clear (plan : Plan) (readByDxe : Bool) (dma : UInt32 → BlockAnswer) (memory : Mem UInt8)
    (dst : UInt32) (wdata : Nat → UInt8) : Prop :=
  ∀ back ∈ plan.back, (∀ start ∈ plan.starts, dma start = none) →
    QuietRead readByDxe (memory.write dst back.done wdata) back.address back.width

/-- No block fails. -/
def Plan.Succeeds (plan : Plan) (dma : UInt32 → BlockAnswer) : Prop :=
  (∀ start ∈ plan.starts, dma start = none) ∧ ∀ back ∈ plan.back, dma back.address = none

theorem fullStarts_fail {desAdr : UInt32} {width blocks : Nat} :
    (∃ k < blocks, dma (desAdr + UInt32.ofNat (k * width)) ≠ none) ↔
      ¬ ∀ start ∈ fullStarts desAdr width blocks, dma start = none := by
  unfold fullStarts
  simp only [List.mem_map, List.mem_range, forall_exists_index, and_imp,
    forall_apply_eq_imp_iff₂, not_forall, ne_eq, exists_prop]

/-- A read back that comes behind blocks which succeed. -/
theorem Plan.clear_some {starts : List UInt32} {done : Nat} {address width : UInt32}
    {memory : Mem UInt8} {dst : UInt32} {wdata : Nat → UInt8} :
    (Plan.mk starts (some ⟨done, address, width⟩)).Clear readByDxe dma memory dst wdata ↔
      ((∀ start ∈ starts, dma start = none) →
        QuietRead readByDxe (memory.write dst done wdata) address width) := by
  simp [Plan.Clear]

theorem Plan.clear_none {starts : List UInt32} {memory : Mem UInt8} {dst : UInt32}
    {wdata : Nat → UInt8} :
    (Plan.mk starts none).Clear readByDxe dma memory dst wdata := by
  simp [Plan.Clear]

theorem Plan.succeeds_some {starts : List UInt32} {done : Nat} {address width : UInt32} :
    (Plan.mk starts (some ⟨done, address, width⟩)).Succeeds dma ↔
      (∀ start ∈ starts, dma start = none) ∧ dma address = none := by
  simp [Plan.Succeeds]

theorem Plan.succeeds_none {starts : List UInt32} :
    (Plan.mk starts none).Succeeds dma ↔ ∀ start ∈ starts, dma start = none := by
  simp [Plan.Succeeds]

/-- Blocks, and then the last one with its read back. -/
theorem Piece.thenBack {starts : List UInt32} {done : Nat} {address width : UInt32}
    {srcAdr : Nat → UInt8} {desAdr : UInt32} {status : Int} {middle : XipRram}
    (first : Piece state True (¬ ∀ start ∈ starts, dma start = none) (status, middle))
    (sofar : status = 0 → middle.rram.memory = state.rram.memory.write desAdr done srcAdr)
    (some : width ≠ 0) (offset count bytes : Nat) (source : Nat → UInt8) :
    Piece state
      ((Plan.mk starts (.some ⟨done, address, width⟩)).Clear readByDxe dma state.rram.memory desAdr
        srcAdr)
      (¬ (Plan.mk starts (.some ⟨done, address, width⟩)).Succeeds dma)
      (if status ≠ 0 then (status, middle)
      else writeTempXip dma
        (patchTempXip readByDxe middle address width offset count source) address bytes) := by
  have both := first.andThen
    (fun _ => @patchWrite_piece dma middle readByDxe address _ some offset count bytes source)
    fun ok _ => by
      rw [sofar ok]
  refine both.congr ?_ ?_
  · rw [Plan.clear_some, true_and, not_not]
  · rw [Plan.succeeds_some, not_and_or]

theorem tempCopyXip_piece (desAdr : UInt32) (srcAdr : Nat → UInt8) (remaining : Nat) :
    Piece state ((tempPlan desAdr remaining).Clear readByDxe dma state.rram.memory desAdr srcAdr)
      (¬ (tempPlan desAdr remaining).Succeeds dma)
      (tempCopyXip readByDxe dma state desAdr srcAdr remaining) := by
  have front := blocksLoop_piece
    (fun state desAdr src => @writeThroughTempXip_piece dma state srcAdr desAdr src)
    256 (remaining / 256 % 2 ^ 16) desAdr 0 state
  have written := (tempBlocksLoop_outcome dma srcAdr (remaining / 256 % 2 ^ 16) desAdr 0 state.rram
    (by omega)).exact
  rw [← erase_tempBlocks] at written
  rw [tempCopyXip, tempPlan]
  dsimp only
  generalize blocksLoopXip (writeThroughTempXip dma srcAdr) 256 (remaining / 256 % 2 ^ 16) desAdr 0
    state = outcome at front written ⊢
  obtain ⟨status, middle⟩ := outcome
  rw [fullStarts_fail] at front
  simp only [erase, Nat.zero_add] at written
  by_cases rest : remaining % 256 ≠ 0
  · rw [if_pos rest, if_pos rest]
    exact front.thenBack written (by decide) 0 _ 256 _
  · rw [if_neg rest, if_neg rest, ite_self, Plan.succeeds_none]
    exact front.congr (iff_of_true trivial Plan.clear_none) Iff.rfl

/-- A plan that is carried out on what has been written so far. -/
theorem Plan.clear_behind {plan : Plan} {done : Nat} {memory : Mem UInt8} {dst : UInt32}
    {wdata : Nat → UInt8} (bound : ∀ back ∈ plan.back, done + back.done ≤ 2 ^ 32)
    (small : done < 2 ^ 32) :
    (plan.behind done).Clear readByDxe dma memory dst wdata ↔
      plan.Clear readByDxe dma (memory.write dst done wdata) (dst + UInt32.ofNat done)
        fun i => wdata (done + i) := by
  obtain ⟨starts, back⟩ := plan
  cases back with
  | none => exact iff_of_true Plan.clear_none Plan.clear_none
  | some back =>
      obtain ⟨more, address, width⟩ := back
      rw [Plan.clear_some, Mem.write_append _ _ _ _ _ (bound _ rfl) small]
      exact Plan.clear_some

theorem Plan.succeeds_behind {plan : Plan} {done : Nat} :
    (plan.behind done).Succeeds dma ↔ plan.Succeeds dma := by
  obtain ⟨starts, back⟩ := plan
  cases back with
  | none => exact Iff.rfl
  | some back => exact Plan.succeeds_some.trans Plan.succeeds_some.symm

theorem Plan.clear_after {starts : List UInt32} {plan : Plan} {memory : Mem UInt8} {dst : UInt32}
    {wdata : Nat → UInt8} :
    (Plan.mk (starts ++ plan.starts) plan.back).Clear readByDxe dma memory dst wdata ↔
      ((∀ start ∈ starts, dma start = none) → plan.Clear readByDxe dma memory dst wdata) := by
  simp only [Plan.Clear, List.forall_mem_append, and_imp]
  exact ⟨fun clear ok back listed => clear back listed ok,
    fun clear back listed ok => clear ok back listed⟩

theorem Plan.succeeds_after {starts : List UInt32} {plan : Plan} :
    (Plan.mk (starts ++ plan.starts) plan.back).Succeeds dma ↔
      (∀ start ∈ starts, dma start = none) ∧ plan.Succeeds dma := by
  simp only [Plan.Succeeds, List.forall_mem_append, and_assoc]

theorem partialBlockXip_piece (desAdr : UInt32) (srcAdr : Nat → UInt8) {size : Nat}
    (some : size ≠ 0) :
    Piece state ((partialPlan desAdr size).Clear readByDxe dma state.rram.memory desAdr srcAdr)
      (¬ (partialPlan desAdr size).Succeeds dma)
      (partialBlockXip readByDxe dma state desAdr srcAdr size) := by
  rw [partialBlockXip, partialPlan]
  by_cases lines : size % 16 = 0
  · have whole : size / 16 * 16 ≠ 0 := by omega
    rw [if_pos lines, if_pos whole, if_neg (not_not.mpr lines), Plan.succeeds_none]
    refine (writeSourceXip_piece desAdr srcAdr size).congr (iff_of_true trivial Plan.clear_none) ?_
    rw [List.forall_mem_singleton]
  rw [if_neg lines, if_pos lines]
  have front : Piece state True
      (¬ ∀ start ∈ (if size / 16 * 16 ≠ 0 then [desAdr] else []), dma start = none)
      (if size / 16 * 16 ≠ 0 then writeSourceXip dma state desAdr srcAdr (size / 16 * 16)
      else (errNone, state)) := by
    split_ifs
    · exact (writeSourceXip_piece desAdr srcAdr _).congr Iff.rfl (by rw [List.forall_mem_singleton])
    · exact Piece.nothing.congr Iff.rfl (iff_of_false id (not_not.mpr fun _ => nofun))
  have written : (if size / 16 * 16 ≠ 0 then
        writeSourceXip dma state desAdr srcAdr (size / 16 * 16) else (errNone, state)).1 = 0 →
      (if size / 16 * 16 ≠ 0 then
        writeSourceXip dma state desAdr srcAdr (size / 16 * 16)
      else (errNone, state)).2.rram.memory =
        state.rram.memory.write desAdr (size / 16 * 16) srcAdr := by
    split_ifs with any
    · exact (writeSource_outcome dma state.rram desAdr srcAdr _).exact
    · rw [not_not.mp any, Mem.write_zero]
      exact fun _ => rfl
  dsimp only
  generalize (if size / 16 * 16 ≠ 0 then writeSourceXip dma state desAdr srcAdr (size / 16 * 16)
    else (errNone, state)) = outcome at front written ⊢
  obtain ⟨status, middle⟩ := outcome
  exact front.thenBack written (by decide) 0 _ 16 _

theorem blockCopyXip_piece (desAdr : UInt32) (srcAdr : Nat → UInt8) (remaining : Nat) :
    Piece state ((blockPlan desAdr remaining).Clear readByDxe dma state.rram.memory desAdr srcAdr)
      (¬ (blockPlan desAdr remaining).Succeeds dma)
      (blockCopyXip readByDxe dma state desAdr srcAdr remaining) := by
  have front := blocksLoop_piece
    (fun state desAdr src =>
      @writeSourceXip_piece dma state desAdr (fun i => srcAdr (src + i)) 16368)
    16368 (remaining / 16368 % 2 ^ 16) desAdr 0 state
  have written :=
    (fullBlocksLoop_outcome dma srcAdr (remaining / 16368 % 2 ^ 16) desAdr 0 state.rram
      (by omega)).exact
  rw [← erase_fullBlocks] at written
  rw [blockCopyXip, blockPlan]
  dsimp only
  generalize blocksLoopXip (fun state desAdr src =>
    writeSourceXip dma state desAdr (fun i => srcAdr (src + i)) 16368) 16368
    (remaining / 16368 % 2 ^ 16) desAdr 0 state = outcome at front written ⊢
  obtain ⟨status, middle⟩ := outcome
  rw [fullStarts_fail] at front
  simp only [erase, Nat.zero_add] at written
  have blocksLt : remaining / 16368 % 2 ^ 16 < 2 ^ 16 := Nat.mod_lt _ (by decide)
  generalize remaining / 16368 % 2 ^ 16 = blocks at front written blocksLt ⊢
  have sizeLt : remaining % 16368 < 16368 := Nat.mod_lt _ (by decide)
  generalize remaining % 16368 = size at sizeLt ⊢
  have last : status = 0 → Piece middle
      ((partialPlan (desAdr + UInt32.ofNat (blocks * 16368)) size).Clear readByDxe dma
        middle.rram.memory (desAdr + UInt32.ofNat (blocks * 16368))
        fun i => srcAdr (blocks * 16368 + i))
      (¬ (partialPlan (desAdr + UInt32.ofNat (blocks * 16368)) size).Succeeds dma)
      (if size ≠ 0 then
        partialBlockXip readByDxe dma middle (desAdr + UInt32.ofNat (blocks * 16368))
          (fun i => srcAdr (blocks * 16368 + i)) size
      else (status, middle)) := by
    intro ok
    by_cases some : size ≠ 0
    · rw [if_pos some]
      exact partialBlockXip_piece _ _ some
    · rw [if_neg some, not_not.mp some, ok]
      refine Piece.nothing.congr (iff_of_true trivial Plan.clear_none) (iff_of_false id ?_)
      exact not_not.mpr (Plan.succeeds_none.mpr fun _ => nofun)
  have bound : ∀ back ∈ (partialPlan (desAdr + UInt32.ofNat (blocks * 16368)) size).back,
      blocks * 16368 + back.done ≤ 2 ^ 32 := by
    intro back listed
    unfold partialPlan at listed
    dsimp only at listed
    split_ifs at listed
    · cases Option.mem_some.mp listed
      dsimp only
      omega
    · cases listed
  have both := front.andThen last fun ok _ => Iff.of_eq (by rw [written ok])
  refine both.congr ?_ ?_
  · rw [true_and, not_not, ← Plan.clear_behind bound (by omega)]
    exact Plan.clear_after.symm
  · rw [← not_and_or]
    exact not_congr ((and_congr_right' Plan.succeeds_behind.symm).trans Plan.succeeds_after.symm)

end Plans

/-! ## The write -/

section Write

variable (readByDxe : Bool) (dma : UInt32 → BlockAnswer) (rram : NtRram) (swCacheTestMode : Bool)
  (dst srcAdr : UInt32) (wdata : Nat → UInt8) (length : UInt32)

/-- The bit is clear during each block write, and it is set at the end if it was set before. -/
structure KeepsTestMode : Prop where
  clear : Quiet (ntRramWriteXip readByDxe dma ⟨rram, swCacheTestMode, []⟩ dst srcAdr wdata
    length).2.during
  set : swCacheTestMode = true →
    (ntRramWriteXip readByDxe dma ⟨rram, swCacheTestMode, []⟩ dst srcAdr wdata
      length).2.swCacheTestMode = true

/-- A refused range has no lock read through the DXE engine with the bit set.  In a copy no line or
block is reached that is read back, unless the read goes through the DXE engine and is granted; and
if the bit was set, the copy ends with large blocks and no block fails. -/
def Undisturbed : Prop :=
  if srcAdr = 0 ∨ length = 0 then True
  else if rramAddressRangeCheck .app rram.memory dst length writeLocked ≠ 0 then
    ¬ (LocksRead dst length writeLocked ∧ readByDxe = true ∧ swCacheTestMode = true)
  else if dst % 16 ≠ 0 ∨ srcAdr % 4 ≠ 0 then
    let line := dst - dst % 16
    let count := headCount dst length
    let remaining := length.toNat - count
    QuietRead readByDxe rram.memory line 16 ∧
      if dma line ≠ none ∨ remaining = 0 then swCacheTestMode = false
      else if (srcAdr + UInt32.ofNat count) % 4 ≠ 0 then
        ((tempPlan (line + 16) remaining).behind count).Clear readByDxe dma rram.memory dst wdata ∧
          swCacheTestMode = false
      else
        ((blockPlan (line + 16) remaining).behind count).Clear readByDxe dma rram.memory dst wdata ∧
          (swCacheTestMode = true → (blockPlan (line + 16) remaining).Succeeds dma)
  else
    (blockPlan dst length.toNat).Clear readByDxe dma rram.memory dst wdata ∧
      (swCacheTestMode = true → (blockPlan dst length.toNat).Succeeds dma)

end Write

section Keeps

variable {readByDxe : Bool} {dma : UInt32 → BlockAnswer} {state : XipRram} {clear fails : Prop}
  {result : Int × XipRram}

/-- A part that returns without setting the bit. -/
theorem Piece.keeps (piece : Piece state clear fails result) (bit : state.swCacheTestMode = false)
    (quiet : Quiet state.during) (swCacheTestMode : Bool) :
    (Quiet result.2.during ∧ (swCacheTestMode = true → result.2.swCacheTestMode = true)) ↔
      clear ∧ swCacheTestMode = false := by
  rw [piece.quiet bit quiet]
  apply and_congr_right
  intro here
  rw [piece.bit bit here, ← Bool.not_eq_true]
  exact ⟨fun sets set => Bool.false_ne_true (sets set), fun unset set => absurd set unset⟩

/-- A part that sets the bit if it succeeds. -/
theorem Piece.keeps_set (piece : Piece state clear fails result)
    (bit : state.swCacheTestMode = false) (quiet : Quiet state.during) (swCacheTestMode : Bool) :
    (Quiet (setTestMode result).2.during ∧
        (swCacheTestMode = true → (setTestMode result).2.swCacheTestMode = true)) ↔
      clear ∧ (swCacheTestMode = true → ¬ fails) := by
  have same : (setTestMode result).2.during = result.2.during := by
    unfold setTestMode
    split_ifs <;> rfl
  rw [same, piece.quiet bit quiet]
  apply and_congr_right
  intro here
  apply imp_congr_right
  intro _
  rw [← piece.status here, setTestMode]
  split_ifs with failed
  · exact iff_of_false (by rw [piece.bit bit here]; exact Bool.false_ne_true) failed
  · exact iff_of_true rfl (not_not.mp failed)

theorem setTestMode_andThen (status : Int) (middle : XipRram) (next : Int × XipRram) :
    (if status ≠ 0 then (status, middle) else setTestMode next) =
      setTestMode (if status ≠ 0 then (status, middle) else next) := by
  split_ifs with failed
  · exact (if_pos failed).symm
  · rfl

theorem headLineXip_piece (dst : UInt32) (wdata : Nat → UInt8) (length : UInt32) :
    Piece state (QuietRead readByDxe state.rram.memory (dst - dst % 16) 16)
      (dma (dst - dst % 16) ≠ none) (headLineXip readByDxe dma state dst wdata length) :=
  patchWrite_piece readByDxe _ (by decide) _ _ 16 _

/-- What a copy behind the first line finds. -/
theorem headLineXip_memory {dst length : UInt32} {wdata : Nat → UInt8}
    (quiet : QuietRead readByDxe state.rram.memory (dst - dst % 16) 16)
    (ok : (headLineXip readByDxe dma state dst wdata length).1 = 0) :
    (headLineXip readByDxe dma state dst wdata length).2.rram.memory =
      state.rram.memory.write dst (headCount dst length) wdata := by
  have head := @headLine_outcome dst length dma state.rram wdata fun _ => quiet.2
  rw [← erase_headLine] at head
  exact head.exact ok

theorem tempPlan_bound (desAdr : UInt32) {remaining done : Nat} (small : done ≤ 16) :
    ∀ back ∈ (tempPlan desAdr remaining).back, done + back.done ≤ 2 ^ 32 := by
  intro back listed
  unfold tempPlan at listed
  dsimp only at listed
  split_ifs at listed
  · cases Option.mem_some.mp listed
    dsimp only
    omega
  · cases listed

theorem blockPlan_bound (desAdr : UInt32) {remaining done : Nat} (small : done ≤ 16) :
    ∀ back ∈ (blockPlan desAdr remaining).back, done + back.done ≤ 2 ^ 32 := by
  intro back listed
  unfold blockPlan partialPlan Plan.behind at listed
  dsimp only at listed
  split_ifs at listed
  · cases Option.mem_some.mp listed
    dsimp only
    omega
  · cases listed

end Keeps

theorem keepsTestMode_iff (readByDxe : Bool) (dma : UInt32 → BlockAnswer) (rram : NtRram)
    (swCacheTestMode : Bool) (dst srcAdr : UInt32) (wdata : Nat → UInt8) (length : UInt32) :
    KeepsTestMode readByDxe dma rram swCacheTestMode dst srcAdr wdata length ↔
      Undisturbed readByDxe dma rram swCacheTestMode dst srcAdr wdata length := by
  have fields : KeepsTestMode readByDxe dma rram swCacheTestMode dst srcAdr wdata length ↔
      Quiet (ntRramWriteXip readByDxe dma ⟨rram, swCacheTestMode, []⟩ dst srcAdr wdata
        length).2.during ∧
      (swCacheTestMode = true →
        (ntRramWriteXip readByDxe dma ⟨rram, swCacheTestMode, []⟩ dst srcAdr wdata
          length).2.swCacheTestMode = true) :=
    ⟨fun keeps => ⟨keeps.clear, keeps.set⟩, fun keeps => ⟨keeps.1, keeps.2⟩⟩
  have start : Quiet [] := fun _ => nofun
  rw [fields, Undisturbed, ntRramWriteXip, rangeCheckXip_eq (by decide)]
  dsimp only
  by_cases invalid : srcAdr = 0 ∨ length = 0
  · rw [if_pos invalid, if_pos invalid]
    exact iff_of_true ⟨start, id⟩ trivial
  rw [if_neg invalid, if_neg invalid]
  by_cases refused : rramAddressRangeCheck .app rram.memory dst length writeLocked ≠ 0
  · rw [if_pos refused, if_pos refused]
    dsimp only
    rw [and_iff_right start]
    by_cases reads : LocksRead dst length writeLocked <;> cases readByDxe <;>
      cases swCacheTestMode <;> simp [reads]
  rw [if_neg refused, if_neg refused]
  by_cases unaligned : dst % 16 ≠ 0 ∨ srcAdr % 4 ≠ 0
  · rw [if_pos unaligned, if_pos unaligned]
    have head := @headLineXip_piece readByDxe dma ⟨rram, false, []⟩ dst wdata length
    have memory := @headLineXip_memory readByDxe dma ⟨rram, false, []⟩ dst length wdata
    generalize headLineXip readByDxe dma ⟨rram, false, []⟩ dst wdata length = outcome
      at head memory ⊢
    obtain ⟨status, middle⟩ := outcome
    dsimp only at head memory ⊢
    have counts := @headCount_le dst length
    by_cases nothing : length.toNat - headCount dst length = 0
    · rw [if_pos nothing, ite_self, if_pos (Or.inr nothing)]
      exact head.keeps rfl start swCacheTestMode
    rw [if_neg nothing, nextLine_eq (headCount_full nothing)]
    by_cases special : (srcAdr + UInt32.ofNat (headCount dst length)) % 4 ≠ 0
    · rw [if_pos special, if_pos special]
      have both := head.andThen
        (fun _ => @tempCopyXip_piece readByDxe dma middle
          (dst + UInt32.ofNat (headCount dst length)) (fun i => wdata (headCount dst length + i))
          (length.toNat - headCount dst length))
        fun ok quiet => Iff.of_eq (by rw [memory quiet ok])
      rw [both.keeps rfl start, ← Plan.clear_behind (tempPlan_bound _ (by omega)) (by omega)]
      by_cases failed : dma (dst - dst % 16) ≠ none
      · rw [if_pos (Or.inl failed)]
        simp [failed]
      · rw [if_neg (not_or.mpr ⟨failed, nothing⟩)]
        simp [failed, and_assoc]
    · rw [if_neg special, if_neg special, setTestMode_andThen]
      have both := head.andThen
        (fun _ => @blockCopyXip_piece readByDxe dma middle
          (dst + UInt32.ofNat (headCount dst length)) (fun i => wdata (headCount dst length + i))
          (length.toNat - headCount dst length))
        fun ok quiet => Iff.of_eq (by rw [memory quiet ok])
      rw [both.keeps_set rfl start, ← Plan.clear_behind (blockPlan_bound _ (by omega)) (by omega)]
      by_cases failed : dma (dst - dst % 16) ≠ none
      · rw [if_pos (Or.inl failed)]
        simp [failed]
      · rw [if_neg (not_or.mpr ⟨failed, nothing⟩)]
        simp [failed, and_assoc]
  · rw [if_neg unaligned, if_neg unaligned]
    rw [(@blockCopyXip_piece readByDxe dma ⟨rram, false, []⟩ dst wdata length.toNat).keeps_set rfl
      start, not_not]

/-- Four bytes in the middle of a line: the line is written with the bit set. -/
theorem keepsTestMode_not_head :
    ¬ ∀ (readByDxe : Bool) (dma : UInt32 → BlockAnswer) (rram : NtRram) (swCacheTestMode : Bool)
      (dst srcAdr : UInt32) (wdata : Nat → UInt8) (length : UInt32),
      KeepsTestMode readByDxe dma rram swCacheTestMode dst srcAdr wdata length := by
  intro all
  have during := (all false (fun _ => none) ⟨fun _ => 0, fun _ => 0⟩ true 0x200004 0x20000000
    (fun _ => 7) 4).clear true (by decide)
  cases during

/-- Where reads do not go through the DXE engine and no block fails, an accepted write keeps the
bit if it consists of whole lines from an aligned source. -/
theorem undisturbed_aligned {rram : NtRram} {dst srcAdr length : UInt32}
    (source : srcAdr ≠ 0) (some : length ≠ 0)
    (accepted : rramAddressRangeCheck .app rram.memory dst length writeLocked = 0)
    (swCacheTestMode : Bool) (wdata : Nat → UInt8) :
    Undisturbed false (fun _ => none) rram swCacheTestMode dst srcAdr wdata length ↔
      (dst % 16 = 0 ∧ srcAdr % 4 = 0) ∧ length.toNat % 16 = 0 := by
  rw [Undisturbed, if_neg (not_or.mpr ⟨source, some⟩), if_neg (not_not.mpr accepted)]
  have loud : ∀ memory address width, ¬ QuietRead false memory address width :=
    fun _ _ _ quiet => Bool.false_ne_true quiet.1
  by_cases unaligned : dst % 16 ≠ 0 ∨ srcAdr % 4 ≠ 0
  · rw [if_pos unaligned]
    refine iff_of_false (fun both => loud _ _ _ both.1) fun both => ?_
    exact unaligned.elim (fun low => low both.1.1) fun low => low both.1.2
  · rw [not_or, not_not, not_not] at unaligned
    have succeeds : (blockPlan dst length.toNat).Succeeds fun _ => none :=
      ⟨fun _ _ => rfl, fun _ _ => rfl⟩
    rw [if_neg (by simp [unaligned]), and_iff_left fun _ => succeeds, and_iff_right unaligned]
    have lines : length.toNat % 16368 % 16 = length.toNat % 16 := by omega
    constructor
    · intro clear
      by_contra rest
      refine loud _ _ _ (clear _ (Option.map_eq_some_iff.mpr ⟨_, if_pos ?_, rfl⟩) fun _ _ => rfl)
      rwa [lines]
    · intro whole back listed
      have none : ¬ length.toNat % 16368 % 16 ≠ 0 := by omega
      simp only [blockPlan, partialPlan, Plan.behind, if_neg none] at listed
      cases listed

end QHal.Rram
