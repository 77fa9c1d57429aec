/-
Module: QHal.Proofs.OtpLocks
Purpose: The OTP locks of the boot loader's RRAM driver hold.  A write that may
  be cut short changes only bytes of its own range, an accepted range lies in
  regions that are not locked, and the lock operation only sets bits of a lock
  region that is not locked itself.
Trusted boundary: none
Main exports: Blended, ntBlRramWrite_mixed, Protected, LocksKept, BlCall.Apart,
  blCall_runs_keep_locks
-/
import QHal.Rram.BlMem
import QHal.Proofs.OtpRangeCheck

namespace QHal.Rram

open Mem (InRange Mixed overlay)

section Blend

/-- Every bit of `after` is that of `old` or that of `new`. -/
def Blended (old new after : UInt8) : Prop := ∃ torn, after = blend old new torn

theorem blend_none (old new : UInt8) : blend old new 0 = old := by
  simp [blend]

theorem blend_all (old new : UInt8) : blend old new 0xFF = new := by
  have ones : ~~~(0xFF : UInt8) = 0 := by decide
  have full : (0xFF : UInt8) = -1 := by decide
  rw [blend, ones, full, UInt8.and_zero, UInt8.zero_or, UInt8.and_neg_one]

theorem Blended.keeps (old new : UInt8) : Blended old new old := ⟨0, (blend_none old new).symm⟩

theorem Blended.reaches (old new : UInt8) : Blended old new new :=
  ⟨0xFF, (blend_all old new).symm⟩

theorem testBit_blend (old new torn : UInt8) (i : Nat) :
    (blend old new torn).toNat.testBit i =
      if torn.toNat.testBit i then new.toNat.testBit i else old.toNat.testBit i := by
  show (blend old new torn).toBitVec.getLsbD i =
    if torn.toBitVec.getLsbD i then new.toBitVec.getLsbD i else old.toBitVec.getLsbD i
  unfold blend
  rw [UInt8.toBitVec_or, UInt8.toBitVec_and, UInt8.toBitVec_and, UInt8.toBitVec_not,
    BitVec.getLsbD_or, BitVec.getLsbD_and, BitVec.getLsbD_and, BitVec.getLsbD_not]
  by_cases small : i < 8
  · cases torn.toBitVec.getLsbD i <;> simp [small]
  · have none : ∀ byte : BitVec 8, byte.getLsbD i = false :=
      fun byte => BitVec.getLsbD_of_ge byte i (Nat.not_lt.mp small)
    simp [none]

theorem Blended.stays (cell after : UInt8) (blended : Blended cell cell after) :
    after = cell := by
  obtain ⟨torn, rfl⟩ := blended
  apply UInt8.toNat_inj.mp
  apply Nat.eq_of_testBit_eq
  intro i
  rw [testBit_blend, ite_self]

/-- A bit that both values have is there at any point of the write. -/
theorem Blended.testBit {old new after : UInt8} {i : Nat} (blended : Blended old new after)
    (inOld : old.toNat.testBit i = true) (inNew : new.toNat.testBit i = true) :
    after.toNat.testBit i = true := by
  obtain ⟨torn, rfl⟩ := blended
  rw [testBit_blend, inOld, inNew, ite_self]

/-- A write of which only some bits reached the memory. -/
theorem blendWrite_mixed {Between : UInt8 → UInt8 → UInt8 → Prop} (memory : Mem UInt8)
    (base : UInt32) (count : Nat) (data : Nat → UInt8) {torn : Nat → UInt8}
    (tears : ∀ i < count, ∀ old new, Between old new (blend old new (torn i))) :
    Mixed Between memory base count data
      (memory.write base count fun i => blend (memory.cells base i) (data i) (torn i)) := by
  intro address
  constructor
  · intro hit
    rw [Mem.write_hit hit, Mem.cells_distance]
    exact tears _ hit _ _
  · intro miss
    exact Mem.write_miss miss

theorem Blended.torn (torn old new : UInt8) : Blended old new (blend old new torn) :=
  ⟨torn, rfl⟩

/-- What the answers of a device leave of a byte, as a relation of the old value, the new one and
the value left behind. -/
structure Answers (Between : UInt8 → UInt8 → UInt8 → Prop) (device : UInt32 → WordAnswer) :
    Prop where
  keeps : ∀ old new, Between old new old
  reaches : ∀ old new, Between old new new
  stays : ∀ cell after, Between cell cell after → after = cell
  tears : ∀ address torn, device address = some torn → ∀ i < 4, ∀ old new,
    Between old new (blend old new (torn i))

theorem Blended.answers (device : UInt32 → WordAnswer) : Answers Blended device where
  keeps := Blended.keeps
  reaches := Blended.reaches
  stays := Blended.stays
  tears := fun _ torn _ i _ => Blended.torn (torn i)

end Blend

section Write

variable {Between : UInt8 → UInt8 → UInt8 → Prop} {device : UInt32 → WordAnswer}
  {memory : Mem UInt8}

theorem rramWriteStatus_mixed (answers : Answers Between device) (memory : Mem UInt8)
    (address : UInt32) (data : Nat → UInt8) :
    Mixed Between memory address 4 data
      (rramWriteStatus (device address) memory address data).2 := by
  cases answer : device address with
  | none => exact Mem.mixed_write answers.reaches memory address 4 data
  | some torn =>
      exact blendWrite_mixed memory address 4 data (answers.tears address torn answer)

/-- The words of a line from some word on. -/
theorem wordsLoop_mixed (answers : Answers Between device) (blockAddr : UInt32)
    (dstBlk : Nat → UInt8) :
    ∀ (words wordIdx : Nat) (memory : Mem UInt8), wordIdx + words ≤ 4 →
      Mixed Between memory (blockAddr + UInt32.ofNat (wordIdx * 4)) (words * 4)
        (fun i => dstBlk (wordIdx * 4 + i))
        (wordsLoop device blockAddr dstBlk words wordIdx memory).2 := by
  intro words
  induction words with
  | zero =>
      intro wordIdx memory _
      exact Mem.mixed_unchanged answers.keeps memory _ _ _
  | succ words ih =>
      intro wordIdx memory room
      have first := rramWriteStatus_mixed answers memory (blockAddr + UInt32.ofNat (wordIdx * 4))
        (fun i => dstBlk (wordIdx * 4 + i))
      have split : (words + 1) * 4 = 4 + words * 4 := by omega
      rw [wordsLoop, split]
      generalize rramWriteStatus (device (blockAddr + UInt32.ofNat (wordIdx * 4))) memory
        (blockAddr + UInt32.ofNat (wordIdx * 4)) (fun i => dstBlk (wordIdx * 4 + i)) =
        outcome at first ⊢
      obtain ⟨status, middle⟩ := outcome
      simp only
      split_ifs with failed
      · exact first.extend answers.keeps (words * 4)
      · have rest := ih (wordIdx + 1) middle (by omega)
        have next : (wordIdx + 1) * 4 = wordIdx * 4 + 4 := by omega
        rw [next, UInt32.ofNat_add, ← UInt32.add_assoc] at rest
        apply first.append (rest.congr fun i _ => _) (by omega) (by decide)
        intro i _
        rw [Nat.add_assoc]

/-- The copy into the line buffer. -/
theorem copyBlockLoop_spec (source : Nat → UInt8) :
    ∀ (rounds byteIdx src length : Nat) (dstBlk : Nat → UInt8), 16 ≤ rounds + byteIdx →
      byteIdx < 16 → 0 < length →
      copyBlockLoop source rounds byteIdx src length dstBlk =
        (overlay dstBlk byteIdx (min (16 - byteIdx) length) (fun j => source (src + j)),
          src + min (16 - byteIdx) length, length - min (16 - byteIdx) length) := by
  intro rounds
  induction rounds with
  | zero =>
      intro byteIdx src length dstBlk enough inLine
      omega
  | succ rounds ih =>
      intro byteIdx src length dstBlk enough inLine nonempty
      rw [copyBlockLoop]
      split_ifs with more
      · have count : min (16 - byteIdx) length =
            min (16 - (byteIdx + 1)) (length - 1) + 1 := by omega
        rw [ih _ _ _ _ (by omega) more.1 more.2, count, ← Mem.overlay_cons,
          Nat.add_assoc src 1, Nat.add_comm 1, Nat.sub_sub, Nat.add_comm 1]
        simp only [Nat.add_assoc, Nat.add_comm 1, Nat.add_zero]
      · have count : min (16 - byteIdx) length = 1 := by omega
        rw [count, ← Mem.overlay_cons, Mem.overlay_zero]
        rfl

/-- One line that is read, patched and written back. -/
theorem line_mixed (answers : Answers Between device) {blockAddr : UInt32} {byteIdx count : Nat}
    {data dstBlk : Nat → UInt8} (inside : byteIdx + count ≤ 16)
    (patched : ∀ i < 16, dstBlk i = overlay (memory.cells blockAddr) byteIdx count data i) :
    Mixed Between memory (blockAddr + UInt32.ofNat byteIdx) count data
      (wordsLoop device blockAddr dstBlk 4 0 memory).2 := by
  have words := wordsLoop_mixed answers blockAddr dstBlk 4 0 memory (by omega)
  have here : blockAddr + UInt32.ofNat (0 * 4) = blockAddr := UInt32.add_zero _
  have wide : 16 ≤ 2 ^ 32 := by decide
  rw [here] at words
  apply Mixed.overlay answers.stays _ inside wide (by omega)
  apply words.congr
  intro i below
  rw [Nat.zero_mul, Nat.zero_add, patched i below]

/-- A line of the loop: the buffer is read back unless the whole line is
overwritten. -/
theorem blockLine_mixed (answers : Answers Between device) {blockAddr : UInt32}
    {byteIdx length : Nat} {data dstBlk : Nat → UInt8} (inLine : byteIdx < 16) :
    Mixed Between memory (blockAddr + UInt32.ofNat byteIdx) (min (16 - byteIdx) length) data
      (wordsLoop device blockAddr (overlay
        (if 0 < byteIdx ∨ length < 16 then memory.cells blockAddr else dstBlk) byteIdx
        (min (16 - byteIdx) length) data) 4 0 memory).2 := by
  apply line_mixed answers (by omega)
  intro i below
  split_ifs with readBack
  · rfl
  · simp only [overlay]
    rw [if_pos (by omega), if_pos (by omega)]

/-- All the lines: `blocks` of them hold `length` bytes from offset `byteIdx` of
the first one on, and the last one is not empty. -/
theorem blocksLoop_mixed (answers : Answers Between device) (source : Nat → UInt8) :
    ∀ (blocks : Nat) (blockAddr : UInt32) (byteIdx src length : Nat) (dstBlk : Nat → UInt8)
      (memory : Mem UInt8), byteIdx < 16 → 0 < length → byteIdx + length ≤ blocks * 16 →
      blocks * 16 < byteIdx + length + 16 → length < 2 ^ 32 →
      Mixed Between memory (blockAddr + UInt32.ofNat byteIdx) length
        (fun i => source (src + i))
        (blocksLoop device source blocks blockAddr byteIdx src length dstBlk memory).2 := by
  intro blocks
  induction blocks with
  | zero =>
      intro blockAddr byteIdx src length dstBlk memory _ _ _ _ _
      exact Mem.mixed_unchanged answers.keeps memory _ _ _
  | succ blocks ih =>
      intro blockAddr byteIdx src length dstBlk memory inLine nonempty room tight small
      have copied := copyBlockLoop_spec source 16 byteIdx src length
        (if 0 < byteIdx ∨ length < 16 then memory.cells blockAddr else dstBlk)
        (by omega) inLine nonempty
      have line := @blockLine_mixed _ _ memory answers blockAddr byteIdx length
        (fun i => source (src + i)) dstBlk inLine
      generalize countIs : min (16 - byteIdx) length = count at copied line
      rw [blocksLoop]
      simp only [copied]
      generalize overlay (if 0 < byteIdx ∨ length < 16 then memory.cells blockAddr else dstBlk)
        byteIdx count (fun j => source (src + j)) = block at line ⊢
      generalize wordsLoop device blockAddr block 4 0 memory = outcome at line ⊢
      obtain ⟨status, middle⟩ := outcome
      have whole : length = count + (length - count) := by omega
      simp only
      by_cases failed : status ≠ 0
      · rw [if_pos failed, whole]
        exact line.extend answers.keeps (length - count)
      · rw [if_neg failed]
        by_cases rest : length - count = 0
        · have last : blocks = 0 := by omega
          have all : length = count := by omega
          rw [last, all]
          exact line
        · have lineFull : byteIdx + count = 16 := by omega
          have next := ih (blockAddr + 16) 0 (src + count) (length - count) block middle
            (by decide) (by omega) (by omega) (by omega) (by omega)
          have address : blockAddr + 16 + UInt32.ofNat 0 =
              blockAddr + UInt32.ofNat byteIdx + UInt32.ofNat count := by
            rw [UInt32.add_assoc blockAddr (UInt32.ofNat byteIdx), ← UInt32.ofNat_add, lineFull]
            exact UInt32.add_zero _
          rw [address] at next
          have joined := line.append (next.congr fun i _ => by rw [Nat.add_assoc])
            (by omega) (by omega)
          rwa [← whole] at joined

/-- The lines of a write that is accepted and does not wrap around. -/
theorem ntBlRramWrite_lines {driver : RramDriver} (device : UInt32 → WordAnswer)
    (stack wdata : Nat → UInt8) {dst length : UInt32} (some : length ≠ 0)
    (accepted : rramAddressRangeCheck driver memory dst length writeLocked = 0)
    (noWrap : dst.toNat + length.toNat < 2 ^ 32) :
    ∃ blocks, dst.toNat % 16 + length.toNat ≤ blocks * 16 ∧
      blocks * 16 < dst.toNat % 16 + length.toNat + 16 ∧
      ntBlRramWrite driver device stack memory dst wdata length =
        blocksLoop device wdata blocks (dst - dst % 16) (dst % 16).toNat 0 length.toNat stack
          memory := by
  have positive : 0 < length.toNat :=
    Nat.pos_of_ne_zero fun zero => some (UInt32.toNat_inj.mp zero)
  have offset : (dst % 16).toNat = dst.toNat % 16 := UInt32.toNat_mod _ _
  have firstNat : (dst - dst % 16).toNat = dst.toNat - dst.toNat % 16 := by
    rw [UInt32.toNat_sub_of_le _ _ (UInt32.le_iff_toNat_le.mpr (by omega)), offset]
  have endNat : (dst + length - 1).toNat = dst.toNat + length.toNat - 1 := by
    have one : (1 : UInt32).toNat = 1 := by decide
    have sum : (dst + length).toNat = dst.toNat + length.toNat := by
      rw [UInt32.toNat_add]
      exact Nat.mod_eq_of_lt noWrap
    rw [UInt32.toNat_sub_of_le _ _ (UInt32.le_iff_toNat_le.mpr (by omega)), sum, one]
  have lastOffset : ((dst + length - 1) % 16).toNat = (dst.toNat + length.toNat - 1) % 16 := by
    rw [← endNat]
    exact UInt32.toNat_mod _ _
  have lastNat : (dst + length - 1 - (dst + length - 1) % 16).toNat =
      dst.toNat + length.toNat - 1 - (dst.toNat + length.toNat - 1) % 16 := by
    rw [UInt32.toNat_sub_of_le _ _ (UInt32.le_iff_toNat_le.mpr (by omega)), lastOffset, endNat]
  rw [ntBlRramWrite, if_neg some, if_neg (not_not.mpr accepted)]
  dsimp only
  generalize dst - dst % 16 = first at firstNat ⊢
  generalize dst + length - 1 - (dst + length - 1) % 16 = last at lastNat ⊢
  have ordered : first ≤ last := UInt32.le_iff_toNat_le.mpr (by omega)
  have span : (last - first).toNat = last.toNat - first.toNat :=
    UInt32.toNat_sub_of_le _ _ ordered
  have count : blockCount first last = (last.toNat - first.toNat) / 16 + 1 := by
    rw [blockCount, if_pos ordered, span]
  exact ⟨blockCount first last, by omega, by omega, rfl⟩

/-- The first line starts below the destination. -/
theorem line_add_offset (dst : UInt32) :
    dst - dst % 16 + UInt32.ofNat (dst % 16).toNat = dst := by
  rw [UInt32.ofNat_toNat, UInt32.sub_add_cancel]

/-- A write that is accepted and does not wrap around changes, if it is cut short
or not, nothing but bytes of its range. -/
theorem ntBlRramWrite_mixed (answers : Answers Between device) {driver : RramDriver}
    {stack wdata : Nat → UInt8} {dst length : UInt32}
    (noWrap : dst.toNat + length.toNat < 2 ^ 32) :
    Mixed Between memory dst length.toNat wdata
      (ntBlRramWrite driver device stack memory dst wdata length).2 := by
  have unchanged := Mem.mixed_unchanged answers.keeps memory dst length.toNat wdata
  by_cases empty : length = 0
  · rw [ntBlRramWrite, if_pos empty]
    exact unchanged
  by_cases refused : rramAddressRangeCheck driver memory dst length writeLocked ≠ 0
  · rw [ntBlRramWrite, if_neg empty, if_pos refused]
    exact unchanged
  · obtain ⟨blocks, room, tight, same⟩ :=
      ntBlRramWrite_lines device stack wdata empty (not_not.mp refused) noWrap
    have offset : (dst % 16).toNat = dst.toNat % 16 := UInt32.toNat_mod _ _
    have positive : 0 < length.toNat :=
      Nat.pos_of_ne_zero fun zero => empty (UInt32.toNat_inj.mp zero)
    have mixed := blocksLoop_mixed answers wdata blocks (dst - dst % 16) (dst % 16).toNat 0
      length.toNat stack memory (by omega) positive (by omega) (by omega) (by omega)
    rw [line_add_offset] at mixed
    rw [same]
    exact mixed.congr fun i _ => by rw [Nat.zero_add]

end Write

section Locks

variable {driver : RramDriver} {before after memory : Mem UInt8}

/-- The addresses of an OTP region. -/
def InOtpRegion (region : Nat) (address : UInt32) : Prop :=
  0x1A0000 ≤ address.toNat ∧ address.toNat < 0x1A1000 ∧
    otpRegion (address.toNat - 0x1A0000) = region

instance (region : Nat) (address : UInt32) : Decidable (InOtpRegion region address) :=
  inferInstanceAs (Decidable (_ ∧ _ ∧ _))

/-- What the locks promise from one state to a later one: write-locked regions
keep their bytes, no lock bit is cleared, and none changes once the lock region
is write-locked. -/
structure LocksKept (before after : Mem UInt8) : Prop where
  regions : ∀ region < otpRegionLockMap.length,
    lockBit before (lockNumOf region) writeLocked = true →
    ∀ address, InOtpRegion region address → after address = before address
  bits : ∀ regionNum < 24, ∀ rdWrLock, lockBit before regionNum rdWrLock = true →
    lockBit after regionNum rdWrLock = true
  sealed : lockBit before (UInt32.ofNat rwPermissionRegion) writeLocked = true →
    ∀ regionNum < 24, ∀ rdWrLock,
      lockBit after regionNum rdWrLock = lockBit before regionNum rdWrLock

theorem LocksKept.refl (memory : Mem UInt8) : LocksKept memory memory where
  regions := fun _ _ _ _ _ => rfl
  bits := fun _ _ _ set => set
  sealed := fun _ _ _ _ => rfl

theorem lockNumOf_small {region : Nat} (known : region < otpRegionLockMap.length) :
    lockNumOf region < 24 :=
  maxRegion_lt (@lockNumOf_lt .app region known)

theorem LocksKept.trans {middle : Mem UInt8} (first : LocksKept before middle)
    (second : LocksKept middle after) : LocksKept before after where
  regions := by
    intro region known locked address inside
    have still := first.bits _ (lockNumOf_small known) _ locked
    rw [second.regions region known still address inside,
      first.regions region known locked address inside]
  bits := by
    intro regionNum small rdWrLock set
    exact second.bits _ small _ (first.bits _ small _ set)
  sealed := by
    intro closed regionNum small rdWrLock
    have still := first.bits _ (by decide) _ closed
    rw [second.sealed still _ small, first.sealed closed _ small]

/-- The addresses of the RW-permission region. -/
theorem inOtpRegion_rwPermission {address : UInt32} :
    InOtpRegion rwPermissionRegion address ↔
      0x1A0030 ≤ address.toNat ∧ address.toNat < 0x1A0040 := by
  constructor
  · rintro ⟨low, high, region⟩
    have before : otpRegion 47 = 1 := by decide
    have behind : otpRegion 64 = 3 := by decide
    unfold rwPermissionRegion at region
    constructor
    · by_contra early
      have order : otpRegion (address.toNat - 0x1A0000) ≤ otpRegion 47 :=
        Regions.regionOf_mono (by omega)
      omega
    · by_contra late
      have order : otpRegion 64 ≤ otpRegion (address.toNat - 0x1A0000) :=
        Regions.regionOf_mono (by omega)
      omega
  · rintro ⟨low, high⟩
    have first : otpRegion 48 = 2 := by decide
    have last : otpRegion 63 = 2 := by decide
    have lower : otpRegion 48 ≤ otpRegion (address.toNat - 0x1A0000) :=
      Regions.regionOf_mono (by omega)
    have upper : otpRegion (address.toNat - 0x1A0000) ≤ otpRegion 63 :=
      Regions.regionOf_mono (by omega)
    exact ⟨by omega, by omega, by unfold rwPermissionRegion; omega⟩

/-- The lock bytes belong to the RW-permission region. -/
theorem lockAddr_inRegion {regionNum : UInt32} (small : regionNum < 24) (rdWrLock : UInt32) :
    InOtpRegion rwPermissionRegion (lockAddr regionNum rdWrLock) := by
  exact lockAddr_of_bytes (P := InOtpRegion rwPermissionRegion) small rdWrLock (by decide)

theorem lockBit_congr {regionNum rdWrLock : UInt32}
    (same : after (lockAddr regionNum rdWrLock) = before (lockAddr regionNum rdWrLock)) :
    lockBit after regionNum rdWrLock = lockBit before regionNum rdWrLock := by
  unfold lockBit
  rw [same]

/-- A range that a write is accepted for and that is not in the lock region does
not wrap around and touches no write-locked region. -/
theorem accepted_range {dst length : UInt32}
    (accepted : rramAddressRangeCheck driver memory dst length writeLocked = 0)
    (apart : ∀ address, InOtpRegion rwPermissionRegion address →
      ¬ InRange dst length.toNat address) :
    dst.toNat + length.toNat < 2 ^ 32 ∧
      ∀ region, lockBit memory (lockNumOf region) writeLocked = true →
        ∀ address, InOtpRegion region address → ¬ InRange dst length.toNat address := by
  have slack := @slack_le driver
  have lengthLt := length.toNat_lt
  have dstLt := dst.toNat_lt
  rcases (rangeCheck_accepts .write).mp accepted with ⟨low, high, permits⟩ | ⟨first, last⟩
  · refine ⟨by omega, ?_⟩
    intro region locked address inRegion inside
    have between := (Mem.inRange_iff (by omega)).mp inside
    obtain ⟨_, _, here⟩ := inRegion
    rcases permits with ⟨reading, _⟩ | free
    · cases reading
    · have permitted := free region
        (here ▸ Regions.regionOf_mono (by omega)) (here ▸ Regions.regionOf_mono (by omega))
      unfold RegionPermits at permitted
      rw [Access.lock, locked] at permitted
      cases permitted
  · have firstIn := mainAddrCheck_iff.mp first
    have lastIn := mainAddrCheck_iff.mp last
    rw [UInt32.toNat_add] at lastIn
    -- A range that wraps around runs over the lock region on its way.
    have noWrap : dst.toNat + length.toNat < 2 ^ 32 := by
      by_contra wraps
      apply apart readPermAddr (by decide)
      have lockNat : readPermAddr.toNat = 0x1A0030 := by decide
      unfold InRange
      rw [Mem.distance_eq, lockNat, if_neg (by omega)]
      omega
    refine ⟨noWrap, ?_⟩
    intro region _ address inRegion inside
    have between := (Mem.inRange_iff (by omega)).mp inside
    obtain ⟨_, below, _⟩ := inRegion
    omega

/-- The regions the locks protect: the lock region and every write-locked one. -/
def Protected (memory : Mem UInt8) (region : Nat) : Prop :=
  region = rwPermissionRegion ∨ lockBit memory (lockNumOf region) writeLocked = true

/-- A change of bytes that are not protected. -/
theorem LocksKept.of_unprotected
    (changed : ∀ address, after address ≠ before address →
      ∀ region, InOtpRegion region address → ¬ Protected before region) :
    LocksKept before after := by
  have frame : ∀ region, Protected before region → ∀ address, InOtpRegion region address →
      after address = before address := by
    intro region isProtected address inside
    by_contra different
    exact changed address different region inside isProtected
  have same : ∀ regionNum < 24, ∀ rdWrLock,
      lockBit after regionNum rdWrLock = lockBit before regionNum rdWrLock := by
    intro regionNum small rdWrLock
    exact lockBit_congr (frame _ (Or.inl rfl) _ (lockAddr_inRegion small rdWrLock))
  exact {
    regions := fun region _ locked => frame region (Or.inr locked)
    bits := fun regionNum small rdWrLock set => (same regionNum small rdWrLock).trans set
    sealed := fun _ => same }

/-- A change of unlocked bytes outside the lock region. -/
theorem LocksKept.of_range {dst : UInt32} {count : Nat}
    (frame : ∀ address, ¬ InRange dst count address → after address = before address)
    (apart : ∀ address, InOtpRegion rwPermissionRegion address → ¬ InRange dst count address)
    (free : ∀ region, lockBit before (lockNumOf region) writeLocked = true →
      ∀ address, InOtpRegion region address → ¬ InRange dst count address) :
    LocksKept before after := by
  apply LocksKept.of_unprotected
  intro address different region inside isProtected
  apply different
  apply frame
  rcases isProtected with rfl | locked
  · exact apart address inside
  · exact free region locked address inside

/-- Setting a bit of a lock byte, cut short or not, while the lock region is not
write-locked. -/
theorem LocksKept.of_lock {regionNum rdWrLock : UInt32} {bit : UInt8} (small : regionNum < 24)
    (opened : lockBit before (UInt32.ofNat rwPermissionRegion) writeLocked = false)
    (mixed : Mixed Blended before (lockAddr regionNum rdWrLock) 1
      (fun _ => before (lockAddr regionNum rdWrLock) ||| bit) after) :
    LocksKept before after where
  regions := by
    intro region _ locked address inside
    apply (mixed address).2
    intro hit
    have here := Mem.inRange_one.mp hit
    have lockRegion := lockAddr_inRegion small rdWrLock
    rw [← here] at lockRegion
    have isLock : region = rwPermissionRegion := inside.2.2.symm.trans lockRegion.2.2
    have itsBit : lockNumOf rwPermissionRegion = UInt32.ofNat rwPermissionRegion := by decide
    rw [isLock, itsBit, opened] at locked
    cases locked
  bits := by
    intro other _ otherLock set
    by_cases hit : InRange (lockAddr regionNum rdWrLock) 1 (lockAddr other otherLock)
    · have blended := (mixed _).1 hit
      rw [← Mem.inRange_one.mp hit] at blended
      apply blended.testBit set
      rw [UInt8.toNat_or, Nat.testBit_or]
      unfold lockBit at set
      rw [set, Bool.true_or]
    · rw [lockBit_congr ((mixed _).2 hit)]
      exact set
  sealed := by
    intro closed
    rw [opened] at closed
    cases closed

end Locks

section Calls

variable {driver : RramDriver} {memory : Mem UInt8}

/-- The lock operation leaves the state alone, or it writes a lock byte with one
more bit while the lock region is not write-locked. -/
theorem ntOtpRegionLockWith_cases {σ : Type} (state : σ) (write : UInt32 → UInt8 → Int × σ)
    (regionNum rdWrLock : UInt32) :
    (ntOtpRegionLockWith driver memory state write regionNum rdWrLock).2 = state ∨
      regionNum < 24 ∧
        lockBit memory (UInt32.ofNat rwPermissionRegion) writeLocked = false ∧
        lockBit memory regionNum rdWrLock = false ∧
        (ntOtpRegionLockWith driver memory state write regionNum rdWrLock).2 =
          (write (lockAddr regionNum rdWrLock) (memory (lockAddr regionNum rdWrLock) |||
            (1 <<< (regionNum % 8).toUInt8))).2 := by
  unfold ntOtpRegionLockWith
  by_cases invalid : driver.maxRegion ≤ regionNum ∨ maxLocked ≤ rdWrLock
  · rw [if_pos invalid]
    exact Or.inl rfl
  · rw [if_neg invalid]
    have known : regionNum < driver.maxRegion :=
      UInt32.not_le.mp fun noBit => invalid (Or.inl noBit)
    have small := maxRegion_lt known
    have lockKnown : UInt32.ofNat rwPermissionRegion < driver.maxRegion :=
      @lockNumOf_lt driver rwPermissionRegion (by decide)
    have lockTest : ntOtpRegionLocked driver memory (UInt32.ofNat rwPermissionRegion) writeLocked =
        if lockBit memory (UInt32.ofNat rwPermissionRegion) writeLocked then 1 else 0 :=
      ntOtpRegionLockedWith_eq 1 lockKnown (by decide)
    have granted := @rangeCheckDepth_lockAddr driver memory 1 regionNum small rdWrLock
    have read : rramRead driver memory (lockAddr regionNum rdWrLock) (fun _ => 0) 1 =
        (errNone, overlay (fun _ => 0) 0 1 (memory.cells (lockAddr regionNum rdWrLock))) :=
      rramReadWith_granted _ (by decide) granted
    have byte : overlay (fun _ => 0) 0 1 (memory.cells (lockAddr regionNum rdWrLock)) 0 =
        memory (lockAddr regionNum rdWrLock) := by
      have here : lockAddr regionNum rdWrLock + UInt32.ofNat 0 = lockAddr regionNum rdWrLock :=
        UInt32.add_zero _
      simp only [overlay, Mem.cells, here]
      rfl
    rw [lockTest, read]
    cases opened : lockBit memory (UInt32.ofNat rwPermissionRegion) writeLocked with
    | true => exact Or.inl rfl
    | false =>
        simp only [byte, errNone, ne_eq, Bool.false_eq_true, if_false, not_true_eq_false]
        split_ifs with set failed
        · exact Or.inl rfl
        · exact Or.inr ⟨small, trivial, Bool.eq_false_iff.mpr set, rfl⟩
        · exact Or.inr ⟨small, trivial, Bool.eq_false_iff.mpr set, rfl⟩

/-- The calls the locks are meant for: a write keeps out of the lock region. -/
def BlCall.Apart : BlCall → Prop
  | .lock _ _ _ _ => True
  | .write dst _ length _ _ =>
      ∀ address, InOtpRegion rwPermissionRegion address → ¬ InRange dst length.toNat address

/-- One call keeps the locks. -/
theorem BlCall.run_keeps (driver : RramDriver) (memory : Mem UInt8) {call : BlCall}
    (apart : call.Apart) : LocksKept memory (call.run driver memory) := by
  cases call with
  | lock regionNum rdWrLock device stack =>
      rcases @ntOtpRegionLockWith_cases driver memory (Mem UInt8) memory
          (fun address byte => ntBlRramWrite driver device stack memory address (fun _ => byte) 1)
          regionNum rdWrLock with unchanged | ⟨small, opened, _, written⟩
      · rw [BlCall.run, unchanged]
        exact LocksKept.refl memory
      · rw [BlCall.run, written]
        have inArea := (lockAddr_inRegion small rdWrLock).2.1
        have one : (1 : UInt32).toNat = 1 := by decide
        have mixed := @ntBlRramWrite_mixed _ _ memory (Blended.answers device) driver stack
          (fun _ => memory (lockAddr regionNum rdWrLock) ||| (1 <<< (regionNum % 8).toUInt8))
          (lockAddr regionNum rdWrLock) 1 (by omega)
        rw [one] at mixed
        exact LocksKept.of_lock small opened mixed
  | write dst wdata length device stack =>
      by_cases accepted : rramAddressRangeCheck driver memory dst length writeLocked = 0
      · obtain ⟨noWrap, free⟩ := accepted_range accepted apart
        have mixed := @ntBlRramWrite_mixed _ _ memory (Blended.answers device) driver stack
          wdata dst length noWrap
        exact LocksKept.of_range (fun address outside => (mixed address).2 outside) apart free
      · have refused : (BlCall.write dst wdata length device stack).run driver memory = memory := by
          rw [BlCall.run, ntBlRramWrite]
          split_ifs
          · rfl
          · rfl
        rw [refused]
        exact LocksKept.refl memory

/-- Over any sequence of lock calls and of writes outside the lock region, from
any state on, write-locked regions keep their bytes, no lock bit is cleared, and
no lock bit changes once the lock region is write-locked. -/
theorem blCall_runs_keep_locks (fermionSilicon : Bool) (memory : Mem UInt8)
    (calls : List BlCall) (apart : ∀ call ∈ calls, call.Apart) :
    LocksKept memory (calls.foldl (BlCall.run (.boot fermionSilicon)) memory) := by
  induction calls generalizing memory with
  | nil => exact LocksKept.refl memory
  | cons call calls ih =>
      have first := BlCall.run_keeps (.boot fermionSilicon) memory
        (apart call (List.mem_cons_self ..))
      exact first.trans (ih _ fun later member => apart later (List.mem_cons_of_mem call member))

/-- The memory behind a call that has locked the anti-rollback region against writing. -/
def antiRollbackLocked : Mem UInt8 :=
  (BlCall.lock 8 2 (fun _ => none) (fun _ => 0)).run (.boot true) (fun _ => 0)

/-- A write to the locked anti-rollback region changes nothing, and one to the words behind it
leaves the region and its lock alone. -/
theorem blCall_runs_keep_locks_antiRollback :
    lockBit antiRollbackLocked 8 writeLocked = true ∧
      LocksKept antiRollbackLocked
        ([BlCall.write 0x1A00B0 (fun _ => 1) 16 (fun _ => none) (fun _ => 0),
          BlCall.write 0x1A00D0 (fun _ => 1) 16 (fun _ => none) (fun _ => 0)].foldl
            (BlCall.run (.boot true)) antiRollbackLocked) := by
  refine ⟨by decide, ?_⟩
  apply blCall_runs_keep_locks
  have width : (16 : UInt32).toNat = 16 := by decide
  intro call member
  simp only [List.mem_cons, List.not_mem_nil, or_false] at member
  rcases member with rfl | rfl
  · intro address inside hit
    have lockRegion := inOtpRegion_rwPermission.mp inside
    have start : (0x1A00B0 : UInt32).toNat = 0x1A00B0 := by decide
    have between := (Mem.inRange_iff (by omega)).mp hit
    omega
  · intro address inside hit
    have lockRegion := inOtpRegion_rwPermission.mp inside
    have start : (0x1A00D0 : UInt32).toNat = 0x1A00D0 := by decide
    have between := (Mem.inRange_iff (by omega)).mp hit
    omega

end Calls

end QHal.Rram
