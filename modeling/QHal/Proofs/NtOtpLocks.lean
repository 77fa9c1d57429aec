/-
Module: QHal.Proofs.NtOtpLocks
Purpose: The OTP locks of the application's RRAM driver.  The write widens its
  range to whole lines, which never reach another region, and to a whole block of
  256 bytes, which does; the lock operation writes back the whole line of the lock
  bytes.  The locks hold as long as the reads behind the last two are granted.
Trusted boundary: none
Main exports: NtCall.Apart, NtCall.ReadsBack, NtCall.Clean, ntCall_runs_keep_locks,
  ntCall_run_clears_lock
-/
import QHal.Proofs.NtRramWrite

namespace QHal.Rram

open Mem (InRange Mixed)

section Lines

variable {dst length address other : UInt32} {region : Nat}

/-- A line lies in one region. -/
theorem InOtpRegion.of_line (inside : InOtpRegion region address)
    (sameLine : address.toNat / 16 = other.toNat / 16) : InOtpRegion region other := by
  obtain ⟨low, high, here⟩ := inside
  have whole : ∀ size ∈ otpSizes, 16 ∣ size := by decide
  refine ⟨by omega, by omega, ?_⟩
  rw [← here]
  exact Regions.regionOf_block (by decide) whole (by omega)

/-- The lines that hold a byte of the range. -/
def InLines (dst length address : UInt32) : Prop :=
  dst.toNat / 16 * 16 ≤ address.toNat ∧
    address.toNat < (dst.toNat + length.toNat + 15) / 16 * 16

/-- A byte of one of these lines shares it with a byte of the range. -/
theorem InLines.companion (inLines : InLines dst length address) (nonempty : 0 < length.toNat)
    (noWrap : dst.toNat + length.toNat < 2 ^ 32) :
    ∃ other : UInt32, address.toNat / 16 = other.toNat / 16 ∧
      InRange dst length.toNat other := by
  obtain ⟨low, high⟩ := inLines
  by_cases early : address.toNat < dst.toNat
  · refine ⟨dst, by omega, ?_⟩
    exact (Mem.inRange_iff (by omega)).mpr ⟨Nat.le_refl _, by omega⟩
  · by_cases late : dst.toNat + length.toNat ≤ address.toNat
    · have last : (UInt32.ofNat (dst.toNat + length.toNat - 1)).toNat =
          dst.toNat + length.toNat - 1 := by
        rw [UInt32.toNat_ofNat']
        exact Nat.mod_eq_of_lt (by omega)
      refine ⟨UInt32.ofNat (dst.toNat + length.toNat - 1), by omega, ?_⟩
      exact (Mem.inRange_iff (by omega)).mpr ⟨by omega, by omega⟩
    · exact ⟨address, rfl, (Mem.inRange_iff (by omega)).mpr ⟨by omega, by omega⟩⟩

/-- The lines of a range that avoids the protected regions avoid them too. -/
theorem InLines.unprotected {memory : Mem UInt8} (inLines : InLines dst length address)
    (nonempty : 0 < length.toNat) (noWrap : dst.toNat + length.toNat < 2 ^ 32)
    (free : ∀ region, Protected memory region → ∀ address, InOtpRegion region address →
      ¬ InRange dst length.toNat address)
    (inside : InOtpRegion region address) : ¬ Protected memory region := by
  intro isProtected
  obtain ⟨other, sameLine, inRange⟩ := inLines.companion nonempty noWrap
  exact free region isProtected other (inside.of_line sameLine) inRange

theorem line_toNat (dst : UInt32) : (dst - dst % 16).toNat = dst.toNat / 16 * 16 := by
  have offset : (dst % 16).toNat = dst.toNat % 16 := UInt32.toNat_mod _ _
  rw [UInt32.toNat_sub_of_le _ _ (UInt32.le_iff_toNat_le.mpr (by omega)), offset]
  omega

/-- A change within the lines of the range. -/
theorem Confined.inLines {memory after : Mem UInt8} {base : UInt32} {count : Nat}
    (confined : Confined memory base count after)
    (start : dst.toNat / 16 * 16 ≤ base.toNat)
    (bound : base.toNat + count ≤ (dst.toNat + length.toNat + 15) / 16 * 16)
    (noWrap : dst.toNat + length.toNat < 2 ^ 31) (different : after address ≠ memory address) :
    InLines dst length address := by
  have inside : InRange base count address :=
    not_not.mp fun outside => different (confined address outside)
  have between := (Mem.inRange_iff (by omega)).mp inside
  exact ⟨by omega, by omega⟩

end Lines

section Write

variable {dst srcAdr length address : UInt32} {source : Nat → UInt8}

/-- The read of the whole block at the end of a copy through the temporary
buffer. -/
def spillReads (dst srcAdr length : UInt32) : List RmwRead :=
  if (dst % 16 ≠ 0 ∨ srcAdr % 4 ≠ 0) ∧
      (srcAdr + UInt32.ofNat (headCount dst length)) % 4 ≠ 0 then
    tempTail (headCount dst length) (dst - dst % 16 + 16) (length.toNat - headCount dst length)
  else []

/-- A byte of a block that is written back although its read was refused. -/
def Spilled (memory : Mem UInt8) (dst srcAdr length address : UInt32) : Prop :=
  ∃ read ∈ spillReads dst srcAdr length,
    InRange read.address read.width.toNat address ∧
      ¬ Readable memory read.address read.width

theorem nextLine_toNat (low : dst.toNat < 2 ^ 31) :
    (dst - dst % 16 + 16).toNat = dst.toNat / 16 * 16 + 16 := by
  have width : (16 : UInt32).toNat = 16 := by decide
  rw [UInt32.toNat_add, line_toNat, width]
  exact Nat.mod_eq_of_lt (by omega)

/-- The copy through the temporary buffer leaves the lock bytes alone as long as
it is inside the range. -/
theorem readable_through (middle : NtRram) {memory : Mem UInt8} {desAdr tail width : UInt32}
    {rest : Nat → UInt8} {count : Nat}
    (sameLocks : ∀ address, InOtpRegion rwPermissionRegion address →
      middle.memory address = memory address)
    (apart : ∀ address, InOtpRegion rwPermissionRegion address → ¬ InRange desAdr count address)
    (readable : Readable memory tail width) :
    Readable (middle.memory.write desAdr count rest) tail width := by
  apply readable_congr _ readable
  intro regionNum small rdWrLock
  have inside := lockAddr_inRegion small rdWrLock
  rw [Mem.write_miss (apart _ inside), sameLocks _ inside]

/-- The blocks of a copy through the temporary buffer hold bytes of the lines of
the range and bytes of the last block. -/
theorem inTail_of_inRange (high : dst.toNat + length.toNat < 0x1A1000)
    (full : (dst % 16).toNat + headCount dst length = 16) {remaining : Nat}
    (remainingIs : length.toNat - headCount dst length = remaining)
    (inside : InRange (dst - dst % 16 + 16) (remaining / 256 * 256 + 256) address) :
    InLines dst length address ∨
      InRange (dst - dst % 16 + 16 + UInt32.ofNat (remaining / 256 * 256)) 256 address := by
  have offset : (dst % 16).toNat = dst.toNat % 16 := UInt32.toNat_mod _ _
  have next := @nextLine_toNat dst (by omega)
  have counts := @headCount_le dst length
  generalize dst - dst % 16 + 16 = first at next inside ⊢
  have between := (Mem.inRange_iff (by omega)).mp inside
  by_cases early : address.toNat < dst.toNat + length.toNat
  · exact Or.inl ⟨by omega, by omega⟩
  · right
    have tail : (first + UInt32.ofNat (remaining / 256 * 256)).toNat =
        dst.toNat / 16 * 16 + 16 + remaining / 256 * 256 := by
      rw [UInt32.toNat_add, next, UInt32.toNat_ofNat']
      omega
    exact (Mem.inRange_iff (by omega)).mpr ⟨by omega, by omega⟩

/-- What the copy behind the first line changes. -/
theorem restCopy_changes (dma : UInt32 → BlockAnswer) (middle : NtRram) {memory : Mem UInt8}
    (unaligned : dst % 16 ≠ 0 ∨ srcAdr % 4 ≠ 0) (low : 0x1A0000 ≤ dst.toNat)
    (high : dst.toNat + length.toNat < 0x1A1000)
    (sameLocks : ∀ address, InOtpRegion rwPermissionRegion address →
      middle.memory address = memory address)
    (apart : ∀ address, InOtpRegion rwPermissionRegion address →
      ¬ InRange dst length.toNat address)
    (different : (restCopy dma middle dst srcAdr source length).2.memory address ≠
      middle.memory address) :
    InLines dst length address ∨ Spilled memory dst srcAdr length address := by
  have offset : (dst % 16).toNat = dst.toNat % 16 := UInt32.toNat_mod _ _
  have next := @nextLine_toNat dst (by omega)
  have counts := @headCount_le dst length
  unfold restCopy at different
  by_cases none : length.toNat - headCount dst length = 0
  · rw [if_pos none] at different
    exact absurd rfl different
  have full := headCount_full none
  rw [if_neg none] at different
  by_cases special : (srcAdr + UInt32.ofNat (headCount dst length)) % 4 ≠ 0
  · rw [if_pos special] at different
    by_cases granted : ∀ read ∈ spillReads dst srcAdr length,
        Readable memory read.address read.width
    · left
      rw [spillReads, if_pos ⟨unaligned, special⟩] at granted
      have copied := @tempCopy_outcome dma middle (dst - dst % 16 + 16)
        (fun i => source (headCount dst length + i))
        (length.toNat - headCount dst length) (by omega) (by
          intro part
          apply readable_through middle sameLocks _ (granted _ (mem_tempTail part))
          intro address inside within
          apply apart address inside
          have between := (Mem.inRange_iff (by omega)).mp within
          exact (Mem.inRange_iff (by omega)).mpr ⟨by omega, by omega⟩)
      exact copied.confined.inLines (by omega) (by omega) (by omega) different
    · obtain ⟨read, member, refused⟩ : ∃ read ∈ spillReads dst srcAdr length,
          ¬ Readable memory read.address read.width := by
        by_contra all
        exact granted fun read member => not_not.mp fun refused => all ⟨read, member, refused⟩
      have inside := not_not.mp fun outside =>
        different (tempCopy_confined dma middle (dst - dst % 16 + 16) _ _ address outside)
      rw [Nat.mod_eq_of_lt (by omega)] at inside
      rcases inTail_of_inRange high full rfl inside with early | late
      · exact Or.inl early
      · right
        refine ⟨read, member, ?_, refused⟩
        rw [spillReads, if_pos ⟨unaligned, special⟩, tempTail] at member
        split_ifs at member with part
        · rw [List.mem_singleton.mp member]
          exact late
        · cases member
  · rw [if_neg special] at different
    left
    apply (blockCopy_confined dma middle (dst - dst % 16 + 16) _ _).inLines (by omega) _
      (by omega) different
    omega

/-- What a write into the OTP area changes. -/
theorem otpWrite_changes (dma : UInt32 → BlockAnswer) (state : NtRram)
    (low : 0x1A0000 ≤ dst.toNat) (high : dst.toNat + length.toNat < 0x1A1000)
    (apart : ∀ address, InOtpRegion rwPermissionRegion address →
      ¬ InRange dst length.toNat address)
    (different : (ntRramWrite dma state dst srcAdr source length).2.memory address ≠
      state.memory address) :
    InLines dst length address ∨ Spilled state.memory dst srcAdr length address := by
  have start := line_toNat dst
  rcases ntRramWrite_cases dma state dst srcAdr source length with
    unchanged | ⟨⟨nonempty, _⟩, ways⟩
  · rw [unchanged] at different
    exact absurd rfl different
  have headInLines : ∀ {address}, (headLine dma state dst source length).2.memory address ≠
      state.memory address → InLines dst length address := by
    intro address changed
    exact (headLine_confined dma state source).inLines (by omega) (by omega) (by omega) changed
  rcases ways with ⟨aligned, copied⟩ | headOnly | ⟨unaligned, both⟩
  · rw [copied] at different
    have offset : (dst % 16).toNat = dst.toNat % 16 := UInt32.toNat_mod _ _
    have zero : (0 : UInt32).toNat = 0 := by decide
    rw [aligned, zero] at offset
    exact Or.inl ((blockCopy_confined dma state dst source length.toNat).inLines (by omega)
      (by omega) (by omega) different)
  · rw [headOnly] at different
    exact Or.inl (headInLines different)
  · rw [both] at different
    -- The first line shares no byte with the lock region, as it holds `dst`.
    have sameLocks : ∀ address, InOtpRegion rwPermissionRegion address →
        (headLine dma state dst source length).2.memory address = state.memory address := by
      intro address inside
      by_contra changed
      obtain ⟨other, sameLine, inRange⟩ :=
        (headInLines changed).companion nonempty (by omega)
      exact apart other (inside.of_line sameLine) inRange
    by_cases later : (restCopy dma (headLine dma state dst source length).2 dst srcAdr source
        length).2.memory address = (headLine dma state dst source length).2.memory address
    · rw [later] at different
      exact Or.inl (headInLines different)
    · exact restCopy_changes dma _ unaligned low high sameLocks apart later

/-- A write into the main RRAM does not reach the OTP area. -/
theorem mainWrite_frame (dma : UInt32 → BlockAnswer) (state : NtRram)
    (main : 0x200000 ≤ dst.toNat) (high : dst.toNat ≤ 0x380000) (inOtp : address.toNat < 0x1A1000) :
    (ntRramWrite dma state dst srcAdr source length).2.memory address = state.memory address := by
  apply ntRramWrite_confined dma state dst srcAdr source length address
  have start := line_toNat dst
  intro inside
  have between := (Mem.inRange_iff (by omega)).mp inside
  omega

end Write

section Calls

/-- The calls the locks are meant for: a write keeps out of the lock region. -/
def NtCall.Apart : NtCall → Prop
  | .lock _ _ _ _ => True
  | .write dst _ _ length _ =>
      ∀ address, InOtpRegion rwPermissionRegion address → ¬ InRange dst length.toNat address

/-- The reads the locks rest on.  A call that sets a lock bit reads the line of
the lock bytes; a write into the OTP area that ends in a block of the temporary
buffer reads that block, unless no byte of it is protected. -/
def NtCall.ReadsBack (memory : Mem UInt8) : NtCall → Prop
  | .lock regionNum rdWrLock _ _ =>
      lockBit memory (UInt32.ofNat rwPermissionRegion) writeLocked = false →
      lockBit memory regionNum rdWrLock = false → Readable memory readPermAddr 16
  | .write dst srcAdr _ length _ =>
      dst < otpRegionEndAddr → ∀ read ∈ spillReads dst srcAdr length,
        Readable memory read.address read.width ∨
          ∀ region, Protected memory region → ∀ address, InOtpRegion region address →
            ¬ InRange read.address read.width.toNat address

/-- Each call of a run meets these conditions in the state before it. -/
def NtCall.Clean : NtRram → List NtCall → Prop
  | _, [] => True
  | state, call :: calls =>
      call.Apart ∧ call.ReadsBack state.memory ∧ NtCall.Clean (call.run state) calls

/-- The only read of a write of one byte is that of its line. -/
theorem rmwReads_one {dst srcAdr : UInt32} {read : RmwRead}
    (member : read ∈ rmwReads dst srcAdr 1) : read = ⟨0, dst - dst % 16, 16⟩ := by
  have offset : (dst % 16).toNat = dst.toNat % 16 := UInt32.toNat_mod _ _
  have one : (1 : UInt32).toNat = 1 := by decide
  have count : headCount dst 1 = 1 := by
    unfold headCount
    rw [one]
    split_ifs <;> omega
  unfold rmwReads at member
  by_cases unaligned : dst % 16 ≠ 0 ∨ srcAdr % 4 ≠ 0
  · have nothing : ∀ desAdr, tempTail 1 desAdr 0 = [] ∧ blockTail 1 desAdr 0 = [] :=
      fun _ => ⟨rfl, rfl⟩
    rw [if_pos unaligned, count, one, (nothing _).1, (nothing _).2, ite_self] at member
    exact List.mem_singleton.mp member
  · have aligned : dst % 16 = 0 := not_not.mp fun low => unaligned (Or.inl low)
    rw [if_neg unaligned] at member
    rw [List.mem_singleton.mp member, aligned, UInt32.sub_zero]
    exact congrArg (RmwRead.mk 0 · 16) (UInt32.add_zero dst)

/-- The lock bytes share one line. -/
theorem lockAddr_line {regionNum : UInt32} (small : regionNum < 24) (rdWrLock : UInt32) :
    lockAddr regionNum rdWrLock - lockAddr regionNum rdWrLock % 16 = readPermAddr := by
  exact lockAddr_of_bytes (P := fun address => address - address % 16 = readPermAddr) small rdWrLock
    (by decide)

/-- One call keeps the locks. -/
theorem NtCall.run_keeps (state : NtRram) {call : NtCall} (apart : call.Apart)
    (readsBack : call.ReadsBack state.memory) :
    LocksKept state.memory (call.run state).memory := by
  cases call with
  | lock regionNum rdWrLock srcAdr dma =>
      rcases @ntOtpRegionLockWith_cases .app state.memory NtRram state
          (fun address byte => ntRramWrite dma state address srcAdr (fun _ => byte) 1)
          regionNum rdWrLock with unchanged | ⟨small, opened, unset, written⟩
      · rw [NtCall.run, unchanged]
        exact LocksKept.refl state.memory
      · rw [NtCall.run, written]
        have granted : ReadsGranted state.memory (lockAddr regionNum rdWrLock) srcAdr 1 (fun _ =>
            state.memory (lockAddr regionNum rdWrLock) ||| (1 <<< (regionNum % 8).toUInt8)) := by
          intro read member
          rw [rmwReads_one member, Mem.write_zero, lockAddr_line small]
          exact readsBack opened unset
        have outcome := ntRramWrite_outcome dma state (by decide) granted
        exact LocksKept.of_lock small opened outcome.mixed
  | write dst srcAdr wdata length dma =>
      rcases ntRramWrite_cases dma state dst srcAdr wdata length with
        unchanged | ⟨⟨nonempty, accepted⟩, _⟩
      · rw [NtCall.run, unchanged]
        exact LocksKept.refl state.memory
      · obtain ⟨noWrap, unlocked⟩ := accepted_range accepted apart
        have free : ∀ region, Protected state.memory region → ∀ address,
            InOtpRegion region address → ¬ InRange dst length.toNat address := by
          intro region isProtected
          rcases isProtected with rfl | locked
          · exact apart
          · exact unlocked region locked
        apply LocksKept.of_unprotected
        intro address different region inside
        rcases (rangeCheck_accepts .write).mp accepted with ⟨low, high, _⟩ | ⟨main, _⟩
        · have inOtp : dst < otpRegionEndAddr := UInt32.lt_iff_toNat_lt.mpr
            (Nat.lt_of_le_of_lt (Nat.le_add_right _ _) high)
          rcases otpWrite_changes dma state low high apart different with
            inLines | ⟨read, member, inBlock, refused⟩
          · exact inLines.unprotected nonempty noWrap free inside
          · rcases readsBack inOtp read member with granted | spared
            · exact absurd granted refused
            · exact fun isProtected => spared region isProtected address inside inBlock
        · have mainIn := mainAddrCheck_iff.mp main
          have slack := @slack_le .app
          exact absurd (mainWrite_frame dma state mainIn.1 (by omega) inside.2.1) different

/-- Over any sequence of lock calls and of writes outside the lock region, from
any state on, whose reads of the lock line and of blocks that reach protected
regions are granted: from each state to each later one, write-locked regions keep
their bytes and no lock bit is cleared. -/
theorem ntCall_runs_keep_locks (state : NtRram) (earlier later : List NtCall)
    (clean : NtCall.Clean state (earlier ++ later)) :
    LocksKept (earlier.foldl NtCall.run state).memory
      ((earlier ++ later).foldl NtCall.run state).memory := by
  induction earlier generalizing state with
  | nil =>
      induction later generalizing state with
      | nil => exact LocksKept.refl state.memory
      | cons call calls ih =>
          obtain ⟨apart, readsBack, rest⟩ := clean
          exact (NtCall.run_keeps state apart readsBack).trans (ih _ rest)
  | cons call calls ih =>
      obtain ⟨_, _, rest⟩ := clean
      exact ih _ rest

/-- A range behind the lock region is apart from it. -/
theorem apart_of_behind {dst : UInt32} {count : Nat} (behind : 0x1A0040 ≤ dst.toNat)
    (noWrap : dst.toNat + count ≤ 2 ^ 32) (address : UInt32)
    (inside : InOtpRegion rwPermissionRegion address) : ¬ InRange dst count address := by
  intro hit
  have lockRegion := inOtpRegion_rwPermission.mp inside
  have between := (Mem.inRange_iff noWrap).mp hit
  omega

/-- A region is write-locked, and then its neighbour is written from a source
that is not word aligned. -/
theorem ntCall_runs_keep_locks_unaligned_source :
    LocksKept
      ([NtCall.lock 8 2 0x20000000 (fun _ => none)].foldl NtCall.run
        ⟨fun _ => 0, fun _ => 0xA5⟩).memory
      ([NtCall.lock 8 2 0x20000000 (fun _ => none),
        NtCall.write 0x1A00D0 0x20000001 (fun _ => 1) 20 (fun _ => none)].foldl NtCall.run
          ⟨fun _ => 0, fun _ => 0xA5⟩).memory := by
  apply ntCall_runs_keep_locks ⟨fun _ => 0, fun _ => 0xA5⟩
    [NtCall.lock 8 2 0x20000000 (fun _ => none)]
    [NtCall.write 0x1A00D0 0x20000001 (fun _ => 1) 20 (fun _ => none)]
  have granted : rramAddressRangeCheck .app (NtCall.run ⟨fun _ => 0, fun _ => 0xA5⟩
      (NtCall.lock 8 2 0x20000000 (fun _ => none))).memory 0x1A00E0 256 readLocked = 0 := by
    decide
  have lockLine : rramAddressRangeCheck .app (fun _ => 0) readPermAddr 16 readLocked = 0 := by
    decide
  have reads : spillReads 0x1A00D0 0x20000001 20 = [⟨16, 0x1A00E0, 256⟩] := by decide
  refine ⟨trivial, fun _ _ => lockLine, apart_of_behind (by decide) (by decide), ?_, trivial⟩
  intro _ read member
  rw [reads] at member
  rw [List.mem_singleton.mp member]
  exact Or.inl granted

/-- The read lock of the region behind the lock region is set, some byte of the
main RRAM is written, and a write lock is set: the line of the lock bytes cannot
be read any more, and the bytes of the main RRAM take its place. -/
theorem ntCall_run_clears_lock :
    (NtCall.write 0x200008 0x20000000 (fun _ => 0x55) 1 (fun _ => none)).Apart ∧
    lockBit ([NtCall.lock 9 1 0x20000000 (fun _ => none)].foldl NtCall.run
      ⟨fun _ => 0, fun _ => 0⟩).memory 9 readLocked = true ∧
    lockBit ([NtCall.lock 9 1 0x20000000 (fun _ => none),
      NtCall.write 0x200008 0x20000000 (fun _ => 0x55) 1 (fun _ => none),
      NtCall.lock 0 2 0x20000000 (fun _ => none)].foldl NtCall.run
        ⟨fun _ => 0, fun _ => 0⟩).memory 9 readLocked = false := by
  refine ⟨apart_of_behind (by decide) (by decide), by decide, ?_⟩
  decide +kernel

end Calls

end QHal.Rram
