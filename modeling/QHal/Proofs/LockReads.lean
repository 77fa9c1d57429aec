/-
Module: QHal.Proofs.LockReads
Purpose: The check of an access to RRAM or OTP comes to an end although it reads lock bytes whose
  reads are checked: each of them lies in the RW-permission region, and its check reads no lock.
Trusted boundary: none
Main exports: rangeCheckCalls_lockAddr, LockRead.Plain, rangeCheckCalls_run,
  permission_check_terminates
-/
import QHal.Proofs.OtpRangeCheck
import QHal.Rram.LockReads

namespace QHal.Rram

variable {driver : RramDriver} {memory : Mem UInt8}

/-- A lock byte and the address behind it are in the RW-permission region. -/
theorem lockAddr_in_rwPermission {regionNum : UInt32} (small : regionNum < 24)
    (rdWrLock : UInt32) :
    addressToRegionNumMap (lockAddr regionNum rdWrLock) = rwPermissionRegion ∧
      addressToRegionNumMap (lockAddr regionNum rdWrLock + 1) = rwPermissionRegion :=
  lockAddr_of_bytes (P := fun address => addressToRegionNumMap address = rwPermissionRegion ∧
    addressToRegionNumMap (address + 1) = rwPermissionRegion) small rdWrLock (by decide)

/-- Both ends of a span in a region of the OTP are addresses of the OTP. -/
theorem otpAddrCheck_of_region {address : UInt32}
    (known : addressToRegionNumMap address < otpRegionLockMap.length) :
    driver.otpAddrCheck address = true := by
  obtain ⟨reached, below⟩ := addressToRegionNumMap_lt.mp known
  rw [otpAddrCheck_iff]
  have start : otpRegionStAddr.toNat = 0x1A0000 := rfl
  have ending : otpRegionEndAddr.toNat = 0x1A1000 := rfl
  have low := UInt32.le_iff_toNat_le.mp reached
  have high := UInt32.lt_iff_toNat_lt.mp below
  omega

/-- The check of the read of a lock byte returns at once. -/
theorem rangeCheckCalls_lockAddr (depth level : Nat) {regionNum : UInt32} (small : regionNum < 24)
    (rdWrLock : UInt32) :
    rangeCheckCalls driver memory (depth + 1) level (lockAddr regionNum rdWrLock) 1 readLocked =
      pure errNone := by
  obtain ⟨first, behind⟩ := lockAddr_in_rwPermission small rdWrLock
  have known : rwPermissionRegion < otpRegionLockMap.length := by decide
  have inOtp := @otpAddrCheck_of_region driver _ (first.symm ▸ known)
  have inOtpBehind := @otpAddrCheck_of_region driver _ (behind.symm ▸ known)
  have cut : (1 : UInt32).toUInt16.toUInt32 = 1 := by decide
  have granted : ∀ regionLocked, checkOtpRegionRwPermissionCalls regionLocked
      (lockAddr regionNum rdWrLock) (1 : UInt32).toUInt16 readLocked = pure true := by
    intro regionLocked
    unfold checkOtpRegionRwPermissionCalls
    dsimp only
    rw [cut, first, behind, if_neg (by omega), if_pos ⟨rfl, rfl, rfl⟩]
  rw [rangeCheckCalls, if_pos ⟨inOtp, inOtpBehind⟩, granted, pure_bind]
  rfl

/-- A test of a lock bit that exists reads its byte and nothing else. -/
theorem ntOtpRegionLockedCalls_run (depth level : Nat) {regionNum : UInt32} (access : Access)
    (known : regionNum < driver.maxRegion) (log : List LockRead) :
    (ntOtpRegionLockedCalls driver (rangeCheckCalls driver memory (depth + 1) level) memory level
      regionNum access.lock).run log =
        some (if lockBit memory regionNum access.lock then 1 else 0,
          log ++ [⟨level, lockAddr regionNum access.lock, 1⟩]) := by
  have valid : ¬ (driver.maxRegion ≤ regionNum ∨ maxLocked ≤ access.lock) := by
    rintro (noBit | noKind)
    · exact UInt32.not_le.mpr known noBit
    · exact UInt32.not_le.mpr access.lock_lt noKind
  have one : ¬ (1 : UInt32) = 0 := by decide
  rw [ntOtpRegionLockedCalls, if_neg valid]
  dsimp only [rramReadCalls]
  rw [if_neg one, rangeCheckCalls_lockAddr depth level (maxRegion_lt known) access.lock]
  simp [errNone, lockBit, Mem.overlay, Mem.cells]

/-- The reads that look at the locks of some regions. -/
def regionReads (level : Nat) (access : Access) (regions : List Nat) : List LockRead :=
  regions.map fun region => ⟨level, lockAddr (lockNumOf region) access.lock, 1⟩

/-- The loop over regions reads one byte for each of them. -/
theorem regionsCalls_run (depth level : Nat) (access : Access) {regions : List Nat}
    (known : ∀ region ∈ regions, region < otpRegionLockMap.length) (retValue : Bool)
    (log : List LockRead) :
    (regionsCalls (ntOtpRegionLockedCalls driver (rangeCheckCalls driver memory (depth + 1) level)
        memory level) access.lock regions retValue).run log =
      some (retValue && regions.all fun region => ntOtpRegionLockedWith driver
          (rangeCheckDepth driver memory (depth + 1)) memory (lockNumOf region) access.lock == 0,
        log ++ regionReads level access regions) := by
  induction regions generalizing retValue log with
  | nil => simp [regionsCalls, regionReads]
  | cons region regions ih =>
      have bit := @lockNumOf_lt driver _ (known region List.mem_cons_self)
      have later := ih fun other member => known other (List.mem_cons_of_mem region member)
      rw [regionsCalls, StateT.run_bind, ntOtpRegionLockedCalls_run depth level access bit,
        Option.bind_eq_bind, Option.bind_some, later, List.all_cons,
        ntOtpRegionLockedWith_eq depth bit access.lock_lt]
      cases locked : lockBit memory (lockNumOf region) access.lock with
      | true => simp [regionReads]
      | false => simp [regionReads]

/-- The permission check reads the lock bytes of the regions it looks at. -/
theorem checkPermissionCalls_run (driver : RramDriver) (memory : Mem UInt8) (access : Access)
    (address : UInt32) (length : UInt16) :
    ∃ regions : List Nat, regions.length ≤ otpRegionLockMap.length ∧
      (∀ region ∈ regions, region < otpRegionLockMap.length) ∧
      ∀ depth level log,
        (checkOtpRegionRwPermissionCalls (ntOtpRegionLockedCalls driver
            (rangeCheckCalls driver memory (depth + 1) level) memory level) address length
            access.lock).run log =
          some (checkOtpRegionRwPermission (ntOtpRegionLockedWith driver
              (rangeCheckDepth driver memory (depth + 1)) memory) address length access.lock,
            log ++ regionReads level access regions) := by
  unfold checkOtpRegionRwPermissionCalls checkOtpRegionRwPermission
  dsimp only
  generalize addressToRegionNumMap address = first
  generalize addressToRegionNumMap (address + length.toUInt32) = last
  by_cases outside : otpRegionLockMap.length ≤ first ∨ otpRegionLockMap.length ≤ last
  · refine ⟨[], Nat.zero_le _, fun region member => absurd member List.not_mem_nil, ?_⟩
    intro depth level log
    rw [if_pos outside, if_pos outside]
    simp [regionReads]
  by_cases control : first = last ∧ first = rwPermissionRegion ∧ access.lock = readLocked
  · refine ⟨[], Nat.zero_le _, fun region member => absurd member List.not_mem_nil, ?_⟩
    intro depth level log
    rw [if_neg outside, if_neg outside, if_pos control, if_pos control]
    simp [regionReads]
  have known : ∀ region ∈ List.range' first (last + 1 - first),
      region < otpRegionLockMap.length := by
    intro region member
    rw [List.mem_range'_1] at member
    omega
  refine ⟨List.range' first (last + 1 - first), ?_, known, ?_⟩
  · rw [List.length_range']
    omega
  · intro depth level log
    rw [if_neg outside, if_neg outside, if_neg control, if_neg control,
      regionsCalls_run depth level access known true log, Bool.true_and]

/-- The check of an access reads the lock bytes of the regions it looks at one level below, and
returns what it returns without the record of these reads. -/
theorem rangeCheckCalls_run (driver : RramDriver) (memory : Mem UInt8) (access : Access)
    (address length : UInt32) :
    ∃ regions : List Nat, regions.length ≤ otpRegionLockMap.length ∧
      (∀ region ∈ regions, region < otpRegionLockMap.length) ∧
      ∀ depth level log,
        (rangeCheckCalls driver memory (depth + 2) level address length access.lock).run log =
          some (rangeCheckDepth driver memory (depth + 2) address length access.lock,
            log ++ regionReads (level + 1) access regions) := by
  by_cases inOtp : driver.otpAddrCheck address = true ∧
      driver.otpAddrCheck (address + length) = true
  · obtain ⟨regions, count, known, run⟩ :=
      checkPermissionCalls_run driver memory access address length.toUInt16
    refine ⟨regions, count, known, ?_⟩
    intro depth level log
    rw [rangeCheckCalls, if_pos inOtp, StateT.run_bind, run depth (level + 1) log,
      rangeCheckDepth, if_pos inOtp]
    rfl
  · refine ⟨[], Nat.zero_le _, fun region member => absurd member List.not_mem_nil, ?_⟩
    intro depth level log
    rw [rangeCheckCalls, rangeCheckDepth, if_neg inOtp, if_neg inOtp]
    split_ifs
    all_goals simp [regionReads]

theorem rangeCheckDepth_answer (depth : Nat) (address length rdWrLock : UInt32) :
    rangeCheckDepth driver memory (depth + 1) address length rdWrLock = errNone ∨
      rangeCheckDepth driver memory (depth + 1) address length rdWrLock = einval := by
  rw [rangeCheckDepth]
  split_ifs <;> simp

/-- The depth of two is enough for every answer. -/
theorem rangeCheckDepth_eq (depth : Nat) (access : Access) (address length : UInt32) :
    rangeCheckDepth driver memory (depth + 2) address length access.lock =
      rramAddressRangeCheck driver memory address length access.lock := by
  have same := @rangeCheckDepth_enough driver memory depth access address length
  have refused : einval ≠ 0 := by decide
  rcases @rangeCheckDepth_answer driver memory (depth + 1) address length access.lock with
    deep | deep
  · rw [deep, same.mp deep]
    rfl
  · rcases @rangeCheckDepth_answer driver memory 1 address length access.lock with two | two
    · exact absurd (deep.symm.trans (same.mpr two)) refused
    · exact deep.trans two.symm

/-- A lock read below the check of an access from outside.  It is one byte, whose ends are in the
RW-permission region, and its own check reads no lock. -/
structure LockRead.Plain (driver : RramDriver) (memory : Mem UInt8) (read : LockRead) : Prop where
  nested : read.level = 1
  single : read.length = 1
  first : addressToRegionNumMap read.address = rwPermissionRegion
  behind : addressToRegionNumMap (read.address + read.length) = rwPermissionRegion
  answered : ∀ depth log, (rangeCheckCalls driver memory (depth + 1) read.level read.address
    read.length readLocked).run log = some (errNone, log)

theorem regionReads_plain (access : Access) {regions : List Nat}
    (known : ∀ region ∈ regions, region < otpRegionLockMap.length) :
    ∀ read ∈ regionReads 1 access regions, read.Plain driver memory := by
  intro read member
  obtain ⟨region, inRegions, rfl⟩ := List.mem_map.mp member
  have small := maxRegion_lt (@lockNumOf_lt driver _ (known region inRegions))
  obtain ⟨first, behind⟩ := lockAddr_in_rwPermission small access.lock
  refine ⟨rfl, rfl, first, behind, ?_⟩
  intro depth log
  rw [rangeCheckCalls_lockAddr depth 1 small access.lock]
  rfl

/-- A read returns what it returns without the record of the lock reads below it. -/
theorem rramReadCalls_run {check : RangeCheckCalls} {address length : UInt32}
    {log lockReads : List LockRead}
    (run : (check address length readLocked).run log =
      some (rramAddressRangeCheck driver memory address length readLocked, log ++ lockReads))
    (rdata : Nat → UInt8) :
    (rramReadCalls check memory address rdata length).run log =
      some (rramRead driver memory address rdata length,
        log ++ if length = 0 then [] else lockReads) := by
  rw [rramReadCalls, rramRead, rramReadWith]
  by_cases none : length = 0
  · simp [none]
  · rw [if_neg none, if_neg none, if_neg none, StateT.run_bind, run, Option.bind_eq_bind,
      Option.bind_some]
    by_cases refused : rramAddressRangeCheck driver memory address length readLocked ≠ 0
    · simp [refused]
    · simp [refused]

/-- Whatever the locks say, the check of a read or a write returns at every depth from two on, with
at most one lock read for each region and none below those; so does the read of any bytes. -/
theorem permission_check_terminates (driver : RramDriver) (memory : Mem UInt8)
    (address length : UInt32) :
    ∃ lockReads : Access → List LockRead,
      (∀ access, (lockReads access).length ≤ otpRegionLockMap.length ∧
        ∀ read ∈ lockReads access, read.Plain driver memory) ∧
      ∀ depth log,
        (∀ access,
          (rangeCheckCalls driver memory (depth + 2) 0 address length access.lock).run log =
            some (rramAddressRangeCheck driver memory address length access.lock,
              log ++ lockReads access)) ∧
        ∀ rdata,
          (rramReadCalls (rangeCheckCalls driver memory (depth + 2) 0) memory address rdata
            length).run log =
              some (rramRead driver memory address rdata length,
                log ++ if length = 0 then [] else lockReads .read) := by
  choose regions count known run using
    fun access => rangeCheckCalls_run driver memory access address length
  have check : ∀ depth log access,
      (rangeCheckCalls driver memory (depth + 2) 0 address length access.lock).run log =
        some (rramAddressRangeCheck driver memory address length access.lock,
          log ++ regionReads 1 access (regions access)) := by
    intro depth log access
    rw [run access depth 0 log, rangeCheckDepth_eq depth access address length]
  refine ⟨fun access => regionReads 1 access (regions access), ?_, ?_⟩
  · intro access
    refine ⟨?_, regionReads_plain access (known access)⟩
    have one := count access
    rwa [← List.length_map] at one
  · intro depth log
    exact ⟨check depth log, rramReadCalls_run (check depth log .read)⟩

end QHal.Rram
