/-
Module: QHal.Rram.LockReads
Purpose: The address check of the RRAM drivers with the calls below it: the check of an
  access reads lock bytes, and the read of a lock byte is checked like any other.
Trusted boundary: the CPU reads RRAM and OTP as memory
Main exports: LockRead, Calls, rramReadCalls, ntOtpRegionLockedCalls,
  checkOtpRegionRwPermissionCalls, rangeCheckCalls
-/
import QHal.Rram.OtpMap

namespace QHal.Rram

/-- A read of `nt_otp_region_locked`.  The reads for the check of an access from outside are at
level 1, those for the check of a read at level 1 are at level 2, and so on. -/
structure LockRead where
  level : Nat
  address : UInt32
  length : UInt32
deriving Repr, DecidableEq

/-- A call and the lock reads made so far.  It has no result if it has not returned within the
depth it was given. -/
abbrev Calls := StateT (List LockRead) Option

/-- The range check as a call. -/
abbrev RangeCheckCalls := UInt32 → UInt32 → UInt32 → Calls Int

/-- `nt_rram_read` with the range check it calls: the status and the caller's buffer. -/
def rramReadCalls (check : RangeCheckCalls) (memory : Mem UInt8) (address : UInt32)
    (rdata : Nat → UInt8) (length : UInt32) : Calls (Int × (Nat → UInt8)) :=
  if length = 0 then pure (einval, rdata)
  else do
    let status ← check address length readLocked
    if status ≠ 0 then pure (einval, rdata)
    else pure (errNone, Mem.overlay rdata 0 length.toNat (memory.cells address))

/-- `nt_otp_region_locked` with the range check of its read. -/
def ntOtpRegionLockedCalls (driver : RramDriver) (check : RangeCheckCalls) (memory : Mem UInt8)
    (level : Nat) (regionNum rdWrLock : UInt32) : Calls Int :=
  if driver.maxRegion ≤ regionNum ∨ maxLocked ≤ rdWrLock then pure einval
  else do
    let address := lockAddr regionNum rdWrLock
    modify fun reads => reads ++ [⟨level, address, 1⟩]
    let (status, lockByte) ← rramReadCalls check memory address (fun _ => 0) 1
    if status ≠ 0 then pure eio
    else pure (if (lockByte 0).toNat.testBit (regionNum % 8).toNat then 1 else 0)

/-- The loop of `check_otp_region_rw_permission`, which goes on behind a locked region. -/
def regionsCalls (regionLocked : UInt32 → UInt32 → Calls Int) (rwLockCheck : UInt32) :
    List Nat → Bool → Calls Bool
  | [], retValue => pure retValue
  | region :: regions, retValue => do
      let locked ← regionLocked (lockNumOf region) rwLockCheck
      regionsCalls regionLocked rwLockCheck regions (if locked ≠ 0 then false else retValue)

/-- `check_otp_region_rw_permission`. -/
def checkOtpRegionRwPermissionCalls (regionLocked : UInt32 → UInt32 → Calls Int)
    (address : UInt32) (length : UInt16) (rwLockCheck : UInt32) : Calls Bool :=
  let startingRegionNo := addressToRegionNumMap address
  let endingRegionNo := addressToRegionNumMap (address + length.toUInt32)
  if otpRegionLockMap.length ≤ startingRegionNo ∨ otpRegionLockMap.length ≤ endingRegionNo then
    pure false
  else if startingRegionNo = endingRegionNo ∧ startingRegionNo = rwPermissionRegion ∧
      rwLockCheck = readLocked then pure true
  else
    regionsCalls regionLocked rwLockCheck
      (List.range' startingRegionNo (endingRegionNo + 1 - startingRegionNo)) true

/-- `rram_address_range_check` at a level, which needs a depth for the checks below it. -/
def rangeCheckCalls (driver : RramDriver) (memory : Mem UInt8) : Nat → Nat → RangeCheckCalls
  | 0, _, _, _, _ => fun _ => none
  | depth + 1, level, rramAdd, dataLen, rdWrLock =>
      if driver.otpAddrCheck rramAdd = true ∧ driver.otpAddrCheck (rramAdd + dataLen) = true then do
        let granted ← checkOtpRegionRwPermissionCalls
          (ntOtpRegionLockedCalls driver (rangeCheckCalls driver memory depth (level + 1)) memory
            (level + 1)) rramAdd dataLen.toUInt16 rdWrLock
        pure (if granted = true then errNone else einval)
      else if driver.otpAddrCheck rramAdd = true ∨
          driver.otpAddrCheck (rramAdd + dataLen) = true then pure einval
      else if ¬ (driver.mainAddrCheck rramAdd = true ∨ driver.otpAddrCheck rramAdd = true) ∨
          ¬ (driver.mainAddrCheck (rramAdd + dataLen) = true ∨
            driver.otpAddrCheck (rramAdd + dataLen) = true) then pure einval
      else pure errNone

end QHal.Rram
