/-
Module: QHal.Rram.OtpMap
Purpose: The address check of the two RRAM drivers, qboot/system/nt_bl_mem.c of
  the boot loader and qhw_support/src/nt_mem.c of the application: the areas,
  the OTP regions with their lock bits, and the range check that reads them.
  The two drivers differ in the comparison with the end of an area and in the
  number of lock bits.
Trusted boundary: the CPU reads RRAM and OTP as memory
Main exports: RramDriver, otpRegionLockMap, addressToRegionNumMap,
  checkOtpRegionRwPermission, ntOtpRegionLocked, rramAddressRangeCheck, rramRead
-/
import QHal.Lib.Memory
import QHal.Lib.Regions

namespace QHal.Rram

/-- `errno` values the drivers return. -/
def errNone : Int := 0
def eperm : Int := -1
def eio : Int := -5
def efault : Int := -14
def einval : Int := -22
def ebade : Int := -52

def otpRegionStAddr : UInt32 := 0x1A0000
def otpRegionEndAddr : UInt32 := 0x1A1000
def rramRegionStartAddr : UInt32 := 0x200000
def rramRegionEndAddress : UInt32 := 0x380000

/-- `nt_otp_region_per_status`. -/
def readLocked : UInt32 := 1
def writeLocked : UInt32 := 2
def maxLocked : UInt32 := 3

/-- `otp_region_lock_map_t`: the size of a region and its lock bit. -/
structure OtpRegionLockMap where
  regionSize : UInt32
  lockNum : UInt32
deriving Repr, DecidableEq

/-- `g_otp_region_lock_map`, from `PTE_REGION` to `RF_INIT_REGION`. -/
def otpRegionLockMap : List OtpRegionLockMap :=
  [⟨32, 0⟩, ⟨16, 1⟩, ⟨16, 2⟩, ⟨16, 9⟩, ⟨16, 3⟩, ⟨16, 4⟩, ⟨32, 5⟩, ⟨16, 6⟩, ⟨16, 7⟩, ⟨16, 8⟩,
   ⟨256, 10⟩, ⟨32, 11⟩, ⟨16, 13⟩, ⟨16, 16⟩, ⟨64, 17⟩, ⟨16, 19⟩, ⟨16, 14⟩, ⟨16, 15⟩, ⟨16, 12⟩,
   ⟨3456, 20⟩]

/-- `RW_PERMISSION_REGION`, as a region number and as a lock bit number. -/
def rwPermissionRegion : Nat := 2

/-- The lock bytes: `rw_permission.read_perm` and `rw_permission.write_perm`. -/
def readPermAddr : UInt32 := otpRegionStAddr + 48
def writePermAddr : UInt32 := otpRegionStAddr + 51

/-- The boot loader's driver and the driver of the application. -/
inductive RramDriver where
  | boot (fermionSilicon : Bool)
  | app
deriving Repr, DecidableEq

/-- Whether the end of an area counts as inside it. -/
def RramDriver.endInside : RramDriver → Bool
  | .boot _ => true
  | .app => false

/-- `MAX_REGION`.  `FERMION_SILICON` adds the lock bit of `SMPS2_CONFIG`. -/
def RramDriver.maxRegion : RramDriver → UInt32
  | .boot true => 22
  | .boot false => 21
  | .app => 21

/-- Whether an address belongs to an area. -/
def RramDriver.addrCheck (driver : RramDriver) (start ending address : UInt32) : Bool :=
  decide (start ≤ address) &&
    (if driver.endInside then decide (address ≤ ending) else decide (address < ending))

/-- `RRAM_MAIN_ADD_CHECK`, `_MEM_RRAM_MAIN_ADDR_CHK`. -/
def RramDriver.mainAddrCheck (driver : RramDriver) (address : UInt32) : Bool :=
  driver.addrCheck rramRegionStartAddr rramRegionEndAddress address

/-- `RRAM_OTP_ADD_CHECK`, `_MEM_RRAM_OTP_ADDR_CHK`. -/
def RramDriver.otpAddrCheck (driver : RramDriver) (address : UInt32) : Bool :=
  driver.addrCheck otpRegionStAddr otpRegionEndAddr address

/-- The loop of `address_to_region_num_map` over the regions from number
`regionCount` on, the first of which starts at `regionEndAddr`. -/
def regionNumLoop (address : UInt32) : List OtpRegionLockMap → UInt32 → Nat → Nat
  | [], _, regionCount => regionCount
  | region :: regions, regionEndAddr, regionCount =>
      let regionStartAddr := regionEndAddr
      let regionEndAddr := regionStartAddr + region.regionSize
      if regionStartAddr ≤ address ∧ address < regionEndAddr then regionCount
      else regionNumLoop address regions regionEndAddr (regionCount + 1)

/-- `address_to_region_num_map`. -/
def addressToRegionNumMap (address : UInt32) : Nat :=
  regionNumLoop address otpRegionLockMap otpRegionStAddr 0

/-- The lock bit of a region of the map. -/
def lockNumOf (region : Nat) : UInt32 := ((otpRegionLockMap[region]?).map (·.lockNum)).getD 0

/-- `check_otp_region_rw_permission`.  `regionLocked` is `nt_otp_region_locked`;
the length is cut to 16 bits at the call. -/
def checkOtpRegionRwPermission (regionLocked : UInt32 → UInt32 → Int) (address : UInt32)
    (length : UInt16) (rwLockCheck : UInt32) : Bool :=
  let startingRegionNo := addressToRegionNumMap address
  let endingRegionNo := addressToRegionNumMap (address + length.toUInt32)
  if otpRegionLockMap.length ≤ startingRegionNo ∨ otpRegionLockMap.length ≤ endingRegionNo then
    false
  else if startingRegionNo = endingRegionNo ∧ startingRegionNo = rwPermissionRegion ∧
      rwLockCheck = readLocked then true
  else
    (List.range' startingRegionNo (endingRegionNo + 1 - startingRegionNo)).all fun region =>
      regionLocked (lockNumOf region) rwLockCheck == 0

/-- The type of the range check: address, length and the lock to respect. -/
abbrev RangeCheck := UInt32 → UInt32 → UInt32 → Int

/-- `nt_bl_rram_read`, `nt_rram_read` with the range check they call: the status
and the caller's buffer. -/
def rramReadWith (check : RangeCheck) (memory : Mem UInt8) (address : UInt32)
    (rdata : Nat → UInt8) (length : UInt32) : Int × (Nat → UInt8) :=
  if length = 0 then (einval, rdata)
  else if check address length readLocked ≠ 0 then (einval, rdata)
  else (errNone, Mem.overlay rdata 0 length.toNat (memory.cells address))

/-- The lock byte that holds a lock bit. -/
def lockAddr (regionNum rdWrLock : UInt32) : UInt32 :=
  (if rdWrLock = readLocked then readPermAddr else writePermAddr) + regionNum / 8

/-- `nt_otp_region_locked` with the range check of its read. -/
def ntOtpRegionLockedWith (driver : RramDriver) (check : RangeCheck) (memory : Mem UInt8)
    (regionNum rdWrLock : UInt32) : Int :=
  if driver.maxRegion ≤ regionNum ∨ maxLocked ≤ rdWrLock then einval
  else
    let (status, lockByte) :=
      rramReadWith check memory (lockAddr regionNum rdWrLock) (fun _ => 0) 1
    if status ≠ 0 then eio
    else if (lockByte 0).toNat.testBit (regionNum % 8).toNat then 1 else 0

/-- `rram_address_range_check`.  The check of a lock reads a lock byte, and that
read is checked too; `depth` bounds the nesting, and a check that runs out of it
refuses. -/
def rangeCheckDepth (driver : RramDriver) (memory : Mem UInt8) : Nat → RangeCheck
  | 0, _, _, _ => einval
  | depth + 1, rramAdd, dataLen, rdWrLock =>
      if driver.otpAddrCheck rramAdd = true ∧ driver.otpAddrCheck (rramAdd + dataLen) = true then
        if checkOtpRegionRwPermission
            (ntOtpRegionLockedWith driver (rangeCheckDepth driver memory depth) memory)
            rramAdd dataLen.toUInt16 rdWrLock = true then errNone
        else einval
      else if driver.otpAddrCheck rramAdd = true ∨
          driver.otpAddrCheck (rramAdd + dataLen) = true then einval
      else if ¬ (driver.mainAddrCheck rramAdd = true ∨ driver.otpAddrCheck rramAdd = true) ∨
          ¬ (driver.mainAddrCheck (rramAdd + dataLen) = true ∨
            driver.otpAddrCheck (rramAdd + dataLen) = true) then einval
      else errNone

/-- `rram_address_range_check` on the memory: the check of the read of a lock
byte answers without reading a lock, so two levels are enough. -/
def rramAddressRangeCheck (driver : RramDriver) (memory : Mem UInt8) : RangeCheck :=
  rangeCheckDepth driver memory 2

/-- `nt_otp_region_locked`. -/
def ntOtpRegionLocked (driver : RramDriver) (memory : Mem UInt8)
    (regionNum rdWrLock : UInt32) : Int :=
  ntOtpRegionLockedWith driver (rramAddressRangeCheck driver memory) memory regionNum rdWrLock

/-- `nt_bl_rram_read`, `nt_rram_read`. -/
def rramRead (driver : RramDriver) (memory : Mem UInt8) (address : UInt32)
    (rdata : Nat → UInt8) (length : UInt32) : Int × (Nat → UInt8) :=
  rramReadWith (rramAddressRangeCheck driver memory) memory address rdata length

end QHal.Rram
