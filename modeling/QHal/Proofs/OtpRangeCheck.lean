/-
Module: QHal.Proofs.OtpRangeCheck
Purpose: What the range check of the RRAM drivers accepts.  The check looks at
  the address behind the last byte instead of the last byte, adds in 32 bits
  and cuts the length to 16 bits; the cut never shows, the other two do.
Trusted boundary: none
Main exports: lockBit, RangePermits, AccessAllowed, EndHarmless,
  rangeCheck_correct_iff, rangeCheck_wrap_and_last_line
-/
import Mathlib.Algebra.GroupWithZero.Nat
import QHal.Rram.OtpMap

namespace QHal.Rram

open Mem (InRange)

section RegionMap

/-- The sizes of the OTP regions. -/
def otpSizes : List Nat := otpRegionLockMap.map fun region => region.regionSize.toNat

/-- The number of the OTP region at an offset from the start of the area. -/
def otpRegion (offset : Nat) : Nat := Regions.regionOf otpSizes offset

/-- Below its first region the search runs through the whole map. -/
theorem regionNumLoop_below {address : UInt32} {regions : List OtpRegionLockMap} :
    ∀ {regionEnd : UInt32} {count : Nat},
      regionEnd.toNat + (regions.map fun region => region.regionSize.toNat).sum < 2 ^ 32 →
      address < regionEnd → regionNumLoop address regions regionEnd count =
        count + regions.length := by
  induction regions with
  | nil =>
      intro regionEnd count _ _
      rfl
  | cons region regions ih =>
      intro regionEnd count room below
      rw [List.map_cons, List.sum_cons] at room
      have next : (regionEnd + region.regionSize).toNat =
          regionEnd.toNat + region.regionSize.toNat := by
        rw [UInt32.toNat_add]
        exact Nat.mod_eq_of_lt (by omega)
      have belowNat := UInt32.lt_iff_toNat_lt.mp below
      rw [regionNumLoop, if_neg fun inside => UInt32.not_le.mpr below inside.1, ih,
        List.length_cons]
      · omega
      · omega
      · rw [UInt32.lt_iff_toNat_lt]
        omega

/-- From its first region on the search finds the region of the offset. -/
theorem regionNumLoop_from {address : UInt32} {regions : List OtpRegionLockMap} :
    ∀ {regionEnd : UInt32} {count : Nat},
      regionEnd.toNat + (regions.map fun region => region.regionSize.toNat).sum < 2 ^ 32 →
      regionEnd ≤ address → regionNumLoop address regions regionEnd count =
        count + Regions.regionOf (regions.map fun region => region.regionSize.toNat)
          (address.toNat - regionEnd.toNat) := by
  induction regions with
  | nil =>
      intro regionEnd count _ _
      rfl
  | cons region regions ih =>
      intro regionEnd count room reached
      rw [List.map_cons, List.sum_cons] at room
      have next : (regionEnd + region.regionSize).toNat =
          regionEnd.toNat + region.regionSize.toNat := by
        rw [UInt32.toNat_add]
        exact Nat.mod_eq_of_lt (by omega)
      have reachedNat := UInt32.le_iff_toNat_le.mp reached
      rw [regionNumLoop, List.map_cons]
      by_cases inside : address < regionEnd + region.regionSize
      · have insideNat := UInt32.lt_iff_toNat_lt.mp inside
        rw [if_pos ⟨reached, inside⟩, Regions.regionOf_cons_inside _ (by omega)]
        rfl
      · have behind := UInt32.le_iff_toNat_le.mp (UInt32.not_lt.mp inside)
        rw [if_neg fun found => inside found.2, ih (by omega) (UInt32.not_lt.mp inside),
          Regions.regionOf_cons_behind _ (by omega), next, Nat.sub_sub]
        omega

theorem otpSizes_sum : otpSizes.sum = 0x1000 := by decide

/-- The search on an address from the start of the OTP area on. -/
theorem addressToRegionNumMap_from {address : UInt32} (reached : otpRegionStAddr ≤ address) :
    addressToRegionNumMap address = otpRegion (address.toNat - 0x1A0000) := by
  have room : otpRegionStAddr.toNat +
      (otpRegionLockMap.map fun region => region.regionSize.toNat).sum < 2 ^ 32 := by decide
  unfold addressToRegionNumMap
  rw [regionNumLoop_from room reached, Nat.zero_add]
  rfl

/-- Exactly the addresses of the OTP area have a region. -/
theorem addressToRegionNumMap_lt {address : UInt32} :
    addressToRegionNumMap address < otpRegionLockMap.length ↔
      otpRegionStAddr ≤ address ∧ address < otpRegionEndAddr := by
  have room : otpRegionStAddr.toNat +
      (otpRegionLockMap.map fun region => region.regionSize.toNat).sum < 2 ^ 32 := by decide
  have start : otpRegionStAddr.toNat = 0x1A0000 := by decide
  have ending : otpRegionEndAddr.toNat = 0x1A1000 := by decide
  by_cases reached : otpRegionStAddr ≤ address
  · have reachedNat := UInt32.le_iff_toNat_le.mp reached
    have lengths : otpRegionLockMap.length = otpSizes.length := by decide
    rw [addressToRegionNumMap_from reached, otpRegion, lengths, Regions.regionOf_lt_length,
      otpSizes_sum, UInt32.lt_iff_toNat_lt]
    constructor
    · intro below
      exact ⟨reached, by omega⟩
    · intro ⟨_, below⟩
      omega
  · unfold addressToRegionNumMap
    rw [regionNumLoop_below room (UInt32.not_le.mp reached)]
    apply iff_of_false
    · omega
    · exact fun both => reached both.1

end RegionMap

section Locks

variable {driver : RramDriver} {memory : Mem UInt8}

/-- A lock bit in the memory. -/
def lockBit (memory : Mem UInt8) (regionNum rdWrLock : UInt32) : Bool :=
  (memory (lockAddr regionNum rdWrLock)).toNat.testBit (regionNum % 8).toNat

/-- What holds of the three lock bytes of each kind holds of every lock address. -/
theorem lockAddr_of_bytes {P : UInt32 → Prop} {regionNum : UInt32} (small : regionNum < 24)
    (rdWrLock : UInt32)
    (bytes : ∀ index : Fin 3, P (readPermAddr + UInt32.ofNat index) ∧
      P (writePermAddr + UInt32.ofNat index)) :
    P (lockAddr regionNum rdWrLock) := by
  have quotient : (regionNum / 8).toNat < 3 := by
    have smallNat : regionNum.toNat < 8 * 3 := UInt32.lt_iff_toNat_lt.mp small
    rw [UInt32.toNat_div]
    exact Nat.div_lt_of_lt_mul smallNat
  have byte := bytes ⟨_, quotient⟩
  rw [UInt32.ofNat_toNat] at byte
  unfold lockAddr
  by_cases reading : rdWrLock = readLocked
  · rw [if_pos reading]
    exact byte.1
  · rw [if_neg reading]
    exact byte.2

/-- The read of a lock byte is always granted. -/
theorem rangeCheckDepth_lockAddr (depth : Nat) {regionNum : UInt32} (small : regionNum < 24)
    (rdWrLock : UInt32) :
    rangeCheckDepth driver memory (depth + 1) (lockAddr regionNum rdWrLock) 1 readLocked = 0 := by
  have inRegion := lockAddr_of_bytes (P := fun address =>
      (driver.otpAddrCheck address = true ∧ driver.otpAddrCheck (address + 1) = true) ∧
        addressToRegionNumMap address = rwPermissionRegion ∧
        addressToRegionNumMap (address + 1) = rwPermissionRegion) small rdWrLock (by
    rcases driver with (_ | _) | _
    all_goals decide)
  obtain ⟨inOtp, first, second⟩ := inRegion
  have cut : (1 : UInt32).toUInt16.toUInt32 = 1 := by decide
  have known : ¬ (otpRegionLockMap.length ≤ rwPermissionRegion ∨
      otpRegionLockMap.length ≤ rwPermissionRegion) := by decide
  have granted : ∀ regionLocked, checkOtpRegionRwPermission regionLocked
      (lockAddr regionNum rdWrLock) (1 : UInt32).toUInt16 readLocked = true := by
    intro regionLocked
    simp only [checkOtpRegionRwPermission]
    rw [cut, first, second, if_neg known]
    exact if_pos ⟨rfl, rfl, trivial⟩
  rw [rangeCheckDepth, if_pos inOtp, if_pos (granted _)]
  rfl

theorem maxRegion_lt {regionNum : UInt32} (known : regionNum < driver.maxRegion) :
    regionNum < 24 := by
  have bound : driver.maxRegion < 24 := by
    rcases driver with (_ | _) | _
    all_goals decide
  exact UInt32.lt_trans known bound

/-- A read that the check grants. -/
theorem rramReadWith_granted {check : RangeCheck} {address length : UInt32}
    (rdata : Nat → UInt8) (nonzero : length ≠ 0) (granted : check address length readLocked = 0) :
    rramReadWith check memory address rdata length =
      (errNone, Mem.overlay rdata 0 length.toNat (memory.cells address)) := by
  rw [rramReadWith, if_neg nonzero, if_neg (not_not.mpr granted)]

/-- A lock test of a lock bit that exists is the lock bit. -/
theorem ntOtpRegionLockedWith_eq (depth : Nat) {regionNum rdWrLock : UInt32}
    (known : regionNum < driver.maxRegion) (kind : rdWrLock < maxLocked) :
    ntOtpRegionLockedWith driver (rangeCheckDepth driver memory (depth + 1)) memory regionNum
      rdWrLock = if lockBit memory regionNum rdWrLock then 1 else 0 := by
  have valid : ¬ (driver.maxRegion ≤ regionNum ∨ maxLocked ≤ rdWrLock) := by
    rintro (noBit | noKind)
    · exact UInt32.not_le.mpr known noBit
    · exact UInt32.not_le.mpr kind noKind
  have granted := @rangeCheckDepth_lockAddr driver memory depth regionNum (maxRegion_lt known)
    rdWrLock
  have here : lockAddr regionNum rdWrLock + UInt32.ofNat 0 = lockAddr regionNum rdWrLock :=
    UInt32.add_zero _
  rw [ntOtpRegionLockedWith, if_neg valid, rramReadWith_granted _ (by decide) granted]
  simp only [lockBit, Mem.overlay, Mem.cells, here]
  rfl

end Locks

section Acceptance

variable {driver : RramDriver} {memory : Mem UInt8}

/-- The two kinds of access a range check is made for. -/
inductive Access where
  | read
  | write
deriving Repr, DecidableEq

/-- The lock that forbids an access. -/
def Access.lock : Access → UInt32
  | .read => readLocked
  | .write => writeLocked

theorem Access.lock_lt (access : Access) : access.lock < maxLocked := by
  cases access <;> decide

/-- The lock bit of a region leaves an access free. -/
def RegionPermits (memory : Mem UInt8) (access : Access) (region : Nat) : Prop :=
  lockBit memory (lockNumOf region) access.lock = false

/-- Every region from that of the first to that of the last offset permits the
access, or it is a read inside the RW-permission region. -/
def SpanPermits (memory : Mem UInt8) (access : Access) (first last : Nat) : Prop :=
  (access = .read ∧ otpRegion first = rwPermissionRegion ∧
      otpRegion last = rwPermissionRegion) ∨
    ∀ region, otpRegion first ≤ region → region ≤ otpRegion last →
      RegionPermits memory access region

theorem lockNumOf_lt {region : Nat} (known : region < otpRegionLockMap.length) :
    lockNumOf region < driver.maxRegion := by
  have all : ∀ region < otpRegionLockMap.length, lockNumOf region < 21 := by decide
  have bound : 21 ≤ driver.maxRegion := by
    rcases driver with (_ | _) | _
    all_goals decide
  exact UInt32.lt_of_lt_of_le (all region known) bound

/-- The permission check on two addresses of the OTP area. -/
theorem checkOtpRegionRwPermission_iff (depth : Nat) (access : Access) {address : UInt32}
    {length : UInt16} :
    checkOtpRegionRwPermission
        (ntOtpRegionLockedWith driver (rangeCheckDepth driver memory (depth + 1)) memory)
        address length access.lock = true ↔
      (otpRegionStAddr ≤ address ∧ address < otpRegionEndAddr) ∧
      (otpRegionStAddr ≤ address + length.toUInt32 ∧
        address + length.toUInt32 < otpRegionEndAddr) ∧
      SpanPermits memory access (address.toNat - 0x1A0000)
        ((address + length.toUInt32).toNat - 0x1A0000) := by
  simp only [checkOtpRegionRwPermission]
  generalize address + length.toUInt32 = ending
  by_cases inside : addressToRegionNumMap address < otpRegionLockMap.length ∧
      addressToRegionNumMap ending < otpRegionLockMap.length
  · have notOut : ¬ (otpRegionLockMap.length ≤ addressToRegionNumMap address ∨
        otpRegionLockMap.length ≤ addressToRegionNumMap ending) := by omega
    have first := addressToRegionNumMap_lt.mp inside.1
    have last := addressToRegionNumMap_lt.mp inside.2
    have lastKnown := inside.2
    rw [if_neg notOut, and_iff_right first, and_iff_right last, SpanPermits]
    rw [addressToRegionNumMap_from last.1] at lastKnown ⊢
    rw [addressToRegionNumMap_from first.1]
    have isRead : access.lock = readLocked ↔ access = .read := by cases access <;> decide
    split_ifs with control
    · apply iff_of_true rfl
      left
      exact ⟨isRead.mp control.2.2, control.2.1, control.1 ▸ control.2.1⟩
    · have notControl : ¬ (access = .read ∧
          otpRegion (address.toNat - 0x1A0000) = rwPermissionRegion ∧
          otpRegion (ending.toNat - 0x1A0000) = rwPermissionRegion) := by
        rintro ⟨reading, one, two⟩
        exact control ⟨one.trans two.symm, one, isRead.mpr reading⟩
      rw [or_iff_right notControl, List.all_eq_true]
      constructor
      · intro all region lower upper
        have free := all region (List.mem_range'_1.mpr ⟨lower, by omega⟩)
        rw [ntOtpRegionLockedWith_eq depth (lockNumOf_lt (Nat.lt_of_le_of_lt upper lastKnown))
          access.lock_lt] at free
        unfold RegionPermits
        cases bit : lockBit memory (lockNumOf region) access.lock with
        | false => rfl
        | true => simp [bit] at free
      · intro permits region member
        obtain ⟨lower, upper⟩ := List.mem_range'_1.mp member
        have le : region ≤ otpRegion (ending.toNat - 0x1A0000) := by omega
        have free := permits region lower le
        unfold RegionPermits at free
        rw [ntOtpRegionLockedWith_eq depth (lockNumOf_lt (Nat.lt_of_le_of_lt le lastKnown))
          access.lock_lt, free]
        rfl
  · have out : otpRegionLockMap.length ≤ addressToRegionNumMap address ∨
        otpRegionLockMap.length ≤ addressToRegionNumMap ending := by omega
    rw [if_pos out]
    apply iff_of_false (by decide)
    intro ⟨first, last, _⟩
    exact inside ⟨addressToRegionNumMap_lt.mpr first, addressToRegionNumMap_lt.mpr last⟩

/-- The first address behind an area that the address test refuses. -/
def RramDriver.slack (driver : RramDriver) : Nat := if driver.endInside then 1 else 0

theorem addrCheck_iff {start ending address : UInt32} :
    driver.addrCheck start ending address = true ↔
      start.toNat ≤ address.toNat ∧ address.toNat < ending.toNat + driver.slack := by
  unfold RramDriver.addrCheck RramDriver.slack
  cases driver.endInside with
  | true =>
    simp only [if_true, Bool.and_eq_true, decide_eq_true_eq, UInt32.le_iff_toNat_le]
    omega
  | false => simp [UInt32.le_iff_toNat_le, UInt32.lt_iff_toNat_lt]

theorem otpAddrCheck_iff {address : UInt32} :
    driver.otpAddrCheck address = true ↔
      0x1A0000 ≤ address.toNat ∧ address.toNat < 0x1A1000 + driver.slack :=
  addrCheck_iff

theorem mainAddrCheck_iff {address : UInt32} :
    driver.mainAddrCheck address = true ↔
      0x200000 ≤ address.toNat ∧ address.toNat < 0x380000 + driver.slack :=
  addrCheck_iff

theorem slack_le : driver.slack ≤ 1 := by
  rcases driver with (_ | _) | _
  all_goals decide

/-- In the OTP area the check accepts exactly the ranges that end before the end
of the area and whose regions, that of the address behind the range included,
permit the access.  The length that is cut to 16 bits is refused as well. -/
theorem otpRange_iff (depth : Nat) (access : Access) {address length : UInt32} :
    ((driver.otpAddrCheck address = true ∧ driver.otpAddrCheck (address + length) = true) ∧
        checkOtpRegionRwPermission
          (ntOtpRegionLockedWith driver (rangeCheckDepth driver memory (depth + 1)) memory)
          address length.toUInt16 access.lock = true) ↔
      0x1A0000 ≤ address.toNat ∧ address.toNat + length.toNat < 0x1A1000 ∧
        SpanPermits memory access (address.toNat - 0x1A0000)
          (address.toNat + length.toNat - 0x1A0000) := by
  have start : otpRegionStAddr.toNat = 0x1A0000 := by decide
  have ending : otpRegionEndAddr.toNat = 0x1A1000 := by decide
  have slack := @slack_le driver
  have lengthLt := length.toNat_lt
  have sum : (address + length).toNat = (address.toNat + length.toNat) % 2 ^ 32 :=
    UInt32.toNat_add _ _
  have cutSum : (address + length.toUInt16.toUInt32).toNat =
      (address.toNat + length.toNat % 2 ^ 16) % 2 ^ 32 := by
    rw [UInt32.toNat_add, UInt16.toNat_toUInt32, UInt32.toNat_toUInt16]
  rw [checkOtpRegionRwPermission_iff, otpAddrCheck_iff, otpAddrCheck_iff]
  simp only [UInt32.le_iff_toNat_le, UInt32.lt_iff_toNat_lt, start, ending, sum, cutSum]
  constructor
  · rintro ⟨⟨⟨low, high⟩, sumLow, sumHigh⟩, _, ⟨cutLow, cutHigh⟩, permits⟩
    -- A sum that wraps around leaves a cut length far larger than the area.
    have noWrap : address.toNat + length.toNat < 2 ^ 32 := by omega
    have short : length.toNat % 2 ^ 16 = length.toNat := by omega
    have wholeSum : (address.toNat + length.toNat % 2 ^ 16) % 2 ^ 32 =
        address.toNat + length.toNat := by omega
    rw [wholeSum] at permits
    exact ⟨low, by omega, permits⟩
  · rintro ⟨low, high, permits⟩
    have wholeSum : (address.toNat + length.toNat % 2 ^ 16) % 2 ^ 32 =
        address.toNat + length.toNat := by omega
    rw [wholeSum]
    exact ⟨⟨⟨low, by omega⟩, by omega, by omega⟩, ⟨low, by omega⟩, ⟨by omega, high⟩, permits⟩

/-- What the range check accepts, from two levels of nesting on. -/
theorem rangeCheckDepth_accepts (depth : Nat) (access : Access) {address length : UInt32} :
    rangeCheckDepth driver memory (depth + 2) address length access.lock = 0 ↔
      (0x1A0000 ≤ address.toNat ∧ address.toNat + length.toNat < 0x1A1000 ∧
        SpanPermits memory access (address.toNat - 0x1A0000)
          (address.toNat + length.toNat - 0x1A0000)) ∨
      (driver.mainAddrCheck address = true ∧ driver.mainAddrCheck (address + length) = true) := by
  have refused : ¬ einval = 0 := by decide
  have slack := @slack_le driver
  rw [← @otpRange_iff driver memory depth access address length, rangeCheckDepth]
  -- The areas are disjoint, so an address of one passes no test of the other.
  have apart : ∀ {place : UInt32}, driver.otpAddrCheck place = true →
      ¬ driver.mainAddrCheck place = true := by
    intro place inOtp inMain
    have low := (otpAddrCheck_iff.mp inOtp).2
    have high := (mainAddrCheck_iff.mp inMain).1
    omega
  split_ifs with both permitted some outside
  · exact iff_of_true rfl (Or.inl ⟨both, permitted⟩)
  · apply iff_of_false refused
    rintro (inOtp | inMain)
    · exact permitted inOtp.2
    · exact apart both.1 inMain.1
  · apply iff_of_false refused
    rintro (inOtp | inMain)
    · exact both inOtp.1
    · rcases some with first | last
      · exact apart first inMain.1
      · exact apart last inMain.2
  · apply iff_of_false refused
    rintro (inOtp | inMain)
    · exact both inOtp.1
    · rcases outside with first | last
      · exact first (Or.inl inMain.1)
      · exact last (Or.inl inMain.2)
  · apply iff_of_true rfl
    right
    obtain ⟨notFirst, notLast⟩ := not_or.mp some
    obtain ⟨first, last⟩ := not_or.mp outside
    exact ⟨(not_not.mp first).resolve_right notFirst, (not_not.mp last).resolve_right notLast⟩

/-- What the range check accepts. -/
theorem rangeCheck_accepts (access : Access) {address length : UInt32} :
    rramAddressRangeCheck driver memory address length access.lock = 0 ↔
      (0x1A0000 ≤ address.toNat ∧ address.toNat + length.toNat < 0x1A1000 ∧
        SpanPermits memory access (address.toNat - 0x1A0000)
          (address.toNat + length.toNat - 0x1A0000)) ∨
      (driver.mainAddrCheck address = true ∧ driver.mainAddrCheck (address + length) = true) :=
  rangeCheckDepth_accepts 0 access

/-- No nesting beyond the second level changes an answer. -/
theorem rangeCheckDepth_enough (depth : Nat) (access : Access) (address length : UInt32) :
    rangeCheckDepth driver memory (depth + 2) address length access.lock = 0 ↔
      rramAddressRangeCheck driver memory address length access.lock = 0 := by
  rw [rangeCheckDepth_accepts, rangeCheck_accepts]

/-- The access that the regions of `count` bytes from an offset on permit: all of
them leave it free, or it is a read inside the RW-permission region. -/
def RangePermits (memory : Mem UInt8) (access : Access) (first count : Nat) : Prop :=
  (access = .read ∧ ∀ i < count, otpRegion (first + i) = rwPermissionRegion) ∨
    ∀ i < count, RegionPermits memory access (otpRegion (first + i))

/-- What an access check is for: `[address, address + length)` lies inside the
main RRAM, or inside the OTP area in regions that permit the access. -/
def AccessAllowed (memory : Mem UInt8) (access : Access) (address length : UInt32) : Prop :=
  (0x200000 ≤ address.toNat ∧ address.toNat + length.toNat ≤ 0x380000) ∨
    0x1A0000 ≤ address.toNat ∧ address.toNat + length.toNat ≤ 0x1A1000 ∧
      RangePermits memory access (address.toNat - 0x1A0000) length.toNat

/-- The address behind the range does not mislead the check: the sum does not
come back into the main RRAM, the application's driver is not asked for the last
byte of it, and a permitted range of the OTP area is followed by an address that
belongs to the area and does not bring a locked region in. -/
structure EndHarmless (driver : RramDriver) (memory : Mem UInt8) (access : Access)
    (address length : UInt32) : Prop where
  noWrap : ¬ (2 ^ 32 ≤ address.toNat + length.toNat ∧ driver.mainAddrCheck address = true ∧
    driver.mainAddrCheck (address + length) = true)
  notLast : driver = .app → 0x200000 ≤ address.toNat →
    address.toNat + length.toNat ≠ 0x380000
  nextRegion : 0x1A0000 ≤ address.toNat → address.toNat + length.toNat ≤ 0x1A1000 →
    RangePermits memory access (address.toNat - 0x1A0000) length.toNat →
    address.toNat + length.toNat ≠ 0x1A1000 ∧
      SpanPermits memory access (address.toNat - 0x1A0000)
        (address.toNat + length.toNat - 0x1A0000)

/-- What the whole span permits, each byte of it permits. -/
theorem SpanPermits.range {access : Access} {first count : Nat}
    (permits : SpanPermits memory access first (first + count)) :
    RangePermits memory access first count := by
  have between : ∀ i < count, otpRegion first ≤ otpRegion (first + i) ∧
      otpRegion (first + i) ≤ otpRegion (first + count) := by
    intro i below
    exact ⟨Regions.regionOf_mono (Nat.le_add_right first i),
      Regions.regionOf_mono (Nat.add_le_add_left (Nat.le_of_lt below) first)⟩
  rcases permits with ⟨reading, one, two⟩ | all
  · left
    refine ⟨reading, fun i below => ?_⟩
    have bounds := between i below
    rw [one, two] at bounds
    exact Nat.le_antisymm bounds.2 bounds.1
  · right
    intro i below
    exact all _ (between i below).1 (between i below).2

/-- The range check answers as it should exactly where the address behind the
range is harmless. -/
theorem rangeCheck_correct_iff (driver : RramDriver) (memory : Mem UInt8) (access : Access)
    (address length : UInt32) :
    (rramAddressRangeCheck driver memory address length access.lock = 0 ↔
        AccessAllowed memory access address length) ↔
      EndHarmless driver memory access address length := by
  rw [rangeCheck_accepts access]
  have slack := @slack_le driver
  have sum : (address + length).toNat = (address.toNat + length.toNat) % 2 ^ 32 :=
    UInt32.toNat_add _ _
  have addressLt := address.toNat_lt
  have lengthLt := length.toNat_lt
  constructor
  · intro agree
    exact {
      noWrap := by
        rintro ⟨wraps, main⟩
        have low := (mainAddrCheck_iff.mp main.1).1
        rcases agree.mp (Or.inr main) with inMain | inOtp
        · omega
        · omega
      notLast := by
        rintro rfl low last
        rcases agree.mpr (Or.inl ⟨low, Nat.le_of_eq last⟩) with inOtp | inMain
        · omega
        · have high := (mainAddrCheck_iff.mp inMain.2).2
          have exact : RramDriver.app.slack = 0 := rfl
          omega
      nextRegion := by
        intro low high permits
        rcases agree.mpr (Or.inr ⟨low, high, permits⟩) with inOtp | inMain
        · exact ⟨Nat.ne_of_lt inOtp.2.1, inOtp.2.2⟩
        · have inside := (mainAddrCheck_iff.mp inMain.1).1
          omega }
  · intro harmless
    constructor
    · rintro (⟨low, high, permits⟩ | main)
      · right
        have split : address.toNat + length.toNat - 0x1A0000 =
            address.toNat - 0x1A0000 + length.toNat := by omega
        rw [split] at permits
        exact ⟨low, Nat.le_of_lt high, permits.range⟩
      · left
        have first := mainAddrCheck_iff.mp main.1
        have last := mainAddrCheck_iff.mp main.2
        have noWrap : ¬ 2 ^ 32 ≤ address.toNat + length.toNat :=
          fun wraps => harmless.noWrap ⟨wraps, main⟩
        exact ⟨first.1, by omega⟩
    · rintro (⟨low, high⟩ | ⟨low, high, permits⟩)
      · right
        have room : address.toNat + length.toNat < 0x380000 + driver.slack := by
          cases driver with
          | boot fermionSilicon => exact Nat.lt_succ_of_le high
          | app => exact Nat.lt_of_le_of_ne high (harmless.notLast rfl low)
        exact ⟨mainAddrCheck_iff.mpr ⟨low, by omega⟩, mainAddrCheck_iff.mpr (by omega)⟩
      · left
        have next := harmless.nextRegion low high permits
        exact ⟨low, by omega, next.2⟩

/-- A length near 2^32 wraps around and is accepted by both drivers, and the
application's driver refuses the last line of the main RRAM. -/
theorem rangeCheck_wrap_and_last_line :
    (rramAddressRangeCheck .app (fun _ => 0) 0x200010 0xFFFFFFF8 Access.write.lock = 0 ∧
      rramAddressRangeCheck (.boot true) (fun _ => 0) 0x200010 0xFFFFFFF8 Access.write.lock = 0 ∧
      ¬ AccessAllowed (fun _ => 0) .write 0x200010 0xFFFFFFF8) ∧
    ¬ rramAddressRangeCheck .app (fun _ => 0) 0x37FFF0 16 Access.write.lock = 0 ∧
      AccessAllowed (fun _ => 0) .write 0x37FFF0 16 := by
  have start : (0x200010 : UInt32).toNat = 0x200010 := by decide
  have long : (0xFFFFFFF8 : UInt32).toNat = 0xFFFFFFF8 := by decide
  refine ⟨⟨by decide, by decide, ?_⟩, by decide, Or.inl (by decide)⟩
  unfold AccessAllowed
  rw [start, long]
  omega

end Acceptance

end QHal.Rram
