/-
Module: QHal.Proofs.RramCopy
Purpose: The copy from RRAM to RAM is exact up to 2048 bytes.  Above, its loop goes one chunk
  too far and overwrites what stands behind the destination.
Trusted boundary: none
Main exports: CopyInside, CopiesExactly, rramReadLoop_memory, rramReadToRam_overshoots,
  rramReadToRam_exact_iff
-/
import QHal.Proofs.RegionCheck

namespace QHal.Boot

open Mem (Apart InRange)

/-- The source in the RRAM and the destination in the RAM. -/
structure CopyInside (address data bytes : UInt32) : Prop where
  source : frnRramStart.toNat ≤ address.toNat
  sourceEnd : address.toNat + bytes.toNat ≤ frnRramEnd.toNat + 1
  dataEnd : data.toNat + bytes.toNat ≤ frnRamEnd.toNat + 1

/-- A call that succeeds writes just the bytes of its range, and one that fails has come upon
source bytes that cannot be read. -/
def CopiesExactly (storage : Storage) (memory : Mem UInt8) (address data bytes : UInt32) : Prop :=
  ((blElfRramReadToRam storage memory address data bytes).1 = some blErrNone →
    (blElfRramReadToRam storage memory address data bytes).2 =
      memory.write data bytes.toNat (memory.cells address)) ∧
  ((blElfRramReadToRam storage memory address data bytes).1 ≠ some blErrNone →
    ∃ offset count, 0 < count ∧ offset + count ≤ bytes.toNat ∧
      storage.rramReadStatus (address + UInt32.ofNat offset) (UInt32.ofNat count) ≠ 0)

/-! ## One chunk -/

/-- The end of the last chunk. -/
def chunksEnd (bytes : UInt32) : Nat := 2048 * (bytes.toNat / 2048 + 1)

/-- Even the last chunk stays apart from the source. -/
theorem CopyInside.apart {address data bytes : UInt32} (inside : CopyInside address data bytes) :
    Apart data address (chunksEnd bytes) := by
  have first : frnRramStart.toNat = 0x200000 := rfl
  have last : frnRramEnd.toNat = 0x37FFFF := rfl
  have top : frnRamEnd.toNat = 0x9FFFF := rfl
  have source := inside.source
  have sourceEnd := inside.sourceEnd
  have dataEnd := inside.dataEnd
  intro i below reached
  unfold chunksEnd at below reached
  rw [Mem.inRange_iff (by omega), UInt32.toNat_add, UInt32.toNat_ofNat_of_lt' (by
    rw [UInt32.size]
    omega)] at reached
  omega

/-- Writing a part of what is there changes nothing. -/
theorem write_again (memory : Mem UInt8) (data : UInt32) {offset count total : Nat}
    (cells : Nat → UInt8) (inside : offset + count ≤ total) (bound : total < 2 ^ 32) :
    (memory.write data total cells).write (data + UInt32.ofNat offset) count
        (fun i => cells (offset + i)) = memory.write data total cells := by
  funext address
  by_cases part : InRange (data + UInt32.ofNat offset) count address
  · have range := (Mem.inRange_shift (by omega) (by omega)).mp part
    have whole : InRange data total address := by
      unfold InRange
      omega
    rw [Mem.write_hit part, Mem.write_hit whole, Mem.distance_shift (by omega), if_pos range.1,
      Nat.add_sub_cancel' range.1]
  · rw [Mem.write_miss part]

/-- A read of the source behind some chunks. -/
theorem ntBlRramRead_behind {storage : Storage} {address data bytes : UInt32}
    (memory : Mem UInt8) (apart : Apart data address (chunksEnd bytes)) (done count total : Nat)
    (inside : done + count ≤ chunksEnd bytes) (short : total ≤ chunksEnd bytes)
    (granted : storage.rramReadStatus (address + UInt32.ofNat done) (UInt32.ofNat count) = 0)
    (small : count < 2 ^ 32) :
    ntBlRramRead storage (memory.write data total (memory.cells address))
        (address + UInt32.ofNat done) (data + UInt32.ofNat done) (UInt32.ofNat count) =
      (0, (memory.write data total (memory.cells address)).write (data + UInt32.ofNat done) count
        fun i => memory.cells address (done + i)) := by
  unfold ntBlRramRead
  dsimp only
  rw [granted, if_pos (show (0 : BlError) = blErrNone from rfl), UInt32.toNat_ofNat_of_lt' small]
  congr 1
  refine Mem.write_congr _ _ fun i below => ?_
  rw [UInt32.add_assoc, ← UInt32.ofNat_add, Mem.write_miss]
  · rfl
  · intro reached
    have range : InRange data (chunksEnd bytes) (address + UInt32.ofNat (done + i)) :=
      Nat.lt_of_lt_of_le reached short
    exact apart (done + i) (by omega) range

/-! ## The loop -/

/-- The chunks of the loop can be read. -/
def ChunksReadable (storage : Storage) (address bytes : UInt32) : Prop :=
  ∀ chunk ≤ bytes.toNat / 2048,
    storage.rramReadStatus (address + UInt32.ofNat (2048 * chunk)) rramReadBufSize = 0

/-- The loop copies whole chunks, the last of them reaching behind the range. -/
theorem rramReadLoop_memory {storage : Storage} {address data bytes : UInt32}
    (memory : Mem UInt8) (readable : ChunksReadable storage address bytes)
    (apart : Apart data address (chunksEnd bytes)) (bound : chunksEnd bytes < 2 ^ 32)
    (rounds chunk : Nat) (left : chunk + rounds = bytes.toNat / 2048 + 1) (spare : Nat) :
    rramReadLoop storage address data bytes (rounds + 1 + spare) (UInt32.ofNat (2048 * chunk))
        (memory.write data (2048 * chunk) (memory.cells address)) =
      (some blErrNone, UInt32.ofNat (chunksEnd bytes),
        memory.write data (chunksEnd bytes) (memory.cells address)) := by
  unfold chunksEnd at *
  have place : (UInt32.ofNat (2048 * chunk)).toNat = 2048 * chunk :=
    UInt32.toNat_ofNat_of_lt' (by rw [UInt32.size]; omega)
  induction rounds generalizing chunk with
  | zero =>
      obtain rfl : chunk = bytes.toNat / 2048 + 1 := by omega
      rw [Nat.add_right_comm, rramReadLoop, if_neg]
      rw [UInt32.le_iff_toNat_le, place]
      omega
  | succ rounds ih =>
      have size : rramReadBufSize = UInt32.ofNat 2048 := rfl
      have granted := readable chunk (by omega)
      rw [size] at granted
      have next :
          UInt32.ofNat (2048 * chunk) + rramReadBufSize = UInt32.ofNat (2048 * (chunk + 1)) := by
        rw [size, ← UInt32.ofNat_add, Nat.mul_succ]
      have read := ntBlRramRead_behind memory apart (2048 * chunk) 2048 (2048 * chunk)
        (by unfold chunksEnd; omega) (by unfold chunksEnd; omega) granted (by omega)
      rw [Mem.write_append _ _ _ _ _ (by omega) (by omega), ← Nat.mul_succ] at read
      rw [Nat.add_right_comm, rramReadLoop, if_pos (by rw [UInt32.le_iff_toNat_le, place]; omega),
        size, read]
      dsimp only
      rw [if_neg (not_not.mpr rfl), ← size, next]
      exact ih (chunk + 1) (by omega) (UInt32.toNat_ofNat_of_lt' (by rw [UInt32.size]; omega))

/-! ## The copy -/

theorem CopyInside.bound {address data bytes : UInt32} (inside : CopyInside address data bytes) :
    chunksEnd bytes < 2 ^ 32 := by
  have last : frnRramEnd.toNat = 0x37FFFF := rfl
  have sourceEnd := inside.sourceEnd
  unfold chunksEnd
  omega

/-- Above 2048 bytes, a copy whose reads all succeed writes up to the end of the last chunk,
which is always behind the range. -/
theorem rramReadToRam_overshoots {storage : Storage} {address data bytes : UInt32}
    (memory : Mem UInt8) (inside : CopyInside address data bytes) (long : 2048 < bytes.toNat)
    (readable : ChunksReadable storage address bytes)
    (last : storage.rramReadStatus (address + UInt32.ofNat (2048 * (bytes.toNat / 2048)))
      (UInt32.ofNat (bytes.toNat % 2048)) = 0) :
    blElfRramReadToRam storage memory address data bytes =
        (some blErrNone, memory.write data (chunksEnd bytes) (memory.cells address)) ∧
      bytes.toNat < chunksEnd bytes := by
  have bound := inside.bound
  have top : frnRramEnd.toNat = 0x37FFFF := rfl
  have sourceEnd := inside.sourceEnd
  have size : rramReadBufSize.toNat = 2048 := rfl
  have behind : bytes.toNat < chunksEnd bytes := by
    unfold chunksEnd
    omega
  refine ⟨?_, behind⟩
  have loop := rramReadLoop_memory memory readable inside.apart bound (bytes.toNat / 2048 + 1) 0
    (Nat.zero_add _) (2 ^ 21 - (bytes.toNat / 2048 + 1))
  rw [Nat.mul_zero, Mem.write_zero, show bytes.toNat / 2048 + 1 + 1 +
    (2 ^ 21 - (bytes.toNat / 2048 + 1)) = 2 ^ 21 + 1 by omega] at loop
  have place : (UInt32.ofNat (chunksEnd bytes)).toNat = chunksEnd bytes :=
    UInt32.toNat_ofNat_of_lt' bound
  have beyond : UInt32.ofNat (chunksEnd bytes) > bytes := by
    rw [gt_iff_lt, UInt32.lt_iff_toNat_lt, place]
    exact behind
  have start : UInt32.ofNat (chunksEnd bytes) - rramReadBufSize =
      UInt32.ofNat (2048 * (bytes.toNat / 2048)) := by
    apply UInt32.toNat_inj.mp
    rw [UInt32.toNat_sub_of_le _ _
        (UInt32.le_iff_toNat_le.mpr (by unfold chunksEnd at place ⊢; omega)),
      place, size,
      UInt32.toNat_ofNat_of_lt' (by rw [UInt32.size]; unfold chunksEnd at bound; omega)]
    unfold chunksEnd
    omega
  have rest : rramReadBufSize - (UInt32.ofNat (chunksEnd bytes) - bytes) =
      UInt32.ofNat (bytes.toNat % 2048) := by
    have above :
        (UInt32.ofNat (chunksEnd bytes) - bytes).toNat = chunksEnd bytes - bytes.toNat := by
      rw [UInt32.toNat_sub_of_le _ _ (UInt32.le_of_lt beyond), place]
    apply UInt32.toNat_inj.mp
    unfold chunksEnd at above
    rw [UInt32.toNat_sub_of_le _ _ (UInt32.le_iff_toNat_le.mpr (by unfold chunksEnd; omega)),
      size, UInt32.toNat_ofNat_of_lt' (by rw [UInt32.size]; omega)]
    unfold chunksEnd
    omega
  unfold blElfRramReadToRam
  rw [if_pos (show bytes > rramReadBufSize from UInt32.lt_iff_toNat_lt.mpr long),
    show (0 : UInt32) = UInt32.ofNat 0 from rfl, loop]
  dsimp only
  rw [if_neg (not_not.mpr rfl), if_pos beyond, start, rest, rramReadLast]
  split_ifs with more
  · -- The rest of the last chunk is read a second time.
    have read := ntBlRramRead_behind memory inside.apart (2048 * (bytes.toNat / 2048))
      (bytes.toNat % 2048) (chunksEnd bytes) (by unfold chunksEnd; omega) (Nat.le_refl _) last
      (by omega)
    rw [write_again _ _ _ (by unfold chunksEnd; omega) bound] at read
    rw [read]
    rfl
  · rfl

/-- A copy of at most one chunk is exact. -/
theorem rramReadToRam_short (storage : Storage) (memory : Mem UInt8) (address data : UInt32)
    {bytes : UInt32} (short : bytes.toNat ≤ 2048) :
    CopiesExactly storage memory address data bytes := by
  have single : blElfRramReadToRam storage memory address data bytes =
      rramReadLast storage memory address data 0 bytes := by
    rw [blElfRramReadToRam, if_neg]
    rw [gt_iff_lt, UInt32.lt_iff_toNat_lt]
    exact Nat.not_lt.mpr short
  unfold CopiesExactly
  rw [single, rramReadLast, UInt32.add_zero, UInt32.add_zero]
  by_cases none : bytes = 0
  · rw [if_neg (not_not.mpr none), none]
    exact ⟨fun _ => (Mem.write_zero _ _ _).symm, fun failed => absurd rfl failed⟩
  · rw [if_pos none, ntBlRramRead]
    dsimp only
    by_cases granted : storage.rramReadStatus address bytes = blErrNone
    · rw [if_pos granted]
      dsimp only
      rw [if_neg (not_not.mpr (show storage.rramReadStatus address bytes = 0 from granted))]
      exact ⟨fun _ => rfl, fun failed => absurd rfl failed⟩
    · rw [if_neg granted]
      dsimp only
      rw [if_pos (show storage.rramReadStatus address bytes ≠ 0 from granted)]
      refine ⟨fun ok => absurd (Option.some.inj ok) (by decide), fun _ => ?_⟩
      refine ⟨0, bytes.toNat, Nat.pos_of_ne_zero (fun zero => none (UInt32.toNat_inj.mp zero)),
        by omega, ?_⟩
      rw [UInt32.ofNat_toNat, show UInt32.ofNat 0 = 0 from rfl, UInt32.add_zero]
      exact granted

/-- A memory that shows whether the byte behind the source was copied. -/
def behindSource (address bytes : UInt32) : Mem UInt8 := fun cell =>
  if cell = address + bytes then 1 else 0

/-- Above 2048 bytes, the byte behind the destination is overwritten. -/
theorem rramReadToRam_long {storage : Storage} {address data bytes : UInt32}
    (inside : CopyInside address data bytes) (long : 2048 < bytes.toNat)
    (readable : ChunksReadable storage address bytes)
    (last : storage.rramReadStatus (address + UInt32.ofNat (2048 * (bytes.toNat / 2048)))
      (UInt32.ofNat (bytes.toNat % 2048)) = 0) :
    ¬ CopiesExactly storage (behindSource address bytes) address data bytes := by
  have top : frnRamEnd.toNat = 0x9FFFF := rfl
  have first : frnRramStart.toNat = 0x200000 := rfl
  have dataEnd := inside.dataEnd
  have source := inside.source
  have bound := bytes.toNat_lt
  obtain ⟨result, behind⟩ :=
    rramReadToRam_overshoots (behindSource address bytes) inside long readable last
  intro exactly
  have same := exactly.1 (by rw [result])
  rw [result] at same
  have cell := congrFun same (data + UInt32.ofNat bytes.toNat)
  dsimp only at cell
  rw [Mem.write_hit (Mem.inRange_add behind bound), Mem.distance_add bound, Mem.write_miss
    (by rw [InRange, Mem.distance_add bound]; exact Nat.lt_irrefl _), Mem.cells, behindSource,
    UInt32.ofNat_toNat, if_pos rfl, behindSource, if_neg] at cell
  · exact absurd cell (by decide)
  · intro same
    have sum := congrArg UInt32.toNat ((UInt32.add_left_inj bytes).mp same)
    omega

/-- A storage on which everything succeeds. -/
def grantingStorage : Storage where
  flash := fun _ => 0
  flashReadStatus := fun _ _ => 0
  flashWriteStatus := fun _ _ => 0
  flashTorn := fun _ => 0
  rramWriteStatus := fun _ _ => 0
  rramSetStatus := fun _ _ => 0
  rramReadStatus := fun _ _ => 0

/-- Inside the two memories, the copies of a range are exact for every storage and every
content exactly if the range has at most 2048 bytes. -/
theorem rramReadToRam_exact_iff {address data bytes : UInt32}
    (inside : CopyInside address data bytes) :
    (∀ storage memory, CopiesExactly storage memory address data bytes) ↔
      bytes.toNat ≤ 2048 := by
  constructor
  · intro exactly
    by_contra long
    exact rramReadToRam_long inside (Nat.lt_of_not_le long) (fun _ _ => rfl) rfl
      (exactly grantingStorage _)
  · intro short storage memory
    exact rramReadToRam_short storage memory address data short

/-- A header of 52 bytes. -/
theorem rramReadToRam_exact_header :
    CopiesExactly grantingStorage (behindSource 0x20B000 52) 0x20B000 0x40000 52 :=
  (@rramReadToRam_exact_iff 0x20B000 0x40000 52
    ⟨by decide, by decide, by decide⟩).mpr (by decide) _ _

/-- A segment of 2049 bytes: the byte behind it is overwritten. -/
theorem rramReadToRam_overwrites :
    CopyInside 0x20B000 0x40000 2049 ∧
      ¬ CopiesExactly grantingStorage (behindSource 0x20B000 2049) 0x20B000 0x40000 2049 := by
  have inside : CopyInside 0x20B000 0x40000 2049 := ⟨by decide, by decide, by decide⟩
  exact ⟨inside, rramReadToRam_long inside (by decide) (fun _ _ => rfl) rfl⟩

end QHal.Boot
