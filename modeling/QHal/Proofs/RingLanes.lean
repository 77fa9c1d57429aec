/-
Module: QHal.Proofs.RingLanes
Purpose: What a direction of a ring holds: the bytes of a descriptor and what the
  accesses leave of them, the indices as counters modulo the number of
  descriptors, and the numbers of free and of filled descriptors.
Trusted boundary: none
Main exports: Lane.bytes, Lane.Holds, Lane.Formed.next_toNat, sendAvail_toNat,
  recvAvail_toNat
-/
import QHal.Proofs.RingSystem
import QHal.Lib.Circular

namespace QHal.Qring

namespace Lane

variable {lane : Lane}

/-- The first bytes of the buffer of a descriptor. -/
def bytes (lane : Lane) (j count : Nat) : List UInt8 :=
  (List.range count).map fun i => lane.buf ((lane.desc j).bufferAddr + i)

/-- A descriptor and its buffer hold a message. -/
structure Holds (lane : Lane) (j : Nat) (data : List UInt8) : Prop where
  length : (lane.desc j).length.toNat = data.length
  bytes : lane.bytes j data.length = data

@[simp] theorem bytes_setLength (lane : Lane) (idx : UInt32) (length : UInt16) (j count : Nat) :
    (lane.setLength idx length).bytes j count = lane.bytes j count := by
  unfold bytes
  rw [setLength_bufferAddr]
  rfl

@[simp] theorem bytes_setFlags (lane : Lane) (idx : UInt32) (flags : UInt16) (j count : Nat) :
    (lane.setFlags idx flags).bytes j count = lane.bytes j count := by
  unfold bytes
  rw [setFlags_bufferAddr]
  rfl

/-- What was copied into a buffer is there. -/
theorem bytes_copyIn_self (lane : Lane) (idx : UInt32) (data : List UInt8) :
    (lane.copyIn idx data).bytes idx.toNat data.length = data := by
  apply List.ext_getElem
  · simp [bytes]
  · intro i _ below
    simp [bytes, copyIn, Mem.overlay, below]

/-- A copy into one buffer leaves the others alone. -/
theorem Formed.bytes_copyIn_other (formed : lane.Formed) {idx : UInt32} {data : List UInt8}
    {j count : Nat} (other : j ≠ idx.toNat) (below : j < lane.descCount.toNat)
    (idxBelow : idx.toNat < lane.descCount.toNat) (fits : data.length ≤ lane.bufSize.toNat)
    (inside : count ≤ lane.bufSize.toNat) :
    (lane.copyIn idx data).bytes j count = lane.bytes j count := by
  unfold bytes
  apply List.map_congr_left
  intro i member
  have small : i < count := List.mem_range.mp member
  have here := formed.addr j below
  have there := formed.addr idx.toNat idxBelow
  simp only [Lane.copyIn, Mem.overlay]
  rw [if_neg]
  rw [here, there]
  rcases Nat.lt_or_gt_of_ne other with before | behind
  · have apart : (j + 1) * lane.bufSize.toNat ≤ idx.toNat * lane.bufSize.toNat :=
      Nat.mul_le_mul_right _ before
    rw [Nat.succ_mul] at apart
    omega
  · have apart : (idx.toNat + 1) * lane.bufSize.toNat ≤ j * lane.bufSize.toNat :=
      Nat.mul_le_mul_right _ behind
    rw [Nat.succ_mul] at apart
    omega

theorem Holds.setFlags {j : Nat} {data : List UInt8} (holds : lane.Holds j data) (idx : UInt32)
    (flags : UInt16) : (lane.setFlags idx flags).Holds j data where
  length := by
    rw [← holds.length, setFlags_desc]
    split_ifs with same
    · rw [same]
    · rfl
  bytes := by
    rw [bytes_setFlags]
    exact holds.bytes

theorem Holds.setLength {j : Nat} {data : List UInt8} (holds : lane.Holds j data) {idx : UInt32}
    (other : j ≠ idx.toNat) (length : UInt16) : (lane.setLength idx length).Holds j data where
  length := by
    rw [← holds.length, setLength_desc, if_neg other]
  bytes := by
    rw [bytes_setLength]
    exact holds.bytes

theorem Holds.copyIn {j : Nat} {message : List UInt8} (holds : lane.Holds j message)
    (formed : lane.Formed) {idx : UInt32} {data : List UInt8} (other : j ≠ idx.toNat)
    (below : j < lane.descCount.toNat) (idxBelow : idx.toNat < lane.descCount.toNat)
    (fits : data.length ≤ lane.bufSize.toNat) (inside : message.length ≤ lane.bufSize.toNat) :
    (lane.copyIn idx data).Holds j message where
  length := holds.length
  bytes := by
    rw [formed.bytes_copyIn_other other below idxBelow fits inside]
    exact holds.bytes

/-- The length of a message that fits is not cut to sixteen bits. -/
theorem Formed.length_setLength (formed : lane.Formed) (idx : UInt32) {data : List UInt8}
    (fits : data.length ≤ lane.bufSize.toNat) :
    ((lane.setLength idx (UInt16.ofNat data.length)).desc idx.toNat).length.toNat =
      data.length := by
  have small := formed.size_le
  rw [setLength_desc, if_pos rfl, UInt16.toNat_ofNat']
  exact Nat.mod_eq_of_lt (by omega)

/-- The copied message together with its length. -/
theorem Formed.holds_setLength (formed : lane.Formed) {idx : UInt32} {data : List UInt8}
    (fits : data.length ≤ lane.bufSize.toNat) (copied : lane.bytes idx.toNat data.length = data) :
    (lane.setLength idx (UInt16.ofNat data.length)).Holds idx.toNat data where
  length := formed.length_setLength idx fits
  bytes := by
    rw [bytes_setLength]
    exact copied

/-- The next index as a number. -/
theorem Formed.next_toNat (formed : lane.Formed) {idx : UInt32} {count : Nat}
    (isIdx : idx.toNat = count % lane.descCount.toNat) :
    (lane.next idx).toNat = (count + 1) % lane.descCount.toNat := by
  have below : count % lane.descCount.toNat < lane.descCount.toNat :=
    Nat.mod_lt _ formed.count_pos
  have small := formed.count_le
  have one : (1 : UInt32).toNat = 1 := by decide
  have noWrap : (count % lane.descCount.toNat + 1) % 2 ^ 32 = count % lane.descCount.toNat + 1 :=
    Nat.mod_eq_of_lt (by omega)
  unfold Lane.next
  rw [UInt32.toNat_mod, UInt32.toNat_add, one, isIdx, noWrap]
  exact Circular.index_next _ _

theorem Formed.index_lt (formed : lane.Formed) (count : Nat) :
    count % lane.descCount.toNat < lane.descCount.toNat :=
  Nat.mod_lt _ formed.count_pos

end Lane

section Avail

variable {lane : Lane} {wrIdx rdIdx : UInt32} {wr rd : Nat}

/-- The free descriptors: all but one, less the outstanding messages. -/
theorem sendAvail_toNat (formed : lane.Formed) (wrIs : wrIdx.toNat = wr % lane.descCount.toNat)
    (rdIs : rdIdx.toNat = rd % lane.descCount.toNat) (le : rd ≤ wr)
    (lt : wr < rd + lane.descCount.toNat) :
    (sendAvail wrIdx rdIdx lane.descCount).toNat = lane.descCount.toNat - 1 - (wr - rd) := by
  have free := Circular.free_eq le lt
  have wrBelow := formed.index_lt wr
  have rdBelow := formed.index_lt rd
  rw [← wrIs, ← rdIs] at free
  rw [← wrIs] at wrBelow
  rw [← rdIs] at rdBelow
  have one : (1 : UInt32).toNat = 1 := by decide
  rw [← free]
  unfold sendAvail
  by_cases ahead : rdIdx > wrIdx
  · have aheadNat : wrIdx.toNat < rdIdx.toNat := UInt32.lt_iff_toNat_lt.mp ahead
    have difference : (rdIdx - wrIdx).toNat = rdIdx.toNat - wrIdx.toNat :=
      UInt32.toNat_sub_of_le _ _ (UInt32.le_iff_toNat_le.mpr (by omega))
    rw [if_pos ahead, if_pos aheadNat,
      UInt32.toNat_sub_of_le _ _ (UInt32.le_iff_toNat_le.mpr (by omega)), difference, one]
  · have behindNat : ¬ wrIdx.toNat < rdIdx.toNat :=
      fun lt => ahead (UInt32.lt_iff_toNat_lt.mpr lt)
    have difference : (wrIdx - rdIdx).toNat = wrIdx.toNat - rdIdx.toNat :=
      UInt32.toNat_sub_of_le _ _ (UInt32.le_iff_toNat_le.mpr (by omega))
    have rest : (lane.descCount - (wrIdx - rdIdx)).toNat =
        lane.descCount.toNat - (wrIdx.toNat - rdIdx.toNat) := by
      rw [UInt32.toNat_sub_of_le _ _ (UInt32.le_iff_toNat_le.mpr (by omega)), difference]
    rw [if_neg ahead, if_neg behindNat,
      UInt32.toNat_sub_of_le _ _ (UInt32.le_iff_toNat_le.mpr (by omega)), rest, one]

/-- The filled descriptors are the outstanding messages. -/
theorem recvAvail_toNat (formed : lane.Formed) (wrIs : wrIdx.toNat = wr % lane.descCount.toNat)
    (rdIs : rdIdx.toNat = rd % lane.descCount.toNat) (le : rd ≤ wr)
    (lt : wr < rd + lane.descCount.toNat) :
    (recvAvail wrIdx rdIdx lane.descCount).toNat = wr - rd := by
  have filled := Circular.filled_eq le lt
  have wrBelow := formed.index_lt wr
  have rdBelow := formed.index_lt rd
  rw [← wrIs, ← rdIs] at filled
  rw [← wrIs] at wrBelow
  rw [← rdIs] at rdBelow
  rw [← filled]
  unfold recvAvail
  by_cases ahead : wrIdx ≥ rdIdx
  · have aheadNat : rdIdx.toNat ≤ wrIdx.toNat := UInt32.le_iff_toNat_le.mp ahead
    rw [if_pos ahead, if_pos aheadNat, UInt32.toNat_sub_of_le _ _ ahead]
  · have behindNat : ¬ rdIdx.toNat ≤ wrIdx.toNat :=
      fun le => ahead (UInt32.le_iff_toNat_le.mpr le)
    have difference : (rdIdx - wrIdx).toNat = rdIdx.toNat - wrIdx.toNat :=
      UInt32.toNat_sub_of_le _ _ (UInt32.le_iff_toNat_le.mpr (by omega))
    rw [if_neg ahead, if_neg behindNat,
      UInt32.toNat_sub_of_le _ _ (UInt32.le_iff_toNat_le.mpr (by omega)), difference]

end Avail

end QHal.Qring
