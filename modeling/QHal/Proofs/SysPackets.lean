/-
Module: QHal.Proofs.SysPackets
Purpose: The packets that the loader of resources cuts a segment into: their number, as long as
  it fits into 16 bits, and the length of each.
Trusted boundary: none
Main exports: Packeted, packets_bounds, packet_end, packetLen_le
-/
import QHal.Boot.SysLoader

namespace QHal.SysLoader

variable {api : Api}

theorem dfuBuffSize_pos (api : Api) : 0 < api.dfuBuffSize.toNat :=
  UInt32.lt_iff_toNat_lt.mp api.positive

/-- A segment with data whose packets can be counted in 16 bits. -/
structure Packeted (api : Api) (filesz : UInt32) : Prop where
  positive : 0 < filesz.toNat
  counted : filesz.toNat ≤ 65535 * api.dfuBuffSize.toNat

/-- The number of packets is the size divided by that of a packet, rounded up. -/
theorem packetsOf_toNat {filesz : UInt32} (packeted : Packeted api filesz) :
    (api.packetsOf filesz).toNat =
      if filesz.toNat % api.dfuBuffSize.toNat = 0 then filesz.toNat / api.dfuBuffSize.toNat
      else filesz.toNat / api.dfuBuffSize.toNat + 1 := by
  have positive := dfuBuffSize_pos api
  have rest : filesz % api.dfuBuffSize = 0 ↔ filesz.toNat % api.dfuBuffSize.toNat = 0 := by
    rw [← UInt32.toNat_inj, UInt32.toNat_mod]
    rfl
  have full := Nat.div_add_mod filesz.toNat api.dfuBuffSize.toNat
  have count : filesz.toNat / api.dfuBuffSize.toNat ≤ 65535 :=
    Nat.div_le_of_le_mul (by rw [Nat.mul_comm]; exact packeted.counted)
  simp only [Api.packetsOf, ne_eq, ite_not, rest]
  split
  · rw [UInt32.toNat_toUInt16, UInt32.toNat_div]
    exact Nat.mod_eq_of_lt (by omega)
  case isFalse part =>
    -- with a last packet in part, the full ones are fewer than 65535
    have below : filesz.toNat / api.dfuBuffSize.toNat ≠ 65535 := by
      intro all
      rw [all] at full
      have counted := packeted.counted
      rw [Nat.mul_comm] at counted
      omega
    rw [UInt16.toNat_add, UInt32.toNat_toUInt16, UInt32.toNat_div,
      Nat.mod_eq_of_lt (show _ / _ < 2 ^ 16 by omega)]
    exact Nat.mod_eq_of_lt (show _ + 1 < 65536 by omega)

/-- All packets but the last are full, and the last one has data. -/
theorem packets_bounds {filesz : UInt32} (packeted : Packeted api filesz) :
    0 < (api.packetsOf filesz).toNat ∧
      ((api.packetsOf filesz).toNat - 1) * api.dfuBuffSize.toNat < filesz.toNat ∧
      filesz.toNat ≤ (api.packetsOf filesz).toNat * api.dfuBuffSize.toNat := by
  have positive := dfuBuffSize_pos api
  have data := packeted.positive
  have full := Nat.div_add_mod filesz.toNat api.dfuBuffSize.toNat
  have part := Nat.mod_lt filesz.toNat positive
  rw [packetsOf_toNat packeted]
  generalize api.dfuBuffSize.toNat = size at *
  generalize filesz.toNat / size = count at *
  rw [Nat.mul_comm] at full
  split
  case isTrue even =>
    rw [even, Nat.add_zero] at full
    cases count with
    | zero => omega
    | succ count =>
        rw [Nat.succ_mul] at full ⊢
        exact ⟨by omega, by rw [Nat.add_sub_cancel]; omega, by omega⟩
  case isFalse =>
    rw [Nat.succ_mul, Nat.add_sub_cancel]
    exact ⟨by omega, by omega, by omega⟩

/-- A packet ends where the next one begins, or at the end of the segment. -/
theorem packet_end {cntxt : SysLoaderCntxt} (packeted : Packeted api cntxt.fileSize)
    (total : cntxt.totalPkts = api.packetsOf cntxt.fileSize)
    (inside : cntxt.currPktCount.toNat < cntxt.totalPkts.toNat) :
    cntxt.currPktCount.toNat * api.dfuBuffSize.toNat + (api.packetLen cntxt).toNat =
      min cntxt.fileSize.toNat ((cntxt.currPktCount.toNat + 1) * api.dfuBuffSize.toNat) := by
  obtain ⟨some, before, behind⟩ := packets_bounds packeted
  have positive := dfuBuffSize_pos api
  have last : cntxt.currPktCount.toUInt32 = cntxt.totalPkts.toUInt32 - 1 ↔
      cntxt.currPktCount.toNat + 1 = cntxt.totalPkts.toNat := by
    have top := cntxt.totalPkts.toNat_lt
    rw [← UInt32.toNat_inj, UInt32.toNat_sub_of_le _ _ (UInt32.le_iff_toNat_le.mpr (by
      rw [UInt16.toNat_toUInt32]
      exact Nat.lt_of_le_of_lt (Nat.zero_le _) inside)), UInt16.toNat_toUInt32,
      UInt16.toNat_toUInt32]
    show _ = _ - 1 ↔ _
    omega
  have rest : cntxt.fileSize % api.dfuBuffSize = 0 ↔
      cntxt.fileSize.toNat % api.dfuBuffSize.toNat = 0 := by
    rw [← UInt32.toNat_inj, UInt32.toNat_mod]
    rfl
  have count := packetsOf_toNat packeted
  rw [← total] at some before behind count
  have full := Nat.div_add_mod cntxt.fileSize.toNat api.dfuBuffSize.toNat
  rw [Api.packetLen]
  simp only [last, rest]
  rw [Nat.succ_mul]
  by_cases isLast : cntxt.currPktCount.toNat + 1 = cntxt.totalPkts.toNat
  · rw [if_pos isLast]
    rw [← isLast] at before behind count
    rw [Nat.add_sub_cancel] at before
    rw [Nat.succ_mul] at behind
    rw [Nat.mul_comm] at full
    by_cases even : cntxt.fileSize.toNat % api.dfuBuffSize.toNat = 0
    · rw [if_pos even]
      rw [if_pos even] at count
      rw [even, ← count, Nat.succ_mul, Nat.add_zero] at full
      omega
    · rw [if_neg even, UInt32.toNat_mod]
      rw [if_neg even] at count
      rw [← Nat.succ.inj count] at full
      omega
  · rw [if_neg isLast]
    have more : (cntxt.currPktCount.toNat + 1) * api.dfuBuffSize.toNat ≤
        (cntxt.totalPkts.toNat - 1) * api.dfuBuffSize.toNat :=
      Nat.mul_le_mul_right _ (by omega)
    rw [Nat.succ_mul] at more
    omega

theorem packetLen_le {cntxt : SysLoaderCntxt} : api.packetLen cntxt ≤ api.dfuBuffSize := by
  have positive := dfuBuffSize_pos api
  rw [UInt32.le_iff_toNat_le, Api.packetLen]
  split
  · dsimp only
    split
    · exact Nat.le_refl _
    · rw [UInt32.toNat_mod]
      exact Nat.le_of_lt (Nat.mod_lt _ positive)
  · exact Nat.le_refl _

end QHal.SysLoader
