/-
Module: QHal.Proofs.Checksum
Purpose: The checksum of the NVM programmer over a range of the RRAM, the OTP or the flash is
  CRC-32 of the bytes that the device holds there, however the range is cut.
Trusted boundary: none
Main exports: NvmType, NvmType.read, NvmType.Inside, readRange_contents, checksum_is_crc32
-/
import QHal.Proofs.Download

namespace QHal.Nvm

open Flash (FlashConfig flashInit flashRead)

variable {config : FlashConfig} {faults : Nat → Option Fault}

/-! ## The devices -/

/-- The devices of `Device_Type`. -/
inductive NvmType where
  | rram
  | flash
  | otp
deriving Repr, DecidableEq

/-- The `NVM_Read` that `Device_Attach` assigns. -/
def NvmType.read (config : FlashConfig) (faults : Nat → Option Fault) :
    NvmType → Board → UInt32 → (Nat → UInt8) → UInt32 → Int × (Nat → UInt8) × Board
  | .rram => (rramFunctions faults).read
  | .flash => (flashFunctions config faults).read
  | .otp => fun board address buffer size =>
      board.operate faults (fun fault board => (fault.status, fault.contents, board)) fun board =>
        let (status, buffer) := otpRramRead board.rram address buffer size
        (status, buffer, board)

/-- The bytes of a device; the OTP lies in front of the RRAM in the one address space. -/
def NvmType.contents (board : Board) : NvmType → Nat → UInt8
  | .rram | .otp => board.rram
  | .flash => board.flash.cells

/-- A range in a device. -/
def NvmType.Inside (config : FlashConfig) (address size : Nat) : NvmType → Prop
  | .rram => 0x200000 ≤ address ∧ address + size ≤ 0x380000
  | .flash => address + size ≤ config.density.toNat
  | .otp => 0x1A0000 ≤ address ∧ address + size ≤ 0x1A1000

/-! ## One read -/

/-- A range that one of the address checks accepts. -/
theorem verifyAddress_range {start end_ address length : UInt32}
    (verified : verifyAddress start end_ address length = true) :
    start.toNat ≤ address.toNat ∧ address.toNat + length.toNat ≤ end_.toNat + 1 := by
  simp only [verifyAddress, Bool.and_eq_true, decide_eq_true_eq, ge_iff_le,
    UInt32.le_iff_toNat_le, and_assoc] at verified
  obtain ⟨low, high, -, room⟩ := verified
  rw [UInt32.toNat_add, UInt32.toNat_sub_of_le _ _ (UInt32.le_iff_toNat_le.mpr high),
    show (1 : UInt32).toNat = 1 from rfl] at room
  have bound := end_.toNat_lt
  omega

/-- A read that succeeds gives the bytes of its range, and leaves the contents. -/
theorem NvmType.read_ok (device : NvmType) {board after : Board} {address size : UInt32}
    {buffer filled : Nat → UInt8} (nonempty : size.toNat ≠ 0)
    (read : device.read config faults board address buffer size = (0, filled, after)) :
    device.Inside config address.toNat size.toNat ∧ device.contents after = device.contents board ∧
      ∀ i < size.toNat, filled i = device.contents board (address.toNat + i) := by
  cases outcome : faults board.operations with
  | some fault =>
      cases device <;>
        simp only [NvmType.read, rramFunctions, flashFunctions, Board.operate, outcome] at read <;>
        exact absurd (Prod.mk.inj read).1 fault.failed
  | none =>
      cases device with
      | rram =>
          simp only [NvmType.read, rramFunctions, Board.operate, outcome, nvmRramRead] at read
          split at read
          case isTrue => cases read
          case isFalse accepted =>
              have range := verifyAddress_range (Bool.of_not_eq_false accepted)
              simp only [Prod.mk.injEq, true_and] at read
              obtain ⟨rfl, rfl⟩ := read
              refine ⟨range, rfl, fun i below => ?_⟩
              rw [Mem.overlay, if_pos ⟨Nat.zero_le i, by omega⟩, Nat.sub_zero]
              rfl
      | otp =>
          simp only [NvmType.read, Board.operate, outcome, otpRramRead] at read
          split at read
          case isTrue => cases read
          case isFalse accepted =>
              have range := verifyAddress_range (Bool.of_not_eq_false accepted)
              simp only [Prod.mk.injEq, true_and] at read
              obtain ⟨rfl, rfl⟩ := read
              refine ⟨range, rfl, fun i below => ?_⟩
              rw [Mem.overlay, if_pos ⟨Nat.zero_le i, by omega⟩, Nat.sub_zero]
              rfl
      | flash =>
          simp only [NvmType.read, flashFunctions, Board.operate, outcome] at read
          generalize result : flashRead (flashInit config board.flash) address buffer size = got
            at read
          obtain ⟨status, bytes⟩ := got
          simp only [Prod.mk.injEq] at read
          obtain ⟨ok, rfl, rfl⟩ := read
          obtain rfl := statusWord_eq_zero ok
          have inside := Flash.readLoop_done
            (fun zero => nonempty (congrArg UInt32.toNat zero)) result
          obtain ⟨filled, loop, cells⟩ :=
            Flash.readLoop_spec config board.flash address size 0 buffer inside
          obtain rfl := (Prod.mk.inj (result.symm.trans loop)).2
          refine ⟨inside, rfl, fun i below => ?_⟩
          rw [cells, if_pos ⟨Nat.zero_le i, by omega⟩, Nat.sub_zero]
          rfl

/-! ## The range -/

/-- Where the addresses of a device end. -/
theorem NvmType.Inside.bound {device : NvmType} {address size : Nat}
    (inside : device.Inside config address size) : address + size < 2 ^ 32 := by
  cases device with
  | rram =>
      have high := inside.2
      omega
  | flash =>
      have high : address + size ≤ config.density.toNat := inside
      have room := (Flash.density_spec config).2.1
      omega
  | otp =>
      have high := inside.2
      omega

/-- A range behind another in a device: the whole. -/
theorem NvmType.Inside.join {device : NvmType} {address first second : Nat}
    (front : device.Inside config address first)
    (back : device.Inside config (address + first) second) :
    device.Inside config address (first + second) := by
  cases device with
  | rram => exact ⟨front.1, by have high := back.2; omega⟩
  | flash =>
      have high : address + first + second ≤ config.density.toNat := back
      show address + (first + second) ≤ config.density.toNat
      omega
  | otp => exact ⟨front.1, by have high := back.2; omega⟩

/-- The reads of the checksum give the bytes of its range. -/
theorem readRange_contents (device : NvmType) {board : Board} {buffer : Nat → UInt8}
    {address length : UInt32} {bytes : List UInt8}
    (read : readRange (device.read config faults) board buffer address length = some bytes) :
    (length.toNat ≠ 0 → device.Inside config address.toNat length.toNat) ∧
      bytes = (List.range length.toNat).map fun i => device.contents board (address.toNat + i) := by
  induction count : length.toNat using Nat.strongRecOn
    generalizing board buffer address length bytes with
  | ind total ih =>
  subst count
  rw [readRange] at read
  by_cases empty : length = 0
  · subst empty
    rw [dif_pos rfl] at read
    obtain rfl := Option.some.inj read
    exact ⟨fun nonempty => absurd rfl nonempty, rfl⟩
  · rw [dif_neg empty] at read
    have nonempty : length.toNat ≠ 0 := fun zero => empty (UInt32.toNat_inj.mp zero)
    have shorter := blockSize_rest empty
    have rest : (length - blockSize length).toNat = length.toNat - (blockSize length).toNat ∧
        (blockSize length).toNat ≤ length.toNat := by
      have le : blockSize length ≤ length := by
        unfold blockSize
        split
        · next large => exact UInt32.le_of_lt large
        · exact UInt32.le_refl length
      exact ⟨UInt32.toNat_sub_of_le _ _ le, UInt32.le_iff_toNat_le.mp le⟩
    generalize blockSize length = size at *
    generalize result : device.read config faults board address buffer size = got at read
    obtain ⟨status, filled, after⟩ := got
    dsimp only at read
    split at read
    case isTrue => cases read
    case isFalse ok =>
        obtain rfl : status = 0 := Decidable.not_not.mp ok
        obtain ⟨tail, further, rfl⟩ := Option.map_eq_some_iff.mp read
        obtain ⟨inside, kept, data⟩ := device.read_ok (by omega) result
        have next : (address + size).toNat = address.toNat + size.toNat := by
          have bound := inside.bound
          rw [UInt32.toNat_add, Nat.mod_eq_of_lt (by omega)]
        obtain ⟨behind, same⟩ := ih _ shorter further rfl
        rw [next, rest.1] at behind same
        constructor
        · intro _
          by_cases last : length.toNat - size.toNat = 0
          · rw [show length.toNat = size.toNat by omega]
            exact inside
          · rw [show length.toNat = size.toNat + (length.toNat - size.toNat) by omega]
            exact inside.join (behind last)
        · -- The bytes of the first read, and then those of the reads behind it.
          have whole : length.toNat = size.toNat + (length.toNat - size.toNat) := by omega
          rw [same, kept, whole, List.range_add, List.map_append, List.map_map,
            Nat.add_sub_cancel_left]
          congr 1
          · exact List.map_congr_left fun i below => data i (List.mem_range.mp below)
          · refine List.map_congr_left fun i _ => ?_
            rw [Function.comp_apply, Nat.add_assoc]

/-! ## The status word -/

/-- A checksum whose reads all succeed stores CRC-32 of the bytes of its range, which lies in
the device. -/
theorem checksum_is_crc32 (config : FlashConfig) (faults : Nat → Option Fault) (device : NvmType)
    (board : Board) (buffer : Nat → UInt8) (address length : UInt32)
    (succeed : (readRange (device.read config faults) board buffer address length).isSome) :
    (length.toNat ≠ 0 → device.Inside config address.toNat length.toNat) ∧
      (checksum (device.read config faults) board buffer address length).2.2 =
        some (crc32 ((List.range length.toNat).map fun i =>
          device.contents board (address.toNat + i))) := by
  obtain ⟨bytes, read⟩ := Option.isSome_iff_exists.mp succeed
  obtain ⟨inside, rfl⟩ := readRange_contents device read
  refine ⟨inside, ?_⟩
  rw [checksum_eq, read, Option.map_some]

/-- A board with the digits from 1 to 9 at the start of the RRAM. -/
def digitsBoard : Board :=
  { blankBoard with rram := fun address => UInt8.ofNat (0x31 + (address - 0x200000)) }

/-- The check value of CRC-32. -/
theorem checksum_is_crc32_digits :
    (checksum (NvmType.rram.read (FlashConfig.mk 0x20 0 0 0 256) fun _ => none) digitsBoard
      (fun _ => 0) 0x200000 9).2.2 = some 0xCBF43926 := by
  have held : readRange (NvmType.rram.read (FlashConfig.mk 0x20 0 0 0 256) fun _ => none)
      digitsBoard (fun _ => 0) 0x200000 9 =
        some ((List.range 9).map fun i => digitsBoard.rram (0x200000 + i)) := by
    refine @readRange_held (FlashConfig.mk 0x20 0 0 0 256) .rram _ _ _ _ _ (fun _ => ?_)
      fun i below => ?_
    · exact ⟨by decide, by decide, by decide⟩
    · have short : i < 9 := below
      have address : (0x200000 : UInt32).toNat = 0x200000 := rfl
      have first : rramStart.toNat = 0x200000 := rfl
      have last : rramEnd.toNat = 0x37FFFF := rfl
      rw [address, Board.byteAt, if_pos (by omega), Int.toNat_natCast]
  have stored := (checksum_is_crc32 (FlashConfig.mk 0x20 0 0 0 256) (fun _ => none) .rram
    digitsBoard (fun _ => 0) 0x200000 9 (by rw [held]; rfl)).2
  rw [stored]
  decide +kernel

end QHal.Nvm
