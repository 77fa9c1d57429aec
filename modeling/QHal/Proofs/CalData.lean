/-
Module: QHal.Proofs.CalData
Purpose: When a write of calibration data and a read after it, over an RRAM driver that copies
  bytes, keep to the calibration area and agree with an array of bytes.  The address moves four
  times as far as the offset that is tested.
Trusted boundary: none
Main exports: CalCall, Contained, calCall_iff, Overlays, overlays_iff, CalData, calData_iff
-/
import QHal.Proofs.OtpRangeCheck
import QHal.Rram.CalData

namespace QHal.Rram

open Mem (InRange)

/-! ## The area -/

/-- A byte of the calibration area. -/
abbrev calByte (place : Nat) : UInt32 := calStartAddr + UInt32.ofNat place

/-- The addresses of the calibration area. -/
def InCal (address : UInt32) : Prop := InRange calStartAddr calDataLength.toNat address

instance (address : UInt32) : Decidable (InCal address) :=
  inferInstanceAs (Decidable (InRange _ _ _))

theorem calByte_toNat {place : Nat} (small : place < 2 ^ 18) :
    (calByte place).toNat = 0x377000 + place := by
  have start : calStartAddr.toNat = 0x377000 := rfl
  rw [calByte, UInt32.toNat_add, UInt32.toNat_ofNat', start]
  omega

theorem calAddress_eq (offset : UInt16) : calAddress offset = calByte (4 * offset.toNat) := by
  have offsetLt := offset.toNat_lt
  apply UInt32.toNat_inj.mp
  have four : (4 : UInt32).toNat = 4 := rfl
  have start : calStartAddr.toNat = 0x377000 := rfl
  rw [calByte_toNat (by omega), calAddress, UInt32.toNat_add, UInt32.toNat_mul,
    UInt16.toNat_toUInt32, four, start]
  omega

theorem calInside_iff {offset : UInt16} {length : UInt32} :
    calInside offset length ↔
      0 < length.toNat ∧ (length.toNat + offset.toNat) % 2 ^ 32 ≤ 0x3000 := by
  have some : length ≠ 0 ↔ 0 < length.toNat := by
    rw [Nat.pos_iff_ne_zero, ne_eq, ne_eq, ← UInt32.toNat_inj]
    rfl
  rw [calInside, some, UInt32.le_iff_toNat_le, UInt32.toNat_add, UInt16.toNat_toUInt32]
  rfl

theorem inRange_calByte {start place count : Nat} (startSmall : start < 2 ^ 18)
    (placeSmall : place < 2 ^ 18) (bound : count < 2 ^ 31) :
    InRange (calByte start) count (calByte place) ↔ start ≤ place ∧ place < start + count := by
  rw [Mem.inRange_iff (by rw [calByte_toNat startSmall]; omega), calByte_toNat startSmall,
    calByte_toNat placeSmall]
  omega

/-- A byte of the area after a write to it. -/
theorem write_calByte (memory : Mem UInt8) (data : Nat → UInt8) {start place count : Nat}
    (startSmall : start < 2 ^ 18) (placeSmall : place < 2 ^ 18) (bound : count < 2 ^ 31) :
    memory.write (calByte start) count data (calByte place) =
      if start ≤ place ∧ place < start + count then data (place - start)
      else memory (calByte place) := by
  split_ifs with inside
  · have distance : (calByte place - calByte start).toNat = place - start := by
      rw [Mem.distance_eq, calByte_toNat startSmall, calByte_toNat placeSmall, if_pos (by omega)]
      omega
    rw [Mem.write_hit ((inRange_calByte startSmall placeSmall bound).mpr inside), distance]
  · exact Mem.write_miss fun hit => inside ((inRange_calByte startSmall placeSmall bound).mp hit)

/-! ## One call -/

section Call

variable (offset : UInt16) (length : UInt32)

/-- The range lies in the area and is not empty. -/
def InArea : Prop := 0 < length.toNat ∧ offset.toNat + length.toNat ≤ calDataLength.toNat

/-- Both functions accept exactly the ranges of the area, and they touch nothing but the area. -/
structure CalCall : Prop where
  writeAccepts : ∀ (memory : Mem UInt8) (wcal : Option (Nat → UInt8)),
    (ntCaldataWrite (plainWrite memory) memory wcal offset length).1 = 0 ↔
      wcal.isSome ∧ InArea offset length
  readAccepts : ∀ (memory : Mem UInt8) (rcal : Option (Nat → UInt8)),
    (ntGetCaldata (plainRead memory) rcal offset length).1 = 0 ↔
      rcal.isSome ∧ InArea offset length
  writeTouches : ∀ (memory : Mem UInt8) (wcal : Option (Nat → UInt8)) (address : UInt32),
    ¬ InCal address →
      (ntCaldataWrite (plainWrite memory) memory wcal offset length).2 address = memory address
  readTouches : ∀ memory other : Mem UInt8,
    (∀ address, InCal address → memory address = other address) → ∀ rcal,
      ntGetCaldata (plainRead memory) rcal offset length =
        ntGetCaldata (plainRead other) rcal offset length

/-- A call that is accepted stays in the area. -/
def Contained : Prop :=
  calInside offset length → 4 * offset.toNat + length.toNat ≤ calDataLength.toNat

end Call

section Calls

variable {offset : UInt16} {length : UInt32}

theorem inArea_iff (contained : Contained offset length) :
    calInside offset length ↔ InArea offset length := by
  have offsetLt := offset.toNat_lt
  have size : calDataLength.toNat = 0x3000 := rfl
  constructor
  · intro inside
    have bound := contained inside
    exact ⟨(calInside_iff.mp inside).1, by omega⟩
  · rintro ⟨some, bound⟩
    exact calInside_iff.mpr ⟨some, by omega⟩

theorem ntCaldataWrite_status (memory : Mem UInt8) (wcal : Option (Nat → UInt8)) :
    (ntCaldataWrite (plainWrite memory) memory wcal offset length).1 = 0 ↔
      wcal.isSome ∧ calInside offset length := by
  cases wcal with
  | none => simp [ntCaldataWrite]
  | some wcal =>
      by_cases inside : calInside offset length <;>
        simp [ntCaldataWrite, inside, plainWrite, errNone]

theorem ntGetCaldata_status (memory : Mem UInt8) (rcal : Option (Nat → UInt8)) :
    (ntGetCaldata (plainRead memory) rcal offset length).1 = 0 ↔
      rcal.isSome ∧ calInside offset length := by
  cases rcal with
  | none => simp [ntGetCaldata]
  | some rcal =>
      by_cases inside : calInside offset length <;>
        simp [ntGetCaldata, inside, plainRead, errNone]

/-- An accepted call that leaves the area has a byte outside of it. -/
theorem exists_outside (inside : calInside offset length)
    (leaves : calDataLength.toNat < 4 * offset.toNat + length.toNat) :
    ∃ address, ¬ InCal address ∧ InRange (calAddress offset) length.toNat address := by
  have offsetLt := offset.toNat_lt
  have size : calDataLength.toNat = 0x3000 := rfl
  have some := (calInside_iff.mp inside).1
  have start : calStartAddr.toNat = 0x377000 := rfl
  refine ⟨calByte (max (4 * offset.toNat) 0x3000), ?_, ?_⟩
  · rw [InCal, Mem.inRange_iff (by rw [start, size]; omega), calByte_toNat (by omega), start, size]
    omega
  · rw [calAddress_eq, InRange, Mem.distance_eq, calByte_toNat (by omega), calByte_toNat (by omega),
      if_pos (by omega)]
    omega

theorem inCal_of_inRange (inside : calInside offset length) (contained : Contained offset length)
    {address : UInt32} (hit : InRange (calAddress offset) length.toNat address) :
    InCal address := by
  have offsetLt := offset.toNat_lt
  have size : calDataLength.toNat = 0x3000 := rfl
  have start : calStartAddr.toNat = 0x377000 := rfl
  have bound := contained inside
  rw [calAddress_eq, Mem.inRange_iff (by rw [calByte_toNat (by omega)]; omega),
    calByte_toNat (by omega)] at hit
  rw [InCal, Mem.inRange_iff (by rw [start, size]; omega), start, size]
  omega

/-- On a call that stays in the area the driver's own read is the copy of bytes. -/
theorem ntGetCaldata_rramRead (memory : Mem UInt8) (inside : calInside offset length)
    (contained : Contained offset length) (rcal : Option (Nat → UInt8)) :
    ntGetCaldata (rramRead .app memory) rcal offset length =
      ntGetCaldata (plainRead memory) rcal offset length := by
  cases rcal with
  | none => rfl
  | some rcal =>
      have size : calDataLength.toNat = 0x3000 := rfl
      have bound := contained inside
      have start : (calAddress offset).toNat = 0x377000 + 4 * offset.toNat := by
        rw [calAddress_eq, calByte_toNat (by omega)]
      have ending : (calAddress offset + length).toNat =
          0x377000 + 4 * offset.toNat + length.toNat := by
        rw [UInt32.toNat_add, start]
        exact Nat.mod_eq_of_lt (by omega)
      have granted : rramAddressRangeCheck .app memory (calAddress offset) length readLocked = 0 :=
        (rangeCheck_accepts .read).mpr (.inr ⟨mainAddrCheck_iff.mpr (by omega),
          mainAddrCheck_iff.mpr (by omega)⟩)
      simp only [ntGetCaldata, if_pos inside, rramRead, rramReadWith_granted rcal inside.1 granted,
        plainRead]

/-- A call does what it should where it stays in the area. -/
theorem calCall_iff (offset : UInt16) (length : UInt32) :
    CalCall offset length ↔ Contained offset length := by
  constructor
  · intro call inside
    by_contra leaves
    obtain ⟨address, outside, hit⟩ := exists_outside inside (Nat.not_le.mp leaves)
    have same := call.writeTouches (fun _ => 0) (some fun _ => 1) address outside
    simp only [ntCaldataWrite, if_pos inside, plainWrite, Mem.write_hit hit] at same
    exact absurd same (by decide)
  · intro contained
    refine ⟨?_, ?_, ?_, ?_⟩
    · intro memory wcal
      rw [ntCaldataWrite_status, inArea_iff contained]
    · intro memory rcal
      rw [ntGetCaldata_status, inArea_iff contained]
    · intro memory wcal address outside
      cases wcal with
      | none => rfl
      | some wcal =>
          by_cases inside : calInside offset length
          · simp only [ntCaldataWrite, if_pos inside, plainWrite]
            exact Mem.write_miss fun hit => outside (inCal_of_inRange inside contained hit)
          · simp only [ntCaldataWrite, if_neg inside]
    · intro memory other agree rcal
      cases rcal with
      | none => rfl
      | some rcal =>
          by_cases inside : calInside offset length
          · simp only [ntGetCaldata, if_pos inside, plainRead]
            congr 2
            apply Mem.overlay_congr
            intro i below
            have lengthLt := length.toNat_lt
            apply agree
            exact inCal_of_inRange inside contained (Mem.inRange_add below (by omega))
          · simp only [ntGetCaldata, if_neg inside]

end Calls

/-! ## A write and a read after it -/

section Pair

variable (offset : UInt16) (length : UInt32) (offset' : UInt16) (length' : UInt32)

/-- What an accepted read returns after an accepted write: the written bytes where the two ranges
overlap, and otherwise the bytes of the area as they were. -/
def Overlays : Prop :=
  ∀ (memory : Mem UInt8) (wcal rcal : Nat → UInt8) (after : Mem UInt8),
    ntCaldataWrite (plainWrite memory) memory (some wcal) offset length = (0, after) →
    ∀ buffer, ntGetCaldata (plainRead after) (some rcal) offset' length' = (0, some buffer) →
      ∀ i < length'.toNat, buffer i =
        if offset.toNat ≤ offset'.toNat + i ∧ offset'.toNat + i < offset.toNat + length.toNat then
          wcal (offset'.toNat + i - offset.toNat)
        else memory (calByte (offset'.toNat + i))

/-- Each of the two calls keeps to the area, and the read overlays the write. -/
structure CalData : Prop where
  write : CalCall offset length
  read : CalCall offset' length'
  overlays : Overlays offset length offset' length'

/-- Both offsets are the same, and 0 unless the read is no longer than the write; or the read
starts at 0 and ends before the offset of the write. -/
def Agreeing : Prop :=
  (offset = offset' ∧ (offset = 0 ∨ length' ≤ length)) ∨
    (offset' = 0 ∧ length'.toNat ≤ offset.toNat)

end Pair

section Overlays

variable {offset offset' : UInt16} {length length' : UInt32}

/-- The bytes of a read after a write. -/
theorem read_after_write (inside : calInside offset length) (contained : Contained offset length)
    (inside' : calInside offset' length') (contained' : Contained offset' length')
    (memory : Mem UInt8) (wcal rcal : Nat → UInt8) :
    ∃ after buffer,
      ntCaldataWrite (plainWrite memory) memory (some wcal) offset length = (0, after) ∧
      ntGetCaldata (plainRead after) (some rcal) offset' length' = (0, some buffer) ∧
      ∀ i < length'.toNat, buffer i =
        if 4 * offset.toNat ≤ 4 * offset'.toNat + i ∧
            4 * offset'.toNat + i < 4 * offset.toNat + length.toNat then
          wcal (4 * offset'.toNat + i - 4 * offset.toNat)
        else memory (calByte (4 * offset'.toNat + i)) := by
  have size : calDataLength.toNat = 0x3000 := rfl
  have bound := contained inside
  have bound' := contained' inside'
  let after := memory.write (calAddress offset) length.toNat wcal
  refine ⟨after, Mem.overlay rcal 0 length'.toNat (after.cells (calAddress offset')),
    if_pos inside, ?_, ?_⟩
  · rw [ntGetCaldata, if_pos inside']
    rfl
  · intro i below
    have place : calAddress offset' + UInt32.ofNat i = calByte (4 * offset'.toNat + i) := by
      rw [calAddress_eq, calByte, calByte, UInt32.ofNat_add, UInt32.add_assoc]
    rw [Mem.overlay, if_pos (by omega), Nat.sub_zero, Mem.cells, place]
    unfold after
    rw [calAddress_eq offset]
    exact write_calByte memory wcal (by omega) (by omega) (by omega)

/-- A place is read right if it is in both ranges alike, or before the range of the write in a
read from 0. -/
def PlaceAgrees (offset offset' : Nat) (length i : Nat) : Prop :=
  if 4 * offset ≤ 4 * offset' + i ∧ 4 * offset' + i < 4 * offset + length then offset = offset'
  else offset' = 0 ∧ ¬ (offset ≤ i ∧ i < offset + length)

theorem overlays_iff_places (inside : calInside offset length)
    (contained : Contained offset length) (inside' : calInside offset' length')
    (contained' : Contained offset' length') :
    Overlays offset length offset' length' ↔
      ∀ i < length'.toNat, PlaceAgrees offset.toNat offset'.toNat length.toNat i := by
  have size : calDataLength.toNat = 0x3000 := rfl
  have bound := contained inside
  have bound' := contained' inside'
  constructor
  · intro overlays i below
    -- The byte that should be read is marked with 1, and no other one is.
    let place := offset'.toNat + i
    let written := offset.toNat ≤ place ∧ place < offset.toNat + length.toNat
    obtain ⟨after, buffer, wrote, gave, bytes⟩ := read_after_write inside contained inside'
      contained' (fun address => if address = calByte place ∧ ¬ written then 1 else 0)
      (fun j => if offset.toNat + j = place then 1 else 0) (fun _ => 0)
    have right := overlays _ _ _ after wrote buffer gave i below
    rw [bytes i below] at right
    have marked :
        (if written then (if offset.toNat + (place - offset.toNat) = place then (1 : UInt8)
          else 0) else if calByte place = calByte place ∧ ¬ written then 1 else 0) = 1 := by
      by_cases hit : written
      · rw [if_pos hit, if_pos (by omega)]
      · rw [if_neg hit, if_pos ⟨rfl, hit⟩]
    replace right := right.trans marked
    unfold PlaceAgrees
    split_ifs at right ⊢ with moved same there
    · omega
    · exact absurd right (by decide)
    · have equal := congrArg UInt32.toNat there.1
      rw [calByte_toNat (by omega), calByte_toNat (by omega)] at equal
      have first : offset'.toNat = 0 := by omega
      refine ⟨first, fun hit => there.2 ?_⟩
      omega
    · exact absurd right (by decide)
  · intro places memory wcal rcal after wrote buffer gave i below
    obtain ⟨after', buffer', wrote', gave', bytes⟩ := read_after_write inside contained inside'
      contained' memory wcal rcal
    cases wrote.symm.trans wrote'
    cases gave.symm.trans gave'
    have agrees := places i below
    rw [bytes i below]
    unfold PlaceAgrees at agrees
    split_ifs at agrees with moved
    · rw [agrees, if_pos (by omega), if_pos (by omega)]
      congr 1
      omega
    · rw [if_neg moved, agrees.1, if_neg (by omega)]

theorem overlays_iff (inside : calInside offset length) (contained : Contained offset length)
    (inside' : calInside offset' length') (contained' : Contained offset' length') :
    Overlays offset length offset' length' ↔ Agreeing offset length offset' length' := by
  have some := (calInside_iff.mp inside).1
  have some' := (calInside_iff.mp inside').1
  have same : offset = offset' ↔ offset.toNat = offset'.toNat := UInt16.toNat_inj.symm
  have first : offset = 0 ↔ offset.toNat = 0 := UInt16.toNat_inj.symm
  have first' : offset' = 0 ↔ offset'.toNat = 0 := UInt16.toNat_inj.symm
  rw [overlays_iff_places inside contained inside' contained', Agreeing, same, first, first',
    UInt32.le_iff_toNat_le]
  constructor
  · intro places
    have atStart := places 0 some'
    have atOffset := places offset.toNat
    have atEnd := places length.toNat
    unfold PlaceAgrees at atStart atOffset atEnd
    split_ifs at * <;> omega
  · intro agreeing i below
    unfold PlaceAgrees
    split_ifs with moved <;> omega

theorem calData_iff (offset : UInt16) (length : UInt32) (offset' : UInt16) (length' : UInt32) :
    CalData offset length offset' length' ↔
      Contained offset length ∧ Contained offset' length' ∧
        (calInside offset length → calInside offset' length' →
          Agreeing offset length offset' length') := by
  constructor
  · rintro ⟨write, read, overlays⟩
    have contained := (calCall_iff offset length).mp write
    have contained' := (calCall_iff offset' length').mp read
    exact ⟨contained, contained', fun inside inside' =>
      (overlays_iff inside contained inside' contained').mp overlays⟩
  · rintro ⟨contained, contained', agreeing⟩
    refine ⟨(calCall_iff _ _).mpr contained, (calCall_iff _ _).mpr contained', ?_⟩
    by_cases inside : calInside offset length
    · by_cases inside' : calInside offset' length'
      · exact (overlays_iff inside contained inside' contained').mpr (agreeing inside inside')
      · intro memory wcal rcal after wrote buffer gave
        rw [ntGetCaldata, if_neg inside'] at gave
        cases gave
    · intro memory wcal rcal after wrote
      rw [ntCaldataWrite, if_neg inside] at wrote
      cases wrote

/-- One byte at offset 0x1000 of the area goes to 0x37B000, which lies behind it. -/
theorem calData_leaves_area :
    ¬ ∀ (offset : UInt16) (length : UInt32) (offset' : UInt16) (length' : UInt32),
      CalData offset length offset' length' := by
  intro all
  have same := (all 0x1000 1 0 1).write.writeTouches (fun _ => 0) (some fun _ => 1) 0x37B000
    (by decide)
  revert same
  decide

end Overlays

end QHal.Rram
