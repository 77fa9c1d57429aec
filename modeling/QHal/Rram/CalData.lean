/-
Module: QHal.Rram.CalData
Purpose: The two accesses to the calibration data, nt_caldata_write and nt_get_caldata of
  qhw_support/src/nt_mem.c.  The test is of an offset in bytes; the address is that of a pointer
  to words.
Trusted boundary: the RRAM write and read they call are parameters
Main exports: calStartAddr, calDataLength, calAddress, ntCaldataWrite, ntGetCaldata, plainWrite,
  plainRead
-/
import QHal.Rram.OtpMap

namespace QHal.Rram

/-- `g_ln_CAL_Start_Addr` and `g_ln_CAL_Data_length`. -/
def calStartAddr : UInt32 := 0x377000
def calDataLength : UInt32 := 0x3000

/-- `cal_address + offset`, which counts words. -/
def calAddress (offset : UInt16) : UInt32 := calStartAddr + 4 * offset.toUInt32

/-- The test of both functions of offset and length. -/
def calInside (offset : UInt16) (length : UInt32) : Prop :=
  length ≠ 0 ∧ length + offset.toUInt32 ≤ calDataLength

instance (offset : UInt16) (length : UInt32) : Decidable (calInside offset length) :=
  inferInstanceAs (Decidable (_ ∧ _))

/-- `nt_caldata_write`.  `wcal` is `none` for the null pointer. -/
def ntCaldataWrite {σ : Type} (ntRramWrite : UInt32 → (Nat → UInt8) → UInt32 → Int × σ) (state : σ)
    (wcal : Option (Nat → UInt8)) (offset : UInt16) (length : UInt32) : Int × σ :=
  match wcal with
  | some wcal =>
      if calInside offset length then ntRramWrite (calAddress offset) wcal length else (-1, state)
  | none => (-1, state)

/-- `nt_get_caldata`: the status and the caller's buffer. -/
def ntGetCaldata (ntRramRead : UInt32 → (Nat → UInt8) → UInt32 → Int × (Nat → UInt8))
    (rcal : Option (Nat → UInt8)) (offset : UInt16) (length : UInt32) :
    Int × Option (Nat → UInt8) :=
  match rcal with
  | some rcal =>
      if calInside offset length then
        let (status, rcal) := ntRramRead (calAddress offset) rcal length
        (status, some rcal)
      else (-1, some rcal)
  | none => (-1, none)

/-- `nt_rram_write` as a copy of bytes. -/
def plainWrite (memory : Mem UInt8) (dst : UInt32) (wdata : Nat → UInt8) (length : UInt32) :
    Int × Mem UInt8 :=
  (errNone, memory.write dst length.toNat wdata)

/-- `nt_rram_read` as a copy of bytes. -/
def plainRead (memory : Mem UInt8) (address : UInt32) (rdata : Nat → UInt8) (length : UInt32) :
    Int × (Nat → UInt8) :=
  (errNone, Mem.overlay rdata 0 length.toNat (memory.cells address))

end QHal.Rram
