/-
Module: QHal.Lib.Nor
Purpose: A NOR flash device: erasing sets a unit of cells to 0xFF, programming can only
  clear bits and stays in one page, and both need the write enable latch.
Trusted boundary: none
Main exports: Nor.Device, Nor.Device.program_cells, Nor.Device.erase_cells
-/
import Mathlib.Logic.Basic

namespace QHal.Nor

/-- The cells by their addresses, and the write enable latch. -/
structure Device where
  cells : Nat → UInt8
  writeEnabled : Bool

namespace Device

variable {device : Device} {page address count : Nat} {data : Nat → UInt8}

def writeEnable (device : Device) : Device := { device with writeEnabled := true }

/-- The unit of `size` cells around an address is erased. -/
def erase (device : Device) (size address : Nat) : Device :=
  if device.writeEnabled then
    { cells := fun cell => if cell / size = address / size then 0xFF else device.cells cell
      writeEnabled := false }
  else device

def eraseChip (device : Device) : Device :=
  if device.writeEnabled then { cells := fun _ => 0xFF, writeEnabled := false } else device

/-- The bytes go into one page from an address on, round to its start behind its end, and
a byte that comes later replaces an earlier one for the same cell. -/
def program (device : Device) (page address count : Nat) (data : Nat → UInt8) : Device :=
  if device.writeEnabled then
    { cells := fun cell =>
        let offset := (cell % page + page - address % page) % page
        if cell / page = address / page ∧ offset < count then
          device.cells cell &&& data (offset + page * ((count - 1 - offset) / page))
        else device.cells cell
      writeEnabled := false }
  else device

/-- The cells of an erased unit. -/
theorem erase_cells (enabled : device.writeEnabled = true) (size cell : Nat) :
    (device.erase size address).cells cell =
      if cell / size = address / size then 0xFF else device.cells cell := by
  rw [erase, if_pos enabled]

/-- Bytes that do not reach behind the end of the page go to the cells from the address
on. -/
theorem program_cells (enabled : device.writeEnabled = true)
    (fits : address % page + count ≤ page) (cell : Nat) :
    (device.program page address count data).cells cell =
      if address ≤ cell ∧ cell < address + count then
        device.cells cell &&& data (cell - address)
      else device.cells cell := by
  rw [program, if_pos enabled]
  dsimp only
  by_cases empty : count = 0
  · rw [if_neg (by omega), if_neg (by omega)]
  have positive : 0 < page := by omega
  have here := Nat.div_add_mod cell page
  have base := Nat.div_add_mod address page
  have below := Nat.mod_lt cell positive
  by_cases same : cell / page = address / page
  · rw [same] at here
    by_cases behind : address ≤ cell
    · have offset : (cell % page + page - address % page) % page = cell - address := by
        have sum : cell % page + page - address % page = cell - address + page := by omega
        rw [sum, Nat.add_mod_right]
        exact Nat.mod_eq_of_lt (by omega)
      rw [offset]
      by_cases inside : cell < address + count
      · have first : (count - 1 - (cell - address)) / page = 0 :=
          Nat.div_eq_of_lt (by omega)
        rw [if_pos ⟨same, by omega⟩, if_pos ⟨behind, inside⟩, first, Nat.mul_zero, Nat.add_zero]
      · rw [if_neg (by omega), if_neg (by omega)]
    · have offset : (cell % page + page - address % page) % page =
          cell % page + page - address % page := Nat.mod_eq_of_lt (by omega)
      rw [offset, if_neg (by omega), if_neg (by omega)]
  · rw [if_neg (fun both => same both.1), if_neg]
    rintro ⟨behind, inside⟩
    apply same
    refine Nat.div_eq_of_lt_le ?_ ?_
    · rw [Nat.mul_comm]
      omega
    · rw [Nat.mul_comm, Nat.mul_succ]
      omega

end Device

end QHal.Nor
