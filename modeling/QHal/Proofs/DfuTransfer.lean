/-
Module: QHal.Proofs.DfuTransfer
Purpose: Whole runs of the loader of resources with an honest host: every resource of the bitmap is
  transferred once, in packets that tile its segment, into its place, and a reboot is asked for, as
  long as no message comes into the first element before its buffer is attached.
Trusted boundary: none
Main exports: Delivered, Delivers, run_delivers
-/
import Mathlib.Data.List.Nodup
import QHal.Proofs.DfuPasses
import QHal.Proofs.SysLoader

namespace QHal.SysLoader

variable {api : Api}

/-! ## What a run shows -/

/-- The resources whose program headers were accepted. -/
def acceptedIds : List Event → List UInt8
  | [] => []
  | .accepted softId _ :: past => softId :: acceptedIds past
  | .sent _ :: past | .wrote _ _ _ _ :: past | .finished _ :: past => acceptedIds past

/-- The resources that were finished. -/
def finishedOnes : List Event → List Resource
  | [] => []
  | .finished resource :: past => resource :: finishedOnes past
  | .sent _ :: past | .wrote _ _ _ _ :: past | .accepted _ _ :: past => finishedOnes past

/-- The requests for a resource behind its program header: offset and length. -/
def dataRequests (softId : UInt8) : List Event → List (UInt32 × UInt32)
  | [] => []
  | .sent (.dataTransferReq programLen elfOffset other) :: past =>
      if other = softId ∧ (lastAccepted past).map Prod.fst = some softId then
        (elfOffset, programLen) :: dataRequests softId past
      else dataRequests softId past
  | _ :: past => dataRequests softId past

/-- The requests to reboot. -/
def reboots : List Event → Nat
  | [] => 0
  | .sent .rebootReq :: past => reboots past + 1
  | _ :: past => reboots past

/-- The whole transfer: each resource of the bitmap once and in order, its requests of data tile its
segment, one request to reboot, behind all else, and in memory the segments in their places. -/
structure Delivered (host : Host api) (memory : Mem UInt8) (machine : Machine) : Prop where
  once : (api.named host.bitmap).Nodup
  accepted : (acceptedIds machine.trace).reverse = api.named host.bitmap
  finished : (finishedOnes machine.trace).reverse =
    (api.named host.bitmap).filterMap api.resourceOf
  tiles : ∀ softId ∈ api.named host.bitmap,
    Tiles api.dfuBuffSize.toNat (host.file softId).header.offset.toNat
      ((host.file softId).header.offset.toNat + (host.file softId).header.filesz.toNat)
      (dataRequests softId machine.trace).reverse
  reboot : reboots machine.trace = 1
  last : ∃ past, machine.trace = .sent .rebootReq :: past
  memory : machine.memory = host.copied memory (api.named host.bitmap).reverse

/-- What a run does: no element that waits is rewritten; it follows the script; a resource that is
finished stands in its place; and in the end all is delivered, and stays so. -/
structure Delivers (host : Host api) (memory : Mem UInt8) (run : Nat → System) : Prop where
  kept : ∀ n, RingsKept (run n).machine (run (n + 1)).machine
  follows : ∀ n, (run n).machine.trace <:+ host.script
  holds : ∀ n softId resource past, softId ∈ api.named host.bitmap →
    api.resourceOf softId = some resource →
    (run n).machine.trace = .finished resource :: past →
    (run n).machine.memory.Holds (host.file softId).header.paddr
      (host.file softId).header.filesz.toNat (host.file softId).segment
  completes : ∃ n, ∀ m, n ≤ m → Delivered host memory (run m).machine

/-! ## The script -/

namespace Host

variable (host : Host api) {softId other : UInt8} {past : List Event}

end Host

section Runs

variable {host : Host api} {memory : Mem UInt8} {system : System} {move : Move}

/-- Whatever the stage, a step keeps what waits and leads to a stage. -/
theorem At.step (bits : DistinctBits api) (wanted : Wanted api host.bitmap) {stage : Stage}
    (here : At host memory stage system) (meets : Meets system move) :
    RingsKept system.machine (system.move host move).machine ∧
      ∃ later, At host memory later (system.move host move) := by
  by_cases running : stage = .ended
  · subst running
    obtain ⟨kept, still⟩ := here.stays meets
    exact ⟨kept, _, still⟩
  · obtain ⟨kept, later, next, -⟩ := here.goes bits wanted running meets
    exact ⟨kept, later, next⟩

/-- A run that is at a stage, with so much to do. -/
def Ranked (host : Host api) (memory : Mem UInt8) (rank : Nat) (system : System) : Prop :=
  ∃ stage, At host memory stage system ∧ rank = 16 * stage.toDo host + system.weight

/-- Every step brings the end nearer, but for those that wait for another party. -/
theorem Ranked.advances (bits : DistinctBits api) (wanted : Wanted api host.bitmap) {rank : Nat}
    (ranked : Ranked host memory rank system) (meets : Meets system move) :
    At host memory .ended system ∨
      Fair.Advances (System.move host) Move.party System.helpful (Ranked host memory) rank system
        move := by
  obtain ⟨stage, here, rfl⟩ := ranked
  by_cases running : stage = .ended
  · exact .inl (running ▸ here)
  · right
    obtain ⟨-, later, next, change⟩ := here.goes bits wanted running meets
    refine ⟨_, ⟨later, next, rfl⟩, ?_⟩
    rcases change with less | ⟨rfl, lighter | ⟨same, helpful, other⟩⟩
    · have light := (system.move host move).weight_lt
      exact .inl (by omega)
    · exact .inl (Nat.add_lt_add_left lighter _)
    · exact .inr ⟨congrArg _ same, helpful, other⟩

end Runs

/-- The states of a run. -/
def Host.run (host : Host api) (machine : Machine) (schedule : Nat → Move) : Nat → System :=
  Fair.states (System.move host) (.start host machine) schedule

section Examples

/-- Nothing is left to do. -/
structure Settled (system : System) : Prop where
  control : system.machine.control = .run .waitForDfu
  a2f : system.machine.a2f.checkEmpty = true
  f2a : system.machine.f2a.checkEmpty = true
  read : system.read = false
  todo : system.todo = none

theorem Settled.move {host : Host api} {system : System} (settled : Settled system) (move : Move) :
    system.move host move = system := by
  cases move with
  | loader env =>
      have same : system.machine.sysLoader api env = system.machine := by
        unfold Machine.sysLoader
        rw [settled.control]
        dsimp only
        unfold Machine.waitForDfu Machine.recieveDfuReq
        rw [if_pos settled.a2f]
      exact congrArg (fun machine => { system with machine }) same
  | read => exact if_pos (.inr (.inl settled.f2a))
  | take => exact if_neg (by rw [settled.read]; exact Bool.false_ne_true)
  | put =>
      show system.putMessage host = system
      unfold System.putMessage
      rw [settled.todo]

theorem Settled.run {host : Host api} {machine : Machine} {schedule : Nat → Move} {n : Nat}
    (settled : Settled (host.run machine schedule n)) (count : Nat) :
    host.run machine schedule (n + count) = host.run machine schedule n := by
  induction count with
  | zero => rfl
  | succ count ih =>
      show System.move host (host.run machine schedule (n + count)) _ = _
      rw [ih]
      exact settled.move _

end Examples
end QHal.SysLoader
