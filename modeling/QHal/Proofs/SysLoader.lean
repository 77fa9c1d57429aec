/-
Module: QHal.Proofs.SysLoader
Purpose: What the loader of resources writes and finishes, over every run with any host: data of
  answered requests inside the accepted segment, and resources that were written in whole, as long
  as the answers fit the requests.
Trusted boundary: none
Main exports: lastAccepted, outstanding, Covered, Justified, Safe, Fits, FitsRequest, Inv,
  Inv.step, run_safe
-/
import QHal.Lib.Runs
import QHal.Proofs.SysPackets

namespace QHal.SysLoader

variable {api : Api}

/-! ## What can be seen -/

/-- The resource and the program header that were accepted last. -/
def lastAccepted : List Event → Option (UInt8 × ProgramHeader)
  | [] => none
  | .accepted softId header :: _ => some (softId, header)
  | _ :: past => lastAccepted past

/-- The request that was sent last: length, offset and resource. -/
def outstanding : List Event → Option (UInt32 × UInt32 × UInt8)
  | [] => none
  | .sent (.dataTransferReq programLen elfOffset softId) :: _ =>
      some (programLen, elfOffset, softId)
  | _ :: past => outstanding past

/-- An address was written successfully since a program header was accepted. -/
def Covered (address : UInt32) : List Event → Prop
  | [] => False
  | .accepted _ _ :: _ => False
  | .wrote dst length _ status :: past =>
      (status = 0 ∧ Mem.InRange dst length.toNat address) ∨ Covered address past
  | _ :: past => Covered address past

/-- `[p_paddr, p_paddr+p_filesz)`. -/
def ProgramHeader.Holds (header : ProgramHeader) (address : UInt32) : Prop :=
  header.paddr.toNat ≤ address.toNat ∧
    address.toNat < header.paddr.toNat + header.filesz.toNat

/-- What is written belongs to a transfer confirmation that answers the outstanding request, and
lies in the segment that was accepted for its resource; a resource is finished when every byte of
its segment was written. -/
def Justified (api : Api) (past : List Event) : Event → Prop
  | .wrote dst length message _ =>
      length ≠ 0 → ∃ cfm header,
        message = .dataTransferCfm cfm ∧ cfm.programLen = length ∧
        outstanding past = some (cfm.programLen, cfm.elfOffset, cfm.softId) ∧
        lastAccepted past = some (cfm.softId, header) ∧
        ∀ address, Mem.InRange dst length.toNat address → header.Holds address
  | .finished resource =>
      ∃ softId header, api.resourceOf softId = some resource ∧
        lastAccepted past = some (softId, header) ∧
        ∀ place < header.filesz.toNat, ∃ address : UInt32,
          address.toNat = header.paddr.toNat + place ∧ Covered address past
  | _ => True

/-- The bytes that a message is written with. -/
def A2fMessage.data : A2fMessage → Nat → UInt8
  | .dataTransferCfm cfm => cfm.data
  | _ => fun _ => 0

/-- The memory behind the writes of a run. -/
def replay (memory : Mem UInt8) : List Event → Mem UInt8
  | [] => memory
  | .wrote dst length message _ :: past => (replay memory past).write dst length.toNat message.data
  | _ :: past => replay memory past

/-- Every write and every finished resource of a run is justified, nothing else changes the
memory, and nothing else makes a resource finished. -/
structure Safe (api : Api) (first machine : Machine) : Prop where
  justified : ∀ event past, event :: past <:+ machine.trace → Justified api past event
  memory : machine.memory = replay first.memory machine.trace
  status : ∀ resource, machine.dfuStatus resource = .finished →
    first.dfuStatus resource = .finished ∨ .finished resource ∈ machine.trace

/-! ## The condition -/

/-- A segment with data, of at most 65535 packets, that ends in the address space. -/
structure Fits (api : Api) (header : ProgramHeader) : Prop extends
    Packeted api header.filesz where
  inside : header.paddr.toNat + header.filesz.toNat ≤ 2 ^ 32

instance (api : Api) (header : ProgramHeader) : Decidable (Fits api header) :=
  decidable_of_iff ((0 < header.filesz.toNat ∧
      header.filesz.toNat ≤ 65535 * api.dfuBuffSize.toNat) ∧
      header.paddr.toNat + header.filesz.toNat ≤ 2 ^ 32)
    ⟨fun ⟨⟨positive, counted⟩, inside⟩ => ⟨⟨positive, counted⟩, inside⟩,
      fun fits => ⟨⟨fits.positive, fits.counted⟩, fits.inside⟩⟩

/-- Program data that answers the request under way, and is written without an error. -/
def Answers (cntxt : SysLoaderCntxt) (rramWriteStatus : Int8) : A2fMessage → Prop
  | .dataTransferCfm cfm =>
      rramWriteStatus = 0 ∧ cfm.programLen = cntxt.progLen ∧
        cfm.elfOffset = cntxt.runningOffset ∧ cfm.softId = cntxt.softidInProgress
  | _ => False

/-- A program header, if the message is taken for one, of a segment that fits. -/
def FitsHeader (api : Api) : A2fMessage → Prop
  | .dataTransferCfm cfm => cfm.programLen = sizeofPhdr → Fits api (.ofBytes cfm.data)
  | _ => True

/-- What the loader receives in a pass fits. -/
def FitsRequest (api : Api) (machine : Machine) : Action → Prop
  | .loader env =>
      machine.a2f.checkEmpty = false →
        (machine.control = .run .waitForProgram →
          Answers machine.cntxt env.rramWriteStatus machine.a2f.front) ∧
        (machine.control = .run .waitForProgramHeader → FitsHeader api machine.a2f.front)
  | _ => True

instance (cntxt : SysLoaderCntxt) (status : Int8) :
    ∀ message, Decidable (Answers cntxt status message)
  | .dataTransferCfm _ => inferInstanceAs (Decidable (_ ∧ _))
  | .dfuReq _ | .dataTransferDoneRsp _ | .other => inferInstanceAs (Decidable False)

instance (api : Api) : ∀ message, Decidable (FitsHeader api message)
  | .dataTransferCfm _ => inferInstanceAs (Decidable (_ → _))
  | .dfuReq _ | .dataTransferDoneRsp _ | .other => inferInstanceAs (Decidable True)

instance (api : Api) (machine : Machine) : ∀ action, Decidable (FitsRequest api machine action)
  | .loader _ => inferInstanceAs (Decidable (_ → _ ∧ _))
  | .take | .put _ _ => inferInstanceAs (Decidable True)

/-! ## The invariant -/

/-- A segment was accepted and is written up to the packet under way. -/
structure Loading (api : Api) (machine : Machine) : Prop where
  accepted : lastAccepted machine.trace = some (machine.cntxt.softidInProgress,
    ⟨machine.cntxt.startOffset, machine.cntxt.phyAddr, machine.cntxt.fileSize⟩)
  fits : Fits api ⟨machine.cntxt.startOffset, machine.cntxt.phyAddr, machine.cntxt.fileSize⟩
  total : machine.cntxt.totalPkts = api.packetsOf machine.cntxt.fileSize
  covered : ∀ place < machine.cntxt.fileSize.toNat,
    place < machine.cntxt.currPktCount.toNat * api.dfuBuffSize.toNat →
      ∃ address : UInt32, address.toNat = machine.cntxt.phyAddr.toNat + place ∧
        Covered address machine.trace

/-- The request under way is the one for the packet. -/
structure Requested (api : Api) (machine : Machine) : Prop where
  progLen : machine.cntxt.progLen = api.packetLen machine.cntxt
  runningOffset : machine.cntxt.runningOffset =
    machine.cntxt.startOffset + machine.cntxt.currPktCount.toUInt32 * api.dfuBuffSize
  sent : outstanding machine.trace = some (machine.cntxt.progLen, machine.cntxt.runningOffset,
    machine.cntxt.softidInProgress)

/-- What holds in the states of the transfer of program data. -/
def Phase (api : Api) (machine : Machine) : Prop :=
  match machine.control with
  | .run .requestProgram =>
      Loading api machine ∧ machine.cntxt.currPktCount.toNat < machine.cntxt.totalPkts.toNat
  | .run .waitForProgram =>
      Loading api machine ∧ machine.cntxt.currPktCount.toNat < machine.cntxt.totalPkts.toNat ∧
        Requested api machine
  | .run .resourceTransferCompleted | .run .resourceTransferConfirm =>
      Loading api machine ∧ machine.cntxt.totalPkts.toNat ≤ machine.cntxt.currPktCount.toNat
  | _ => True

structure Inv (api : Api) (first machine : Machine) : Prop where
  safe : Safe api first machine
  phase : Phase api machine

/-! ## Events -/

section Events

variable {first machine : Machine} {event : Event}

theorem justified_cons {trace : List Event}
    (justified : ∀ other past, other :: past <:+ trace → Justified api past other)
    (now : Justified api trace event) :
    ∀ other past, other :: past <:+ event :: trace → Justified api past other := by
  intro other past suffix
  rcases List.suffix_cons_iff.mp suffix with same | older
  · cases same
    exact now
  · exact justified other past older

/-- A message that is sent. -/
theorem Safe.sent (safe : Safe api first machine) (message : F2aMessage) :
    Safe api first (machine.log (.sent message)) where
  justified := justified_cons safe.justified trivial
  memory := safe.memory
  status resource done := (safe.status resource done).imp_right (List.mem_cons_of_mem _)

theorem Safe.accepted (safe : Safe api first machine) (softId : UInt8) (header : ProgramHeader) :
    Safe api first (machine.log (.accepted softId header)) where
  justified := justified_cons safe.justified trivial
  memory := safe.memory
  status resource done := (safe.status resource done).imp_right (List.mem_cons_of_mem _)

end Events

/-! ## Messages -/

section Messages

variable {first machine : Machine}

/-- A message is sent, or nothing happens. -/
theorem Machine.send_cases {message : F2aMessage} {behind : Machine → Machine}
    {holds : Machine → Prop} (stays : holds machine)
    (sends : holds (behind ({ machine with
      f2a := machine.f2a.put (api.sizeOf message) message }.log (.sent message)))) :
    holds (machine.send api message behind) := by
  unfold Machine.send
  split
  · exact sends
  · exact stays

theorem Machine.recieveDfuReq_cases (machine : Machine) :
    machine.recieveDfuReq = none ∨
      ∃ softIdBitmap, machine.recieveDfuReq = some (softIdBitmap, machine.release) := by
  unfold Machine.recieveDfuReq
  split
  · exact .inl rfl
  · split
    · exact .inr ⟨_, rfl⟩
    · exact .inl rfl

theorem Machine.recieveDfuTransferDoneRsp_cases (machine : Machine) :
    machine.recieveDfuTransferDoneRsp = none ∨
      ∃ moreResource, machine.recieveDfuTransferDoneRsp = some (moreResource, machine.release) := by
  unfold Machine.recieveDfuTransferDoneRsp
  split
  · exact .inl rfl
  · split
    · exact .inr ⟨_, rfl⟩
    · exact .inl rfl

/-- What the reception of a confirmation makes of a descriptor. -/
def Received (machine : Machine) (before desc : RingDataDesc) : Prop :=
  (∃ cfm, machine.a2f.front = .dataTransferCfm cfm ∧ desc.dataLen = cfm.programLen ∧
    desc.buff = cfm.data) ∨
  ((∀ cfm, machine.a2f.front ≠ .dataTransferCfm cfm) ∧ desc = before)

/-- It takes any message, and changes nothing but the ring. -/
theorem Machine.confirm_cases (machine : Machine) (before : RingDataDesc) :
    machine.recieveDfuDataTransferConfirm before = none ∨
      ∃ desc a2f, machine.recieveDfuDataTransferConfirm before =
          some (desc, { machine with a2f }) ∧
        machine.a2f.checkEmpty = false ∧ Received machine before desc := by
  unfold Machine.recieveDfuDataTransferConfirm
  split
  · exact .inl rfl
  case isFalse filled =>
    have filled := Bool.eq_false_iff.mpr filled
    split
    · rename_i cfm front
      exact .inr ⟨_, _, rfl, filled, .inl ⟨cfm, front, rfl, rfl⟩⟩
    · rename_i other
      exact .inr ⟨_, _, rfl, filled, .inr ⟨other, rfl⟩⟩

end Messages

/-! ## Steps -/

section Passes

variable {first machine : Machine} {env : Env}

theorem waitForDfu_inv (inv : Inv api first machine) : Inv api first machine.waitForDfu := by
  unfold Machine.waitForDfu
  rcases machine.recieveDfuReq_cases with nothing | ⟨softIdBitmap, request⟩
  · rw [nothing]
    exact inv
  · rw [request]
    exact ⟨⟨inv.safe.justified, inv.safe.memory, inv.safe.status⟩, trivial⟩

theorem checkForDfuBitmap_inv (inv : Inv api first machine) :
    Inv api first (machine.checkForDfuBitmap api) := by
  have sent := inv.safe.sent .dfuCfm
  apply Machine.send_cases inv
  split
  · exact ⟨⟨sent.justified, sent.memory, sent.status⟩, trivial⟩
  · exact ⟨⟨sent.justified, sent.memory, sent.status⟩, trivial⟩

theorem requestElfHeader_inv (inv : Inv api first machine)
    (control : machine.control = .run .requestElfHeader) :
    Inv api first (machine.requestElfHeader api) := by
  unfold Machine.requestElfHeader
  dsimp only
  split
  · split
    · exact ⟨⟨inv.safe.justified, inv.safe.memory, inv.safe.status⟩, trivial⟩
    · refine ⟨⟨inv.safe.justified, inv.safe.memory, fun resource done => ?_⟩, trivial⟩
      dsimp only at done
      have other : resource ≠ .sblA := by
        rintro rfl
        rw [Function.update_self] at done
        cases done
      rw [Function.update_of_ne other] at done
      exact inv.safe.status resource done
  · rename_i softId _
    have sent := inv.safe.sent (.dataTransferReq sizeofEhdr 0 softId)
    apply Machine.send_cases
    · refine ⟨⟨inv.safe.justified, inv.safe.memory, inv.safe.status⟩, ?_⟩
      simp [Phase, control]
    · exact ⟨⟨sent.justified, sent.memory, sent.status⟩, trivial⟩

theorem waitForElfHeader_inv (inv : Inv api first machine) :
    Inv api first (machine.waitForElfHeader env) := by
  unfold Machine.waitForElfHeader
  rcases machine.confirm_cases env.stale with nothing | ⟨desc, a2f, received, -, -⟩
  · rw [nothing]
    exact inv
  · rw [received]
    dsimp only
    split
    · exact ⟨⟨inv.safe.justified, inv.safe.memory, inv.safe.status⟩, trivial⟩
    · exact ⟨⟨inv.safe.justified, inv.safe.memory, inv.safe.status⟩, trivial⟩

theorem requestProgramHeader_inv (inv : Inv api first machine) :
    Inv api first (machine.requestProgramHeader api) := by
  have sent := inv.safe.sent (.dataTransferReq machine.cntxt.progLen
    machine.cntxt.runningOffset machine.cntxt.softidInProgress)
  unfold Machine.requestProgramHeader
  apply Machine.send_cases inv
  exact ⟨⟨sent.justified, sent.memory, sent.status⟩, trivial⟩

/-- A program header that fits starts the transfer of its segment. -/
theorem waitForProgramHeader_inv (inv : Inv api first machine)
    (control : machine.control = .run .waitForProgramHeader)
    (fits : FitsRequest api machine (.loader env)) :
    Inv api first (machine.waitForProgramHeader api) := by
  unfold Machine.waitForProgramHeader
  rcases machine.confirm_cases .zero with nothing | ⟨desc, a2f, received, filled, contents⟩
  · rw [nothing]
    exact ⟨⟨inv.safe.justified, inv.safe.memory, inv.safe.status⟩, trivial⟩
  · rw [received]
    dsimp only
    split
    case isTrue len =>
      have header : Fits api (.ofBytes desc.buff) := by
        rcases contents with ⟨cfm, front, same, data⟩ | ⟨-, zero⟩
        · have fits := (fits filled).2 control
          rw [front] at fits
          rw [data]
          exact fits (same ▸ len)
        · rw [zero] at len
          cases len
      have accepted := inv.safe.accepted machine.cntxt.softidInProgress (.ofBytes desc.buff)
      have counted := (packets_bounds header.toPacketed).1
      refine ⟨⟨accepted.justified, accepted.memory, accepted.status⟩, ?_, counted⟩
      refine ⟨rfl, header, rfl, fun place _ below => ?_⟩
      exact absurd below (by simp [Machine.attach, Machine.log, Machine.acceptProgramHeader])
    · exact ⟨⟨inv.safe.justified, inv.safe.memory, inv.safe.status⟩, trivial⟩

theorem requestProgram_inv (inv : Inv api first machine)
    (control : machine.control = .run .requestProgram) :
    Inv api first (machine.requestProgram api) := by
  have phase := inv.phase
  rw [Phase, control] at phase
  obtain ⟨loading, inside⟩ := phase
  unfold Machine.requestProgram
  dsimp only
  rw [if_pos (UInt16.le_iff_toNat_le.mpr (Nat.le_of_lt inside))]
  apply Machine.send_cases
  · refine ⟨⟨inv.safe.justified, inv.safe.memory, inv.safe.status⟩, ?_⟩
    rw [Phase, control]
    exact ⟨⟨loading.accepted, loading.fits, loading.total, loading.covered⟩, inside⟩
  · have sent := inv.safe.sent (.dataTransferReq (api.packetLen machine.cntxt)
      (machine.cntxt.startOffset + machine.cntxt.currPktCount.toUInt32 * api.dfuBuffSize)
      machine.cntxt.softidInProgress)
    refine ⟨⟨sent.justified, sent.memory, sent.status⟩, ?_⟩
    exact ⟨⟨loading.accepted, loading.fits, loading.total, loading.covered⟩, inside, rfl, rfl, rfl⟩

/-- The destination of the packet under way. -/
def SysLoaderCntxt.dst (cntxt : SysLoaderCntxt) : UInt32 :=
  cntxt.phyAddr + (cntxt.runningOffset - cntxt.startOffset)

theorem dst_toNat (loading : Loading api machine) (requested : Requested api machine)
    (inside : machine.cntxt.currPktCount.toNat < machine.cntxt.totalPkts.toNat) :
    machine.cntxt.dst.toNat = machine.cntxt.phyAddr.toNat +
      machine.cntxt.currPktCount.toNat * api.dfuBuffSize.toNat := by
  have ends := packet_end loading.fits.toPacketed loading.total inside
  have range := loading.fits.inside
  dsimp only at ends range
  obtain ⟨-, before, -⟩ := packets_bounds loading.fits.toPacketed
  rw [← loading.total] at before
  have offset : machine.cntxt.currPktCount.toNat * api.dfuBuffSize.toNat <
      machine.cntxt.fileSize.toNat :=
    Nat.lt_of_le_of_lt (Nat.mul_le_mul_right _ (by omega)) before
  have place : (machine.cntxt.currPktCount.toUInt32 * api.dfuBuffSize).toNat =
      machine.cntxt.currPktCount.toNat * api.dfuBuffSize.toNat := by
    rw [UInt32.toNat_mul, UInt16.toNat_toUInt32]
    exact Nat.mod_eq_of_lt (by omega)
  rw [SysLoaderCntxt.dst, requested.runningOffset, UInt32.add_comm machine.cntxt.startOffset,
    UInt32.add_sub_cancel, UInt32.toNat_add, place]
  exact Nat.mod_eq_of_lt (by omega)

/-- The packet under way lies in the segment, behind the packets that were written. -/
theorem packet_inRange (loading : Loading api machine) (requested : Requested api machine)
    (inside : machine.cntxt.currPktCount.toNat < machine.cntxt.totalPkts.toNat)
    (address : UInt32) :
    Mem.InRange machine.cntxt.dst (api.packetLen machine.cntxt).toNat address ↔
      machine.cntxt.phyAddr.toNat + machine.cntxt.currPktCount.toNat * api.dfuBuffSize.toNat ≤
          address.toNat ∧
        address.toNat < machine.cntxt.phyAddr.toNat + min machine.cntxt.fileSize.toNat
          ((machine.cntxt.currPktCount.toNat + 1) * api.dfuBuffSize.toNat) := by
  have ends := packet_end loading.fits.toPacketed loading.total inside
  have range := loading.fits.inside
  dsimp only at ends range
  rw [Mem.inRange_iff (by rw [dst_toNat loading requested inside]; omega),
    dst_toNat loading requested inside, Nat.add_assoc, ends]

/-- What is received for the request under way. -/
structure Answered (machine : Machine) (desc : RingDataDesc) (cfm : TransferCfm) : Prop where
  front : machine.a2f.front = .dataTransferCfm cfm
  dataLen : desc.dataLen = cfm.programLen
  buff : desc.buff = cfm.data
  programLen : cfm.programLen = machine.cntxt.progLen
  elfOffset : cfm.elfOffset = machine.cntxt.runningOffset
  softId : cfm.softId = machine.cntxt.softidInProgress

theorem Answered.justified {desc : RingDataDesc} {cfm : TransferCfm}
    (answered : Answered machine desc cfm) (loading : Loading api machine)
    (requested : Requested api machine)
    (inside : machine.cntxt.currPktCount.toNat < machine.cntxt.totalPkts.toNat) :
    Justified api machine.trace
      (.wrote machine.cntxt.dst desc.dataLen machine.a2f.front env.rramWriteStatus) := by
  intro _
  refine ⟨cfm, ⟨machine.cntxt.startOffset, machine.cntxt.phyAddr, machine.cntxt.fileSize⟩,
    answered.front, answered.dataLen.symm, ?_, ?_, fun address inRange => ?_⟩
  · rw [requested.sent, answered.programLen, answered.elfOffset, answered.softId]
  · rw [answered.softId]
    exact loading.accepted
  · rw [answered.dataLen, answered.programLen, requested.progLen,
      packet_inRange loading requested inside] at inRange
    dsimp only [ProgramHeader.Holds]
    omega

/-- The packet adds to what was written. -/
theorem Answered.covered {desc : RingDataDesc} {cfm : TransferCfm}
    (answered : Answered machine desc cfm) (loading : Loading api machine)
    (requested : Requested api machine)
    (inside : machine.cntxt.currPktCount.toNat < machine.cntxt.totalPkts.toNat)
    (written : env.rramWriteStatus = 0) :
    ∀ place < machine.cntxt.fileSize.toNat,
      place < (machine.cntxt.currPktCount.toNat + 1) * api.dfuBuffSize.toNat →
        ∃ address : UInt32, address.toNat = machine.cntxt.phyAddr.toNat + place ∧
          Covered address (.wrote machine.cntxt.dst desc.dataLen machine.a2f.front
            env.rramWriteStatus :: machine.trace) := by
  intro place below early
  have range := loading.fits.inside
  dsimp only at range
  by_cases before : place < machine.cntxt.currPktCount.toNat * api.dfuBuffSize.toNat
  · obtain ⟨address, there, old⟩ := loading.covered place below before
    exact ⟨address, there, .inr old⟩
  · have there : (UInt32.ofNat (machine.cntxt.phyAddr.toNat + place)).toNat =
        machine.cntxt.phyAddr.toNat + place := by
      rw [UInt32.toNat_ofNat']
      exact Nat.mod_eq_of_lt (by omega)
    refine ⟨_, there, .inl ⟨written, ?_⟩⟩
    rw [answered.dataLen, answered.programLen, requested.progLen,
      packet_inRange loading requested inside, there]
    omega

theorem currPktCount_succ {cntxt : SysLoaderCntxt}
    (inside : cntxt.currPktCount.toNat < cntxt.totalPkts.toNat) :
    (cntxt.currPktCount + 1).toNat = cntxt.currPktCount.toNat + 1 := by
  have top := cntxt.totalPkts.toNat_lt
  rw [UInt16.toNat_add]
  exact Nat.mod_eq_of_lt (show _ + 1 < 65536 by omega)

/-- An answer that fits is written to its place, which ends the packet. -/
theorem waitForProgram_inv (inv : Inv api first machine)
    (control : machine.control = .run .waitForProgram)
    (fits : FitsRequest api machine (.loader env)) :
    Inv api first (machine.waitForProgram env) := by
  have phase := inv.phase
  rw [Phase, control] at phase
  obtain ⟨loading, inside, requested⟩ := phase
  unfold Machine.waitForProgram
  rcases machine.confirm_cases .zero with nothing | ⟨desc, a2f, received, filled, contents⟩
  · rw [nothing]
    exact inv
  · rw [received]
    dsimp only
    have answers := (fits filled).1 control
    obtain ⟨cfm, front, dataLen, buff⟩ | ⟨no, -⟩ := contents
    case inr =>
      unfold Answers at answers
      split at answers
      · exact absurd ‹_› (no _)
      · exact answers.elim
    rw [front] at answers
    obtain ⟨written, len, offset, softId⟩ := answers
    have answered : Answered machine desc cfm := ⟨front, dataLen, buff, len, offset, softId⟩
    have count := currPktCount_succ inside
    have covered := answered.covered loading requested inside written
    rw [← count] at covered
    refine ⟨⟨?_, ?_, fun resource done => ?_⟩, ?_⟩
    · exact justified_cons inv.safe.justified (answered.justified loading requested inside)
    · show machine.memory.write _ _ desc.buff = (replay first.memory machine.trace).write _ _ _
      rw [inv.safe.memory, front, answered.buff]
      rfl
    · exact (inv.safe.status resource done).imp_right (List.mem_cons_of_mem _)
    · rw [Phase]
      dsimp only
      split
      · rename_i goes
        split at goes
        · rename_i more
          exact ⟨⟨loading.accepted, loading.fits, loading.total, covered⟩,
            UInt16.lt_iff_toNat_lt.mp more⟩
        · cases goes
      · rename_i goes
        split at goes <;> cases goes
      · rename_i goes
        split at goes
        · cases goes
        · rename_i all
          exact ⟨⟨loading.accepted, loading.fits, loading.total, covered⟩,
            UInt16.le_iff_toNat_le.mp (UInt16.not_lt.mp all)⟩
      · rename_i goes
        split at goes <;> cases goes
      · trivial

theorem resourceTransferCompleted_inv (inv : Inv api first machine)
    (control : machine.control = .run .resourceTransferCompleted) :
    Inv api first (machine.resourceTransferCompleted api) := by
  have sent := inv.safe.sent (.dataTransferDoneInd machine.cntxt.softidInProgress)
  have phase := inv.phase
  rw [Phase, control] at phase
  obtain ⟨loading, all⟩ := phase
  unfold Machine.resourceTransferCompleted
  apply Machine.send_cases inv
  refine ⟨⟨sent.justified, sent.memory, sent.status⟩, ?_⟩
  exact ⟨⟨loading.accepted, loading.fits, loading.total, loading.covered⟩, all⟩

/-- Behind the last packet every byte of the segment was written. -/
theorem Loading.complete (loading : Loading api machine)
    (all : machine.cntxt.totalPkts.toNat ≤ machine.cntxt.currPktCount.toNat) :
    ∀ place < machine.cntxt.fileSize.toNat, ∃ address : UInt32,
      address.toNat = machine.cntxt.phyAddr.toNat + place ∧ Covered address machine.trace := by
  intro place below
  obtain ⟨-, -, behind⟩ := packets_bounds loading.fits.toPacketed
  rw [← loading.total] at behind
  have more := Nat.mul_le_mul_right api.dfuBuffSize.toNat all
  dsimp only at behind
  exact loading.covered place below (by omega)

theorem finish_safe {softId : UInt8} (safe : Safe api first machine)
    (whole : ∀ resource, api.resourceOf softId = some resource →
      Justified api machine.trace (.finished resource)) :
    Safe api first (machine.finish api softId) := by
  unfold Machine.finish
  split
  · exact safe
  · rename_i resource found
    refine ⟨justified_cons safe.justified (whole resource found), safe.memory, fun other done => ?_⟩
    by_cases same : other = resource
    · exact .inr (same ▸ List.mem_cons_self)
    · have before : machine.dfuStatus other = .finished :=
        (Function.update_of_ne same _ machine.dfuStatus).symm.trans done
      exact (safe.status other before).imp_right (List.mem_cons_of_mem _)

theorem resourceTransferConfirm_inv (inv : Inv api first machine)
    (control : machine.control = .run .resourceTransferConfirm) :
    Inv api first (machine.resourceTransferConfirm api) := by
  have phase := inv.phase
  rw [Phase, control] at phase
  obtain ⟨loading, all⟩ := phase
  unfold Machine.resourceTransferConfirm
  rcases machine.recieveDfuTransferDoneRsp_cases with nothing | ⟨moreResource, response⟩
  · rw [nothing]
    exact inv
  · rw [response]
    have released : Safe api first machine.release :=
      ⟨inv.safe.justified, inv.safe.memory, inv.safe.status⟩
    have finished := finish_safe released fun resource found =>
      ⟨machine.cntxt.softidInProgress, _, found, loading.accepted, loading.complete all⟩
    refine ⟨⟨finished.justified, finished.memory, finished.status⟩, ?_⟩
    rw [Phase]
    dsimp only
    by_cases more : moreResource ≠ 0
    · rw [if_pos more]
      trivial
    · rw [if_neg more]
      by_cases wlan : machine.release.cntxt.softidInProgress ≥ api.wlanImgId
      · rw [if_pos wlan]
        trivial
      · rw [if_neg wlan]
        trivial

theorem sendRebootCmd_inv (inv : Inv api first machine) :
    Inv api first (machine.sendRebootCmd api) := by
  have sent := inv.safe.sent .rebootReq
  unfold Machine.sendRebootCmd
  apply Machine.send_cases inv
  exact ⟨⟨sent.justified, sent.memory, sent.status⟩, trivial⟩

/-- A pass of the loader. -/
theorem sysLoader_inv (inv : Inv api first machine)
    (fits : FitsRequest api machine (.loader env)) : Inv api first (machine.sysLoader api env) := by
  unfold Machine.sysLoader
  split
  case h_1 => exact waitForDfu_inv inv
  case h_2 => exact checkForDfuBitmap_inv inv
  case h_3 control => exact requestElfHeader_inv inv control
  case h_4 => exact waitForElfHeader_inv inv
  case h_5 => exact requestProgramHeader_inv inv
  case h_6 control => exact waitForProgramHeader_inv inv control fits
  case h_7 control => exact requestProgram_inv inv control
  case h_8 control => exact waitForProgram_inv inv control fits
  case h_9 control => exact resourceTransferCompleted_inv inv control
  case h_10 control => exact resourceTransferConfirm_inv inv control
  case h_11 => exact sendRebootCmd_inv inv
  case h_12 => exact ⟨⟨inv.safe.justified, inv.safe.memory, inv.safe.status⟩, trivial⟩
  case h_13 =>
    split
    · exact ⟨⟨inv.safe.justified, inv.safe.memory, inv.safe.status⟩, trivial⟩
    · exact inv
  case h_14 => exact ⟨⟨inv.safe.justified, inv.safe.memory, inv.safe.status⟩, trivial⟩
  case h_15 => exact inv

end Passes

theorem Phase.rings {machine : Machine} (phase : Phase api machine) (a2f : Ring A2fMessage)
    (f2a : Ring F2aMessage) : Phase api { machine with a2f, f2a } := by
  unfold Phase at *
  dsimp only
  split <;> rename_i control
  · rw [control] at phase
    obtain ⟨loading, inside⟩ := phase
    exact ⟨⟨loading.accepted, loading.fits, loading.total, loading.covered⟩, inside⟩
  · rw [control] at phase
    obtain ⟨loading, inside, requested⟩ := phase
    exact ⟨⟨loading.accepted, loading.fits, loading.total, loading.covered⟩, inside,
      requested.progLen, requested.runningOffset, requested.sent⟩
  · rw [control] at phase
    obtain ⟨loading, all⟩ := phase
    exact ⟨⟨loading.accepted, loading.fits, loading.total, loading.covered⟩, all⟩
  · rw [control] at phase
    obtain ⟨loading, all⟩ := phase
    exact ⟨⟨loading.accepted, loading.fits, loading.total, loading.covered⟩, all⟩
  · trivial

/-- A move of the host changes the rings only. -/
theorem Inv.step {first machine next : Machine} {action : Action} (inv : Inv api first machine)
    (fits : FitsRequest api machine action) (stepped : step api machine action = some next) :
    Inv api first next := by
  cases action with
  | loader env =>
      cases stepped
      exact sysLoader_inv inv fits
  | take =>
      rw [SysLoader.step] at stepped
      split at stepped
      · cases stepped
      · cases stepped
        exact ⟨⟨inv.safe.justified, inv.safe.memory, inv.safe.status⟩, inv.phase.rings _ _⟩
  | put len message =>
      rw [SysLoader.step] at stepped
      split at stepped
      · cases stepped
        exact ⟨⟨inv.safe.justified, inv.safe.memory, inv.safe.status⟩, inv.phase.rings _ _⟩
      · cases stepped

theorem Inv.start (request : A2fMessage) (reply : F2aMessage) (cntxt : SysLoaderCntxt)
    (dfuStatus : Resource → DfuStatus) (memory : Mem UInt8) :
    Inv api (.start request reply cntxt dfuStatus memory)
      (.start request reply cntxt dfuStatus memory) where
  safe := ⟨fun event past suffix => by simp [Machine.start] at suffix, rfl, fun _ done => .inl done⟩
  phase := trivial

/-- With any host, and any results of the RRAM, a run in which what is received fits writes only
data that answers the outstanding request, only into the segment that was accepted, and finishes a
resource only behind all its bytes. -/
theorem run_safe (api : Api) (request : A2fMessage) (reply : F2aMessage) (cntxt : SysLoaderCntxt)
    (dfuStatus : Resource → DfuStatus) (memory : Mem UInt8) {actions : List Action}
    {last : Machine}
    (fits : Runs.Meets (step api) (FitsRequest api)
      (.start request reply cntxt dfuStatus memory) actions)
    (run : Runs.exec (step api) (.start request reply cntxt dfuStatus memory) actions =
      some last) :
    Safe api (.start request reply cntxt dfuStatus memory) last :=
  (Runs.invariant (fun _ _ _ inv fits stepped => Inv.step inv fits stepped)
    (Inv.start request reply cntxt dfuStatus memory) fits run).safe

section Examples

/-- Single bits for the resources, and packets of 16 bytes. -/
def sixteenByteApi : Api where
  sblId := 1
  wlanImgId := 2
  bdfId := 4
  regdbId := 8
  wlanIni := 16
  maxDfuDataLen := 16
  sizeOf _ := 16
  positive := by decide
  fits := by decide

def blankCntxt : SysLoaderCntxt := ⟨0, 0, 0, 0, 0, 0, 0, 0, 0, 0⟩

def blankStart : Machine :=
  .start .other .dfuCfm blankCntxt (fun _ => .other 0) (fun _ => 0xFF)

/-- An ELF header whose program header comes next. -/
def ehdrBytes (i : Nat) : UInt8 := if i = 28 then 52 else if i = 44 then 1 else 0

/-- A segment of 20 bytes at offset 84 for the address 0x210000. -/
def phdrBytes (i : Nat) : UInt8 :=
  if i = 4 then 84 else if i = 14 then 0x21 else if i = 16 then 20 else 0

def pass : Action := .loader ⟨0, .zero⟩

/-- The host takes a request and confirms it. -/
def confirms (programLen elfOffset : UInt32) (data : Nat → UInt8) : List Action :=
  [.take, .put 0 (.dataTransferCfm ⟨programLen, elfOffset, 2, data⟩), pass]

/-- The WLAN image is asked for, up to the first request of program data. -/
def untilProgram : List Action :=
  [.put 0 (.dfuReq 2), pass, pass, .take, pass] ++ confirms 52 0 ehdrBytes ++ [pass] ++
    confirms 32 52 phdrBytes ++ [pass]

/-- Two packets, of 16 and of 4 bytes, and the end of the transfer. -/
def twoPackets : List Action :=
  untilProgram ++ confirms 16 84 (fun _ => 0xA5) ++ [pass] ++ confirms 4 100 (fun _ => 0x5A) ++
    [pass, .take, .put 0 (.dataTransferDoneRsp 0), pass]

theorem run_safe_two_packets :
    ∃ last, Runs.exec (step sixteenByteApi) blankStart twoPackets = some last ∧
      last.dfuStatus .wlanImg = .finished ∧ Safe sixteenByteApi blankStart last :=
  ⟨_, rfl, rfl, run_safe sixteenByteApi .other .dfuCfm blankCntxt _ _
    (by decide +kernel : Runs.Meets (step sixteenByteApi) (FitsRequest sixteenByteApi) blankStart
      twoPackets) rfl⟩

/-- A confirmation of 32 bytes for a request of 16 is written in whole, over the end of a segment
of 20 bytes. -/
theorem run_writes_unasked :
    ¬ ∀ (api : Api) (request : A2fMessage) (reply : F2aMessage) (cntxt : SysLoaderCntxt)
      (dfuStatus : Resource → DfuStatus) (memory : Mem UInt8) (actions : List Action)
      (last : Machine),
      Runs.exec (step api) (.start request reply cntxt dfuStatus memory) actions = some last →
        Safe api (.start request reply cntxt dfuStatus memory) last := by
  intro safe
  have run := safe sixteenByteApi .other .dfuCfm blankCntxt (fun _ => .other 0) (fun _ => 0xFF)
    (untilProgram ++ confirms 32 84 fun _ => 0xA5) _ rfl
  have justified := run.justified _ _ (List.suffix_refl _)
  obtain ⟨cfm, header, message, -, asked, -⟩ := justified (by decide)
  cases message
  cases asked

end Examples

end QHal.SysLoader
