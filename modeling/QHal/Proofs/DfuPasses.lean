/-
Module: QHal.Proofs.DfuPasses
Purpose: What each pass of the loader does with an honest host: it goes on to the next stage of the
  run, or it has to wait for the host; and that a move of the host leaves the stage as it is.
Trusted boundary: none
Main exports: At, Goes, System.Apart, Meets, At.goes, At.stays
-/
import QHal.Proofs.DfuChannel
import QHal.Proofs.DfuStages

namespace QHal.SysLoader

open Boot (le32 le32_congr)

variable {api : Api}

/-! ## Messages -/

namespace Machine

variable {machine : Machine}

theorem send_empty (empty : machine.f2a.Empty) (message : F2aMessage)
    (behind : Machine → Machine) :
    machine.send api message behind =
      behind ({ machine with f2a := machine.f2a.put (api.sizeOf message) message }.log
        (.sent message)) :=
  if_pos empty.checkOccupancy

theorem send_full {waits : F2aMessage} (full : machine.f2a.Single waits) (message : F2aMessage)
    (behind : Machine → Machine) : machine.send api message behind = machine :=
  if_neg (Bool.eq_false_iff.mp full.checkOccupancy)

theorem release_empty {message : A2fMessage} (single : machine.a2f.Single message) :
    machine.release.a2f.Empty :=
  (single.setLen _ _).increment

theorem recieveDfuReq_empty (empty : machine.a2f.Empty) : machine.recieveDfuReq = none :=
  if_pos empty.checkEmpty

theorem recieveDfuReq_single {bitmap : UInt8} (single : machine.a2f.Single (.dfuReq bitmap)) :
    machine.recieveDfuReq = some (bitmap, machine.release) := by
  unfold recieveDfuReq
  rw [single.checkEmpty, single.front]
  rfl

theorem recieveDfuTransferDoneRsp_empty (empty : machine.a2f.Empty) :
    machine.recieveDfuTransferDoneRsp = none :=
  if_pos empty.checkEmpty

theorem recieveDfuTransferDoneRsp_single {moreResource : UInt8}
    (single : machine.a2f.Single (.dataTransferDoneRsp moreResource)) :
    machine.recieveDfuTransferDoneRsp = some (moreResource, machine.release) := by
  unfold recieveDfuTransferDoneRsp
  rw [single.checkEmpty, single.front]
  rfl

theorem confirm_empty (empty : machine.a2f.Empty) (desc : RingDataDesc) :
    machine.recieveDfuDataTransferConfirm desc = none :=
  if_pos empty.checkEmpty

theorem confirm_single {cfm : TransferCfm} (single : machine.a2f.Single (.dataTransferCfm cfm))
    (desc : RingDataDesc) :
    ∃ index a2f, a2f.Empty ∧
      machine.recieveDfuDataTransferConfirm desc =
        some (⟨index, cfm.programLen, cfm.data⟩, { machine with a2f }) := by
  refine ⟨machine.a2f.readIdx.val.toUInt8, _,
    (single.setLen machine.a2f.readIdx 0).increment, ?_⟩
  unfold recieveDfuDataTransferConfirm
  rw [single.checkEmpty, single.front]
  rfl

end Machine

/-! ## Where a run is -/

local instance neZero_two : NeZero (2 : Nat) := ⟨by decide⟩

/-- Behind a poll that found nothing a message waits in the other element than the first one. -/
def Turned (machine : Machine) : Prop :=
  machine.control = .attaching → machine.a2f.checkEmpty = false → machine.a2f.readIdx ≠ 0

theorem Turned.of_run {machine : Machine} {state : SysImgLoadState}
    (control : machine.control = .run state) : Turned machine := by
  intro attaching
  rw [control] at attaching
  cases attaching

/-- A run has come to a stage. -/
structure At (host : Host api) (memory : Mem UInt8) (stage : Stage) (system : System) : Prop where
  log : system.machine.trace = stage.log host
  copied : system.machine.memory = stage.memory host memory
  fits : stage.Fits host system.machine.control system.machine.cntxt
  channel : Channel host (stage.awaits host) system
  turned : Turned system.machine

/-- What a move leaves of a run: it is in a later stage, or the exchange has less to do, or nothing
changes and it was not the helpful party. -/
structure Goes (host : Host api) (memory : Mem UInt8) (stage : Stage) (party : Party)
    (system next : System) : Prop where
  kept : RingsKept system.machine next.machine
  goes : ∃ later, At host memory later next ∧
    (later.toDo host < stage.toDo host ∨
      later = stage ∧ (next.weight < system.weight ∨
        next.weight = system.weight ∧ next.helpful = system.helpful ∧ party ≠ system.helpful))

/-- The loader's machine goes on. -/
def System.to (system : System) (machine : Machine) : System := { system with machine }

section Moves

variable {host : Host api} {memory : Mem UInt8} {stage : Stage} {system : System}
  {later : Machine}

/-- The loader has to wait, and remembers as much of the stage as before. -/
theorem At.waits (here : At host memory stage system)
    (idle : System.PassIdle host (stage.awaits host) system later)
    (trace : later.trace = system.machine.trace) (copied : later.memory = system.machine.memory)
    (kept : RingsKept system.machine later)
    (fits : stage.Fits host later.control later.cntxt) (turned : Turned later) :
    Goes host memory stage .loader system { system with machine := later } where
  kept := kept
  goes :=
    ⟨stage, ⟨trace.trans here.log, copied.trans here.copied, fits, idle.channel, turned⟩,
      .inr ⟨rfl, .inr ⟨idle.weight, idle.helpful, idle.other⟩⟩⟩

/-- The ring to the host is full. -/
theorem At.blocked (here : At host memory stage system) (nothing : stage.awaits host = none)
    {message : F2aMessage} (full : system.machine.f2a.Single message) {cntxt : SysLoaderCntxt}
    (fits : stage.Fits host system.machine.control cntxt) :
    Goes host memory stage .loader system
      { system with machine := { system.machine with cntxt } } := by
  have channel := here.channel
  rw [nothing] at channel
  refine here.waits ?_ rfl rfl (.of_eq rfl rfl) fits here.turned
  rw [nothing]
  exact System.blocked channel full rfl rfl

/-- The answer is not there yet. -/
theorem At.unanswered (here : At host memory stage system) {answer : A2fMessage}
    (awaits : stage.awaits host = some answer) (empty : system.machine.a2f.Empty) :
    Goes host memory stage .loader system system := by
  have channel := here.channel
  rw [awaits] at channel
  refine here.waits ?_ rfl rfl (.of_eq rfl rfl) here.fits here.turned
  rw [awaits]
  exact System.waiting channel empty empty rfl

/-- A message is sent, and the run goes on. -/
theorem At.sends (here : At host memory stage system) (nothing : stage.awaits host = none)
    (empty : system.machine.f2a.Empty) (next : Stage) {message : F2aMessage} {len : UInt16}
    {state : SysImgLoadState} (answers : host.answer message = next.awaits host)
    (a2f : later.a2f = system.machine.a2f)
    (f2a : later.f2a = system.machine.f2a.put len message)
    (log : later.trace = next.log host) (copied : later.memory = next.memory host memory)
    (control : later.control = .run state) (fits : next.Fits host (.run state) later.cntxt)
    (less : next.toDo host < stage.toDo host) :
    Goes host memory stage .loader system { system with machine := later } := by
  have channel := here.channel
  rw [nothing] at channel
  refine ⟨.of_sent empty a2f, next, ⟨log, copied, control ▸ fits, ?_, .of_run control⟩, .inl less⟩
  cases awaits : next.awaits host with
  | none => exact System.told channel empty (answers.trans awaits) a2f f2a
  | some answer => exact System.asked channel empty (answers.trans awaits) a2f f2a

/-- A message is sent if there is room for it, else the loader has to wait. -/
theorem At.sending (here : At host memory stage system) (nothing : stage.awaits host = none)
    {cntxt : SysLoaderCntxt} (stays : stage.Fits host system.machine.control cntxt) (next : Stage)
    {message : F2aMessage} {state : SysImgLoadState}
    (answers : host.answer message = next.awaits host)
    (log : .sent message :: stage.log host = next.log host)
    (copied : stage.memory host memory = next.memory host memory)
    (fits : next.Fits host (.run state) cntxt) (less : next.toDo host < stage.toDo host) :
    Goes host memory stage .loader system
      (system.to (({ system.machine with cntxt } : Machine).send api message
        fun machine => machine.goto state)) := by
  have ring : ({ system.machine with cntxt } : Machine).f2a = system.machine.f2a := rfl
  rcases system.machine.f2a.empty_or_single with empty | full
  · rw [← ring] at empty
    rw [Machine.send_empty empty]
    exact here.sends nothing empty next answers rfl rfl ((congrArg _ here.log).trans log)
      (here.copied.trans copied) rfl fits less
  · rw [← ring] at full
    rw [Machine.send_full full]
    exact here.blocked nothing full stays

/-- An answer is received, and the run goes on. -/
theorem At.receives (here : At host memory stage system) {answer : A2fMessage}
    (awaits : stage.awaits host = some answer) (single : system.machine.a2f.Single answer)
    (next : Stage) {state : SysImgLoadState} (nothing : next.awaits host = none)
    (a2f : later.a2f.Empty) (f2a : later.f2a = system.machine.f2a)
    (log : later.trace = next.log host) (copied : later.memory = next.memory host memory)
    (control : later.control = .run state) (fits : next.Fits host (.run state) later.cntxt)
    (less : next.toDo host < stage.toDo host) :
    Goes host memory stage .loader system { system with machine := later } := by
  have channel := here.channel
  rw [awaits] at channel
  refine ⟨.of_received a2f f2a, next, ⟨log, copied, control ▸ fits, ?_, .of_run control⟩, .inl less⟩
  rw [nothing]
  exact System.received channel single a2f f2a

/-- The loader turns to another stage without a message. -/
theorem At.turns (here : At host memory stage system) (next : Stage) {state : SysImgLoadState}
    (nothing : stage.awaits host = none) (still : next.awaits host = none)
    (same : { system.machine with control := .run state } = later)
    (log : next.log host = stage.log host)
    (copied : next.memory host memory = stage.memory host memory)
    (fits : next.Fits host (.run state) system.machine.cntxt)
    (less : next.toDo host < stage.toDo host) :
    Goes host memory stage .loader system { system with machine := later } := by
  subst same
  have channel := here.channel
  rw [nothing] at channel
  refine ⟨.of_eq rfl rfl, next, ⟨here.log.trans log.symm, here.copied.trans copied.symm, fits, ?_,
    .of_run rfl⟩, .inl less⟩
  rw [still]
  exact System.still channel rfl rfl

end Moves

/-! ## The passes -/

section Passes

variable {host : Host api} {memory : Mem UInt8} {system : System} {older rest : List UInt8}
  {softId : UInt8}

theorem asking_goes (here : At host memory .asking system) :
    Goes host memory .asking .loader system (system.to system.machine.waitForDfu) := by
  unfold Machine.waitForDfu
  rcases System.pending_a2f here.channel with empty | single
  · rw [Machine.recieveDfuReq_empty empty]
    exact here.unanswered rfl empty
  · rw [Machine.recieveDfuReq_single single]
    exact here.receives rfl single .confirming rfl (Machine.release_empty single) rfl here.log
      here.copied rfl ⟨rfl, rfl⟩ (Nat.lt_succ_self _)

theorem confirming_goes (wanted : Wanted api host.bitmap)
    (here : At host memory .confirming system) :
    Goes host memory .confirming .loader system
      (system.to (system.machine.checkForDfuBitmap api)) := by
  unfold Machine.checkForDfuBitmap
  rcases system.machine.f2a.empty_or_single with empty | full
  · rw [Machine.send_empty empty]
    have some : ¬ system.machine.cntxt.softidDfuBitmap = 0 := by
      rw [here.fits.2]
      exact wanted.some
    split
    case isTrue zero => exact absurd zero some
    case isFalse =>
      exact here.sends rfl empty (.choosing [] (api.named host.bitmap)) rfl rfl rfl
        (congrArg _ here.log) here.copied rfl
        ⟨rfl, here.fits.2, Left.start wanted, rfl⟩ (Nat.lt_succ_self _)
  · rw [Machine.send_full full]
    exact here.blocked rfl full here.fits

theorem nextSoftId_zero (api : Api) : api.nextSoftId 0 = none := by
  simp [Api.nextSoftId]

theorem choosing_goes (bits : DistinctBits api)
    (here : At host memory (.choosing older rest) system) :
    Goes host memory (.choosing older rest) .loader system
      (system.to (system.machine.requestElfHeader api)) := by
  obtain ⟨control, progress⟩ := here.fits
  unfold Machine.requestElfHeader
  dsimp only
  cases rest with
  | nil =>
      have all : (api.named host.bitmap).reverse = older := by
        rw [← progress.all, List.append_nil, List.reverse_reverse]
      have zero : system.machine.cntxt.softidDfuBitmap ^^^
          system.machine.cntxt.softidDfuDoneBitmap = 0 := by
        rw [progress.bitmap]
        exact progress.left.nothing
      rw [zero, nextSoftId_zero]
      dsimp only
      rw [if_pos rfl]
      exact here.turns .rebooting rfl rfl rfl (congrArg host.history all)
        (congrArg (host.copied memory) all) rfl (Nat.lt_succ_self _)
  | cons softId rest =>
      have next : api.nextSoftId (system.machine.cntxt.softidDfuBitmap ^^^
          system.machine.cntxt.softidDfuDoneBitmap) = some softId := by
        rw [progress.bitmap]
        exact progress.left.nextSoftId bits
      rw [next]
      refine here.sending rfl ?_ (.inside older softId rest .elfWait) rfl rfl rfl ?_ ?_
      · exact ⟨control, progress.bitmap, progress.left, progress.all⟩
      · exact ⟨⟨progress.bitmap, progress.left, progress.all⟩, rfl, rfl⟩
      · simp only [Stage.toDo, Inner.toDo, Host.passes, List.map_cons, List.sum_cons]
        omega

/-! ## The headers -/

theorem confirm_data {programLen elfOffset : UInt32} {i : Nat} (inside : i < programLen.toNat) :
    (host.confirm programLen elfOffset softId).data i =
      (host.file softId).byte (elfOffset.toNat + i) :=
  if_pos inside

/-- A number in the bytes that were asked for. -/
theorem confirm_le32 {programLen elfOffset : UInt32} {offset : Nat}
    (inside : offset + 4 ≤ programLen.toNat) :
    le32 (host.confirm programLen elfOffset softId).data offset =
      le32 (fun i => (host.file softId).byte (elfOffset.toNat + i)) offset := by
  apply le32_congr
  intro i below
  exact confirm_data (by omega)

theorem elfHeader_phoff :
    le32 (host.confirm sizeofEhdr 0 softId).data 28 = (host.file softId).phoff := by
  rw [confirm_le32 (by decide)]
  unfold ImageFile.phoff ePhoff
  apply le32_congr
  intro i _
  exact congrArg _ (Nat.zero_add _)

theorem elfHeader_phnum :
    ((host.confirm sizeofEhdr 0 softId).data 44).toUInt32 +
        256 * ((host.confirm sizeofEhdr 0 softId).data 45).toUInt32 = 1 := by
  obtain ⟨low, high⟩ := (host.file softId).ePhnum
  rw [confirm_data (by decide), confirm_data (by decide)]
  have zero : ∀ i, (0 : UInt32).toNat + i = i := Nat.zero_add
  rw [zero, zero, low, high]
  decide

theorem programHeader_eq :
    ProgramHeader.ofBytes (host.confirm sizeofPhdr (host.file softId).phoff softId).data =
      (host.file softId).header := by
  unfold ProgramHeader.ofBytes
  rw [confirm_le32 (by decide), confirm_le32 (by decide), confirm_le32 (by decide)]
  rfl

/-- The ELF header says where the program header is. -/
theorem elfWait_goes {env : Env}
    (here : At host memory (.inside older softId rest .elfWait) system) :
    Goes host memory (.inside older softId rest .elfWait) .loader system
      (system.to (system.machine.waitForElfHeader env)) := by
  obtain ⟨progress, softid, -⟩ := here.fits
  unfold Machine.waitForElfHeader
  rcases System.pending_a2f here.channel with empty | single
  · rw [Machine.confirm_empty empty]
    exact here.unanswered rfl empty
  · obtain ⟨index, a2f, drained, request⟩ := Machine.confirm_single single env.stale
    have len : (host.confirm sizeofEhdr 0 softId).programLen = sizeofEhdr := rfl
    rw [request]
    dsimp only
    rw [if_pos len]
    refine here.receives rfl single (.inside older softId rest .headerSend) rfl
      (drained.attach index) rfl here.log here.copied rfl ?_ ?_
    · refine ⟨⟨progress.bitmap, progress.left, progress.all⟩, softid, rfl, ?_, elfHeader_phoff⟩
      show _ * sizeofPhdr = sizeofPhdr
      rw [elfHeader_phnum]
      rfl
    · exact Nat.add_lt_add_right (Nat.lt_succ_self _) _

theorem headerSend_goes (here : At host memory (.inside older softId rest .headerSend) system) :
    Goes host memory (.inside older softId rest .headerSend) .loader system
      (system.to (system.machine.requestProgramHeader api)) := by
  obtain ⟨progress, softid, control, requests⟩ := here.fits
  have message : F2aMessage.dataTransferReq system.machine.cntxt.progLen
      system.machine.cntxt.runningOffset system.machine.cntxt.softidInProgress =
        host.headerReq softId := by
    rw [requests.progLen, requests.runningOffset, softid]
    rfl
  unfold Machine.requestProgramHeader
  dsimp only
  rw [message]
  refine here.sending rfl here.fits (.inside older softId rest .headerWait) rfl rfl rfl ?_ ?_
  · exact ⟨progress, softid, .inl rfl⟩
  · exact Nat.add_lt_add_right (Nat.lt_succ_self _) _

/-- The loader polls for the program header. -/
theorem headerWait_goes (here : At host memory (.inside older softId rest .headerWait) system) :
    Goes host memory (.inside older softId rest .headerWait) .loader system
      (system.to (system.machine.waitForProgramHeader api)) := by
  obtain ⟨progress, softid, -⟩ := here.fits
  unfold Machine.waitForProgramHeader
  rcases System.pending_a2f here.channel with empty | single
  · rw [Machine.confirm_empty empty]
    have pending : Pending host _ system := here.channel
    refine here.waits ?_ rfl rfl (.of_eq rfl rfl) ⟨progress, softid, .inr rfl⟩ ?_
    · exact System.waiting pending empty empty rfl
    · intro _ filled
      rw [empty.checkEmpty] at filled
      cases filled
  · obtain ⟨index, a2f, drained, request⟩ := Machine.confirm_single single .zero
    have len : (host.confirm sizeofPhdr (host.file softId).phoff softId).programLen = sizeofPhdr :=
      rfl
    rw [request]
    dsimp only
    rw [if_pos len, programHeader_eq]
    refine here.receives rfl single (.inside older softId rest (.dataSend 0)) rfl
      (drained.attach index) rfl ?_ ?_ rfl ?_ ?_
    · exact congrArg₂ _ (congrArg (Event.accepted · _) softid) here.log
    · exact here.copied.trans (host.written_zero softId _).symm
    · refine ⟨⟨progress.bitmap, progress.left, progress.all⟩, softid, rfl, rfl, rfl, rfl, rfl, rfl,
        (packets_bounds (host.file softId).packeted).1⟩
    · exact Nat.add_lt_add_right (Nat.lt_succ_self _) _

/-- The buffer is attached to the first element, behind a poll that found nothing. -/
theorem attaching_goes (here : At host memory (.inside older softId rest .headerWait) system)
    (control : system.machine.control = .attaching) :
    Goes host memory (.inside older softId rest .headerWait) .loader system
      (system.to { system.machine.attach .zero with control := .run .waitForProgramHeader }) := by
  obtain ⟨progress, softid, -⟩ := here.fits
  have fits : Stage.Fits host (.run .waitForProgramHeader) system.machine.cntxt
      (.inside older softId rest .headerWait) := ⟨progress, softid, .inl rfl⟩
  have pending : Pending host _ system := here.channel
  rcases System.pending_a2f pending with empty | single
  · have attached := empty.attach 0
    exact here.waits (System.waiting pending empty attached rfl) rfl rfl
      (.of_received attached rfl) fits (.of_run rfl)
  · have attached := single.attach 0
    have apart := here.turned control single.checkEmpty
    obtain ⟨channel, lighter⟩ := System.attached
      { system.machine.attach .zero with control := .run .waitForProgramHeader } pending single
      attached rfl control fun same => Control.noConfusion same
    exact ⟨⟨.attach_zero fun _ => apart, .refl _⟩, _,
      ⟨here.log, here.copied, fits, channel, .of_run rfl⟩, .inr ⟨rfl, .inl lighter⟩⟩

/-! ## The program data -/

section Data

variable {file : ImageFile api} {k : Nat} {cntxt : SysLoaderCntxt}

theorem Loads.packetLen (loads : Loads file k cntxt) : api.packetLen cntxt = file.packetLen k := by
  have packeted : Packeted api cntxt.fileSize := loads.fileSize ▸ file.packeted
  have total : cntxt.totalPkts = api.packetsOf cntxt.fileSize := by
    rw [loads.fileSize]
    exact loads.totalPkts
  have inside : cntxt.currPktCount.toNat < cntxt.totalPkts.toNat := by
    rw [loads.currPktCount, loads.totalPkts]
    exact loads.inside
  have ends := packet_end packeted total inside
  rw [loads.currPktCount, loads.fileSize] at ends
  obtain ⟨start, -⟩ := file.packetStart_inside loads.inside
  have next : file.packetStart (k + 1) =
      min file.header.filesz.toNat ((k + 1) * api.dfuBuffSize.toNat) := rfl
  apply UInt32.toNat_inj.mp
  rw [file.packetLen_toNat, next, start]
  omega

theorem packetOffset_eq (file : ImageFile api) (k : Nat) :
    file.packetOffset k = file.header.offset + UInt32.ofNat (file.packetStart k) := by
  rw [ImageFile.packetOffset, UInt32.ofNat_add, UInt32.ofNat_toNat]

theorem Loads.packetOffset (loads : Loads file k cntxt) :
    cntxt.startOffset + cntxt.currPktCount.toUInt32 * api.dfuBuffSize = file.packetOffset k := by
  obtain ⟨start, -⟩ := file.packetStart_inside loads.inside
  have count : cntxt.currPktCount.toUInt32 = UInt32.ofNat k := by
    apply UInt32.toNat_inj.mp
    have small := cntxt.currPktCount.toNat_lt
    rw [UInt16.toNat_toUInt32, loads.currPktCount, UInt32.toNat_ofNat']
    rw [loads.currPktCount] at small
    exact (Nat.mod_eq_of_lt (by omega)).symm
  rw [packetOffset_eq, start, UInt32.ofNat_mul, UInt32.ofNat_toNat, count, loads.startOffset]

theorem Loads.dst (loads : Loads file k cntxt)
    (requests : Requests (file.packetLen k) (file.packetOffset k) cntxt) :
    cntxt.phyAddr + (cntxt.runningOffset - cntxt.startOffset) = file.packetDst k := by
  rw [loads.phyAddr, requests.runningOffset, loads.startOffset, packetOffset_eq, UInt32.add_comm _
    (UInt32.ofNat _), UInt32.add_sub_cancel]
  rfl

/-- The packet with a number is written behind the ones before it. -/
theorem written_succ (host : Host api) (softId : UInt8) (memory : Mem UInt8) {k : Nat}
    (inside : k < (host.file softId).packets) :
    (host.written softId k memory).write ((host.file softId).packetDst k)
        ((host.file softId).packetLen k).toNat (host.dataCfm softId k).data =
      host.written softId (k + 1) memory := by
  obtain ⟨longer, -⟩ := (host.file softId).packetStart_succ inside
  have top := (host.file softId).packetStart_le (k + 1)
  have bound := (host.file softId).header.filesz.toNat_lt
  have ends : (host.file softId).packetStart k + ((host.file softId).packetLen k).toNat =
      (host.file softId).packetStart (k + 1) := by
    rw [ImageFile.packetLen_toNat]
    omega
  have data : ∀ i < ((host.file softId).packetLen k).toNat,
      (host.dataCfm softId k).data i =
        (host.file softId).segment ((host.file softId).packetStart k + i) := by
    intro i below
    unfold Host.dataCfm ImageFile.segment
    rw [confirm_data below, ImageFile.packetOffset_toNat _ inside, Nat.add_assoc]
  rw [Mem.write_congr _ _ data]
  unfold Host.written
  rw [ImageFile.packetDst, Mem.write_append _ _ _ _ _ (by omega) (by omega), ends]

end Data

theorem dataSend_goes {k : Nat}
    (here : At host memory (.inside older softId rest (.dataSend k)) system) :
    Goes host memory (.inside older softId rest (.dataSend k)) .loader system
      (system.to (system.machine.requestProgram api)) := by
  obtain ⟨progress, softid, control, loads⟩ := here.fits
  have le : system.machine.cntxt.currPktCount ≤ system.machine.cntxt.totalPkts := by
    rw [UInt16.le_iff_toNat_le, loads.currPktCount, loads.totalPkts]
    exact Nat.le_of_lt loads.inside
  unfold Machine.requestProgram
  dsimp only
  rw [if_pos le, loads.packetLen, loads.packetOffset, softid]
  have same : Loads (host.file softId) k { system.machine.cntxt with
      softidInProgress := softId
      progLen := (host.file softId).packetLen k
      runningOffset := (host.file softId).packetOffset k } :=
    ⟨loads.startOffset, loads.fileSize, loads.phyAddr, loads.totalPkts, loads.currPktCount,
      loads.inside⟩
  refine here.sending rfl ?_ (.inside older softId rest (.dataWait k)) rfl rfl rfl ?_ ?_
  · exact ⟨⟨progress.bitmap, progress.left, progress.all⟩, rfl, control, same⟩
  · exact ⟨⟨progress.bitmap, progress.left, progress.all⟩, rfl, rfl, same, rfl, rfl⟩
  · exact Nat.add_lt_add_right (Nat.lt_succ_self _) _

/-- A packet is written where it belongs, and the next one is asked for, or the end is reached. -/
theorem dataWait_goes {k : Nat} {env : Env} (succeeds : env.rramWriteStatus = 0)
    (here : At host memory (.inside older softId rest (.dataWait k)) system) :
    Goes host memory (.inside older softId rest (.dataWait k)) .loader system
      (system.to (system.machine.waitForProgram env)) := by
  obtain ⟨progress, softid, control, loads, requests⟩ := here.fits
  unfold Machine.waitForProgram
  dsimp only
  rcases System.pending_a2f here.channel with empty | single
  · rw [Machine.confirm_empty empty]
    exact here.unanswered rfl empty
  · obtain ⟨index, a2f, drained, request⟩ := Machine.confirm_single single .zero
    rw [request, single.front]
    dsimp only [Machine.writeProgram]
    rw [loads.dst requests, succeeds]
    have log : ∀ trace, trace = Inner.log host softId (host.history older) (.dataWait k) →
        .wrote ((host.file softId).packetDst k) (host.dataCfm softId k).programLen
          (.dataTransferCfm (host.dataCfm softId k)) 0 :: trace =
        host.dataLog softId (k + 1) (host.headerLog softId (host.history older)) := by
      rintro _ rfl
      rfl
    have copied : system.machine.memory.write ((host.file softId).packetDst k)
          (host.dataCfm softId k).programLen.toNat (host.dataCfm softId k).data =
        host.written softId (k + 1) (host.copied memory older) := by
      rw [here.copied]
      exact written_succ host softId _ loads.inside
    have packets : system.machine.cntxt.totalPkts.toNat = (host.file softId).packets :=
      congrArg _ loads.totalPkts
    have top := system.machine.cntxt.totalPkts.toNat_lt
    have inside := loads.inside
    have count : (system.machine.cntxt.currPktCount + 1).toNat = k + 1 := by
      rw [UInt16.toNat_add, loads.currPktCount]
      exact Nat.mod_eq_of_lt (show k + 1 < 2 ^ 16 by omega)
    by_cases more : k + 1 < (host.file softId).packets
    · have below : system.machine.cntxt.currPktCount + 1 < system.machine.cntxt.totalPkts := by
        rw [UInt16.lt_iff_toNat_lt, count, packets]
        exact more
      refine here.receives rfl single (.inside older softId rest (.dataSend (k + 1))) rfl
        (drained.attach index) rfl (log _ here.log) copied (if_pos below) ?_ ?_
      · exact ⟨⟨progress.bitmap, progress.left, progress.all⟩, softid, rfl, loads.startOffset,
          loads.fileSize, loads.phyAddr, loads.totalPkts, count, more⟩
      · simp only [Stage.toDo, Inner.toDo]
        omega
    · have last : k + 1 = (host.file softId).packets := by omega
      have beyond : ¬ system.machine.cntxt.currPktCount + 1 < system.machine.cntxt.totalPkts := by
        rw [UInt16.lt_iff_toNat_lt, count, packets]
        exact more
      rw [last] at log copied
      refine here.receives rfl single (.inside older softId rest .doneSend) rfl
        (drained.attach index) rfl (log _ here.log) copied (if_neg beyond) ?_ ?_
      · exact ⟨⟨progress.bitmap, progress.left, progress.all⟩, softid, rfl⟩
      · simp only [Stage.toDo, Inner.toDo]
        omega

/-! ## The end of a resource, and of the run -/

theorem doneSend_goes (here : At host memory (.inside older softId rest .doneSend) system) :
    Goes host memory (.inside older softId rest .doneSend) .loader system
      (system.to (system.machine.resourceTransferCompleted api)) := by
  obtain ⟨progress, softid, control⟩ := here.fits
  unfold Machine.resourceTransferCompleted
  rw [softid]
  refine here.sending rfl here.fits (.inside older softId rest .doneWait) rfl rfl rfl ?_ ?_
  · exact ⟨progress, softid, rfl⟩
  · exact Nat.add_lt_add_right (Nat.lt_succ_self _) _

/-- What is noted of a resource that is finished. -/
theorem Machine.finish_eq (machine : Machine) (softId : UInt8) :
    ∃ dfuStatus trace, machine.finish api softId = { machine with dfuStatus, trace } ∧
      trace = match api.resourceOf softId with
        | none => machine.trace
        | some resource => .finished resource :: machine.trace := by
  unfold Machine.finish
  cases api.resourceOf softId with
  | none => exact ⟨_, _, rfl, rfl⟩
  | some resource => exact ⟨_, _, rfl, rfl⟩

theorem doneWait_goes (bits : DistinctBits api)
    (here : At host memory (.inside older softId rest .doneWait) system) :
    Goes host memory (.inside older softId rest .doneWait) .loader system
      (system.to (system.machine.resourceTransferConfirm api)) := by
  obtain ⟨progress, softid, control⟩ := here.fits
  have named : softId ∈ api.named host.bitmap := by
    rw [← progress.all]
    exact List.mem_append_right _ List.mem_cons_self
  have listed : softId ∈ api.resources := (List.mem_filter.mp named).1
  unfold Machine.resourceTransferConfirm
  rcases System.pending_a2f here.channel with empty | single
  · rw [Machine.recieveDfuTransferDoneRsp_empty empty]
    exact here.unanswered rfl empty
  · rw [Machine.recieveDfuTransferDoneRsp_single single]
    obtain ⟨dfuStatus, trace, finish, log⟩ :=
      system.machine.release.finish_eq system.machine.release.cntxt.softidInProgress
    dsimp only
    rw [finish, if_neg (not_not_intro rfl)]
    have own : system.machine.release.cntxt.softidInProgress = softId := softid
    rw [own] at log ⊢
    rw [if_pos (bits.smallest softId listed)]
    refine here.receives rfl single (.choosing (softId :: older) rest) rfl
      (Machine.release_empty single) rfl ?_ ?_ rfl ?_ ?_
    · rw [log]
      have before : system.machine.release.trace = _ := here.log
      rw [before]
      rfl
    · exact here.copied.trans (host.written_packets memory softId older)
    · refine ⟨rfl, progress.bitmap, progress.left.finish bits named, ?_⟩
      rw [List.reverse_cons, List.append_assoc]
      exact progress.all
    · exact Nat.lt_add_of_pos_left (Nat.succ_pos 0)

theorem rebooting_goes (here : At host memory .rebooting system) :
    Goes host memory .rebooting .loader system
      (system.to (system.machine.sendRebootCmd api)) := by
  unfold Machine.sendRebootCmd
  exact here.sending rfl here.fits .rebooted rfl rfl rfl rfl (Nat.lt_succ_self _)

theorem rebooted_goes (here : At host memory .rebooted system) :
    Goes host memory .rebooted .loader system (system.to (system.machine.goto .waitForDfu)) :=
  here.turns .ended rfl rfl rfl rfl rfl rfl (Nat.lt_succ_self _)

/-! ## The moves -/

/-- A pass of the loader, as long as the run has not ended. -/
theorem loader_goes (bits : DistinctBits api) (wanted : Wanted api host.bitmap) {env : Env}
    (succeeds : env.rramWriteStatus = 0) {stage : Stage} (running : stage ≠ .ended)
    (here : At host memory stage system) :
    Goes host memory stage .loader system (system.to (system.machine.sysLoader api env)) := by
  have fits := here.fits
  unfold Machine.sysLoader
  cases stage with
  | asking =>
      rw [show system.machine.control = _ from fits]
      exact asking_goes here
  | confirming =>
      rw [fits.1]
      exact confirming_goes wanted here
  | choosing older rest =>
      rw [fits.1]
      exact choosing_goes bits here
  | inside older softId rest inner =>
      cases inner with
      | elfWait =>
          rw [show system.machine.control = _ from fits.2.2]
          exact elfWait_goes here
      | headerSend =>
          rw [fits.2.2.1]
          exact headerSend_goes here
      | headerWait =>
          rcases fits.2.2 with polls | attaching
          · rw [polls]
            exact headerWait_goes here
          · rw [attaching]
            exact attaching_goes here attaching
      | dataSend k =>
          rw [fits.2.2.1]
          exact dataSend_goes here
      | dataWait k =>
          rw [fits.2.2.1]
          exact dataWait_goes succeeds here
      | doneSend =>
          rw [show system.machine.control = _ from fits.2.2]
          exact doneSend_goes here
      | doneWait =>
          rw [show system.machine.control = _ from fits.2.2]
          exact doneWait_goes bits here
  | rebooting =>
      rw [show system.machine.control = _ from fits]
      exact rebooting_goes here
  | rebooted =>
      rw [show system.machine.control = _ from fits]
      exact rebooted_goes here
  | ended => exact absurd rfl running

/-- The host puts no message into the first element while the loader stands behind a poll that
found no program header. -/
def System.Apart (system : System) : Move → Prop
  | .put =>
      system.machine.control = .attaching → system.todo.isSome = true →
        system.machine.a2f.checkOccupancy = true → system.machine.a2f.writeIdx ≠ 0
  | .loader _ | .read | .take => True

/-- A move of the host changes nothing about the stage. -/
theorem At.hosted {stage : Stage} {party : Party} {next : System}
    (here : At host memory stage system)
    (moved : System.HostMoved host (stage.awaits host) party system next)
    (apart : party = .put → system.Apart .put) :
    At host memory stage next := by
  refine ⟨moved.loader.trace.trans here.log, moved.loader.memory.trans here.copied, ?_,
    moved.channel, ?_⟩
  · rw [moved.loader.control, moved.loader.cntxt]
    exact here.fits
  · intro attaching filled
    rw [moved.loader.control] at attaching
    rcases moved.a2f with same | ⟨put, owes, empty, index⟩
    · rw [same] at filled ⊢
      exact here.turned attaching filled
    · have elsewhere := apart put attaching owes empty.checkOccupancy
      rw [index]
      exact (show system.machine.a2f.writeIdx = system.machine.a2f.readIdx from empty) ▸ elsewhere

/-- What a step is allowed to be: the RRAM is written, and a message of the host is apart from a
buffer that is about to be attached. -/
structure Meets (system : System) (move : Move) : Prop where
  succeeds : ∀ env, move = .loader env → env.rramWriteStatus = 0
  apart : system.Apart move

/-- A step of a run that has not ended. -/
theorem At.goes (bits : DistinctBits api) (wanted : Wanted api host.bitmap) {stage : Stage}
    {move : Move} (running : stage ≠ .ended) (meets : Meets system move)
    (here : At host memory stage system) :
    Goes host memory stage move.party system (system.move host move) := by
  cases move with
  | loader env => exact loader_goes bits wanted (meets.succeeds env rfl) running here
  | read =>
      have moved := System.readMessage_moved here.channel
      exact ⟨moved.kept, stage, here.hosted moved nofun, .inr ⟨rfl, moved.advances⟩⟩
  | take =>
      have moved := System.takeMessage_moved here.channel
      exact ⟨moved.kept, stage, here.hosted moved nofun, .inr ⟨rfl, moved.advances⟩⟩
  | put =>
      have moved := System.putMessage_moved here.channel
      exact ⟨moved.kept, stage, here.hosted moved fun _ => meets.apart, .inr ⟨rfl, moved.advances⟩⟩

/-- A run that has ended stays so. -/
theorem At.stays {move : Move} (meets : Meets system move) (here : At host memory .ended system) :
    RingsKept system.machine (system.move host move).machine ∧
      At host memory .ended (system.move host move) := by
  cases move with
  | loader env =>
      have quiet : Quiet host system := here.channel
      have same : system.machine.sysLoader api env = system.machine := by
        unfold Machine.sysLoader
        rw [show system.machine.control = _ from here.fits]
        dsimp only
        unfold Machine.waitForDfu
        rw [Machine.recieveDfuReq_empty quiet.a2f]
      unfold System.move
      dsimp only
      rw [same]
      exact ⟨.of_eq rfl rfl, here⟩
  | read =>
      have moved := System.readMessage_moved here.channel
      exact ⟨moved.kept, here.hosted moved nofun⟩
  | take =>
      have moved := System.takeMessage_moved here.channel
      exact ⟨moved.kept, here.hosted moved nofun⟩
  | put =>
      have moved := System.putMessage_moved here.channel
      exact ⟨moved.kept, here.hosted moved fun _ => meets.apart⟩

end Passes

end QHal.SysLoader
