/-
Module: QHal.Boot.SysLoader
Purpose: The loader that takes resources from a host over two rings,
  qboot/src/wifi_fw_sys_img_loader.c: the state machine of sys_loader, the messages that it
  receives and sends, and the moves of the host.
Trusted boundary: the host writes the contents of an element before it advances the index, and
  nothing else; a pass of the loader is one step, but for the attaching of a buffer behind a poll
  that finds nothing; the destination of a resource is apart from the variables of the loader.
  Layouts and numbers of wifi_fw_dfu_api.h are parameters.
Main exports: Api, A2fMessage, F2aMessage, Ring, SysLoaderCntxt, Machine, Env, Action, sysLoader,
  step
-/
import Mathlib.Logic.Function.Basic
import QHal.Boot.FlashFwd
import QHal.Lib.Memory

namespace QHal.SysLoader

open Boot (le32)

/-! ## The interface -/

/-- A message to the host. -/
inductive F2aMessage where
  | dfuCfm
  | dataTransferReq (programLen elfOffset : UInt32) (softId : UInt8)
  | dataTransferDoneInd (softId : UInt8)
  | rebootReq
deriving DecidableEq

/-- What `wifi_fw_dfu_api.h` gives numbers to; the second bound is checked by the preprocessor. -/
structure Api where
  sblId : UInt8
  wlanImgId : UInt8
  bdfId : UInt8
  regdbId : UInt8
  wlanIni : UInt8
  maxDfuDataLen : UInt32
  sizeOf : F2aMessage → UInt16
  positive : 0 < maxDfuDataLen
  fits : maxDfuDataLen ≤ 0x6000 - 0x400

def Api.dfuBuffSize (api : Api) : UInt32 := api.maxDfuDataLen

/-- `A2F_ELEMENT_LEN`. -/
def a2fElementLen : UInt16 := 0x6000

/-- The size of `Elf32_Ehdr`. -/
def sizeofEhdr : UInt32 := 52

/-- The size of `Elf32_Phdr`. -/
def sizeofPhdr : UInt32 := 32

/-- `a2f_dfu_transfer_cfm_t`, with what stands in memory from its data on. -/
structure TransferCfm where
  programLen : UInt32
  elfOffset : UInt32
  softId : UInt8
  data : Nat → UInt8

/-- A message of the host, by its `msg_id`. -/
inductive A2fMessage where
  | dfuReq (softIdBitmap : UInt8)
  | dataTransferCfm (cfm : TransferCfm)
  | dataTransferDoneRsp (moreResource : UInt8)
  | other

/-! ## The rings -/

/-- `dfu_ring_element_t`, with the contents of its buffer. -/
structure Element (α : Type) where
  len : UInt16
  message : α

/-- `ring_handle_t` with its `NUMBER_OF_ELEMENTS` elements. -/
structure Ring (α : Type) where
  readIdx : Fin 2
  writeIdx : Fin 2
  element : Fin 2 → Element α

namespace Ring

variable {α : Type}

/-- `a2f_dfu_ring_check_empty` and `f2a_dfu_ring_check_empty`. -/
def checkEmpty (ring : Ring α) : Bool := ring.readIdx == ring.writeIdx

/-- `f2a_dfu_ring_check_occupancy`. -/
def checkOccupancy (ring : Ring α) : Bool := ring.readIdx != ring.writeIdx + 1

/-- The contents of the element at the read index. -/
def front (ring : Ring α) : α := (ring.element ring.readIdx).message

def setLen (ring : Ring α) (index : Fin 2) (len : UInt16) : Ring α :=
  { ring with
    element := Function.update ring.element index { ring.element index with len } }

/-- `increment_read_index`. -/
def incrementReadIndex (ring : Ring α) : Ring α := { ring with readIdx := ring.readIdx + 1 }

/-- A message is written into the element at the write index, and `increment_write_index`. -/
def put (ring : Ring α) (len : UInt16) (message : α) : Ring α where
  readIdx := ring.readIdx
  writeIdx := ring.writeIdx + 1
  element := Function.update ring.element ring.writeIdx ⟨len, message⟩

/-- `attach_buffer_to_element` for an index of any size. -/
def attachBufferToElement (ring : Ring α) (index : UInt8) : Ring α :=
  if inside : index.toNat < 2 then ring.setLen ⟨index.toNat, inside⟩ a2fElementLen else ring

end Ring

/-! ## The state -/

/-- `sys_img_load_state_t`. -/
inductive SysImgLoadState where
  | waitForDfu
  | checkForDfuBitmap
  | requestElfHeader
  | waitForElfHeader
  | requestProgramHeader
  | waitForProgramHeader
  | requestProgram
  | waitForProgram
  | resourceTransferCompleted
  | resourceTransferConfirm
  | sendRebootCmd
  | resourceWaitForReboot
deriving DecidableEq

/-- Where the loader is: at the head of its loop; in the loop that waits for the host to empty
the ring; behind a poll that found no program header; or back at its caller. -/
inductive Control where
  | run (state : SysImgLoadState)
  | draining
  | attaching
  | returned
deriving DecidableEq

/-- `sys_loader_cntxt_t`; `end_offset` is written only, and `num_of_ph` read for a print only. -/
structure SysLoaderCntxt where
  softidInProgress : UInt8
  startOffset : UInt32
  fileSize : UInt32
  phyAddr : UInt32
  progLen : UInt32
  runningOffset : UInt32
  totalPkts : UInt16
  currPktCount : UInt16
  softidDfuBitmap : UInt8
  softidDfuDoneBitmap : UInt8

/-- `ring_data_desc_t`; `p_buff` is what it points to. -/
structure RingDataDesc where
  index : UInt8
  dataLen : UInt32
  buff : Nat → UInt8

/-- The descriptor behind its `memset`. -/
def RingDataDesc.zero : RingDataDesc := ⟨0, 0, fun _ => 0⟩

/-- The entries of `fw_desc_tbl_t`. -/
inductive Resource where
  | sblA | wlanImg | bdf | regDb | wlanIni
deriving DecidableEq

/-- `dfu_status`. -/
inductive DfuStatus where
  | finished
  | startedFromSbl
  | other (value : UInt32)
deriving DecidableEq

/-- What the loader takes of a program header. -/
structure ProgramHeader where
  offset : UInt32
  paddr : UInt32
  filesz : UInt32
deriving DecidableEq

def ProgramHeader.ofBytes (bytes : Nat → UInt8) : ProgramHeader where
  offset := le32 bytes 4
  paddr := le32 bytes 12
  filesz := le32 bytes 16

/-- What can be seen of a run: a message is sent; the program header of a resource is accepted;
program data is written, from a message that was received; a resource is finished. -/
inductive Event where
  | sent (message : F2aMessage)
  | accepted (softId : UInt8) (header : ProgramHeader)
  | wrote (dst length : UInt32) (message : A2fMessage) (rramWriteStatus : Int8)
  | finished (resource : Resource)

/-- The loader, the rings, the table and the memory, with the events so far, the last one
first. -/
structure Machine where
  control : Control
  cntxt : SysLoaderCntxt
  a2f : Ring A2fMessage
  f2a : Ring F2aMessage
  dfuStatus : Resource → DfuStatus
  memory : Mem UInt8
  trace : List Event

/-- What a pass meets: the result of `nt_bl_rram_write`, and what stands on the stack in the place
of a descriptor without an initial value. -/
structure Env where
  rramWriteStatus : Int8
  stale : RingDataDesc

/-! ## Numbers -/

namespace Api

variable (api : Api)

/-- The resource that REQUEST_ELF_HEADER asks for next: none for the SBL, and 0 for a bit without
a resource. -/
def nextSoftId (bitmap : UInt8) : Option UInt8 :=
  if bitmap &&& api.sblId ≠ 0 then none
  else if bitmap &&& api.wlanImgId ≠ 0 then some api.wlanImgId
  else if bitmap &&& api.bdfId ≠ 0 then some api.bdfId
  else if bitmap &&& api.regdbId ≠ 0 then some api.regdbId
  else if bitmap &&& api.wlanIni ≠ 0 then some api.wlanIni
  else if bitmap = 0 then none
  else some 0

/-- The entry of the table that a resource has. -/
def resourceOf (softId : UInt8) : Option Resource :=
  if api.wlanImgId = softId then some .wlanImg
  else if api.bdfId = softId then some .bdf
  else if api.regdbId = softId then some .regDb
  else if api.wlanIni = softId then some .wlanIni
  else none

/-- The packets that a segment is cut into, counted in 16 bits. -/
def packetsOf (filesz : UInt32) : UInt16 :=
  let totalPkts := (filesz / api.dfuBuffSize).toUInt16
  if filesz % api.dfuBuffSize ≠ 0 then totalPkts + 1 else totalPkts

/-- The length of the packet with a number. -/
def packetLen (cntxt : SysLoaderCntxt) : UInt32 :=
  if cntxt.currPktCount.toUInt32 = cntxt.totalPkts.toUInt32 - 1 then
    let rest := cntxt.fileSize % api.dfuBuffSize
    if rest = 0 then api.dfuBuffSize else rest
  else api.dfuBuffSize

end Api

namespace Machine

variable (machine : Machine)

def goto (state : SysImgLoadState) : Machine := { machine with control := .run state }

def log (event : Event) : Machine := { machine with trace := event :: machine.trace }

/-! ## Messages -/

variable (api : Api)

/-- A message is put into the ring to the host if there is room, else the loader stays. -/
def send (message : F2aMessage) (behind : Machine → Machine) : Machine :=
  if machine.f2a.checkOccupancy then
    behind ({ machine with f2a := machine.f2a.put (api.sizeOf message) message }.log
      (.sent message))
  else machine

/-- The read index moves over a message, whose element gets its length back. -/
def release : Machine :=
  { machine with
    a2f := (machine.a2f.setLen machine.a2f.readIdx a2fElementLen).incrementReadIndex }

/-- `recieve_dfu_req`. -/
def recieveDfuReq : Option (UInt8 × Machine) :=
  if machine.a2f.checkEmpty then none
  else
    match machine.a2f.front with
    | .dfuReq softIdBitmap => some (softIdBitmap, machine.release)
    | _ => none

/-- `recieve_dfu_transfer_done_rsp`. -/
def recieveDfuTransferDoneRsp : Option (UInt8 × Machine) :=
  if machine.a2f.checkEmpty then none
  else
    match machine.a2f.front with
    | .dataTransferDoneRsp moreResource => some (moreResource, machine.release)
    | _ => none

/-- `recieve_dfu_data_transfer_confirm`: what it makes of a descriptor, and the ring behind it.
The element is detached; the comparisons with the request are printed only. -/
def recieveDfuDataTransferConfirm (desc : RingDataDesc) : Option (RingDataDesc × Machine) :=
  if machine.a2f.checkEmpty then none
  else
    match machine.a2f.front with
    | .dataTransferCfm cfm =>
        let detached := machine.a2f.setLen machine.a2f.readIdx 0
        some (⟨machine.a2f.readIdx.val.toUInt8, cfm.programLen, cfm.data⟩,
          { machine with a2f := detached.incrementReadIndex })
    | _ => some (desc, { machine with a2f := machine.a2f.incrementReadIndex })

def attach (desc : RingDataDesc) : Machine :=
  { machine with a2f := machine.a2f.attachBufferToElement desc.index }

/-! ## The states -/

def waitForDfu : Machine :=
  match machine.recieveDfuReq with
  | none => machine
  | some (softIdBitmap, machine) =>
      { machine with
        control := .run .checkForDfuBitmap
        cntxt := { machine.cntxt with softidDfuBitmap := softIdBitmap } }

def checkForDfuBitmap : Machine :=
  machine.send api .dfuCfm fun machine =>
    if machine.cntxt.softidDfuBitmap = 0 then { machine with control := .draining }
    else
      { machine with
        control := .run .requestElfHeader
        cntxt := { machine.cntxt with softidDfuDoneBitmap := 0 } }

def requestElfHeader : Machine :=
  let bitmap := machine.cntxt.softidDfuBitmap ^^^ machine.cntxt.softidDfuDoneBitmap
  match api.nextSoftId bitmap with
  | none =>
      if bitmap = 0 then machine.goto .sendRebootCmd
      else
        { machine with
          control := .run .sendRebootCmd
          dfuStatus := Function.update machine.dfuStatus .sblA .startedFromSbl }
  | some softId =>
      let machine :=
        { machine with
          cntxt :=
            { machine.cntxt with
              startOffset := 0
              runningOffset := 0
              softidInProgress := softId
              progLen := sizeofEhdr } }
      machine.send api (.dataTransferReq sizeofEhdr 0 softId) fun machine =>
        machine.goto .waitForElfHeader

def waitForElfHeader (env : Env) : Machine :=
  match machine.recieveDfuDataTransferConfirm env.stale with
  | none => machine
  | some (desc, machine) =>
      let next :=
        if desc.dataLen = sizeofEhdr then
          let ePhoff := le32 desc.buff 28
          let ePhnum := (desc.buff 44).toUInt32 + 256 * (desc.buff 45).toUInt32
          { machine with
            control := .run .requestProgramHeader
            cntxt :=
              { machine.cntxt with
                startOffset := ePhoff
                runningOffset := ePhoff
                progLen := ePhnum * sizeofPhdr } }
        else machine.goto .requestElfHeader
      next.attach desc

def requestProgramHeader : Machine :=
  let cntxt := machine.cntxt
  machine.send api (.dataTransferReq cntxt.progLen cntxt.runningOffset cntxt.softidInProgress)
    fun machine => machine.goto .waitForProgramHeader

/-- The first program header is taken; the others are printed only. -/
def acceptProgramHeader (header : ProgramHeader) : Machine :=
  { machine with
    control := .run .requestProgram
    cntxt :=
      { machine.cntxt with
        startOffset := header.offset
        runningOffset := header.offset
        fileSize := header.filesz
        phyAddr := header.paddr
        totalPkts := api.packetsOf header.filesz
        currPktCount := 0 } }.log (.accepted machine.cntxt.softidInProgress header)

/-- The buffer is attached in any case, with a descriptor of zeros behind an empty ring. -/
def waitForProgramHeader : Machine :=
  match machine.recieveDfuDataTransferConfirm .zero with
  | none => { machine with control := .attaching }
  | some (desc, machine) =>
      let next :=
        if desc.dataLen = sizeofPhdr then
          machine.acceptProgramHeader api (.ofBytes desc.buff)
        else machine.goto .requestProgramHeader
      next.attach desc

def requestProgram : Machine :=
  let cntxt := machine.cntxt
  if cntxt.currPktCount ≤ cntxt.totalPkts then
    let progLen := api.packetLen cntxt
    let runningOffset := cntxt.startOffset + cntxt.currPktCount.toUInt32 * api.dfuBuffSize
    let machine := { machine with cntxt := { cntxt with progLen, runningOffset } }
    machine.send api (.dataTransferReq progLen runningOffset cntxt.softidInProgress)
      fun machine => machine.goto .waitForProgram
  else machine.goto .resourceTransferCompleted

/-- The data is written by `nt_bl_rram_write`, and by `memcpy` when that fails. -/
def writeProgram (message : A2fMessage) (desc : RingDataDesc) (env : Env) : Machine :=
  let cntxt := machine.cntxt
  let dst := cntxt.phyAddr + (cntxt.runningOffset - cntxt.startOffset)
  { machine with
    memory := machine.memory.write dst desc.dataLen.toNat desc.buff }.log
      (.wrote dst desc.dataLen message env.rramWriteStatus)

def waitForProgram (env : Env) : Machine :=
  let message := machine.a2f.front
  match machine.recieveDfuDataTransferConfirm .zero with
  | none => machine
  | some (desc, machine) =>
      let machine := (machine.writeProgram message desc env).attach desc
      let currPktCount := machine.cntxt.currPktCount + 1
      { machine with
        control :=
          if currPktCount < machine.cntxt.totalPkts then .run .requestProgram
          else .run .resourceTransferCompleted
        cntxt := { machine.cntxt with currPktCount } }

def resourceTransferCompleted : Machine :=
  machine.send api (.dataTransferDoneInd machine.cntxt.softidInProgress) fun machine =>
    machine.goto .resourceTransferConfirm

/-- `dfu_status = DFU_FINISHED` in the entry of a resource, if it has one. -/
def finish (softId : UInt8) : Machine :=
  match api.resourceOf softId with
  | none => machine
  | some resource =>
      { machine with
        dfuStatus := Function.update machine.dfuStatus resource .finished }.log (.finished resource)

def resourceTransferConfirm : Machine :=
  match machine.recieveDfuTransferDoneRsp with
  | none => machine
  | some (moreResource, machine) =>
      let softId := machine.cntxt.softidInProgress
      let machine := machine.finish api softId
      { machine with
        control :=
          if moreResource ≠ 0 then .run .waitForDfu
          else if softId ≥ api.wlanImgId then .run .requestElfHeader
          else .run .sendRebootCmd
        cntxt :=
          { machine.cntxt with
            softidDfuDoneBitmap := machine.cntxt.softidDfuDoneBitmap ||| softId } }

def sendRebootCmd : Machine :=
  machine.send api .rebootReq fun machine => machine.goto .resourceWaitForReboot

/-- A pass of `sys_loader`. -/
def sysLoader (env : Env) : Machine :=
  match machine.control with
  | .run .waitForDfu => machine.waitForDfu
  | .run .checkForDfuBitmap => machine.checkForDfuBitmap api
  | .run .requestElfHeader => machine.requestElfHeader api
  | .run .waitForElfHeader => machine.waitForElfHeader env
  | .run .requestProgramHeader => machine.requestProgramHeader api
  | .run .waitForProgramHeader => machine.waitForProgramHeader api
  | .run .requestProgram => machine.requestProgram api
  | .run .waitForProgram => machine.waitForProgram env
  | .run .resourceTransferCompleted => machine.resourceTransferCompleted api
  | .run .resourceTransferConfirm => machine.resourceTransferConfirm api
  | .run .sendRebootCmd => machine.sendRebootCmd api
  | .run .resourceWaitForReboot => machine.goto .waitForDfu
  | .draining => if machine.f2a.checkEmpty then { machine with control := .returned } else machine
  | .attaching => { machine.attach .zero with control := .run .waitForProgramHeader }
  | .returned => machine

end Machine

/-! ## Runs -/

/-- A pass of the loader, or a move of the host: it takes the message at the read index of its
ring, or puts a message of any contents into the other one. -/
inductive Action where
  | loader (env : Env)
  | take
  | put (len : UInt16) (message : A2fMessage)

def step (api : Api) (machine : Machine) : Action → Option Machine
  | .loader env => some (machine.sysLoader api env)
  | .take =>
      if machine.f2a.checkEmpty then none
      else some { machine with f2a := machine.f2a.incrementReadIndex }
  | .put len message =>
      if machine.a2f.checkOccupancy then
        some { machine with a2f := machine.a2f.put len message }
      else none

/-- `init_config_table`, over buffers, variables, a table and a memory of any contents. -/
def Machine.start (request : A2fMessage) (reply : F2aMessage) (cntxt : SysLoaderCntxt)
    (dfuStatus : Resource → DfuStatus) (memory : Mem UInt8) : Machine where
  control := .run .waitForDfu
  cntxt := cntxt
  a2f := ⟨0, 0, fun _ => ⟨a2fElementLen, request⟩⟩
  f2a := ⟨0, 0, fun _ => ⟨0x200, reply⟩⟩
  dfuStatus := dfuStatus
  memory := memory
  trace := []

end QHal.SysLoader
