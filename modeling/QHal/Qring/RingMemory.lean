/-
Module: QHal.Qring.RingMemory
Purpose: The allocations of the ring service, qring/src/ring_service_qcc730.c: the four blocks of a
  ring, which the control block records by ring id, their release, and the initialisation and the
  deinitialisation with every step that can fail.
Trusted boundary: malloc, the GPIO driver and the kernel objects; malloc returns separate blocks,
  which are numbered
Main exports: Area, RingControlBlock, RingMemory, InitFaults, freeRingResources, slaveInit, deinit
-/
import QHal.Lib.Owners
import QHal.Qring.RingService

namespace QHal.Qring

open Owners (Heap)

/-- The blocks of a ring, in the order in which they are allocated and freed. -/
inductive Area where
  | txDesc | txBuf | rxDesc | rxBuf
deriving Repr, DecidableEq

def areas : List Area := [.txDesc, .txBuf, .rxDesc, .rxBuf]

/-- `struct ring_control_block`.  `base` are the arrays `tx_desc_base`, `tx_buf_base`,
`rx_desc_base` and `rx_buf_base`; `size` are `tx_desc_count`, `tx_buf_size`, `rx_desc_count` and
`rx_buf_size`. -/
structure RingControlBlock where
  magic : UInt32
  version : UInt32
  numRings : UInt32
  base : Area × UInt8 → Nat
  size : Area × UInt8 → UInt32
  txWrIdx : UInt8 → UInt32
  txRdIdx : UInt8 → UInt32
  rxWrIdx : UInt8 → UInt32
  rxRdIdx : UInt8 → UInt32
  ringStatus : UInt8 → UInt8
  status : UInt32

/-- What `memset` leaves of the control block. -/
def RingControlBlock.zero : RingControlBlock :=
  ⟨0, 0, 0, fun _ => 0, fun _ => 0, fun _ => 0, fun _ => 0, fun _ => 0, fun _ => 0, fun _ => 0, 0⟩

/-- `g_ring_ctrl_block` and the heap. -/
structure RingMemory where
  ctrl : RingControlBlock
  heap : Heap

/-- `g_ring_service.initialized` and the memory. -/
structure RingService where
  initialized : Bool
  memory : RingMemory

/-- What the steps of the initialisation return: the allocation of each number, the test of the
GPIO device, its configuration, and the initialisation of each kernel object, of which a ring has
four. -/
structure InitFaults where
  granted : Nat → Bool
  gpioReady : Bool
  gpioConfigure : Int
  kernelInit : Nat → Int

/-- What `ring_service_slave_init` returns: an error of its own or one it passes on. -/
inductive InitStatus where
  | ok
  | error (errno : Errno)
  | failed (ret : Int)
deriving Repr, DecidableEq

/-! ## The blocks of a ring -/

/-- A step of `free_ring_resources`. -/
def RingMemory.freeArea (memory : RingMemory) (slot : Area × UInt8) : RingMemory :=
  if memory.ctrl.base slot ≠ 0 then
    { ctrl := { memory.ctrl with base := Function.update memory.ctrl.base slot 0 }
      heap := memory.heap.free (memory.ctrl.base slot) }
  else memory

/-- `free_ring_resources`. -/
def freeRingResources (memory : RingMemory) (ringId : UInt8) : RingMemory :=
  (areas.map fun area => (area, ringId)).foldl RingMemory.freeArea memory

/-- What the control block records of the size of an area. -/
def Area.size (config : RingConfig) : Area → UInt32
  | .txDesc | .rxDesc => config.descCount
  | .txBuf | .rxBuf => config.bufSize

/-- The allocation of an area and its record in the control block. -/
def allocArea (granted : Nat → Bool) (config : RingConfig) (memory : RingMemory) (area : Area) :
    Bool × RingMemory :=
  let (block, heap) := memory.heap.malloc granted
  if block = 0 then (false, { memory with heap := heap })
  else
    (true,
      { ctrl := { memory.ctrl with
          base := Function.update memory.ctrl.base (area, config.ringId) block
          size := Function.update memory.ctrl.size (area, config.ringId) (area.size config) }
        heap := heap })

/-- The allocations of a ring from some area on, up to the first one that fails. -/
def allocAreas (granted : Nat → Bool) (config : RingConfig) :
    List Area → RingMemory → Bool × RingMemory
  | [], memory => (true, memory)
  | area :: areas, memory =>
      let (ok, memory) := allocArea granted config memory area
      if ok then allocAreas granted config areas memory else (false, memory)

/-- A ring whose areas are allocated. -/
def RingControlBlock.publish (ctrl : RingControlBlock) (ringId : UInt8) : RingControlBlock :=
  { ctrl with
    txWrIdx := Function.update ctrl.txWrIdx ringId 0
    txRdIdx := Function.update ctrl.txRdIdx ringId 0
    rxWrIdx := Function.update ctrl.rxWrIdx ringId 0
    rxRdIdx := Function.update ctrl.rxRdIdx ringId 0
    ringStatus := Function.update ctrl.ringStatus ringId ringStatusValid }

/-- The loop over the configurations that allocates the rings. -/
def allocRings (granted : Nat → Bool) : List RingConfig → RingMemory → Bool × RingMemory
  | [], memory => (true, memory)
  | config :: configs, memory =>
      let (ok, memory) := allocAreas granted config areas memory
      if ok then
        allocRings granted configs { memory with ctrl := memory.ctrl.publish config.ringId }
      else (false, memory)

/-! ## The service -/

/-- The steps behind the allocations: the GPIO, and `tx_lock`, `rx_lock`, `tx_sem` and `rx_sem` of
each ring. -/
def initObjects (faults : InitFaults) (numRings : Nat) : InitStatus :=
  if ¬ faults.gpioReady then .error .enodev
  else if faults.gpioConfigure < 0 then .failed faults.gpioConfigure
  else
    match (List.range (4 * numRings)).find? fun object => faults.kernelInit object < 0 with
    | some object => .failed (faults.kernelInit object)
    | none => .ok

/-- `cleanup` of `ring_service_slave_init`. -/
def cleanup (configs : List RingConfig) (memory : RingMemory) : RingMemory :=
  let memory := (configs.map (·.ringId)).foldl freeRingResources memory
  { memory with ctrl := .zero }

/-- `ring_service_slave_init`. -/
def slaveInit (faults : InitFaults) (configs : List RingConfig) (service : RingService) :
    InitStatus × RingService :=
  if service.initialized then (.error .ealready, service)
  else if configs.length = 0 ∨ configs.length > maxRings.toNat then (.error .einval, service)
  else if ¬ configs.all RingConfig.valid then (.error .einval, service)
  else
    let ctrl := { RingControlBlock.zero with
      magic := 0x52494E47, version := 0x00020000, numRings := UInt32.ofNat configs.length
      status := 1 }
    let (ok, memory) := allocRings faults.granted configs ⟨ctrl, service.memory.heap⟩
    if ok then
      match initObjects faults configs.length with
      | .ok => (.ok, ⟨true, memory⟩)
      | status => (status, ⟨false, cleanup configs memory⟩)
    else (.error .enomem, ⟨false, cleanup configs memory⟩)

/-- `ring_service_deinit`. -/
def deinit (service : RingService) : RingService :=
  if service.initialized then
    let ringIds := (List.range maxRings.toNat).map UInt8.ofNat
    let memory := ringIds.foldl (fun memory ringId =>
      if memory.ctrl.ringStatus ringId = ringStatusValid then freeRingResources memory ringId
      else memory) service.memory
    ⟨false, { memory with ctrl := .zero }⟩
  else service

/-- The service before a call, with the allocations of the call.  Its control block can hold
anything: the section `.ring_ctrl` is not loaded, and nothing clears it before the first call. -/
def RingService.before (initialized : Bool) (ctrl : RingControlBlock) : RingService :=
  ⟨initialized, ⟨ctrl, ⟨0, [], []⟩⟩⟩

end QHal.Qring
