/-
Module: QHal.Dxe.DescPool
Purpose: The descriptor pool of the DXE driver at the level of its pointers: the free
  list that nt_ndxe_allocate_desc links, and nt_ndxe_config_channel, which walks along
  it and closes the part it takes to the ring of a channel.
Trusted boundary: the allocations of the kernel are inputs; the registers of a channel
  but the one of its first descriptor, the upper halves of the addresses of a long
  descriptor, and the fields of a channel that neither function reads are left out.
Main exports: DescCB, DescPool, ntNdxeAllocateDesc, configChannel, PoolEvent,
  DescPool.step, DescPool.start
-/
import QHal.Dxe.HalDxe

namespace QHal.Dxe

/-- `DescCB_t`.  A pointer to one is its position in the pool, and so is one to a
descriptor. -/
structure DescCB where
  next : Option Nat
  dxeDescAddr : Nat
  physDescAddr : UInt32
  stagingBuffer : UInt32
deriving Repr, DecidableEq

/-- The words of a `DXEDesc_t` that are written here. -/
structure DescWords where
  ctrl : UInt32
  srcMemAddrL : UInt32
  dstMemAddrL : UInt32
  phyNextL : UInt32
deriving Repr, DecidableEq

/-- The fields of a `DxeCCB_t` that the configuration of its channel sets or reads, and
its register of the first descriptor. -/
structure ChannelCB where
  pRingFreeHead : Option Nat
  pRingUsedHead : Option Nat
  noXfrDescUsed : Nat
  nDescs : Nat
  refWQ : UInt32
  xfrType : XfrType
  chEnabled : Bool
  chConfigured : Bool
  bufferType : BufType
  cwCtrlValid : UInt32
  rxBuf : UInt32
  chDXEDescl : UInt32
deriving Repr, DecidableEq

/-- `HalDxe_t` with its two pools; `descBase` is the address of `pDXEDescPool`. -/
structure DescPool where
  pFreeXfrDescPoolHead : Option Nat
  pFreeDescPoolCount : Nat
  dxeDescPool : Nat → DescWords
  xfrDescPool : Nat → DescCB
  channels : Nat → ChannelCB
  configured : Bool
  descBase : UInt32

namespace DescPool

/-- The links of the pool. -/
def next (pool : DescPool) (position : Nat) : Option Nat := (pool.xfrDescPool position).next

def setDescCB (pool : DescPool) (position : Nat) (cb : DescCB) : DescPool :=
  { pool with xfrDescPool := Function.update pool.xfrDescPool position cb }

/-- A write to the descriptor that a control block points to. -/
def setWords (pool : DescPool) (position : Nat) (change : DescWords → DescWords) : DescPool :=
  let descriptor := (pool.xfrDescPool position).dxeDescAddr
  { pool with
    dxeDescPool :=
      Function.update pool.dxeDescPool descriptor (change (pool.dxeDescPool descriptor)) }

def setChannel (pool : DescPool) (channel : Nat) (ccb : ChannelCB) : DescPool :=
  { pool with channels := Function.update pool.channels channel ccb }

end DescPool

/-! ## The free list -/

/-- `sizeof(DXEDesc_t)`. -/
def sizeofDxeDesc : UInt32 := 32

/-- The loop of `nt_ndxe_allocate_desc` from the `i`th control block on. -/
def linkLoop : Nat → Nat → UInt32 → (Nat → DescCB) → Nat → DescCB
  | 0, _, _, xfrDescPool => xfrDescPool
  | more + 1, i, phyRun, xfrDescPool =>
      linkLoop more (i + 1) (phyRun + sizeofDxeDesc)
        (Function.update xfrDescPool i { xfrDescPool i with
          next := some (i + 1)
          dxeDescAddr := i
          physDescAddr := phyRun })

/-- `nt_ndxe_allocate_desc`. -/
def ntNdxeAllocateDesc (pool : DescPool) : DescPool × Ret :=
  if pool.configured then (pool, .fail)
  else
    let cleared : Nat → DescCB := fun _ => ⟨none, 0, 0, 0⟩
    let linked := linkLoop ntDxeTotalDescNo 0 pool.descBase cleared
    let last := ntDxeTotalDescNo - 1
    ({ pool with
        dxeDescPool := fun _ => ⟨0, 0, 0, 0⟩
        xfrDescPool := Function.update linked last { linked last with next := none }
        pFreeXfrDescPoolHead := some 0
        pFreeDescPoolCount := ntDxeTotalDescNo
        configured := true }, .success)

/-! ## The ring of a channel -/

/-- How the loop over the free list ends: at a null pointer that it reads from, without
a buffer, or behind the descriptors it takes. -/
inductive Taken where
  | fault
  | noBuffer (pool : DescPool)
  | taken (pool : DescPool) (pDCB pPrevDCB : Option Nat)

/-- The loop of `nt_ndxe_config_channel` over the free list, from its `i`th round on. -/
def takeLoop (cfg : DxeChannelCfg) (alloc : RxAlloc) :
    Nat → Nat → Option Nat → Option Nat → DescPool → Taken
  | 0, _, pDCB, pPrevDCB, pool => .taken pool pDCB pPrevDCB
  | _ + 1, _, none, _, _ => .fault
  | more + 1, i, some dcb, _, pool =>
      let pNextDCB := pool.next dcb
      if cfg.xfrType = .bmuToHost ∧ alloc.staging i = 0 then .noBuffer pool
      else
        let staged :=
          if cfg.xfrType = .bmuToHost then
            pool.setDescCB dcb
              { pool.xfrDescPool dcb with stagingBuffer := alloc.staging i }
          else pool
        let cleared := staged.setWords dcb fun words => { words with ctrl := 0 }
        match pNextDCB with
        | some following =>
            let phyRun := (cleared.xfrDescPool following).physDescAddr
            takeLoop cfg alloc more (i + 1) (some following) (some dcb)
              (cleared.setWords dcb fun words => { words with phyNextL := phyRun })
        | none => .taken cleared none (some dcb)

/-- The descriptors of a receive channel are made valid, and the last one is read back. -/
def receiveLoop (ccb : ChannelCB) : Nat → Option Nat → DescPool → Option DescPool
  | _, none, _ => none
  | 0, some _, pool => some pool
  | more + 1, some dcb, pool =>
      receiveLoop ccb more (pool.next dcb)
        (pool.setWords dcb fun words => { words with
          srcMemAddrL := ccb.refWQ
          dstMemAddrL := (pool.xfrDescPool dcb).stagingBuffer
          ctrl := ccb.cwCtrlValid })

/-- The fields that are set from the arguments. -/
def ChannelCB.applyCfg (ccb : ChannelCB) (cfg : DxeChannelCfg) : ChannelCB :=
  { ccb with
    noXfrDescUsed := 0
    nDescs := cfg.nDescs
    bufferType := cfg.bufferType
    xfrType := cfg.xfrType
    cwCtrlValid := cfg.cwCtrlValid
    refWQ := cfg.refWQ }

namespace DescPool

/-- The rest of `nt_ndxe_config_channel` behind the loop over the free list. -/
def closeRing (pool : DescPool) (channel : Nat) (cfg : DxeChannelCfg) (alloc : RxAlloc)
    (pDCB : Option Nat) (pHead pPrevDCB : Nat) : Option DescPool :=
  let pool := { pool with
    pFreeXfrDescPoolHead := pDCB
    pFreeDescPoolCount := pool.pFreeDescPoolCount - cfg.nDescs }
  let pool := pool.setDescCB pPrevDCB { pool.xfrDescPool pPrevDCB with next := some pHead }
  let phyRun := (pool.xfrDescPool pHead).physDescAddr
  let pool := pool.setWords pPrevDCB fun words => { words with phyNextL := phyRun }
  let ccb := { pool.channels channel with
    pRingFreeHead := some pHead
    pRingUsedHead := some pHead
    chDXEDescl := phyRun
    chConfigured := true }
  if cfg.xfrType = .bmuToHost then
    receiveLoop ccb cfg.nDescs (some pHead) (pool.setChannel channel { ccb with
      rxBuf := if cfg.bufferType = .heap then alloc.rxBuf else ccb.rxBuf
      chEnabled := true })
  else some (pool.setChannel channel ccb)

/-- `nt_ndxe_config_channel`, or nothing if it reads through a null pointer. -/
def configChannel (pool : DescPool) (channel : Nat) (cfg : DxeChannelCfg) (alloc : RxAlloc) :
    Option DescPool :=
  let ccb := pool.channels channel
  if channel ≥ dxeChannelMax then some pool
  else if ccb.chConfigured then some pool
  else
    let pool := pool.setChannel channel (ccb.applyCfg cfg)
    if cfg.nDescs = 0 then some pool
    else if pool.pFreeDescPoolCount ≥ cfg.nDescs then
      let pHead := pool.pFreeXfrDescPoolHead
      match takeLoop cfg alloc cfg.nDescs 0 pHead pHead pool with
      | .fault => none
      | .noBuffer pool => some pool
      | .taken pool pDCB pPrevDCB =>
          pHead.bind fun head => pPrevDCB.bind fun prev =>
            pool.closeRing channel cfg alloc pDCB head prev
    else some pool

end DescPool

/-- The calls on the pool. -/
inductive PoolEvent where
  | allocate
  | config (channel : Nat) (cfg : DxeChannelCfg) (alloc : RxAlloc)

def DescPool.step (pool : DescPool) : PoolEvent → Option DescPool
  | .allocate => some (ntNdxeAllocateDesc pool).1
  | .config channel cfg alloc => pool.configChannel channel cfg alloc

/-- The control block that `nt_ndxe_init` clears, with its pools at an address. -/
def DescPool.start (descBase : UInt32) : DescPool where
  pFreeXfrDescPoolHead := none
  pFreeDescPoolCount := 0
  dxeDescPool := fun _ => ⟨0, 0, 0, 0⟩
  xfrDescPool := fun _ => ⟨none, 0, 0, 0⟩
  channels := fun _ =>
    { pRingFreeHead := none
      pRingUsedHead := none
      noXfrDescUsed := 0
      nDescs := 0
      refWQ := 0
      xfrType := .hostToHost
      chEnabled := false
      chConfigured := false
      bufferType := .heap
      cwCtrlValid := 0
      rxBuf := 0
      chDXEDescl := 0 }
  configured := false
  descBase := descBase

end QHal.Dxe
